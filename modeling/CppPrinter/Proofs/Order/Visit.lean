import CppPrinter.Proofs.Order.Dependency
import CppPrinter.Proofs.Result

/-!
# The search for an order of the classes

The search keeps two lists: the order found so far, which stays settled, and the classes on the way
down to the one it visits, which wait for what they depend on. The two lists share nothing, and
every waiting class leads to the visited one over dependencies; so meeting a waiting class again
closes a cycle (`visitClass_visited`). The fuel is the number of classes that do not wait yet, and
it lasts. `settled_of_classOrder`, `blamesCycle_of_classOrder` and `classOrder_isOk_iff` say what
comes out of the whole search. A search that finds an order has looked at everything the classes
depend on (`dependenciesExist_of_classOrder`), so its order is settled without further conditions
(`settled_of_ordered`).
-/

namespace CppPrinter

open Relation

variable {ρ : Type} {classes : Array (Class ρ)}

/-- The error names a class that depends on itself. -/
def BlamesCycle (classes : Array (Class ρ)) (e : RenderError) : Prop :=
  ∃ c entry, classes[c.index]? = some entry ∧ OnCycle classes c ∧
    e = .circularDependency entry.name

/-- No class is both waiting and in order. -/
def Apart (waiting order : List ClassId) : Prop := ∀ w ∈ waiting, w ∉ order

/-- What a visit of the classes `ids` may come to: a settled order that keeps the old one, holds
the visited classes and none of the waiting ones, or an error that names a class on a cycle. -/
inductive Visited (classes : Array (Class ρ)) (waiting order ids : List ClassId) :
    Rendered (List ClassId) → Prop where
  | ordered (result : List ClassId) (settled : Settled classes result) (kept : order ⊆ result)
      (apart : Apart waiting result) (listed : ids ⊆ result) :
      Visited classes waiting order ids (.ok result)
  | circular (e : RenderError) (blame : BlamesCycle classes e) :
      Visited classes waiting order ids (.error e)

theorem lookUp_of_lt {α : Type} {table : Array α} {index : Nat} (inside : index < table.size) :
    lookUp table index = .ok table[index] :=
  lookUp_eq_ok_iff.2 (Array.getElem?_eq_getElem inside)

/-- Visits one after the other add up, as each hands a settled order to the next. -/
theorem foldlM_visited {waiting : List ClassId}
    {visit : List ClassId → ClassId → Rendered (List ClassId)} (ids : List ClassId)
    (each : ∀ order, ∀ id ∈ ids, Settled classes order → Apart waiting order →
      Visited classes waiting order [id] (visit order id))
    (order : List ClassId) (settled : Settled classes order) (apart : Apart waiting order) :
    Visited classes waiting order ids (ids.foldlM visit order) := by
  induction ids generalizing order with
  | nil => exact .ordered order settled (List.Subset.refl order) apart (List.nil_subset order)
  | cons id rest ih =>
    rw [List.foldlM_cons]
    have first := each order id (List.mem_cons_self ..) settled apart
    generalize visit order id = outcome at first
    cases first with
    | circular e blame => exact .circular e blame
    | ordered middle settled' kept apart' listed =>
      have later := ih (fun o d member => each o d (List.mem_cons_of_mem id member)) middle settled'
        apart'
      change Visited classes waiting order (id :: rest) (rest.foldlM visit middle)
      generalize rest.foldlM visit middle = outcome' at later
      cases later with
      | circular e blame => exact .circular e blame
      | ordered result settled'' kept' apart'' listed' =>
        refine .ordered result settled'' (List.Subset.trans kept kept') apart''
          (List.cons_subset.2 ⟨?_, listed'⟩)
        exact kept' (listed (List.mem_cons_self ..))

/-- One visit, with as much fuel as there are classes that do not wait. -/
theorem visitClass_visited (range : DependenciesExist classes) (fuel : Nat)
    (waiting order : List ClassId) (id : ClassId) (settled : Settled classes order)
    (apart : Apart waiting order) (distinct : waiting.Nodup)
    (exist : ∀ w ∈ waiting, w.index < classes.size) (enough : classes.size ≤ fuel + waiting.length)
    (inside : id.index < classes.size)
    (leads : ∀ w ∈ waiting, TransGen (DependsOn classes) w id) :
    Visited classes waiting order [id] (visitClass classes fuel waiting order id) := by
  induction fuel generalizing waiting order id with
  | zero =>
    -- Without fuel every class waits, the visited one too.
    have again : id ∈ waiting := by
      by_contra absent
      have bound := length_le_of_exist (List.nodup_cons.2 ⟨absent, distinct⟩)
        (List.forall_mem_cons.2 ⟨inside, exist⟩)
      rw [List.length_cons] at bound
      omega
    rw [visitClass, lookUp_of_lt inside]
    simp only [bind, Except.bind, if_neg (apart id again), if_pos again]
    exact .circular _ ⟨id, _, Array.getElem?_eq_getElem inside, leads id again, rfl⟩
  | succ fuel ih =>
    rw [visitClass, lookUp_of_lt inside]
    simp only [bind, Except.bind]
    by_cases done : id ∈ order
    · rw [if_pos done]
      exact .ordered order settled (List.Subset.refl order) apart (by simpa using done)
    by_cases again : id ∈ waiting
    · rw [if_neg done, if_pos again]
      exact .circular _ ⟨id, _, Array.getElem?_eq_getElem inside, leads id again, rfl⟩
    rw [if_neg done, if_neg again]
    have found : classes[id.index]? = some classes[id.index] := Array.getElem?_eq_getElem inside
    have below : Visited classes (id :: waiting) order classes[id.index].dependencies
        (classes[id.index].dependencies.foldlM (visitClass classes fuel (id :: waiting)) order) := by
      refine foldlM_visited _ ?_ order settled (List.forall_mem_cons.2 ⟨done, apart⟩)
      intro o d member settled' apart'
      have depends : DependsOn classes id d := (dependsOn_iff_mem found).2 member
      refine ih (id :: waiting) o d settled' apart' (List.nodup_cons.2 ⟨again, distinct⟩)
        (List.forall_mem_cons.2 ⟨inside, exist⟩) ?_ (range id d depends)
        (List.forall_mem_cons.2 ⟨.single depends, fun w waits => (leads w waits).tail depends⟩)
      rw [List.length_cons]
      omega
    generalize classes[id.index].dependencies.foldlM (visitClass classes fuel (id :: waiting)) order
      = outcome at below
    cases below with
    | circular e blame => exact .circular e blame
    | ordered before settled' kept apart' listed =>
      obtain ⟨fresh, apart''⟩ := List.forall_mem_cons.1 apart'
      have ready : ∀ d, DependsOn classes id d → d ∈ before := fun d depends =>
        listed ((dependsOn_iff_mem found).1 depends)
      refine .ordered (before ++ [id]) (settled'.snoc fresh inside ready)
        (List.Subset.trans kept (List.subset_append_left before [id])) ?_
        (List.subset_append_right before [id])
      intro w waits member
      rcases List.mem_append.1 member with old | last
      · exact apart'' w waits old
      · exact again (List.mem_singleton.1 last ▸ waits)

/-- The whole search visits every class of the program. -/
theorem classOrder_visited (range : DependenciesExist classes) :
    Visited classes [] [] ((List.range classes.size).map ClassId.mk) (classOrder classes) := by
  refine foldlM_visited _ ?_ [] Settled.nil (List.forall_mem_nil _)
  intro order id member settled apart
  obtain ⟨i, inside, rfl⟩ := List.mem_map.1 member
  exact visitClass_visited range classes.size [] order ⟨i⟩ settled apart List.nodup_nil
    (List.forall_mem_nil _) (Nat.le_add_right ..) (List.mem_range.1 inside) (List.forall_mem_nil _)

/-- An order is settled and holds exactly the classes of the program. -/
theorem settled_of_classOrder (range : DependenciesExist classes) {order : List ClassId}
    (ordered : classOrder classes = .ok order) :
    Settled classes order ∧ ∀ id, id ∈ order ↔ id.index < classes.size := by
  have outcome := classOrder_visited range
  rw [ordered] at outcome
  cases outcome with
  | ordered _ settled _ _ listed =>
    refine ⟨settled, fun id => ⟨settled.exist id, fun inside => ?_⟩⟩
    exact listed (List.mem_map.2 ⟨id.index, List.mem_range.2 inside, rfl⟩)

/-- A search without an order blames a class on a cycle. -/
theorem blamesCycle_of_classOrder (range : DependenciesExist classes) {e : RenderError}
    (failed : classOrder classes = .error e) : BlamesCycle classes e := by
  have outcome := classOrder_visited range
  rw [failed] at outcome
  cases outcome with
  | circular _ blame => exact blame

/-- There is an order exactly where nothing depends on itself. -/
theorem classOrder_isOk_iff (range : DependenciesExist classes) :
    (∃ order, classOrder classes = .ok order) ↔ ∀ c, ¬ OnCycle classes c := by
  constructor
  · rintro ⟨order, ordered⟩ c cycle
    obtain ⟨settled, all⟩ := settled_of_classOrder range ordered
    exact settled.acyclic ((all c).2 cycle.exists) cycle
  · intro acyclic
    cases outcome : classOrder classes with
    | ok order => exact ⟨order, rfl⟩
    | error e =>
      obtain ⟨c, -, -, cycle, -⟩ := blamesCycle_of_classOrder range outcome
      exact absurd cycle (acyclic c)

/-! ### A search that found an order -/

/-- The result of visiting `ids` keeps the old order and lists the visited classes, and whatever it
lists exists and has all it depends on in the list. -/
structure Extends (classes : Array (Class ρ)) (order ids result : List ClassId) : Prop where
  kept : order ⊆ result
  listed : ids ⊆ result
  exist : ∀ c ∈ result, c.index < classes.size
  closed : ∀ c ∈ result, ∀ d, DependsOn classes c d → d ∈ result

/-- Visits one after the other add up. -/
theorem foldlM_extends {visit : List ClassId → ClassId → Rendered (List ClassId)}
    (ids : List ClassId)
    (each : ∀ order result, ∀ id ∈ ids, Extends classes order [] order →
      visit order id = .ok result → Extends classes order [id] result)
    (order result : List ClassId) (start : Extends classes order [] order)
    (visited : ids.foldlM visit order = .ok result) : Extends classes order ids result := by
  induction ids generalizing order with
  | nil =>
    cases visited
    exact start
  | cons id rest ih =>
    rw [List.foldlM_cons, bind_eq_ok_iff] at visited
    obtain ⟨middle, first, later⟩ := visited
    have here := each order middle id (List.mem_cons_self ..) start first
    have there := ih (fun o r d member => each o r d (List.mem_cons_of_mem id member)) middle
      ⟨List.Subset.refl middle, List.nil_subset middle, here.exist, here.closed⟩ later
    exact ⟨List.Subset.trans here.kept there.kept,
      List.cons_subset.2 ⟨there.kept (here.listed (List.mem_cons_self ..)), there.listed⟩,
      there.exist, there.closed⟩

theorem visitClass_extends (fuel : Nat) (waiting order result : List ClassId) (id : ClassId)
    (start : Extends classes order [] order)
    (visited : visitClass classes fuel waiting order id = .ok result) :
    Extends classes order [id] result := by
  induction fuel generalizing waiting order result id with
  | zero =>
    rw [visitClass, bind_eq_ok_iff] at visited
    obtain ⟨c, -, visited⟩ := visited
    split at visited
    · rename_i done
      cases visited
      exact ⟨start.kept, by simpa using done, start.exist, start.closed⟩
    · split at visited <;> cases visited
  | succ fuel ih =>
    rw [visitClass, bind_eq_ok_iff] at visited
    obtain ⟨c, looked, visited⟩ := visited
    have found := lookUp_eq_ok_iff.1 looked
    split at visited
    · rename_i done
      cases visited
      exact ⟨start.kept, by simpa using done, start.exist, start.closed⟩
    · split at visited
      · cases visited
      · obtain ⟨before, below, last⟩ := bind_eq_ok_iff.1 visited
        cases last
        have first := foldlM_extends c.dependencies
          (fun o r d _ start' visited' => ih (id :: waiting) o r d start' visited') order before
          start below
        refine ⟨List.Subset.trans first.kept (List.subset_append_left ..),
          List.subset_append_right .., ?_, ?_⟩
        · exact List.forall_mem_append.2 ⟨first.exist,
            List.forall_mem_singleton.2 (Array.getElem?_eq_some_iff.1 found).1⟩
        · refine List.forall_mem_append.2 ⟨fun c' member d depends =>
            List.mem_append_left _ (first.closed c' member d depends), ?_⟩
          refine List.forall_mem_singleton.2 fun d depends => List.mem_append_left _ ?_
          exact first.listed ((dependsOn_iff_mem found).1 depends)

/-- Where an order is found, every class depends on classes that exist. -/
theorem dependenciesExist_of_classOrder {order : List ClassId}
    (ordered : classOrder classes = .ok order) : DependenciesExist classes := by
  have whole := foldlM_extends _ (fun o r id _ => visitClass_extends classes.size [] o r id) []
    order ⟨List.nil_subset _, List.nil_subset _, by simp, by simp⟩ ordered
  intro c d depends
  have listed : c ∈ order :=
    whole.listed (List.mem_map.2 ⟨c.index, List.mem_range.2 depends.exists_left, rfl⟩)
  exact whole.exist d (whole.closed c listed d depends)

/-- An order that is found is settled and holds the classes of the program, whatever they are. -/
theorem settled_of_ordered {order : List ClassId} (ordered : classOrder classes = .ok order) :
    Settled classes order ∧ ∀ id, id ∈ order ↔ id.index < classes.size :=
  settled_of_classOrder (dependenciesExist_of_classOrder ordered) ordered

end CppPrinter
