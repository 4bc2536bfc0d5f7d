import CppPrinter.Program.Basic
import CppPrinter.Proofs.Order.Visit

/-!
# The inheritance test finds every ancestor

A class is the same as its base or inherits from it when parent links lead from the one to the
other (`Scope.Extends`). The test follows them with a bound on its steps, so that parents in a
circle do not keep it going. The bound loses nothing: as long as the walk has not met the base, the
classes behind it are distinct (`Scope.Walked`), because a class met again would close a circle that
the base is not on. So the walk is over, one way or the other, after as many steps as there are
classes (`derivesWithin_of_reaches`), and the test decides the reflexive and transitive closure of
the parent links (`isSameOrDerived_eq_reachability`).
-/

namespace CppPrinter

open Relation

namespace Scope

variable {scope : Scope} {base : ClassId}

/-- The class `c` has the parent `d`. -/
def Extends (scope : Scope) (c d : ClassId) : Prop :=
  ∃ head, scope.classes[c.index]? = some head ∧ head.parent = some d

/-- The parent of every class exists. -/
def ParentsExist (scope : Scope) : Prop :=
  ∀ head ∈ scope.classes, ∀ parent ∈ head.parent, parent.index < scope.classes.size

theorem Extends.parent_exists (inside : scope.ParentsExist) {c d : ClassId}
    (link : scope.Extends c d) : d.index < scope.classes.size := by
  obtain ⟨head, found, parent⟩ := link
  exact inside head (Array.mem_of_getElem? found) d parent

/-- A class that is not the base passes the question on to its parent. -/
theorem derivesWithin_of_extends {c d : ClassId} (link : scope.Extends c d) (other : c ≠ base)
    (steps : Nat) : scope.derivesWithin base (steps + 1) c = scope.derivesWithin base steps d := by
  obtain ⟨head, found, parent⟩ := link
  rw [derivesWithin, if_neg other, class?, lookUp_eq_ok_iff.2 found, ok_bind, parent]

theorem derivesWithin_self (steps : Nat) : scope.derivesWithin base (steps + 1) base = .ok true :=
  if_pos rfl

/-- What the test finds is there: the steps it took are parent links. -/
theorem reaches_of_derivesWithin {steps : Nat} {c : ClassId}
    (found : scope.derivesWithin base steps c = .ok true) : ReflTransGen scope.Extends c base := by
  induction steps generalizing c with
  | zero => cases found
  | succ steps ih =>
    rw [derivesWithin] at found
    split at found
    case isTrue same =>
      rw [same]
    case isFalse =>
      obtain ⟨head, atC, answer⟩ := bind_eq_ok_iff.1 found
      split at answer
      case h_1 parent isParent =>
        exact .head ⟨head, lookUp_eq_ok_iff.1 atC, isParent⟩ (ih answer)
      case h_2 => cases answer

/-- From a class that exists the test comes to an answer. -/
theorem exists_derivesWithin (inside : scope.ParentsExist) (base : ClassId) (steps : Nat)
    {c : ClassId} (present : c.index < scope.classes.size) :
    ∃ answer, scope.derivesWithin base steps c = .ok answer := by
  induction steps generalizing c with
  | zero => exact ⟨false, rfl⟩
  | succ steps ih =>
    by_cases same : c = base
    · exact ⟨true, same ▸ derivesWithin_self steps⟩
    · have found : scope.classes[c.index]? = some scope.classes[c.index] :=
        Array.getElem?_eq_getElem present
      cases parent : scope.classes[c.index].parent with
      | none =>
        refine ⟨false, ?_⟩
        rw [derivesWithin, if_neg same, class?, lookUp_of_lt present, ok_bind, parent]
        rfl
      | some d =>
        have link : scope.Extends c d := ⟨_, found, parent⟩
        rw [derivesWithin_of_extends link same]
        exact ih (link.parent_exists inside)

/-! ### The bound on the walk -/

/-- The walk has come over the classes `trail` to `current` without meeting the base: they exist, no
two are the same, and their parents are among them or where the walk stands now. -/
structure Walked (scope : Scope) (base : ClassId) (trail : List ClassId) (current : ClassId) :
    Prop where
  distinct : trail.Nodup
  exist : ∀ c ∈ trail, c.index < scope.classes.size
  missed : base ∉ trail
  linked : ∀ c ∈ trail, ∀ d, scope.Extends c d → d ∈ trail ∨ d = current

namespace Walked

variable {trail : List ClassId} {current : ClassId}

theorem start : scope.Walked base [] current where
  distinct := List.nodup_nil
  exist := by simp
  missed := by simp
  linked := by simp

/-- A walk that stands on a class it has been to stays among those it has been to. -/
theorem closed (h : scope.Walked base trail current) (again : current ∈ trail) {d : ClassId}
    (path : ReflTransGen scope.Extends current d) : d ∈ trail := by
  induction path with
  | refl => exact again
  | tail _ link ih =>
    rcases h.linked _ ih _ link with old | rfl
    · exact old
    · exact again

/-- As long as the base is ahead, the walk stands on a class it has not been to. -/
theorem fresh (h : scope.Walked base trail current)
    (path : ReflTransGen scope.Extends current base) : current ∉ trail :=
  fun again => h.missed (h.closed again path)

/-- One link further. -/
theorem step (h : scope.Walked base trail current)
    (path : ReflTransGen scope.Extends current base) (other : current ≠ base) {next : ClassId}
    (link : scope.Extends current next) : scope.Walked base (current :: trail) next where
  distinct := List.nodup_cons.2 ⟨h.fresh path, h.distinct⟩
  exist := by
    obtain ⟨head, found, -⟩ := link
    have present : current.index < scope.classes.size := (Array.getElem?_eq_some_iff.1 found).1
    exact List.forall_mem_cons.2 ⟨present, h.exist⟩
  missed := by
    intro listed
    rcases List.mem_cons.1 listed with same | old
    · exact other same.symm
    · exact h.missed old
  linked := by
    intro c listed d link'
    rcases List.mem_cons.1 listed with rfl | old
    · -- a class has one parent
      obtain ⟨head, found, parent⟩ := link
      obtain ⟨head', found', parent'⟩ := link'
      rw [found] at found'
      cases found'
      rw [parent] at parent'
      exact .inr (Option.some.inj parent').symm
    · rcases h.linked c old d link' with known | rfl
      · exact .inl (List.mem_cons_of_mem _ known)
      · exact .inl (List.mem_cons_self ..)

/-- With the classes of the trail and the steps that are left as many as all classes, no base ahead
is lost. -/
theorem finds (h : scope.Walked base trail current)
    (path : ReflTransGen scope.Extends current base) (present : current.index < scope.classes.size)
    (inside : scope.ParentsExist) {steps : Nat} (enough : scope.classes.size ≤ trail.length + steps) :
    scope.derivesWithin base steps current = .ok true := by
  induction steps generalizing trail current with
  | zero =>
    -- the trail and the class at its end would be one class too many
    have distinct : (current :: trail).Nodup := List.nodup_cons.2 ⟨h.fresh path, h.distinct⟩
    have exist : ∀ c ∈ current :: trail, c.index < scope.classes.size :=
      List.forall_mem_cons.2 ⟨present, h.exist⟩
    have bound := length_le_of_exist distinct exist
    rw [List.length_cons] at bound
    omega
  | succ steps ih =>
    rcases ReflTransGen.cases_head path with rfl | ⟨next, link, rest⟩
    · exact derivesWithin_self steps
    · by_cases same : current = base
      · rw [same]
        exact derivesWithin_self steps
      · rw [derivesWithin_of_extends link same]
        apply ih (h.step path same link) rest (link.parent_exists inside)
        rw [List.length_cons]
        omega

end Walked

/-- As many steps as there are classes reach every base there is to reach. -/
theorem derivesWithin_of_reaches (inside : scope.ParentsExist) {steps : Nat}
    (enough : scope.classes.size ≤ steps) {c : ClassId} (present : c.index < scope.classes.size)
    (path : ReflTransGen scope.Extends c base) : scope.derivesWithin base steps c = .ok true := by
  apply Walked.start.finds path present inside
  rw [List.length_nil]
  omega

/-- With enough steps the walk decides what parent links reach. -/
theorem derivesWithin_eq_decide (inside : scope.ParentsExist) (base : ClassId) {steps : Nat}
    (enough : scope.classes.size ≤ steps) {c : ClassId} (present : c.index < scope.classes.size) :
    ∃ answer, scope.derivesWithin base steps c = .ok answer ∧
      (answer = true ↔ ReflTransGen scope.Extends c base) := by
  obtain ⟨answer, comesTo⟩ := exists_derivesWithin inside base steps present
  refine ⟨answer, comesTo, ?_, ?_⟩
  · rintro rfl
    exact reaches_of_derivesWithin comesTo
  · intro path
    have found := derivesWithin_of_reaches inside enough present path
    rw [comesTo] at found
    exact Except.ok.inj found

/-- The test on classes that exist says whether parent links reach the base. -/
theorem isSameOrDerived_eq_true_iff (inside : scope.ParentsExist) {derived : ClassId}
    (present : derived.index < scope.classes.size) :
    scope.isSameOrDerived derived base = .ok true ↔ ReflTransGen scope.Extends derived base := by
  obtain ⟨answer, comesTo, decides⟩ := derivesWithin_eq_decide inside base
    (Nat.le_succ scope.classes.size) present
  rw [isSameOrDerived, comesTo, ← decides]
  exact ⟨Except.ok.inj, congrArg Except.ok⟩

end Scope

/-! ### Programs -/

/-- The class `c` of the program has the parent `d`. -/
def Program.Extends (p : Program) (c d : ClassId) : Prop :=
  ∃ entry, p.classes[c.index]? = some entry ∧ entry.parent = some d

/-- Expressions see the parents that the program declares. -/
theorem Program.scope_extends (p : Program) : p.scope.Extends = p.Extends := by
  funext c d
  simp [Scope.Extends, Program.Extends, Program.scope, Class.head]

@[simp] theorem Program.scope_classes_size (p : Program) :
    p.scope.classes.size = p.classes.size := by
  simp [Program.scope]

theorem Program.scope_parentsExist {p : Program}
    (inside : ∀ c ∈ p.classes, ∀ parent ∈ c.parent, parent.index < p.classes.size) :
    p.scope.ParentsExist := by
  intro head listed parent isParent
  obtain ⟨c, member, rfl⟩ := Array.mem_map.1 listed
  rw [p.scope_classes_size]
  exact inside c member parent isParent

/-- Where parents exist, in a circle or not, the inheritance test comes to an answer for every class
that exists. The answer is whether parent links lead to the base, and any bound on the walk that is
no less than the number of classes gives the same one. So the relation that the test decides is
reflexive and transitive. -/
theorem isSameOrDerived_eq_reachability (p : Program)
    (inside : ∀ c ∈ p.classes, ∀ parent ∈ c.parent, parent.index < p.classes.size) :
    (∀ derived base : ClassId, derived.index < p.classes.size →
      ∃ answer, p.scope.isSameOrDerived derived base = .ok answer ∧
        (answer = true ↔ ReflTransGen p.Extends derived base) ∧
        ∀ steps ≥ p.classes.size, p.scope.derivesWithin base steps derived = .ok answer) ∧
    (∀ c : ClassId, c.index < p.classes.size → p.scope.isSameOrDerived c c = .ok true) ∧
    ∀ a b c : ClassId, a.index < p.classes.size → b.index < p.classes.size →
      p.scope.isSameOrDerived a b = .ok true → p.scope.isSameOrDerived b c = .ok true →
        p.scope.isSameOrDerived a c = .ok true := by
  have exist := p.scope_parentsExist inside
  refine ⟨?decides, ?reflexive, ?transitive⟩
  case decides =>
    intro derived base present
    rw [← p.scope_classes_size] at present ⊢
    obtain ⟨answer, comesTo, iff⟩ := Scope.derivesWithin_eq_decide exist base
      (Nat.le_succ p.scope.classes.size) present
    rw [← p.scope_extends]
    refine ⟨answer, comesTo, iff, ?_⟩
    intro steps enough
    obtain ⟨answer', comesTo', iff'⟩ := Scope.derivesWithin_eq_decide exist base
      enough present
    have same : answer' = answer := Bool.eq_iff_iff.2 (iff'.trans iff.symm)
    rwa [same] at comesTo'
  case reflexive =>
    intro c present
    rw [← p.scope_classes_size] at present
    exact (Scope.isSameOrDerived_eq_true_iff exist present).2 .refl
  case transitive =>
    intro a b c presentA presentB first second
    rw [← p.scope_classes_size] at presentA presentB
    rw [Scope.isSameOrDerived_eq_true_iff exist presentA] at first ⊢
    exact first.trans ((Scope.isSameOrDerived_eq_true_iff exist presentB).1 second)

/-- Parents in a circle with a class that leads into it, and a class apart. -/
def circleOfParents : Program where
  classes := #[
    ⟨"Leaf", some ⟨1⟩, .normal, none, [], [], []⟩,
    ⟨"Left", some ⟨2⟩, .normal, none, [], [], []⟩,
    ⟨"Right", some ⟨1⟩, .normal, none, [], [], []⟩,
    ⟨"Apart", none, .normal, none, [], [], []⟩]

theorem isSameOrDerived_eq_reachability_circle :
    (∀ c ∈ circleOfParents.classes, ∀ parent ∈ c.parent,
      parent.index < circleOfParents.classes.size) ∧
    circleOfParents.scope.isSameOrDerived ⟨0⟩ ⟨2⟩ = .ok true ∧
    ¬ ReflTransGen circleOfParents.Extends ⟨0⟩ ⟨3⟩ := by
  have inside : ∀ c ∈ circleOfParents.classes, ∀ parent ∈ c.parent,
      parent.index < circleOfParents.classes.size := by decide
  obtain ⟨decides, -, transitive⟩ := isSameOrDerived_eq_reachability circleOfParents inside
  refine ⟨inside, ?_, ?_⟩
  · have toLeft : circleOfParents.scope.isSameOrDerived ⟨0⟩ ⟨1⟩ = .ok true := by cbv
    have toRight : circleOfParents.scope.isSameOrDerived ⟨1⟩ ⟨2⟩ = .ok true := by cbv
    exact transitive ⟨0⟩ ⟨1⟩ ⟨2⟩ (by decide) (by decide) toLeft toRight
  · obtain ⟨answer, comesTo, iff, -⟩ := decides ⟨0⟩ ⟨3⟩ (by decide)
    have missed : circleOfParents.scope.isSameOrDerived ⟨0⟩ ⟨3⟩ = .ok false := by cbv
    rw [missed] at comesTo
    intro path
    cases (Except.ok.inj comesTo).trans (iff.2 path)

end CppPrinter
