import CppPrinter.Proofs.Order.Visit

/-!
# Which of two classes stands first

A search that finds an order puts behind the classes it has, for every class it visits, what that
class reaches over dependencies and nothing else (`visitClass_adds`). So of two classes that neither
the program nor a chain of dependencies puts in order, the one that is met first stands first.
`MetBefore` says which one that is, from the dependencies alone and without the lists that the search
carries; `standsBefore_iff_metBefore` says that this is the order found.
-/

namespace CppPrinter

open Relation

variable {ρ : Type} {classes : Array (Class ρ)}

/-- The class at position `c` is the one at position `d`, or depends on it, directly or over
others. -/
def Reaches (classes : Array (Class ρ)) (c d : ClassId) : Prop :=
  ReflTransGen (DependsOn classes) c d

/-- Who goes through the classes of a list, and before each class through what it depends on, comes to
the class `d` and has not come to the class `c` by then. -/
inductive MetBefore (classes : Array (Class ρ)) (d c : ClassId) : List ClassId → Prop where
  /-- The first class leads to `d` alone. -/
  | apart {id : ClassId} {rest : List ClassId} (found : Reaches classes id d)
      (missed : ¬ Reaches classes id c) : MetBefore classes d c (id :: rest)
  /-- The dependencies of the first class decide. -/
  | within {id : ClassId} {rest : List ClassId} {entry : Class ρ}
      (listed : classes[id.index]? = some entry)
      (inside : MetBefore classes d c entry.dependencies) : MetBefore classes d c (id :: rest)
  /-- The first class leads to neither. -/
  | later {id : ClassId} {rest : List ClassId} (missed : ¬ Reaches classes id d)
      (missed' : ¬ Reaches classes id c) (behind : MetBefore classes d c rest) :
      MetBefore classes d c (id :: rest)

namespace MetBefore

variable {d c : ClassId} {ids : List ClassId}

theorem ne (h : MetBefore classes d c ids) : d ≠ c := by
  induction h with
  | apart found missed =>
    rintro rfl
    exact missed found
  | within _ _ ih => exact ih
  | later _ _ _ ih => exact ih

/-- What is met is reached. -/
theorem reaches (h : MetBefore classes d c ids) : ∃ id ∈ ids, Reaches classes id d := by
  induction h with
  | apart found _ => exact ⟨_, List.mem_cons_self .., found⟩
  | @within id rest entry listed _ ih =>
    obtain ⟨needed, member, reaches⟩ := ih
    exact ⟨id, List.mem_cons_self .., .head ((dependsOn_iff_mem listed).2 member) reaches⟩
  | later _ _ _ ih =>
    obtain ⟨id, member, reaches⟩ := ih
    exact ⟨id, List.mem_cons_of_mem _ member, reaches⟩

/-- A class that does not lead to `d` does not lead to `c` either, and is passed over. -/
theorem of_missed {id : ClassId} {rest : List ClassId} (h : MetBefore classes d c (id :: rest))
    (missed : ¬ Reaches classes id d) : ¬ Reaches classes id c ∧ MetBefore classes d c rest := by
  cases h with
  | apart found _ => exact absurd found missed
  | within listed inside =>
    obtain ⟨needed, member, reaches⟩ := inside.reaches
    exact absurd (.head ((dependsOn_iff_mem listed).2 member) reaches) missed
  | later _ missed' behind => exact ⟨missed', behind⟩

end MetBefore

/-! ### What a visit adds -/

/-- Visits one after the other put behind the order what the visited classes reach. -/
theorem foldlM_adds {visit : List ClassId → ClassId → Rendered (List ClassId)}
    (each : ∀ order result id, visit order id = .ok result →
      ∃ new, result = order ++ new ∧ ∀ c ∈ new, Reaches classes id c)
    (ids order result : List ClassId) (visited : ids.foldlM visit order = .ok result) :
    ∃ new, result = order ++ new ∧ ∀ c ∈ new, ∃ id ∈ ids, Reaches classes id c := by
  induction ids generalizing order with
  | nil =>
    cases visited
    exact ⟨[], (List.append_nil _).symm, List.forall_mem_nil _⟩
  | cons id rest ih =>
    rw [List.foldlM_cons, bind_eq_ok_iff] at visited
    obtain ⟨middle, first, later⟩ := visited
    obtain ⟨new, rfl, here⟩ := each order middle id first
    obtain ⟨new', rfl, there⟩ := ih _ later
    refine ⟨new ++ new', List.append_assoc .., List.forall_mem_append.2 ⟨?_, ?_⟩⟩
    · exact fun c member => ⟨id, List.mem_cons_self .., here c member⟩
    · intro c member
      obtain ⟨needed, listed, reaches⟩ := there c member
      exact ⟨needed, List.mem_cons_of_mem id listed, reaches⟩

/-- What a visit comes to: nothing new, if the class is in order already, or the class behind all it
depends on. -/
theorem visitClass_cases {fuel : Nat} {waiting order result : List ClassId} {id : ClassId}
    (visited : visitClass classes fuel waiting order id = .ok result) :
    id ∈ order ∧ result = order ∨ id ∉ order ∧ ∃ less entry before, fuel = less + 1 ∧
      classes[id.index]? = some entry ∧ result = before ++ [id] ∧
      entry.dependencies.foldlM (visitClass classes less (id :: waiting)) order = .ok before := by
  cases fuel with
  | zero =>
    obtain ⟨entry, -, visited⟩ := bind_eq_ok_iff.1 (by rwa [visitClass] at visited)
    split at visited
    · rename_i done
      exact .inl ⟨done, (Except.ok.inj visited).symm⟩
    · split at visited <;> cases visited
  | succ less =>
    obtain ⟨entry, looked, visited⟩ := bind_eq_ok_iff.1 (by rwa [visitClass] at visited)
    split at visited
    · rename_i done
      exact .inl ⟨done, (Except.ok.inj visited).symm⟩
    · rename_i fresh
      split at visited
      · cases visited
      · obtain ⟨before, below, last⟩ := bind_eq_ok_iff.1 visited
        exact .inr ⟨fresh, less, entry, before, rfl, lookUp_eq_ok_iff.1 looked,
          (Except.ok.inj last).symm, below⟩

theorem visitClass_adds (fuel : Nat) (waiting order result : List ClassId) (id : ClassId)
    (visited : visitClass classes fuel waiting order id = .ok result) :
    ∃ new, result = order ++ new ∧ ∀ c ∈ new, Reaches classes id c := by
  induction fuel generalizing waiting order result id with
  | zero =>
    obtain ⟨-, rfl⟩ | ⟨-, less, -, -, noFuel, -⟩ := visitClass_cases visited
    · exact ⟨[], (List.append_nil _).symm, List.forall_mem_nil _⟩
    · cases noFuel
  | succ fuel ih =>
    obtain ⟨-, rfl⟩ | ⟨-, less, entry, before, fuel', listed, rfl, below⟩ := visitClass_cases visited
    · exact ⟨[], (List.append_nil _).symm, List.forall_mem_nil _⟩
    · cases fuel'
      obtain ⟨new, rfl, reached⟩ :=
        foldlM_adds (fun o r d => ih (id :: waiting) o r d) _ order before below
      refine ⟨new ++ [id], List.append_assoc .., List.forall_mem_append.2 ⟨?_, ?_⟩⟩
      · intro c member
        obtain ⟨needed, isNeeded, reaches⟩ := reached c member
        exact .head ((dependsOn_iff_mem listed).2 isNeeded) reaches
      · exact List.forall_mem_singleton.2 .refl

/-- Whoever lists a class lists all that it reaches. -/
theorem Extends.mem_of_reaches {order ids result : List ClassId}
    (h : Extends classes order ids result) {c d : ClassId} (listed : c ∈ result)
    (reaches : Reaches classes c d) : d ∈ result := by
  induction reaches with
  | refl => exact listed
  | tail _ depends ih => exact h.closed _ ih _ depends

/-! ### Which of two classes a visit puts first -/

/-- In a list without repetition, what stands before an element is what its front holds. -/
theorem standsBefore_iff_mem {before after : List ClassId} {d c : ClassId}
    (distinct : (before ++ c :: after).Nodup) :
    StandsBefore (before ++ c :: after) d c ↔ d ∈ before := by
  constructor
  · intro stands
    exact stands before after rfl
  · intro member front back split
    -- Neither front goes on behind the other, since `c` would come again.
    rcases List.append_eq_append_iff.1 split with ⟨mid, rfl, rest⟩ | ⟨mid, rfl, rest⟩
    · exact List.mem_append_left mid member
    · cases mid with
      | nil => simpa using member
      | cons x mid =>
        obtain ⟨rfl, rfl⟩ := List.cons.inj rest
        simp [List.nodup_append] at distinct

/-- What is added behind a list changes nothing in front of its elements. -/
theorem standsBefore_append_iff {front back : List ClassId} {d c : ClassId}
    (distinct : (front ++ back).Nodup) (inside : c ∈ front) :
    StandsBefore (front ++ back) d c ↔ StandsBefore front d c := by
  obtain ⟨before, after, rfl⟩ := List.append_of_mem inside
  have shape : before ++ c :: after ++ back = before ++ c :: (after ++ back) := by simp
  rw [standsBefore_iff_mem distinct.of_append_left]
  rw [shape] at distinct ⊢
  exact standsBefore_iff_mem distinct

/-- An element that a list does not hold stands behind all of it. -/
theorem standsBefore_of_notMem {front : List ClassId} {d c : ClassId} (back : List ClassId)
    (inside : d ∈ front) (outside : c ∉ front) : StandsBefore (front ++ back) d c := by
  intro before after split
  rcases List.append_eq_append_iff.1 split with ⟨mid, rfl, -⟩ | ⟨mid, rfl, rest⟩
  · exact List.mem_append_left mid inside
  · cases mid with
    | nil => simpa using inside
    | cons x mid =>
      obtain ⟨rfl, -⟩ := List.cons.inj rest
      exact absurd (by simp) outside

section Visit

variable {d c : ClassId} (different : d ≠ c)

/-- Visits one after the other put first what is met first, provided that a single visit does so
with what it reaches. -/
theorem foldlM_metBefore_iff {fuel : Nat} {waiting : List ClassId}
    (single : ∀ order result id, Extends classes order [] order →
      visitClass classes fuel waiting order id = .ok result → result.Nodup → d ∉ order → c ∉ order →
      Reaches classes id d → Reaches classes id c → (StandsBefore result d c ↔
        ∃ entry, classes[id.index]? = some entry ∧ MetBefore classes d c entry.dependencies))
    (ids order result : List ClassId) (start : Extends classes order [] order)
    (visited : ids.foldlM (visitClass classes fuel waiting) order = .ok result)
    (distinct : result.Nodup) (noD : d ∉ order) (noC : c ∉ order) :
    d ∈ result ∧ StandsBefore result d c ↔ MetBefore classes d c ids := by
  induction ids generalizing order with
  | nil =>
    cases visited
    exact ⟨fun h => absurd h.1 noD, nofun⟩
  | cons id rest ih =>
    rw [List.foldlM_cons, bind_eq_ok_iff] at visited
    obtain ⟨middle, first, later⟩ := visited
    have here := visitClass_extends fuel waiting order middle id start first
    obtain ⟨new, shape, added⟩ := visitClass_adds fuel waiting order middle id first
    obtain ⟨new', rfl, -⟩ := foldlM_adds (visitClass_adds fuel waiting) rest middle result later
    -- The visit of the first class adds exactly what the class reaches.
    have mem_iff {x : ClassId} (fresh : x ∉ order) : x ∈ middle ↔ Reaches classes id x := by
      constructor
      · intro member
        rw [shape, List.mem_append] at member
        exact added x (member.resolve_left fresh)
      · exact here.mem_of_reaches (here.listed (List.mem_cons_self ..))
    by_cases toD : Reaches classes id d <;> by_cases toC : Reaches classes id c
    · have inC := (mem_iff noC).2 toC
      have decided := single order middle id start first distinct.of_append_left noD noC toD toC
      rw [standsBefore_append_iff distinct inC, decided]
      constructor
      · rintro ⟨-, entry, listed, inside⟩
        exact .within listed inside
      · intro met
        refine ⟨List.mem_append_left _ ((mem_iff noD).2 toD), ?_⟩
        cases met with
        | apart _ missed => exact absurd toC missed
        | within listed inside => exact ⟨_, listed, inside⟩
        | later missed => exact absurd toD missed
    · have inD := (mem_iff noD).2 toD
      have stands := standsBefore_of_notMem new' inD (mt (mem_iff noC).1 toC)
      exact ⟨fun _ => .apart toD toC, fun _ => ⟨List.mem_append_left _ inD, stands⟩⟩
    · have inC := (mem_iff noC).2 toC
      constructor
      · rintro ⟨-, stands⟩
        obtain ⟨before, after, rfl⟩ := List.append_of_mem inC
        have inFront : d ∈ before ++ c :: after :=
          List.mem_append_left _ (stands before (after ++ new') (by simp))
        exact absurd ((mem_iff noD).1 inFront) toD
      · exact fun met => absurd toC (met.of_missed toD).1
    · have start' : Extends classes middle [] middle :=
        ⟨List.Subset.refl _, List.nil_subset _, here.exist, here.closed⟩
      rw [ih middle start' later (mt (mem_iff noD).1 toD) (mt (mem_iff noC).1 toC)]
      exact ⟨.later toD toC, fun met => (met.of_missed toD).2⟩

include different

/-- A visit that reaches two new classes leaves it to the dependencies which one stands first. -/
theorem visitClass_metBefore_iff (fuel : Nat) (waiting order result : List ClassId) (id : ClassId)
    (start : Extends classes order [] order)
    (visited : visitClass classes fuel waiting order id = .ok result) (distinct : result.Nodup)
    (noD : d ∉ order) (noC : c ∉ order) (toD : Reaches classes id d) (toC : Reaches classes id c) :
    StandsBefore result d c ↔
      ∃ entry, classes[id.index]? = some entry ∧ MetBefore classes d c entry.dependencies := by
  induction fuel generalizing waiting order result id with
  | zero =>
    obtain ⟨done, -⟩ | ⟨-, less, -, -, noFuel, -⟩ := visitClass_cases visited
    · exact absurd (start.mem_of_reaches done toD) noD
    · cases noFuel
  | succ fuel ih =>
    have whole := visitClass_extends (fuel + 1) waiting order result id start visited
    obtain ⟨done, -⟩ | ⟨-, less, entry, before, fuel', listed, rfl, below⟩ := visitClass_cases visited
    · exact absurd (start.mem_of_reaches done toD) noD
    cases fuel'
    have inside := foldlM_metBefore_iff
      (fun o r i start' visited' => ih (id :: waiting) o r i start' visited') entry.dependencies
      order before start below distinct.of_append_left noD noC
    have decided : (∃ entry', classes[id.index]? = some entry' ∧
        MetBefore classes d c entry'.dependencies) ↔ MetBefore classes d c entry.dependencies := by
      rw [listed]
      simp
    rw [decided, ← inside]
    have inD := whole.mem_of_reaches (whole.listed (List.mem_cons_self ..)) toD
    have inC := whole.mem_of_reaches (whole.listed (List.mem_cons_self ..)) toC
    by_cases isLast : c = id
    · -- Everything else stands before the visited class.
      subst isLast
      have fresh : c ∉ before := by
        intro again
        rw [List.nodup_append] at distinct
        exact distinct.2.2 c again c (List.mem_singleton_self c) rfl
      have front : d ∈ before :=
        (List.mem_append.1 inD).resolve_right (different ∘ List.mem_singleton.1)
      rw [standsBefore_iff_mem distinct]
      refine ⟨fun _ => ⟨front, fun b a split => absurd ?_ fresh⟩, fun h => h.1⟩
      rw [split]
      exact List.mem_append_right b (List.mem_cons_self ..)
    · have front : c ∈ before :=
        (List.mem_append.1 inC).resolve_right (isLast ∘ List.mem_singleton.1)
      rw [standsBefore_append_iff distinct front, iff_and_self]
      intro stands
      obtain ⟨b, a, rfl⟩ := List.append_of_mem front
      exact List.mem_append_left _ (stands b a rfl)

omit different

/-- In the order of the classes, a class stands before another exactly if it is met first. -/
theorem standsBefore_iff_metBefore {order : List ClassId}
    (ordered : classOrder classes = .ok order) (listed : c ∈ order) (listed' : d ∈ order) :
    StandsBefore order d c ↔
      MetBefore classes d c ((List.range classes.size).map ClassId.mk) := by
  have settled := (settled_of_ordered ordered).1
  by_cases different : d = c
  · subst different
    refine ⟨fun stands => ?_, fun met => absurd rfl met.ne⟩
    obtain ⟨before, after, rfl⟩ := List.append_of_mem listed
    have again := (standsBefore_iff_mem settled.nodup).1 stands
    have distinct := settled.nodup
    rw [List.nodup_append] at distinct
    exact absurd rfl (distinct.2.2 d again d (List.mem_cons_self ..))
  · have start : Extends classes [] [] [] :=
      ⟨List.Subset.refl _, List.Subset.refl _, List.forall_mem_nil _, List.forall_mem_nil _⟩
    have met := foldlM_metBefore_iff
      (fun o r id => visitClass_metBefore_iff different classes.size [] o r id) _ [] order start
      ordered settled.nodup List.not_mem_nil List.not_mem_nil
    rw [← met]
    exact (and_iff_right listed').symm

end Visit

end CppPrinter
