import CppPrinter.Class.Order
import Mathlib.Data.List.Nodup
import Mathlib.Data.List.Perm.Subperm
import Mathlib.Logic.Relation

/-!
# Which class needs which

A class depends on its parent and on the classes that its fields store by value (`DependsOn`).
A list of classes is `Settled` when it repeats nothing and every class in it stands behind all it
depends on. A class that depends on itself, be it over others, is in no settled list
(`Settled.acyclic`); the search for an order works on settled lists alone.
-/

namespace CppPrinter

open Relation

variable {ρ : Type}

/-- The definition of a class needs that of its parent, and that of each class whose values its
fields hold. -/
def Class.Needs (c : Class ρ) (d : ClassId) : Prop :=
  c.parent = some d ∨ ∃ f ∈ c.fields, f.ty.baseClass = some d

/-- The class at position `c` depends on the class at position `d`. -/
def DependsOn (classes : Array (Class ρ)) (c d : ClassId) : Prop :=
  ∃ entry, classes[c.index]? = some entry ∧ entry.Needs d

/-- Every class depends only on classes that exist. -/
def DependenciesExist (classes : Array (Class ρ)) : Prop :=
  ∀ c d, DependsOn classes c d → d.index < classes.size

/-- The class depends on itself, directly or over others. -/
def OnCycle (classes : Array (Class ρ)) (c : ClassId) : Prop :=
  TransGen (DependsOn classes) c c

/-- `d` stands in the list before every place where `c` stands. -/
def StandsBefore (order : List ClassId) (d c : ClassId) : Prop :=
  ∀ before after, order = before ++ c :: after → d ∈ before

/-- A list without repetition of classes that exist, each behind everything it depends on. -/
structure Settled (classes : Array (Class ρ)) (order : List ClassId) : Prop where
  nodup : order.Nodup
  exist : ∀ c ∈ order, c.index < classes.size
  sorted : ∀ c d, DependsOn classes c d → StandsBefore order d c

theorem Class.mem_dependencies_iff (c : Class ρ) (d : ClassId) :
    d ∈ c.dependencies ↔ c.Needs d := by
  simp [Class.dependencies, Class.Needs, eq_comm]

/-- What a class in the program depends on is what its entry lists. -/
theorem dependsOn_iff_mem {classes : Array (Class ρ)} {c d : ClassId} {entry : Class ρ}
    (found : classes[c.index]? = some entry) :
    DependsOn classes c d ↔ d ∈ entry.dependencies := by
  rw [Class.mem_dependencies_iff]
  constructor
  · rintro ⟨other, atC, needs⟩
    rw [found] at atC
    cases atC
    exact needs
  · intro needs
    exact ⟨entry, found, needs⟩

theorem DependsOn.exists_left {classes : Array (Class ρ)} {c d : ClassId}
    (h : DependsOn classes c d) : c.index < classes.size := by
  obtain ⟨entry, found, -⟩ := h
  exact (Array.getElem?_eq_some_iff.1 found).1

theorem OnCycle.exists {classes : Array (Class ρ)} {c : ClassId} (h : OnCycle classes c) :
    c.index < classes.size := by
  obtain ⟨d, first, -⟩ := (TransGen.head'_iff).1 h
  exact first.exists_left

namespace Settled

variable {classes : Array (Class ρ)} {order : List ClassId}

theorem nil : Settled classes [] where
  nodup := List.nodup_nil
  exist := by simp
  sorted := by simp [StandsBefore]

/-- A class goes to the end of the list once all it depends on is listed. -/
theorem snoc (h : Settled classes order) {id : ClassId} (fresh : id ∉ order)
    (inside : id.index < classes.size) (ready : ∀ d, DependsOn classes id d → d ∈ order) :
    Settled classes (order ++ [id]) where
  nodup := by
    rw [List.nodup_append]
    refine ⟨h.nodup, List.nodup_singleton id, ?_⟩
    rintro a listed b last rfl
    exact fresh (List.mem_singleton.1 last ▸ listed)
  exist := by
    intro c listed
    rcases List.mem_append.1 listed with old | last
    · exact h.exist c old
    · rw [List.mem_singleton.1 last]
      exact inside
  sorted := by
    intro c d depends before after split
    rcases List.eq_nil_or_concat after with rfl | ⟨rest, last, rfl⟩
    · obtain ⟨same, same'⟩ := List.append_inj' split rfl
      rw [← same]
      rw [List.singleton_inj.1 same'] at ready
      exact ready d depends
    · have shape : order ++ [id] = (before ++ c :: rest) ++ [last] := by simpa using split
      exact h.sorted c d depends before rest (List.append_inj' shape rfl).1

/-- Everything reached from a listed class stands in front of it. -/
theorem standsBefore_of_transGen (h : Settled classes order) {c d : ClassId}
    (path : TransGen (DependsOn classes) c d) : StandsBefore order d c := by
  induction path with
  | single depends => exact h.sorted c _ depends
  | @tail mid last _ depends ih =>
    intro before after split
    obtain ⟨start, rest, inFront⟩ := List.append_of_mem (ih before after split)
    have split' : order = start ++ mid :: (rest ++ c :: after) := by
      rw [split, inFront, List.append_assoc, List.cons_append]
    rw [inFront]
    exact List.mem_append_left _ (h.sorted mid last depends start _ split')

/-- No listed class is on a cycle. -/
theorem acyclic (h : Settled classes order) {c : ClassId} (listed : c ∈ order) :
    ¬ OnCycle classes c := by
  intro cycle
  obtain ⟨before, after, split⟩ := List.append_of_mem listed
  have again : c ∈ before := h.standsBefore_of_transGen cycle before after split
  have distinct := h.nodup
  rw [split, List.nodup_append] at distinct
  exact distinct.2.2 c again c (List.mem_cons_self ..) rfl

end Settled

/-- Classes that exist and do not repeat are no more than the program has. -/
theorem length_le_of_exist {α : Type} {classes : Array α} {ids : List ClassId}
    (distinct : ids.Nodup) (exist : ∀ c ∈ ids, c.index < classes.size) :
    ids.length ≤ classes.size := by
  have indices : (ids.map ClassId.index).Nodup := by
    refine distinct.map ?_
    rintro ⟨a⟩ ⟨b⟩ same
    exact congrArg ClassId.mk same
  have inside : ids.map ClassId.index ⊆ List.range classes.size := by
    intro i listed
    obtain ⟨c, member, rfl⟩ := List.mem_map.1 listed
    exact List.mem_range.2 (exist c member)
  have bound := (List.subperm_of_subset indices inside).length_le
  rwa [List.length_map, List.length_range] at bound

end CppPrinter
