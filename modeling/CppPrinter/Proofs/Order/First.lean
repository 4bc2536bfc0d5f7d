import CppPrinter.Proofs.Order.Sequence
import Mathlib.Order.Lattice.Nat

/-!
# The order of the classes and the order of the program

Every class is met for the first time on the way down from some class of the program, the first one
that leads to it (`firstLeading`). The order found follows these firsts
(`standsBefore_of_firstLeading_lt`), and of the classes with one first that one comes last, for it
depends on all the others (`standsBefore_firstLeading`). Where classes depend on earlier ones alone,
every class is its own first (`firstLeading_eq_self`), and the order is that of the program.
-/

namespace CppPrinter

open Relation

variable {ρ : Type} {classes : Array (Class ρ)} {c d : ClassId}

/-- The first class of the program that is the class `c` or depends on it, directly or over others. -/
noncomputable def firstLeading (classes : Array (Class ρ)) (c : ClassId) : ClassId :=
  ⟨sInf {i | Reaches classes ⟨i⟩ c}⟩

theorem firstLeading_reaches (classes : Array (Class ρ)) (c : ClassId) :
    Reaches classes (firstLeading classes c) c :=
  Nat.sInf_mem (s := {i | Reaches classes ⟨i⟩ c}) ⟨c.index, .refl⟩

theorem firstLeading_le (leads : Reaches classes d c) :
    (firstLeading classes c).index ≤ d.index :=
  Nat.sInf_le leads

/-- The first class to lead to another exists, since the program has the other. -/
theorem firstLeading_lt_size (inside : c.index < classes.size) :
    (firstLeading classes c).index < classes.size :=
  Nat.lt_of_le_of_lt (firstLeading_le .refl) inside

/-- Where classes depend on earlier ones alone, so they do over others. -/
theorem index_lt_of_transGen (earlier : ∀ c d, DependsOn classes c d → d.index < c.index)
    (path : TransGen (DependsOn classes) c d) : d.index < c.index := by
  induction path with
  | single depends => exact earlier _ _ depends
  | tail _ depends ih => exact Nat.lt_trans (earlier _ _ depends) ih

/-- Where classes depend on earlier ones alone, nothing earlier leads to a class. -/
theorem firstLeading_eq_self (earlier : ∀ c d, DependsOn classes c d → d.index < c.index)
    (c : ClassId) : firstLeading classes c = c := by
  rcases reflTransGen_iff_eq_or_transGen.1 (firstLeading_reaches classes c) with same | path
  · exact same.symm
  · have less := index_lt_of_transGen earlier path
    exact absurd (firstLeading_le .refl) (Nat.not_le_of_lt less)

/-- A class is met before another if the first class that leads to either leads to it alone. -/
theorem MetBefore.of_firstLeading {ids : List ClassId}
    (sorted : ids.Pairwise fun a b => a.index < b.index) (listed : firstLeading classes d ∈ ids)
    (less : (firstLeading classes d).index < (firstLeading classes c).index) :
    MetBefore classes d c ids := by
  induction ids with
  | nil => cases listed
  | cons id rest ih =>
    obtain ⟨least, sorted'⟩ := List.pairwise_cons.1 sorted
    rcases List.mem_cons.1 listed with rfl | later
    · refine .apart (firstLeading_reaches classes d) fun leads => ?_
      exact Nat.not_le_of_lt less (firstLeading_le leads)
    · -- The class in front leads to neither, as it comes before the first of both.
      have before := least _ later
      refine .later (fun leads => ?_) (fun leads => ?_) (ih sorted' later)
      · exact Nat.not_le_of_lt before (firstLeading_le leads)
      · exact Nat.not_le_of_lt (Nat.lt_trans before less) (firstLeading_le leads)

theorem pairwise_programOrder (n : Nat) :
    ((List.range n).map ClassId.mk).Pairwise fun a b => a.index < b.index :=
  List.pairwise_map.2 List.pairwise_lt_range

section Ordered

variable {order : List ClassId} (ordered : classOrder classes = .ok order)

include ordered

/-- A class with an earlier first stands before one with a later first. -/
theorem standsBefore_of_firstLeading_lt (listed : c ∈ order) (listed' : d ∈ order)
    (less : (firstLeading classes d).index < (firstLeading classes c).index) :
    StandsBefore order d c := by
  obtain ⟨settled, -⟩ := settled_of_ordered ordered
  have inProgram := firstLeading_lt_size (settled.exist d listed')
  rw [standsBefore_iff_metBefore ordered listed listed']
  refine .of_firstLeading (pairwise_programOrder _) ?_ less
  exact List.mem_map.2 ⟨_, List.mem_range.2 inProgram, rfl⟩

/-- In the order found, the firsts do not decrease. -/
theorem pairwise_firstLeading :
    order.Pairwise fun c d => (firstLeading classes c).index ≤ (firstLeading classes d).index := by
  obtain ⟨settled, -⟩ := settled_of_ordered ordered
  rw [List.pairwise_iff_forall_sublist]
  intro c d inOrder
  by_contra less
  have listed : c ∈ order := inOrder.subset (by simp)
  have listed' : d ∈ order := inOrder.subset (by simp)
  have stands := standsBefore_of_firstLeading_lt ordered listed listed' (Nat.not_le.1 less)
  -- The later class would stand on both sides of the earlier one.
  obtain ⟨front, back, rfl, inFront, inBack⟩ := List.cons_sublist_iff.1 inOrder
  obtain ⟨before, between, rfl⟩ := List.append_of_mem inFront
  have again : d ∈ before := stands before (between ++ back) (by simp)
  have apart := (List.nodup_append.1 settled.nodup).2.2
  exact apart d (List.mem_append_left _ again) d (List.singleton_sublist.1 inBack) rfl

/-- The first that leads to a class stands behind it. -/
theorem standsBefore_firstLeading (other : c ≠ firstLeading classes c) :
    StandsBefore order c (firstLeading classes c) := by
  obtain ⟨settled, -⟩ := settled_of_ordered ordered
  rcases reflTransGen_iff_eq_or_transGen.1 (firstLeading_reaches classes c) with same | path
  · exact absurd same other
  · exact settled.standsBefore_of_transGen path

end Ordered

/-- A search that puts each class behind earlier ones alone leaves the program as it is. -/
theorem classOrder_of_earlier (earlier : ∀ c d, DependsOn classes c d → d.index < c.index) :
    classOrder classes = .ok ((List.range classes.size).map ClassId.mk) := by
  have range : DependenciesExist classes := fun c d depends =>
    Nat.lt_trans (earlier c d depends) depends.exists_left
  have acyclic : ∀ c, ¬ OnCycle classes c := fun c cycle =>
    Nat.lt_irrefl _ (index_lt_of_transGen earlier cycle)
  obtain ⟨order, ordered⟩ := (classOrder_isOk_iff range).2 acyclic
  obtain ⟨settled, all⟩ := settled_of_classOrder range ordered
  have sorted := pairwise_firstLeading ordered
  simp only [firstLeading_eq_self earlier] at sorted
  have distinct : ((List.range classes.size).map ClassId.mk).Nodup :=
    (pairwise_programOrder classes.size).imp fun less => by
      rintro rfl
      exact Nat.lt_irrefl _ less
  have same : order.Perm ((List.range classes.size).map ClassId.mk) := by
    refine (List.perm_ext_iff_of_nodup settled.nodup distinct).2 fun id => ?_
    rw [all, List.mem_map]
    constructor
    · exact fun inside => ⟨id.index, List.mem_range.2 inside, rfl⟩
    · rintro ⟨i, inside, rfl⟩
      exact List.mem_range.1 inside
  rw [ordered]
  refine congrArg Except.ok (same.eq_of_pairwise ?_ sorted
    ((pairwise_programOrder classes.size).imp Nat.le_of_lt))
  rintro ⟨a⟩ ⟨b⟩ - - le ge
  exact congrArg ClassId.mk (Nat.le_antisymm le ge)

/-- Where every class depends on classes that exist and none on itself, the order holds every class once,
by the first class of the program that leads to it, and the first itself behind all the others that have
it. Where every class depends on earlier ones alone, the order is that of the program. -/
theorem order_follows_program (range : DependenciesExist classes) :
    ((∀ c, ¬ OnCycle classes c) → ∃ order, classOrder classes = .ok order ∧ order.Nodup ∧
      (∀ id, id ∈ order ↔ id.index < classes.size) ∧
      order.Pairwise (fun c d =>
        (firstLeading classes c).index ≤ (firstLeading classes d).index) ∧
      ∀ r, firstLeading classes r = r →
        ∀ c, firstLeading classes c = r → c ≠ r → StandsBefore order c r) ∧
    ((∀ c d, DependsOn classes c d → d.index < c.index) →
      classOrder classes = .ok ((List.range classes.size).map ClassId.mk)) := by
  refine ⟨fun acyclic => ?_, classOrder_of_earlier⟩
  obtain ⟨order, ordered⟩ := (classOrder_isOk_iff range).2 acyclic
  obtain ⟨settled, all⟩ := settled_of_classOrder range ordered
  refine ⟨order, ordered, settled.nodup, all, pairwise_firstLeading ordered, ?_⟩
  rintro r - c rfl other
  exact standsBefore_firstLeading ordered other

/-- A car stores wheels, a garage stores cars, and a depot stores cars and a sign. -/
def garages : Array (Class ExprId) := #[
  ⟨"Garage", none, .normal, none, [], [⟨"cars", .ownClass, .arrayStorage (.classValue ⟨2⟩) 8, none⟩], []⟩,
  ⟨"Depot", none, .normal, none, [],
    [⟨"sign", .ownClass, .classValue ⟨4⟩, none⟩, ⟨"car", .ownClass, .classValue ⟨2⟩, none⟩], []⟩,
  ⟨"Car", none, .normal, none, [], [⟨"wheels", .ownClass, .arrayStorage (.classValue ⟨3⟩) 4, none⟩], []⟩,
  ⟨"Wheel", none, .normal, none, [], [], []⟩,
  ⟨"Sign", none, .normal, none, [], [], []⟩]

/-- A wheel, and a car that stores wheels. -/
def wheelFirst : Array (Class ExprId) := #[
  ⟨"Wheel", none, .normal, none, [], [], []⟩,
  ⟨"Car", none, .normal, none, [], [⟨"wheels", .ownClass, .arrayStorage (.classValue ⟨0⟩) 4, none⟩], []⟩]

theorem order_follows_program_garages :
    (DependenciesExist garages ∧ (∀ c, ¬ OnCycle garages c) ∧
      [⟨3⟩, ⟨2⟩, ⟨0⟩, ⟨4⟩, ⟨1⟩].Pairwise (fun c d =>
        (firstLeading garages c).index ≤ (firstLeading garages d).index) ∧
      ∀ c, firstLeading garages c = ⟨0⟩ → c ≠ ⟨0⟩ → StandsBefore [⟨3⟩, ⟨2⟩, ⟨0⟩, ⟨4⟩, ⟨1⟩] c ⟨0⟩) ∧
    DependenciesExist wheelFirst ∧ (∀ c d, DependsOn wheelFirst c d → d.index < c.index) ∧
      classOrder wheelFirst = .ok [⟨0⟩, ⟨1⟩] := by
  have ordered : classOrder garages = .ok [⟨3⟩, ⟨2⟩, ⟨0⟩, ⟨4⟩, ⟨1⟩] := rfl
  have range := dependenciesExist_of_classOrder ordered
  have acyclic := (classOrder_isOk_iff range).1 ⟨_, ordered⟩
  have earlier : ∀ c d, DependsOn wheelFirst c d → d.index < c.index := by
    rintro ⟨i⟩ d ⟨entry, found, needs⟩
    have listed := (entry.mem_dependencies_iff d).2 needs
    match i, found with
    | 0, found => cases found; cases listed
    | 1, found => cases found; cases List.mem_singleton.1 listed; decide
  have range' : DependenciesExist wheelFirst := fun c d depends =>
    Nat.lt_trans (earlier c d depends) depends.exists_left
  obtain ⟨order, found, -, -, sorted, last⟩ := (order_follows_program range).1 acyclic
  cases ordered.symm.trans found
  have first : firstLeading garages ⟨0⟩ = ⟨0⟩ :=
    congrArg ClassId.mk (Nat.eq_zero_of_le_zero (firstLeading_le .refl))
  exact ⟨⟨range, acyclic, sorted, last ⟨0⟩ first⟩, range', earlier,
    (order_follows_program range').2 earlier⟩

end CppPrinter
