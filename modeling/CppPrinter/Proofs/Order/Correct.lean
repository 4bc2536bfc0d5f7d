import CppPrinter.Proofs.Reference.Program
import CppPrinter.Proofs.Order.Visit

/-!
# The order of the classes is right, and missing only where there is none

The two halves meet: what the search for an order comes to (`Visited`), and that nothing else in a
print blames a class (`Program.print_circular_iff`).
-/

namespace CppPrinter

/-- Where every class depends on classes that exist, there is an order exactly if no class depends
on itself. An order holds every class once and behind all it depends on. Without an order, the
error names a class that depends on itself, and the print of the whole program, whatever else is
wrong with it, ends in such an error exactly then. -/
theorem order_exists_iff_acyclic (p : Program) (o : Options) (range : DependenciesExist p.classes) :
    ((∃ order, classOrder p.classes = .ok order) ↔ ¬ ∃ c, OnCycle p.classes c) ∧
    (∀ order, classOrder p.classes = .ok order →
      order.Nodup ∧ (∀ id, id ∈ order ↔ id.index < p.classes.size) ∧
        ∀ c d, DependsOn p.classes c d → StandsBefore order d c) ∧
    (∀ e, classOrder p.classes = .error e → BlamesCycle p.classes e) ∧
    ((∃ name, p.print o = .error (.circularDependency name)) ↔ ∃ c, OnCycle p.classes c) := by
  have exact_ok : (∃ order, classOrder p.classes = .ok order) ↔ ¬ ∃ c, OnCycle p.classes c := by
    rw [classOrder_isOk_iff range, not_exists]
  refine ⟨exact_ok, ?_, fun e failed => blamesCycle_of_classOrder range failed, ?_⟩
  · intro order ordered
    obtain ⟨settled, all⟩ := settled_of_classOrder range ordered
    exact ⟨settled.nodup, all, settled.sorted⟩
  · constructor
    · rintro ⟨name, failed⟩
      rw [p.print_circular_iff] at failed
      obtain ⟨c, -, -, cycle, -⟩ := blamesCycle_of_classOrder range failed
      exact ⟨c, cycle⟩
    · intro cyclic
      cases outcome : classOrder p.classes with
      | ok order => exact absurd cyclic (exact_ok.1 ⟨order, outcome⟩)
      | error e =>
        obtain ⟨-, entry, -, -, rfl⟩ := blamesCycle_of_classOrder range outcome
        exact ⟨entry.name, (p.print_circular_iff o entry.name).2 outcome⟩

/-- A list stores pairs in an array, a pair is a record, and a record stores a list. -/
def ringOfClasses : Program where
  classes := #[
    ⟨"List", none, .normal, none, [],
      [⟨"pairs", .ownClass, .arrayPtr .writable (.arrayStorage (.classValue ⟨1⟩) 4), none⟩], []⟩,
    ⟨"Pair", some ⟨2⟩, .normal, none, [], [], []⟩,
    ⟨"Record", none, .normal, none, [], [⟨"list", .ownClass, .classValue ⟨0⟩, none⟩], []⟩]

theorem order_exists_iff_acyclic_ring :
    DependenciesExist ringOfClasses.classes ∧
      ∃ name, ringOfClasses.print {} = .error (.circularDependency name) := by
  have range : DependenciesExist ringOfClasses.classes := by
    rintro c d ⟨entry, found, needs⟩
    have listed : entry ∈ ringOfClasses.classes := Array.mem_of_getElem? found
    have bounded : ∀ entry ∈ ringOfClasses.classes, ∀ d ∈ entry.dependencies, d.index < 3 := by
      decide
    exact bounded entry listed d ((entry.mem_dependencies_iff d).2 needs)
  have step : ∀ c entry, ringOfClasses.classes[c]? = some entry → ∀ d ∈ entry.dependencies,
      DependsOn ringOfClasses.classes ⟨c⟩ d := by
    intro c entry found d listed
    exact (dependsOn_iff_mem found).2 listed
  have cycle : OnCycle ringOfClasses.classes ⟨0⟩ :=
    .head (step 0 _ rfl ⟨1⟩ (by decide))
      (.head (step 1 _ rfl ⟨2⟩ (by decide)) (.single (step 2 _ rfl ⟨0⟩ (by decide))))
  exact ⟨range, (order_exists_iff_acyclic ringOfClasses {} range).2.2.2.2 ⟨⟨0⟩, cycle⟩⟩

end CppPrinter
