import CppPrinter.Proofs.Order.Visit
import CppPrinter.Proofs.Reference.Member

/-!
# Programs whose references resolve

A program resolves when everything that it names by position exists and every expression stands
behind its operands (`Program.Resolves`). Any other error than one of the search for an order is
grounded (`Program.print_error`). So a print blames a class for a circular dependency exactly when the
search does (`print_circular_iff`), and the print of a program that resolves looks up nothing that
is not there (`print_of_resolves`).
-/

namespace CppPrinter

/-- Every position that occurs in the program, be it printed or not, is that of a class, an
enumeration, an expression or a method, and every expression stands behind its operands. -/
structure Program.Resolves (p : Program) : Prop where
  exprs : p.exprs.Resolves p.scope
  classes : ∀ c ∈ p.classes, c.Resolves p.env
  enums : ∀ e ∈ p.enums, e.Resolves p.env

namespace Program

variable {p : Program} {o : Options}

theorem Resolves.scope (h : p.Resolves) : p.scope.Resolves where
  parents := by
    intro head member id parent
    obtain ⟨c, listed, rfl⟩ := Array.mem_map.1 member
    exact (h.classes c listed).parent id parent
  methods := by
    intro head member s inside
    obtain ⟨c, listed, rfl⟩ := Array.mem_map.1 member
    obtain ⟨m, isMethod, rfl⟩ := List.mem_map.1 inside
    exact (h.classes c listed).signatures m isMethod

theorem Resolves.env (h : p.Resolves) : p.env.Resolves := ⟨h.scope, h.exprs⟩

/-- Classes depend on classes that exist. -/
theorem Resolves.dependenciesExist (h : p.Resolves) : DependenciesExist p.classes := by
  rintro c d ⟨entry, found, needs⟩
  have resolves := h.classes entry (Array.mem_of_getElem? found)
  have inside : d.index < p.scope.classes.size := by
    rcases needs with parent | ⟨f, member, stores⟩
    · exact resolves.parent d parent
    · exact (resolves.fields f member).1.baseClass stores
  simpa [Program.scope] using inside

/-- A print puts the lines of both files together. -/
theorem print_eq (p : Program) (o : Options) : p.print o = (do
    let header ← p.headerLines o
    let source ← p.sourceLines o
    return ⟨o.headerPath, linesText header, o.sourcePath, linesText source⟩) := by
  rw [print, header_eq, source_eq]
  simp only [map_eq_pure_bind, bind_assoc, pure_bind]

theorem sourceLines_grounded : Grounded p.Resolves (p.sourceLines o) :=
  (Grounded.mapM fun c member => c.definitionLines_grounded Resolves.env fun h =>
    h.classes c (Array.mem_toList_iff.1 member)).bind fun _ => .ok _

/-- An error of a print is one of the search for an order, or it is grounded. -/
theorem print_error {e : RenderError} (failed : p.print o = .error e) :
    classOrder p.classes = .error e ∨ e.IsGrounded p.Resolves := by
  rw [print_eq, bind_eq_error_iff] at failed
  -- The search comes first of all, and what follows it is grounded in the header and in the source.
  rcases failed with inHeader | ⟨header, -, inSource⟩
  · rw [headerLines, declarationLines, bind_assoc, bind_eq_error_iff] at inHeader
    refine inHeader.imp_right ?_
    rintro ⟨order, ordered, late⟩
    have inside := (settled_of_ordered ordered).2
    refine Grounded.bind ?_ (fun _ => .ok _) e late
    refine (Grounded.mapM fun e member => ?_).bind fun _ =>
      (Grounded.mapM fun id member => ?_).bind fun _ => .ok _
    · exact e.declarationLines_grounded Resolves.env fun h =>
        h.enums e (Array.mem_toList_iff.1 member)
    · refine (Grounded.lookUp fun _ => (inside id).1 member).bind_ok fun c found => ?_
      exact c.declarationLines_grounded Resolves.env fun h =>
        h.classes c (Array.mem_of_getElem? (lookUp_eq_ok_iff.1 found))
  · exact .inr ((sourceLines_grounded.bind fun _ => .ok _) e inSource)

/-- A print blames a class exactly when the search for an order does. -/
theorem print_circular_iff (p : Program) (o : Options) (name : String) :
    p.print o = .error (.circularDependency name) ↔
      classOrder p.classes = .error (.circularDependency name) := by
  constructor
  · intro failed
    exact (print_error failed).resolve_right id
  · intro failed
    rw [print_eq, headerLines, declarationLines, failed]
    rfl

end Program

/-- The print of a program that resolves succeeds, or it ends in an error other than a failed look-up;
and what it unfolds of the arena is all there is, as no deeper unfolding gives more. -/
theorem print_of_resolves (p : Program) (o : Options) (resolves : p.Resolves) :
    (∀ id : ExprId, id.index < p.exprs.nodes.size →
      (p.exprs.tree id).Resolves p.scope ∧
        ∀ depth, id.index < depth → p.exprs.unfold depth id = p.exprs.tree id) ∧
    ((∃ files, p.print o = .ok files) ∨ ∃ e, p.print o = .error e ∧ e ≠ .dangling) := by
  refine ⟨fun id inside => ⟨resolves.exprs.tree inside, fun depth deep =>
    Arena.unfold_eq_tree resolves.exprs inside deep⟩, ?_⟩
  cases outcome : p.print o with
  | ok files => exact .inl ⟨files, rfl⟩
  | error e =>
    refine .inr ⟨e, rfl, ?_⟩
    rintro rfl
    -- A search among classes that exist fails only by blaming one.
    rcases Program.print_error outcome with noOrder | grounded
    · obtain ⟨c, entry, -, -, blame⟩ := blamesCycle_of_classOrder resolves.dependenciesExist noOrder
      cases blame
    · exact grounded resolves

/-- Two classes that derive from each other, with a method that compares, calls and throws. -/
def twins : Program where
  classes := #[
    ⟨"Left", some ⟨1⟩, .normal, none, [],
      [⟨"other", .everywhere, .classPtr .shared ⟨1⟩, some ⟨0⟩⟩],
      [⟨⟨"Run", .everywhere, .virtual, true, .void, [⟨"mode", .enum ⟨0⟩⟩]⟩,
        some (.branch ⟨2⟩ (.evaluate ⟨4⟩) (some (.throwing ⟨0⟩)))⟩]⟩,
    ⟨"Right", some ⟨0⟩, .normal, none, [], [], []⟩]
  enums := #[⟨"Mode", [⟨"Fast", none⟩]⟩]
  exprs := ⟨#[⟨.literal .null, .null⟩, ⟨.symbol .this, .classPtr .writable ⟨0⟩⟩,
    ⟨.binary .eq ⟨1⟩ ⟨0⟩, .bool⟩, ⟨.symbol (.enumValue ⟨0⟩ "Fast"), .enum ⟨0⟩⟩,
    ⟨.call ⟨1⟩ (.user ⟨0⟩ 0) [⟨3⟩], .void⟩]⟩

theorem twins_resolves : twins.Resolves := by
  have left : 0 < twins.scope.classes.size := by decide +kernel
  have right : 1 < twins.scope.classes.size := by decide +kernel
  have mode : 0 < twins.scope.enums.size := by decide +kernel
  have run : (MethodRef.user ⟨0⟩ 0).Resolves twins.scope :=
    ⟨twins.classes[0].head, by simp [Program.scope, twins], by decide⟩
  have signature : twins.classes[0].methods[0].toSignature.Resolves twins.scope :=
    ⟨trivial, List.forall_mem_singleton.2 mode⟩
  have body : (Stmt.branch ⟨2⟩ (.evaluate ⟨4⟩) (some (.throwing ⟨0⟩))).Every
      (Stmt.Resolves twins.env) := by
    refine .intro ⟨by decide, nofun⟩ (List.forall_mem_cons.2 ⟨?_, List.forall_mem_singleton.2 ?_⟩)
    · exact .intro ⟨by decide, nofun⟩ (List.forall_mem_nil _)
    · exact .intro ⟨by decide, nofun⟩ (List.forall_mem_nil _)
  have nodes : ∀ n ∈ twins.exprs.nodes.toList, n.Resolves twins.scope :=
    List.forall_mem_cons.2 ⟨⟨trivial, trivial⟩, List.forall_mem_cons.2 ⟨⟨trivial, left⟩,
      List.forall_mem_cons.2 ⟨⟨trivial, trivial⟩, List.forall_mem_cons.2 ⟨⟨mode, mode⟩,
        List.forall_mem_singleton.2 ⟨run, trivial⟩⟩⟩⟩⟩
  have descends : ∀ i : Fin twins.exprs.nodes.size,
      ∀ operand ∈ twins.exprs.nodes[i].shape.operandsOf, operand.index < i := by decide
  have classes : ∀ c ∈ twins.classes.toList, c.Resolves twins.env := by
    refine List.forall_mem_cons.2 ⟨⟨?_, ?_, ?_, ?_, ?_, ?_⟩, List.forall_mem_singleton.2
      ⟨?_, ?_, ?_, ?_, ?_, ?_⟩⟩
    · rintro _ ⟨⟩
      exact right
    · exact List.forall_mem_nil _
    · refine List.forall_mem_singleton.2 ⟨right, ?_⟩
      rintro _ ⟨⟩
      decide
    · exact List.forall_mem_singleton.2 signature
    · refine List.forall_mem_singleton.2 ?_
      rintro _ ⟨⟩
      exact body
    · nofun
    · rintro _ ⟨⟩
      exact left
    · exact List.forall_mem_nil _
    · exact List.forall_mem_nil _
    · exact List.forall_mem_nil _
    · exact List.forall_mem_nil _
    · nofun
  have enums : ∀ e ∈ twins.enums.toList, e.Resolves twins.env :=
    List.forall_mem_singleton.2 (List.forall_mem_singleton.2 nofun)
  refine ⟨⟨fun n member => nodes n (Array.mem_toList_iff.2 member), ?_⟩,
    fun c member => classes c (Array.mem_toList_iff.2 member),
    fun e member => enums e (Array.mem_toList_iff.2 member)⟩
  intro id n found
  obtain ⟨inside, rfl⟩ := Array.getElem?_eq_some_iff.1 found
  exact descends ⟨id.index, inside⟩

theorem print_of_resolves_twins : twins.Resolves ∧
    (∀ id : ExprId, id.index < twins.exprs.nodes.size →
      (twins.exprs.tree id).Resolves twins.scope ∧
        ∀ depth, id.index < depth → twins.exprs.unfold depth id = twins.exprs.tree id) ∧
    ((∃ files, twins.print {} = .ok files) ∨ ∃ e, twins.print {} = .error e ∧ e ≠ .dangling) :=
  ⟨twins_resolves, print_of_resolves twins {} twins_resolves⟩

end CppPrinter
