import CppPrinter.Proofs.Resource.Program
import CppPrinter.Proofs.Sharing.Class

/-!
# Programs with the same expressions

What is printed of a program depends on its expressions as trees, and not on where they stand in the
arena or on which of them share a position, although every rule of printing is handed positions and
hands on positions: what it comes to is the text of the tree (`Arena.text_eq`), whatever the arena, so
two arenas meet at the trees they share. Programs that are the same as trees agree in print
(`Program.SameTrees.agree`), and so do programs of which one is a copy of the other at other positions
(`Program.Copied`): renumbered, with equal expressions shared or taken apart, or with more expressions
that nothing uses.
-/

namespace CppPrinter

variable {α β : Type}

/-! ### Copies of an arena -/

/-- Every expression of the arena `a` stands in the arena `b` at the position that `f` gives it, with its
operands at the positions that `f` gives them. -/
def Arena.Copied (f : ExprId → ExprId) (a b : Arena) : Prop :=
  ∀ (id : ExprId) (n : Node ExprId), a.nodes[id.index]? = some n →
    b.nodes[(f id).index]? = some (n.map f)

namespace Arena

variable {a b : Arena} {f : ExprId → ExprId} {scope scope' : Scope}

/-- A copy unfolds to what the original unfolds to. -/
theorem Copied.unfold (copied : Copied f a b) (resolves : a.Resolves scope) (depth : Nat)
    {id : ExprId} (deep : id.index < depth) (inside : id.index < a.nodes.size) :
    b.unfold depth (f id) = a.unfold depth id := by
  induction depth generalizing id with
  | zero => exact absurd deep (Nat.not_lt_zero _)
  | succ depth ih =>
    have found := Array.getElem?_eq_getElem inside
    have operands : ((a.nodes[id.index]).map f).map (fun operand (_ : Unit) => b.unfold depth operand) =
        (a.nodes[id.index]).map fun operand _ => a.unfold depth operand := by
      rw [Node.map_map]
      refine congrArg (Node.mk · _) (Shape.map_congr fun operand member => ?_)
      have before := resolves.descends id _ found operand member
      exact funext fun _ => ih (by omega) (by omega)
    simp only [Arena.unfold, copied id _ found, found, operands]

theorem Copied.tree (copied : Copied f a b) (resolves : a.Resolves scope)
    (resolves' : b.Resolves scope') {id : ExprId} (inside : id.index < a.nodes.size) :
    b.tree (f id) = a.tree id := by
  have there := copied id _ (Array.getElem?_eq_getElem inside)
  obtain ⟨inside', -⟩ := Array.getElem?_eq_some_iff.1 there
  -- The two arenas unfold to depths of their own; a depth beyond both positions makes them meet.
  obtain ⟨depth, deep, deep'⟩ : ∃ depth, id.index < depth ∧ (f id).index < depth :=
    ⟨id.index + (f id).index + 1, by omega, by omega⟩
  rw [← unfold_eq_tree resolves' inside' deep', copied.unfold resolves depth deep inside,
    unfold_eq_tree resolves inside deep]

end Arena

/-! ### Copies of what a program holds -/

section Copies

variable {env : Env} {f : ExprId → α} {g : α → β} {h : ExprId → β}
  (fits : ∀ id : ExprId, id.index < env.exprs.nodes.size → g (f id) = h id)

include fits

theorem option_map_map_of_resolves {x : Option ExprId}
    (inside : ∀ id ∈ x, id.index < env.exprs.nodes.size) : (x.map f).map g = x.map h :=
  option_map_map_eq fun id member => fits id (inside id (Option.mem_toList.1 member))

theorem Stmt.map_map_of_resolves {s : Stmt ExprId} (resolves : s.Every (Stmt.Resolves env)) :
    (s.map f).map g = s.map h := by
  refine map_map_eq ?_
  induction s using Stmt.induction with
  | step s ih =>
    obtain ⟨here, below⟩ := resolves.parts
    exact .intro (fun id member => fits id (here.values id member)) fun t member =>
      ih t member (below t member)

theorem Class.map_map_of_resolves {c : Class ExprId} (resolves : c.Resolves env) :
    (c.map f).map g = c.map h := by
  have body : (c.constructorBody.map (List.map (Stmt.map f))).map (List.map (Stmt.map g)) =
      c.constructorBody.map (List.map (Stmt.map h)) := by
    refine option_map_map_eq fun statements given => list_map_map_eq fun s member => ?_
    exact Stmt.map_map_of_resolves fits
      (resolves.constructor statements (Option.mem_toList.1 given) s member)
  have constants : (c.constants.map (Constant.map f)).map (Constant.map g) =
      c.constants.map (Constant.map h) := list_map_map_eq fun k member =>
    congrArg (Constant.mk k.name k.visibility k.ty) (fits k.value (resolves.constants k member).2)
  have fields : (c.fields.map (Field.map f)).map (Field.map g) = c.fields.map (Field.map h) :=
    list_map_map_eq fun k member => congrArg (Field.mk k.name k.visibility k.ty)
      (option_map_map_of_resolves fits (resolves.fields k member).2)
  have methods : (c.methods.map (Method.map f)).map (Method.map g) =
      c.methods.map (Method.map h) := by
    refine list_map_map_eq fun m member => congrArg (Method.mk m.toSignature) ?_
    exact option_map_map_eq fun s given => Stmt.map_map_of_resolves fits
      (resolves.bodies m member s (Option.mem_toList.1 given))
  simp only [map, body, constants, fields, methods]

theorem Enum.map_map_of_resolves {e : Enum ExprId} (resolves : e.Resolves env) :
    (e.map f).map g = e.map h := by
  simp only [map, List.map_map]
  refine congrArg (Enum.mk e.name) (List.map_congr_left fun m member => ?_)
  exact congrArg (EnumMember.mk m.name) (option_map_map_of_resolves fits (resolves m member))

end Copies

/-! ### Programs -/

namespace Program

/-- Two programs with the same classes, enumerations and resources, once every expression is replaced
by its tree. -/
structure SameTrees (p q : Program) : Prop where
  classes : p.classes.map (Class.map p.exprs.tree) = q.classes.map (Class.map q.exprs.tree)
  enums : p.enums.map (Enum.map p.exprs.tree) = q.enums.map (Enum.map q.exprs.tree)
  resources : ∀ name : String, p.resources[name]? = q.resources[name]?

/-- The program `q` is the program `p` with every expression at the position that `f` gives it, and maybe
with more expressions. Where `f` is one to one, this renumbers expressions; where it is not, it shares
equal ones, and `p` is `q` with shared expressions taken apart. -/
structure Copied (f : ExprId → ExprId) (p q : Program) : Prop where
  exprs : Arena.Copied f p.exprs q.exprs
  classes : q.classes = p.classes.map (Class.map f)
  enums : q.enums = p.enums.map (Enum.map f)
  resources : ∀ name : String, p.resources[name]? = q.resources[name]?

variable {p q : Program}

/-- With one more expression behind the others, everything else stays where it is. -/
theorem copied_addExpr (p : Program) (n : Node ExprId) : Copied id p (p.addExpr n).2 where
  exprs := by
    intro id n' found
    have inside := (Array.getElem?_eq_some_iff.1 found).1
    have same : n'.map (fun operand : ExprId => operand) = n' := by
      obtain ⟨shape, ty⟩ := n'
      cases shape <;> simp [Node.map, Shape.map]
    change (p.exprs.nodes.push n)[id.index]? = some (n'.map fun operand => operand)
    rw [Array.getElem?_push_lt inside, same, ← found, Array.getElem?_eq_getElem inside]
  classes := by
    rw [Array.map_congr_left fun c _ => c.map_id, Array.map_id']
    rfl
  enums := by
    rw [Array.map_congr_left fun e _ => e.map_id, Array.map_id']
    rfl
  resources := fun _ => rfl

theorem Copied.sameTrees {f : ExprId → ExprId} (copied : Copied f p q) (resolves : p.Resolves)
    (resolves' : q.Resolves) : p.SameTrees q where
  classes := by
    rw [copied.classes, Array.map_map]
    refine (Array.map_congr_left fun c member => ?_).symm
    exact Class.map_map_of_resolves (fun id inside => copied.exprs.tree resolves.exprs
      resolves'.exprs inside) (resolves.classes c member)
  enums := by
    rw [copied.enums, Array.map_map]
    refine (Array.map_congr_left fun e member => ?_).symm
    exact Enum.map_map_of_resolves (fun id inside => copied.exprs.tree resolves.exprs
      resolves'.exprs inside) (resolves.enums e member)
  resources := copied.resources

namespace SameTrees

variable (same : p.SameTrees q)

include same

/-- Expressions see the same declarations. -/
theorem scope : p.scope = q.scope := by
  have heads : ∀ r : Program, r.classes.map Class.head =
      (r.classes.map (Class.map r.exprs.tree)).map Class.head := by
    intro r
    rw [Array.map_map]
    exact Array.map_congr_left fun c _ => (c.head_map r.exprs.tree).symm
  have names : ∀ r : Program, r.enums.map Enum.name =
      (r.enums.map (Enum.map r.exprs.tree)).map Enum.name := by
    intro r
    rw [Array.map_map]
    rfl
  rw [Program.scope, Program.scope, heads p, heads q, names p, names q, same.classes, same.enums]

/-- The classes come in the same order. -/
theorem classOrder_eq : classOrder p.classes = classOrder q.classes := by
  rw [← classOrder_map p.exprs.tree, same.classes, classOrder_map]

/-- The classes at a position agree in the header. -/
theorem classLines_agree (id : ClassId) : Agree (p.classLines id) (q.classLines id) := by
  have entries := congrArg (lookUp · id.index) same.classes
  simp only [lookUp_map] at entries
  unfold classLines class?
  cases first : lookUp p.classes id.index with
  | error e =>
    cases second : lookUp q.classes id.index with
    | error e' => exact .errors
    | ok d =>
      rw [first, second] at entries
      cases entries
  | ok c =>
    cases second : lookUp q.classes id.index with
    | error e' =>
      rw [first, second] at entries
      cases entries
    | ok d =>
      rw [first, second] at entries
      have alike : c.map p.exprs.tree = d.map q.exprs.tree := Except.ok.inj entries
      rw [env, env, same.scope]
      exact Class.declarationLines_agree alike

theorem classList : p.classes.toList.map (Class.map p.exprs.tree) =
    q.classes.toList.map (Class.map q.exprs.tree) := by
  rw [← Array.toList_map, same.classes, Array.toList_map]

theorem forwardLines_eq : p.forwardLines = q.forwardLines := by
  have names : p.classes.toList.map (·.name) = q.classes.toList.map (·.name) := by
    have alike := congrArg (List.map fun c : Class Expr => c.name) same.classList
    rwa [List.map_map, List.map_map] at alike
  have byNames : ∀ r : Program, r.forwardLines =
      if (r.classes.toList.map (·.name)).isEmpty then []
      else .blank :: (r.classes.toList.map (·.name)).map fun name =>
        .flush ("class " ++ name ++ ";") := by
    intro r
    simp [forwardLines, Function.comp_def]
  rw [byNames, byNames, names]

/-- Programs with the same expressions as trees agree in print. -/
theorem agree (o : Options) : Agree (p.print o) (q.print o) := by
  have enums : p.enums.toList.map (Enum.map p.exprs.tree) =
      q.enums.toList.map (Enum.map q.exprs.tree) := by
    rw [← Array.toList_map, same.enums, Array.toList_map]
  have declared : Agree p.declarationLines q.declarationLines := by
    unfold declarationLines
    rw [same.classOrder_eq, env, env, same.scope, same.forwardLines_eq]
    exact (Agree.refl _).bind fun order =>
      (Agree.mapM enums fun e _ g => Enum.declarationLines_agree).bind fun _ =>
        (Agree.mapM_same same.classLines_agree order).bind fun _ => rfl
  have defined : Agree (p.classes.toList.mapM (Class.definitionLines p.env))
      (q.classes.toList.mapM (Class.definitionLines q.env)) := by
    rw [env, env, same.scope]
    exact .mapM same.classList fun c _ d => Class.definitionLines_agree
  obtain ⟨resources, resources'⟩ :=
    ResourceTable.lines_congr (ResourceTable.toList_congr same.resources)
  rw [print_eq, print_eq]
  refine Agree.bind (declared.bind fun _ => rfl) fun _ => Agree.bind ?_ fun _ => rfl
  unfold sourceLines sourceStart
  rw [resources, resources']
  exact defined.bind fun _ => rfl

end SameTrees

end Program

/-- Of two programs in which all references resolve, one is printed exactly as the other is, if they are
the same with every expression unfolded to its tree. So it changes nothing to move the expressions of a
program to other positions, to share equal ones or to take shared ones apart, or to add expressions that
nothing uses. -/
theorem print_of_trees (p q : Program) (o : Options) (resolves : p.Resolves)
    (resolves' : q.Resolves) :
    (p.SameTrees q → ∀ files, p.print o = .ok files ↔ q.print o = .ok files) ∧
    (∀ f, Program.Copied f p q → ∀ files, p.print o = .ok files ↔ q.print o = .ok files) ∧
    (∀ n, (p.addExpr n).2.Resolves →
      ∀ files, p.print o = .ok files ↔ (p.addExpr n).2.print o = .ok files) :=
  ⟨fun same => (same.agree o).iff,
    fun _ copied => ((copied.sameTrees resolves resolves').agree o).iff,
    fun n resolves'' => (((p.copied_addExpr n).sameTrees resolves resolves'').agree o).iff⟩

/-- An enumeration with a member whose value is an expression. -/
def valued (nodes : Array (Node ExprId)) (value : ExprId) : Program where
  enums := #[⟨"Mode", [⟨"Both", some value⟩]⟩]
  exprs := ⟨nodes⟩

theorem valued_resolves {nodes : Array (Node ExprId)} {value : ExprId}
    (named : ∀ n ∈ nodes.toList, n.Resolves (valued nodes value).scope)
    (descends : ∀ i : Fin nodes.size, ∀ operand ∈ nodes[i].shape.operandsOf, operand.index < i)
    (inside : value.index < nodes.size) : (valued nodes value).Resolves where
  exprs := by
    refine ⟨fun n member => named n (Array.mem_toList_iff.2 member), fun id n found => ?_⟩
    obtain ⟨inside, rfl⟩ := Array.getElem?_eq_some_iff.1 found
    exact descends ⟨id.index, inside⟩
  classes := fun c member => absurd member (Array.not_mem_empty c)
  enums := by
    intro e member
    obtain rfl := List.mem_singleton.1 (Array.mem_toList_iff.2 member)
    refine List.forall_mem_singleton.2 ?_
    rintro _ ⟨⟩
    exact inside

/-- The sum of a number and itself. -/
def sharedSum : Program := valued #[⟨.literal (.int 1), .integer .i64⟩,
  ⟨.binary (.arith .add) ⟨0⟩ ⟨0⟩, .integer .i64⟩] ⟨1⟩

/-- The sum of a number and the same number once more. -/
def spreadSum : Program := valued #[⟨.literal (.int 1), .integer .i64⟩,
  ⟨.literal (.int 1), .integer .i64⟩, ⟨.binary (.arith .add) ⟨0⟩ ⟨1⟩, .integer .i64⟩] ⟨2⟩

/-- Where the expressions of the sum that is spread out stand in the sum that shares. -/
def ontoShared (id : ExprId) : ExprId := ⟨id.index - 1⟩

theorem sharedSum_resolves : sharedSum.Resolves :=
  valued_resolves (List.forall_mem_cons.2 ⟨⟨trivial, trivial⟩,
    List.forall_mem_singleton.2 ⟨trivial, trivial⟩⟩) (by decide) (by decide)

theorem spreadSum_resolves : spreadSum.Resolves :=
  valued_resolves (List.forall_mem_cons.2 ⟨⟨trivial, trivial⟩, List.forall_mem_cons.2
    ⟨⟨trivial, trivial⟩, List.forall_mem_singleton.2 ⟨trivial, trivial⟩⟩⟩) (by decide) (by decide)

theorem spreadSum_copied : Program.Copied ontoShared spreadSum sharedSum where
  exprs := by
    have copied : ∀ i : Fin spreadSum.exprs.nodes.size,
        sharedSum.exprs.nodes[i.val - 1]? = some (spreadSum.exprs.nodes[i].map ontoShared) := by
      decide
    intro id n found
    obtain ⟨inside, rfl⟩ := Array.getElem?_eq_some_iff.1 found
    exact copied ⟨id.index, inside⟩
  classes := by simp [sharedSum, spreadSum, valued]
  enums := by simp [sharedSum, spreadSum, valued, Enum.map, EnumMember.map, ontoShared]
  resources := fun _ => rfl

theorem print_of_trees_sums : spreadSum.Resolves ∧ sharedSum.Resolves ∧
    Program.Copied ontoShared spreadSum sharedSum ∧
    ∃ files, spreadSum.print {} = .ok files ∧ sharedSum.print {} = .ok files := by
  obtain ⟨files, printed⟩ := exists_of_isOk (r := spreadSum.print {}) (by decide +kernel)
  have same := (print_of_trees spreadSum sharedSum {} spreadSum_resolves sharedSum_resolves).2.1
    ontoShared spreadSum_copied files
  exact ⟨spreadSum_resolves, sharedSum_resolves, spreadSum_copied, files, printed, same.1 printed⟩

end CppPrinter
