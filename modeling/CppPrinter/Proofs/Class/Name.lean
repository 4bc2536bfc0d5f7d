import CppPrinter.Class.Definition
import CppPrinter.Proofs.Expr.Unfold
import CppPrinter.Proofs.Expr.Induction
import CppPrinter.Proofs.Stmt.Induction

/-!
# Names of a program

A property of names, asked of all names of a program (`Program.EveryName`): those of its classes,
enumerations and members, of parameters and local variables, and those that expressions hold. Printing
looks names up by position, and what it finds has the property too.
-/

namespace CppPrinter

/-! ### What holds a name -/

/-- The name that a symbol has of its own. -/
def Symbol.name? : Symbol → Option String
  | localName name | field _ name | constant _ name | enumValue _ name => some name
  | _ => none

/-- The names that a shape holds itself: that of a symbol, or of a mathematical function. -/
def Shape.names {ρ : Type} : Shape ρ → List String
  | symbol target | member _ target => target.name?.toList
  | call _ (.library (.math name)) _ => [name]
  | _ => []

theorem Shape.names_map {α β : Type} (f : α → β) (s : Shape α) : (s.map f).names = s.names := by
  unfold map
  split <;> first | rfl | skip
  rename_i object method args
  cases method with
  | user => rfl
  | library method => cases method <;> rfl

/-- The name that a statement declares. -/
def Stmt.name? {ρ : Type} : Stmt ρ → Option String
  | declare name _ _ | constant name _ _ => some name
  | _ => none

/-- What all nodes of an arena hold besides their operands, all nodes of its trees hold. -/
theorem Arena.every_tree {a : Arena} {property : String → Prop}
    (held : {ρ : Type} → Shape ρ → List String)
    (held_map : ∀ {α β : Type} (f : α → β) (s : Shape α), held (s.map f) = held s)
    (each : ∀ n ∈ a.nodes, ∀ text ∈ held n.shape, property text) (id : ExprId) :
    (a.tree id).Every fun n => ∀ text ∈ held n.shape, property text := by
  unfold Arena.tree
  generalize a.depth = depth
  induction depth generalizing id with
  | zero => exact .dangling
  | succ depth ih =>
    unfold Arena.unfold
    cases found : a.nodes[id.index]? with
    | none => exact .dangling
    | some n =>
      refine .node _ ?_ ?_
      · rw [Node.map, held_map]
        exact each n (Array.mem_of_getElem? found)
      · intro e member
        rw [Node.map, Shape.operandsOf_map] at member
        obtain ⟨operand, -, rfl⟩ := List.mem_map.1 member
        exact ih operand

/-! ### All names -/

section EveryName

variable (property : String → Prop)

/-- The names of the classes and of their methods, and those of the enumerations. -/
structure Scope.EveryName (scope : Scope) : Prop where
  classes : ∀ c ∈ scope.classes, property c.name ∧ ∀ s ∈ c.methods, property s.name
  enums : ∀ name ∈ scope.enums, property name

/-- The names that expressions see or hold. -/
structure Env.EveryName (env : Env) : Prop where
  scope : env.scope.EveryName property
  exprs : ∀ n ∈ env.exprs.nodes, ∀ name ∈ n.shape.names, property name

/-- The names that the statement declares, however deep. -/
def Stmt.EveryName {ρ : Type} (s : Stmt ρ) : Prop := s.Every fun t => ∀ name ∈ t.name?, property name

/-- The names of a method and its parameters. -/
structure Signature.EveryName (s : Signature) : Prop where
  name : property s.name
  params : ∀ q ∈ s.params, property q.name

/-- The names of the class and its members, and those that its bodies declare. -/
structure Class.EveryName (c : Class ExprId) : Prop where
  name : property c.name
  constants : ∀ k ∈ c.constants, property k.name
  fields : ∀ f ∈ c.fields, property f.name
  methods : ∀ m ∈ c.methods, m.toSignature.EveryName property
  constructor : ∀ body ∈ c.constructorBody, ∀ s ∈ body, s.EveryName property
  bodies : ∀ m ∈ c.methods, ∀ s ∈ m.body, s.EveryName property

/-- The names of the enumeration and its members. -/
structure Enum.EveryName (e : Enum ExprId) : Prop where
  name : property e.name
  members : ∀ m ∈ e.members, property m.name

/-- All names in the program. -/
structure Program.EveryName (p : Program) : Prop where
  classes : ∀ c ∈ p.classes, c.EveryName property
  enums : ∀ e ∈ p.enums, e.EveryName property
  exprs : ∀ n ∈ p.exprs.nodes, ∀ name ∈ n.shape.names, property name

end EveryName

variable {property : String → Prop}

theorem Scope.EveryName.class? {scope : Scope} (names : scope.EveryName property) (id : ClassId) :
    Gives (fun c => property c.name ∧ ∀ s ∈ c.methods, property s.name) (scope.class? id) :=
  fun _ found => names.classes _ (Array.mem_of_getElem? (lookUp_eq_ok_iff.1 found))

theorem Scope.EveryName.className {scope : Scope} (names : scope.EveryName property) (id : ClassId) :
    Gives property (scope.className id) :=
  (names.class? id).bind fun _ h => .ok h.1

theorem Scope.EveryName.enumName {scope : Scope} (names : scope.EveryName property) (id : EnumId) :
    Gives property (scope.enumName id) :=
  fun _ found => names.enums _ (Array.mem_of_getElem? (lookUp_eq_ok_iff.1 found))

theorem Scope.EveryName.method {scope : Scope} (names : scope.EveryName property) (owner : ClassId)
    (index : Nat) : Gives (fun s => property s.name) (scope.method owner index) := by
  refine (names.class? owner).bind fun c h => ?_
  cases found : c.methods[index]? with
  | none => exact .error _
  | some s => exact .ok (h.2 s (List.mem_of_getElem? found))

/-- The names in a tree are those of the arena. -/
theorem Env.EveryName.tree {env : Env} (names : env.EveryName property) (id : ExprId) :
    (env.exprs.tree id).Every fun n => ∀ name ∈ n.shape.names, property name :=
  Arena.every_tree Shape.names Shape.names_map names.exprs id

/-- The names of a block are those of its statements. -/
theorem Stmt.EveryName.bodyStatements {s : Stmt ExprId} (h : s.EveryName property) :
    ∀ t ∈ s.bodyStatements, t.EveryName property := by
  cases s with
  | block body => exact h.parts.2
  | _ => exact List.forall_mem_singleton.2 h

/-- Printing members and statements sees no other names than those of the program. -/
theorem Program.EveryName.env {p : Program} (names : p.EveryName property) :
    p.env.EveryName property where
  scope := by
    constructor
    · intro head member
      obtain ⟨c, listed, rfl⟩ := Array.mem_map.1 member
      refine ⟨(names.classes c listed).name, List.forall_mem_map.2 fun m isMethod => ?_⟩
      exact ((names.classes c listed).methods m isMethod).name
    · intro name member
      obtain ⟨e, listed, rfl⟩ := Array.mem_map.1 member
      exact (names.enums e listed).name
  exprs := names.exprs

end CppPrinter
