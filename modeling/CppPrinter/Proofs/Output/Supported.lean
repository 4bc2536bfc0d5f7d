import CppPrinter.Proofs.Output.Agreement
import CppPrinter.Proofs.Stmt.Induction

/-!
# What is printed is supported

A printed program has passed every check on the way: its types can be spelled, its inline arrays
start with nothing or with zeros, its methods have bodies, and its loops start with something that
fits into their heads. Each check is a law about one declaration, statement or member
(`Ty.isSpellable_of_spelling`, `Stmt.IsRendered.isSupported`, `Class.IsPrinted.isSupported`); printing
a statement prints everything inside it, so the laws hold at any depth (`supported_of_print`).
-/

namespace CppPrinter

/-! ### Types and initial values -/

/-- The type is no unsigned integer of 32 or 64 bits and not the type of null, and neither is what
it holds in arrays, at any depth. -/
def Ty.IsSpellable : Ty → Prop
  | .integer int => int.signed = true ∨ int.width.bits < 32
  | .null => False
  | .arrayPtr _ element | .arrayStorage element _ => element.IsSpellable
  | _ => True

theorem IntKind.of_eq_ok {int : IntegerType} {kind : IntKind} (h : IntKind.of int = .ok kind) :
    int.signed = true ∨ int.width.bits < 32 := by
  obtain ⟨width, signed⟩ := int
  cases width <;> cases signed <;> simp_all [IntKind.of, IntWidth.bits]

/-- Only types that can be spelled are spelled. -/
theorem Ty.isSpellable_of_spelling {scope : Scope} {ty : Ty} {promote : Bool} {text : String}
    (spelled : ty.spelling scope promote = .ok text) : ty.IsSpellable := by
  induction ty generalizing promote text with
  | integer int =>
    rw [spelling, bind_eq_ok_iff] at spelled
    obtain ⟨kind, isKind, -⟩ := spelled
    exact IntKind.of_eq_ok isKind
  | arrayPtr _ element ih | arrayStorage element _ ih =>
    rw [spelling, bind_eq_ok_iff] at spelled
    obtain ⟨inner, spelledElement, -⟩ := spelled
    exact ih spelledElement
  | null => simp [spelling] at spelled
  | _ => trivial

theorem Ty.isSpellable_of_declaration {scope : Scope} {ty : Ty} {name text : String}
    (declared : ty.declaration scope name = .ok text) : ty.IsSpellable := by
  obtain ⟨spelled, isSpelled, -⟩ := bind_eq_ok_iff.1 declared
  exact isSpellable_of_spelling isSpelled

/-- An inline array starts with nothing or with a literal that stands for its zeros. -/
def Arena.CanStart (exprs : Arena) (ty : Ty) (value : Option ExprId) : Prop :=
  ty.isArrayStorage = true → ∀ id ∈ value, ∃ n literal,
    exprs.node id = .ok n ∧ n.literal? = some literal ∧ literal.isDefault = true

namespace Env

variable {env : Env} {name text : String} {ty : Ty}

theorem canStart_of_initializer {value : Option ExprId}
    (printed : env.initializer name ty value = .ok text) : env.exprs.CanStart ty value := by
  intro isStorage id given
  cases given
  cases ty with
  | arrayStorage element length =>
    rw [initializer, bind_eq_ok_iff] at printed
    obtain ⟨n, found, rest⟩ := printed
    cases literal : n.literal? with
    | none => simp [literal] at rest
    | some l =>
      refine ⟨n, l, found, literal, ?_⟩
      by_contra other
      simp [literal, other] at rest
  | _ => cases isStorage

theorem supported_of_declare {value : Option ExprId}
    (printed : env.declare name ty value = .ok text) :
    ty.IsSpellable ∧ env.exprs.CanStart ty value := by
  obtain ⟨declared, isDeclared, rest⟩ := bind_eq_ok_iff.1 printed
  obtain ⟨start, isStart, -⟩ := bind_eq_ok_iff.1 rest
  exact ⟨Ty.isSpellable_of_declaration isDeclared, canStart_of_initializer isStart⟩

theorem isSpellable_of_constant {value : ExprId}
    (printed : env.constant name ty value = .ok text) : ty.IsSpellable := by
  obtain ⟨declared, isDeclared, -⟩ := bind_eq_ok_iff.1 printed
  exact Ty.isSpellable_of_declaration isDeclared

end Env

/-! ### Statements -/

namespace Stmt

/-- A loop can start with the statement. -/
def IsLoopStart : Stmt ExprId → Prop
  | .declare .. | .evaluate _ => True
  | _ => False

/-- What the statement declares is supported, and a loop starts with what fits into its head. -/
def IsSupported (exprs : Arena) : Stmt ExprId → Prop
  | .declare _ ty value => ty.IsSpellable ∧ exprs.CanStart ty value
  | .constant _ ty _ => ty.isArrayStorage = true → ty.IsSpellable
  | .forLoop start _ _ _ => ∀ s ∈ start, s.IsLoopStart
  | _ => True

variable {env : Env} {returnType : Option Ty}

theorem IsRendered.isSupported {s : Stmt ExprId} (h : s.IsRendered env returnType) :
    s.IsSupported env.exprs := by
  obtain ⟨f, printed⟩ := h
  cases s with
  | declare name ty value =>
    obtain ⟨text, declared, -⟩ := bind_eq_ok_iff.1 printed
    exact Env.supported_of_declare declared
  | constant name ty value =>
    intro isStorage
    obtain ⟨ls, declared, -⟩ := bind_eq_ok_iff.1 printed
    rw [Env.localConstant, if_pos isStorage, bind_eq_ok_iff] at declared
    obtain ⟨text, declared, -⟩ := declared
    exact Env.isSpellable_of_constant declared
  | forLoop start test advance body =>
    obtain ⟨first, started, -⟩ := bind_eq_ok_iff.1 printed
    intro s given
    cases given
    cases s with
    | declare | evaluate => trivial
    | _ => simp [Env.loopStart] at started
  | _ => trivial

/-- All that stands in a printed body is supported, at any depth. -/
theorem supported_of_bodyLines {body : List (Stmt ExprId)} {ls : List Line}
    (printed : bodyLines env returnType body = .ok ls) :
    ∀ s ∈ body, s.Every (IsSupported env.exprs) := by
  obtain ⟨fs, rendered, -⟩ := bind_eq_ok_iff.1 printed
  intro s member
  exact (isRendered_of_renderAll rendered s member).every fun t => IsRendered.isSupported

/-- The body of a method is a block around its statements, or its only statement. -/
theorem supported_of_bodyStatements {exprs : Arena} {body : Stmt ExprId}
    (each : ∀ s ∈ body.bodyStatements, s.Every (IsSupported exprs)) :
    body.Every (IsSupported exprs) := by
  cases body with
  | block statements => exact .intro trivial each
  | _ => exact each _ (List.mem_singleton_self _)

end Stmt

/-! ### Classes -/

namespace Class

/-- Everything that the printer asks of a class: the types of its members and their initial values,
bodies for all methods that are not abstract, and of these bodies and that of the constructor all
that `Stmt.IsSupported` asks, at any depth. -/
structure IsSupported (exprs : Arena) (c : Class ExprId) : Prop where
  fields : ∀ f ∈ c.fields, f.ty.IsSpellable ∧ exprs.CanStart f.ty f.value
  constants : ∀ k ∈ c.constants, k.ty.isArrayStorage = true → k.ty.IsSpellable
  signatures : ∀ m ∈ c.methods, m.returnType.IsSpellable ∧ ∀ q ∈ m.params, q.ty.IsSpellable
  bodies : ∀ m ∈ c.methods, m.dispatch ≠ .abstract →
    ∃ body, m.body = some body ∧ body.Every (Stmt.IsSupported exprs)
  constructor : ∀ body ∈ c.constructorBody, ∀ s ∈ body, s.Every (Stmt.IsSupported exprs)

variable {env : Env} {c : Class ExprId} {page : Page}

theorem isSpellable_of_frame {scope : Scope} {s : Signature} {f : Signature.Frame}
    (framed : s.frame scope = .ok f) :
    s.returnType.IsSpellable ∧ ∀ q ∈ s.params, q.ty.IsSpellable := by
  obtain ⟨params, printedParams, rest⟩ := bind_eq_ok_iff.1 framed
  obtain ⟨texts, declared, -⟩ := bind_eq_ok_iff.1 printedParams
  obtain ⟨returned, spelled, -⟩ := bind_eq_ok_iff.1 rest
  refine ⟨Ty.isSpellable_of_spelling spelled, fun q member => ?_⟩
  obtain ⟨text, isDeclared⟩ := exists_of_mapM declared member
  exact Ty.isSpellable_of_declaration isDeclared

theorem supported_of_definitionLines {name : String} {m : Method ExprId} {ls : List Line}
    (printed : m.definitionLines env name = .ok ls) (concrete : m.dispatch ≠ .abstract) :
    ∃ body, m.body = some body ∧ body.Every (Stmt.IsSupported env.exprs) := by
  rw [Method.definitionLines, if_neg concrete] at printed
  cases given : m.body with
  | none => simp [given] at printed
  | some body =>
    simp only [given, bind_eq_ok_iff] at printed
    obtain ⟨-, -, inner, printedBody, -⟩ := printed
    exact ⟨body, rfl, Stmt.supported_of_bodyStatements (Stmt.supported_of_bodyLines printedBody)⟩

theorem IsPrinted.isSupported (h : c.IsPrinted env page) : c.IsSupported env.exprs where
  fields := by
    intro f member
    obtain ⟨line, -, printed⟩ := h.exists_line (c.field_mem_entries_iff.2 member)
    obtain ⟨_, chain, -⟩ := map_eq_ok_iff.1 printed
    obtain ⟨text, declared, -⟩ := bind_eq_ok_iff.1 chain
    exact Env.supported_of_declare declared
  constants := by
    intro k member isStorage
    obtain ⟨line, -, printed⟩ := h.exists_line (c.constant_mem_entries_iff.2 ⟨member, isStorage⟩)
    obtain ⟨_, chain, -⟩ := map_eq_ok_iff.1 printed
    obtain ⟨text, declared, -⟩ := bind_eq_ok_iff.1 chain
    exact Env.isSpellable_of_constant declared
  signatures := by
    intro m member
    obtain ⟨f, framed, -⟩ := h.methodsAgree.framed m member
    exact isSpellable_of_frame framed
  bodies := by
    intro m member concrete
    obtain ⟨start, -, rest⟩ := bind_eq_ok_iff.1 h.defined
    obtain ⟨parts, printedMethods, -⟩ := bind_eq_ok_iff.1 rest
    obtain ⟨ls, printed⟩ := exists_of_mapM printedMethods member
    exact supported_of_definitionLines printed concrete
  constructor := by
    intro body given
    have printed := h.constructorLines
    rw [Class.constructorLines, given] at printed
    obtain ⟨inner, printedBody, -⟩ := bind_eq_ok_iff.1 printed
    exact Stmt.supported_of_bodyLines printedBody

end Class

/-- Every class of a program that is printed is supported. -/
theorem supported_of_print (p : Program) (o : Options) (files : Artifacts)
    (printed : p.print o = .ok files) : ∀ c ∈ p.classes, c.IsSupported p.exprs := by
  obtain ⟨order, pages, enums, laidOut⟩ := p.exists_layout printed
  intro c member
  obtain ⟨i, inside, rfl⟩ := Array.mem_iff_getElem.1 member
  exact (laidOut.printedClasses ⟨i⟩ _ (Array.getElem?_eq_getElem inside)).isSupported

/-- A class with an inline array that starts with zeros, and a method that declares its variables
inside loops and the cases of a switch. -/
def sieve : Program where
  classes := #[
    ⟨"Sieve", none, .normal, some [.branch ⟨3⟩ (.whileLoop ⟨3⟩ (.declare "n" .i32 none)) none],
      [⟨"primes", .everywhere, .arrayStorage .i32 2, ⟨2⟩⟩],
      [⟨"marks", .ownClass, .arrayStorage .bool 64, some ⟨0⟩⟩],
      [⟨⟨"Run", .everywhere, .normal, true, .i32, [⟨"from", .i32⟩]⟩, some (.forLoop
        (some (.declare "i" .i32 (some ⟨1⟩))) (some ⟨3⟩) none
        (.switch ⟨1⟩ [([⟨1⟩], [.declare "row" (.arrayStorage .double 4) (some ⟨0⟩), .breakLoop])]
          (some [.ret (some ⟨1⟩)])))⟩]⟩]
  exprs := ⟨#[⟨.literal .null, .null⟩, ⟨.literal (.int 2), .i32⟩,
    ⟨.aggregate [⟨1⟩, ⟨1⟩], .arrayStorage .i32 2⟩, ⟨.literal (.bool true), .bool⟩]⟩

theorem supported_of_print_sieve : ∃ files, sieve.print {} = .ok files ∧
    ∀ c ∈ sieve.classes, c.IsSupported sieve.exprs := by
  obtain ⟨files, printed⟩ := exists_of_isOk (r := sieve.print {}) (by decide +kernel)
  exact ⟨files, printed, supported_of_print sieve {} files printed⟩

end CppPrinter
