import CppPrinter.Proofs.Expr.Tree
import CppPrinter.Proofs.Expr.Induction

/-!
# References that lead somewhere

Types, symbols, calls and parents name classes, enumerations and methods by position. They resolve
(`Ty.Resolves`, `Node.Resolves`, `Scope.Resolves`) when there is something at every position. A
result is `Grounded` when it is no error that blames a class for a circular dependency, which is a
matter of the order of the classes alone, and no failed look-up where the references resolve. The
results of printing are grounded, step by step; here are the laws of steps, and names and types.
-/

namespace CppPrinter

/-- An error that may come up where references resolve as far as `fits` says so: a failed look-up
only if it does not hold, and a circular dependency not at all. -/
def RenderError.IsGrounded (fits : Prop) : RenderError → Prop
  | .dangling => ¬ fits
  | .circularDependency _ => False
  | .arrayInitializer _ | .unsupported _ => True

/-- The result blames no class, and is no failed look-up if `fits` holds. With `fits` a condition
on the program, one law about a step says both what no program can do and what a program that meets
the condition cannot do. -/
def Grounded {α : Type} (fits : Prop) (r : Rendered α) : Prop :=
  ∀ e, r = .error e → e.IsGrounded fits

namespace Grounded

variable {α β : Type} {fits : Prop}

@[simp] theorem ok (a : α) : Grounded fits (.ok a : Rendered α) := nofun

theorem error {e : RenderError} (h : e.IsGrounded fits) :
    Grounded fits (.error e : Rendered α) := by
  rintro _ ⟨⟩
  exact h

@[simp] theorem arrayInitializer (name : String) :
    Grounded fits (.error (.arrayInitializer name) : Rendered α) := .error trivial

@[simp] theorem unsupported (cause : Unsupported) :
    Grounded fits (CppPrinter.unsupported cause : Rendered α) := .error trivial

/-- A step whose result is known goes on from that result. -/
theorem bind_ok {x : Rendered α} {f : α → Rendered β} (first : Grounded fits x)
    (second : ∀ a, x = .ok a → Grounded fits (f a)) : Grounded fits (x >>= f) := by
  intro e failed
  rcases bind_eq_error_iff.1 failed with early | ⟨a, result, late⟩
  · exact first e early
  · exact second a result e late

theorem bind {x : Rendered α} {f : α → Rendered β} (first : Grounded fits x)
    (second : ∀ a, Grounded fits (f a)) : Grounded fits (x >>= f) :=
  first.bind_ok fun a _ => second a

theorem map {x : Rendered α} (f : α → β) (h : Grounded fits x) : Grounded fits (f <$> x) := by
  cases x with
  | ok a => exact ok (f a)
  | error e => exact .error (h e rfl)

theorem mapM {f : α → Rendered β} {xs : List α} (h : ∀ x ∈ xs, Grounded fits (f x)) :
    Grounded fits (xs.mapM f) := by
  induction xs with
  | nil => exact ok []
  | cons x rest ih =>
    obtain ⟨here, later⟩ := List.forall_mem_cons.1 h
    rw [List.mapM_cons]
    exact here.bind fun b => (ih later).bind fun bs => ok (b :: bs)

theorem lookUp {table : Array α} {index : Nat} (inside : fits → index < table.size) :
    Grounded fits (lookUp table index) := by
  intro e failed
  obtain ⟨outside, rfl⟩ := lookUp_eq_error_iff.1 failed
  exact fun holds => absurd (inside holds) (Nat.not_lt.2 outside)

end Grounded

/-! ### What resolves -/

/-- Every class and enumeration in the type exists. -/
def Ty.Resolves (scope : Scope) : Ty → Prop
  | .arrayPtr _ element | .arrayStorage element _ => element.Resolves scope
  | .classPtr _ c | .classValue c => c.index < scope.classes.size
  | .enum e => e.index < scope.enums.size
  | _ => True

/-- The class or enumeration that the symbol belongs to exists. -/
def Symbol.Resolves (scope : Scope) : Symbol → Prop
  | .field owner _ | .constant owner _ | .classRef owner => owner.index < scope.classes.size
  | .enumValue owner _ | .enumRef owner => owner.index < scope.enums.size
  | _ => True

/-- The method exists. -/
def MethodRef.Resolves (scope : Scope) : MethodRef → Prop
  | .user owner index => ∃ c, scope.classes[owner.index]? = some c ∧ index < c.methods.length
  | .library _ => True

/-- Every type in the signature resolves. -/
structure Signature.Resolves (scope : Scope) (s : Signature) : Prop where
  returnType : s.returnType.Resolves scope
  params : ∀ q ∈ s.params, q.ty.Resolves scope

/-- All that the classes say of themselves resolves: their parents and the types of their methods. -/
structure Scope.Resolves (scope : Scope) : Prop where
  parents : ∀ c ∈ scope.classes, ∀ id ∈ c.parent, id.index < scope.classes.size
  methods : ∀ c ∈ scope.classes, ∀ s ∈ c.methods, s.Resolves scope

/-- What the node itself names exists, whatever its operands. -/
def Shape.Resolves {ρ : Type} (scope : Scope) : Shape ρ → Prop
  | .symbol target | .member _ target => target.Resolves scope
  | .call _ method _ => method.Resolves scope
  | .newObject target => target.index < scope.classes.size
  | .newArray element _ => element.Resolves scope
  | _ => True

structure Node.Resolves {ρ : Type} (scope : Scope) (n : Node ρ) : Prop where
  shape : n.shape.Resolves scope
  ty : n.ty.Resolves scope

/-- The type that the form converts to resolves. -/
def Form.Resolves (scope : Scope) : Form → Prop
  | .coerced target | .cast target => target.Resolves scope
  | .plain | .arrayPointer => True

theorem Shape.resolves_map_iff {α β : Type} {scope : Scope} (f : α → β) (s : Shape α) :
    (s.map f).Resolves scope ↔ s.Resolves scope := by
  cases s <;> exact Iff.rfl

theorem Node.resolves_map {α β : Type} {scope : Scope} (f : α → β) {n : Node α}
    (h : n.Resolves scope) : (n.map f).Resolves scope :=
  ⟨(n.shape.resolves_map_iff f).2 h.shape, h.ty⟩

theorem Ty.i32_resolves (scope : Scope) : Ty.i32.Resolves scope := trivial

theorem Ty.Resolves.element {scope : Scope} {ty element : Ty} (h : ty.Resolves scope)
    (holds : ty.element? = some element) : element.Resolves scope := by
  cases ty <;> first | (cases holds; exact h) | cases holds

theorem Ty.Resolves.pointee {scope : Scope} {ty : Ty} {c : ClassId} (h : ty.Resolves scope)
    (points : ty.pointee? = some c) : c.index < scope.classes.size := by
  cases ty <;> first | (cases points; exact h) | cases points

/-- The class of which a type stores values exists. -/
theorem Ty.Resolves.baseClass {scope : Scope} {ty : Ty} {c : ClassId} (h : ty.Resolves scope)
    (stores : ty.baseClass = some c) : c.index < scope.classes.size := by
  induction ty with
  | arrayPtr _ element ih | arrayStorage element _ ih => exact ih h stores
  | classValue c =>
    cases stores
    exact h
  | _ => cases stores

/-! ### Names and types -/

section Names

variable {fits : Prop} {scope : Scope}

theorem Scope.class?_grounded {id : ClassId} (inside : fits → id.index < scope.classes.size) :
    Grounded fits (scope.class? id) := .lookUp inside

theorem Scope.className_grounded {id : ClassId} (inside : fits → id.index < scope.classes.size) :
    Grounded fits (scope.className id) :=
  (scope.class?_grounded inside).bind fun _ => .ok _

theorem Scope.enumName_grounded {id : EnumId} (inside : fits → id.index < scope.enums.size) :
    Grounded fits (scope.enumName id) := .lookUp inside

theorem Scope.mem_of_class? {id : ClassId} {c : ClassHead} (found : scope.class? id = .ok c) :
    c ∈ scope.classes :=
  Array.mem_of_getElem? (lookUp_eq_ok_iff.1 found)

theorem Scope.method_grounded {owner : ClassId} {index : Nat}
    (resolves : fits → (MethodRef.user owner index).Resolves scope) :
    Grounded fits (scope.method owner index) := by
  refine (scope.class?_grounded fun holds => ?_).bind_ok fun c found => ?_
  · obtain ⟨c, found, -⟩ := resolves holds
    exact (Array.getElem?_eq_some_iff.1 found).1
  · cases entry : c.methods[index]? with
    | some s => exact .ok s
    | none =>
      refine .error fun holds => ?_
      obtain ⟨c', found', inside⟩ := resolves holds
      rw [lookUp_eq_ok_iff.1 found] at found'
      cases found'
      exact absurd inside (Nat.not_lt.2 (List.getElem?_eq_none_iff.1 entry))

theorem Scope.resolves_of_method {owner : ClassId} {index : Nat} {s : Signature}
    (resolves : scope.Resolves) (found : scope.method owner index = .ok s) : s.Resolves scope := by
  obtain ⟨c, isClass, entry⟩ := bind_eq_ok_iff.1 found
  cases inside : c.methods[index]? with
  | none => simp [inside] at entry
  | some s' =>
    simp only [inside, pure_eq_ok, Except.ok.injEq] at entry
    subst entry
    exact resolves.methods c (scope.mem_of_class? isClass) s' (List.mem_of_getElem? inside)

/-- The walk over the parents stays among the classes. -/
theorem Scope.derivesWithin_grounded (resolves : fits → scope.Resolves) (base : ClassId)
    (steps : Nat) {current : ClassId} (inside : fits → current.index < scope.classes.size) :
    Grounded fits (scope.derivesWithin base steps current) := by
  induction steps generalizing current with
  | zero => exact .ok false
  | succ steps ih =>
    rw [Scope.derivesWithin]
    split
    · exact .ok true
    · refine (scope.class?_grounded inside).bind_ok fun c found => ?_
      cases parent : c.parent with
      | none => exact .ok false
      | some id =>
        exact ih fun holds => (resolves holds).parents c (scope.mem_of_class? found) id parent

theorem Scope.accepts_grounded (resolves : fits → scope.Resolves) (target : Ty) {other : Ty}
    (otherResolves : fits → other.Resolves scope) : Grounded fits (scope.accepts target other) := by
  cases target with
  | classPtr _ base =>
    cases other with
    | classPtr _ derived | classValue derived =>
      exact scope.derivesWithin_grounded resolves base _ otherResolves
    | _ => exact .ok _
  | _ => exact .ok _

theorem IntKind.of_grounded (int : IntegerType) : Grounded fits (IntKind.of int) := by
  unfold IntKind.of
  split <;> simp

theorem Ty.intKind?_grounded (ty : Ty) (promote : Bool) : Grounded fits (ty.intKind? promote) := by
  unfold Ty.intKind?
  split
  · exact .ok none
  · exact (IntKind.of_grounded _).bind fun _ => .ok _

theorem Ty.spelling_grounded {ty : Ty} (resolves : fits → ty.Resolves scope) (promote : Bool) :
    Grounded fits (ty.spelling scope promote) := by
  induction ty generalizing promote with
  | integer int => exact (IntKind.of_grounded int).bind fun _ => .ok _
  | arrayPtr _ _ ih | arrayStorage _ _ ih => exact (ih resolves false).bind fun _ => .ok _
  | classPtr _ pointee => exact (scope.className_grounded resolves).bind fun _ => .ok _
  | classValue stored => exact scope.className_grounded resolves
  | enum enumeration => exact scope.enumName_grounded resolves
  | null => exact .unsupported _
  | _ => exact .ok _

theorem Ty.declaration_grounded {ty : Ty} (resolves : fits → ty.Resolves scope) (name : String) :
    Grounded fits (ty.declaration scope name) :=
  (ty.spelling_grounded resolves true).bind fun _ => .ok _

theorem Literal.text_grounded (l : Literal) : Grounded fits l.text := by
  cases l with
  | double value =>
    rw [Literal.text]
    split <;> simp
  | _ => exact .ok _

theorem Symbol.text_grounded {s : Symbol} (resolves : fits → s.Resolves scope) :
    Grounded fits (s.text scope) := by
  cases s with
  | enumValue owner name => exact (scope.enumName_grounded resolves).bind fun _ => .ok _
  | classRef target => exact scope.className_grounded resolves
  | enumRef target => exact scope.enumName_grounded resolves
  | math | utf8 | stringLength => exact .unsupported _
  | _ => exact .ok _

theorem Symbol.memberName_grounded (s : Symbol) : Grounded fits s.memberName := by
  cases s <;> first | exact .ok _ | exact .unsupported _

end Names

end CppPrinter
