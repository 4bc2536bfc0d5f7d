import CppPrinter.Proofs.Reading.Form

/-!
# Arrays as raw pointers

The printed language holds an array inline, by a shared pointer or by a raw one (`Held`), and each is made a
raw pointer in its own way: the first two are asked for their first element, a raw pointer stays as it is, and
a conditional of raw pointers hands the question on to its branches. The printer goes by the type alone
(`Ty.accessor?`). The type says how the array is held unless the expression is one that the printed language
holds in one way whatever its type, as it does a resource (`Expr.held?`). Whether the two agree at everything
that an array comes down to is read off the expression (`Expr.decays`).
-/

namespace CppPrinter

/-! ### How arrays are held -/

/-- How the printed language holds an array. -/
inductive Held where
  /-- Inline, as a `std::array`. -/
  | inline
  /-- By a shared pointer. -/
  | shared
  /-- By a raw pointer. -/
  | raw
  /-- Not at all: the null pointer, which every kind of pointer takes. -/
  | null
  deriving DecidableEq

/-- What a variable, a field or a result of a type holds. -/
def Ty.held? : Ty → Option Held
  | arrayStorage .. => some .inline
  | arrayPtr .shared _ => some .shared
  | arrayPtr .. => some .raw
  | _ => none

/-- What a choice between two values holds. -/
def Held.choice? : Option Held → Option Held → Option Held
  | some .null, some .shared | some .shared, some .null => some .shared
  | some .null, some .raw | some .raw, some .null => some .raw
  | some x, some y => if x = y then some x else none
  | _, _ => none

/-- What the text of an expression holds as it stands, with no branch of it converted. Some expressions hold
the same whatever their type: a resource is defined as a `std::array`, a new array is made with its shared
pointer, and a list of elements in braces is no value. -/
def Expr.held? : Expr → Option Held
  | .dangling => none
  | .node ⟨shape, ty⟩ =>
    match shape with
    | .select _ positive negative => Held.choice? (positive ()).held? (negative ()).held?
    | .literal .null => some .null
    | .literal _ | .aggregate _ => none
    | .resource _ => some .inline
    | .newArray _ _ => some .shared
    | _ => ty.held?

/-- The expression is an array: it has the type of an array, or it is the null pointer; and so are the
branches of a conditional. -/
inductive Expr.IsArray : Expr → Prop where
  | null {ty : Ty} : IsArray (.node ⟨.literal .null, ty⟩)
  | single {n : Node (Unit → Expr)} (array : n.ty.isArray = true)
      (noSelect : ∀ test positive negative, n.shape ≠ .select test positive negative) : IsArray (.node n)
  | select {test positive negative : Unit → Expr} {ty : Ty} (array : ty.isArray = true) :
      IsArray (positive ()) → IsArray (negative ()) → IsArray (.node ⟨.select test positive negative, ty⟩)

/-! ### What they become -/

/-- The call that gives a raw pointer to the first element; raw pointers need none. -/
def Held.accessor? : Held → Option String
  | inline => some "data"
  | shared => some "get"
  | raw | null => none

/-- The call that is printed for arrays of a type. -/
def Ty.accessor? : Ty → Option String
  | arrayStorage .. => some "data"
  | arrayPtr .shared _ => some "get"
  | _ => none

/-- The call of a method without arguments, behind an object. -/
def asked (object method : String) : String := object ++ ("." ++ method ++ "()")

theorem asked_inj {object method method' : String} :
    asked object method = asked object method' ↔ method = method' := by
  simp [asked, String.append_assoc]

theorem asked_ne (object method : String) : asked object method ≠ object := by
  intro same
  have lengths := congrArg String.length same
  simp [asked] at lengths

namespace Ty

variable {ty : Ty} {method : String}

theorem isArray_of_accessor? (asks : ty.accessor? = some method) : ty.isArray = true := by
  cases ty with
  | arrayStorage element length | arrayPtr ownership element => rfl
  | _ => cases asks

theorem isIdentifier_of_accessor? (asks : ty.accessor? = some method) : IsIdentifier method := by
  cases ty with
  | arrayStorage element length =>
    cases asks
    decide
  | arrayPtr ownership element =>
    cases ownership <;> cases asks
    decide
  | _ => cases asks

end Ty

section Text

variable {scope : Scope} {n : Node (Unit → Expr)} {p : Precedence}

theorem Expr.text_arrayPointer_asked {method : String} (asks : n.ty.accessor? = some method) :
    (Expr.node n).text scope .arrayPointer p =
      (do return asked (← (Expr.node n).text scope .plain .primary) method) := by
  obtain ⟨shape, ty⟩ := n
  rw [Expr.text_node]
  cases ty with
  | arrayStorage element length =>
    cases asks
    rfl
  | arrayPtr ownership element =>
    cases ownership <;> cases asks
    rfl
  | _ => cases asks

theorem Expr.text_arrayPointer_passed (passes : n.ty.accessor? = none) :
    (Expr.node n).text scope .arrayPointer p = (Expr.node n).text scope .plain p := by
  obtain ⟨shape, ty⟩ := n
  rw [Expr.text_node]
  cases ty with
  | arrayStorage element length => cases passes
  | arrayPtr ownership element => cases ownership <;> first | rfl | cases passes
  | _ => rfl

/-- The conversion to a pointer that is not shared is the decay, whatever the elements. -/
theorem Expr.text_coerced_arrayPtr {ownership : Ownership} (unshared : ownership ≠ .shared) (element : Ty)
    (e : Expr) : e.text scope (.coerced (.arrayPtr ownership element)) p = e.text scope .arrayPointer p := by
  cases e with
  | dangling => rfl
  | node n =>
    rw [Expr.text_node]
    cases ownership with
    | shared => exact absurd rfl unshared
    | _ => rfl

/-- The branches of a conditional of raw pointers become raw pointers one by one. -/
theorem Expr.text_arrayPointer_select {test positive negative : Unit → Expr} {ty : Ty}
    (array : ty.isArray = true) (passes : ty.accessor? = none) :
    (Expr.node ⟨.select test positive negative, ty⟩).text scope .arrayPointer p = (do
      let c ← (test ()).text scope .plain .condOr
      let t ← (positive ()).text scope .arrayPointer .select
      let e ← (negative ()).text scope .arrayPointer .select
      return Precedence.select.parenthesize p (c ++ " ? " ++ t ++ " : " ++ e)) := by
  rw [text_arrayPointer_passed passes, Expr.text_node]
  cases ty with
  | arrayPtr ownership element =>
    have unshared : ownership ≠ .shared := by
      rintro rfl
      cases passes
    rw [← text_coerced_arrayPtr unshared element, ← text_coerced_arrayPtr unshared element]
    rfl
  | arrayStorage element length => cases passes
  | _ => cases array

end Text

/-- What the program says about the arrays that the expression comes down to is how they are held, and no
array that is asked for its first element starts with a sign. -/
def Expr.decays : Expr → Bool
  | .dangling => false
  | .node ⟨shape, ty⟩ =>
    let held := (Expr.node ⟨shape, ty⟩).held?.map Held.accessor? == some ty.accessor?
    match ty.accessor? with
    | some _ => held && !(Expr.node ⟨shape, ty⟩).leads
    | none =>
      match shape with
      | .select _ positive negative => (positive ()).decays && (negative ()).decays
      | _ => held

section Deciding

variable {shape : Shape (Unit → Expr)} {ty : Ty}

theorem Expr.decays_asked {method : String} (asks : ty.accessor? = some method) :
    (Expr.node ⟨shape, ty⟩).decays = true ↔
      (Expr.node ⟨shape, ty⟩).held?.map Held.accessor? = some (some method) ∧
        (Expr.node ⟨shape, ty⟩).leads = false := by
  unfold decays
  simp only [asks, Bool.and_eq_true, beq_iff_eq, Bool.not_eq_true']

theorem Expr.decays_passed (passes : ty.accessor? = none)
    (noSelect : ∀ test positive negative, shape ≠ .select test positive negative) :
    (Expr.node ⟨shape, ty⟩).decays = true ↔
      (Expr.node ⟨shape, ty⟩).held?.map Held.accessor? = some none := by
  cases shape with
  | select test positive negative => exact absurd rfl (noSelect test positive negative)
  | _ => simp only [decays, passes, beq_iff_eq]

theorem Expr.decays_select {test positive negative : Unit → Expr} (passes : ty.accessor? = none) :
    (Expr.node ⟨.select test positive negative, ty⟩).decays =
      ((positive ()).decays && (negative ()).decays) := by
  rw [decays]
  simp only [passes]

end Deciding

end CppPrinter
