import CppPrinter.Proofs.Number.Conversion

/-!
# Stores into elements

The relation by which a store into an element is cast compares kinds by their width and sign. It says that
the element cannot hold every value of the other kind, but for one pair that it leaves out
(`IntKind.isNarrower_iff`): an unsigned element of 16 bits holds no negative value of a signed byte. So,
but for that pair, a store is cast exactly when range can be lost (`indexed_store_cast_iff`).
-/

namespace CppPrinter

/-- The relation is that of values that can be lost, but for signed bytes in unsigned slots of 16 bits. -/
theorem IntKind.isNarrower_iff (slot source : IntKind) :
    slot.isNarrower source = true ↔
      (∃ v, source.Holds v ∧ ¬ slot.Holds v) ∧ ¬ (slot = .u16 ∧ source = .i8) := by
  rw [exists_lost_iff]
  cases slot <;> cases source <;> decide

/-- The value has its declared width: a literal, an element, or what has been assigned. -/
def Node.HasOwnWidth {ρ : Type} (n : Node ρ) : Prop :=
  (∃ value, n.shape = .literal value) ∨ (∃ array position, n.shape = .binary .index array position) ∨
    ∃ op left right, op.isAssign = true ∧ n.shape = .binary op left right

theorem Node.isPromoted_iff {ρ : Type} (n : Node ρ) : n.isPromoted = true ↔ ¬ n.HasOwnWidth := by
  obtain ⟨shape, ty⟩ := n
  cases shape with
  | binary op left right => cases op <;> simp [isPromoted, HasOwnWidth, BinaryOp.isAssign]
  | _ => simp [isPromoted, HasOwnWidth]

/-- The kind of a value, promoted unless the value has its declared width. -/
def Node.HasKind {ρ : Type} (n : Node ρ) (kind : IntKind) : Prop :=
  ∃ own, n.ty.intKind? false = .ok (some own) ∧ (n.HasOwnWidth → kind = own) ∧
    (¬ n.HasOwnWidth → kind = own.promoted)

/-- The text with no cast around the whole: a conditional converts its branches, and anything else stands
as it is. -/
def Expr.uncastText (scope : Scope) (target : Ty) : Expr → Precedence → Rendered String
  | .node ⟨.select test positive negative, _⟩, position => do
    let c ← (test ()).text scope .plain .condOr
    let t ← (positive ()).text scope (.coerced target) .select
    let e ← (negative ()).text scope (.coerced target) .select
    return Precedence.select.parenthesize position (c ++ " ? " ++ t ++ " : " ++ e)
  | e, position => e.text scope .plain position

theorem Expr.uncastText_leaf {scope : Scope} {target : Ty} {n : Node (Unit → Expr)} (isLeaf : n.IsLeaf)
    (p : Precedence) : (Expr.node n).uncastText scope target p = (Expr.node n).text scope .plain p := by
  obtain ⟨shape, ty⟩ := n
  cases shape with
  | select test positive negative => exact absurd rfl (isLeaf test positive negative)
  | _ => rfl

/-! ### Kinds of types -/

namespace Ty

/-- Only an integer type has a kind. -/
theorem exists_integer_of_intKind? {ty : Ty} {kind : IntKind}
    (isKind : ty.intKind? false = .ok (some kind)) :
    ∃ int, ty = .integer int ∧ IntKind.of int = .ok kind := by
  cases ty with
  | integer int =>
    refine ⟨int, rfl, ?_⟩
    cases isOf : IntKind.of int with
    | ok own => simpa [intKind?, integer?, isOf, IntKind.promotedIf] using isKind
    | error e => simp [intKind?, integer?, isOf] at isKind
  | _ => cases isKind

theorem intKind?_integer {int : IntegerType} {own : IntKind} (isOf : IntKind.of int = .ok own)
    (promote : Bool) : (Ty.integer int).intKind? promote = .ok (some (own.promotedIf promote)) := by
  simp [intKind?, integer?, isOf]

end Ty

/-- A type is the signed one of 64 bits if its kind is. -/
theorem IntKind.of_eq_i64_iff {int : IntegerType} {own : IntKind} (isOf : IntKind.of int = .ok own) :
    own = .i64 ↔ int = .i64 := by
  obtain ⟨width, signed⟩ := int
  cases width <;> cases signed <;> cases isOf <;> decide

namespace Node

variable {ρ : Type} {n : Node ρ} {kind : IntKind}

/-- The printer takes the kind of a value to be the same. -/
theorem HasKind.intKind?_eq (h : n.HasKind kind) :
    n.ty.intKind? n.isPromoted = .ok (some kind) := by
  obtain ⟨own, isOwn, declared, promoted⟩ := h
  obtain ⟨int, isInteger, isOf⟩ := Ty.exists_integer_of_intKind? isOwn
  rw [isInteger, Ty.intKind?_integer isOf]
  cases isPromoted : n.isPromoted with
  | true =>
    rw [promoted (n.isPromoted_iff.1 isPromoted)]
    rfl
  | false =>
    have width : n.HasOwnWidth := by
      by_contra noWidth
      rw [n.isPromoted_iff.2 noWidth] at isPromoted
      cases isPromoted
    rw [declared width]
    rfl

/-- Only a conditional of promoted kind is stored, so a byte is none. -/
theorem HasKind.isLeaf_of_i8 (h : n.HasKind .i8) : n.IsLeaf := by
  intro test positive negative isSelect
  obtain ⟨own, -, -, promoted⟩ := h
  have noWidth : ¬ n.HasOwnWidth := by simp [HasOwnWidth, isSelect]
  cases own <;> cases promoted noWidth

/-- Where the kind of the value is narrower than 64 bits or the slot is as wide, no conversion between
integers is written. -/
theorem HasKind.numericCoercion_eq {target : Ty} {slot : IntKind} (h : n.HasKind kind)
    (slotKind : target.intKind? false = .ok (some slot)) (fits : kind = .i64 → slot = .i64) :
    n.numericCoercion target = .none := by
  obtain ⟨own, isOwn, declared, promoted⟩ := h
  obtain ⟨source, isSource, isOf⟩ := Ty.exists_integer_of_intKind? isOwn
  obtain ⟨int, rfl, isOf'⟩ := Ty.exists_integer_of_intKind? slotKind
  have noCast : ¬ (source = .i64 ∧ int ≠ .i64) := by
    rintro ⟨isWide, isNarrow⟩
    obtain rfl : own = .i64 := (IntKind.of_eq_i64_iff isOf).2 isWide
    have kindWide : kind = .i64 := by
      by_cases width : n.HasOwnWidth
      · exact declared width
      · exact promoted width
    exact isNarrow ((IntKind.of_eq_i64_iff isOf').1 (fits kindWide))
  obtain ⟨shape, ty⟩ := n
  obtain rfl : ty = _ := isSource
  exact if_neg noCast

/-- How a value is stored depends on its kind and that of the elements. -/
theorem HasKind.indexedStore_eq {element : Ty} {slot : IntKind} (h : n.HasKind kind)
    (slotKind : element.intKind? false = .ok (some slot)) :
    n.indexedStore element = .ok (if slot = .i8 ∧ kind = .i8 then .plain
      else if slot.isNarrower kind then .cast else .coerce) := by
  rw [indexedStore, slotKind, ok_bind, h.intKind?_eq, ok_bind]
  dsimp only
  split
  · rfl
  · split <;> rfl

end Node

/-! ### Assignments -/

section Assignment

variable {scope : Scope} {left right : Unit → Expr} {l r : Node (Unit → Expr)} {slot kind : IntKind}

/-- What is stored without a cast around the whole stands as it is, but for the branches of a
conditional. -/
theorem Expr.text_coerced_eq_uncast {target : Ty} (valueKind : r.HasKind kind)
    (slotKind : target.intKind? false = .ok (some slot)) (fits : kind = .i64 → slot = .i64)
    (p : Precedence) :
    (Expr.node r).text scope (.coerced target) p = (Expr.node r).uncastText scope target p := by
  have numeric : target.isNumeric = true := by
    obtain ⟨int, rfl, -⟩ := Ty.exists_integer_of_intKind? slotKind
    rfl
  by_cases isLeaf : r.IsLeaf
  · rw [text_coerced_leaf numeric isLeaf, Node.convertedText, valueKind.numericCoercion_eq slotKind fits,
      uncastText_leaf isLeaf]
  · obtain ⟨shape, ty⟩ := r
    simp only [Node.IsLeaf, not_forall, ne_eq, not_not] at isLeaf
    obtain ⟨test, positive, negative, rfl⟩ := isLeaf
    rw [text_coerced_number numeric]
    rfl

/-- The right side of a store, by the kinds of the element and the value. -/
theorem assignedText_eq_of_kinds (isLeft : left () = .node l) (isRight : right () = .node r)
    (indexes : l.isIndexing = true) (slotKind : l.ty.intKind? false = .ok (some slot))
    (valueKind : r.HasKind kind) :
    assignedText (Expr.operand scope left) (Expr.operand scope right) =
      if slot = .i8 ∧ kind = .i8 then (Expr.node r).text scope .plain .assign
      else if slot.isNarrower kind then (Expr.node r).text scope (.cast l.ty) .argument
      else (Expr.node r).text scope (.coerced l.ty) .argument := by
  have looked : (Expr.operand scope left).node? = .ok l := by
    show (left ()).node? = .ok l
    rw [isLeft]
    rfl
  have looked' : (Expr.operand scope right).node? = .ok r := by
    show (right ()).node? = .ok r
    rw [isRight]
    rfl
  have text (form : Form) (q : Precedence) :
      (Expr.operand scope right).text form q = (Expr.node r).text scope form q := by
    show (right ()).text scope form q = _
    rw [isRight]
  rw [assignedText, looked, ok_bind, if_pos indexes, looked', ok_bind,
    valueKind.indexedStore_eq slotKind, ok_bind]
  split_ifs
  · exact text .plain .assign
  · exact text (.cast l.ty) .argument
  · exact text (.coerced l.ty) .argument

/-- A store into an element of an integer type is written as a cast of the value as a whole, to the type of
the elements and past a mask that makes no difference, exactly where the element cannot hold every value
of the stored kind, unless the elements are unsigned ones of 16 bits and the kind is that of signed bytes.
Otherwise no cast is added around the value as a whole. -/
theorem indexed_store_cast_iff (isLeft : left () = .node l) (isRight : right () = .node r)
    (indexes : l.isIndexing = true) (slotKind : l.ty.intKind? false = .ok (some slot))
    (valueKind : r.HasKind kind) (ty : Ty) (p : Precedence) :
    ∃ stored : Rendered String,
      (Expr.node ⟨.binary .assign left right, ty⟩).text scope .plain p = (do
        let target ← (left ()).text scope .plain .assign
        let value ← stored
        return Precedence.assign.parenthesize p (between target "=" value)) ∧
      ((∃ v, kind.Holds v ∧ ¬ slot.Holds v) ∧ ¬ (slot = .u16 ∧ kind = .i8) →
        stored = (do
          let operand? ← r.castOperand? (fun e => (e ()).literal?) l.ty
          (operand?.elim (.node r) (· ())).castAround scope l.ty)) ∧
      (¬ ((∃ v, kind.Holds v ∧ ¬ slot.Holds v) ∧ ¬ (slot = .u16 ∧ kind = .i8)) →
        ∃ q ∈ [Precedence.argument, .assign], stored = (Expr.node r).uncastText scope l.ty q) := by
  have stored : assignedText (Expr.operand scope left) (Expr.operand scope right) = _ :=
    assignedText_eq_of_kinds isLeft isRight indexes slotKind valueKind
  refine ⟨assignedText (Expr.operand scope left) (Expr.operand scope right), ?_, ?_, ?_⟩
  · rw [Expr.text_node]
    rfl
  · rw [← IntKind.isNarrower_iff]
    intro narrower
    have noByte : ¬ (slot = .i8 ∧ kind = .i8) := by
      rintro ⟨rfl, rfl⟩
      cases narrower
    rw [stored, if_neg noByte, if_pos narrower]
    exact Expr.text_cast_eq_bind scope l.ty r .argument
  · rw [← IntKind.isNarrower_iff]
    intro holds
    rw [stored, if_neg holds]
    split_ifs with bytes
    · obtain ⟨rfl, rfl⟩ := bytes
      exact ⟨.assign, by simp, (Expr.uncastText_leaf valueKind.isLeaf_of_i8 .assign).symm⟩
    · have fits : kind = .i64 → slot = .i64 := by
        rintro rfl
        cases slot <;> first | rfl | exact absurd rfl holds
      exact ⟨.argument, by simp, Expr.text_coerced_eq_uncast valueKind slotKind fits .argument⟩

end Assignment

/-- An element of an array at a position. -/
def elementAt (array : String) (int : IntegerType) (position : String) : Node (Unit → Expr) :=
  ⟨.binary .index (fun _ => localNumber array (.arrayPtr .writable (.integer int)))
    (fun _ => localNumber position .i32), .integer int⟩

/-- An element of an array of bytes. -/
def byteSlot (_ : Unit) : Expr := .node (elementAt "bytes" ⟨.w8, false⟩ "i")

/-- A number wider than a byte. -/
def wideValue (_ : Unit) : Expr := localNumber "value" .i32

theorem indexed_store_cast_iff_byte :
    (Node.mk (.symbol (.localName "value")) Ty.i32 : Node (Unit → Expr)).HasKind .i32 ∧
    (∃ v, IntKind.i32.Holds v ∧ ¬ IntKind.u8.Holds v) ∧
    (Expr.node ⟨.binary .assign byteSlot wideValue, .integer ⟨.w8, false⟩⟩).text ⟨#[], #[]⟩ .plain
      .statement = .ok "bytes[i] = static_cast<uint8_t>(value)" := by
  have isLeft : byteSlot () = .node (elementAt "bytes" ⟨.w8, false⟩ "i") := rfl
  have isRight : wideValue () = .node ⟨.symbol (.localName "value"), .i32⟩ := rfl
  have valueKind : (Node.mk (.symbol (.localName "value")) Ty.i32 : Node (Unit → Expr)).HasKind .i32 :=
    ⟨.i32, rfl, fun _ => rfl, fun _ => rfl⟩
  have lost : ∃ v, IntKind.i32.Holds v ∧ ¬ IntKind.u8.Holds v := ⟨-1, by decide, by decide⟩
  have others : ¬ (IntKind.u8 = .u16 ∧ IntKind.i32 = .i8) := by decide
  obtain ⟨stored, text, cast, -⟩ := @indexed_store_cast_iff ⟨#[], #[]⟩ _ _ _ _ _ _
    isLeft isRight rfl rfl valueKind (.integer ⟨.w8, false⟩) .statement
  refine ⟨valueKind, lost, text.trans ?_⟩
  rw [cast ⟨lost, others⟩]
  rfl

/-- A signed byte is stored into a wider unsigned element as it stands, though the element holds no
negative value. -/
theorem signed_byte_stored_as_it_stands :
    (elementAt "wide" ⟨.w16, false⟩ "i").isIndexing = true ∧
    (elementAt "wide" ⟨.w16, false⟩ "i").ty.intKind? false = .ok (some .u16) ∧
    (elementAt "small" ⟨.w8, true⟩ "j").HasOwnWidth ∧
    (elementAt "small" ⟨.w8, true⟩ "j").HasKind .i8 ∧
    IntKind.i8.Holds (-1) ∧ ¬ IntKind.u16.Holds (-1) ∧
    (Expr.node ⟨.binary .assign (fun _ => .node (elementAt "wide" ⟨.w16, false⟩ "i"))
      (fun _ => .node (elementAt "small" ⟨.w8, true⟩ "j")), .integer ⟨.w16, false⟩⟩).text
        ⟨#[], #[]⟩ .plain .statement = .ok "wide[i] = small[j]" := by
  have own : (elementAt "small" ⟨.w8, true⟩ "j").HasOwnWidth := .inr (.inl ⟨_, _, rfl⟩)
  have kind : (elementAt "small" ⟨.w8, true⟩ "j").HasKind .i8 :=
    ⟨.i8, rfl, fun _ => rfl, fun promoted => absurd own promoted⟩
  exact ⟨rfl, rfl, own, kind, by decide, by decide, rfl⟩

end CppPrinter
