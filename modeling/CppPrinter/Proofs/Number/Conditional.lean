import CppPrinter.Proofs.Number.Store

/-!
# Conditionals under a conversion

A conditional of an integer type is printed with its branches converted to that type. Under a conversion to
another type they are converted straight to the other one, and the conditional's own type is left out. What
the two ways come to can be told from the leaves: a leaf is cast where it is a signed integer of 64 bits and
the type is another one (`IntKind.cast?`), and stands as it is otherwise; where the branches meet, C++ widens
them and changes no value.

A conversion does not notice an earlier one to as many bits or more (`IntKind.convert_convert`), so the two
ways give one value, unless a leaf of 64 bits goes to a target that is wider than the conditional
(`conditional_keeps_value_iff`): its own type drops bits that the target keeps.
-/

namespace CppPrinter

namespace IntKind

/-! ### Two conversions in a row -/

/-- The lowest bits of an integer are among its low ones. -/
theorem setWidth_ofInt_of_le {w w' : Nat} (fewer : w ≤ w') (v : Int) :
    (BitVec.ofInt w' v).setWidth w = BitVec.ofInt w v := by
  have divides := Int.natCast_dvd_natCast.2 (Nat.pow_dvd_pow 2 fewer)
  have nonneg {d : Nat} (positive : 0 < d) : 0 ≤ v % (d : Int) :=
    Int.emod_nonneg _ (Int.natCast_ne_zero.2 (Nat.ne_of_gt positive))
  apply BitVec.eq_of_toNat_eq
  rw [BitVec.toNat_setWidth, BitVec.toNat_ofInt, BitVec.toNat_ofInt, ← Int.natCast_inj, Int.natCast_emod,
    Int.toNat_of_nonneg (nonneg (Nat.two_pow_pos w')), Int.toNat_of_nonneg (nonneg (Nat.two_pow_pos w)),
    Int.emod_emod_of_dvd _ divides]

/-- A conversion keeps the low bits. -/
theorem ofInt_convert (k : IntKind) (v : Int) :
    BitVec.ofInt k.bits (k.convert v) = BitVec.ofInt k.bits v := by
  unfold convert
  split
  · exact BitVec.ofInt_toInt
  · rw [BitVec.ofInt_natCast, BitVec.ofNat_toNat, BitVec.setWidth_eq]

/-- A conversion does not notice one to as many bits or more before it. -/
theorem convert_convert {slot own : IntKind} (fewer : slot.bits ≤ own.bits) (v : Int) :
    slot.convert (own.convert v) = slot.convert v := by
  rw [convert_eq_iff, ← setWidth_ofInt_of_le fewer, ofInt_convert, setWidth_ofInt_of_le fewer]

/-- A value of the kind stays what it is. -/
theorem convert_of_holds {k : IntKind} {v : Int} (holds : k.Holds v) : k.convert v = v := by
  obtain ⟨above, below⟩ := holds
  cases k <;> simp only [convert, isSigned, bits, least, greatest] at *
  all_goals simp only [if_true, if_false, Bool.false_eq_true, BitVec.toInt_ofInt, BitVec.toNat_ofInt]
  all_goals first | exact Int.bmod_eq_of_le (by omega) (by omega) | omega

/-! ### What is written for a leaf -/

/-- The kind that a value of the kind `source` is cast to under a conversion, if it is cast at all. -/
def cast? (target source : IntKind) : Option IntKind :=
  if source = .i64 ∧ target ≠ .i64 then some target else none

/-- A value of the kind `source` as it is written under a conversion. -/
def written (target source : IntKind) (v : Int) : Int := (target.cast? source).elim v (·.convert v)

theorem written_of_holds {own source : IntKind} {v : Int} (holds : own.Holds v) :
    own.written source v = v := by
  unfold written cast?
  split
  · exact convert_of_holds holds
  · rfl

/-- What is written is what the conversion comes to anyway. -/
theorem convert_written (slot source : IntKind) (v : Int) :
    slot.convert (slot.written source v) = slot.convert v := by
  unfold written cast?
  split
  · exact convert_convert (Nat.le_refl _) v
  · rfl

/-- A value that is written for one kind comes to the same in another, unless it has 64 bits and the first
kind drops bits that the other keeps. -/
theorem convert_written_iff (slot own source : IntKind) :
    (∀ v, source.Holds v → slot.convert (own.written source v) = slot.convert v) ↔
      ¬ (source = .i64 ∧ own.bits < slot.bits) := by
  constructor
  · rintro same ⟨rfl, fewer⟩
    have first := same (own.greatest + 1)
    revert first fewer
    cases own <;> cases slot <;> decide
  · intro kept v holds
    unfold written cast?
    split
    · rename_i both
      exact convert_convert (Nat.le_of_not_lt fun fewer => kept ⟨both.1, fewer⟩) v
    · rfl

/-- A value that is converted to one kind comes to the same in another, if the other has no more bits or the
first holds all values. -/
theorem convert_convert_iff (slot own source : IntKind) :
    (∀ v, source.Holds v → slot.convert (own.convert v) = slot.convert v) ↔
      slot.bits ≤ own.bits ∨ ∀ v, source.Holds v → own.Holds v := by
  constructor
  · intro same
    by_contra other
    obtain ⟨more, lost⟩ := not_or.1 other
    rw [Nat.not_le] at more
    simp only [not_forall] at lost
    obtain ⟨v, holds, lost⟩ := lost
    have ends := (exists_lost_iff own source).1 ⟨v, holds, lost⟩
    have above := same (own.greatest + 1)
    have below := same (own.least - 1)
    revert above below ends more
    cases own <;> cases slot <;> cases source <;> decide
  · rintro (fewer | holds) v isValue
    · exact convert_convert fewer v
    · rw [convert_of_holds (holds v isValue)]

end IntKind

section Conditional

variable {scope : Scope} {target : Ty} {slot own source : IntKind} {n leaf : Node (Unit → Expr)}

/-- The form in which a value of the kind `source` is printed under a conversion. -/
def IntKind.leafForm (slot source : IntKind) (target : Ty) : Form :=
  if (slot.cast? source).isSome then .cast target else .plain

theorem Expr.text_coerced_of_kinds (isLeaf : n.IsLeaf) (sourceKind : n.ty.intKind? false = .ok (some source))
    (slotKind : target.intKind? false = .ok (some slot)) (p : Precedence) :
    (Expr.node n).text scope (.coerced target) p =
      (Expr.node n).text scope (slot.leafForm source target) p := by
  obtain ⟨given, isGiven, givenKind⟩ := Ty.exists_integer_of_intKind? sourceKind
  obtain ⟨int, rfl, intKind⟩ := Ty.exists_integer_of_intKind? slotKind
  have sameCast : (source = .i64 ∧ slot ≠ .i64) ↔ (given = .i64 ∧ int ≠ .i64) :=
    and_congr (IntKind.of_eq_i64_iff givenKind) (not_congr (IntKind.of_eq_i64_iff intKind))
  have decided : n.numericCoercion (.integer int) =
      if source = .i64 ∧ slot ≠ .i64 then .castSelf else .none := by
    unfold Node.numericCoercion
    rw [isGiven]
    simp only [sameCast]
  rw [text_coerced_leaf rfl isLeaf, Node.convertedText, decided, IntKind.leafForm, IntKind.cast?]
  by_cases isCast : source = .i64 ∧ slot ≠ .i64
  · simp only [if_pos isCast, Option.isSome_some, if_true]
  · simp only [if_neg isCast, Option.isSome_none, Bool.false_eq_true, if_false]

/-- A conditional as it stands is one that is converted to its own type. -/
theorem Expr.text_select_plain {test positive negative : Unit → Expr}
    (isSelect : n.shape = .select test positive negative) (numeric : n.ty.isNumeric = true)
    (p : Precedence) :
    (Expr.node n).text scope .plain p = (Expr.node n).text scope (.coerced n.ty) p := by
  obtain ⟨shape, ty⟩ := n
  obtain rfl : shape = _ := isSelect
  rw [text_coerced_number numeric, Expr.text_node]
  rfl

/-- A conditional under a cast is the conditional as it stands. -/
theorem Expr.text_select_cast {test positive negative : Unit → Expr}
    (isSelect : n.shape = .select test positive negative) (p : Precedence) :
    (Expr.node n).text scope (.cast target) p = (Expr.node n).castAround scope target := by
  obtain ⟨shape, ty⟩ := n
  obtain rfl : shape = _ := isSelect
  exact text_cast_eq_bind scope target _ p

/-- The leaves of a nested conditional are converted to its own type where it stands by itself or under a
cast, and to the target where it is converted. For a leaf of an integer kind, the conversions to the target
and those by way of the conditional's own type give one value for every value of the leaf exactly when the
leaf has not 64 bits or the target has no more bits than the conditional. Should the value be one of the
conditional's type on the way, they do so exactly when the target has no more bits than the conditional, or
its type holds all values of the leaf. Values that the conditional's type holds always come to the same. -/
theorem conditional_keeps_value_iff {test positive negative : Unit → Expr}
    (isSelect : n.shape = .select test positive negative) (ownKind : n.ty.intKind? false = .ok (some own))
    (slotKind : target.intKind? false = .ok (some slot)) (p : Precedence) :
    ((Expr.node n).text scope .plain p =
        (Expr.node n).branchwise scope (fun leaf q => leaf.text scope (.coerced n.ty) q) p ∧
      (Expr.node n).text scope (.cast target) p = (Expr.node n).castAround scope target ∧
      (Expr.node n).text scope (.coerced target) p =
        (Expr.node n).branchwise scope (fun leaf q => leaf.text scope (.coerced target) q) p) ∧
    ∀ leaf source, .node leaf ∈ (Expr.node n).leaves → leaf.ty.intKind? false = .ok (some source) →
      (∀ q, (Expr.node leaf).text scope (.coerced n.ty) q =
          (Expr.node leaf).text scope (own.leafForm source n.ty) q ∧
        (Expr.node leaf).text scope (.coerced target) q =
          (Expr.node leaf).text scope (slot.leafForm source target) q) ∧
      ((∀ v, source.Holds v →
          slot.convert (slot.written source v) = slot.convert (own.written source v)) ↔
        ¬ (source = .i64 ∧ own.bits < slot.bits)) ∧
      ((∀ v, source.Holds v →
          slot.convert (slot.written source v) = slot.convert (own.convert (own.written source v))) ↔
        slot.bits ≤ own.bits ∨ ∀ v, source.Holds v → own.Holds v) ∧
      ∀ v, own.Holds v →
        slot.convert (slot.written source v) = slot.convert (own.written source v) := by
  have ownNumeric : n.ty.isNumeric = true := by
    obtain ⟨int, isInteger, -⟩ := Ty.exists_integer_of_intKind? ownKind
    rw [isInteger]
    rfl
  have slotNumeric : target.isNumeric = true := by
    obtain ⟨int, rfl, -⟩ := Ty.exists_integer_of_intKind? slotKind
    rfl
  refine ⟨⟨?_, Expr.text_select_cast isSelect p, Expr.text_coerced_eq_branchwise slotNumeric _ p⟩, ?_⟩
  · rw [Expr.text_select_plain isSelect ownNumeric, Expr.text_coerced_eq_branchwise ownNumeric]
  intro leaf source member sourceKind
  have isLeaf := Expr.isLeaf_of_mem_leaves member
  refine ⟨fun q => ⟨Expr.text_coerced_of_kinds isLeaf sourceKind ownKind q,
    Expr.text_coerced_of_kinds isLeaf sourceKind slotKind q⟩, ?_, ?_, fun v holds => ?_⟩
  · rw [← IntKind.convert_written_iff]
    simp only [IntKind.convert_written, eq_comm]
  · rw [← IntKind.convert_convert_iff]
    simp only [IntKind.convert_written, eq_comm]
  · rw [IntKind.convert_written, IntKind.written_of_holds holds]

end Conditional

/-- A wide number or a small one, chosen by a flag. -/
def wideOrSmall : Node (Unit → Expr) :=
  ⟨.select (fun _ => localNumber "flag" .bool) (fun _ => localNumber "big" (.integer .i64))
    (fun _ => localNumber "small" .i32), .i32⟩

theorem conditional_keeps_value_iff_byte :
    wideOrSmall.ty.intKind? false = .ok (some .i32) ∧
    (Ty.integer ⟨.w8, false⟩).intKind? false = .ok (some .u8) ∧
    .node ⟨.symbol (.localName "big"), .integer .i64⟩ ∈ (Expr.node wideOrSmall).leaves ∧
    (Expr.node wideOrSmall).text ⟨#[], #[]⟩ (.coerced (.integer ⟨.w8, false⟩)) .statement =
      .ok "flag ? static_cast<uint8_t>(big) : small" ∧
    ∀ v, IntKind.i64.Holds v →
      IntKind.u8.convert (IntKind.u8.written .i64 v) = IntKind.u8.convert (IntKind.i32.written .i64 v) := by
  have ownKind : wideOrSmall.ty.intKind? false = .ok (some .i32) := rfl
  have slotKind : (Ty.integer ⟨.w8, false⟩).intKind? false = .ok (some .u8) := rfl
  have member : .node ⟨.symbol (.localName "big"), .integer .i64⟩ ∈ (Expr.node wideOrSmall).leaves :=
    List.mem_cons_self
  obtain ⟨-, leaf⟩ := @conditional_keeps_value_iff ⟨#[], #[]⟩ _ _ _ _ _ _ _ rfl ownKind slotKind .statement
  obtain ⟨-, keeps, -⟩ := leaf _ .i64 member rfl
  exact ⟨ownKind, slotKind, member, rfl, keeps.2 (by decide)⟩

/-- By itself the conditional drops the high bits of the wide number, and converted to 64 bits it does
not. -/
theorem wide_number_kept_by_conversion :
    (Expr.node wideOrSmall).text ⟨#[], #[]⟩ .plain .argument =
      .ok "flag ? static_cast<int32_t>(big) : small" ∧
    (Expr.node wideOrSmall).text ⟨#[], #[]⟩ (.coerced (.integer .i64)) .argument =
      .ok "flag ? big : small" ∧
    IntKind.i64.Holds 0x100000000 ∧
    IntKind.i64.convert (IntKind.i64.written .i64 0x100000000) = 0x100000000 ∧
    IntKind.i64.convert (IntKind.i32.written .i64 0x100000000) = 0 := by
  exact ⟨rfl, rfl, by decide, by decide, by decide⟩

end CppPrinter
