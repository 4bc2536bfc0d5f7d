import CppPrinter.Proofs.Expr.Coercion
import CppPrinter.Proofs.Expr.Rule
import CppPrinter.Proofs.Number.Kind

/-!
# Masks under a cast

A cast to a kind keeps the low bits of its operand alone, so a mask with all of these bits set changes
nothing under it, and any other mask does (`IntKind.convert_and_iff`). The printer drops the mask of a
cast operand exactly in the first case (`mask_dropped_iff`).
-/

namespace CppPrinter

/-! ### Bits -/

/-- A number has all the bits of `full`, the lowest `w`, set exactly when its own lowest bits are. -/
theorem and_eq_full_iff {w : Nat} (fits : w ≤ 64) (m : BitVec 64) :
    m &&& (BitVec.allOnes w).setWidth 64 = (BitVec.allOnes w).setWidth 64 ↔
      m.setWidth w = BitVec.allOnes w := by
  constructor
  · intro same
    have low := congrArg (BitVec.setWidth w) same
    rwa [BitVec.setWidth_and, BitVec.setWidth_setWidth_of_le _ fits, BitVec.setWidth_eq,
      BitVec.and_allOnes] at low
  · intro low
    ext i inside
    have bit := congrArg (BitVec.getLsbD · i) low
    simp only [BitVec.getLsbD_setWidth, BitVec.getLsbD_allOnes] at bit
    by_cases below : i < w <;> simp_all

namespace IntKind

/-- What a conversion keeps of a value of 64 bits. -/
theorem ofInt_toInt_eq_setWidth (k : IntKind) (x : Int64) :
    BitVec.ofInt k.bits x.toInt = x.toBitVec.setWidth k.bits :=
  BitVec.signExtend_eq_setWidth_of_le x.toBitVec k.bits_le

/-- A mask makes no difference under a conversion exactly when it has all low bits set. -/
theorem convert_and_iff (k : IntKind) (m : Int64) :
    (∀ x : Int64, k.convert (x &&& m).toInt = k.convert x.toInt) ↔
      m.toBitVec.setWidth k.bits = BitVec.allOnes k.bits := by
  have kept (x : Int64) : k.convert (x &&& m).toInt = k.convert x.toInt ↔
      x.toBitVec.setWidth k.bits &&& m.toBitVec.setWidth k.bits = x.toBitVec.setWidth k.bits := by
    rw [convert_eq_iff, ofInt_toInt_eq_setWidth, ofInt_toInt_eq_setWidth, Int64.toBitVec_and,
      BitVec.setWidth_and]
  constructor
  · intro same
    -- The value with all bits set shows every bit that the mask lacks.
    have all : (-1 : Int64).toBitVec.setWidth k.bits = BitVec.allOnes k.bits := by
      cases k <;> decide
    have shown := (kept (-1)).1 (same (-1))
    rwa [all, BitVec.allOnes_and] at shown
  · intro all x
    rw [kept, all, BitVec.and_allOnes]

/-- The kinds that are narrower than 64 bits have a mask of all their bits. -/
theorem fullMask?_eq {k : IntKind} (narrow : k ≠ .i64) :
    ∃ full, k.fullMask? = some full ∧ full.toBitVec = (BitVec.allOnes k.bits).setWidth 64 := by
  cases k with
  | i64 => exact absurd rfl narrow
  | _ => exact ⟨_, rfl, by decide⟩

end IntKind

/-! ### The operand of a cast -/

/-- The literal keeps every bit of a narrow kind if, under a conversion to the kind, it makes no
difference to any value. -/
theorem Literal.coversMask_iff {target : Ty} {k : IntKind}
    (isKind : target.intKind? false = .ok (some k)) (m : Int64) :
    coversMask target (.int m) = true ↔
      k ≠ .i64 ∧ ∀ x : Int64, k.convert (x &&& m).toInt = k.convert x.toInt := by
  by_cases narrow : k = .i64
  · subst narrow
    simp [coversMask, isKind, IntKind.fullMask?]
  · obtain ⟨full, isFull, bits⟩ := IntKind.fullMask?_eq narrow
    have covers : coversMask target (.int m) = (m &&& full == full) := by
      simp only [coversMask, isKind, isFull]
    rw [covers, beq_iff_eq, ← Int64.toBitVec_inj, Int64.toBitVec_and, bits,
      and_eq_full_iff k.bits_le, IntKind.convert_and_iff]
    exact (and_iff_right narrow).symm

/-- Only an integer covers a mask, and only that of a kind. -/
theorem Literal.of_coversMask {target : Ty} {value : Literal}
    (covers : value.coversMask target = true) :
    ∃ m k, value = .int m ∧ target.intKind? false = .ok (some k) := by
  unfold coversMask at covers
  split at covers
  · rename_i m
    split at covers
    · rename_i k isKind
      exact ⟨m, k, rfl, isKind⟩
    · cases covers
  · cases covers

namespace Node

variable {ρ : Type} {n : Node ρ} {target : Ty}

/-- A cast is written around another operand than the node exactly where the node masks it with a literal
that makes no difference under a conversion to the target. -/
theorem castOperand?_eq_some_iff {literal? : ρ → Rendered (Option Literal)} {x : ρ} :
    n.castOperand? literal? target = .ok (some x) ↔
      ∃ right m k, n.shape = .binary (.arith .bitAnd) x right ∧
        literal? right = .ok (some (.int m)) ∧ target.intKind? false = .ok (some k) ∧ k ≠ .i64 ∧
        ∀ v : Int64, k.convert (v &&& m).toInt = k.convert v.toInt := by
  rw [castOperand?_eq_some_iff_covers]
  constructor
  · rintro ⟨right, mask, shape, looked, covers⟩
    obtain ⟨m, k, rfl, isKind⟩ := Literal.of_coversMask covers
    exact ⟨right, m, k, shape, looked, isKind, (Literal.coversMask_iff isKind m).1 covers⟩
  · rintro ⟨right, m, k, shape, looked, isKind, kept⟩
    exact ⟨right, .int m, shape, looked, (Literal.coversMask_iff isKind m).2 kept⟩

/-- The mask of the node, if it has one, is not missing. -/
def MaskExists (n : Node (Unit → Expr)) : Prop :=
  ∀ left right, n.mask? = some (left, right) → right () ≠ .dangling

theorem maskExists_of_none {n : Node (Unit → Expr)} (noMask : n.mask? = none) : n.MaskExists := by
  intro left right isMask
  rw [noMask] at isMask
  cases isMask

/-- Where nothing is missing, the choice of the operand comes to an answer. -/
theorem MaskExists.exists_castOperand? {n : Node (Unit → Expr)} (whole : n.MaskExists) (target : Ty) :
    ∃ operand?, n.castOperand? (fun e => (e ()).literal?) target = .ok operand? := by
  unfold castOperand?
  split
  · exact ⟨none, rfl⟩
  · rename_i left right isMask
    cases looked : right () with
    | dangling => exact absurd looked (whole left right isMask)
    | node mask =>
      have found : (right ()).literal? = .ok mask.literal? := by
        rw [looked]
        rfl
      simp only [found, ok_bind]
      cases mask.literal? with
      | none => exact ⟨none, rfl⟩
      | some value => exact ⟨_, rfl⟩

end Node

/-- A written cast around an expression as it stands. -/
def Expr.castAround (scope : Scope) (target : Ty) (e : Expr) : Rendered String := do
  let ty ← target.spelling scope false
  let inner ← e.text scope .plain .argument
  return "static_cast<" ++ ty ++ ">(" ++ inner ++ ")"

/-- A cast is written around what is chosen for it: the operand of a mask, or the expression itself. -/
theorem Expr.text_cast_eq_bind (scope : Scope) (target : Ty) (n : Node (Unit → Expr)) (p : Precedence) :
    (Expr.node n).text scope (.cast target) p = (do
      let operand? ← n.castOperand? (fun e => (e ()).literal?) target
      (operand?.elim (.node n) (· ())).castAround scope target) := by
  have looked : (n.map (Expr.operand scope)).castOperand? Operand.literal? target =
      (n.castOperand? (fun e => (e ()).literal?) target).map (Option.map (Expr.operand scope)) :=
    Node.castOperand?_map (Expr.operand scope) n Operand.literal? target
  have whole : (n.map (Expr.operand scope)).plainText scope .argument =
      (Expr.node n).text scope .plain .argument := by
    rw [Expr.text_node]
    rfl
  rw [Expr.text_node]
  show (n.map (Expr.operand scope)).castText scope target = _
  rw [Node.castText_eq, looked]
  cases n.castOperand? (fun e => (e ()).literal?) target with
  | error e => rfl
  | ok operand? =>
    rw [ok_bind, castAround]
    cases operand? with
    | none =>
      rw [Option.elim_none, ← whole]
      rfl
    | some x => rfl

/-- Under a cast, an expression stands as it is, or its operand does that the cast is written around. -/
theorem Expr.text_cast_eq (scope : Scope) {target : Ty} {n : Node (Unit → Expr)}
    {operand? : Option (Unit → Expr)}
    (chosen : n.castOperand? (fun e => (e ()).literal?) target = .ok operand?) (p : Precedence) :
    (Expr.node n).text scope (.cast target) p =
      (operand?.elim (.node n) (· ())).castAround scope target := by
  rw [text_cast_eq_bind, chosen, ok_bind]

/-- A cast is written around the operand of a mask in place of the masked expression exactly where the
mask is an integer literal, the target an integer type of 8, 16 or 32 bits that can be spelled, and the
mask makes no difference to the converted value, whatever the operand comes to; everything else under a
cast stands as it is. -/
theorem mask_dropped_iff (scope : Scope) (target : Ty) {n : Node (Unit → Expr)} (whole : n.MaskExists) :
    ∃ operand? : Option (Unit → Expr),
      n.castOperand? (fun e => (e ()).literal?) target = .ok operand? ∧
      (∀ p, (Expr.node n).text scope (.cast target) p =
        (operand?.elim (.node n) (· ())).castAround scope target) ∧
      ∀ x, operand? = some x ↔ ∃ right m k, n.shape = .binary (.arith .bitAnd) x right ∧
        (right ()).literal? = .ok (some (.int m)) ∧ target.intKind? false = .ok (some k) ∧
        k ≠ .i64 ∧ ∀ v : Int64, k.convert (v &&& m).toInt = k.convert v.toInt := by
  obtain ⟨operand?, chosen⟩ := whole.exists_castOperand? target
  refine ⟨operand?, chosen, fun p => Expr.text_cast_eq scope chosen p, fun x => ?_⟩
  rw [← Node.castOperand?_eq_some_iff, chosen, Except.ok.injEq]

/-- A number held by a local variable. -/
def localNumber (name : String) (ty : Ty) : Expr := .node ⟨.symbol (.localName name), ty⟩

/-- A variable of 64 bits under a mask of nine bits. -/
def maskedTotal : Node (Unit → Expr) :=
  ⟨.binary (.arith .bitAnd) (fun _ => localNumber "total" (.integer .i64))
    (fun _ => .node ⟨.literal (.int 0x1FF), .integer .i64⟩), .integer .i64⟩

theorem maskExists_maskedTotal : maskedTotal.MaskExists := by
  intro left right isMask
  cases isMask
  exact Expr.noConfusion

theorem mask_dropped_iff_byte :
    maskedTotal.MaskExists ∧
    (∀ v : Int64, IntKind.u8.convert (v &&& 0x1FF).toInt = IntKind.u8.convert v.toInt) ∧
    (Expr.node maskedTotal).text ⟨#[], #[]⟩ (.cast (.integer ⟨.w8, false⟩)) .statement =
      .ok "static_cast<uint8_t>(total)" := by
  obtain ⟨operand?, chosen, text, iff⟩ :=
    mask_dropped_iff ⟨#[], #[]⟩ (.integer ⟨.w8, false⟩) maskExists_maskedTotal
  obtain rfl : some (fun _ => localNumber "total" (.integer .i64)) = operand? := Except.ok.inj chosen
  obtain ⟨right, m, k, shape, looked, isKind, -, kept⟩ := (iff _).1 rfl
  cases shape
  cases looked
  cases isKind
  exact ⟨maskExists_maskedTotal, kept, text .statement⟩

end CppPrinter
