import CppPrinter.Proofs.Result
import CppPrinter.Proofs.Expr.Tree

/-!
# The rules of printing as chains

Some rules of printing decide in their middle between two ways to go on. Here they stand as chains
of steps, with each decision made inside one step. What an assignment and a call take over from their
operands is a text of the operand in some form (`assignedText_gives`, `argumentTexts_forall₂`).
-/

namespace CppPrinter

/-- The operator that reaches a member: through the name of a class, or through an object. -/
def Operand.reach? (x : TreeOperand) (byName : Bool) : Rendered String :=
  if byName then .ok "::" else memberOperator <$> x.ty?

theorem memberText_eq {target : Symbol} (noLength : target ≠ .stringLength) (object : TreeOperand) :
    memberText object target = (do
      let name ← target.memberName
      let receiver ← object.plain .primary
      let op ← object.reach? target.isScoped
      return receiver ++ op ++ name) := by
  cases target <;> first | rfl | exact absurd rfl noLength

theorem methodCallText_eq (method : Signature) (object : TreeOperand) (args : List TreeOperand) :
    methodCallText method object args = (do
      let op ← object.reach? (method.dispatch = .static)
      let receiver ← object.plain .primary
      let arguments ← argumentsText (method.params.map Param.ty) args
      return receiver ++ op ++ camelCase method.name ++ "(" ++ arguments ++ ")") := by
  unfold methodCallText Operand.reach?
  by_cases isStatic : method.dispatch = .static <;> simp [isStatic]

/-- Where a character is compared, the right side is a literal. -/
theorem literal?_of_comparedChar? {left right : TreeOperand} {c : Char}
    (found : comparedChar? left right = .ok (some c)) : ∃ value, right.literal? = .ok (some value) := by
  simp only [comparedChar?, bind_eq_ok_iff] at found
  obtain ⟨n, -, found⟩ := found
  split at found
  · simp only [bind_eq_ok_iff] at found
    obtain ⟨ty, -, found⟩ := found
    split at found
    · obtain ⟨m, looked, found⟩ := bind_eq_ok_iff.1 found
      rw [pure_eq_ok, Except.ok.injEq, Node.plainChar?, Option.bind_eq_some_iff] at found
      obtain ⟨value, isLiteral, -⟩ := found
      exact ⟨value, by simp [Operand.literal?, looked, isLiteral]⟩
    · simp at found
  · simp at found

/-- The texts of arguments are those of the operands, as they stand or converted to the types of the
parameters. -/
theorem argumentTexts_forall₂ {good : String → TreeOperand → Prop} {args : List TreeOperand}
    (params : List Ty) (plain : ∀ x ∈ args, Gives (good · x) (x.plain .argument))
    (coerced : ∀ x ∈ args, ∀ ty, Gives (good · x) (x.coerced ty .argument)) :
    Gives (List.Forall₂ good · args) (argumentTexts params args) := by
  induction args generalizing params with
  | nil => cases params <;> exact .ok .nil
  | cons arg args ih =>
    obtain ⟨plainHere, plainLater⟩ := List.forall_mem_cons.1 plain
    obtain ⟨coercedHere, coercedLater⟩ := List.forall_mem_cons.1 coerced
    cases params with
    | nil =>
      exact plainHere.bind fun _ first => (ih [] plainLater coercedLater).bind fun _ others =>
        .ok (.cons first others)
    | cons ty params =>
      exact (coercedHere ty).bind fun _ first => (ih params plainLater coercedLater).bind
        fun _ others => .ok (.cons first others)

/-- Only stores into elements that are integers are cast. -/
theorem Node.integer_of_indexedStore {ρ : Type} {n : Node ρ} {element : Ty}
    (store : n.indexedStore element = .ok .cast) : ∃ int, element = .integer int := by
  cases element with
  | integer int => exact ⟨int, rfl⟩
  | _ =>
    simp only [Node.indexedStore, bind_eq_ok_iff] at store
    obtain ⟨left?, left, right?, -, store⟩ := store
    cases left
    cases store

/-- The right side of an assignment is a text of the right operand: as it stands, converted, or under a
cast to an integer. -/
theorem assignedText_gives {good : String → Prop} {left right : TreeOperand}
    (plain : Gives good (right.plain .assign))
    (cast : ∀ int, Gives good (right.text (.cast (.integer int)) .argument))
    (coerced : ∀ ty, Gives good (right.coerced ty .argument)) :
    Gives good (assignedText left right) := by
  refine .after fun target => ?_
  split
  · intro text printed
    obtain ⟨value, -, printed⟩ := bind_eq_ok_iff.1 printed
    obtain ⟨store, decided, printed⟩ := bind_eq_ok_iff.1 printed
    cases store with
    | plain => exact plain text printed
    | cast =>
      obtain ⟨int, isInteger⟩ := Node.integer_of_indexedStore decided
      rw [isInteger] at printed
      exact cast int text printed
    | coerce => exact coerced target.ty text printed
  · exact coerced target.ty

/-- The text that a cast is written around. -/
def Node.castInner (scope : Scope) (n : Node TreeOperand) : Option TreeOperand → Rendered String
  | some operand => operand.plain .argument
  | none => n.plainText scope .argument

theorem Node.castText_eq (scope : Scope) (target : Ty) (n : Node TreeOperand) :
    n.castText scope target = (do
      let operand? ← n.castOperand? Operand.literal? target
      let ty ← target.spelling scope false
      let text ← n.castInner scope operand?
      return "static_cast<" ++ ty ++ ">(" ++ text ++ ")") := by
  unfold Node.castText
  congr 1
  funext operand?
  cases operand? <;> rfl

end CppPrinter
