import CppPrinter.Proofs.Expr.Mentioned
import CppPrinter.Proofs.Reading.Printed
import CppPrinter.Proofs.Receiver.Piece

/-!
# Bare receivers, rule by rule

A string literal without a suffix has no members. A query of a string gives its literal the suffix of a
view, but the length of a string and the members of an object are taken out of whatever stands there, and so
is a query of a literal behind a sign. An expression has a bare receiver if one of its nodes takes something
out of such an object by a dot (`Node.TakesBare`).

There is one law here for each rule of printing. What a text ends in matters for receivers alone, and is said
by `Expr.bareText?`: only a literal and signs in front of it are printed without anything behind them.
-/

namespace CppPrinter

/-- The text of a string literal and of the signs in front of it, if no sign keeps off what follows it by
parentheses. -/
def Expr.bareText? : Expr → Option String
  | .dangling => none
  | .node ⟨shape, _⟩ =>
    match shape with
    | .literal (.string value) => some (stringLiteral value)
    | .unary op operand =>
      (operand ()).bareText?.bind fun text =>
        if signsMerge op.symbol text then none else some (op.symbol ++ text)
    | _ => none

section Bare

variable {scope : Scope} {e : Expr} {text : String}

theorem UnaryOp.quiet_symbol (op : UnaryOp) : IsQuiet op.symbol := by cases op <;> decide

/-- Such a text is that of the expression, in every position, and ends in its literal. -/
theorem Expr.text_of_bareText? (bare : e.bareText? = some text) :
    (∀ p, e.text scope .plain p = .ok text) ∧ EndsBare text := by
  induction e using Expr.induction generalizing text with
  | dangling => cases bare
  | node n ih =>
    obtain ⟨shape, ty⟩ := n
    cases shape with
    | literal value =>
      cases value with
      | string s =>
        cases bare
        exact ⟨fun p => rfl, endsBare_stringLiteral s⟩
      | _ => cases bare
    | unary op operand =>
      rw [bareText?, Option.bind_eq_some_iff] at bare
      obtain ⟨inner, bareInner, bare⟩ := bare
      split at bare
      · cases bare
      · rename_i apart
        cases bare
        obtain ⟨printed, ends⟩ := ih operand (by simp [Shape.operandsOf]) bareInner
        refine ⟨fun p => ?_, ?_⟩
        · have plain : (Expr.operand scope operand).plain .primary = .ok inner := printed .primary
          rw [Expr.text_node]
          show unaryText op (Expr.operand scope operand) = _
          rw [unaryText, plain, ok_bind, if_neg apart]
          rfl
        · have quiet : Watch.code.read op.symbol.toList = _ := op.quiet_symbol
          rw [EndsBare, String.toList_append, Watch.read_append, quiet]
          exact ends
    | _ => cases bare

end Bare

/-- The node takes something out of its object by a dot, directly behind a string literal without a suffix.
A query puts a suffix to its object if that is a literal and nothing else. -/
def Node.TakesBare {ρ : Type} (scope : Scope) (expr : ρ → Expr) (n : Node ρ) : Prop :=
  match n.shape with
  | .member object target => target.isScoped = false ∧ (expr object).bareText?.isSome = true
  | .call object (.user owner index) _ =>
    (∃ method, scope.method owner index = .ok method ∧ method.dispatch ≠ .static) ∧
      (expr object).bareText?.isSome = true
  | .call object (.library method) _ =>
    method.asksString = true ∧ (expr object).literal? = .ok none ∧ (expr object).bareText?.isSome = true
  | _ => False

/-- Some node of the expression that is printed takes something out of a string literal without a
suffix. -/
inductive Expr.HasBareReceiver (scope : Scope) : Expr → Prop where
  | here (n : Node (Unit → Expr)) (takes : n.TakesBare scope (· ())) : HasBareReceiver scope (.node n)
  | operand (n : Node (Unit → Expr)) {e : Unit → Expr} (listed : e ∈ n.shape.printedOperands)
      (inside : HasBareReceiver scope (e ())) : HasBareReceiver scope (.node n)

/-- A string literal and signs in front of it are no pointer to take a raw one out of. -/
def Node.IsBareApart (n : Node (Unit → Expr)) : Prop :=
  (Expr.node n).bareText?.isSome = true → n.ty.isArray = false ∧ n.ty.isClassPtr = false

/-! ### Operands -/

section Operands

variable (scope : Scope)

def Operand.hasBare (x : TreeOperand) : Prop := (x.expr ()).HasBareReceiver scope

/-- What a node shows. -/
def Node.hasBare (n : Node TreeOperand) : Prop :=
  n.TakesBare scope (·.expr ()) ∨ ∃ x ∈ n.shape.printedOperands, x.hasBare scope

theorem Expr.hasBareReceiver_node (n : Node (Unit → Expr)) :
    (Expr.node n).HasBareReceiver scope ↔ (n.map (Expr.operand scope)).hasBare scope := by
  have takes : (n.map (Expr.operand scope)).TakesBare scope (·.expr ()) ↔ n.TakesBare scope (· ()) := by
    obtain ⟨shape, ty⟩ := n
    cases shape with
    | call object method args => cases method <;> rfl
    | _ => rfl
  rw [Node.hasBare, takes, Node.map, Shape.printedOperands_map]
  simp only [List.mem_map, exists_exists_and_eq_and]
  constructor
  · intro bare
    cases bare with
    | here _ takes => exact .inl takes
    | operand _ listed inside => exact .inr ⟨_, listed, inside⟩
  · rintro (takes | ⟨e, listed, inside⟩)
    · exact .here n takes
    · exact .operand n listed inside

/-- The texts of the operand show whether it has a bare receiver. As a receiver, it ends in a string literal
exactly if it is one with signs in front. -/
structure Operand.Shows (x : TreeOperand) : Prop where
  form : ∀ form position, Gives (CppPrinter.Shows · (x.hasBare scope) True) (x.text form position)
  receiver : Gives (fun text => EndsBare text → (x.expr ()).bareText?.isSome = true) (x.plain .primary)
  bare : ∀ text, (x.expr ()).bareText? = some text → x.plain .primary = .ok text ∧ EndsBare text
  apart : (x.expr ()).bareText?.isSome = true → Gives (fun ty : Ty => ty.isClassPtr = false) x.ty?

end Operands

section Rules

variable {scope : Scope} {x left right object : TreeOperand} {args : List TreeOperand}

theorem Operand.Shows.plain (h : x.Shows scope) (position : Precedence) :
    Gives (CppPrinter.Shows · (x.hasBare scope) True) (x.plain position) :=
  h.form .plain position

theorem Operand.Shows.coerced (h : x.Shows scope) (target : Ty) (position : Precedence) :
    Gives (CppPrinter.Shows · (x.hasBare scope) True) (x.coerced target position) :=
  h.form (.coerced target) position

/-- What a receiver ends in. -/
theorem Operand.Shows.endsBare_iff (h : x.Shows scope) :
    Gives (fun text => CppPrinter.Shows text (x.hasBare scope) True ∧
      (EndsBare text ↔ (x.expr ()).bareText?.isSome = true)) (x.plain .primary) := by
  intro text printed
  refine ⟨h.plain .primary text printed, h.receiver text printed, fun isBare => ?_⟩
  obtain ⟨bare, isBare⟩ := Option.isSome_iff_exists.1 isBare
  obtain ⟨printed', ends⟩ := h.bare bare isBare
  rw [printed] at printed'
  cases printed'
  exact ends

/-- A literal has no operands at all. -/
theorem Expr.not_hasBareReceiver_of_literal? {e : Expr} {value : Literal}
    (found : e.literal? = .ok (some value)) : ¬ e.HasBareReceiver scope := by
  cases e with
  | dangling => cases found
  | node n =>
    have isLiteral : n.literal? = some value := by simpa [Expr.literal?, Expr.node?] using found
    unfold Node.literal? at isLiteral
    split at isLiteral
    · rename_i form
      intro bare
      cases bare with
      | here _ takes => simp [Node.TakesBare, form] at takes
      | operand _ listed => simp [form, Shape.printedOperands, Shape.operandsOf] at listed
    · cases isLiteral

/-- Of the literals, only strings are. -/
theorem Expr.bareText?_of_literal? {e : Expr} {value : Literal} (found : e.literal? = .ok (some value))
    (noString : ∀ s, value ≠ .string s) : e.bareText? = none := by
  cases e with
  | dangling => rfl
  | node n =>
    obtain ⟨shape, ty⟩ := n
    cases shape with
    | literal value' =>
      cases found
      cases value with
      | string s => exact absurd rfl (noString s)
      | _ => rfl
    | _ => cases found

theorem Operand.literal?_noBare (x : TreeOperand) :
    Gives (fun value? => value?.isSome = true → ¬ x.hasBare scope) x.literal? := by
  intro value? found isSome
  obtain ⟨value, rfl⟩ := Option.isSome_iff_exists.1 isSome
  exact Expr.not_hasBareReceiver_of_literal? found

theorem unaryText_shows (op : UnaryOp) (h : x.Shows scope) :
    Gives (Shows · (x.hasBare scope)
      (∃ text, (x.expr ()).bareText? = some text ∧ signsMerge op.symbol text = false))
      (unaryText op x) := by
  intro text printed
  obtain ⟨inner, printedInner, printed⟩ := bind_eq_ok_iff.1 printed
  obtain ⟨shows', ends⟩ := h.endsBare_iff inner printedInner
  split at printed
  · cases printed
    exact ((shows'.headed (op.quiet_symbol.append (by decide))).followed (by decide)).mono False.elim
  · rename_i apart
    cases printed
    refine (shows'.ending fun bare => ?_).headed op.quiet_symbol
    obtain ⟨bare, isBare⟩ := Option.isSome_iff_exists.1 (ends.1 bare)
    obtain ⟨printed', -⟩ := h.bare bare isBare
    rw [printedInner] at printed'
    cases printed'
    exact ⟨inner, isBare, by simpa using apart⟩

theorem stepText_shows (op : StepOp) (h : x.Shows scope) :
    Gives (Shows · (x.hasBare scope) False) (stepText op x) :=
  (h.plain .primary).bind fun _ inner => .ok (inner.followed (by cases op <;> decide))

theorem indexText_shows (hl : left.Shows scope) (hr : right.Shows scope) :
    Gives (Shows · (left.hasBare scope ∨ right.hasBare scope) False) (indexText left right) :=
  (hl.plain .primary).bind fun _ l => (hr.plain .statement).bind fun _ r =>
    .ok ((l.joined (by decide) r).followed (by decide))

theorem assignText_shows (position : Precedence) (hl : left.Shows scope) (hr : right.Shows scope) :
    Gives (Shows · (left.hasBare scope ∨ right.hasBare scope) (position ≠ .primary))
      (assignText left right position) :=
  (hl.plain .assign).bind fun _ l => (assignedText_gives (hr.plain .assign)
    (fun _ => hr.form _ _) fun _ => hr.coerced _ _).bind fun _ r =>
      .ok ((l.between (by decide) r).parenthesize (by decide) _)

theorem leftText_shows {symbol : String} (parting : IsParting (" " ++ symbol ++ " "))
    {level : Precedence} (low : level ≠ .primary) (position : Precedence) (hl : left.Shows scope)
    (hr : right.Shows scope) :
    Gives (Shows · (left.hasBare scope ∨ right.hasBare scope) (position ≠ .primary))
      (leftText level symbol left right position) :=
  (hl.plain level).bind fun _ l => (hr.plain level.tighter).bind fun _ r =>
    .ok ((l.between parting r).parenthesize low _)

theorem updateText_shows (op : ArithOp) (position : Precedence) (hl : left.Shows scope)
    (hr : right.Shows scope) :
    Gives (Shows · (left.hasBare scope ∨ right.hasBare scope) (position ≠ .primary))
      (updateText op left right position) :=
  (hl.plain .assign).bind fun _ l => (hr.plain .argument).bind fun _ r =>
    .ok ((l.between (by cases op <;> decide) r).parenthesize (by decide) _)

/-- Where a character is compared, it stands for a literal. -/
theorem comparedChar?_noBare (left right : TreeOperand) :
    Gives (fun c? => c?.isSome = true → ¬ right.hasBare scope) (comparedChar? left right) := by
  intro c? found isSome
  obtain ⟨c, rfl⟩ := Option.isSome_iff_exists.1 isSome
  obtain ⟨value, isLiteral⟩ := literal?_of_comparedChar? found
  exact Expr.not_hasBareReceiver_of_literal? isLiteral

theorem comparisonText_shows {symbol : String} (parting : IsParting (" " ++ symbol ++ " "))
    {level : Precedence} (low : level ≠ .primary) (position : Precedence) (hl : left.Shows scope)
    (hr : right.Shows scope) :
    Gives (Shows · (left.hasBare scope ∨ right.hasBare scope) (position ≠ .primary))
      (comparisonText level symbol left right position) := by
  have onward : ∀ r, Shows r (right.hasBare scope) True →
      Gives (Shows · (left.hasBare scope ∨ right.hasBare scope) (position ≠ .primary)) (do
        let l ← left.plain level
        return level.parenthesize position (between l symbol r)) := fun _ r =>
    (hl.plain level).bind fun _ l => .ok ((l.between parting r).parenthesize low _)
  refine (@comparedChar?_noBare scope left right).bind fun c? noBare => ?_
  cases c? with
  | some c =>
    have silent : Shows (charLiteral c) False True := .of_quiet (quiet_charLiteral c)
    exact onward (charLiteral c) (silent.congr (iff_of_false id (noBare rfl)))
  | none => exact (hr.plain level.tighter).bind onward

theorem equalityText_shows {symbol : String} (parting : IsParting (" " ++ symbol ++ " "))
    (scope : Scope) (position : Precedence) (hl : left.Shows scope) (hr : right.Shows scope) :
    Gives (Shows · (left.hasBare scope ∨ right.hasBare scope) (position ≠ .primary))
      (equalityText scope symbol left right position) := by
  refine .after fun leftTy => .after fun rightTy => .after fun common? => ?_
  cases common? with
  | some common =>
    exact (hl.coerced _ .equality).bind fun _ l => (hr.coerced _ .rel).bind fun _ r =>
      .ok ((l.between parting r).parenthesize (by decide) _)
  | none => exact comparisonText_shows parting (by decide) position hl hr

theorem binaryText_shows (op : BinaryOp) (position : Precedence) (hl : left.Shows scope)
    (hr : right.Shows scope) :
    Gives (Shows · (left.hasBare scope ∨ right.hasBare scope) (position ≠ .primary))
      (binaryText scope op left right position) := by
  cases op with
  | arith op =>
    exact leftText_shows (by cases op <;> decide) (by cases op <;> decide) position hl hr
  | and | or => exact leftText_shows (by decide) (by decide) position hl hr
  | order op => exact comparisonText_shows (by cases op <;> decide) (by decide) position hl hr
  | eq | notEq => exact equalityText_shows (by decide) scope position hl hr
  | index => exact (indexText_shows hl hr).mono fun _ shows' => shows'.mono False.elim
  | assign => exact assignText_shows position hl hr
  | update op => exact updateText_shows op position hl hr

theorem argumentsText_shows (params : List Ty) (h : ∀ x ∈ args, x.Shows scope) :
    Gives (Shows · (∃ x ∈ args, x.hasBare scope) True) (argumentsText params args) :=
  (argumentTexts_forall₂ params (fun x member => (h x member).plain _)
    fun x member _ => (h x member).coerced _ _).bind fun _ each => .ok (Shows.intercalate each)

/-- What stands between an object and its member is a dot, or nothing that matters. -/
theorem Operand.reach?_eq (x : TreeOperand) (byName : Bool) :
    Gives (fun op => (op = "." ∧ byName = false) ∨
      (IsParting op ∧ (byName = true ∨ ∃ ty, x.ty? = .ok ty ∧ ty.isClassPtr = true)))
      (x.reach? byName) := by
  cases byName with
  | true => exact .ok (.inr ⟨by decide, .inl rfl⟩)
  | false =>
    intro op found
    obtain ⟨ty, looked, rfl⟩ := map_eq_ok_iff.1 found
    unfold memberOperator
    split
    · rename_i isPointer
      exact .inr ⟨by decide, .inr ⟨ty, looked, isPointer⟩⟩
    · exact .inl ⟨rfl, rfl⟩

/-- A member behind its object: a dot shows what the object ends in, and no pointer to an object ends in a
string literal. -/
theorem member_shows {receiver op name : String} {byName : Bool} (h : object.Shows scope)
    (printed : object.plain .primary = .ok receiver) (reaches : object.reach? byName = .ok op)
    (member : IsTaken name) :
    Shows (receiver ++ op ++ name)
      (object.hasBare scope ∨ byName = false ∧ (object.expr ()).bareText?.isSome = true) False := by
  obtain ⟨shows', ends⟩ := h.endsBare_iff receiver printed
  obtain ⟨rfl, rfl⟩ | ⟨parting, other⟩ := object.reach?_eq byName op reaches
  · exact (shows'.dotted member).congr (by rw [ends]; simp)
  · have noBare : ¬ (byName = false ∧ (object.expr ()).bareText?.isSome = true) := by
      rintro ⟨noName, isBare⟩
      obtain byName | ⟨ty, looked, isPointer⟩ := other
      · rw [noName] at byName
        cases byName
      · rw [h.apart isBare ty looked] at isPointer
        cases isPointer
    have silent : Shows name False False := .of_quiet member.quiet
    exact (shows'.joined parting silent).congr (by simp [noBare])

/-- Arguments behind what is called. -/
theorem Shows.call {callee arguments : String} {P Q E E' : Prop} (h : Shows callee P E)
    (h' : Shows arguments Q E') : Shows (callee ++ "(" ++ arguments ++ ")") (P ∨ Q) False :=
  (h.joined (by decide) h').followed (by decide)

theorem methodCallText_shows {method : Signature} (named : IsMemberName (camelCase method.name))
    (ho : object.Shows scope) (ha : ∀ x ∈ args, x.Shows scope) :
    Gives (Shows · ((object.hasBare scope ∨
      method.dispatch ≠ .static ∧ (object.expr ()).bareText?.isSome = true) ∨
      ∃ x ∈ args, x.hasBare scope) False) (methodCallText method object args) := by
  rw [methodCallText_eq]
  intro text printed
  obtain ⟨op, reaches, receiver, printedReceiver, arguments, printedArguments, rfl⟩ : ∃ op,
      object.reach? (method.dispatch = .static) = .ok op ∧ ∃ receiver,
        object.plain .primary = .ok receiver ∧ ∃ arguments,
          argumentsText (method.params.map Param.ty) args = .ok arguments ∧
            receiver ++ op ++ camelCase method.name ++ "(" ++ arguments ++ ")" = text := by
    simpa using printed
  have front := member_shows ho printedReceiver reaches named.identifier.isTaken
  have inner := argumentsText_shows _ ha arguments printedArguments
  exact (front.call inner).congr (by simp)

/-- Behind the suffix of a view, if the object is a literal, nothing ends in a string literal anymore. -/
theorem viewed_shows {receiver : String} {value? : Option Literal} (h : object.Shows scope)
    (printed : object.plain .primary = .ok receiver) (looked : object.literal? = .ok value?) :
    Shows (receiver ++ viewSuffix value?) (object.hasBare scope) True ∧
      (EndsBare (receiver ++ viewSuffix value?) ↔
        object.literal? = .ok none ∧ (object.expr ()).bareText?.isSome = true) := by
  obtain ⟨shows', ends⟩ := h.endsBare_iff receiver printed
  have unmarked : viewSuffix value? = "" → receiver ++ viewSuffix value? = receiver := by
    intro empty
    rw [empty, String.append_empty]
  cases value? with
  | none =>
    rw [unmarked rfl, ends]
    exact ⟨shows', by simp [looked]⟩
  | some value =>
    have isLiteral : (object.expr ()).literal? = .ok (some value) := looked
    have noObject : ¬ (object.literal? = .ok none ∧ (object.expr ()).bareText?.isSome = true) := by
      rw [looked]
      rintro ⟨⟨⟩, -⟩
    cases value with
    | string s =>
      have marked : Shows (receiver ++ "sv") (object.hasBare scope) False :=
        shows'.followed (by decide)
      exact ⟨marked.mono False.elim, iff_of_false marked.ends noObject⟩
    | _ =>
      have noString : ¬ (object.expr ()).bareText?.isSome = true := by
        rw [Expr.bareText?_of_literal? isLiteral nofun]
        nofun
      rw [unmarked rfl, ends]
      exact ⟨shows', iff_of_false noString noObject⟩

theorem stringCallText_shows {name : String} (member : IsTaken name) (params : List Ty)
    (ho : object.Shows scope) (ha : ∀ x ∈ args, x.Shows scope) :
    Gives (Shows · ((object.hasBare scope ∨
      object.literal? = .ok none ∧ (object.expr ()).bareText?.isSome = true) ∨
      ∃ x ∈ args, x.hasBare scope) False) (stringCallText name params object args) := by
  intro text printed
  obtain ⟨value?, looked, receiver, printedReceiver, arguments, printedArguments, rfl⟩ : ∃ value?,
      object.literal? = .ok value? ∧ ∃ receiver, object.plain .primary = .ok receiver ∧ ∃ arguments,
        argumentsText params args = .ok arguments ∧
          receiver ++ viewSuffix value? ++ "." ++ name ++ "(" ++ arguments ++ ")" = text := by
    simpa [stringCallText] using printed
  obtain ⟨viewed, ends⟩ := viewed_shows ho printedReceiver looked
  have inner := argumentsText_shows _ ha arguments printedArguments
  exact ((viewed.dotted member).call inner).congr (by rw [ends])

theorem positionCallText_shows {name : String} (member : IsTaken name) (ho : object.Shows scope)
    (ha : ∀ x ∈ args, x.Shows scope) :
    Gives (Shows · ((object.hasBare scope ∨
      object.literal? = .ok none ∧ (object.expr ()).bareText?.isSome = true) ∨
      ∃ x ∈ args, x.hasBare scope) False) (positionCallText name object args) :=
  (stringCallText_shows member _ ho ha).bind fun _ call =>
    .ok ((call.headed (by decide)).followed (by decide))

theorem offsetPointerText_shows {array offset : TreeOperand} (ha : array.Shows scope)
    (ho : offset.Shows scope) :
    Gives (Shows · (array.hasBare scope ∨ offset.hasBare scope) True) (offsetPointerText array offset) := by
  refine (@Operand.literal?_noBare scope offset).bind fun value? noBare => ?_
  split
  · rename_i zero
    exact (ha.form .arrayPointer .argument).mono fun _ pointer =>
      pointer.congr (by simp [noBare (by simp [zero])])
  · exact (ha.form .arrayPointer .add).bind fun _ pointer => (ho.coerced .i32 .mul).bind fun _ steps =>
      .ok (pointer.joined (by decide) steps)

theorem copyCallText_shows {source : TreeOperand} (hs : source.Shows scope)
    (ha : ∀ x ∈ args, x.Shows scope) :
    Gives (Shows · (source.hasBare scope ∨ ∃ x ∈ args, x.hasBare scope) False)
      (copyCallText source args) := by
  unfold copyCallText
  split
  · rename_i sourceOffset target targetOffset count
    simp only [List.forall_mem_cons] at ha
    obtain ⟨hso, ht, hto, hc, -⟩ := ha
    refine (offsetPointerText_shows hs hso).bind fun _ first =>
      (hc.coerced .i32 .argument).bind fun _ number =>
        (offsetPointerText_shows ht hto).bind fun _ result => .ok ?_
    refine ((((first.headed (by decide)).joined (by decide) number).joined (by decide) result).followed
      (by decide)).congr ?_
    simp only [List.mem_cons, List.not_mem_nil, or_false, exists_eq_or_imp, exists_eq_left]
    tauto
  · exact .unsupported _

theorem decodeCallText_shows (ha : ∀ x ∈ args, x.Shows scope) :
    Gives (Shows · (∃ x ∈ args, x.hasBare scope) False) (decodeCallText args) := by
  unfold decodeCallText
  split
  · simp only [List.forall_mem_cons] at ha
    obtain ⟨hb, ho, hl, -⟩ := ha
    refine (offsetPointerText_shows hb ho).bind fun _ first =>
      (hl.coerced .i32 .argument).bind fun _ number => .ok ?_
    refine (((first.headed (by decide)).joined (by decide) number).followed (by decide)).congr ?_
    simp only [List.mem_cons, List.not_mem_nil, or_false, exists_eq_or_imp, exists_eq_left, or_assoc]
  · exact .unsupported _

theorem hasBare_of_query {method : LibraryMethod} (asks : method.asksString = true) (ty : Ty) :
    (Node.mk (.call object (.library method) args) ty).hasBare scope ↔
      (object.hasBare scope ∨
        object.literal? = .ok none ∧ (object.expr ()).bareText?.isSome = true) ∨
        ∃ x ∈ args, x.hasBare scope := by
  have printed : (Shape.call object (.library method) args).printedOperands = object :: args := by
    cases method <;> first | rfl | cases asks
  rw [Node.hasBare, printed]
  simp only [Node.TakesBare, asks, true_and, List.mem_cons, exists_eq_or_imp, Operand.literal?]
  tauto

theorem hasBare_of_noQuery {method : LibraryMethod} (asksNothing : method.asksString = false) (ty : Ty) :
    (Node.mk (.call object (.library method) args) ty).hasBare scope ↔
      ∃ x ∈ (Shape.call object (.library method) args).printedOperands, x.hasBare scope := by
  simp [Node.hasBare, Node.TakesBare, asksNothing]

/-- What a call of the library shows. -/
theorem libraryCallText_shows {method : LibraryMethod} (position : Precedence)
    (named : (MethodRef.library method).Named) (ty : Ty) (ho : object.Shows scope)
    (ha : ∀ x ∈ args, x.Shows scope) :
    Gives (Shows · ((Node.mk (.call object (.library method) args) ty).hasBare scope)
      (position ≠ .primary)) (libraryCallText method object args position) := by
  have shut {text : String} {P Q : Prop} (shows' : Shows text P False) (same : Q ↔ P) :
      Shows text Q (position ≠ .primary) := (shows'.congr same.symm).mono False.elim
  cases method with
  | math name =>
    refine (argumentsText_shows _ ha).bind fun _ arguments => .ok (shut ?_ (hasBare_of_noQuery rfl ty))
    have callee : IsQuiet ("std::" ++ mathFunction name) :=
      IsQuiet.append (by decide) named.identifier.isTaken.quiet
    have front : Shows ("std::" ++ mathFunction name) False False := .of_quiet callee
    exact (front.call arguments).congr (by simp [Shape.printedOperands])
  | stringContains =>
    refine (stringCallText_shows (by decide) _ ho ha).bind fun _ call => .ok ?_
    rw [hasBare_of_query rfl]
    exact (call.followed (by decide)).parenthesize (by decide) position
  | stringIndexOf | stringLastIndexOf =>
    exact (positionCallText_shows (by decide) ho ha).mono fun _ call =>
      shut call (hasBare_of_query rfl ty)
  | stringStartsWith | stringEndsWith | stringSubstring =>
    exact (stringCallText_shows (by decide) _ ho ha).mono fun _ call =>
      shut call (hasBare_of_query rfl ty)
  | arrayCopyTo =>
    exact (copyCallText_shows ho ha).mono fun _ call =>
      shut call ((hasBare_of_noQuery rfl ty).trans (by simp [Shape.printedOperands, Shape.operandsOf]))
  | utf8GetString =>
    exact (decodeCallText_shows ha).mono fun _ call => shut call (hasBare_of_noQuery rfl ty)
  | other name => exact .unsupported _

theorem memberText_shows {target : Symbol} (named : target.Named) (ho : object.Shows scope) :
    Gives (Shows · (object.hasBare scope ∨
      target.isScoped = false ∧ (object.expr ()).bareText?.isSome = true) False)
      (memberText object target) := by
  by_cases isLength : target = .stringLength
  · subst isLength
    refine ho.endsBare_iff.bind fun receiver h => .ok ?_
    obtain ⟨shows', ends⟩ := h
    have shape : receiver ++ ".length()" = receiver ++ "." ++ "length()" := by
      rw [String.append_assoc]
      rfl
    rw [shape]
    exact (shows'.dotted (by decide)).congr (by rw [ends]; simp [Symbol.isScoped])
  · rw [memberText_eq isLength]
    intro text printed
    obtain ⟨name, printedName, receiver, printedReceiver, op, reaches, rfl⟩ : ∃ name,
        target.memberName = .ok name ∧ ∃ receiver, object.plain .primary = .ok receiver ∧ ∃ op,
          object.reach? target.isScoped = .ok op ∧ receiver ++ op ++ name = text := by
      simpa using printed
    exact member_shows ho printedReceiver reaches (Symbol.memberName_isTaken named name printedName)

theorem selectText_shows {test positive negative : TreeOperand} (target : Ty) (position : Precedence)
    (ht : test.Shows scope) (hp : positive.Shows scope) (hn : negative.Shows scope) :
    Gives (Shows · ((test.hasBare scope ∨ positive.hasBare scope) ∨ negative.hasBare scope)
      (position ≠ .primary)) (selectText target test positive negative position) :=
  (ht.plain .condOr).bind fun _ c => (hp.coerced target .select).bind fun _ t =>
    (hn.coerced target .select).bind fun _ e =>
      .ok (((c.joined (by decide) t).joined (by decide) e).parenthesize (by decide) _)

theorem aggregateText_shows (ty : Ty) (ha : ∀ x ∈ args, x.Shows scope) :
    Gives (Shows · (∃ x ∈ args, x.hasBare scope) False) (aggregateText ty args) := by
  unfold aggregateText
  split
  · exact (argumentsText_shows _ ha).bind fun _ items =>
      .ok ((items.headed (by decide)).followed (by decide))
  · exact .unsupported _

end Rules

end CppPrinter
