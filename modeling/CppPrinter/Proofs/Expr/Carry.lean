import CppPrinter.Proofs.Class.Name
import CppPrinter.Proofs.Expr.Mentioned

/-!
# What the texts of an expression carry

A rule of printing puts fixed words, names and types around the texts of its operands, and between them. A
property of a text and of the resources that it mentions is one of every text of an expression, in every
form, if those words keep it (`Wording`) and the names and types do (`Scope.Supplies`,
`Expr.text_carries`). There is one law for each rule; how a property deals with the words is no matter of
the rules.
-/

namespace CppPrinter

/-- The words between two texts: operators, those of a conditional, and the comma of a list. -/
def joints : List String :=
  [" * ", " / ", " % ", " + ", " - ", " << ", " >> ", " & ", " ^ ", " | ", " *= ", " /= ", " %= ",
    " += ", " -= ", " <<= ", " >>= ", " &= ", " ^= ", " |= ", " = ", " && ", " || ", " == ", " != ",
    " < ", " <= ", " > ", " >= ", " ? ", " : ", ", "]

/-- Literals and references to resources have the property, and the words that a rule of printing puts
around texts or between them keep it. -/
structure Wording (good : String → Set String → Prop) : Prop where
  empty : good "" ∅
  literal : ∀ value : Literal, Gives (good · ∅) value.text
  character : ∀ c, good (charLiteral c) ∅
  resource : ∀ name, good (resourceReference name) {sanitizeIdentifier name}
  headed : ∀ lead ∈ ["-", "!", "~", "++", "--", "&"], ∀ {text S}, good text S → good (lead ++ text) S
  followed : ∀ tail ∈ ["++", "--", ".length()", ".data()", ".get()", " != std::string::npos"],
    ∀ {text S}, good text S → good (text ++ tail) S
  asked : ∀ query ∈ ["find", "rfind", "starts_with", "ends_with", "substr"],
    ∀ {text S}, good text S → good (text ++ "." ++ query) S
  /-- The marks of a view and of a number of single precision stand behind literals alone. -/
  marked : ∀ mark ∈ ["sv", "f"], ∀ {text}, good text ∅ → good (text ++ mark) ∅
  enclosed : ∀ p ∈ [("(", ")"), ("\x7b ", " \x7d"), ("static_cast<int32_t>(", ")"), ("std::copy_n(", ")"),
    ("std::string_view(", ")"), ("reinterpret_cast<const char *>(", ")")],
    ∀ {text S}, good text S → good (p.1 ++ text ++ p.2) S
  applied : ∀ p ∈ [("(", ")"), ("[", "]")], ∀ {front text S T}, good front S → good text T →
    good (front ++ p.1 ++ text ++ p.2) (S ∪ T)
  joined : ∀ joint ∈ joints, ∀ {front back S T},
    good front S → good back T → good (front ++ joint ++ back) (S ∪ T)

/-- The texts of names and types are good, and so are those in which they stand beside others. -/
structure Scope.Supplies (scope : Scope) (named : String → Prop) (good : String → Set String → Prop) :
    Prop where
  names : scope.EveryName named
  symbol : ∀ {target : Symbol}, (∀ name ∈ target.name?, named name) →
    Gives (good · ∅) (target.text scope)
  member : ∀ op ∈ [".", "->", "::"], ∀ {name}, named name → ∀ {text S}, good text S →
    good (text ++ op ++ camelCase name) S
  function : ∀ {name}, named name → good ("std::" ++ mathFunction name) ∅
  newObject : ∀ target, Gives (fun name => good ("std::make_shared<" ++ name ++ ">()") ∅)
    (scope.className target)
  typed : ∀ ty : Ty, Gives (fun spelling => ∀ p ∈ [("static_cast<", ">("), ("std::make_shared<", "[]>(")],
    ∀ {text S}, good text S → good (p.1 ++ spelling ++ p.2 ++ text ++ ")") S) (ty.spelling scope false)

/-- All texts of the operand are good for what it mentions. -/
def Operand.Carries (good : String → Set String → Prop) (x : TreeOperand) : Prop :=
  ∀ form position, Gives (good · x.mentioned) (x.text form position)

section Rules

variable {good : String → Set String → Prop} {x left right object : TreeOperand} {args : List TreeOperand}

theorem Operand.Carries.plain (h : x.Carries good) (position : Precedence) :
    Gives (good · x.mentioned) (x.plain position) :=
  h .plain position

theorem Operand.Carries.coerced (h : x.Carries good) (target : Ty) (position : Precedence) :
    Gives (good · x.mentioned) (x.coerced target position) :=
  h (.coerced target) position

/-- What stands between an object and its member. -/
theorem Operand.reach?_mem (x : TreeOperand) (byName : Bool) :
    Gives (· ∈ [".", "->", "::"]) (x.reach? byName) := by
  cases byName with
  | true => exact .ok (by decide)
  | false =>
    intro op found
    obtain ⟨ty, -, rfl⟩ := map_eq_ok_iff.1 found
    unfold memberOperator
    split <;> decide

variable (fixed : Wording good)

include fixed

namespace Wording

theorem parenthesize {text : String} {S : Set String} (h : good text S) (level position : Precedence) :
    good (level.parenthesize position text) S := by
  unfold Precedence.parenthesize
  split
  · exact fixed.enclosed ("(", ")") (by decide) h
  · exact h

/-- An operator between two operands. -/
theorem between {l symbol r : String} {S T : Set String} (listed : " " ++ symbol ++ " " ∈ joints)
    (h : good l S) (h' : good r T) : good (between l symbol r) (S ∪ T) := by
  have shape : CppPrinter.between l symbol r = l ++ (" " ++ symbol ++ " ") ++ r := by
    simp only [CppPrinter.between, String.append_assoc]
  rw [shape]
  exact fixed.joined _ listed h h'

/-- Texts of operands in a row with commas between them. -/
theorem intercalate {texts : List String}
    (each : List.Forall₂ (fun text x => good text x.mentioned) texts args) :
    good (", ".intercalate texts) (mentionedIn args) := by
  induction each with
  | nil =>
    rw [mentionedIn_nil]
    exact fixed.empty
  | @cons text x texts xs here rest ih =>
    cases rest with
    | nil =>
      rw [String.intercalate_singleton, mentionedIn_singleton]
      exact here
    | cons =>
      rw [String.intercalate_cons_cons, mentionedIn_cons]
      exact fixed.joined _ (by decide) here ih

end Wording

/-! ### Operators -/

theorem unaryText_carries (op : UnaryOp) (h : x.Carries good) :
    Gives (good · x.mentioned) (unaryText op x) := by
  have sign : ∀ {text S}, good text S → good (op.symbol ++ text) S :=
    fixed.headed _ (by cases op <;> decide)
  refine (h.plain .primary).bind fun text carried => ?_
  split
  · have apart : good (op.symbol ++ ("(" ++ text ++ ")")) x.mentioned :=
      sign (fixed.enclosed ("(", ")") (by decide) carried)
    exact .ok (by simpa only [String.append_assoc] using apart)
  · exact .ok (sign carried)

theorem stepText_carries (op : StepOp) (h : x.Carries good) :
    Gives (good · x.mentioned) (stepText op x) :=
  (h.plain .primary).bind fun _ carried => .ok (fixed.followed _ (by cases op <;> decide) carried)

theorem indexText_carries (hl : left.Carries good) (hr : right.Carries good) :
    Gives (good · (left.mentioned ∪ right.mentioned)) (indexText left right) :=
  (hl.plain .primary).bind fun _ l => (hr.plain .statement).bind fun _ r =>
    .ok (fixed.applied ("[", "]") (by decide) l r)

theorem assignText_carries (position : Precedence) (hl : left.Carries good) (hr : right.Carries good) :
    Gives (good · (left.mentioned ∪ right.mentioned)) (assignText left right position) :=
  (hl.plain .assign).bind fun _ l => (assignedText_gives (hr.plain .assign)
    (fun _ => hr _ _) fun _ => hr.coerced _ _).bind fun _ r =>
      .ok (fixed.parenthesize (fixed.between (by decide) l r) _ _)

theorem leftText_carries {symbol : String} (listed : " " ++ symbol ++ " " ∈ joints)
    (level position : Precedence) (hl : left.Carries good) (hr : right.Carries good) :
    Gives (good · (left.mentioned ∪ right.mentioned)) (leftText level symbol left right position) :=
  (hl.plain level).bind fun _ l => (hr.plain level.tighter).bind fun _ r =>
    .ok (fixed.parenthesize (fixed.between listed l r) _ _)

theorem updateText_carries (op : ArithOp) (position : Precedence) (hl : left.Carries good)
    (hr : right.Carries good) :
    Gives (good · (left.mentioned ∪ right.mentioned)) (updateText op left right position) :=
  (hl.plain .assign).bind fun _ l => (hr.plain .argument).bind fun _ r =>
    .ok (fixed.parenthesize (fixed.between (by cases op <;> decide) l r) _ _)

theorem comparisonText_carries {symbol : String} (listed : " " ++ symbol ++ " " ∈ joints)
    (level position : Precedence) (hl : left.Carries good) (hr : right.Carries good) :
    Gives (good · (left.mentioned ∪ right.mentioned))
      (comparisonText level symbol left right position) := by
  have onward : ∀ r, good r right.mentioned → Gives (good · (left.mentioned ∪ right.mentioned)) (do
      let l ← left.plain level
      return level.parenthesize position (between l symbol r)) := fun _ r =>
    (hl.plain level).bind fun _ l => .ok (fixed.parenthesize (fixed.between listed l r) _ _)
  refine (comparedChar?_silent left right).bind fun c? silent => ?_
  cases c? with
  | some c =>
    refine onward (charLiteral c) ?_
    rw [silent rfl]
    exact fixed.character c
  | none => exact (hr.plain level.tighter).bind onward

theorem equalityText_carries {symbol : String} (listed : " " ++ symbol ++ " " ∈ joints)
    (scope : Scope) (position : Precedence) (hl : left.Carries good) (hr : right.Carries good) :
    Gives (good · (left.mentioned ∪ right.mentioned))
      (equalityText scope symbol left right position) := by
  refine .after fun leftTy => .after fun rightTy => .after fun common? => ?_
  cases common? with
  | some common =>
    exact (hl.coerced _ .equality).bind fun _ l => (hr.coerced _ .rel).bind fun _ r =>
      .ok (fixed.parenthesize (fixed.between listed l r) _ _)
  | none => exact comparisonText_carries fixed listed .equality position hl hr

theorem binaryText_carries (scope : Scope) (op : BinaryOp) (position : Precedence)
    (hl : left.Carries good) (hr : right.Carries good) :
    Gives (good · (left.mentioned ∪ right.mentioned)) (binaryText scope op left right position) := by
  cases op with
  | arith op => exact leftText_carries fixed (by cases op <;> decide) _ position hl hr
  | and | or => exact leftText_carries fixed (by decide) _ position hl hr
  | order op => exact comparisonText_carries fixed (by cases op <;> decide) _ position hl hr
  | eq | notEq => exact equalityText_carries fixed (by decide) scope position hl hr
  | index => exact indexText_carries fixed hl hr
  | assign => exact assignText_carries fixed position hl hr
  | update op => exact updateText_carries fixed op position hl hr

/-! ### Calls -/

theorem argumentsText_carries (params : List Ty) (h : ∀ x ∈ args, x.Carries good) :
    Gives (good · (mentionedIn args)) (argumentsText params args) :=
  (argumentTexts_forall₂ params (fun x member => (h x member).plain _)
    fun x member _ => (h x member).coerced _ _).bind fun _ each => .ok (fixed.intercalate each)

theorem stringCallText_carries {name : String}
    (listed : name ∈ ["find", "rfind", "starts_with", "ends_with", "substr"]) (params : List Ty)
    (ho : object.Carries good) (ha : ∀ x ∈ args, x.Carries good) :
    Gives (good · (object.mentioned ∪ mentionedIn args)) (stringCallText name params object args) := by
  refine object.literal?_silent.bind fun value? silent => (ho.plain .primary).bind fun receiver h =>
    (argumentsText_carries fixed params ha).bind fun _ arguments => .ok ?_
  have viewed : good (receiver ++ viewSuffix value?) object.mentioned := by
    unfold viewSuffix
    split
    · rw [silent rfl] at h ⊢
      exact fixed.marked _ (by decide) h
    · rw [String.append_empty]
      exact h
  exact fixed.applied ("(", ")") (by decide) (fixed.asked name listed viewed) arguments

theorem positionCallText_carries {name : String} (listed : name ∈ ["find", "rfind"])
    (ho : object.Carries good) (ha : ∀ x ∈ args, x.Carries good) :
    Gives (good · (object.mentioned ∪ mentionedIn args)) (positionCallText name object args) := by
  have query : name ∈ ["find", "rfind", "starts_with", "ends_with", "substr"] := by
    revert name listed
    decide
  exact (stringCallText_carries fixed query _ ho ha).bind fun _ call =>
    .ok (fixed.enclosed ("static_cast<int32_t>(", ")") (by decide) call)

theorem offsetPointerText_carries {array offset : TreeOperand} (ha : array.Carries good)
    (ho : offset.Carries good) :
    Gives (good · (array.mentioned ∪ offset.mentioned)) (offsetPointerText array offset) := by
  refine offset.literal?_silent.bind fun value? silent => ?_
  split
  · rename_i zero
    rw [silent (by simp [zero]), Set.union_empty]
    exact ha .arrayPointer .argument
  · exact (ha .arrayPointer .add).bind fun _ pointer => (ho.coerced .i32 .mul).bind fun _ steps =>
      .ok (fixed.joined _ (by decide) pointer steps)

theorem copyCallText_carries {source : TreeOperand} (hs : source.Carries good)
    (ha : ∀ x ∈ args, x.Carries good) :
    Gives (good · (source.mentioned ∪ mentionedIn args)) (copyCallText source args) := by
  unfold copyCallText
  split
  · rename_i sourceOffset target targetOffset count
    simp only [List.forall_mem_cons] at ha
    obtain ⟨hso, ht, hto, hc, -⟩ := ha
    have every : source.mentioned ∪ mentionedIn [sourceOffset, target, targetOffset, count] =
        source.mentioned ∪ sourceOffset.mentioned ∪ count.mentioned ∪
          (target.mentioned ∪ targetOffset.mentioned) := by
      simp only [mentionedIn_cons, mentionedIn_nil, Set.union_empty]
      ac_rfl
    rw [every]
    refine (offsetPointerText_carries fixed hs hso).bind fun first h =>
      (hc.coerced .i32 .argument).bind fun number h' =>
        (offsetPointerText_carries fixed ht hto).bind fun result h'' => .ok ?_
    have copied := fixed.enclosed ("std::copy_n(", ")") (by decide)
      (fixed.joined ", " (by decide) (fixed.joined ", " (by decide) h h') h'')
    simpa only [String.append_assoc] using copied
  · exact .unsupported _

theorem decodeCallText_carries (ha : ∀ x ∈ args, x.Carries good) :
    Gives (good · (mentionedIn args)) (decodeCallText args) := by
  unfold decodeCallText
  split
  · rename_i bytes offset length
    simp only [List.forall_mem_cons] at ha
    obtain ⟨hb, ho, hl, -⟩ := ha
    have every : mentionedIn [bytes, offset, length] =
        bytes.mentioned ∪ offset.mentioned ∪ length.mentioned := by
      simp only [mentionedIn_cons, mentionedIn_nil, Set.union_empty, Set.union_assoc]
    rw [every]
    refine (offsetPointerText_carries fixed hb ho).bind fun first h =>
      (hl.coerced .i32 .argument).bind fun number h' => .ok ?_
    have viewed := fixed.enclosed ("std::string_view(", ")") (by decide) (fixed.joined ", " (by decide)
      (fixed.enclosed ("reinterpret_cast<const char *>(", ")") (by decide) h) h')
    have opens : "std::string_view(" ++ "reinterpret_cast<const char *>(" =
        "std::string_view(reinterpret_cast<const char *>(" := rfl
    have closes : ")" ++ ", " = "), " := rfl
    rw [← opens, ← closes]
    simpa only [String.append_assoc] using viewed
  · exact .unsupported _

theorem selectText_carries {test positive negative : TreeOperand} (target : Ty) (position : Precedence)
    (ht : test.Carries good) (hp : positive.Carries good) (hn : negative.Carries good) :
    Gives (good · (test.mentioned ∪ positive.mentioned ∪ negative.mentioned))
      (selectText target test positive negative position) :=
  (ht.plain .condOr).bind fun _ c => (hp.coerced target .select).bind fun _ t =>
    (hn.coerced target .select).bind fun _ e => .ok (fixed.parenthesize
      (fixed.joined _ (by decide) (fixed.joined _ (by decide) c t) e) _ _)

theorem aggregateText_carries (ty : Ty) (ha : ∀ x ∈ args, x.Carries good) :
    Gives (good · (mentionedIn args)) (aggregateText ty args) := by
  unfold aggregateText
  split
  · exact (argumentsText_carries fixed _ ha).bind fun _ items =>
      .ok (fixed.enclosed ("\x7b ", " \x7d") (by decide) items)
  · exact .unsupported _

/-! ### Names -/

variable {scope : Scope} {named : String → Prop} (supplied : scope.Supplies named good)

include supplied

theorem methodCallText_carries {method : Signature} (isNamed : named method.name)
    (ho : object.Carries good) (ha : ∀ x ∈ args, x.Carries good) :
    Gives (good · (object.mentioned ∪ mentionedIn args)) (methodCallText method object args) := by
  rw [methodCallText_eq]
  exact (object.reach?_mem _).bind fun op listed => (ho.plain .primary).bind fun _ receiver =>
    (argumentsText_carries fixed _ ha).bind fun _ arguments => .ok
      (fixed.applied ("(", ")") (by decide) (supplied.member op listed isNamed receiver) arguments)

theorem libraryCallText_carries {method : LibraryMethod} (position : Precedence)
    (isNamed : ∀ name, method = .math name → named name) (ho : object.Carries good)
    (ha : ∀ x ∈ args, x.Carries good) :
    Gives (good · (mentionedIn (Shape.call object (.library method) args).printedOperands))
      (libraryCallText method object args position) := by
  have whole : ∀ {r}, Gives (good · (object.mentioned ∪ mentionedIn args)) r →
      Gives (good · (mentionedIn (object :: args))) r := by
    intro r h
    rw [mentionedIn_cons]
    exact h
  cases method with
  | math name =>
    have byName : mentionedIn args = ∅ ∪ mentionedIn args := (Set.empty_union _).symm
    show Gives (good · (mentionedIn args)) _
    rw [byName]
    exact (argumentsText_carries fixed _ ha).bind fun _ arguments => .ok
      (fixed.applied ("(", ")") (by decide) (supplied.function (isNamed name rfl)) arguments)
  | stringContains =>
    exact whole ((stringCallText_carries fixed (by decide) _ ho ha).bind fun _ call =>
      .ok (fixed.parenthesize (fixed.followed _ (by decide) call) _ _))
  | stringIndexOf | stringLastIndexOf =>
    exact whole (positionCallText_carries fixed (by decide) ho ha)
  | stringStartsWith | stringEndsWith | stringSubstring =>
    exact whole (stringCallText_carries fixed (by decide) _ ho ha)
  | arrayCopyTo => exact whole (copyCallText_carries fixed ho ha)
  | utf8GetString => exact decodeCallText_carries fixed ha
  | other name => exact .unsupported _

theorem memberText_carries {target : Symbol} (isNamed : ∀ name ∈ target.name?, named name)
    (ho : object.Carries good) : Gives (good · object.mentioned) (memberText object target) := by
  by_cases isLength : target = .stringLength
  · subst isLength
    exact (ho.plain .primary).bind fun _ receiver => .ok (fixed.followed _ (by decide) receiver)
  · have spelled : Gives (fun text => ∃ name ∈ target.name?, text = camelCase name)
        target.memberName := by
      cases target with
      | field owner name | constant owner name | enumValue owner name => exact .ok ⟨name, rfl, rfl⟩
      | _ => exact .unsupported _
    rw [memberText_eq isLength]
    refine spelled.bind fun text h => (ho.plain .primary).bind fun _ receiver =>
      (object.reach?_mem _).bind fun op listed => .ok ?_
    obtain ⟨name, given, rfl⟩ := h
    exact supplied.member op listed (isNamed name given) receiver

end Rules

/-! ### Nodes -/

namespace Node

variable {good : String → Set String → Prop} {scope : Scope} {named : String → Prop} {n : Node TreeOperand}
  (fixed : Wording good) (supplied : scope.Supplies named good)
  (isNamed : ∀ name ∈ n.shape.names, named name) (h : ∀ x ∈ n.shape.operandsOf, x.Carries good)

include fixed supplied isNamed h

theorem plainText_carries (position : Precedence) :
    Gives (good · n.mentioned) (n.plainText scope position) := by
  obtain ⟨shape, ty⟩ := n
  cases shape with
  | literal value =>
    rw [mentioned_of_literal rfl]
    exact fixed.literal value
  | symbol target =>
    show Gives (good · (mentionedIn [])) _
    rw [mentionedIn_nil]
    exact supplied.symbol fun name given => isNamed name (Option.mem_toList.2 given)
  | member object target =>
    show Gives (good · (mentionedIn [object])) _
    rw [mentionedIn_singleton]
    exact memberText_carries fixed supplied (fun name given => isNamed name (Option.mem_toList.2 given))
      (h object (by simp [Shape.operandsOf]))
  | unary op x =>
    show Gives (good · (mentionedIn [x])) _
    rw [mentionedIn_singleton]
    exact unaryText_carries fixed op (h x (by simp [Shape.operandsOf]))
  | step op x =>
    show Gives (good · (mentionedIn [x])) _
    rw [mentionedIn_singleton]
    exact stepText_carries fixed op (h x (by simp [Shape.operandsOf]))
  | binary op left right =>
    show Gives (good · (mentionedIn [left, right])) _
    rw [mentionedIn_pair]
    exact binaryText_carries fixed scope op position (h left (by simp [Shape.operandsOf]))
      (h right (by simp [Shape.operandsOf]))
  | select test positive negative =>
    rw [mentioned_of_select rfl]
    exact selectText_carries fixed ty position (h test (by simp [Shape.operandsOf]))
      (h positive (by simp [Shape.operandsOf])) (h negative (by simp [Shape.operandsOf]))
  | call object method args =>
    obtain ⟨ho, ha⟩ := List.forall_mem_cons.1 h
    cases method with
    | user owner index =>
      show Gives (good · (mentionedIn (object :: args))) _
      rw [mentionedIn_cons]
      exact (supplied.names.method owner index).bind fun _ given =>
        methodCallText_carries fixed supplied given ho ha
    | library method =>
      have printed : mentioned ⟨.call object (.library method) args, ty⟩ =
          mentionedIn (Shape.call object (.library method) args).printedOperands := rfl
      rw [printed]
      refine libraryCallText_carries fixed supplied position (fun name isMath => ?_) ho ha
      subst isMath
      exact isNamed name (List.mem_singleton_self name)
  | newObject target =>
    show Gives (good · (mentionedIn [])) _
    rw [mentionedIn_nil]
    exact (supplied.newObject target).bind fun _ made => .ok made
  | newArray element length =>
    show Gives (good · (mentionedIn [length])) _
    rw [mentionedIn_singleton]
    exact (supplied.typed element).bind fun _ made =>
      ((h length (by simp [Shape.operandsOf])).plain .argument).bind fun _ count =>
        .ok (made ("std::make_shared<", "[]>(") (by decide) count)
  | aggregate items => exact aggregateText_carries fixed ty h
  | resource name => exact .ok (fixed.resource name)

theorem arrayPointerText_carries (position : Precedence) :
    Gives (good · n.mentioned) (n.arrayPointerText scope position) := by
  unfold arrayPointerText
  split
  · exact (plainText_carries fixed supplied isNamed h .primary).bind fun _ carried =>
      .ok (fixed.followed _ (by decide) carried)
  · exact (plainText_carries fixed supplied isNamed h .primary).bind fun _ carried =>
      .ok (fixed.followed _ (by decide) carried)
  · exact plainText_carries fixed supplied isNamed h position

theorem castText_carries (target : Ty) : Gives (good · n.mentioned) (n.castText scope target) := by
  have inner : ∀ operand?, n.castOperand? Operand.literal? target = .ok operand? →
      Gives (good · n.mentioned) (n.castInner scope operand?) := by
    intro operand? chosen
    cases operand? with
    | none => exact plainText_carries fixed supplied isNamed h .argument
    | some operand =>
      rw [mentioned_of_castOperand? chosen]
      exact (h operand (mem_operandsOf_of_castOperand? chosen)).plain .argument
  rw [castText_eq]
  exact Gives.bind inner fun operand? inside => (supplied.typed target).bind fun _ cast =>
    inside.bind fun _ carried => .ok (cast ("static_cast<", ">(") (by decide) carried)

theorem numberText_carries (target : Ty) (position : Precedence) :
    Gives (good · n.mentioned) (n.numberText scope target position) := by
  unfold numberText
  split
  · exact plainText_carries fixed supplied isNamed h position
  · rename_i isSuffix
    obtain ⟨value, isLiteral⟩ := literal_of_floatSuffix isSuffix
    have plain := plainText_carries fixed supplied isNamed h .primary
    rw [mentioned_of_literal isLiteral] at plain ⊢
    exact plain.bind fun _ carried => .ok (fixed.marked _ (by decide) carried)
  · exact castText_carries fixed supplied isNamed h target
  · rename_i operand chosen
    rw [mentioned_of_numericCoercion chosen]
    exact h operand (mem_operandsOf_of_numericCoercion chosen) _ _

theorem valueText_carries (target : Ty) (position : Precedence) :
    Gives (good · n.mentioned) (n.valueText scope target position) := by
  unfold valueText
  split
  · rename_i test positive negative shape
    rw [mentioned_of_select shape]
    rw [shape] at h
    exact selectText_carries fixed target position (h test (by simp [Shape.operandsOf]))
      (h positive (by simp [Shape.operandsOf])) (h negative (by simp [Shape.operandsOf]))
  · exact numberText_carries fixed supplied isNamed h target position

theorem coercedText_carries (target : Ty) (position : Precedence) :
    Gives (good · n.mentioned) (n.coercedText scope target position) := by
  unfold coercedText
  split
  · exact valueText_carries fixed supplied isNamed h _ position
  · exact valueText_carries fixed supplied isNamed h _ position
  · exact (plainText_carries fixed supplied isNamed h .primary).bind fun _ carried =>
      .ok (fixed.headed _ (by decide) carried)
  · exact (plainText_carries fixed supplied isNamed h .primary).bind fun _ carried =>
      .ok (fixed.followed _ (by decide) carried)
  · exact arrayPointerText_carries fixed supplied isNamed h position
  · exact valueText_carries fixed supplied isNamed h _ position

theorem text_carries (form : Form) (position : Precedence) :
    Gives (good · n.mentioned) (n.text scope form position) := by
  cases form with
  | plain => exact plainText_carries fixed supplied isNamed h position
  | coerced target => exact coercedText_carries fixed supplied isNamed h target position
  | cast target => exact castText_carries fixed supplied isNamed h target
  | arrayPointer => exact arrayPointerText_carries fixed supplied isNamed h position

end Node

/-- Every text of an expression is good for what the expression mentions. -/
theorem Expr.text_carries {good : String → Set String → Prop} (fixed : Wording good) {scope : Scope}
    {named : String → Prop} (supplied : scope.Supplies named good) {e : Expr}
    (isNamed : e.Every fun n => ∀ name ∈ n.shape.names, named name) (form : Form)
    (position : Precedence) : Gives (good · e.mentioned) (e.text scope form position) := by
  induction e using Expr.induction generalizing form position with
  | dangling => exact .error _
  | node n below =>
    obtain ⟨here, inside⟩ := isNamed.parts
    rw [Expr.text_node, Expr.mentioned_node scope]
    refine Node.text_carries fixed supplied ?_ ?_ form position
    · rw [Node.map, Shape.names_map]
      exact here
    · intro x member
      rw [Node.map, Shape.operandsOf_map] at member
      obtain ⟨e, listed, rfl⟩ := List.mem_map.1 member
      exact below e listed (inside e listed)

end CppPrinter
