import CppPrinter.Proofs.Receiver.Rule

/-!
# String literals as receivers

Every text of an expression shows whether it has a bare receiver (`Node.text_shows`), since each rule of
printing does. So the text of an expression, in every form, has a dot behind a string literal without a
suffix exactly if some node takes something out of such a literal (`bare_receiver_iff`).
-/

namespace CppPrinter

namespace Node

attribute [local simp] hasBare TakesBare Shape.printedOperands Shape.operandsOf

/-- The text of the node is that of a string literal and of signs in front of it. -/
def endsBare (n : Node TreeOperand) : Prop :=
  (∃ s, n.shape = .literal (.string s)) ∨
    ∃ op x text, n.shape = .unary op x ∧ (x.expr ()).bareText? = some text ∧
      signsMerge op.symbol text = false

theorem endsBare_map_iff (scope : Scope) (n : Node (Unit → Expr)) :
    (n.map (Expr.operand scope)).endsBare ↔ (Expr.node n).bareText?.isSome = true := by
  obtain ⟨shape, ty⟩ := n
  cases shape with
  | literal value => cases value <;> simp [endsBare, map, Shape.map, Expr.bareText?]
  | unary op x =>
    have inner : (Expr.operand scope x).expr () = x () := rfl
    simp only [endsBare, map, Shape.map, Expr.bareText?, reduceCtorEq, exists_false, false_or,
      Shape.unary.injEq]
    cases bare : (x ()).bareText? with
    | none => simp [inner, bare]
    | some text => cases merges : signsMerge op.symbol text <;> simp [inner, bare, merges]
  | _ => simp [endsBare, map, Shape.map, Expr.bareText?]

section Chosen

variable {scope : Scope} {n : Node TreeOperand} {target : Ty} {operand : TreeOperand}

/-- Where a cast is written around a masked operand, the mask is a literal. -/
theorem hasBare_of_castOperand? (chosen : n.castOperand? Operand.literal? target = .ok (some operand)) :
    operand.hasBare scope ↔ n.hasBare scope := by
  obtain ⟨right, mask, shape, looked, -⟩ := castOperand?_eq_some_iff_covers.1 chosen
  have silent : ¬ right.hasBare scope := Expr.not_hasBareReceiver_of_literal? looked
  simp [shape, silent]

/-- Where the argument of a call is cast in place of the call, the call is made by name. -/
theorem hasBare_of_numericCoercion (chosen : n.numericCoercion target = .castOperand operand) :
    operand.hasBare scope ↔ n.hasBare scope := by
  have source := n.numericCoercion_comesFrom target
  rw [chosen] at source
  cases source with
  | castOperand integer fraction isCall =>
    obtain ⟨object, method, shape, truncates⟩ := truncated?_eq_some_iff.1 isCall
    cases method with
    | math name => simp [shape, LibraryMethod.asksString]
    | _ => cases truncates

theorem hasBare_of_select {test positive negative : TreeOperand}
    (isSelect : n.shape = .select test positive negative) :
    (test.hasBare scope ∨ positive.hasBare scope) ∨ negative.hasBare scope ↔ n.hasBare scope := by
  simp [isSelect, or_assoc]

end Chosen

variable {scope : Scope} {n : Node TreeOperand} (scopeNamed : scope.Named) (named : n.Named)
  (apart : n.endsBare → n.ty.isArray = false ∧ n.ty.isClassPtr = false)
  (h : ∀ x ∈ n.shape.operandsOf, x.Shows scope)

section Plain

include scopeNamed named h

theorem plainText_shows (position : Precedence) :
    Gives (Shows · (n.hasBare scope) (position = .primary → n.endsBare)) (n.plainText scope position) := by
  -- No other texts than those of literals and signs end in a string literal.
  have shut {text : String} {P : Prop} (shows' : Shows text P False) (same : P ↔ n.hasBare scope) :
      Shows text (n.hasBare scope) (position = .primary → n.endsBare) :=
    (shows'.congr same).mono False.elim
  have leveled {text : String} {P : Prop} (shows' : Shows text P (position ≠ .primary))
      (same : P ↔ n.hasBare scope) :
      Shows text (n.hasBare scope) (position = .primary → n.endsBare) :=
    (shows'.congr same).mono fun other primary => absurd primary other
  obtain ⟨shape, ty⟩ := n
  cases shape with
  | literal value =>
    refine value.text_shows.mono fun text shows' => (shows'.congr ?_).mono fun isString _ => ?_
    · simp
    · obtain ⟨s, rfl⟩ := isString
      exact .inl ⟨s, rfl⟩
  | symbol target =>
    exact (target.text_quiet scopeNamed named).mono fun text quiet => shut (.of_quiet quiet) (by simp)
  | member object target =>
    exact (memberText_shows named (h object (by simp))).mono fun text shows' =>
      shut shows' (by simp [or_comm])
  | unary op x =>
    refine (unaryText_shows op (h x (by simp))).mono fun text shows' =>
      (shows'.congr ?_).mono fun bare _ => ?_
    · simp
    · obtain ⟨inner, isBare, merges⟩ := bare
      exact .inr ⟨op, x, inner, rfl, isBare, merges⟩
  | step op x =>
    exact (stepText_shows op (h x (by simp))).mono fun text shows' => shut shows' (by simp)
  | binary op left right =>
    exact (binaryText_shows op position (h left (by simp)) (h right (by simp))).mono
      fun text shows' => leveled shows' (by simp)
  | select test positive negative =>
    exact (selectText_shows ty position (h test (by simp)) (h positive (by simp))
      (h negative (by simp))).mono fun text shows' => leveled shows' (hasBare_of_select rfl)
  | call object method args =>
    obtain ⟨ho, ha⟩ := List.forall_mem_cons.1 h
    cases method with
    | user owner index =>
      intro text printed
      obtain ⟨method, found, printed⟩ := bind_eq_ok_iff.1 printed
      have whole := methodCallText_shows (scopeNamed.method found) ho ha text printed
      exact shut whole (by simp [found, or_assoc, or_left_comm])
    | library method =>
      exact (libraryCallText_shows position named ty ho ha).mono fun text shows' =>
        leveled shows' Iff.rfl
  | newObject target =>
    refine (scopeNamed.className_isTaken target).bind fun name member => .ok (shut (.of_quiet ?_) ?_)
    · exact (IsQuiet.append (by decide) member.quiet).append (by decide)
    · simp
  | newArray element length =>
    refine (element.spelling_quiet scopeNamed false).bind fun ty quiet =>
      ((h length (by simp)).plain .argument).bind fun _ count => .ok ?_
    have front : IsQuiet ("std::make_shared<" ++ ty ++ "[]>(") :=
      (IsQuiet.append (by decide) quiet).append (by decide)
    exact shut ((count.headed front).followed (by decide)) (by simp)
  | aggregate items =>
    exact (aggregateText_shows ty h).mono fun text shows' => shut shows' (by simp)
  | resource name =>
    exact .ok (shut (.of_quiet (quiet_resourceReference name)) (by simp))

theorem plainText_showsBare (position : Precedence) :
    Gives (Shows · (n.hasBare scope) True) (n.plainText scope position) :=
  (plainText_shows scopeNamed named h position).mono fun _ plain => plain.mono fun _ => trivial

theorem castText_shows (target : Ty) :
    Gives (Shows · (n.hasBare scope) True) (n.castText scope target) := by
  have inner : ∀ operand?, n.castOperand? Operand.literal? target = .ok operand? →
      Gives (Shows · (n.hasBare scope) True) (n.castInner scope operand?) := by
    intro operand? chosen
    cases operand? with
    | none =>
      exact plainText_showsBare scopeNamed named h .argument
    | some operand =>
      exact ((h operand (mem_operandsOf_of_castOperand? chosen)).plain .argument).mono fun _ plain =>
        plain.congr (hasBare_of_castOperand? chosen)
  rw [castText_eq]
  refine Gives.bind inner fun operand? inside =>
    (target.spelling_quiet scopeNamed false).bind fun ty quiet => inside.bind fun _ text => .ok ?_
  have front : IsQuiet ("static_cast<" ++ ty ++ ">(") :=
    (IsQuiet.append (by decide) quiet).append (by decide)
  exact ((text.headed front).followed (by decide)).mono False.elim

theorem numberText_shows (target : Ty) (position : Precedence) :
    Gives (Shows · (n.hasBare scope) True) (n.numberText scope target position) := by
  unfold numberText
  split
  · exact plainText_showsBare scopeNamed named h position
  · exact (plainText_shows scopeNamed named h .primary).bind fun _ plain =>
      .ok ((plain.followed (by decide)).mono False.elim)
  · exact castText_shows scopeNamed named h target
  · rename_i operand chosen
    exact ((h operand (mem_operandsOf_of_numericCoercion chosen)).form _ _).mono fun _ cast =>
      cast.congr (hasBare_of_numericCoercion chosen)

theorem valueText_shows (target : Ty) (position : Precedence) :
    Gives (Shows · (n.hasBare scope) True) (n.valueText scope target position) := by
  unfold valueText
  split
  · rename_i test positive negative shape
    rw [shape] at h
    exact (selectText_shows target position (h test (by simp))
      (h positive (by simp)) (h negative (by simp))).mono
        fun _ select => (select.congr (hasBare_of_select shape)).mono fun _ => trivial
  · exact numberText_shows scopeNamed named h target position

end Plain

include scopeNamed named apart h

/-- What is taken out of an array or a pointer is not taken out of a string literal. -/
theorem takenText_shows {tail : String} (quiet : IsQuiet tail)
    (holds : n.ty.isArray = true ∨ n.ty.isClassPtr = true) :
    Gives (Shows · (n.hasBare scope) True) (do return (← n.plainText scope .primary) ++ tail) := by
  refine (plainText_shows scopeNamed named h .primary).bind fun text plain => .ok ?_
  have shut : ¬ EndsBare text := by
    intro ends
    obtain ⟨noArray, noPointer⟩ := apart (plain.ends ends rfl)
    rw [noArray, noPointer] at holds
    exact holds.elim nofun nofun
  exact (plain.taken shut quiet).mono False.elim

theorem arrayPointerText_shows (position : Precedence) :
    Gives (Shows · (n.hasBare scope) True) (n.arrayPointerText scope position) := by
  unfold arrayPointerText
  split
  · rename_i isStorage
    exact takenText_shows scopeNamed named apart h (by decide) (.inl (by rw [isStorage]; rfl))
  · rename_i isShared
    exact takenText_shows scopeNamed named apart h (by decide) (.inl (by rw [isShared]; rfl))
  · exact plainText_showsBare scopeNamed named h position

theorem coercedText_shows (target : Ty) (position : Precedence) :
    Gives (Shows · (n.hasBare scope) True) (n.coercedText scope target position) := by
  unfold coercedText
  split
  · exact valueText_shows scopeNamed named h _ position
  · exact valueText_shows scopeNamed named h _ position
  · exact (plainText_showsBare scopeNamed named h .primary).bind fun _ plain =>
      .ok (plain.headed (by decide))
  · rename_i isShared
    exact takenText_shows scopeNamed named apart h (by decide) (.inr (by rw [isShared]; rfl))
  · exact arrayPointerText_shows scopeNamed named apart h position
  · exact valueText_shows scopeNamed named h _ position

theorem text_shows (form : Form) (position : Precedence) :
    Gives (Shows · (n.hasBare scope) True) (n.text scope form position) := by
  cases form with
  | plain =>
    exact plainText_showsBare scopeNamed named h position
  | coerced target => exact coercedText_shows scopeNamed named apart h target position
  | cast target => exact castText_shows scopeNamed named h target
  | arrayPointer => exact arrayPointerText_shows scopeNamed named apart h position

end Node

theorem Node.named_map (scope : Scope) (n : Node (Unit → Expr)) :
    (n.map (Expr.operand scope)).Named ↔ n.Named := by
  obtain ⟨shape, ty⟩ := n
  cases shape <;> rfl

/-- Every text of an expression shows whether it has a bare receiver. -/
theorem Expr.operand_shows {scope : Scope} (scopeNamed : scope.Named) {e : Expr}
    (named : e.Every Node.Named) (apart : e.Every Node.IsBareApart) :
    (Expr.operand scope fun _ => e).Shows scope := by
  induction e using Expr.induction with
  | dangling =>
    exact ⟨fun form position => .error _, .error _, nofun, nofun⟩
  | node n below =>
    obtain ⟨namedHere, namedBelow⟩ := named.parts
    obtain ⟨apartHere, apartBelow⟩ := apart.parts
    have h : ∀ x ∈ (n.map (Expr.operand scope)).shape.operandsOf, x.Shows scope := by
      intro x member
      rw [Node.map, Shape.operandsOf_map] at member
      obtain ⟨e, listed, rfl⟩ := List.mem_map.1 member
      exact below e listed (namedBelow e listed) (apartBelow e listed)
    have named' := (Node.named_map scope n).2 namedHere
    have same := Expr.hasBareReceiver_node scope n
    have ends := Node.endsBare_map_iff scope n
    have apart' : (n.map (Expr.operand scope)).endsBare → n.ty.isArray = false ∧ n.ty.isClassPtr = false :=
      fun bare => apartHere (ends.1 bare)
    have printed (form : Form) (position : Precedence) :
        (Expr.operand scope fun _ => .node n).text form position =
          (n.map (Expr.operand scope)).text scope form position := by
      rw [Expr.operand, Expr.text_node]
    refine ⟨fun form position => ?_, ?_, fun text bare => ?_, fun isBare => ?_⟩
    · rw [printed, Operand.hasBare]
      exact (Node.text_shows scopeNamed named' apart' h form position).mono fun _ shows' =>
        shows'.congr same.symm
    · rw [Operand.plain, printed]
      exact (Node.plainText_shows scopeNamed named' h .primary).mono fun _ shows' bare =>
        ends.1 (shows'.ends bare rfl)
    · obtain ⟨plain, bare'⟩ := @Expr.text_of_bareText? scope _ _ bare
      exact ⟨plain .primary, bare'⟩
    · exact .ok (apartHere isBare).2

/-- A dot stands behind a string literal without a suffix, in the tokens of the text of an expression,
exactly if the expression takes something out of a bare literal by a dot, as the length of a string or as
a member, or out of one behind a sign. Names are those of the printed language, and bare literals are no
arrays and no pointers. Where nothing is taken out of a number, the text has tokens. -/
theorem bare_receiver_iff {scope : Scope} (scopeNamed : scope.Named) {e : Expr}
    (named : e.Every Node.Named) (apart : e.Every Node.IsBareApart) {p : Precedence} {text : String}
    (printed : e.text scope .plain p = .ok text) :
    (∀ ts, Spells text ts → (HasBareReceiver ts ↔ e.HasBareReceiver scope)) ∧
      (e.Every Node.IsApart → ∃ ts, Spells text ts) := by
  refine ⟨fun ts spells => ?_, fun noNumber => ?_⟩
  · have shows' := (Expr.operand_shows scopeNamed named apart).form .plain p text printed
    have noDot : (Watch.code.read text.toList).2 ≠ .dotted := by
      intro dotted
      rcases shows'.settled with code | closed
      · rw [code] at dotted
        cases dotted
      · rw [show (Watch.code.read text.toList).2 = _ from closed] at dotted
        cases dotted
    rw [Watch.sees_iff spells, shows'.exact, or_iff_left noDot]
    rfl
  · obtain ⟨ts, t, phrase, -⟩ := (Expr.isRead scopeNamed named noNumber).phrase printed
    exact ⟨ts, phrase.spells⟩

/-- A string literal. -/
def stringValue (s : String) : Node (Unit → Expr) := ⟨.literal (.string s), .string .view⟩

theorem stringValue_every {property : Node (Unit → Expr) → Prop} {s : String}
    (here : property (stringValue s)) : (Expr.node (stringValue s)).Every property :=
  .node _ here (List.forall_mem_nil _)

/-- The position of one string in another. -/
def literalQuery : Node (Unit → Expr) :=
  ⟨.call (fun _ => .node (stringValue "abc")) (.library .stringIndexOf)
    [fun _ => .node (stringValue "b")], .i32⟩

theorem bare_receiver_iff_query :
    (Expr.node literalQuery).Every Node.Named ∧ (Expr.node literalQuery).Every Node.IsBareApart ∧
    (Expr.node literalQuery).text ⟨#[], #[]⟩ .plain .statement =
      .ok "static_cast<int32_t>(\"abc\"sv.find(\"b\"))" ∧
    ∃ ts, Spells "static_cast<int32_t>(\"abc\"sv.find(\"b\"))" ts ∧ ¬ HasBareReceiver ts := by
  have scopeNamed : Scope.Named ⟨#[], #[]⟩ := ⟨by simp, by simp, by simp⟩
  have operands {property : Node (Unit → Expr) → Prop} (each : ∀ s, property (stringValue s)) :
      ∀ e ∈ literalQuery.shape.operandsOf, (e ()).Every property :=
    List.forall_mem_cons.2 ⟨stringValue_every (each "abc"),
      List.forall_mem_singleton.2 (stringValue_every (each "b"))⟩
  have named : (Expr.node literalQuery).Every Node.Named := .node _ trivial (operands fun _ => trivial)
  have apart : (Expr.node literalQuery).Every Node.IsBareApart :=
    .node _ nofun (operands fun _ _ => ⟨rfl, rfl⟩)
  have noNumber : (Expr.node literalQuery).Every Node.IsApart :=
    .node _ ⟨fun _ => rfl, nofun⟩ (operands fun _ => ⟨trivial, nofun⟩)
  have printed : (Expr.node literalQuery).text ⟨#[], #[]⟩ .plain .statement =
      .ok "static_cast<int32_t>(\"abc\"sv.find(\"b\"))" := rfl
  obtain ⟨iff, spelled⟩ := bare_receiver_iff scopeNamed named apart printed
  obtain ⟨ts, spells⟩ := spelled noNumber
  refine ⟨named, apart, printed, ts, spells, fun bare => ?_⟩
  have noBare (s : String) : ¬ (Expr.node (stringValue s)).HasBareReceiver ⟨#[], #[]⟩ :=
    Expr.not_hasBareReceiver_of_literal? rfl
  cases (iff ts spells).1 bare with
  | here _ takes => cases takes.2.1
  | operand _ listed inside =>
    rcases List.mem_cons.1 listed with rfl | listed
    · exact noBare "abc" inside
    · obtain rfl := List.mem_singleton.1 listed
      exact noBare "b" inside

/-- The length of a string literal. -/
def literalLength : Node (Unit → Expr) :=
  ⟨.member (fun _ => .node (stringValue "abc")) .stringLength, .i32⟩

/-- The length of a string literal is taken out of the bare literal. -/
theorem length_of_literal_bare :
    (Expr.node literalLength).Every Node.Named ∧ (Expr.node literalLength).Every Node.IsBareApart ∧
    (Expr.node literalLength).text ⟨#[], #[]⟩ .plain .statement = .ok "\"abc\".length()" ∧
    Spells "\"abc\".length()" [.literal '\x22' "abc" "", .mark ".", .word "length", .mark "(", .mark ")"] ∧
    HasBareReceiver [.literal '\x22' "abc" "", .mark ".", .word "length", .mark "(", .mark ")"] := by
  refine ⟨?_, ?_, rfl, by decide, [], _, _, rfl, rfl⟩
  · exact .node _ trivial (List.forall_mem_singleton.2 (stringValue_every trivial))
  · exact .node _ nofun (List.forall_mem_singleton.2 (stringValue_every fun _ => ⟨rfl, rfl⟩))

end CppPrinter
