import CppPrinter.Proofs.Expr.RawPointer
import CppPrinter.Proofs.Reading.Tight

/-!
# Comparisons of pointers are read as comparisons of raw pointers

The text of an operand as a raw pointer is read to a tree, and that tree asks the whole operand for
its raw pointer or takes the address of the whole operand, branch by branch in a conditional
(`Expr.IsRawTree`), unless a shared pointer starts with a sign: what is asked for its raw pointer is
then what the sign stands before (`Expr.keepsShared`). So an equality compares raw pointers exactly
when no shared pointer in it starts with a sign (`equality_compares_raw_iff`).
-/

namespace CppPrinter

/-- The tree calls a method of the object without arguments. -/
def Tree.ask (method : String) (object : Tree) : Tree := .call (.member object "." [method]) .nil

/-- The tree asks the object for the pointer that it shares. -/
def Tree.get (object : Tree) : Tree := .call (.member object "." ["get"]) .nil

/-- The tree is that of the operand as a raw pointer. -/
inductive Expr.IsRawTree (scope : Scope) : Expr → Tree → Prop where
  | get {n : Node (Unit → Expr)} {inner : String} {object : Tree} (form : n.ty.rawForm = .get)
      (printed : (Expr.node n).text scope .plain .primary = .ok inner)
      (reads : Reads inner object) : IsRawTree scope (.node n) object.get
  | address {n : Node (Unit → Expr)} {inner : String} {object : Tree}
      (form : n.ty.rawForm = .address)
      (printed : (Expr.node n).text scope .plain .primary = .ok inner)
      (reads : Reads inner object) : IsRawTree scope (.node n) (.prefixed "&" object)
  | branches {test positive negative : Unit → Expr} {ty : Ty} {shown : String} {c t e : Tree}
      (form : ty.rawForm = .plain) (printed : (test ()).text scope .plain .condOr = .ok shown)
      (reads : Reads shown c) :
      IsRawTree scope (positive ()) t → IsRawTree scope (negative ()) e →
      IsRawTree scope (.node ⟨.select test positive negative, ty⟩) (.cond c t e)
  | plain {n : Node (Unit → Expr)} {shown : String} {t : Tree} (form : n.ty.rawForm = .plain)
      (noSelect : ∀ test positive negative, n.shape ≠ .select test positive negative)
      (printed : (Expr.node n).text scope .plain .statement = .ok shown)
      (reads : Reads shown t) : IsRawTree scope (.node n) t

/-- No shared pointer among those that the operand comes down to starts with a sign. -/
def Expr.keepsShared : Expr → Bool
  | .dangling => true
  | .node ⟨shape, ty⟩ =>
    match ty.rawForm with
    | .get => !(Expr.node ⟨shape, ty⟩).leads
    | .address => true
    | .plain =>
      match shape with
      | .select _ positive negative => (positive ()).keepsShared && (negative ()).keepsShared
      | _ => true

section Keeping

variable {shape : Shape (Unit → Expr)} {ty : Ty}

theorem Expr.keepsShared_get (form : ty.rawForm = .get) :
    (Expr.node ⟨shape, ty⟩).keepsShared = !(Expr.node ⟨shape, ty⟩).leads := by
  unfold keepsShared
  simp only [form]

theorem Expr.keepsShared_address (form : ty.rawForm = .address) :
    (Expr.node ⟨shape, ty⟩).keepsShared = true := by
  unfold keepsShared
  simp only [form]

theorem Expr.keepsShared_select {test positive negative : Unit → Expr}
    (form : ty.rawForm = .plain) :
    (Expr.node ⟨.select test positive negative, ty⟩).keepsShared =
      ((positive ()).keepsShared && (negative ()).keepsShared) := by
  rw [keepsShared]
  simp only [form]

theorem Expr.keepsShared_plain (form : ty.rawForm = .plain)
    (noSelect : ∀ test positive negative, shape ≠ .select test positive negative) :
    (Expr.node ⟨shape, ty⟩).keepsShared = true := by
  cases shape with
  | select test positive negative => exact absurd rfl (noSelect test positive negative)
  | _ => simp only [keepsShared, form]

end Keeping

section Reading

variable {scope : Scope} {text : String} {p : Precedence}

/-- Behind an operand, the call of a method without arguments. -/
theorem IsOperandAs.isKept_ask {leads numeral : Bool} {ts : List Token} {object : Tree}
    (h : IsOperandAs leads numeral text ts object) (noNumber : numeral = false) {method : String}
    (identifier : IsIdentifier method) :
    IsKept (leads = false) (· = object.ask method) (text ++ ("." ++ method ++ "()")) := by
  have isMember : "." ∈ memberOps := by decide
  have empty : Spells "" [] := by decide
  have trail := (Trail.member isMember identifier).append (.call empty .noItem)
  have apart : "." = "." → ¬ EndsNumber ts := by
    intro _ ends
    rw [h.ends ends] at noNumber
    cases noNumber
  have back : "()" = "(" ++ ("" ++ ")") := by decide
  rw [back]
  apply h.isKept_behind trail apart
  · intro noLead
    exact ⟨fun _ => noLead, fun _ => rfl⟩
  · intro isLead noLead
    rw [isLead] at noLead
    cases noLead
  · intro op v same
    cases same

/-- Parentheses around a text leave its tree alone. -/
theorem Wraps.reads {x y : Rendered String} (h : Wraps x y) {t : Tree} (printed : x = .ok text)
    (reads : ReadsAt p text t) (phrased : ∀ {bare}, y = .ok bare → IsPhraseAt .statement bare) :
    ∃ bare, y = .ok bare ∧ Reads bare t := by
  rcases h with same | wrapped
  · rw [same] at printed
    obtain ⟨ts, spells, derives⟩ := reads
    exact ⟨text, printed, ts, spells, .loosen (Nat.zero_le _) derives⟩
  · rw [wrapped] at printed
    obtain ⟨bare, isBare, rfl⟩ : ∃ bare, y = .ok bare ∧ "(" ++ bare ++ ")" = text := by
      simpa using printed
    obtain ⟨ts, u, phrase, derives⟩ := phrased isBare
    have whole : Reads ("(" ++ bare ++ ")") u :=
      ⟨_, (Phrase.paren phrase.spells).spells, derives.parenthesized.ofTightAt .statement⟩
    rw [← reads.unique whole]
    exact ⟨bare, isBare, ts, phrase.spells, derives⟩

/-- A conditional is read from its parts. -/
theorem ReadsAt.cond_parts {shown positive negative : String} (test : IsPhraseAt .condOr shown)
    (first : IsPhraseAt .select positive) (second : IsPhraseAt .select negative) {t : Tree}
    (reads : ReadsAt p (Precedence.select.parenthesize p
      (shown ++ " ? " ++ positive ++ " : " ++ negative)) t) :
    ∃ c l r, t = .cond c l r ∧ Reads shown c ∧ ReadsAt .select positive l ∧
      ReadsAt .select negative r := by
  obtain ⟨cs, c, phrase, derives⟩ := test
  obtain ⟨ls, l, phrase', derives'⟩ := first
  obtain ⟨rs, r, phrase'', derives''⟩ := second
  have whole : ReadsAt .select (shown ++ " ? " ++ positive ++ " : " ++ negative) (.cond c l r) :=
    ⟨_, (phrase.cond phrase' phrase'').spells, .cond derives
      (.loosen (by decide) derives') (.loosen (by decide) derives'')⟩
  obtain ⟨us, spells, derivesWhole⟩ := whole.parenthesize p
  refine ⟨c, l, r, ?_, ⟨cs, phrase.spells, .loosen (Nat.zero_le _) derives⟩,
    ⟨ls, phrase'.spells, derives'⟩, ⟨rs, phrase''.spells, derives''⟩⟩
  exact (reads.unique ⟨us, spells, .loosen (Nat.zero_le _) derivesWhole⟩).symm

variable (scopeNamed : scope.Named)

include scopeNamed

/-- Every operand is read as a raw pointer of some kind. -/
theorem Expr.rawText_isPhraseAt {e : Expr} (named : Expr.Every Node.Named e)
    (apart : Expr.Every Node.IsApart e) (printed : e.rawText scope p = .ok text) :
    IsPhraseAt p text := by
  rw [← Expr.text_coerced_eq_rawText e ⟨0⟩] at printed
  exact (Expr.isRead scopeNamed named apart).coerced printed

/-- The call of a method behind an operand is one of the whole operand unless a sign stands in front. -/
theorem Expr.ask_reads {e : Expr} (named : Expr.Every Node.Named e) (apart : Expr.Every Node.IsApart e)
    (noNumber : e.endsNumber = false) {method : String} (identifier : IsIdentifier method)
    {inner : String} (printed : e.text scope .plain .primary = .ok inner) {t : Tree}
    (reads : ReadsAt p (inner ++ ("." ++ method ++ "()")) t) :
    ∃ object, Reads inner object ∧ (t = object.ask method ↔ e.leads = false) := by
  obtain ⟨ts, object, operand⟩ := (Expr.isRead scopeNamed named apart).primary printed
  obtain ⟨us, u, spells, -, derives, kept, -⟩ := operand.isKept_ask noNumber identifier
  refine ⟨object, ⟨ts, operand.phrase.spells, operand.derives.ofPrimary .statement⟩, ?_⟩
  rwa [← reads.unique ⟨us, spells, derives.ofPrimary .statement⟩]

/-- The tree of a shared operand is that of its raw pointer unless a sign stands in front. -/
theorem Expr.isRawTree_iff_get {n : Node (Unit → Expr)} (form : n.ty.rawForm = .get)
    (named : Expr.Every Node.Named (.node n)) (apart : Expr.Every Node.IsApart (.node n))
    (printed : (Expr.node n).rawText scope p = .ok text) {t : Tree} (reads : ReadsAt p text t) :
    (Expr.node n).IsRawTree scope t ↔ (Expr.node n).leads = false := by
  rw [rawText_get form] at printed
  obtain ⟨inner, printedInner, rfl⟩ : ∃ inner,
      (Expr.node n).text scope .plain .primary = .ok inner ∧ inner ++ ".get()" = text := by
    simpa using printed
  have noNumber : (Expr.node n).endsNumber = false := by
    refine apart.parts.1.noNumber (.inr ?_)
    obtain ⟨shape, ty⟩ := n
    cases ty with
    | classPtr ownership pointee => rfl
    | _ => cases form
  have get : IsIdentifier "get" := by decide
  obtain ⟨object, own, kept⟩ := ask_reads scopeNamed named apart noNumber get printedInner reads
  refine Iff.trans ⟨?_, ?_⟩ kept
  · intro isRaw
    cases isRaw with
    | get _ printed' reads' =>
      rw [printedInner] at printed'
      cases printed'
      obtain rfl := ReadsAt.unique own reads'
      rfl
    | address form' => rw [form] at form'; cases form'
    | branches form' => rw [form] at form'; cases form'
    | plain form' => rw [form] at form'; cases form'
  · rintro rfl
    exact .get form printedInner own

/-- The tree of an object is that of its address. -/
theorem Expr.isRawTree_address {n : Node (Unit → Expr)} (form : n.ty.rawForm = .address)
    (named : Expr.Every Node.Named (.node n)) (apart : Expr.Every Node.IsApart (.node n))
    (printed : (Expr.node n).rawText scope p = .ok text) {t : Tree} (reads : ReadsAt p text t) :
    (Expr.node n).IsRawTree scope t := by
  rw [rawText_address form] at printed
  obtain ⟨inner, printedInner, rfl⟩ : ∃ inner,
      (Expr.node n).text scope .plain .primary = .ok inner ∧ "&" ++ inner = text := by
    simpa using printed
  obtain ⟨ts, object, operand⟩ := (Expr.isRead scopeNamed named apart).primary printedInner
  have own : Reads inner object := ⟨ts, operand.phrase.spells, operand.derives.ofPrimary .statement⟩
  have isPrefix : "&" ∈ prefixOps := by decide
  have whole : Reads ("&" ++ inner) (.prefixed "&" object) :=
    ⟨_, (IsOperand.address_phrase operand).spells,
      (Derives.prefixed isPrefix operand.derives).ofPrimary .statement⟩
  rw [← reads.unique whole]
  exact .address form printedInner own

/-- The tree of a conditional is that of raw pointers when the trees of its branches are. -/
theorem Expr.isRawTree_iff_select {test positive negative : Unit → Expr} {ty : Ty}
    (form : ty.rawForm = .plain)
    (named : Expr.Every Node.Named (.node ⟨.select test positive negative, ty⟩))
    (apart : Expr.Every Node.IsApart (.node ⟨.select test positive negative, ty⟩))
    (branch : ∀ e ∈ [positive, negative], ∀ {p text t}, (e ()).rawText scope p = .ok text →
      ReadsAt p text t → ((e ()).IsRawTree scope t ↔ (e ()).keepsShared = true))
    (printed : (Expr.node ⟨.select test positive negative, ty⟩).rawText scope p = .ok text)
    {t : Tree} (reads : ReadsAt p text t) :
    (Expr.node ⟨.select test positive negative, ty⟩).IsRawTree scope t ↔
      (positive ()).keepsShared = true ∧ (negative ()).keepsShared = true := by
  rw [rawText_select form] at printed
  obtain ⟨shown, printedTest, positiveText, printedPositive, negativeText, printedNegative,
      rfl⟩ : ∃ shown, (test ()).text scope .plain .condOr = .ok shown ∧ ∃ positiveText,
        (positive ()).rawText scope .select = .ok positiveText ∧ ∃ negativeText,
          (negative ()).rawText scope .select = .ok negativeText ∧
            Precedence.select.parenthesize p
              (shown ++ " ? " ++ positiveText ++ " : " ++ negativeText) = text := by
    simpa using printed
  have below (e : Unit → Expr) (member : e ∈ [test, positive, negative]) :
      Expr.Every Node.Named (e ()) ∧ Expr.Every Node.IsApart (e ()) :=
    ⟨named.parts.2 e member, apart.parts.2 e member⟩
  obtain ⟨namedTest, apartTest⟩ := below test (by simp)
  obtain ⟨namedPositive, apartPositive⟩ := below positive (by simp)
  obtain ⟨namedNegative, apartNegative⟩ := below negative (by simp)
  obtain ⟨c, l, r, rfl, readsTest, readsPositive, readsNegative⟩ := reads.cond_parts
    ((Expr.isRead scopeNamed namedTest apartTest).phrase printedTest)
    (rawText_isPhraseAt scopeNamed namedPositive apartPositive printedPositive)
    (rawText_isPhraseAt scopeNamed namedNegative apartNegative printedNegative)
  rw [← branch positive (by simp) printedPositive readsPositive,
    ← branch negative (by simp) printedNegative readsNegative]
  constructor
  · intro isRaw
    cases isRaw with
    | branches _ _ _ isPositive isNegative => exact ⟨isPositive, isNegative⟩
    | plain _ noSelect => exact absurd rfl (noSelect test positive negative)
  · rintro ⟨isPositive, isNegative⟩
    exact .branches form printedTest readsTest isPositive isNegative

/-- The tree of an operand is that of a raw pointer unless a sign starts a shared one. -/
theorem Expr.isRawTree_iff {e : Expr} (named : Expr.Every Node.Named e)
    (apart : Expr.Every Node.IsApart e) (printed : e.rawText scope p = .ok text) {t : Tree}
    (reads : ReadsAt p text t) : e.IsRawTree scope t ↔ e.keepsShared = true := by
  induction e using Expr.induction generalizing p text t with
  | dangling => cases printed
  | node n ih =>
    have whole := Expr.isRead scopeNamed named apart
    obtain ⟨shape, ty⟩ := n
    cases form : ty.rawForm with
    | get =>
      rw [isRawTree_iff_get scopeNamed form named apart printed reads, keepsShared_get form,
        Bool.not_eq_true']
    | address =>
      have isRaw := isRawTree_address scopeNamed form named apart printed reads
      simp only [isRaw, keepsShared_address form]
    | plain =>
      by_cases isSelect : ∃ test positive negative, shape = .select test positive negative
      · obtain ⟨test, positive, negative, rfl⟩ := isSelect
        rw [isRawTree_iff_select scopeNamed form named apart ?branch printed reads,
          keepsShared_select form, Bool.and_eq_true]
        case branch =>
          intro e member p text t printed reads
          have isOperand : e ∈ [test, positive, negative] := List.mem_cons_of_mem test member
          exact ih e isOperand (named.parts.2 e isOperand) (apart.parts.2 e isOperand) printed reads
      · have noSelect : ∀ test positive negative, shape ≠ .select test positive negative :=
          fun test positive negative same => isSelect ⟨test, positive, negative, same⟩
        rw [rawText_plain form noSelect] at printed
        obtain ⟨bare, isBare, reads'⟩ := (text_wraps p _).reads printed reads whole.phrase
        have isRaw : (Expr.node ⟨shape, ty⟩).IsRawTree scope t :=
          .plain form noSelect isBare reads'
        simp only [isRaw, keepsShared_plain form noSelect]

end Reading

/-- An equality of raw pointers is read as a comparison of what its operands are read to. -/
theorem rawEqualityText_reads {scope : Scope} (scopeNamed : scope.Named) {op : BinaryOp}
    (isEquality : op.isEquality = true) {left right : Expr}
    (named : Expr.Every Node.Named left ∧ Expr.Every Node.Named right)
    (apart : Expr.Every Node.IsApart left ∧ Expr.Every Node.IsApart right) {p : Precedence}
    {text : String} (printed : rawEqualityText scope op left right p = .ok text) :
    ∃ l r, ReadsAt p text (.binary op.symbol l r) ∧
      (left.IsRawTree scope l ↔ left.keepsShared = true) ∧
      (right.IsRawTree scope r ↔ right.keepsShared = true) := by
  obtain ⟨leftText, printedLeft, rightText, printedRight, rfl⟩ : ∃ leftText,
      left.rawText scope .equality = .ok leftText ∧ ∃ rightText,
        right.rawText scope .rel = .ok rightText ∧
          Precedence.equality.parenthesize p (between leftText op.symbol rightText) = text := by
    simpa [rawEqualityText] using printed
  obtain ⟨ls, l, phrase, derives⟩ :=
    Expr.rawText_isPhraseAt scopeNamed named.1 apart.1 printedLeft
  obtain ⟨rs, r, phrase', derives'⟩ :=
    Expr.rawText_isPhraseAt scopeNamed named.2 apart.2 printedRight
  obtain ⟨atLevel, spaced⟩ : (op.symbol, .equality) ∈ infixOps ∧
      Spells (" " ++ op.symbol) [.mark op.symbol] := by
    cases op with
    | eq | notEq => decide
    | _ => cases isEquality
  have whole : ReadsAt .equality (between leftText op.symbol rightText) (.binary op.symbol l r) :=
    ⟨_, (phrase.between spaced phrase').spells, .binary atLevel derives derives'⟩
  refine ⟨l, r, whole.parenthesize p, ?_, ?_⟩
  · apply Expr.isRawTree_iff scopeNamed named.1 apart.1 printedLeft
    exact ⟨ls, phrase.spells, derives⟩
  · apply Expr.isRawTree_iff scopeNamed named.2 apart.2 printedRight
    exact ⟨rs, phrase'.spells, derives'⟩

/-- Where the type of one operand accepts that of the other, an equality is printed from both
operands as raw pointers, in either order, and what becomes of an operand is the same in any
position, up to parentheses. The text is read to one tree, which compares what the operands are read
to, and these are the raw pointers of the whole operands exactly when no shared pointer among them
starts with a sign. -/
theorem equality_compares_raw_iff {scope : Scope} (inside : scope.ParentsExist) {op : BinaryOp}
    (isEquality : op.isEquality = true) {left right : Unit → Expr} {leftTy rightTy ty : Ty}
    (typed : (left ()).ty? = .ok leftTy) (typed' : (right ()).ty? = .ok rightTy)
    (resolves : leftTy.Resolves scope) (resolves' : rightTy.Resolves scope)
    (meets : scope.Accepts leftTy rightTy ∨ scope.Accepts rightTy leftTy) (p : Precedence) :
    (Expr.node ⟨.binary op left right, ty⟩).text scope .plain p =
      rawEqualityText scope op (left ()) (right ()) p ∧
    (Expr.node ⟨.binary op right left, ty⟩).text scope .plain p =
      rawEqualityText scope op (right ()) (left ()) p ∧
    (∀ (e : Expr) q, Wraps (e.rawText scope q) (e.rawText scope .statement)) ∧
    ∀ text, (Expr.node ⟨.binary op left right, ty⟩).text scope .plain p = .ok text →
      scope.Named → Expr.Every Node.Named (left ()) ∧ Expr.Every Node.Named (right ()) →
      Expr.Every Node.IsApart (left ()) ∧ Expr.Every Node.IsApart (right ()) →
      ∃ l r, ReadsAt p text (.binary op.symbol l r) ∧
        (∀ u, Reads text u → u = .binary op.symbol l r) ∧
        ((left ()).IsRawTree scope l ∧ (right ()).IsRawTree scope r ↔
          (left ()).keepsShared = true ∧ (right ()).keepsShared = true) := by
  have printsRaw : (Expr.node ⟨.binary op left right, ty⟩).text scope .plain p =
      rawEqualityText scope op (left ()) (right ()) p :=
    equality_text_eq_raw inside isEquality typed typed' resolves resolves' meets p
  refine ⟨printsRaw, ?_, fun e q => e.rawText_wraps q, ?_⟩
  · exact equality_text_eq_raw inside isEquality typed' typed resolves' resolves meets.symm p
  · intro text printed scopeNamed named apart
    rw [printsRaw] at printed
    obtain ⟨l, r, reads, iffLeft, iffRight⟩ :=
      rawEqualityText_reads scopeNamed isEquality named apart printed
    exact ⟨l, r, reads, fun u other => reads.unique other, and_congr iffLeft iffRight⟩

section Samples

/-- A class, one that inherits from it, and one that inherits from that one. -/
def threeGenerations : Scope := ⟨#[⟨"Node", none, []⟩, ⟨"Leaf", some ⟨0⟩, []⟩,
  ⟨"Bud", some ⟨1⟩, []⟩], #[]⟩

def localPointer (name : String) (ty : Ty) : Expr := .node ⟨.symbol (.localName name), ty⟩

/-- A shared pointer or a stored object, whichever a condition chooses. -/
def chosenPointer : Expr :=
  .node ⟨.select (fun _ => localPointer "found" .bool)
    (fun _ => localPointer "held" (.classPtr .shared ⟨2⟩))
    (fun _ => localPointer "stored" (.classValue ⟨1⟩)), .classPtr .writable ⟨2⟩⟩

/-- A shared pointer to the first generation. -/
def firstPointer : Expr := localPointer "first" (.classPtr .shared ⟨0⟩)

theorem equality_compares_raw_iff_chosen :
    threeGenerations.ParentsExist ∧ threeGenerations.Named ∧
    threeGenerations.Accepts (.classPtr .shared ⟨0⟩) (.classPtr .writable ⟨2⟩) ∧
    ∃ l r, ReadsAt .statement "(found ? held.get() : &stored) == first.get()" (.binary "==" l r) ∧
      chosenPointer.IsRawTree threeGenerations l ∧ firstPointer.IsRawTree threeGenerations r := by
  have inside : threeGenerations.ParentsExist := by
    unfold Scope.ParentsExist
    decide +kernel
  have scopeNamed : threeGenerations.Named := by
    constructor <;> decide
  have meets : threeGenerations.Accepts (.classPtr .shared ⟨0⟩) (.classPtr .writable ⟨2⟩) := by
    refine ⟨.shared, ⟨0⟩, rfl, .inr ⟨⟨2⟩, .inl ⟨.writable, rfl⟩, ?_⟩⟩
    exact .head ⟨_, rfl, rfl⟩ (.single ⟨_, rfl, rfl⟩)
  have namedLocal {name : String} (ty : Ty) (isName : IsIdentifier name) :
      Expr.Every Node.Named (localPointer name ty) := .node _ isName (List.forall_mem_nil _)
  have apartLocal (name : String) (ty : Ty) : Expr.Every Node.IsApart (localPointer name ty) :=
    .node _ ⟨trivial, fun ends => absurd ends Bool.false_ne_true⟩ (List.forall_mem_nil _)
  have named : Expr.Every Node.Named chosenPointer := by
    refine .node _ trivial ?_
    simp only [Shape.operandsOf, List.forall_mem_cons]
    exact ⟨namedLocal _ (by decide), namedLocal _ (by decide), namedLocal _ (by decide),
      List.forall_mem_nil _⟩
  have apart : Expr.Every Node.IsApart chosenPointer := by
    refine .node _ ⟨trivial, fun ends => absurd ends Bool.false_ne_true⟩ ?_
    simp only [Shape.operandsOf, List.forall_mem_cons]
    exact ⟨apartLocal _ _, apartLocal _ _, apartLocal _ _, List.forall_mem_nil _⟩
  have resolves : (Ty.classPtr .writable ⟨2⟩).Resolves threeGenerations := by
    show 2 < 3
    omega
  have resolves' : (Ty.classPtr .shared ⟨0⟩).Resolves threeGenerations := by
    show 0 < 3
    omega
  obtain ⟨-, -, -, reads⟩ := @equality_compares_raw_iff threeGenerations inside .eq rfl
    (fun _ => chosenPointer) (fun _ => firstPointer) (.classPtr .writable ⟨2⟩)
    (.classPtr .shared ⟨0⟩) .bool rfl rfl resolves resolves' (.inr meets) .statement
  obtain ⟨l, r, readsWhole, -, raw⟩ := reads "(found ? held.get() : &stored) == first.get()" rfl
    scopeNamed ⟨named, namedLocal _ (by decide)⟩ ⟨apart, apartLocal _ _⟩
  obtain ⟨rawLeft, rawRight⟩ := raw.2 ⟨rfl, rfl⟩
  exact ⟨inside, scopeNamed, meets, l, r, readsWhole, rawLeft, rawRight⟩

/-- A shared pointer, stepped. -/
def steppedPointer : Expr :=
  .node ⟨.unary .increment fun _ => localPointer "p" (.classPtr .shared ⟨0⟩), .classPtr .shared ⟨0⟩⟩

/-- A pointer that is not shared. -/
def borrowedPointer : Expr := localPointer "q" (.classPtr .readOnly ⟨0⟩)

/-- What is asked for its raw pointer behind a sign is not what the sign makes of it. -/
theorem get_behind_sign_torn :
    threeGenerations.Accepts (.classPtr .shared ⟨0⟩) (.classPtr .readOnly ⟨0⟩) ∧
      (Expr.node ⟨.binary .eq (fun _ => steppedPointer) (fun _ => borrowedPointer), .bool⟩).text
        threeGenerations .plain .statement = .ok "++p.get() == q" ∧
      Reads "++p" (.prefixed "++" (.name ["p"])) ∧
      Reads "++p.get() == q"
        (.binary "==" (.prefixed "++" (Tree.get (.name ["p"]))) (.name ["q"])) ∧
      ∀ l r, steppedPointer.IsRawTree threeGenerations l →
        ¬ Reads "++p.get() == q" (.binary "==" l r) := by
  have isPrefix : "++" ∈ prefixOps := by decide
  have p : Derives .tight [.word "p"] (.name ["p"]) := .name (by decide)
  have q : Derives .tight [.word "q"] (.name ["q"]) := .name (by decide)
  have inner : Reads "++p" (.prefixed "++" (.name ["p"])) :=
    ⟨_, by decide, (Derives.prefixed isPrefix (.ofTight p)).ofPrimary _⟩
  have asked : Derives .tight
      ([Token.word "p"] ++ [Token.mark ".", .word "get"] ++ .mark "(" :: ([] ++ [Token.mark ")"]))
      (Tree.get (.name ["p"])) := .call (.member (by decide) (by decide) p) .noItem
  have atLevel : ("==", .equality) ∈ infixOps := by decide
  have whole : Reads "++p.get() == q"
      (.binary "==" (.prefixed "++" (Tree.get (.name ["p"]))) (.name ["q"])) := by
    refine ⟨_, ?_, .loosen (Nat.zero_le _) (.binary atLevel
      ((Derives.prefixed isPrefix (.ofTight asked)).ofPrimary _) (q.ofTightAt _))⟩
    decide +kernel
  refine ⟨⟨.shared, ⟨0⟩, rfl, .inr ⟨⟨0⟩, .inl ⟨.readOnly, rfl⟩, .refl⟩⟩, rfl, inner, whole, ?_⟩
  intro l r isRaw other
  have same := whole.unique other
  cases isRaw with
  | get => cases same
  | address form => cases form
  | plain form => cases form

end Samples

end CppPrinter
