import CppPrinter.Output.Artifact
import CppPrinter.Proofs.Expr.Decay
import CppPrinter.Proofs.Reading.RawPointer

/-!
# Arrays are read as raw pointers

The text of an array as a raw pointer is read to a tree, and that tree asks what holds the array for its first
element as a whole, leaves a raw pointer as it stands, and does so branch by branch in a conditional
(`Expr.DecaysTo`). This fails where the type says that the array is held otherwise than it is, and where what
is asked starts with a sign (`Expr.decaysTo_iff`). Conversions to pointers that are not shared, copies and
decoding go from that text on (`arrays_decay_iff`).
-/

namespace CppPrinter

/-- The tree is that of the array as a raw pointer: what holds it otherwise is asked for its first element as
a whole, a raw pointer is printed as it would stand, and a conditional chooses between raw pointers. -/
inductive Expr.DecaysTo (scope : Scope) : Expr → Tree → Prop where
  | ask {n : Node (Unit → Expr)} {held : Held} {method inner : String} {object : Tree}
      (holds : (Expr.node n).held? = some held) (asks : held.accessor? = some method)
      (printed : (Expr.node n).text scope .plain .primary = .ok inner)
      (followed : ∀ p, (Expr.node n).text scope .arrayPointer p = .ok (asked inner method))
      (reads : Reads inner object) : DecaysTo scope (.node n) (object.ask method)
  | pass {n : Node (Unit → Expr)} {held : Held} {shown : String} {t : Tree}
      (noSelect : ∀ test positive negative, n.shape ≠ .select test positive negative)
      (holds : (Expr.node n).held? = some held) (passes : held.accessor? = none)
      (unchanged : ∀ p, (Expr.node n).text scope .arrayPointer p = (Expr.node n).text scope .plain p)
      (printed : (Expr.node n).text scope .plain .statement = .ok shown)
      (reads : Reads shown t) : DecaysTo scope (.node n) t
  | branches {test positive negative : Unit → Expr} {ty : Ty} {shown : String} {c t e : Tree}
      (printed : (test ()).text scope .plain .condOr = .ok shown) (reads : Reads shown c) :
      DecaysTo scope (positive ()) t → DecaysTo scope (negative ()) e →
      DecaysTo scope (.node ⟨.select test positive negative, ty⟩) (.cond c t e)

section Reading

variable {scope : Scope} {text : String} {p : Precedence}

/-- What is printed as it would stand is not asked for anything. -/
theorem Expr.not_asked_of_passed {n : Node (Unit → Expr)} (passes : n.ty.accessor? = none)
    {inner method : String} (printed : (Expr.node n).text scope .plain .primary = .ok inner) :
    (Expr.node n).text scope .arrayPointer .primary ≠ .ok (asked inner method) := by
  rw [text_arrayPointer_passed passes, printed, Ne, Except.ok.injEq]
  exact (asked_ne inner method).symm

variable (scopeNamed : scope.Named)

include scopeNamed

/-- The tree of an array that is asked for its first element is that of a raw pointer if it is held so, and if
no sign stands in front. -/
theorem Expr.decaysTo_iff_asked {n : Node (Unit → Expr)} {method : String}
    (asks : n.ty.accessor? = some method) (named : Expr.Every Node.Named (.node n))
    (apart : Expr.Every Node.IsApart (.node n))
    (printed : (Expr.node n).text scope .arrayPointer p = .ok text) {t : Tree} (reads : ReadsAt p text t) :
    (Expr.node n).DecaysTo scope t ↔
      (Expr.node n).held?.map Held.accessor? = some (some method) ∧ (Expr.node n).leads = false := by
  have shape (p : Precedence) := @text_arrayPointer_asked scope n p method asks
  rw [shape] at printed
  obtain ⟨inner, printedInner, rfl⟩ : ∃ inner,
      (Expr.node n).text scope .plain .primary = .ok inner ∧ asked inner method = text := by
    simpa using printed
  have whole (p : Precedence) : (Expr.node n).text scope .arrayPointer p = .ok (asked inner method) := by
    rw [shape, printedInner]
    rfl
  have noNumber := apart.parts.1.noNumber (.inl (Ty.isArray_of_accessor? asks))
  obtain ⟨object, own, kept⟩ :=
    ask_reads scopeNamed named apart noNumber (Ty.isIdentifier_of_accessor? asks) printedInner reads
  constructor
  · intro decays
    cases decays with
    | ask holds asks' printed' followed reads' =>
      rw [printedInner] at printed'
      cases printed'
      obtain rfl := ReadsAt.unique own reads'
      have sameCall := (whole .primary).symm.trans (followed .primary)
      rw [Except.ok.injEq, asked_inj] at sameCall
      subst sameCall
      refine ⟨?_, kept.1 rfl⟩
      rw [holds, Option.map_some, asks']
    | pass noSelect holds passes unchanged =>
      have sameText := (whole .primary).symm.trans ((unchanged .primary).trans printedInner)
      rw [Except.ok.injEq] at sameText
      exact absurd sameText (asked_ne inner method)
    | branches printed' reads' =>
      have isCall := kept.2 rfl
      cases isCall
  · rintro ⟨holds, noLead⟩
    obtain ⟨held, isHeld, asks'⟩ := Option.map_eq_some_iff.1 holds
    rw [kept.2 noLead]
    exact .ask isHeld asks' printedInner whole own

/-- The tree of a raw pointer that is printed as it would stand is that of a raw pointer if it is held so. -/
theorem Expr.decaysTo_iff_passed {n : Node (Unit → Expr)} (passes : n.ty.accessor? = none)
    (noSelect : ∀ test positive negative, n.shape ≠ .select test positive negative)
    (named : Expr.Every Node.Named (.node n)) (apart : Expr.Every Node.IsApart (.node n))
    (printed : (Expr.node n).text scope .arrayPointer p = .ok text) {t : Tree} (reads : ReadsAt p text t) :
    (Expr.node n).DecaysTo scope t ↔ (Expr.node n).held?.map Held.accessor? = some none := by
  rw [text_arrayPointer_passed passes] at printed
  obtain ⟨bare, isBare, readsBare⟩ :=
    (text_wraps p _).reads printed reads (Expr.isRead scopeNamed named apart).phrase
  constructor
  · intro decays
    cases decays with
    | ask holds asks printed' followed =>
      exact absurd (followed .primary) (not_asked_of_passed passes printed')
    | pass _ holds passes' => rw [holds, Option.map_some, passes']
    | branches => exact absurd rfl (noSelect _ _ _)
  · intro holds
    obtain ⟨held, isHeld, passes'⟩ := Option.map_eq_some_iff.1 holds
    exact .pass noSelect isHeld passes' (fun _ => text_arrayPointer_passed passes) isBare readsBare

/-- The tree of a conditional of raw pointers is that of raw pointers when the trees of its branches are. -/
theorem Expr.decaysTo_iff_select {test positive negative : Unit → Expr} {ty : Ty}
    (array : ty.isArray = true) (passes : ty.accessor? = none)
    (named : Expr.Every Node.Named (.node ⟨.select test positive negative, ty⟩))
    (apart : Expr.Every Node.IsApart (.node ⟨.select test positive negative, ty⟩))
    (branch : ∀ e ∈ [positive, negative], ∀ {p text t}, (e ()).text scope .arrayPointer p = .ok text →
      ReadsAt p text t → ((e ()).DecaysTo scope t ↔ (e ()).decays = true))
    (printed : (Expr.node ⟨.select test positive negative, ty⟩).text scope .arrayPointer p = .ok text)
    {t : Tree} (reads : ReadsAt p text t) :
    (Expr.node ⟨.select test positive negative, ty⟩).DecaysTo scope t ↔
      (positive ()).decays = true ∧ (negative ()).decays = true := by
  rw [text_arrayPointer_select array passes] at printed
  obtain ⟨shown, printedTest, positiveText, printedPositive, negativeText, printedNegative,
      rfl⟩ : ∃ shown, (test ()).text scope .plain .condOr = .ok shown ∧ ∃ positiveText,
        (positive ()).text scope .arrayPointer .select = .ok positiveText ∧ ∃ negativeText,
          (negative ()).text scope .arrayPointer .select = .ok negativeText ∧
            Precedence.select.parenthesize p
              (shown ++ " ? " ++ positiveText ++ " : " ++ negativeText) = text := by
    simpa using printed
  have isRead (e : Unit → Expr) (member : e ∈ [test, positive, negative]) : (Expr.operand scope e).IsRead :=
    Expr.isRead scopeNamed (named.parts.2 e member) (apart.parts.2 e member)
  have positioned : Form.arrayPointer.IsPositioned := trivial
  obtain ⟨c, l, r, rfl, readsTest, readsPositive, readsNegative⟩ := reads.cond_parts
    ((isRead test (by simp)).phrase printedTest)
    ((isRead positive (by simp)).form positioned printedPositive)
    ((isRead negative (by simp)).form positioned printedNegative)
  rw [← branch positive (by simp) printedPositive readsPositive,
    ← branch negative (by simp) printedNegative readsNegative]
  constructor
  · intro decays
    cases decays with
    | pass noSelect => exact absurd rfl (noSelect test positive negative)
    | branches _ _ first second => exact ⟨first, second⟩
  · rintro ⟨first, second⟩
    exact .branches printedTest readsTest first second

/-- The tree of an array that is no conditional is that of a raw pointer if the program says how it is held,
and no sign stands in front of what is asked. -/
theorem Expr.decaysTo_iff_single {n : Node (Unit → Expr)}
    (noSelect : ∀ test positive negative, n.shape ≠ .select test positive negative)
    (named : Expr.Every Node.Named (.node n)) (apart : Expr.Every Node.IsApart (.node n))
    (printed : (Expr.node n).text scope .arrayPointer p = .ok text) {t : Tree} (reads : ReadsAt p text t) :
    (Expr.node n).DecaysTo scope t ↔ (Expr.node n).decays = true := by
  cases accessor : n.ty.accessor? with
  | some method =>
    rw [decaysTo_iff_asked scopeNamed accessor named apart printed reads, decays_asked accessor]
  | none =>
    rw [decaysTo_iff_passed scopeNamed accessor noSelect named apart printed reads,
      decays_passed accessor noSelect]

/-- The tree of an array is that of a raw pointer if the program says of all that the array comes down to
how it is held, and no sign stands in front of what is asked. -/
theorem Expr.decaysTo_iff {e : Expr} (array : e.IsArray) (named : Expr.Every Node.Named e)
    (apart : Expr.Every Node.IsApart e) (printed : e.text scope .arrayPointer p = .ok text) {t : Tree}
    (reads : ReadsAt p text t) : e.DecaysTo scope t ↔ e.decays = true := by
  induction array generalizing p text t with
  | null =>
    refine decaysTo_iff_single scopeNamed ?_ named apart printed reads
    intro test positive negative isSelect
    cases isSelect
  | single _ noSelect => exact decaysTo_iff_single scopeNamed noSelect named apart printed reads
  | @select test positive negative ty array _ _ ihPositive ihNegative =>
    cases accessor : ty.accessor? with
    | some method =>
      rw [decaysTo_iff_asked scopeNamed accessor named apart printed reads, decays_asked accessor]
    | none =>
      rw [decaysTo_iff_select scopeNamed array accessor named apart ?branch printed reads,
        decays_select accessor, Bool.and_eq_true]
      case branch =>
        clear printed reads
        intro e member p text t printed reads
        have isOperand : e ∈ [test, positive, negative] := List.mem_cons_of_mem test member
        have namedBranch := named.parts.2 e isOperand
        have apartBranch := apart.parts.2 e isOperand
        simp only [List.mem_cons, List.not_mem_nil, or_false] at member
        obtain rfl | rfl := member
        · exact ihPositive namedBranch apartBranch printed reads
        · exact ihNegative namedBranch apartBranch printed reads

end Reading

/-- A resource never becomes a raw pointer if its type says that it is one: it is a `std::array` whatever
its type. -/
theorem Expr.not_decaysTo_resource {scope : Scope} {name : String} {ty : Ty} (passes : ty.accessor? = none)
    {t : Tree} : ¬ (Expr.node ⟨.resource name, ty⟩).DecaysTo scope t := by
  intro decays
  cases decays with
  | ask _ _ printed followed => exact not_asked_of_passed passes printed (followed .primary)
  | pass _ holds passes' =>
    cases holds
    cases passes'

/-! ### Where arrays become raw pointers -/

section Calls

variable {scope : Scope} (scopeNamed : scope.Named) {text : String} {p : Precedence} {ty : Ty}
  {object : Unit → Expr}

include scopeNamed

/-- The text of a copy is read as a call with a pointer into the source, the count and a pointer into the
target. -/
theorem copyTo_reads {sourceOffset target targetOffset count : Unit → Expr} {n : Node (Unit → Expr)}
    (isCopy : n = ⟨.call object (.library .arrayCopyTo) [sourceOffset, target, targetOffset, count], ty⟩)
    (named : Expr.Every Node.Named (.node n)) (apart : Expr.Every Node.IsApart (.node n))
    (printed : (Expr.node n).text scope .plain p = .ok text) :
    ∃ f c r, Reads text (.call (.name ["std", "copy_n"]) (itemsTree [f, c, r])) ∧
      (Expr.operand scope object).IsPointerInto f ∧ (Expr.operand scope target).IsPointerInto r := by
  subst isCopy
  have isRead (e : Unit → Expr) (member : e ∈ [object, sourceOffset, target, targetOffset, count]) :
      (Expr.operand scope e).IsRead :=
    Expr.isRead scopeNamed (named.parts.2 e member) (apart.parts.2 e member)
  rw [Expr.text_node] at printed
  have read : ∀ y ∈ [sourceOffset, target, targetOffset, count].map (Expr.operand scope), y.IsRead := by
    intro y member
    obtain ⟨e, listed, rfl⟩ := List.mem_map.1 member
    exact isRead e (List.mem_cons_of_mem object listed)
  obtain ⟨ts, f, c, r, whole, into, into'⟩ := copyCallText_reads (isRead object (by simp)) read printed
  exact ⟨f, c, r, ⟨ts, whole.phrase.spells, whole.derives.ofPrimary .statement⟩, into, into'⟩

/-- The text of decoded bytes is read as a call with a pointer into the bytes, cast, and the length. -/
theorem getString_reads {bytes offset length : Unit → Expr} {n : Node (Unit → Expr)}
    (isDecoding : n = ⟨.call object (.library .utf8GetString) [bytes, offset, length], ty⟩)
    (named : Expr.Every Node.Named (.node n)) (apart : Expr.Every Node.IsApart (.node n))
    (printed : (Expr.node n).text scope .plain p = .ok text) :
    ∃ f l, Reads text (.call (.name ["std", "string_view"])
        (itemsTree [.cast "reinterpret_cast" charsTokens f, l])) ∧
      (Expr.operand scope bytes).IsPointerInto f := by
  subst isDecoding
  rw [Expr.text_node] at printed
  have read : ∀ y ∈ [bytes, offset, length].map (Expr.operand scope), y.IsRead := by
    intro y member
    obtain ⟨e, listed, rfl⟩ := List.mem_map.1 member
    have isOperand : e ∈ [object, bytes, offset, length] := List.mem_cons_of_mem object listed
    exact Expr.isRead scopeNamed (named.parts.2 e isOperand) (apart.parts.2 e isOperand)
  obtain ⟨ts, f, l, whole, into⟩ := decodeCallText_reads read printed
  exact ⟨f, l, ⟨ts, whole.phrase.spells, whole.derives.ofPrimary .statement⟩, into⟩

end Calls

/-- A conversion to a pointer that is not shared prints an array as a raw pointer, whatever the elements. A
copy points into its source and its target, and decoding into its bytes, and both go from the array as a raw
pointer on. The tree of an array as a raw pointer is then that of one, at every array that a conditional
comes down to, exactly when the program says of each how it is held, and what is asked does not start with a
sign. -/
theorem arrays_decay_iff {scope : Scope} (scopeNamed : scope.Named) :
    (∀ (array : Unit → Expr) ownership element p text, ownership ≠ .shared →
      Expr.Every Node.Named (array ()) → Expr.Every Node.IsApart (array ()) →
      (array ()).text scope (.coerced (.arrayPtr ownership element)) p = .ok text →
      ∃ t, ReadsAt p text t ∧ (∀ u, Reads text u → u = t) ∧ (Expr.operand scope array).IsPointer t) ∧
    (∀ object sourceOffset target targetOffset count ty p text,
      let copy := Expr.node ⟨.call object (.library .arrayCopyTo)
        [sourceOffset, target, targetOffset, count], ty⟩
      Expr.Every Node.Named copy → Expr.Every Node.IsApart copy → copy.text scope .plain p = .ok text →
      ∃ f c r, Reads text (.call (.name ["std", "copy_n"]) (itemsTree [f, c, r])) ∧
        (Expr.operand scope object).IsPointerInto f ∧ (Expr.operand scope target).IsPointerInto r) ∧
    (∀ object bytes offset length ty p text,
      let decoding := Expr.node ⟨.call object (.library .utf8GetString) [bytes, offset, length], ty⟩
      Expr.Every Node.Named decoding → Expr.Every Node.IsApart decoding →
      decoding.text scope .plain p = .ok text →
      ∃ f l, Reads text (.call (.name ["std", "string_view"])
          (itemsTree [.cast "reinterpret_cast" charsTokens f, l])) ∧
        (Expr.operand scope bytes).IsPointerInto f) ∧
    ∀ (array : Unit → Expr) t, (array ()).IsArray → Expr.Every Node.Named (array ()) →
      Expr.Every Node.IsApart (array ()) → (Expr.operand scope array).IsPointer t →
      ((array ()).DecaysTo scope t ↔ (array ()).decays = true) := by
  refine ⟨?_, ?_, ?_, ?_⟩
  · intro array ownership element p text unshared named apart printed
    obtain ⟨ts, t, phrase, derives⟩ := (Expr.isRead scopeNamed named apart).coerced printed
    have reads : ReadsAt p text t := ⟨ts, phrase.spells, derives⟩
    rw [Expr.text_coerced_arrayPtr unshared] at printed
    exact ⟨t, reads, fun u other => reads.unique other, p, text, printed, reads⟩
  · intro object sourceOffset target targetOffset count ty p text copy named apart printed
    exact copyTo_reads scopeNamed rfl named apart printed
  · intro object bytes offset length ty p text decoding named apart printed
    exact getString_reads scopeNamed rfl named apart printed
  · rintro array t isArray named apart ⟨p, text, printed, reads⟩
    exact Expr.decaysTo_iff scopeNamed isArray named apart printed reads

section Samples

def byteTy : Ty := .integer ⟨.w8, false⟩

def storedResource : Expr := .node ⟨.resource "app.png", .arrayStorage byteTy 1⟩

/-- A stored array, a shared one, a resource or a raw pointer, whichever the conditions choose. -/
def chosenArray : Expr :=
  .node ⟨.select (fun _ => localPointer "found" .bool)
    (fun _ => .node ⟨.select (fun _ => localPointer "ready" .bool)
      (fun _ => localPointer "table" (.arrayStorage byteTy 4))
      (fun _ => localPointer "held" (.arrayPtr .shared byteTy)), .arrayPtr .readOnly byteTy⟩)
    (fun _ => .node ⟨.select (fun _ => localPointer "late" .bool) (fun _ => storedResource)
      (fun _ => localPointer "rest" (.arrayPtr .readOnly byteTy)), .arrayPtr .readOnly byteTy⟩),
    .arrayPtr .readOnly byteTy⟩

/-- A copy of the resource into a shared array, behind its first elements. -/
def resourceCopy : Node (Unit → Expr) :=
  ⟨.call (fun _ => storedResource) (.library .arrayCopyTo)
    [fun _ => .node ⟨.literal (.int 0), .i32⟩, fun _ => localPointer "held" (.arrayPtr .shared byteTy),
      fun _ => .node ⟨.literal (.int 3), .i32⟩, fun _ => localPointer "count" .i32], .void⟩

theorem chosenArray_isArray : chosenArray.IsArray := by
  have leaf {shape : Shape (Unit → Expr)} {ty : Ty} (array : ty.isArray = true)
      (noSelect : ∀ test positive negative, shape ≠ .select test positive negative) :
      (Expr.node ⟨shape, ty⟩).IsArray := .single array noSelect
  exact .select rfl (.select rfl (leaf rfl nofun) (leaf rfl nofun))
    (.select rfl (leaf rfl nofun) (leaf rfl nofun))

section Every

variable {Q : Node (Unit → Expr) → Prop}

theorem Expr.Every.localPointer {name : String} {ty : Ty} (holds : Q ⟨.symbol (.localName name), ty⟩) :
    Expr.Every Q (localPointer name ty) := .node _ holds (List.forall_mem_nil _)

theorem chosenArray_every (choice : ∀ test positive negative ty, Q ⟨.select test positive negative, ty⟩)
    (name : ∀ name ty, IsIdentifier name → Q ⟨.symbol (.localName name), ty⟩)
    (resource : Expr.Every Q storedResource) : Expr.Every Q chosenArray := by
  have isLocal {word : String} {ty : Ty} (isName : IsIdentifier word) :
      Expr.Every Q (localPointer word ty) := .localPointer (name word ty isName)
  refine .node _ (choice _ _ _ _) ?_
  simp only [Shape.operandsOf, List.forall_mem_cons]
  refine ⟨isLocal (by decide), .node _ (choice _ _ _ _) ?_, .node _ (choice _ _ _ _) ?_,
    List.forall_mem_nil _⟩
  · simp only [Shape.operandsOf, List.forall_mem_cons]
    exact ⟨isLocal (by decide), isLocal (by decide), isLocal (by decide), List.forall_mem_nil _⟩
  · simp only [Shape.operandsOf, List.forall_mem_cons]
    exact ⟨isLocal (by decide), resource, isLocal (by decide), List.forall_mem_nil _⟩

end Every

theorem arrays_decay_iff_chosen :
    (chosenArray.IsArray ∧ ∃ t, ReadsAt .statement
      "found ? ready ? table.data() : held.get() : late ? TernResource::app_png.data() : rest" t ∧
        chosenArray.DecaysTo ⟨#[], #[]⟩ t) ∧
    ∃ f c r, Reads "std::copy_n(TernResource::app_png.data(), count, held.get() + 3)"
        (.call (.name ["std", "copy_n"]) (itemsTree [f, c, r])) ∧
      (Expr.operand ⟨#[], #[]⟩ fun _ => storedResource).IsPointerInto f := by
  have scopeNamed : Scope.Named ⟨#[], #[]⟩ := by
    constructor <;> decide
  have isName : IsMemberName (sanitizeIdentifier "app.png") := by decide +kernel
  have apart {n : Node (Unit → Expr)} (reaches : n.ReachesApart)
      (noNumber : (Expr.node n).endsNumber = false) : n.IsApart :=
    ⟨reaches, fun ends => absurd (noNumber.symm.trans ends) Bool.false_ne_true⟩
  have resourceNamed : Expr.Every Node.Named storedResource := .node _ isName (List.forall_mem_nil _)
  have resourceApart : Expr.Every Node.IsApart storedResource :=
    .node _ (apart trivial rfl) (List.forall_mem_nil _)
  obtain ⟨converted, copied, -, decays⟩ := arrays_decay_iff scopeNamed
  constructor
  · have named : Expr.Every Node.Named chosenArray :=
      chosenArray_every (fun _ _ _ _ => trivial) (fun _ _ isName => isName) resourceNamed
    have isApart : Expr.Every Node.IsApart chosenArray :=
      chosenArray_every (fun _ _ _ _ => apart trivial rfl) (fun _ _ _ => apart trivial rfl) resourceApart
    obtain ⟨t, reads, -, isPointer⟩ := converted (fun _ => chosenArray) .writable .double .statement
      "found ? ready ? table.data() : held.get() : late ? TernResource::app_png.data() : rest" nofun named
      isApart rfl
    have raw := (decays (fun _ => chosenArray) t chosenArray_isArray named isApart isPointer).2 rfl
    exact ⟨chosenArray_isArray, t, reads, raw⟩
  · have isLocal {name : String} {ty : Ty} (isName : IsIdentifier name) :
        Expr.Every Node.Named (localPointer name ty) := .localPointer isName
    have number {value : Int64} : Node.IsApart ⟨.literal (.int value), .i32⟩ := ⟨trivial, fun _ => ⟨rfl, rfl⟩⟩
    have named : Expr.Every Node.Named (.node resourceCopy) := by
      refine .node _ trivial ?_
      simp only [resourceCopy, Shape.operandsOf, List.forall_mem_cons]
      exact ⟨resourceNamed, .node _ trivial (List.forall_mem_nil _), isLocal (by decide),
        .node _ trivial (List.forall_mem_nil _), isLocal (by decide), List.forall_mem_nil _⟩
    have isApart : Expr.Every Node.IsApart (.node resourceCopy) := by
      refine .node _ (apart (fun _ => rfl) rfl) ?_
      simp only [resourceCopy, Shape.operandsOf, List.forall_mem_cons]
      exact ⟨resourceApart, .node _ number (List.forall_mem_nil _), .localPointer (apart trivial rfl),
        .node _ number (List.forall_mem_nil _), .localPointer (apart trivial rfl), List.forall_mem_nil _⟩
    obtain ⟨f, c, r, reads, into, -⟩ := copied _ _ _ _ _ .void .statement
      "std::copy_n(TernResource::app_png.data(), count, held.get() + 3)" named isApart rfl
    exact ⟨f, c, r, reads, into⟩

/-- A resource that is taken for a raw pointer. -/
def loading : Program where
  classes := #[⟨"Loader", none, .normal, some [.declare "p" (.arrayPtr .readOnly byteTy) (some ⟨0⟩)],
    [], [], []⟩]
  exprs := ⟨#[⟨.resource "app.png", .arrayPtr .readOnly byteTy⟩]⟩
  resources := .ofList [("app.png", [(1 : UInt8)])]

/-- The array that the resource is defined as starts a raw pointer without being asked for its first
element. -/
theorem resource_not_decayed :
    loading.print {} = .ok
      { headerPath := "out.hpp"
        header := "#pragma once\n#include <array>\n#include <memory>\n#include <string>\n" ++
          "#include <string_view>\n\nclass Loader;\n\nclass Loader\n\x7b\npublic:\n" ++
          "\tLoader();\n\x7d;\n"
        sourcePath := "out.cpp"
        source := "#include <algorithm>\n#include <cmath>\n#include \"out.hpp\"\n" ++
          "using namespace std::string_view_literals;\n\n" ++
          "namespace\n\x7b\n\tnamespace TernResource\n\t\x7b\n" ++
          "\t\textern const std::array<uint8_t, 1> app_png;\n\t\x7d\n\x7d\n\n" ++
          "Loader::Loader()\n\x7b\n\tuint8_t const *p = TernResource::app_png;\n\x7d\n\n" ++
          "namespace\n\x7b\n\tnamespace TernResource\n\t\x7b\n" ++
          "\t\tconst std::array<uint8_t, 1> app_png = \x7b\n\t\t\t1\n\t\t\x7d;\n\t\x7d\n\x7d\n" } ∧
      (loading.exprs.tree ⟨0⟩).text loading.scope (.coerced (.arrayPtr .readOnly byteTy)) .argument =
        .ok "TernResource::app_png" ∧
      (loading.exprs.tree ⟨0⟩).IsArray ∧ ∀ t, ¬ (loading.exprs.tree ⟨0⟩).DecaysTo loading.scope t := by
  refine ⟨eq_ok_of_toOption (by decide +kernel), rfl, .single rfl nofun, fun t decays => ?_⟩
  exact Expr.not_decaysTo_resource rfl decays

end Samples

end CppPrinter
