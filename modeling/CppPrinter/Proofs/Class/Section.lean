import CppPrinter.Proofs.Class.Entry
import CppPrinter.Proofs.Line.Stmt

/-!
# The sections of a class

The body of a class is cut into sections, each a keyword of access and the members that stand under it
(`Class.Section`). `Section.IsOf` says what a section may hold and in which order, and
`Class.IsSectioned` that the sections together hold every member of the class as often as the class does,
and no constant that is folded into its uses. Only sections with members are printed
(`Class.membersOf_eq_nil_iff`), so this is how every class is printed (`class_sectioned`).
-/

namespace CppPrinter

/-- The keyword of access for a visibility. There is none for the compilation unit alone. -/
def Visibility.keyword : Visibility → String
  | everywhere | unit => "public"
  | descendants => "protected"
  | ownClass => "private"

/-- The keyword of access for the constructor, by who may call it. -/
def ClassKind.constructorKeyword : ClassKind → String
  | static => "private"
  | abstract => "protected"
  | normal | sealed => "public"

namespace Class

namespace Entry

/-- The constant that the line declares. -/
def constant? : Entry → Option (Constant ExprId)
  | constant k => k
  | _ => none

/-- The field that the line declares. -/
def field? : Entry → Option (Field ExprId)
  | field f => f
  | _ => none

/-- The keyword of access that a member asks for; a keyword itself is no member. -/
def access? (c : Class ExprId) : Entry → Option String
  | access _ => none
  | constructor => c.kind.constructorKeyword
  | constant k => k.visibility.keyword
  | field f => f.visibility.keyword
  | method m => m.visibility.keyword

/-- The place of a member among those of other sorts. -/
def rank : Entry → Nat
  | access _ => 0
  | constructor => 1
  | constant _ => 2
  | field _ => 3
  | method _ => 4

end Entry

/-- A keyword of access and what stands under it. -/
structure Section where
  keyword : String
  members : List Entry

namespace Section

/-- The lines of a section. -/
def entries (s : Section) : List Entry := .access s.keyword :: s.members

/-- The section has members, each of which asks for its keyword. The constructor is in front, and behind it
are the constants, the fields and the methods, each of them in the order of the class. -/
structure IsOf (c : Class ExprId) (s : Section) : Prop where
  filled : s.members ≠ []
  access : ∀ e ∈ s.members, e.access? c = some s.keyword
  grouped : s.members.Pairwise fun e e' => e.rank ≤ e'.rank
  constants : (s.members.filterMap Entry.constant?).Sublist c.constants
  fields : (s.members.filterMap Entry.field?).Sublist c.fields
  methods : (s.members.filterMap Entry.method?).Sublist c.methods

end Section

/-- The sections stand in a fixed order and hold the constructor once, the constants that are arrays, the
fields and the methods, each as often as the class has it. -/
structure IsSectioned (c : Class ExprId) (parts : List Section) : Prop where
  order : (parts.map Section.keyword).Sublist ["public", "protected", "public", "private"]
  each : ∀ s ∈ parts, s.IsOf c
  constructor : (parts.flatMap Section.members).filter Entry.isConstructor = [.constructor]
  constants : ((parts.flatMap Section.members).filterMap Entry.constant?).Perm
    (c.constants.filter (·.ty.isArrayStorage))
  fields : ((parts.flatMap Section.members).filterMap Entry.field?).Perm c.fields
  methods : ((parts.flatMap Section.members).filterMap Entry.method?).Perm c.methods

/-! ### Members of a visibility -/

variable (c : Class ExprId) (v : Visibility)

theorem access?_of_mem_membersOf {e : Entry} (member : e ∈ c.membersOf v) :
    e.access? c = some v.keyword := by
  have constructed : c.hasConstructorIn v = true → c.kind.constructorKeyword = v.keyword := by
    intro here
    rw [← eq_of_beq here]
    cases c.kind <;> rfl
  simp only [membersOf, List.mem_append, List.mem_map] at member
  rcases member with ((start | ⟨k, listed, rfl⟩) | ⟨f, listed, rfl⟩) | ⟨m, listed, rfl⟩
  · split at start
    · rename_i here
      rw [List.mem_singleton.1 start]
      exact congrArg some (constructed here)
    · cases start
  · simp only [storedConstants, List.mem_filter, Bool.and_eq_true, decide_eq_true_eq] at listed
    rw [← listed.2.1]
    rfl
  · simp only [fieldsOf, List.mem_filter, decide_eq_true_eq] at listed
    rw [← listed.2]
    rfl
  · simp only [methodsOf, List.mem_filter, decide_eq_true_eq] at listed
    rw [← listed.2]
    rfl

/-- The members are in order by their sorts, up to the sort `n`. -/
def AreGrouped (n : Nat) (es : List Entry) : Prop :=
  es.Pairwise (fun e e' => e.rank ≤ e'.rank) ∧ ∀ e ∈ es, e.rank ≤ n

/-- Members of the next sort go behind. -/
theorem AreGrouped.append {n : Nat} {es es' : List Entry} (h : AreGrouped n es)
    (next : ∀ e ∈ es', e.rank = n + 1) : AreGrouped (n + 1) (es ++ es') := by
  refine ⟨List.pairwise_append.2 ⟨h.1, ?_, fun e member e' member' => ?_⟩, ?_⟩
  · exact List.pairwise_of_forall_mem_list fun e member e' member' =>
      Nat.le_of_eq ((next e member).trans (next e' member').symm)
  · rw [next e' member']
    exact Nat.le_succ_of_le (h.2 e member)
  · exact List.forall_mem_append.2 ⟨fun e member => Nat.le_succ_of_le (h.2 e member),
      fun e member => Nat.le_of_eq (next e member)⟩

theorem grouped_membersOf : AreGrouped 4 (c.membersOf v) := by
  have start : AreGrouped 1 (if c.hasConstructorIn v then [.constructor] else []) := by
    split
    · exact ⟨List.pairwise_singleton .., List.forall_mem_singleton.2 (Nat.le_refl 1)⟩
    · exact ⟨.nil, List.forall_mem_nil _⟩
  exact ((start.append (List.forall_mem_map.2 fun _ _ => rfl)).append
    (List.forall_mem_map.2 fun _ _ => rfl)).append (List.forall_mem_map.2 fun _ _ => rfl)

/-! ### What is picked from the members -/

theorem filterMap_constant?_membersOf :
    (c.membersOf v).filterMap Entry.constant? = c.storedConstants v := by
  simp [c.filterMap_membersOf Entry.constant? rfl, Entry.constant?]

theorem filterMap_field?_membersOf : (c.membersOf v).filterMap Entry.field? = c.fieldsOf v := by
  simp [c.filterMap_membersOf Entry.field? rfl, Entry.field?]

/-! ### The sections that are printed -/

/-- The sections of the class that are not empty. -/
def parts : List Section :=
  (sections.filter fun s => !c.isEmptyIn s.1).map fun s => ⟨s.2, c.membersOf s.1⟩

theorem entries_eq_parts : c.entries = c.parts.flatMap Section.entries := by
  rw [entries, parts]
  generalize sections = table
  induction table with
  | nil => rfl
  | cons s rest ih =>
    rw [List.flatMap_cons, ih, entriesOf]
    cases empty : c.isEmptyIn s.1 <;> simp [empty, Section.entries]

/-- A choice among the entries passes over the keywords. -/
theorem filterMap_parts {α : Type} (pick : Entry → Option α)
    (noKeyword : ∀ keyword, pick (.access keyword) = none) :
    (c.parts.flatMap Section.members).filterMap pick = c.entries.filterMap pick := by
  rw [entries_eq_parts, List.filterMap_flatMap, List.filterMap_flatMap]
  congr 1
  funext s
  rw [Section.entries, List.filterMap_cons, noKeyword]

theorem storedConstants_eq : c.storedConstants v =
    (c.constants.filter (·.ty.isArrayStorage)).filter (·.visibility = v) := by
  rw [List.filter_filter]
  rfl

theorem isOf_of_mem_parts {s : Section} (listed : s ∈ c.parts) : s.IsOf c := by
  obtain ⟨row, inTable, rfl⟩ := List.mem_map.1 listed
  obtain ⟨inSections, filled⟩ := List.mem_filter.1 inTable
  have keywords : ∀ row ∈ sections, row.2 = row.1.keyword := by decide
  constructor
  · intro empty
    rw [(c.membersOf_eq_nil_iff row.1).1 empty] at filled
    cases filled
  · intro e member
    rw [keywords row inSections]
    exact c.access?_of_mem_membersOf row.1 member
  · exact (c.grouped_membersOf row.1).1
  · rw [filterMap_constant?_membersOf]
    exact List.filter_sublist
  · rw [filterMap_field?_membersOf]
    exact List.filter_sublist
  · rw [filterMap_method?_membersOf]
    exact List.filter_sublist

theorem isSectioned_parts : c.IsSectioned c.parts where
  order := by
    have keywords : c.parts.map Section.keyword =
        (sections.filter fun s => !c.isEmptyIn s.1).map Prod.snd := by
      rw [parts, List.map_map]
      rfl
    rw [keywords]
    exact List.filter_sublist.map Prod.snd
  each _ listed := c.isOf_of_mem_parts listed
  constructor := by
    rw [← c.filter_isConstructor_entries, ← List.filterMap_eq_filter]
    exact c.filterMap_parts _ fun _ => rfl
  constants := by
    rw [c.filterMap_parts _ fun _ => rfl]
    refine c.filterMap_entries_perm (·.visibility) (fun _ => rfl) fun v => ?_
    rw [filterMap_constant?_membersOf, storedConstants_eq]
  fields := by
    rw [c.filterMap_parts _ fun _ => rfl]
    exact c.filterMap_entries_perm (·.visibility) (fun _ => rfl) c.filterMap_field?_membersOf
  methods := by
    rw [c.filterMap_parts _ fun _ => rfl]
    exact c.methods_perm

/-! ### Lines without a break -/

theorem keyword_of_mem_entries {keyword : String} (listed : .access keyword ∈ c.entries) :
    keyword ∈ ["public", "protected", "public", "private"] := by
  rw [entries_eq_parts, List.mem_flatMap] at listed
  obtain ⟨s, inParts, member⟩ := listed
  rcases List.mem_cons.1 member with same | inside
  · cases same
    exact c.isSectioned_parts.order.subset (List.mem_map_of_mem inParts)
  · have asks := (c.isOf_of_mem_parts inParts).access _ inside
    cases asks

/-- A line stays one when it goes deeper. -/
theorem gives_indent {good : String → Prop} {r : Rendered Line} (h : Gives (Line.Carries good) r) :
    Gives (Line.Carries good) (Line.indent <$> r) := by
  intro line printed
  obtain ⟨l, found, rfl⟩ := map_eq_ok_iff.1 printed
  have carried := h l found
  cases l with
  | blank => exact carried
  | code depth text => exact carried

section OneLine

variable {env : Env} (names : env.EveryName IsOneLine)

include names

theorem signatureText_oneLine {s : Signature} (named : s.EveryName IsOneLine) {name : String}
    (h : IsOneLine name) : Gives IsOneLine (s.text env.scope name) := by
  have params : Gives (fun texts : List String => ∀ text ∈ texts, IsOneLine text)
      (s.params.mapM fun q => q.ty.declaration env.scope q.name) :=
    .mapM fun q listed => q.ty.declaration_oneLine names.scope (named.params q listed)
  have constness : IsOneLine s.constness := by
    unfold Signature.constness
    split <;> decide
  have list : Gives IsOneLine (s.paramsText env.scope) :=
    params.bind fun _ each => .ok (.intercalate each)
  exact list.bind fun _ texts => (s.returnType.declaration_oneLine names.scope h).bind
    fun _ declared => .ok ((declared.call texts).append constness)

theorem declarationLine_oneLine {s : Signature} (named : s.EveryName IsOneLine) :
    Gives (Line.Carries IsOneLine) (s.declarationLine env.scope) := by
  have specifier : IsOneLine s.dispatch.specifier := by
    cases s.dispatch <;> decide
  have qualifier : IsOneLine s.dispatch.qualifier := by
    cases s.dispatch <;> decide
  exact (signatureText_oneLine names named named.name.camelCase).bind fun _ text =>
    .ok (((specifier.append text).append qualifier).append (by decide))

/-- The line of an entry is a line of the text. -/
theorem entryLine_oneLine (own : c.EveryName IsOneLine) {e : Entry} (listed : e ∈ c.entries) :
    Gives (Line.Carries IsOneLine) (e.line env c) := by
  have supplies := Env.supplies_oneLine names none
  cases e with
  | access keyword =>
    have keywords : ∀ keyword ∈ ["public", "protected", "public", "private"],
        IsOneLine (keyword ++ ":") := by decide
    exact .ok (keywords keyword (c.keyword_of_mem_entries listed))
  | constructor =>
    have suffix : IsOneLine c.constructorSuffix := by
      unfold constructorSuffix
      split
      · decide
      · split <;> decide
    exact .ok (((own.name.append (by decide)).append suffix).append (by decide))
  | constant k =>
    have named := (own.constants k (c.constant_mem_entries_iff.1 listed).1).camelCase
    exact gives_indent ((supplies.constant named k.ty k.value).bind fun _ text => .ok text)
  | field f =>
    have named := (own.fields f (c.field_mem_entries_iff.1 listed)).camelCase
    exact gives_indent ((supplies.declare named f.ty f.value).bind fun _ text =>
      .ok (text.append (by decide)))
  | method m =>
    have named := own.methods m (c.method_mem_entries_iff.1 listed)
    exact gives_indent (declarationLine_oneLine names named)

end OneLine

end Class

/-- A class that is printed has a head, and between braces a line for each keyword and each member of its
sections. The sections hold each member once, under its own keyword and in its place, and none of them is
empty. Where no name has a line break, these lines are lines of the text. -/
theorem class_sectioned {env : Env} {c : Class ExprId} {ls : List Line}
    (printed : c.declarationLines env = .ok ls) : ∃ head parts lines,
      ls = [Line.blank, .flush head, .flush "\x7b"] ++ lines ++ [Line.flush "\x7d;"] ∧
      c.IsSectioned parts ∧
      List.Forall₂ (fun e line => Class.Entry.line env c e = .ok line)
        (parts.flatMap Class.Section.entries) lines ∧
      (env.EveryName IsOneLine → c.EveryName IsOneLine → Carry IsOneLine lines) := by
  rw [Class.declarationLines_eq, bind_eq_ok_iff] at printed
  obtain ⟨head, -, rest⟩ := printed
  obtain ⟨lines, body, result⟩ := bind_eq_ok_iff.1 rest
  refine ⟨head, c.parts, lines, (Except.ok.inj result).symm, c.isSectioned_parts, ?_, fun names own => ?_⟩
  · rw [← c.entries_eq_parts]
    exact mapM_eq_ok_iff.1 body
  · exact Gives.mapM (fun e listed => c.entryLine_oneLine names own listed) lines body

/-- A class for derived ones alone, with members of every visibility, a constant that needs no storage
among them. -/
def ledgerClass : Class ExprId :=
  ⟨"Ledger", none, .abstract, none,
    [⟨"Limit", .everywhere, .i32, ⟨0⟩⟩, ⟨"Steps", .unit, .arrayStorage (.integer ⟨.w8, false⟩) 2, ⟨1⟩⟩],
    [⟨"Total", .ownClass, .integer .i64, none⟩, ⟨"Step", .unit, .i32, some ⟨0⟩⟩,
      ⟨"Open", .ownClass, .bool, none⟩],
    [⟨⟨"Close", .unit, .abstract, true, .void, []⟩, none⟩,
      ⟨⟨"Balance", .everywhere, .normal, false, .integer .i64, []⟩, some (.block [])⟩]⟩

def ledger : Program where
  classes := #[ledgerClass]
  exprs := ⟨#[⟨.literal (.int 1), .i32⟩,
    ⟨.aggregate [⟨0⟩, ⟨0⟩], .arrayStorage (.integer ⟨.w8, false⟩) 2⟩]⟩

def ledgerLines : List Line :=
  [.blank, .flush "class Ledger", .flush "\x7b",
    .flush "public:", .code 1 "int64_t balance() const;",
    .flush "protected:", .code 1 "Ledger() = default;",
    .flush "public:", .code 1 "static constexpr std::array<uint8_t, 2> steps = \x7b 1, 1 \x7d;",
    .code 1 "int32_t step = 1;", .code 1 "virtual void close() = 0;",
    .flush "private:", .code 1 "int64_t total;", .code 1 "bool open;", .flush "\x7d;"]

theorem class_sectioned_ledger : ledgerClass.declarationLines ledger.env = .ok ledgerLines ∧
    ∃ head parts lines,
      ledgerLines = [Line.blank, .flush head, .flush "\x7b"] ++ lines ++ [Line.flush "\x7d;"] ∧
      ledgerClass.IsSectioned parts ∧
      List.Forall₂ (fun e line => Class.Entry.line ledger.env ledgerClass e = .ok line)
        (parts.flatMap Class.Section.entries) lines ∧
      (ledger.env.EveryName IsOneLine → ledgerClass.EveryName IsOneLine → Carry IsOneLine lines) := by
  have printed : ledgerClass.declarationLines ledger.env = .ok ledgerLines :=
    eq_ok_of_toOption (by decide +kernel)
  exact ⟨printed, class_sectioned printed⟩

end CppPrinter
