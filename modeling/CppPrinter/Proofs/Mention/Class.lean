import CppPrinter.Class.Enumeration
import CppPrinter.Proofs.Class.Entry
import CppPrinter.Proofs.Mention.Declared

/-!
# What classes and enumerations refer to

In the header, a class refers to what the values of its constant arrays and of its fields mention, and
an enumeration to what the values of its members mention (`Class.declarationLines_refer`,
`Enum.declarationLines_refer`). In the source, bodies refer to nothing but what expressions mention
(`Class.definitionLines_keep`).
-/

namespace CppPrinter

/-! ### Signatures -/

namespace Signature

variable {scope : Scope} {s : Signature} {name : String}

theorem paramsText_cites (names : scope.EveryName IsOrdinary) (own : s.EveryName IsOrdinary) :
    Gives (Cites · ∅) (s.paramsText scope) :=
  (Gives.mapM fun q member => q.ty.declaration_cites names (.ordinary (own.params q member))).bind
    fun _ each => .ok (.intercalate_silent each)

theorem text_cites (names : scope.EveryName IsOrdinary) (own : s.EveryName IsOrdinary)
    (h : Cites name ∅) : Gives (Cites · ∅) (s.text scope name) := by
  refine (paramsText_cites names own).bind fun _ params =>
    (s.returnType.declaration_cites names h).bind fun _ declared => .ok ?_
  refine ((params.behind (by decide) declared).followed (by decide)).followed ?_
  unfold constness
  split <;> decide

end Signature

/-! ### Bodies -/

section Bodies

variable {env : Env} (names : env.EveryName IsOrdinary) {ids : Set String}
  (mentioned : ∀ id, env.mentioned id ⊆ ids)

include names mentioned

theorem Class.constructorLines_keep {c : Class ExprId} (own : c.EveryName IsOrdinary) :
    Gives (Keeps ids) (c.constructorLines env) := by
  unfold constructorLines
  cases given : c.constructorBody with
  | none => exact .ok .nil
  | some body =>
    have name := Cites.ordinary own.name
    exact (Stmt.bodyLines_keeps names mentioned (own.constructor body given)).bind fun _ kept =>
      .ok (.body (.of_silent ((name.behind (by decide) name).followed (by decide))) kept)

theorem Method.definitionLines_keep {m : Method ExprId} {className : String}
    (h : IsOrdinary className) (own : m.toSignature.EveryName IsOrdinary)
    (locals : ∀ s ∈ m.body, s.EveryName IsOrdinary) :
    Gives (Keeps ids) (m.definitionLines env className) := by
  unfold definitionLines
  split
  · exact .ok .nil
  · cases given : m.body with
    | none => exact .unsupported _
    | some body =>
      have name : Cites (className ++ "::" ++ camelCase m.name) ∅ :=
        (Cites.member own.name).behind (by decide) (.ordinary h)
      exact (Signature.text_cites names.scope own name).bind fun _ signature =>
        (Stmt.bodyLines_keeps names mentioned (locals body given).bodyStatements).bind
          fun _ kept => .ok (.body (.of_silent signature) kept)

/-- The definitions of the bodies in the source. -/
theorem Class.definitionLines_keep {c : Class ExprId} (own : c.EveryName IsOrdinary) :
    Gives (Keeps ids) (c.definitionLines env) :=
  (constructorLines_keep names mentioned own).bind fun _ start =>
    (Gives.mapM fun m member => Method.definitionLines_keep names mentioned own.name
      (own.methods m member) (own.bodies m member)).bind fun _ methods =>
        .ok (start.append (.flatten methods))

end Bodies

/-! ### How declarations start -/

section Starts

variable {scope : Scope} (names : scope.EveryName IsOrdinary)

include names

/-- No type is spelled like a declaration of the table. -/
theorem Ty.spelling_internal (promote : Bool) (ty : Ty) :
    Gives IsInternal (ty.spelling scope promote) := by
  induction ty generalizing promote with
  | void | bool | float | double | floatInt => exact .ok (by decide)
  | integer int =>
    refine .after fun k => .ok ?_
    generalize k.promotedIf promote = k
    cases k <;> decide
  | string kind => cases kind <;> exact .ok (by decide)
  | arrayPtr ownership element ih =>
    refine (ih false).bind fun text h => .ok ?_
    cases ownership with
    | readOnly | writable => exact h.followed (by decide)
    | shared => exact (IsInternal.of_head "std::shared_ptr<" (by decide) text).followed (by decide)
  | arrayStorage element length ih =>
    refine .after fun text => .ok ?_
    simp only [String.append_assoc]
    exact .of_head "std::array<" (by decide) _
  | classPtr ownership pointee =>
    refine (names.className pointee).bind fun name h => .ok ?_
    cases ownership with
    | readOnly => exact (IsInternal.of_head "const " (by decide) name).followed (by decide)
    | writable => exact (IsInternal.of_identifier h.identifier).followed (by decide)
    | shared => exact (IsInternal.of_head "std::shared_ptr<" (by decide) name).followed (by decide)
  | classValue stored => exact (names.className stored).mono fun _ h => .of_identifier h.identifier
  | enum enumeration => exact (names.enumName enumeration).mono fun _ h => .of_identifier h.identifier
  | null => exact .unsupported _

theorem Ty.declaration_internal (ty : Ty) (name : String) :
    Gives IsInternal (ty.declaration scope name) :=
  (ty.spelling_internal names true).bind fun _ h => .ok (h.declarator name)

theorem Signature.text_internal (s : Signature) (name : String) :
    Gives IsInternal (s.text scope name) := by
  refine .after fun params => (s.returnType.declaration_internal names name).bind fun _ h => .ok ?_
  simp only [String.append_assoc]
  exact h.followed (IsFresh.append (by decide) (by decide) _)

end Starts

/-! ### Definitions of classes -/

namespace Class

variable {env : Env} (names : env.EveryName IsOrdinary) {c : Class ExprId}

/-- The identifiers of the resources that the value on the line mentions. -/
def Entry.mentioned (env : Env) : Entry → Set String
  | constant k => env.mentioned k.value
  | field f => env.valueMentioned f.value
  | access _ | constructor | method _ => ∅

/-- The identifiers of the resources that the values in the definition of the class mention. -/
def mentioned (env : Env) (c : Class ExprId) : Set String :=
  {id | ∃ e ∈ c.entries, id ∈ e.mentioned env}

/-- The values in the definition are those of the constant arrays and of the fields. -/
theorem mem_mentioned_iff {env : Env} {id : String} : id ∈ c.mentioned env ↔
    (∃ k ∈ c.constants, k.ty.isArrayStorage = true ∧ id ∈ env.mentioned k.value) ∨
      ∃ f ∈ c.fields, id ∈ env.valueMentioned f.value := by
  constructor
  · rintro ⟨e, member, inside⟩
    cases e with
    | constant k =>
      obtain ⟨listed, isStorage⟩ := c.constant_mem_entries_iff.1 member
      exact .inl ⟨k, listed, isStorage, inside⟩
    | field f => exact .inr ⟨f, c.field_mem_entries_iff.1 member, inside⟩
    | access | constructor | method => cases inside
  · rintro (⟨k, listed, isStorage, inside⟩ | ⟨f, listed, inside⟩)
    · exact ⟨.constant k, c.constant_mem_entries_iff.2 ⟨listed, isStorage⟩, inside⟩
    · exact ⟨.field f, c.field_mem_entries_iff.2 listed, inside⟩

theorem access_mem_entries {keyword : String} (member : .access keyword ∈ c.entries) :
    keyword ∈ sections.map Prod.snd := by
  obtain ⟨s, listed, inside⟩ := List.mem_flatMap.1 member
  unfold entriesOf at inside
  split at inside
  · cases inside
  · rcases List.mem_cons.1 inside with same | inMembers
    · cases same
      exact List.mem_map_of_mem listed
    · simp [membersOf] at inMembers

variable (own : c.EveryName IsOrdinary)

include names own

omit names in
theorem constructorLine_refers : Refers [c.constructorLine] ∅ := by
  have suffix : IsTail c.constructorSuffix := by
    unfold constructorSuffix
    split
    · decide
    · split <;> decide
  have name := Cites.ordinary own.name
  have start := IsInternal.of_identifier own.name.identifier
  exact .line (((name.followed (by decide)).followed suffix).followed (by decide))
    (((start.followed (by decide)).followed suffix.fresh).followed (by decide)).undeclared

theorem constantLine_refers {k : Constant ExprId} (member : k ∈ c.constants) :
    Gives (fun text => Refers [.flush text] (env.mentioned k.value))
      (env.constant (camelCase k.name) k.ty k.value) := by
  intro text printed
  have cites := Env.constant_cites names (.member (own.constants k member)) k.ty k.value text printed
  have start : Gives IsInternal (env.constant (camelCase k.name) k.ty k.value) :=
    .after fun declared => .after fun value => .ok (by
      simp only [String.append_assoc]
      exact .of_head "static constexpr " (by decide) _)
  exact .line cites (start text printed).undeclared

theorem fieldLine_refers {f : Field ExprId} (member : f ∈ c.fields) :
    Gives (fun text => Refers [.flush (text ++ ";")] (env.valueMentioned f.value))
      (env.declare (camelCase f.name) f.ty f.value) := by
  intro text printed
  have cites := Env.declare_cites names (.member (own.fields f member)) f.ty f.value text printed
  have start : Gives IsInternal (env.declare (camelCase f.name) f.ty f.value) :=
    (f.ty.declaration_internal names.scope _).bind fun _ h =>
      (Env.initializer_cites names _ f.ty f.value).bind fun _ initial => .ok (h.followed initial.2)
  exact .line (cites.followed (by decide)) ((start text printed).followed (by decide)).undeclared

theorem methodLine_refers {m : Method ExprId} (member : m ∈ c.methods) :
    Gives (fun line => Refers [line] ∅) (m.toSignature.declarationLine env.scope) := by
  have name := Cites.member (own.methods m member).name
  intro line printed
  obtain ⟨text, spelled, result⟩ := bind_eq_ok_iff.1 printed
  cases result
  have cites := Signature.text_cites names.scope (own.methods m member) name text spelled
  have start := Signature.text_internal names.scope m.toSignature _ text spelled
  have specifier : IsLead m.dispatch.specifier := by cases m.dispatch <;> decide
  have qualifier : IsTail m.dispatch.qualifier := by cases m.dispatch <;> decide
  have behind : IsInternal (m.dispatch.specifier ++ text) := by
    cases m.dispatch with
    | static => exact .of_head "static " (by decide) text
    | abstract | virtual => exact .of_head "virtual " (by decide) text
    | normal | override | sealed => exact (String.empty_append (s := text)).symm ▸ start
  exact .line (((cites.headed specifier).followed qualifier).followed (by decide))
    ((behind.followed qualifier.fresh).followed (by decide)).undeclared

theorem entry_refers {e : Entry} (member : e ∈ c.entries) :
    Gives (fun line => Refers [line] (e.mentioned env)) (e.line env c) := by
  have deeper : ∀ {line : Line} {S : Set String}, Refers [line] S → Refers [line.indent] S :=
    fun h => h.indented
  cases e with
  | access keyword =>
    have keywords : ∀ keyword ∈ sections.map Prod.snd,
        IsPlain (keyword ++ ":") ∧ IsInternal (keyword ++ ":") := by decide
    obtain ⟨plain, internal⟩ := keywords keyword (access_mem_entries member)
    exact .ok (.fixed plain internal)
  | constructor => exact .ok (deeper (constructorLine_refers own))
  | constant k =>
    exact ((constantLine_refers names own (c.constant_mem_entries_iff.1 member).1).bind
      fun _ refers => .ok refers).bind fun _ refers => .ok (deeper refers)
  | field f =>
    exact ((fieldLine_refers names own (c.field_mem_entries_iff.1 member)).bind
      fun _ refers => .ok refers).bind fun _ refers => .ok (deeper refers)
  | method m =>
    exact (methodLine_refers names own (c.method_mem_entries_iff.1 member)).bind
      fun _ refers => .ok (deeper refers)

theorem headText_silent : Gives (fun text => Cites text ∅ ∧ IsInternal text) (c.headText env.scope) := by
  have name : Cites ("class " ++ c.name) ∅ := (Cites.ordinary own.name).headed (by decide)
  have start : Cites ("class " ++ c.name ++ if c.kind = .sealed then " final" else "") ∅ :=
    name.followed (by split <;> decide)
  have internal : ∀ rest, IsInternal
      (("class " ++ c.name ++ if c.kind = .sealed then " final" else "") ++ rest) := by
    intro rest
    simp only [String.append_assoc]
    exact .of_head "class " (by decide) _
  unfold headText
  cases c.parent with
  | none => exact .ok ⟨start.followed (by decide), internal _⟩
  | some id =>
    have parent : Gives (fun text => Cites text ∅ ∧ IsFresh text)
        ((" : public " ++ ·) <$> env.scope.className id) :=
      (names.scope.className id).bind fun _ h => .ok ⟨(Cites.ordinary h).headed (by decide),
        IsFresh.append (by decide) (by decide) _⟩
    exact parent.bind fun _ h =>
      .ok ⟨(start.append h.1 (.inr h.2)).congr (Set.union_empty ∅), internal _⟩

/-- The definition of the class refers to what the values in it mention. -/
theorem declarationLines_refer : Gives (Refers · (c.mentioned env)) (c.declarationLines env) := by
  rw [declarationLines_eq]
  refine (headText_silent names own).bind fun _ head =>
    (Gives.forall₂ fun e member => entry_refers names own member).bind fun lines each => .ok ?_
  have body : Refers (lines.map fun line => [line]).flatten (c.mentioned env) :=
    .flatten (List.forall₂_map_right_iff.2 each)
  rw [← List.flatMap_def, List.flatMap_singleton'] at body
  exact .definition head.1 head.2 body

end Class

/-! ### Definitions of enumerations -/

/-- A word with something behind it declares no array, even where it is the keyword. -/
theorem undeclared_of_word {word : String} (h : IsWord word) {tail : String} (fresh : IsFresh tail)
    (other : ¬ " const".toList <+: tail.toList) : externArray? (word ++ tail).toList = none := by
  by_cases keyword : word = "extern"
  · refine externArray?_eq_none fun start => other ?_
    have split : "extern const".toList = "extern".toList ++ " const".toList := by decide
    rw [keyword, split, String.toList_append, List.prefix_append_right_inj] at start
    exact start
  · have internal : IsInternal word := by
      rw [IsInternal, firstWord_of_word h]
      exact mt String.toList_inj.1 keyword
    exact (internal.followed fresh).undeclared

section Enumerations

variable {env : Env} (names : env.EveryName IsOrdinary)

/-- The identifiers of the resources that the value of the member mentions. -/
def EnumMember.mentioned (env : Env) (m : EnumMember ExprId) : Set String := env.valueMentioned m.value

/-- The identifiers of the resources that the values in the definition of the enumeration mention. -/
def Enum.mentioned (env : Env) (e : Enum ExprId) : Set String :=
  {id | ∃ m ∈ e.members, id ∈ m.mentioned env}

include names

/-- A member refers to what its value mentions, with a comma behind it or without. -/
theorem EnumMember.text_refers {m : EnumMember ExprId} (own : IsOrdinary m.name) :
    Gives (fun item => ∀ comma ∈ ["", ","], Refers [.flush (item ++ comma)] (m.mentioned env))
      (m.text env) := by
  have commas : ∀ comma ∈ ["", ","], IsTail comma ∧ ¬ " const".toList <+: comma.toList := by decide
  have word := own.identifier.isWord.camelCase
  have name := Cites.member own
  unfold EnumMember.text EnumMember.mentioned
  cases m.value with
  | none =>
    refine .ok fun comma listed => ?_
    obtain ⟨tail, other⟩ := commas comma listed
    rw [Env.valueMentioned_none]
    exact .line (name.followed tail) (undeclared_of_word word tail.fresh other)
  | some id =>
    refine (Env.plain_cites names id).bind fun value cites => .ok fun comma listed => ?_
    rw [Env.valueMentioned_some]
    refine .line ((cites.behind (by decide) name).followed (commas comma listed).1) ?_
    have equals : " = ".toList = [' ', '=', ' '] := by decide
    have const : " const".toList = ' ' :: 'c' :: "onst".toList := by decide
    simp only [String.append_assoc]
    refine undeclared_of_word word (IsFresh.append (by decide) (by decide) _) fun start => ?_
    rw [String.toList_append, equals, const] at start
    simp at start

omit names in
theorem refers_commaLines {members : List (EnumMember ExprId)} {items : List String}
    (each : List.Forall₂ (fun m item => ∀ comma ∈ ["", ","],
      Refers [.flush (item ++ comma)] (m.mentioned env)) members items) :
    Refers (commaLines items) {id | ∃ m ∈ members, id ∈ m.mentioned env} := by
  induction each with
  | nil => exact Refers.nil.congr (by simp)
  | @cons m item members items here rest ih =>
    cases items with
    | nil =>
      cases rest
      have last := here "" (by decide)
      rw [String.append_empty] at last
      exact last.congr (by simp)
    | cons next items => exact ((here "," (by decide)).append ih).congr (by ext id; simp)

/-- The definition of the enumeration refers to what the values in it mention. -/
theorem Enum.declarationLines_refer {e : Enum ExprId} (own : e.EveryName IsOrdinary) :
    Gives (Refers · (e.mentioned env)) (e.declarationLines env) := by
  refine (Gives.forall₂ fun m member => EnumMember.text_refers names (own.members m member)).bind
    fun items each => .ok ?_
  have head : Cites ("enum class " ++ e.name) ∅ := (Cites.ordinary own.name).headed (by decide)
  exact .definition head (.of_head "enum class " (by decide) e.name) (refers_commaLines each).indented

end Enumerations

end CppPrinter
