import CppPrinter.Class.Enumeration
import CppPrinter.Proofs.Bracket.Stmt

/-!
# Classes and enumerations without loose brackets

Where all names of a class are identifiers, both of its definitions close what they
open (`Class.declarationLines_lay`, `Class.definitionLines_lay`), and so does the definition of an
enumeration (`Enum.declarationLines_lay`).
-/

namespace CppPrinter

/-- Where the names of the signature are identifiers, the member is printed by a name. -/
theorem IsIdentifier.member {name : String} (h : IsIdentifier name) : IsNaming (camelCase name) :=
  h.isWord.camelCase.isNaming

/-! ### Signatures -/

namespace Signature

variable {scope : Scope} {s : Signature} {name : String}

theorem paramsText_closed (scopeNamed : scope.EveryName IsIdentifier) (named : s.EveryName IsIdentifier) :
    Gives IsClosed (s.paramsText scope) :=
  (Gives.mapM fun q member => (q.ty.declaration_naming scopeNamed
    (named.params q member).isWord.isNaming).mono fun _ => IsNaming.isClosed).bind
      fun _ each => .ok (.intercalate each)

theorem text_closed (scopeNamed : scope.EveryName IsIdentifier) (named : s.EveryName IsIdentifier)
    (h : IsNaming name) : Gives IsClosed (s.text scope name) := by
  refine (paramsText_closed scopeNamed named).bind fun _ params =>
    (s.returnType.declaration_naming scopeNamed h).bind fun _ declared => .ok ?_
  refine (declared.isClosed.call params).followed _ ?_
  unfold constness
  split <;> decide

theorem declarationLine_lays (scopeNamed : scope.EveryName IsIdentifier) (named : s.EveryName IsIdentifier) :
    Gives (fun l => Lays [] [l] []) (s.declarationLine scope) := by
  refine (text_closed scopeNamed named named.name.member).bind fun _ closed => .ok ?_
  have specifier : Leads freely [] s.dispatch.specifier [] freely := by cases s.dispatch <;> decide
  have qualifier : Leads softly [] s.dispatch.qualifier [] softly := by cases s.dispatch <;> decide
  exact (((closed.headed _ specifier).followed _ qualifier).followed _ (by decide)).line

end Signature

/-! ### Classes -/

section Definitions

variable {env : Env} (envNamed : env.EveryName IsIdentifier)

/-- A name behind the name of its class. -/
theorem IsIdentifier.qualified {className name : String} (h : IsIdentifier className)
    (named : IsNaming name) : IsNaming (className ++ "::" ++ name) := by
  have colons : Leads plainly [] "::" [] anyhow := by decide
  exact (h.isWord.isNaming.append colons).append named

include envNamed

namespace Class

variable {c : Class ExprId} (named : c.EveryName IsIdentifier)

include named

theorem memberLines_lay (v : Visibility) : Gives (Lays [] · []) (c.memberLines env v) := by
  have start : Lays [] (if c.hasConstructorIn v then [c.constructorLine] else []) [] := by
    split
    · have suffix : Leads softly [] c.constructorSuffix [] softly := by
        unfold constructorSuffix
        split
        · decide
        · split <;> decide
      have name := named.name.isWord.isNaming.isClosed
      exact (((name.followed "()" (by decide)).followed _ suffix).followed _ (by decide)).line
    · exact .nil
  have constants : Gives (Lays [] · []) ((c.storedConstants v).mapM fun k => do
      return .flush (← env.constant (camelCase k.name) k.ty k.value)) := by
    refine Lays.mapM fun k member => ?_
    have name := (named.constants k (List.mem_filter.1 member).1).member
    exact (Env.constant_closed envNamed name k.ty k.value).bind fun _ closed => .ok closed.line
  have fields : Gives (Lays [] · []) ((c.fieldsOf v).mapM fun f => do
      return .flush ((← env.declare (camelCase f.name) f.ty f.value) ++ ";")) := by
    refine Lays.mapM fun f member => ?_
    have name := (named.fields f (List.mem_filter.1 member).1).member
    exact (Env.declare_closed envNamed name f.ty f.value).bind fun _ closed =>
      .ok (closed.followed _ (by decide)).line
  have methods : Gives (Lays [] · []) ((c.methodsOf v).mapM fun m =>
      m.toSignature.declarationLine env.scope) :=
    Lays.mapM fun m member => Signature.declarationLine_lays envNamed.scope
      (named.methods m (List.mem_filter.1 member).1)
  exact constants.bind fun _ first => fields.bind fun _ second => methods.bind fun _ third =>
    .ok (((start.append first).append second).append third)

theorem headText_closed : Gives IsClosed (c.headText env.scope) := by
  have start : IsClosed ("class " ++ c.name ++ if c.kind = .sealed then " final" else "") := by
    have name := (named.name.isWord.isNaming.headed "class " (by decide)).isClosed
    split <;> exact name.followed _ (by decide)
  unfold headText
  cases c.parent with
  | none => exact .ok (start.append (by decide))
  | some id =>
    have colon : Leads softly [] " : public " [] anyhow := by decide
    have parent : Gives (fun text => Leads softly [] text [] softly)
        ((" : public " ++ ·) <$> env.scope.className id) :=
      (env.scope.className_naming envNamed.scope id).bind fun _ name =>
        .ok ((colon.append name).mono (List.Subset.refl _) (by decide))
    exact parent.bind fun _ leads => .ok (start.append leads)

/-- The definition of the class in the header. -/
theorem declarationLines_lay : Gives (Lays [] · []) (c.declarationLines env) := by
  have keywords : ∀ s ∈ sections, Leads freely [] (s.2 ++ ":") [] anyhow := by decide +kernel
  have each : ∀ s ∈ sections, Gives (Lays [] · []) (c.sectionLines env s.1 s.2) := by
    intro s listed
    unfold sectionLines
    split
    · exact .ok .nil
    · exact (memberLines_lay envNamed named s.1).bind fun _ members =>
        .ok ((Lays.line (keywords s listed)).cons members.indented)
  refine (headText_closed envNamed named).bind fun _ head =>
    (Gives.mapM each).bind fun _ groups => .ok ?_
  have body := Lays.block "\x7b" "\x7d;" (by decide) (.flatten groups) (by decide)
  have whole := Lays.blank.append (head.line.append body)
  simpa using whole

theorem constructorLines_lay : Gives (Lays [] · []) (c.constructorLines env) := by
  unfold constructorLines
  cases given : c.constructorBody with
  | none => exact .ok .nil
  | some body =>
    refine (Stmt.bodyLines_lay envNamed (named.constructor body given)).bind fun _ inner => .ok ?_
    have name := (named.name.qualified named.name.isWord.isNaming).isClosed
    exact (Lays.blank.append (name.followed "()" (by decide)).line).append inner.braced

end Class

theorem Method.definitionLines_lay {m : Method ExprId} {className : String}
    (h : IsIdentifier className) (named : m.toSignature.EveryName IsIdentifier)
    (inside : ∀ s ∈ m.body, s.EveryName IsIdentifier) :
    Gives (Lays [] · []) (m.definitionLines env className) := by
  unfold definitionLines
  split
  · exact .ok .nil
  · cases given : m.body with
    | none => exact .unsupported _
    | some body =>
      refine (Signature.text_closed envNamed.scope named (h.qualified named.name.member)).bind
        fun _ signature => (Stmt.bodyLines_lay envNamed
          (Stmt.EveryName.bodyStatements (inside body given))).bind fun _ inner =>
            .ok ((Lays.blank.append signature.line).append inner.braced)

/-- The definitions of the bodies in the source. -/
theorem Class.definitionLines_lay {c : Class ExprId} (named : c.EveryName IsIdentifier) :
    Gives (Lays [] · []) (c.definitionLines env) :=
  (constructorLines_lay envNamed named).bind fun _ start =>
    (Gives.mapM fun m member => Method.definitionLines_lay envNamed named.name
      (named.methods m member) (named.bodies m member)).bind fun _ methods =>
        .ok (start.append (.flatten methods))

end Definitions

/-! ### Enumerations -/

/-- Items with commas behind them. -/
theorem Lays.commaLines {items : List String} (each : ∀ item ∈ items, IsClosed item) :
    Lays [] (commaLines items) [] := by
  induction items with
  | nil => exact .nil
  | cons item rest ih =>
    obtain ⟨here, later⟩ := List.forall_mem_cons.1 each
    cases rest with
    | nil => exact here.line
    | cons next rest => exact (here.followed _ (by decide)).line.cons (ih later)

theorem Enum.declarationLines_lay {env : Env} (envNamed : env.EveryName IsIdentifier) {e : Enum ExprId}
    (named : e.EveryName IsIdentifier) : Gives (Lays [] · []) (e.declarationLines env) := by
  have each : ∀ m ∈ e.members, Gives IsClosed (m.text env) := by
    intro m member
    have name := (named.members m member).member.isClosed
    unfold EnumMember.text
    cases m.value with
    | none => exact .ok name
    | some id =>
      have equals : Leads softly [] " = " [] freely := by decide
      exact (Env.plain_closed envNamed id).bind fun _ closed => .ok ((name.append equals).append closed)
  refine (Gives.mapM each).bind fun _ items => .ok ?_
  have head := (named.name.isWord.isNaming.headed "enum class " (by decide)).isClosed
  have body := Lays.block "\x7b" "\x7d;" (by decide)
    (Lays.commaLines items).indented (by decide)
  have whole := Lays.blank.append (head.line.append body)
  simpa using whole

end CppPrinter
