import CppPrinter.Proofs.Reading.Printed

/-!
# Operands of tight positions

Where the printer puts a form behind an operand, or an assignment, it prints the operand for that
position and asks no more. The tree that the text is read to then holds the tree of the operand in
its place or not (`Node.Holds`), and it does so under a condition on the operand alone
(`Node.Keeps`): an operand that starts with a sign, and an assignment or a conditional on the left of
another assignment, are torn apart (`tight_operand_kept_iff`).
-/

namespace CppPrinter

/-- The tree reaches a member of another tree as a whole. A name behind `::` goes to the last name
of a member, and not to the member. -/
inductive Tree.IsMemberOf (object : Tree) : Tree → Prop where
  | direct (op name : String) : IsMemberOf object (.member object op [name])
  | qualified (name : String) (noMember : ∀ o op path, object ≠ .member o op path) :
      IsMemberOf object (object.qualify name)

namespace Tree

variable {object t : Tree}

theorem IsMemberOf.cases (h : IsMemberOf object t) :
    (∃ op path, t = .member object op path) ∨ (∃ path, t = .name path) ∨
      ∃ outer name, t = .scope outer name := by
  cases h with
  | direct op name => exact Or.inl ⟨op, [name], rfl⟩
  | qualified name noMember =>
    cases object with
    | name path => exact Or.inr (Or.inl ⟨path ++ [name], rfl⟩)
    | member o op path => exact absurd rfl (noMember o op path)
    | _ => exact Or.inr (Or.inr ⟨_, name, rfl⟩)

theorem not_isMemberOf_prefixed (op : String) (u : Tree) : ¬ IsMemberOf object (.prefixed op u) := by
  intro h
  rcases h.cases with ⟨op, path, same⟩ | ⟨path, same⟩ | ⟨outer, name, same⟩ <;> cases same

theorem not_isMemberOf_literal (token : Token) : ¬ IsMemberOf object (.literal token) := by
  intro h
  rcases h.cases with ⟨op, path, same⟩ | ⟨path, same⟩ | ⟨outer, name, same⟩ <;> cases same

theorem isMemberOf_qualify_iff {name : String} :
    IsMemberOf object (object.qualify name) ↔ ∀ o op path, object ≠ .member o op path := by
  refine ⟨?_, .qualified name⟩
  rintro h o op path rfl
  rcases h.cases with ⟨op', path', same⟩ | ⟨path', same⟩ | ⟨outer, name, same⟩
  · -- a member of itself would be larger than itself
    have inner : o = .member o op path := by injection same
    have larger := congrArg sizeOf inner
    simp only [Tree.member.sizeOf_spec] at larger
    omega
  · cases same
  · cases same

end Tree

/-- The text is read to a tree of the tightest level, and the tree has a property under a condition.
Under the condition the text does not start with an operator. -/
def IsKept (keeps : Prop) (holds : Tree → Prop) (text : String) : Prop :=
  ∃ ts t, Spells text ts ∧ Opens text ∧ Derives (.level .primary) ts t ∧ (holds t ↔ keeps) ∧
    (StartsPrefix ts → ¬ keeps)

theorem StartsPrefix.of_append {ts us : List Token} (some : ts ≠ [])
    (h : StartsPrefix (ts ++ us)) : StartsPrefix ts := by
  obtain ⟨token, rest, rfl⟩ := List.exists_cons_of_ne_nil some
  obtain ⟨op, after, starts, isPrefix⟩ := h
  rw [List.cons_append, List.cons.injEq] at starts
  exact ⟨op, rest, by rw [starts.1], isPrefix⟩

theorem Derives.primary_ne_nil {ts : List Token} {t : Tree} (h : Derives (.level .primary) ts t) :
    ts ≠ [] := by
  rcases h.primary_cases rfl with tight | ⟨op, us, u, rfl, -, -, -⟩
  · obtain ⟨token, rest, rfl, -⟩ := tight.tight_head rfl
    simp
  · simp

namespace IsKept

variable {keeps : Prop} {holds : Tree → Prop} {text : String}

/-- A call of something that is kept. -/
theorem call (h : IsKept keeps holds text) {arguments : String} {as : List Token} {a : Tree}
    (spells : Spells arguments as) (derives : Derives .items as a) :
    IsKept keeps (fun t => ∃ callee b, t = .call callee b ∧ holds callee)
      (text ++ "(" ++ arguments ++ ")") := by
  obtain ⟨ts, t, spellsCallee, opens, derivesCallee, kept, starts⟩ := h
  have opened : Spells "(" [.mark "("] := by decide
  have closed : Spells ")" [.mark ")"] := by decide
  have front := spellsCallee.append_splits opened (by decide)
  have free : (tailOf (text ++ "(")).isFree = true := by
    rw [tailOf_append_splits spellsCallee (by decide)]
    decide
  have whole := (front.free_append spells free).append_splits closed (by decide)
  have shape : ts ++ [Token.mark "("] ++ as ++ [Token.mark ")"] =
      ts ++ .mark "(" :: (as ++ [Token.mark ")"]) := by simp
  rw [shape] at whole
  obtain ⟨u, derivesCall, kind⟩ :=
    derivesCallee.extend fun ts t tight => Derives.call tight derives
  refine ⟨_, u, whole, ((opens.append _).append _).append _, derivesCall, ?_,
    fun sign => starts (sign.of_append derivesCallee.primary_ne_nil)⟩
  rcases kind with ⟨-, rfl⟩ | ⟨sign, op, v, rfl⟩
  · constructor
    · rintro ⟨callee, b, same, held⟩
      cases same
      exact kept.1 held
    · intro keeps
      exact ⟨t, a, rfl, kept.2 keeps⟩
  · constructor
    · rintro ⟨callee, b, same, -⟩
      cases same
    · intro keeps
      exact absurd keeps (starts sign)

end IsKept

namespace IsOperandAs

variable {leads numeral : Bool} {text : String} {ts : List Token} {object : Tree}

/-- What starts with an operator is torn apart. -/
theorem leads_of_startsPrefix (h : IsOperandAs leads numeral text ts object)
    (sign : StartsPrefix ts) : leads = true := by
  rcases h.kind with ⟨isLead, -⟩ | ⟨-, tight, -⟩
  · exact isLead
  · exact absurd sign tight.not_startsPrefix

/-- A form behind an operand, whatever the operand starts with. -/
theorem isKept_behind (h : IsOperandAs leads numeral text ts object) {dot : Prop} {back : String}
    {us : List Token} {form : Tree → Tree} (trail : Trail dot back us form)
    (apart : dot → ¬ EndsNumber ts) {keeps : Prop} {holds : Tree → Prop}
    (kept : leads = false → (holds (form object) ↔ keeps)) (lost : leads = true → ¬ keeps)
    (noPrefix : ∀ op v, ¬ holds (.prefixed op v)) : IsKept keeps holds (text ++ back) := by
  obtain ⟨u, derives, kind⟩ := h.derives.extend fun _ _ => trail.takes
  have phrase := trail.phrase h.phrase apart
  refine ⟨ts ++ us, u, phrase.spells, phrase.opens, derives, ?_, ?_⟩
  · rcases kind with ⟨tight, rfl⟩ | ⟨sign, op, v, rfl⟩
    · rcases h.kind with ⟨-, sign⟩ | ⟨noLead, -, -⟩
      · exact absurd sign.startsPrefix tight.not_startsPrefix
      · exact kept noLead
    · have torn := lost (h.leads_of_startsPrefix sign)
      exact ⟨fun held => absurd held (noPrefix op v), fun keeps => absurd keeps torn⟩
  · intro sign
    exact lost (h.leads_of_startsPrefix (sign.of_append h.derives.primary_ne_nil))

/-- A dot behind a number belongs to the number. -/
theorem isKept_number (h : IsOperandAs leads numeral text ts object) (ends : EndsNumber ts)
    {name : String} (identifier : IsIdentifier name) {keeps : Prop} (lost : ¬ keeps) :
    IsKept keeps object.IsMemberOf (text ++ "." ++ name) := by
  obtain ⟨digits, last⟩ := ends
  obtain ⟨front, rfl⟩ : ∃ front, ts = front ++ [Token.number digits] :=
    ⟨ts.dropLast, (List.dropLast_append_getLast? _ last).symm⟩
  obtain ⟨⟨u, derives⟩, -⟩ := h.derives.renumber (digits ++ "." ++ name)
  refine ⟨_, u, h.phrase.number_dot identifier, (h.phrase.opens.append _).append _, derives, ?_,
    fun _ => lost⟩
  refine ⟨fun held => ?_, fun keeps => absurd keeps lost⟩
  rcases derives.primary_cases rfl with tight | ⟨op, us, v, -, -, -, rfl⟩
  · have number := tight.eq_number (List.getLast?_concat ..)
    rw [number.2] at held
    exact absurd held (Tree.not_isMemberOf_literal _)
  · exact absurd held (Tree.not_isMemberOf_prefixed op v)

end IsOperandAs

/-- What is asked of an expression that stands in front of an operator and the name of a member. -/
structure KeepsBehind (op : String) (e : Expr) (object : Tree) : Prop where
  leads : e.leads = false
  noNumber : op = "." → e.endsNumber = false
  noMember : op = "::" → ∀ o op path, object ≠ .member o op path

theorem KeepsBehind.not_of_leads {op : String} {e : Expr} {object : Tree} (leads : e.leads = true) :
    ¬ KeepsBehind op e object := by
  intro keeps
  rw [keeps.leads] at leads
  cases leads

/-- Where no member is reached, the operand has to start with no sign. -/
theorem KeepsBehind.ofForm {op : String} {e : Expr} {object : Tree} (noLead : e.leads = false)
    (noReach : op ≠ "." ∧ op ≠ "::") : KeepsBehind op e object :=
  ⟨noLead, fun isDot => absurd isDot noReach.1, fun isScope => absurd isScope noReach.2⟩

theorem isKept_reach {e : Expr} {text op name : String} {ts : List Token} {object : Tree}
    (h : IsOperandAs e.leads e.endsNumber text ts object) (isReach : op = "::" ∨ op ∈ memberOps)
    (named : IsMemberName name) :
    IsKept (KeepsBehind op e object) object.IsMemberOf (text ++ op ++ name) := by
  by_cases merges : op = "." ∧ EndsNumber ts
  · obtain ⟨rfl, ends⟩ := merges
    refine h.isKept_number ends named.identifier ?_
    intro keeps
    have number := keeps.noNumber rfl
    rw [h.ends ends] at number
    cases number
  · rw [not_and] at merges
    rw [String.append_assoc]
    rcases isReach with rfl | isMember
    · refine h.isKept_behind (.qualify named) False.elim ?_ KeepsBehind.not_of_leads
        Tree.not_isMemberOf_prefixed
      intro noLead
      rw [Tree.isMemberOf_qualify_iff]
      exact ⟨fun noMember => ⟨noLead, nofun, fun _ => noMember⟩, fun keeps => keeps.noMember rfl⟩
    · refine h.isKept_behind (.member isMember named.identifier) merges ?_
        KeepsBehind.not_of_leads Tree.not_isMemberOf_prefixed
      intro noLead
      refine ⟨fun _ => ⟨noLead, ?_, ?_⟩, fun _ => .direct op name⟩
      · intro isDot
        rcases h.kind with ⟨isLead, -⟩ | ⟨-, -, number⟩
        · rw [noLead] at isLead
          cases isLead
        · exact Bool.eq_false_iff.2 fun numeral => merges isDot (number numeral)
      · rintro rfl
        exact absurd isMember (by decide)

namespace Node

/-- The operand that something stands behind, and the level that it is printed for. -/
def tight? {ρ : Type} (n : Node ρ) : Option (ρ × Precedence) :=
  match n.shape with
  | .step _ e | .binary .index e _ | .member e _ | .call e (.user ..) _ => some (e, .primary)
  | .call e (.library method) _ => if method.asksString then some (e, .primary) else none
  | .binary .assign e _ | .binary (.update _) e _ => some (e, .assign)
  | _ => none

/-- What is written behind that operand itself: a string literal that is asked something takes the
suffix of a view. -/
def tightSuffix (n : Node (Unit → Expr)) : String :=
  match n.shape with
  | .call e (.library _) _ =>
    match (e ()).literal? with
    | .ok literal? => viewSuffix literal?
    | .error _ => ""
  | _ => ""

/-- The operator that reaches a member of that operand, if one is reached. -/
def reach? (scope : Scope) (n : Node (Unit → Expr)) : Rendered String :=
  match n.shape with
  | .member _ .stringLength | .call _ (.library _) _ => .ok "."
  | .member e target => (Expr.operand scope e).reach? target.isScoped
  | .call e (.user owner index) _ => do
    let method ← scope.method owner index
    (Expr.operand scope e).reach? (method.dispatch = .static)
  | _ => .ok ""

/-- The tree has the tree of that operand in its place. -/
def Holds {ρ : Type} (n : Node ρ) (object : Tree) : Tree → Prop :=
  let called (t : Tree) := ∃ callee arguments, t = .call callee arguments ∧ object.IsMemberOf callee
  match n.shape with
  | .step op _ => fun t => t = .postfixed op.symbol object
  | .binary .index _ _ => fun t => ∃ position, t = .index object position
  | .binary op _ _ => fun t => ∃ value, t = .assign op.symbol object value
  | .member _ .stringLength => called
  | .member .. => object.IsMemberOf
  | .call _ (.library .stringContains) _ => fun t => ∃ op l r, t = .binary op l r ∧ called l
  | .call _ (.library .stringIndexOf) _ | .call _ (.library .stringLastIndexOf) _ =>
    fun t => ∃ kind ty u, t = .cast kind ty u ∧ called u
  | _ => called

/-- What is asked of that operand. -/
def Keeps (scope : Scope) (n : Node (Unit → Expr)) (e : Expr) (p : Precedence) (object : Tree) :
    Prop :=
  if p = .assign then e.isLoose = false
  else ∃ op, n.reach? scope = .ok op ∧ KeepsBehind op e object

end Node

/-- The text is read at a level to one tree only, and the tree has a property under a condition. -/
def ReadsKept (p : Precedence) (keeps : Prop) (holds : Tree → Prop) (text : String) : Prop :=
  ∃ t, ReadsAt p text t ∧ (holds t ↔ keeps)

section Wrappers

variable {keeps : Prop} {holds : Tree → Prop} {text : String} (h : IsKept keeps holds text)
  (p : Precedence)

include h

theorem IsKept.reads : ReadsKept p keeps holds text := by
  obtain ⟨ts, t, spells, -, derives, kept, -⟩ := h
  exact ⟨t, ⟨ts, spells, derives.ofPrimary p⟩, kept⟩

theorem IsKept.cast : ReadsKept p keeps (fun t => ∃ kind ty u, t = .cast kind ty u ∧ holds u)
    ("static_cast<int32_t>(" ++ text ++ ")") := by
  obtain ⟨ts, t, spells, -, derives, kept, -⟩ := h
  have opened : Spells "static_cast<int32_t>("
      [.word "static_cast", .mark "<", .word "int32_t", .mark ">", .mark "("] := by decide
  have closed : Spells ")" [.mark ")"] := by decide
  have whole := (opened.free_append spells (by decide)).append_splits closed (by decide)
  have isCast : "static_cast" ∈ castWords := by decide
  have isType : closesType 0 [.word "int32_t"] = true := rfl
  have derivesCast := Derives.cast isCast isType (derives.ofPrimary .statement)
  refine ⟨_, ⟨_, whole, derivesCast.ofTightAt p⟩, ?_⟩
  constructor
  · rintro ⟨kind, ty, u, same, held⟩
    cases same
    exact kept.1 held
  · intro keeps
    exact ⟨_, _, t, rfl, kept.2 keeps⟩

theorem IsKept.search : ReadsKept p keeps (fun t => ∃ op l r, t = .binary op l r ∧ holds l)
    (Precedence.equality.parenthesize p (text ++ " != std::string::npos")) := by
  obtain ⟨ts, t, spells, -, derives, kept, -⟩ := h
  have npos : Spells " != std::string::npos" ([Token.mark "!="] ++ nposTokens) := by decide +kernel
  have whole := spells.append_splits npos (by decide)
  have atLevel : ("!=", .equality) ∈ infixOps := by decide
  have search : ReadsAt .equality (text ++ " != std::string::npos")
      (.binary "!=" t (.name ["std", "string", "npos"])) :=
    ⟨_, whole, .binary atLevel (derives.ofPrimary .equality) (derives_npos.ofTightAt .rel)⟩
  refine ⟨_, search.parenthesize p, ?_⟩
  constructor
  · rintro ⟨op, l, r, same, held⟩
    cases same
    exact kept.1 held
  · intro keeps
    exact ⟨_, t, _, rfl, kept.2 keeps⟩

end Wrappers

/-- The text of the node is read, and so is that of its operand in a tight position; the tree of the
one has the tree of the other in its place exactly when the operand is fit for it. -/
def Node.IsKept (scope : Scope) (n : Node (Unit → Expr)) (e : Expr) (q p : Precedence)
    (text : String) : Prop :=
  ∃ inner object t, e.text scope .plain q = .ok inner ∧
    ReadsAt q (inner ++ n.tightSuffix) object ∧ ReadsAt p text t ∧
    (n.Holds object t ↔ n.Keeps scope e q object)

theorem Node.keeps_primary_iff {scope : Scope} {n : Node (Unit → Expr)} {e : Expr} {op : String}
    {object : Tree} (found : n.reach? scope = .ok op) :
    n.Keeps scope e .primary object ↔ KeepsBehind op e object := by
  rw [Node.Keeps, if_neg (by decide)]
  constructor
  · rintro ⟨op', found', keeps⟩
    rw [found] at found'
    cases found'
    exact keeps
  · exact fun keeps => ⟨op, found, keeps⟩

/-- An operand in the tightest position, with what is written behind it. -/
theorem Node.IsKept.ofReach {scope : Scope} {n : Node (Unit → Expr)} {e : Expr} {p : Precedence}
    {inner shown op text : String} {leads numeral : Bool} {ts : List Token} {object : Tree}
    (printed : e.text scope .plain .primary = .ok inner)
    (operand : IsOperandAs leads numeral shown ts object) (shape : inner ++ n.tightSuffix = shown)
    (found : n.reach? scope = .ok op)
    (kept : ReadsKept p (KeepsBehind op e object) (n.Holds object) text) :
    n.IsKept scope e .primary p text := by
  obtain ⟨t, reads, same⟩ := kept
  refine ⟨inner, object, t, printed, ?_, reads, ?_⟩
  · rw [shape]
    exact ⟨ts, operand.phrase.spells, operand.derives⟩
  · rw [Node.keeps_primary_iff found]
    exact same

section Positions

variable {scope : Scope} {e f : Unit → Expr} {args : List (Unit → Expr)} {ty : Ty} {p : Precedence}
  {text : String} (h : (Expr.operand scope e).IsRead)

include h

theorem isKept_step {op : StepOp}
    (printed : stepText op (Expr.operand scope e) = .ok text) :
    Node.IsKept scope ⟨.step op e, ty⟩ (e ()) .primary p text := by
  obtain ⟨inner, printedInner, rfl⟩ : ∃ inner, (Expr.operand scope e).plain .primary = .ok inner ∧
      inner ++ op.symbol = text := by simpa [stepText] using printed
  obtain ⟨ts, object, operand⟩ := h.primary printedInner
  have kept : CppPrinter.IsKept (KeepsBehind "" (e ()) object) (· = .postfixed op.symbol object)
      (inner ++ op.symbol) := by
    refine operand.isKept_behind (.step op) False.elim ?_ KeepsBehind.not_of_leads ?_
    · intro noLead
      exact ⟨fun _ => .ofForm noLead (by decide), fun _ => rfl⟩
    · intro sign v same
      cases same
  exact .ofReach printedInner operand String.append_empty rfl (kept.reads p)

theorem isKept_index (h' : (Expr.operand scope f).IsRead)
    (printed : indexText (Expr.operand scope e) (Expr.operand scope f) = .ok text) :
    Node.IsKept scope ⟨.binary .index e f, ty⟩ (e ()) .primary p text := by
  obtain ⟨inner, printedInner, position, printedPosition, rfl⟩ : ∃ inner,
      (Expr.operand scope e).plain .primary = .ok inner ∧ ∃ position,
        (Expr.operand scope f).plain .statement = .ok position ∧
          inner ++ "[" ++ position ++ "]" = text := by simpa [indexText] using printed
  obtain ⟨ts, object, operand⟩ := h.primary printedInner
  obtain ⟨is, i, phrase, derives⟩ := h'.phrase printedPosition
  have kept : CppPrinter.IsKept (KeepsBehind "" (e ()) object)
      (fun t => ∃ position, t = .index object position) (inner ++ ("[" ++ (position ++ "]"))) := by
    refine operand.isKept_behind (.index phrase.spells derives) False.elim ?_
      KeepsBehind.not_of_leads ?_
    · intro noLead
      exact ⟨fun _ => .ofForm noLead (by decide), fun _ => ⟨i, rfl⟩⟩
    · rintro sign v ⟨position, same⟩
      cases same
  rw [← String.append_assoc, ← String.append_assoc] at kept
  exact .ofReach printedInner operand String.append_empty rfl (kept.reads p)

theorem isKept_member {target : Symbol} (named : target.Named)
    (printed : memberText (Expr.operand scope e) target = .ok text) :
    Node.IsKept scope ⟨.member e target, ty⟩ (e ()) .primary p text := by
  by_cases isLength : target = .stringLength
  · subst isLength
    obtain ⟨inner, printedInner, rfl⟩ : ∃ inner,
        (Expr.operand scope e).plain .primary = .ok inner ∧ inner ++ ".length()" = text := by
      simpa [memberText] using printed
    obtain ⟨ts, object, operand⟩ := h.primary printedInner
    have isReach : "." = "::" ∨ "." ∈ memberOps := by decide
    have length : IsMemberName "length" := by decide
    have empty : Spells "" [] := by decide
    have kept := (isKept_reach operand isReach length).call empty .noItem
    have shape : inner ++ "." ++ "length" ++ "(" ++ "" ++ ")" = inner ++ ".length()" := by
      have back : ".length()" = "." ++ ("length" ++ ("(" ++ ("" ++ ")"))) := by decide
      rw [back]
      simp only [String.append_assoc]
    rw [shape] at kept
    exact .ofReach printedInner operand String.append_empty rfl (kept.reads p)
  · rw [memberText_eq isLength] at printed
    obtain ⟨name, printedName, inner, printedInner, op, found, rfl⟩ : ∃ name,
        target.memberName = .ok name ∧ ∃ inner, (Expr.operand scope e).plain .primary = .ok inner ∧
          ∃ op, (Expr.operand scope e).reach? target.isScoped = .ok op ∧
            inner ++ op ++ name = text := by simpa using printed
    obtain ⟨ts, object, operand⟩ := h.primary printedInner
    have member : IsMemberName name := Symbol.Named.memberName named printedName
    have kept := (isKept_reach operand (Operand.reach?_eq_ok found) member).reads p
    cases target with
    | stringLength => exact absurd rfl isLength
    | _ => exact .ofReach printedInner operand String.append_empty found kept

theorem isKept_userCall {owner : ClassId} {index : Nat} (scopeNamed : scope.Named)
    (h' : ∀ x ∈ args.map (Expr.operand scope), x.IsRead)
    (printed : callText scope (.user owner index) (Expr.operand scope e)
      (args.map (Expr.operand scope)) p = .ok text) :
    Node.IsKept scope ⟨.call e (.user owner index) args, ty⟩ (e ()) .primary p text := by
  rw [callText, bind_eq_ok_iff] at printed
  obtain ⟨method, declared, printed⟩ := printed
  rw [methodCallText_eq] at printed
  obtain ⟨op, found, inner, printedInner, arguments, printedArguments, rfl⟩ : ∃ op,
      (Expr.operand scope e).reach? (method.dispatch = .static) = .ok op ∧ ∃ inner,
        (Expr.operand scope e).plain .primary = .ok inner ∧ ∃ arguments,
          argumentsText (method.params.map Param.ty) (args.map (Expr.operand scope)) =
              .ok arguments ∧
            inner ++ op ++ camelCase method.name ++ "(" ++ arguments ++ ")" = text := by
    simpa using printed
  obtain ⟨ts, object, operand⟩ := h.primary printedInner
  obtain ⟨as, a, spells, derives⟩ := argumentsText_isRead h' printedArguments
  have kept := (isKept_reach operand (Operand.reach?_eq_ok found) (scopeNamed.method declared)).call
    spells derives
  have found' : Node.reach? scope ⟨.call e (.user owner index) args, ty⟩ = .ok op := by
    rw [Node.reach?]
    simp only [declared, ok_bind]
    exact found
  exact .ofReach printedInner operand String.append_empty found' (kept.reads p)

/-- A method of a standard string, called on an operand. -/
theorem isKept_stringCall {name : String} {params : List Ty} (named : IsMemberName name)
    (h' : ∀ x ∈ args.map (Expr.operand scope), x.IsRead)
    (printed : stringCallText name params (Expr.operand scope e) (args.map (Expr.operand scope)) =
      .ok text) :
    ∃ inner literal? ts object, (e ()).text scope .plain .primary = .ok inner ∧
      (e ()).literal? = .ok literal? ∧
      IsOperandAs (e ()).leads (e ()).endsNumber (inner ++ viewSuffix literal?) ts object ∧
      IsKept (KeepsBehind "." (e ()) object)
        (fun t => ∃ callee arguments, t = .call callee arguments ∧ object.IsMemberOf callee)
        text := by
  obtain ⟨literal?, looked, inner, printedInner, arguments, printedArguments, rfl⟩ : ∃ literal?,
      (Expr.operand scope e).literal? = .ok literal? ∧ ∃ inner,
        (Expr.operand scope e).plain .primary = .ok inner ∧ ∃ arguments,
          argumentsText params (args.map (Expr.operand scope)) = .ok arguments ∧
            inner ++ viewSuffix literal? ++ "." ++ name ++ "(" ++ arguments ++ ")" = text := by
    simpa [stringCallText] using printed
  obtain ⟨ts, object, operand⟩ := receiver_isOperand h looked printedInner
  obtain ⟨as, a, spells, derives⟩ := argumentsText_isRead h' printedArguments
  have isReach : "." = "::" ∨ "." ∈ memberOps := by decide
  exact ⟨inner, literal?, ts, object, printedInner, looked, operand,
    (isKept_reach operand isReach named).call spells derives⟩

theorem isKept_libraryCall {method : LibraryMethod} (asks : method.asksString = true)
    (h' : ∀ x ∈ args.map (Expr.operand scope), x.IsRead)
    (printed : callText scope (.library method) (Expr.operand scope e)
      (args.map (Expr.operand scope)) p = .ok text) :
    Node.IsKept scope ⟨.call e (.library method) args, ty⟩ (e ()) .primary p text := by
  have suffix {inner : String} {literal? : Option Literal} (looked : (e ()).literal? = .ok literal?) :
      inner ++ Node.tightSuffix ⟨.call e (.library method) args, ty⟩ =
        inner ++ viewSuffix literal? := by
    simp only [Node.tightSuffix, looked]
  have startsWith : IsMemberName "starts_with" := by decide
  have endsWith : IsMemberName "ends_with" := by decide
  have substr : IsMemberName "substr" := by decide
  have find : IsMemberName "find" := by decide
  have rfind : IsMemberName "rfind" := by decide
  cases method with
  | math | arrayCopyTo | utf8GetString | other => cases asks
  | stringStartsWith =>
    obtain ⟨inner, literal?, ts, object, printedInner, looked, operand, kept⟩ :=
      isKept_stringCall h startsWith h' printed
    exact .ofReach printedInner operand (suffix looked) rfl (kept.reads p)
  | stringEndsWith =>
    obtain ⟨inner, literal?, ts, object, printedInner, looked, operand, kept⟩ :=
      isKept_stringCall h endsWith h' printed
    exact .ofReach printedInner operand (suffix looked) rfl (kept.reads p)
  | stringSubstring =>
    obtain ⟨inner, literal?, ts, object, printedInner, looked, operand, kept⟩ :=
      isKept_stringCall h substr h' printed
    exact .ofReach printedInner operand (suffix looked) rfl (kept.reads p)
  | stringContains =>
    obtain ⟨call, printedCall, rfl⟩ : ∃ call,
        stringCallText "find" [.string .view] (Expr.operand scope e)
          (args.map (Expr.operand scope)) = .ok call ∧
            Precedence.equality.parenthesize p (call ++ " != std::string::npos") = text := by
      simpa [callText, libraryCallText] using printed
    obtain ⟨inner, literal?, ts, object, printedInner, looked, operand, kept⟩ :=
      isKept_stringCall h find h' printedCall
    exact .ofReach printedInner operand (suffix looked) rfl (kept.search p)
  | stringIndexOf =>
    obtain ⟨call, printedCall, rfl⟩ : ∃ call,
        stringCallText "find" [.string .view] (Expr.operand scope e)
          (args.map (Expr.operand scope)) = .ok call ∧
            "static_cast<int32_t>(" ++ call ++ ")" = text := by
      simpa [callText, libraryCallText, positionCallText] using printed
    obtain ⟨inner, literal?, ts, object, printedInner, looked, operand, kept⟩ :=
      isKept_stringCall h find h' printedCall
    exact .ofReach printedInner operand (suffix looked) rfl (kept.cast p)
  | stringLastIndexOf =>
    obtain ⟨call, printedCall, rfl⟩ : ∃ call,
        stringCallText "rfind" [.string .view] (Expr.operand scope e)
          (args.map (Expr.operand scope)) = .ok call ∧
            "static_cast<int32_t>(" ++ call ++ ")" = text := by
      simpa [callText, libraryCallText, positionCallText] using printed
    obtain ⟨inner, literal?, ts, object, printedInner, looked, operand, kept⟩ :=
      isKept_stringCall h rfind h' printedCall
    exact .ofReach printedInner operand (suffix looked) rfl (kept.cast p)

/-- An assignment, alone or combined with an operator. -/
theorem isKept_assign {op : BinaryOp} (assigns : op.isAssign = true)
    (h' : (Expr.operand scope f).IsRead)
    (printed : binaryText scope op (Expr.operand scope e) (Expr.operand scope f) p = .ok text) :
    Node.IsKept scope ⟨.binary op e f, ty⟩ (e ()) .assign p text := by
  obtain ⟨inner, printedInner, value, read, rfl⟩ : ∃ inner,
      (Expr.operand scope e).plain .assign = .ok inner ∧ ∃ value, IsPhraseAt .assign value ∧
        Precedence.assign.parenthesize p (between inner op.symbol value) = text := by
    cases op with
    | assign =>
      obtain ⟨inner, printedInner, value, printedValue, rfl⟩ : ∃ inner,
          (Expr.operand scope e).plain .assign = .ok inner ∧ ∃ value,
            assignedText (Expr.operand scope e) (Expr.operand scope f) = .ok value ∧
              Precedence.assign.parenthesize p (between inner "=" value) = text := by
        simpa [binaryText, assignText] using printed
      exact ⟨inner, printedInner, value, assignedText_isPhraseAt h' printedValue, rfl⟩
    | update op =>
      obtain ⟨inner, printedInner, value, printedValue, rfl⟩ : ∃ inner,
          (Expr.operand scope e).plain .assign = .ok inner ∧ ∃ value,
            (Expr.operand scope f).plain .argument = .ok value ∧
              Precedence.assign.parenthesize p (between inner (op.symbol ++ "=") value) = text := by
        simpa [binaryText, updateText] using printed
      exact ⟨inner, printedInner, value, (h'.phrase printedValue).assign, rfl⟩
    | _ => cases assigns
  obtain ⟨isAssign, spaced⟩ := BinaryOp.symbol_of_isAssign assigns
  obtain ⟨ts, object, phrase, kind⟩ := (h.plain printedInner).isTarget
  obtain ⟨rs, r, phrase', derives'⟩ := read
  have whole := phrase.between spaced phrase'
  have holds : Node.Holds (ρ := Unit → Expr) ⟨.binary op e f, ty⟩ object =
      fun t => ∃ value, t = .assign op.symbol object value := by
    cases op <;> first | rfl | cases assigns
  have keeps : Node.Keeps scope ⟨.binary op e f, ty⟩ (e ()) .assign object ↔
      (e ()).isLoose = false := by
    rw [Node.Keeps, if_pos rfl]
  have made (u : Tree) (groups : Groups (ts ++ .mark op.symbol :: rs) u) :
      ReadsAt p (Precedence.assign.parenthesize p (between inner op.symbol value)) u := by
    have reads : ReadsAt .assign (between inner op.symbol value) u :=
      ⟨_, whole.spells, groups.derives⟩
    exact reads.parenthesize p
  have noSuffix : inner ++ Node.tightSuffix ⟨.binary op e f, ty⟩ = inner := by
    rw [Node.tightSuffix, String.append_empty]
  rcases kind with ⟨loose, groups⟩ | ⟨noLoose, derives⟩
  · obtain ⟨u, groups', torn⟩ := groups.reassign isAssign derives'
    refine ⟨inner, object, u, printedInner, ?_, made u groups', ?_⟩
    · rw [noSuffix]
      exact ⟨ts, phrase.spells, groups.derives⟩
    · rw [holds, keeps]
      constructor
      · rintro ⟨value, same⟩
        exact absurd same (torn value)
      · intro noLoose
        have loose' : (e ()).isLoose = true := loose
        rw [noLoose] at loose'
        cases loose'
  · refine ⟨inner, object, _, printedInner, ?_, made _ (.assign isAssign derives derives'), ?_⟩
    · rw [noSuffix]
      exact ⟨ts, phrase.spells, .loosen (by decide) derives⟩
    · rw [holds, keeps]
      exact ⟨fun _ => noLoose, fun _ => ⟨r, rfl⟩⟩

end Positions

/-- Whatever the printer puts behind an operand, or an assignment: the text of the whole is read to
one tree and the text of the operand to another one, and the former has the latter in its place
exactly when the operand starts with no sign and lets its tokens be, or, on the left of an
assignment, when it is neither an assignment nor a conditional. -/
theorem tight_operand_kept_iff {scope : Scope} (scopeNamed : scope.Named)
    {n : Node (Unit → Expr)} {e : Unit → Expr} {q : Precedence} (tight : n.tight? = some (e, q))
    (named : Expr.Every Node.Named (.node n))
    (apart : ∀ e ∈ n.shape.operandsOf, Expr.Every Node.IsApart (e ())) {p : Precedence}
    {text : String} (printed : (Expr.node n).text scope .plain p = .ok text) :
    ∃ inner object t, (e ()).text scope .plain q = .ok inner ∧
      ReadsAt q (inner ++ n.tightSuffix) object ∧
      (∀ u, Reads (inner ++ n.tightSuffix) u → u = object) ∧
      ReadsAt p text t ∧ (∀ u, Reads text u → u = t) ∧
      (n.Holds object t ↔ n.Keeps scope (e ()) q object) := by
  obtain ⟨namedHere, namedBelow⟩ := named.parts
  have read : ∀ e ∈ n.shape.operandsOf, (Expr.operand scope e).IsRead :=
    fun e member => Expr.isRead scopeNamed (namedBelow e member) (apart e member)
  have kept : n.IsKept scope (e ()) q p text := by
    rw [Expr.text_node] at printed
    obtain ⟨shape, ty⟩ := n
    cases shape with
    | step op operand =>
      cases tight
      exact isKept_step (read e (by simp [Shape.operandsOf])) printed
    | member object target =>
      cases tight
      exact isKept_member (read e (by simp [Shape.operandsOf])) namedHere printed
    | binary op left right =>
      have readLeft := read left (by simp [Shape.operandsOf])
      have readRight := read right (by simp [Shape.operandsOf])
      cases op with
      | index =>
        cases tight
        exact isKept_index readLeft readRight printed
      | assign =>
        cases tight
        exact isKept_assign readLeft rfl readRight printed
      | update op =>
        cases tight
        exact isKept_assign readLeft rfl readRight printed
      | _ => cases tight
    | call object method args =>
      have readArgs : ∀ x ∈ args.map (Expr.operand scope), x.IsRead := by
        intro x member
        obtain ⟨e, listed, rfl⟩ := List.mem_map.1 member
        exact read e (List.mem_cons_of_mem object listed)
      have readObject := read object (by simp [Shape.operandsOf])
      cases method with
      | user owner index =>
        cases tight
        exact isKept_userCall readObject scopeNamed readArgs printed
      | library method =>
        rw [Node.tight?] at tight
        simp only [Option.ite_none_right_eq_some, Option.some.injEq, Prod.mk.injEq] at tight
        obtain ⟨asks, rfl, rfl⟩ := tight
        exact isKept_libraryCall readObject asks readArgs printed
    | _ => cases tight
  obtain ⟨inner, object, t, printedInner, reads, reads', same⟩ := kept
  exact ⟨inner, object, t, printedInner, reads, fun u other => reads.unique other, reads',
    fun u other => reads'.unique other, same⟩

section Samples

/-- A local variable, stepped. -/
def steppedLocal : Node (Unit → Expr) :=
  ⟨.step .increment fun _ => .node ⟨.symbol (.localName "x"), .i32⟩, .i32⟩

theorem tight_operand_kept_iff_steppedLocal :
    ∃ inner object t, (Expr.node ⟨.symbol (.localName "x"), .i32⟩).text ⟨#[], #[]⟩ .plain .primary =
        .ok inner ∧
      ReadsAt .primary (inner ++ steppedLocal.tightSuffix) object ∧
      (∀ u, Reads (inner ++ steppedLocal.tightSuffix) u → u = object) ∧
      ReadsAt .statement "x++" t ∧ (∀ u, Reads "x++" u → u = t) ∧
      (steppedLocal.Holds object t ↔
        steppedLocal.Keeps ⟨#[], #[]⟩ (.node ⟨.symbol (.localName "x"), .i32⟩) .primary object) := by
  have scopeNamed : Scope.Named ⟨#[], #[]⟩ := by
    constructor <;> simp
  have leafNamed : Expr.Every Node.Named (.node ⟨.symbol (.localName "x"), .i32⟩) :=
    .node _ (by decide : IsIdentifier "x") (List.forall_mem_nil _)
  have leafApart : Expr.Every Node.IsApart (.node ⟨.symbol (.localName "x"), .i32⟩) :=
    .node _ ⟨trivial, nofun⟩ (List.forall_mem_nil _)
  exact tight_operand_kept_iff (n := steppedLocal) scopeNamed rfl
    (.node _ trivial (List.forall_mem_singleton.2 leafNamed))
    (List.forall_mem_singleton.2 leafApart) rfl

/-- The negation of a local variable, stepped. -/
def steppedNegation : Expr :=
  .node ⟨.step .increment fun _ =>
    .node ⟨.unary .neg fun _ => .node ⟨.symbol (.localName "x"), .i32⟩, .i32⟩, .i32⟩

/-- A step behind a sign steps what the sign stands before. -/
theorem step_behind_sign_torn :
    steppedNegation.text ⟨#[], #[]⟩ .plain .statement = .ok "-x++" ∧
      Reads "-x" (.prefixed "-" (.name ["x"])) ∧
      Reads "-x++" (.prefixed "-" (.postfixed "++" (.name ["x"]))) ∧
      ¬ Reads "-x++" (.postfixed "++" (.prefixed "-" (.name ["x"]))) := by
  have isPrefix : "-" ∈ prefixOps := by decide
  have name : Derives .tight [.word "x"] (.name ["x"]) := .name (by decide)
  have inner : Reads "-x" (.prefixed "-" (.name ["x"])) :=
    ⟨_, by decide, (Derives.prefixed isPrefix (.ofTight name)).ofPrimary _⟩
  have whole : Reads "-x++" (.prefixed "-" (.postfixed "++" (.name ["x"]))) :=
    ⟨[.mark "-", .word "x", .mark "++"], by decide,
      (Derives.prefixed isPrefix (.ofTight (.postfixed (by decide) name))).ofPrimary _⟩
  refine ⟨rfl, inner, whole, ?_⟩
  intro other
  have same := whole.unique other
  cases same

end Samples

end CppPrinter
