import CppPrinter.Proofs.Reading.Declaration
import CppPrinter.Proofs.Reading.Laid
import CppPrinter.Proofs.Reading.Layout
import CppPrinter.Proofs.Stmt.Emission

/-!
# Statements are read as they nest

The text of a statement made of control flow always fits the tree in which the statement nests
(`Stmt.nesting`): some choice of the grammar gives it. The printer writes braces only for blocks, so
the rules of the grammar choose that tree exactly when no condition with an alternative starts with
a statement that ends in a condition without one, and no expression starts with a brace
(`Stmt.isKept`, `nesting_kept_iff`).
-/

namespace CppPrinter

/-- The tree of a text that is an expression. -/
def treeOf (text : String) : Tree := (read? text).getD .nil

/-- The tokens of a text. -/
def tokensOf (text : String) : List Token := (lex? text).getD []

theorem Spells.tokensOf_eq {text : String} {ts : List Token} (h : Spells text ts) :
    tokensOf text = ts := by
  rw [tokensOf, lex?_eq_some_iff.2 h, Option.getD_some]

/-- The text of the expression starts with a brace. -/
def Env.opensBlock (env : Env) (id : ExprId) : Bool :=
  match env.plain id with
  | .ok text => (tokensOf text).head? == some (.mark "\x7b")
  | .error _ => false

theorem Env.opensBlock_eq (env : Env) {id : ExprId} {text : String} {ts : List Token}
    (printed : env.plain id = .ok text) (spells : Spells text ts) :
    env.opensBlock id = (ts.head? == some (.mark "\x7b")) := by
  rw [Env.opensBlock, printed]
  simp only [spells.tokensOf_eq]

/-- The tree of an optional part of the head of a loop. -/
def Env.headTree (env : Env) : Option ExprId → Rendered (Option Tree)
  | none => .ok none
  | some id => do return some (treeOf (← env.plain id))

/-- What a `throw` throws. -/
def thrownTree : Tree := .call (.name ["std", "exception"]) .nil

namespace Stmt

/-- The statement ends in a condition that has no alternative. -/
def isOpen {ρ : Type} : Stmt ρ → Bool
  | branch _ _ none => true
  | branch _ _ (some negative) => negative.isOpen
  | whileLoop _ body | forLoop _ _ _ body => body.isOpen
  | _ => false

mutual

/-- The tree in which a statement nests, with its expressions as they are read by themselves.
Declarations and switches have none. -/
def nesting (env : Env) (returnType : Option Ty) : Stmt ExprId → Rendered Nesting
  | .block body => do return .block (← nestingAll env returnType body)
  | .evaluate value => do return .evaluate (some (treeOf (← env.plain value)))
  | .ret none => .ok (.ret none)
  | .ret (some value) => do return .ret (some (treeOf (← env.returned returnType value)))
  | .branch test positive none => do
    return .branch (treeOf (← env.plain test)) (← nesting env returnType positive)
  | .branch test positive (some negative) => do
    return .choice (treeOf (← env.plain test)) (← nesting env returnType positive)
      (← nesting env returnType negative)
  | .whileLoop test body => do
    return .whileLoop (treeOf (← env.plain test)) (← nesting env returnType body)
  | .doLoop body test => do
    return .doLoop (← nesting env returnType body) (treeOf (← env.plain test))
  | .forLoop start test advance body => do
    return .forLoop (tokensOf (← env.loopStart start)) (← env.headTree test)
      (← env.headTree advance) (← nesting env returnType body)
  | .breakLoop => .ok .breakLoop
  | .continueLoop => .ok .continueLoop
  | .throwing _ => .ok (.throwing thrownTree)
  | .declare .. | .constant .. | .switch .. => .ok .nil

def nestingAll (env : Env) (returnType : Option Ty) : List (Stmt ExprId) → Rendered Nesting
  | [] => .ok .nil
  | s :: rest => do return .cons (← nesting env returnType s) (← nestingAll env returnType rest)

end

mutual

/-- No condition with an alternative starts with a statement that ends in a condition without one,
and no expression that is a statement starts with a brace. -/
def isKept (env : Env) : Stmt ExprId → Bool
  | .block body => isKeptAll env body
  | .evaluate value => !env.opensBlock value
  | .branch _ positive none => isKept env positive
  | .branch _ positive (some negative) =>
    !positive.isOpen && isKept env positive && isKept env negative
  | .whileLoop _ body | .doLoop body _ | .forLoop _ _ _ body => isKept env body
  | _ => true

def isKeptAll (env : Env) : List (Stmt ExprId) → Bool
  | [] => true
  | s :: rest => isKept env s && isKeptAll env rest

end

/-- What a loop starts with: an expression of a kind, or a declaration with such a value. Anything
else there is an error. -/
def Starts (fits : ExprId → Prop) : Stmt ExprId → Prop
  | evaluate value => fits value
  | declare name _ value => IsIdentifier name ∧ ∀ id ∈ value, fits id
  | _ => True

/-- The statement is made of control flow and expressions of a kind. -/
inductive IsControl (fits : ExprId → Prop) : Stmt ExprId → Prop where
  | block {body : List (Stmt ExprId)} :
      (∀ s ∈ body, IsControl fits s) → IsControl fits (.block body)
  | evaluate {value : ExprId} : fits value → IsControl fits (.evaluate value)
  | ret {value : Option ExprId} : (∀ id ∈ value, fits id) → IsControl fits (.ret value)
  | branch {test : ExprId} {positive : Stmt ExprId} {negative : Option (Stmt ExprId)} :
      fits test → IsControl fits positive → (∀ s ∈ negative, IsControl fits s) →
      IsControl fits (.branch test positive negative)
  | whileLoop {test : ExprId} {body : Stmt ExprId} :
      fits test → IsControl fits body → IsControl fits (.whileLoop test body)
  | doLoop {body : Stmt ExprId} {test : ExprId} :
      IsControl fits body → fits test → IsControl fits (.doLoop body test)
  | forLoop {start : Option (Stmt ExprId)} {test advance : Option ExprId} {body : Stmt ExprId} :
      (∀ s ∈ start, s.Starts fits) → (∀ id ∈ test, fits id) → (∀ id ∈ advance, fits id) →
      IsControl fits body → IsControl fits (.forLoop start test advance body)
  | breakLoop : IsControl fits .breakLoop
  | continueLoop : IsControl fits .continueLoop
  | throwing (value : ExprId) : IsControl fits (.throwing value)

end Stmt

/-- A text up to a semicolon. -/
theorem Spells.semicolon {text : String} {ts : List Token} (h : Spells text ts) :
    Spells (text ++ ";") (ts ++ [Token.mark ";"]) ∧ (tailOf (text ++ ";")).isFree = true := by
  have ended : Spells ";" [.mark ";"] := by decide
  refine ⟨h.append_splits ended (by decide), ?_⟩
  rw [tailOf_append_splits h (by decide)]
  decide

/-- A text between an opening parenthesis and its closing one. -/
theorem Spells.parens {front text : String} {us ts : List Token} (opened : Spells front us)
    (free : (tailOf front).isFree = true) (h : Spells text ts) :
    Spells (front ++ text ++ ")") (us ++ ts ++ [Token.mark ")"]) := by
  have closed : Spells ")" [.mark ")"] := by decide
  exact (opened.free_append h free).append_splits closed (by decide)

theorem IsPhraseAt.treeOf {text : String} (h : IsPhraseAt .statement text) :
    ∃ ts, Spells text ts ∧ Derives (.level .statement) ts (treeOf text) := by
  obtain ⟨ts, t, phrase, derives⟩ := h
  have reads : Reads text t := ⟨ts, phrase.spells, derives⟩
  rw [CppPrinter.treeOf, reads.read?_eq]
  exact ⟨ts, phrase.spells, derives⟩

/-- The text of the statement is read as it nests. -/
def Stmt.IsRead (env : Env) (returnType : Option Ty) (s : Stmt ExprId) : Prop :=
  ∀ f, s.render env returnType = .ok f → ∃ ts n, s.nesting env returnType = .ok n ∧
    f.Spells ts ∧ IsLaid .single ts n s.isOpen (s.isKept env)

/-- A statement on a line of its own, that the rules of the grammar leave alone. -/
theorem Stmt.IsRead.ofLine {env : Env} {returnType : Option Ty} {s : Stmt ExprId} {line : String}
    {ts : List Token} {n : Nesting}
    (rendered : s.render env returnType = .ok (.plain [.flush line]))
    (nested : s.nesting env returnType = .ok n) (spells : Spells line ts)
    (nests : ∀ ruled, Nests ruled .single ts n)
    (closed : n.isOpen = false ∧ s.isOpen = false ∧ s.isKept env = true) :
    s.IsRead env returnType := by
  intro f printed
  rw [rendered] at printed
  cases printed
  obtain ⟨noElse, noOpen, kept⟩ := closed
  refine ⟨ts, n, nested, .plain (.single spells), ?_⟩
  rw [noOpen, kept]
  exact .leaf nests noElse

section Statements

variable {env : Env} {returnType : Option Ty} {id : ExprId} {text : String}
  {body positive negative : Stmt ExprId} (scopeNamed : env.scope.Named)

include scopeNamed

attribute [local simp] Stmt.nesting Stmt.render

theorem Env.Fits.plain (h : env.Fits id) (printed : env.plain id = .ok text) :
    ∃ ts, Spells text ts ∧ Derives (.level .statement) ts (treeOf text) :=
  have positioned : Form.plain.IsPositioned := trivial
  (h.text_isPhraseAt scopeNamed positioned printed).treeOf

theorem Env.Fits.returned (h : env.Fits id) (printed : env.returned returnType id = .ok text) :
    ∃ ts, Spells text ts ∧ Derives (.level .statement) ts (treeOf text) := by
  cases returnType with
  | none => exact h.plain scopeNamed printed
  | some ty =>
    have positioned : (Form.coerced ty).IsPositioned := trivial
    exact (h.text_isPhraseAt scopeNamed positioned printed).treeOf

theorem Env.loopStart_spells {start : Option (Stmt ExprId)}
    (starts : ∀ s ∈ start, s.Starts env.Fits) (printed : env.loopStart start = .ok text) :
    ∃ ts, Spells text ts ∧ .mark ";" ∉ ts ∧ IsBalanced ts := by
  cases start with
  | none =>
    cases printed
    exact ⟨[], by decide, by simp, .nil⟩
  | some s =>
    have fits := starts s rfl
    cases s with
    | declare name ty value =>
      obtain ⟨ts, spells, noEnd, balanced, -⟩ :=
        Env.declare_spells scopeNamed fits.1 fits.2 printed
      exact ⟨ts, spells, noEnd, balanced⟩
    | evaluate value =>
      obtain ⟨ts, spells, derives⟩ := Env.Fits.plain scopeNamed fits printed
      exact ⟨ts, spells, derives.noSemicolon, derives.isBalanced⟩
    | _ => simp [Env.loopStart] at printed

theorem Env.headPart_spells {part : Option ExprId} (fits : ∀ id ∈ part, env.Fits id)
    (printed : env.headPart part = .ok text) :
    ∃ ts t, Spells text ts ∧ MayDerive ts t ∧ env.headTree part = .ok t := by
  cases part with
  | none =>
    cases printed
    exact ⟨[], none, by decide, .none, rfl⟩
  | some id =>
    obtain ⟨inner, printedInner, rfl⟩ : ∃ inner, env.plain id = .ok inner ∧
        " " ++ inner = text := by simpa [Env.headPart] using printed
    obtain ⟨ts, spells, derives⟩ := (fits id rfl).plain scopeNamed printedInner
    have space : Spells " " [] := by decide
    refine ⟨ts, _, ?_, .some derives, by simp [Env.headTree, printedInner]⟩
    exact space.free_append spells (by decide)

theorem isRead_evaluate (fits : env.Fits id) : (Stmt.evaluate id).IsRead env returnType := by
  intro f printed
  obtain ⟨text, printedValue, rfl⟩ : ∃ text, env.plain id = .ok text ∧
      Fragment.plain [.flush (text ++ ";")] = f := by simpa using printed
  obtain ⟨ts, spells, derives⟩ := fits.plain scopeNamed printedValue
  refine ⟨ts ++ [Token.mark ";"], .evaluate (some (treeOf text)), by simp [printedValue],
    .plain (.single spells.semicolon.1), ?_⟩
  rw [Stmt.isKept, env.opensBlock_eq printedValue spells]
  exact .evaluate (.some derives)

theorem isRead_ret {value : Option ExprId} (fits : ∀ id ∈ value, env.Fits id) :
    (Stmt.ret value).IsRead env returnType := by
  cases value with
  | none =>
    have spells : Spells "return;" [.word "return", .mark ";"] := by decide
    exact .ofLine rfl rfl spells (fun _ => .ret .none) ⟨rfl, rfl, rfl⟩
  | some id =>
    intro f printed
    obtain ⟨text, printedValue, rfl⟩ : ∃ text, env.returned returnType id = .ok text ∧
        Fragment.plain [.flush ("return " ++ text ++ ";")] = f := by
      simpa using printed
    obtain ⟨ts, spells, derives⟩ := (fits id rfl).returned scopeNamed printedValue
    have opened : Spells "return " [.word "return"] := by decide
    have whole := (opened.free_append spells (by decide)).semicolon.1
    exact ⟨_, .ret (some (treeOf text)), by simp [printedValue],
      .plain (.single whole), .leaf (fun _ => .ret (.some derives)) rfl⟩

theorem isRead_branch (fits : env.Fits id) (h : positive.IsRead env returnType) :
    (Stmt.branch id positive none).IsRead env returnType := by
  intro f printed
  obtain ⟨condition, printedTest, g, printedPositive, rfl⟩ : ∃ condition,
      env.plain id = .ok condition ∧ ∃ g, positive.render env returnType = .ok g ∧
        Fragment.ofBranch ("if (" ++ condition ++ ")") g none = f := by
    simpa [Stmt.renderOption] using printed
  obtain ⟨cs, spells, derives⟩ := fits.plain scopeNamed printedTest
  obtain ⟨ts, n, nested, read, laid⟩ := h _ printedPositive
  have opened : Spells "if (" [.word "if", .mark "("] := by decide
  have whole := read.ofBranch (opened.parens (by decide) spells)
  refine ⟨_, .branch (treeOf condition) n, by simp [printedTest, nested],
    by simpa using whole, laid.branch derives⟩

theorem isRead_choice (fits : env.Fits id) (h : positive.IsRead env returnType)
    (h' : negative.IsRead env returnType) :
    (Stmt.branch id positive (some negative)).IsRead env returnType := by
  intro f printed
  obtain ⟨condition, printedTest, g, printedPositive, k, printedNegative, rfl⟩ : ∃ condition,
      env.plain id = .ok condition ∧ ∃ g, positive.render env returnType = .ok g ∧
        ∃ k, negative.render env returnType = .ok k ∧
          Fragment.ofBranch ("if (" ++ condition ++ ")") g (some k) = f := by
    simpa [Stmt.renderOption] using printed
  obtain ⟨cs, spells, derives⟩ := fits.plain scopeNamed printedTest
  obtain ⟨ts, n, nested, read, laid⟩ := h _ printedPositive
  obtain ⟨us, m, nested', read', laid'⟩ := h' _ printedNegative
  have opened : Spells "if (" [.word "if", .mark "("] := by decide
  have whole := read.ofChoice read' (opened.parens (by decide) spells)
  refine ⟨_, .choice (treeOf condition) n m, by simp [printedTest, nested, nested'],
    by simpa using whole, laid.choice derives laid'⟩

theorem isRead_whileLoop (fits : env.Fits id) (h : body.IsRead env returnType) :
    (Stmt.whileLoop id body).IsRead env returnType := by
  intro f printed
  obtain ⟨condition, printedTest, g, printedBody, rfl⟩ : ∃ condition,
      env.plain id = .ok condition ∧ ∃ g, body.render env returnType = .ok g ∧
        Fragment.plain (g.under ("while (" ++ condition ++ ")")) = f := by
    simpa using printed
  obtain ⟨cs, spells, derives⟩ := fits.plain scopeNamed printedTest
  obtain ⟨ts, n, nested, read, laid⟩ := h _ printedBody
  have opened : Spells "while (" [.word "while", .mark "("] := by decide
  have whole := read.under (opened.parens (by decide) spells)
  refine ⟨_, .whileLoop (treeOf condition) n, by simp [printedTest, nested],
    .plain (by simpa using whole), laid.whileLoop derives⟩

theorem isRead_doLoop (h : body.IsRead env returnType) (fits : env.Fits id) :
    (Stmt.doLoop body id).IsRead env returnType := by
  intro f printed
  obtain ⟨g, printedBody, condition, printedTest, rfl⟩ : ∃ g,
      body.render env returnType = .ok g ∧ ∃ condition, env.plain id = .ok condition ∧
        Fragment.ofDoLoop g ("while (" ++ condition ++ ");") = f := by
    simpa using printed
  obtain ⟨cs, spells, derives⟩ := fits.plain scopeNamed printedTest
  obtain ⟨ts, n, nested, read, laid⟩ := h _ printedBody
  have opened : Spells "while (" [.word "while", .mark "("] := by decide
  have closed : Spells ");" [.mark ")", .mark ";"] := by decide
  have behind := (opened.free_append spells (by decide)).append_splits closed (by decide)
  refine ⟨_, .doLoop n (treeOf condition), by simp [printedTest, nested],
    by simpa using read.ofDoLoop behind, laid.doLoop derives⟩

theorem isRead_forLoop {start : Option (Stmt ExprId)} {test advance : Option ExprId}
    (starts : ∀ s ∈ start, s.Starts env.Fits) (fits : ∀ id ∈ test, env.Fits id)
    (fits' : ∀ id ∈ advance, env.Fits id) (h : body.IsRead env returnType) :
    (Stmt.forLoop start test advance body).IsRead env returnType := by
  intro f printed
  obtain ⟨first, printedStart, condition, printedTest, step, printedAdvance, g, printedBody, rfl⟩ :
      ∃ first, env.loopStart start = .ok first ∧ ∃ condition, env.headPart test = .ok condition ∧
        ∃ step, env.headPart advance = .ok step ∧ ∃ g, body.render env returnType = .ok g ∧
          Fragment.plain
            (g.under ("for (" ++ first ++ ";" ++ condition ++ ";" ++ step ++ ")")) = f := by
    simpa using printed
  obtain ⟨ss, spellsStart, noEnd, -⟩ := Env.loopStart_spells scopeNamed starts printedStart
  obtain ⟨cs, c, spellsTest, derivesTest, nestedTest⟩ :=
    Env.headPart_spells scopeNamed fits printedTest
  obtain ⟨as, a, spellsAdvance, derivesAdvance, nestedAdvance⟩ :=
    Env.headPart_spells scopeNamed fits' printedAdvance
  obtain ⟨ts, n, nested, read, laid⟩ := h _ printedBody
  have opened : Spells "for (" [.word "for", .mark "("] := by decide
  obtain ⟨upToTest, free⟩ := (opened.free_append spellsStart (by decide)).semicolon
  obtain ⟨upToStep, free'⟩ := (upToTest.free_append spellsTest free).semicolon
  have whole := read.under (upToStep.parens free' spellsAdvance)
  refine ⟨_, .forLoop ss c a n, ?_, .plain (by simpa using whole),
    laid.forLoop noEnd derivesTest derivesAdvance⟩
  simp [printedStart, spellsStart.tokensOf_eq, nestedTest, nestedAdvance, nested]

omit scopeNamed in
/-- The statements of a block. -/
theorem renderAll_isRead {body : List (Stmt ExprId)} (h : ∀ s ∈ body, s.IsRead env returnType)
    {fs : List Fragment} (printed : Stmt.renderAll env returnType body = .ok fs) :
    ∃ ts n, Stmt.nestingAll env returnType body = .ok n ∧
      LinesSpell (fs.flatMap Fragment.lines) ts ∧
      IsLaid .sequence ts n false (Stmt.isKeptAll env body) := by
  induction body generalizing fs with
  | nil =>
    cases printed
    exact ⟨[], .nil, rfl, .nil, .nil⟩
  | cons s rest ih =>
    obtain ⟨f, printedFirst, gs, printedRest, rfl⟩ : ∃ f, s.render env returnType = .ok f ∧
        ∃ gs, Stmt.renderAll env returnType rest = .ok gs ∧ f :: gs = fs := by
      simpa [Stmt.renderAll] using printed
    obtain ⟨ts, n, nested, read, laid⟩ := h s (List.mem_cons_self ..) f printedFirst
    obtain ⟨us, m, nested', lines, laid'⟩ :=
      ih (fun t member => h t (List.mem_cons_of_mem s member)) printedRest
    rw [List.flatMap_cons]
    exact ⟨ts ++ us, .cons n m, by simp [Stmt.nestingAll, nested, nested'],
      read.lines.append lines, laid.cons laid'⟩

omit scopeNamed in
theorem isRead_block {body : List (Stmt ExprId)} (h : ∀ s ∈ body, s.IsRead env returnType) :
    (Stmt.block body).IsRead env returnType := by
  intro f printed
  obtain ⟨fs, printedBody, rfl⟩ : ∃ fs, Stmt.renderAll env returnType body = .ok fs ∧
      Fragment.block (fs.flatMap Fragment.lines) = f := by simpa using printed
  obtain ⟨ts, n, nested, lines, laid⟩ := renderAll_isRead h printedBody
  exact ⟨_, .block n, by simp [nested], .block lines, laid.block⟩

omit scopeNamed in
theorem isRead_throwing (id : ExprId) : (Stmt.throwing id).IsRead env returnType := by
  have spells : Spells "throw std::exception();" [.word "throw", .word "std", .mark "::",
      .word "exception", .mark "(", .mark ")", .mark ";"] := by decide +kernel
  have callee : Derives .tight [.word "std", .mark "::", .word "exception"]
      (.name ["std", "exception"]) :=
    .qualify (t := .name ["std"]) (by decide) (by decide) (.name (by decide))
  have derives := (Derives.call callee .noItem).ofTightAt .statement
  exact .ofLine rfl rfl spells (fun _ => .throwing derives) ⟨rfl, rfl, rfl⟩

/-- Every statement made of control flow is read as it nests. -/
theorem Stmt.IsControl.isRead {s : Stmt ExprId} (control : s.IsControl env.Fits) :
    s.IsRead env returnType := by
  induction control with
  | block _ ih => exact isRead_block ih
  | evaluate fits => exact isRead_evaluate scopeNamed fits
  | ret fits => exact isRead_ret scopeNamed fits
  | @branch test positive negative fits _ _ ihPositive ihNegative =>
    cases negative with
    | none => exact isRead_branch scopeNamed fits ihPositive
    | some negative => exact isRead_choice scopeNamed fits ihPositive (ihNegative negative rfl)
  | whileLoop fits _ ih => exact isRead_whileLoop scopeNamed fits ih
  | doLoop _ fits ih => exact isRead_doLoop scopeNamed ih fits
  | forLoop starts fits fits' _ ih => exact isRead_forLoop scopeNamed starts fits fits' ih
  | breakLoop =>
    have spells : Spells "break;" [.word "break", .mark ";"] := by decide
    exact .ofLine rfl rfl spells (fun _ => .breakLoop) ⟨rfl, rfl, rfl⟩
  | continueLoop =>
    have spells : Spells "continue;" [.word "continue", .mark ";"] := by decide
    exact .ofLine rfl rfl spells (fun _ => .continueLoop) ⟨rfl, rfl, rfl⟩
  | throwing id => exact isRead_throwing id

end Statements

/-- The text written for a statement made of control flow fits the tree in which the statement
nests, and it is read to that tree and to no other exactly when every `else` comes behind a statement
that takes none and no expression opens a block. -/
theorem nesting_kept_iff {env : Env} (scopeNamed : env.scope.Named) {s : Stmt ExprId}
    (control : s.IsControl env.Fits) {w w' : Writer}
    (written : (Emit.statement env s).run.run w = (.ok (), w')) :
    ∃ text n, w' = { w with text := w.text ++ text } ∧ s.nesting env w.returnType? = .ok n ∧
      MayStand text n ∧ ((∀ m, Stands text m ↔ m = n) ↔ s.isKept env = true) := by
  obtain ⟨f, rendered, rfl⟩ := Emit.exists_of_run_statement written
  obtain ⟨ts, n, nested, read, laid⟩ := control.isRead scopeNamed f rendered
  have spells := read.lines.spells w.depth
  refine ⟨_, n, rfl, nested, ⟨ts, spells, laid.nests⟩, ?_⟩
  rw [← laid.ruled]
  constructor
  · intro only
    obtain ⟨us, spells', nests⟩ := (only n).2 rfl
    rwa [spells'.unique spells] at nests
  · intro nests m
    have stands : Stands _ n := ⟨ts, spells, nests⟩
    refine ⟨fun other => other.unique stands, ?_⟩
    rintro rfl
    exact stands

section Samples

/-- A local variable. -/
def sampleLocal {ρ : Type} (name : String) : Node ρ := ⟨.symbol (.localName name), .bool⟩

/-- Four local variables. -/
def sampleEnv : Env where
  scope := ⟨#[], #[]⟩
  exprs := ⟨#[sampleLocal "a", sampleLocal "b", sampleLocal "x", sampleLocal "y"]⟩

theorem sampleEnv_fits (name : String) {id : ExprId}
    (found : sampleEnv.exprs.tree id = .node (sampleLocal name)) (named : IsIdentifier name) :
    sampleEnv.Fits id := by
  constructor
  · rw [found]
    exact .node _ named (List.forall_mem_nil _)
  · rw [found]
    exact .node _ ⟨trivial, nofun⟩ (List.forall_mem_nil _)

/-- An alternative behind a loop that asks at its end. -/
def closedChoice : Stmt ExprId :=
  .branch ⟨0⟩ (.doLoop (.evaluate ⟨2⟩) ⟨1⟩) (some (.evaluate ⟨3⟩))

theorem nesting_kept_iff_closedChoice : closedChoice.isKept sampleEnv = true ∧
    ∃ text n, ({ text := "if (a)\n\tdo\n\t\tx;\n\twhile (b);\nelse\n\ty;\n" } : Writer) =
        { text := "" ++ text } ∧
      closedChoice.nesting sampleEnv none = .ok n ∧ MayStand text n ∧
      ((∀ m, Stands text m ↔ m = n) ↔ closedChoice.isKept sampleEnv = true) := by
  have scopeNamed : Scope.Named ⟨#[], #[]⟩ := by
    constructor <;> simp
  have a : sampleEnv.Fits ⟨0⟩ := sampleEnv_fits "a" rfl (by decide)
  have b : sampleEnv.Fits ⟨1⟩ := sampleEnv_fits "b" rfl (by decide)
  have x : sampleEnv.Fits ⟨2⟩ := sampleEnv_fits "x" rfl (by decide)
  have y : sampleEnv.Fits ⟨3⟩ := sampleEnv_fits "y" rfl (by decide)
  have control : closedChoice.IsControl sampleEnv.Fits := by
    refine .branch a (.doLoop (.evaluate x) b) ?_
    rintro s same
    cases same
    exact .evaluate y
  exact ⟨by decide, nesting_kept_iff (w := {}) scopeNamed control rfl⟩

/-- An alternative behind a condition without one. -/
def openChoice : Stmt ExprId :=
  .branch ⟨0⟩ (.branch ⟨1⟩ (.evaluate ⟨2⟩) none) (some (.evaluate ⟨3⟩))

def openChoiceText : String := "if (a)\n\tif (b)\n\t\tx;\nelse\n\ty;\n"

/-- The inner condition takes the alternative of the outer one. -/
theorem alternative_taken :
    (Emit.statement sampleEnv openChoice).run.run {} = (.ok (), { text := openChoiceText }) ∧
      openChoice.nesting sampleEnv none =
        .ok (.choice (.name ["a"]) (.branch (.name ["b"]) (.evaluate (some (.name ["x"]))))
          (.evaluate (some (.name ["y"])))) ∧
      Stands openChoiceText (.branch (.name ["a"])
        (.choice (.name ["b"]) (.evaluate (some (.name ["x"]))) (.evaluate (some (.name ["y"]))))) ∧
      ¬ Stands openChoiceText (.choice (.name ["a"])
        (.branch (.name ["b"]) (.evaluate (some (.name ["x"]))))
        (.evaluate (some (.name ["y"])))) := by
  have name (word : String) (operand : namesOperand word = true) :
      Derives (.level .statement) [.word word] (.name [word]) :=
    (Derives.name operand).ofTightAt .statement
  have value (word : String) (operand : namesOperand word = true) :
      Nests true .single ([Token.word word] ++ [Token.mark ";"]) (.evaluate (some (.name [word]))) :=
    .evaluate (by simp) (.some (name word operand))
  have x := value "x" (by decide)
  have y := value "y" (by decide)
  have inner := Nests.choice (fun _ => rfl) (name "b" (by decide)) x y
  have taken : Stands openChoiceText _ := ⟨_, by decide +kernel, .branch (name "a" (by decide)) inner⟩
  refine ⟨rfl, rfl, taken, ?_⟩
  intro other
  have same := taken.unique other
  cases same

end Samples

end CppPrinter
