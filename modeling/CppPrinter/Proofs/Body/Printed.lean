import CppPrinter.Proofs.Body.Surround
import CppPrinter.Proofs.Class.Name
import CppPrinter.Proofs.Reference.Member

/-!
# What is printed for a statement

Lines with balanced tokens stay so wherever they are put (`Balances`). There is a lemma here for each kind
of statement that says how its tokens are put together around those of its bodies, and from these the same
follows for every statement, however deep it nests (`Stmt.render_isFormed`).
-/

namespace CppPrinter

/-! ### Lines -/

theorem LinesSpell.unique {ls : List Line} {ts us : List Token} (h : LinesSpell ls ts)
    (h' : LinesSpell ls us) : ts = us := (h.spells 0).unique (h'.spells 0)

/-- The lines are read as tokens whose brackets nest. -/
def Balances (ls : List Line) : Prop := ∃ ts, LinesSpell ls ts ∧ IsBalanced ts

namespace Balances

variable {ls ms : List Line}

theorem nil : Balances [] := ⟨[], .nil, .nil⟩

theorem line {text : String} {ts : List Token} (h : Spells text ts) (balanced : IsBalanced ts) :
    Balances [.flush text] := ⟨ts, .single h, balanced⟩

theorem append (h : Balances ls) (h' : Balances ms) : Balances (ls ++ ms) := by
  obtain ⟨ts, first, balanced⟩ := h
  obtain ⟨us, second, balanced'⟩ := h'
  exact ⟨ts ++ us, first.append second, balanced.append balanced'⟩

theorem indented (h : Balances ls) : Balances (indented ls) := by
  obtain ⟨ts, lines, balanced⟩ := h
  exact ⟨ts, lines.indented, balanced⟩

theorem braced (h : Balances ls) : Balances (braced ls) := by
  obtain ⟨ts, lines, balanced⟩ := h
  exact ⟨_, (Fragment.Spells.block lines).lines, balanced.braces⟩

theorem of_each (each : ∀ l ∈ ls, Balances [l]) : Balances ls := by
  induction ls with
  | nil => exact .nil
  | cons l rest ih =>
    obtain ⟨here, later⟩ := List.forall_mem_cons.1 each
    exact here.append (ih later)

theorem flatten {groups : List (List Line)} (each : ∀ ls ∈ groups, Balances ls) :
    Balances groups.flatten := by
  induction groups with
  | nil => exact .nil
  | cons ls rest ih =>
    obtain ⟨here, later⟩ := List.forall_mem_cons.1 each
    exact here.append (ih later)

/-- All lines of statements in a row. -/
theorem flatMap_lines {fs : List Fragment} (each : ∀ f ∈ fs, Balances f.lines) :
    Balances (fs.flatMap Fragment.lines) := by
  rw [List.flatMap_def]
  exact .flatten (List.forall_mem_map.2 each)

theorem caseBody {fs : List Fragment} (each : ∀ f ∈ fs, Balances f.lines) :
    Balances (Fragment.caseBody fs) := by
  have before : Balances ((fs.takeWhile (!·.isDeclaration)).flatMap Fragment.lines) :=
    flatMap_lines fun f member => each f ((List.takeWhile_sublist _).subset member)
  have declared : Balances ((fs.dropWhile (!·.isDeclaration)).flatMap Fragment.lines) :=
    flatMap_lines fun f member => each f ((List.dropWhile_sublist _).subset member)
  refine (before.append ?_).indented
  split
  · exact .nil
  · exact declared.braced

end Balances

namespace Fragment

/-- A declaration is laid out like any other statement on a line. -/
def lined : Fragment → Fragment
  | declaration text => plain [.flush text]
  | f => f

theorem lines_lined (f : Fragment) : f.lined.lines = f.lines := by cases f <;> rfl

theorem under_lined (header : String) (f : Fragment) : f.lined.under header = f.under header := by
  cases f <;> rfl

theorem lined_ofBranch (header : String) (f : Fragment) (g? : Option Fragment) :
    (ofBranch header f g?).lined = ofBranch header f.lined (g?.map lined) := by
  cases f <;> rcases g? with - | g <;> first | rfl | (cases g <;> rfl)

theorem lined_ofDoLoop (f : Fragment) (condition : String) :
    (ofDoLoop f condition).lined = ofDoLoop f.lined condition := by
  cases f <;> rfl

end Fragment

namespace Stmt

/-- The expressions directly in the statement that are printed: not what is thrown, and not the value of a
constant that is folded into its uses. -/
def printedValues {ρ : Type} : Stmt ρ → List ρ
  | throwing _ => []
  | constant _ ty value => if ty.isArrayStorage then [value] else []
  | s => s.values

/-- The expressions of the statement can be read, and it declares an identifier. -/
structure IsSpellable (env : Env) (s : Stmt ExprId) : Prop where
  values : ∀ id ∈ s.printedValues, env.Fits id
  name : ∀ name ∈ s.name?, IsIdentifier name

/-- What is printed for the statement is read as the tokens. -/
def PrintsAs (env : Env) (returnType : Option Ty) (s : Stmt ExprId) (ts : List Token) : Prop :=
  ∃ f, s.render env returnType = .ok f ∧ LinesSpell f.lines ts

theorem PrintsAs.unique {env : Env} {returnType : Option Ty} {s : Stmt ExprId} {ts us : List Token}
    (h : s.PrintsAs env returnType ts) (h' : s.PrintsAs env returnType us) : ts = us := by
  obtain ⟨f, printed, lines⟩ := h
  obtain ⟨g, printed', lines'⟩ := h'
  rw [printed] at printed'
  cases printed'
  exact lines.unique lines'

/-- The layout has tokens that are put together around those of the bodies of the statement. -/
def IsFormedAs (env : Env) (returnType : Option Ty) (s : Stmt ExprId) (f : Fragment) : Prop :=
  ∃ bss ts, List.Forall₂ (PrintsAs env returnType) s.bodies bss ∧ f.lined.Spells ts ∧
    IsBalanced ts ∧ s.Surrounds env bss ts

/-- However the statement is laid out, its tokens are put together around those of its bodies. -/
def IsFormed (env : Env) (returnType : Option Ty) (s : Stmt ExprId) : Prop :=
  Gives (s.IsFormedAs env returnType) (s.render env returnType)

variable {env : Env} {returnType : Option Ty}

theorem IsFormedAs.balances {s : Stmt ExprId} {f : Fragment} (h : s.IsFormedAs env returnType f) :
    Balances f.lines := by
  obtain ⟨bss, ts, -, spells, balanced, -⟩ := h
  exact ⟨ts, f.lines_lined ▸ spells.lines, balanced⟩

/-- A statement on a line of its own, up to a semicolon. -/
theorem IsFormedAs.ofLine {s : Stmt ExprId} {f : Fragment} {text : String} {ts : List Token}
    (lined : f.lined = .plain [.flush (text ++ ";")]) (spells : Spells text ts)
    (balanced : IsBalanced ts) (alone : s.bodies = [])
    (surrounds : s.Surrounds env [] (ts ++ [Token.mark ";"])) : s.IsFormedAs env returnType f := by
  refine ⟨[], _, ?_, ?_, balanced.concat (by decide), surrounds⟩
  · rw [alone]
    exact .nil
  · rw [lined]
    exact .plain (.single spells.semicolon.1)

/-- What is printed for a statement inside another. -/
theorem IsFormed.reads_body {s : Stmt ExprId} (h : s.IsFormed env returnType) :
    Gives (fun f => ∃ ts, s.PrintsAs env returnType ts ∧ f.lined.Spells ts ∧ IsBalanced ts)
      (s.render env returnType) := by
  intro f printed
  obtain ⟨bss, ts, -, spells, balanced, -⟩ := h f printed
  exact ⟨ts, ⟨f, printed, f.lines_lined ▸ spells.lines⟩, spells, balanced⟩

theorem renderAll_balances {body : List (Stmt ExprId)}
    (each : ∀ s ∈ body, s.IsFormed env returnType) :
    Gives (fun fs => ∀ f ∈ fs, Balances f.lines) (renderAll env returnType body) := by
  rw [renderAll_eq_mapM]
  exact .mapM fun s member => (each s member).mono fun f formed => formed.balances

end Stmt

/-! ### Expressions -/

theorem MayDerive.isBalanced {ts : List Token} {t? : Option Tree} (h : MayDerive ts t?) :
    IsBalanced ts := by
  cases h with
  | none => exact .nil
  | some derives => exact derives.isBalanced

/-- An expression that starts with no brace goes up to the semicolon behind it. -/
theorem Derives.isLine {ts : List Token} {t : Tree} (h : Derives (.level .statement) ts t)
    (noBrace : ts.head? ≠ some (.mark "\x7b")) : IsLine ts := by
  have operands : ∀ token ∈ compoundStarts, token.startsOperand = true → token = .mark "\x7b" := by
    decide +kernel
  obtain ⟨token, rest, rfl, starts⟩ := h.startsOperand nofun
  refine ⟨h.noSemicolon, ?_⟩
  rintro _ ⟨⟩ listed
  exact noBrace (congrArg some (operands token listed starts))

/-- What goes up to a semicolon behind a word that starts nothing else. -/
theorem IsLine.ofWord {word : String} {ts : List Token} (noEnd : .mark ";" ∉ ts)
    (begins : word ∉ compoundWords) : IsLine (.word word :: ts) where
  noEnd := by simp [noEnd]
  begins := by
    rintro _ ⟨⟩
    rwa [word_mem_compoundStarts]

theorem StartsType.isLine {ts : List Token} (h : StartsType ts) (noEnd : .mark ";" ∉ ts) :
    IsLine ts := by
  have untyped : ∀ word ∈ compoundWords, word ∈ keywords ∧ word ∉ "const" :: typeWords := by decide +kernel
  obtain ⟨word, rest, rfl, typed⟩ := h
  refine .ofWord (fun member => noEnd (List.mem_cons_of_mem _ member)) fun member => ?_
  obtain ⟨keyword, noType⟩ := untyped word member
  rcases typed with free | isType
  · exact free keyword
  · exact noType isType

/-- A statement that is a word and a semicolon. -/
theorem Stmt.IsFormedAs.ofWord {env : Env} {returnType : Option Ty} {s : Stmt ExprId} {f : Fragment}
    (word : String) (lined : f.lined = .plain [.flush (word ++ ";")])
    (spells : Spells word [.word word]) (single : Token.word word ∉ brackets)
    (begins : word ∉ compoundWords) (alone : s.bodies = []) (closed : s.openIfs = 0)
    (filled : s.isFilled env = true) : s.IsFormedAs env returnType f :=
  .ofLine lined spells (.single single) alone
    (.line alone closed filled (.ofWord (by simp) begins))

section Statements

variable {env : Env} {returnType : Option Ty} {id : ExprId} {body positive negative : Stmt ExprId}
  (scopeNamed : env.scope.Named)

include scopeNamed

theorem Env.returned_reads (fits : env.Fits id) :
    Gives (fun text => ∃ ts t, Spells text ts ∧ Derives (.level .statement) ts t)
      (env.returned returnType id) := by
  intro text printed
  obtain ⟨ts, spells, derives⟩ := fits.returned scopeNamed printed
  exact ⟨ts, _, spells, derives⟩

/-- A condition between the word of a header with its parenthesis and what closes that. -/
theorem Env.header_reads (fits : env.Fits id) {lead back word : String} {us : List Token}
    (opened : Spells lead [.word word, .mark "("]) (free : (tailOf lead).isFree = true)
    (closed : Spells back us) (splits : Splits back) :
    Gives (fun text => ∃ cs, closesParens 0 cs = true ∧ IsBalanced cs ∧
      Spells (lead ++ text ++ back) (.word word :: .mark "(" :: (cs ++ us))) (env.plain id) := by
  intro text printed
  obtain ⟨cs, spells, derives⟩ := fits.plain scopeNamed printed
  exact ⟨cs, derives.closesParens, derives.isBalanced,
    (opened.free_append spells free).append_splits closed splits⟩

/-! ### Statements -/

theorem isFormed_evaluate (fits : env.Fits id) : (Stmt.evaluate id).IsFormed env returnType := by
  intro f printed
  obtain ⟨text, printedValue, ⟨⟩⟩ := bind_eq_ok_iff.1 printed
  obtain ⟨ts, spells, derives⟩ := fits.plain scopeNamed printedValue
  have same := env.opensBlock_eq printedValue spells
  refine .ofLine rfl spells derives.isBalanced rfl ?_
  by_cases brace : ts.head? = some (.mark "\x7b")
  · exact .opening (by simp [same, brace]) brace derives.isBalanced
  · exact .line rfl rfl (by simp [Stmt.isFilled, same, brace]) (derives.isLine brace)

theorem isFormed_declare {name : String} {ty : Ty} {value : Option ExprId}
    (named : IsIdentifier name) (fits : ∀ id ∈ value, env.Fits id) :
    (Stmt.declare name ty value).IsFormed env returnType := by
  intro f printed
  obtain ⟨text, printedText, ⟨⟩⟩ := bind_eq_ok_iff.1 printed
  obtain ⟨ts, spells, noEnd, balanced, first⟩ :=
    Env.declare_spells scopeNamed named fits printedText
  exact .ofLine rfl spells balanced rfl (.line rfl rfl rfl (first.isLine noEnd))

theorem isFormed_constant {name : String} {ty : Ty} (named : IsIdentifier name)
    (fits : ty.isArrayStorage = true → env.Fits id) :
    (Stmt.constant name ty id).IsFormed env returnType := by
  intro f printed
  obtain ⟨ls, printedLines, ⟨⟩⟩ := bind_eq_ok_iff.1 printed
  unfold Env.localConstant at printedLines
  split at printedLines
  · rename_i stored
    obtain ⟨text, printedText, ⟨⟩⟩ := bind_eq_ok_iff.1 printedLines
    obtain ⟨front, ts, rfl, spells, noEnd, balanced⟩ :=
      Env.constant_spells scopeNamed named (fits stored) printedText
    exact .ofLine rfl spells (balanced.cons (by decide)) rfl
      (.line rfl rfl stored (.ofWord noEnd (by decide)))
  · rename_i scalar
    cases printedLines
    exact ⟨[], [], .nil, .plain .nil, .nil, .folded (by simpa using scalar)⟩

theorem isFormed_ret {value : Option ExprId} (fits : ∀ id ∈ value, env.Fits id) :
    (Stmt.ret value).IsFormed env returnType := by
  cases value with
  | none => exact .ok (.ofWord "return" rfl (by decide) (by decide) (by decide) rfl rfl rfl)
  | some id =>
    refine (Env.returned_reads scopeNamed (fits id rfl)).bind fun text read => .ok ?_
    obtain ⟨ts, t, spells, derives⟩ := read
    have opened : Spells "return " [.word "return"] := by decide
    exact .ofLine rfl (opened.free_append spells (by decide)) (derives.isBalanced.cons (by decide)) rfl
      (.line rfl rfl rfl (.ofWord derives.noSemicolon (by decide)))

/-- A condition without an alternative. -/
theorem isFormed_branch (fits : env.Fits id) (h : positive.IsFormed env returnType) :
    (Stmt.branch id positive none).IsFormed env returnType := by
  have opened : Spells "if (" [.word "if", .mark "("] := by decide
  have closed : Spells ")" [.mark ")"] := by decide
  refine (Env.header_reads scopeNamed fits opened (by decide) closed (by decide)).bind
    fun condition head => h.reads_body.bind fun f read => .ok ?_
  obtain ⟨cs, closes, balanced, header⟩ := head
  obtain ⟨ps, prints, spells, inner⟩ := read
  refine ⟨[ps], _, .cons prints .nil, ?_, ?_, .branch closes⟩
  · rw [Fragment.lined_ofBranch]
    simpa using spells.ofBranch header
  · exact .cons (by decide) (balanced.parens_append inner)

/-- A condition with an alternative. -/
theorem isFormed_choice (fits : env.Fits id) (h : positive.IsFormed env returnType)
    (h' : negative.IsFormed env returnType) :
    (Stmt.branch id positive (some negative)).IsFormed env returnType := by
  have opened : Spells "if (" [.word "if", .mark "("] := by decide
  have closed : Spells ")" [.mark ")"] := by decide
  refine (Env.header_reads scopeNamed fits opened (by decide) closed (by decide)).bind
    fun condition head => h.reads_body.bind fun f read => ?_
  obtain ⟨cs, closes, balanced, header⟩ := head
  obtain ⟨ps, prints, spells, inner⟩ := read
  have alternative : Gives (fun f? => ∃ g ns, f? = some g ∧ negative.PrintsAs env returnType ns ∧
      g.lined.Spells ns ∧ IsBalanced ns) (Stmt.renderOption env returnType (some negative)) :=
    h'.reads_body.bind fun g read' => .ok ⟨g, read'.choose, rfl, read'.choose_spec⟩
  refine alternative.bind fun f? otherwise => .ok ?_
  obtain ⟨g, ns, rfl, prints', spells', inner'⟩ := otherwise
  refine ⟨[ps, ns], _, .cons prints (.cons prints' .nil), ?_, ?_, .choice closes⟩
  · rw [Fragment.lined_ofBranch]
    simpa using spells.ofChoice spells' header
  · exact .cons (by decide) (balanced.parens_append (inner.append (inner'.cons (by decide))))

theorem isFormed_whileLoop (fits : env.Fits id) (h : body.IsFormed env returnType) :
    (Stmt.whileLoop id body).IsFormed env returnType := by
  have opened : Spells "while (" [.word "while", .mark "("] := by decide
  have closed : Spells ")" [.mark ")"] := by decide
  refine (Env.header_reads scopeNamed fits opened (by decide) closed (by decide)).bind
    fun condition head => h.reads_body.bind fun f read => .ok ?_
  obtain ⟨cs, closes, balanced, header⟩ := head
  obtain ⟨bs, prints, spells, inner⟩ := read
  refine ⟨[bs], _, .cons prints .nil, .plain ?_, ?_, .whileLoop closes⟩
  · rw [← Fragment.under_lined]
    simpa using spells.under header
  · exact .cons (by decide) (balanced.parens_append inner)

theorem isFormed_doLoop (h : body.IsFormed env returnType) (fits : env.Fits id) :
    (Stmt.doLoop body id).IsFormed env returnType := by
  have opened : Spells "while (" [.word "while", .mark "("] := by decide
  have closed : Spells ");" [.mark ")", .mark ";"] := by decide
  refine h.reads_body.bind fun f read =>
    (Env.header_reads scopeNamed fits opened (by decide) closed (by decide)).bind
      fun condition head => .ok ?_
  obtain ⟨bs, prints, spells, inner⟩ := read
  obtain ⟨cs, closes, balanced, behind⟩ := head
  refine ⟨[bs], _, .cons prints .nil, ?_, ?_, .doLoop closes⟩
  · rw [Fragment.lined_ofDoLoop]
    exact spells.ofDoLoop behind
  · exact .cons (by decide) (inner.append (.cons (by decide)
      (balanced.parens_append (.single (by decide)))))

theorem isFormed_forLoop {start : Option (Stmt ExprId)} {test advance : Option ExprId}
    (starts : ∀ s ∈ start, s.Starts env.Fits) (fits : ∀ id ∈ test, env.Fits id)
    (fits' : ∀ id ∈ advance, env.Fits id) (h : body.IsFormed env returnType) :
    (Stmt.forLoop start test advance body).IsFormed env returnType := by
  have first : Gives (fun text => ∃ ts, Spells text ts ∧ .mark ";" ∉ ts ∧ IsBalanced ts)
      (env.loopStart start) := fun _ => Env.loopStart_spells scopeNamed starts
  have part {part : Option ExprId} (fits : ∀ id ∈ part, env.Fits id) :
      Gives (fun text => ∃ ts t, Spells text ts ∧ MayDerive ts t ∧ env.headTree part = .ok t)
        (env.headPart part) := fun _ => Env.headPart_spells scopeNamed fits
  refine first.bind fun _ read => (part fits).bind fun _ read' => (part fits').bind fun _ read'' =>
    h.reads_body.bind fun f inner => .ok ?_
  obtain ⟨ss, spellsStart, noEnd, balancedStart⟩ := read
  obtain ⟨cs, c, spellsTest, derivesTest, -⟩ := read'
  obtain ⟨as, a, spellsAdvance, derivesAdvance, -⟩ := read''
  obtain ⟨bs, prints, spells, balanced⟩ := inner
  refine ⟨[bs], _, .cons prints .nil, .plain ?_, ?_,
    .forLoop noEnd derivesTest.closesParens derivesAdvance.closesParens⟩
  · have opened : Spells "for (" [.word "for", .mark "("] := by decide
    obtain ⟨upToTest, free⟩ := (opened.free_append spellsStart (by decide)).semicolon
    obtain ⟨upToStep, free'⟩ := (upToTest.free_append spellsTest free).semicolon
    rw [← Fragment.under_lined]
    simpa using spells.under (upToStep.parens free' spellsAdvance)
  · have heads := balancedStart.append ((derivesTest.isBalanced.append
      (derivesAdvance.isBalanced.cons (by decide : Token.mark ";" ∉ brackets))).cons
        (by decide : Token.mark ";" ∉ brackets))
    have whole := IsBalanced.cons (by decide : Token.word "for" ∉ brackets)
      (heads.parens_append balanced)
    simpa using whole

omit scopeNamed in
theorem isFormed_block {body : List (Stmt ExprId)}
    (each : ∀ s ∈ body, s.IsFormed env returnType) : (Stmt.block body).IsFormed env returnType := by
  rw [Stmt.IsFormed, Stmt.render]
  refine (Stmt.renderAll_balances each).bind fun fs balances => .ok ?_
  obtain ⟨bs, lines, balanced⟩ := Balances.flatMap_lines balances
  exact ⟨[], _, .nil, .block lines, balanced.braces, .block balanced⟩

theorem Env.labels_balance {ids : List ExprId} (fits : ∀ id ∈ ids, env.Fits id) :
    Gives Balances (env.labels ids) := by
  refine (Gives.mapM fun id member => ?_).mono fun ls each => Balances.of_each each
  have positioned : Form.plain.IsPositioned := trivial
  have phrased : Gives (IsPhraseAt .statement) (env.plain id) := fun _ =>
    (fits id member).text_isPhraseAt scopeNamed positioned
  refine phrased.bind fun text phrase => .ok ?_
  obtain ⟨ts, t, phrase, derives⟩ := phrase
  have opened : Spells "case " [.word "case"] := by decide
  have colon : Spells ":" [.mark ":"] := by decide
  have joins : Joins text ":" := phrase.joins_joint rfl (by decide)
  have whole := opened.free_append (phrase.spells.append colon joins) (by decide)
  rw [← String.append_assoc] at whole
  exact .line whole (.cons (by decide) (derives.isBalanced.concat (by decide)))

theorem renderCases_balance {cases : List (List ExprId × List (Stmt ExprId))}
    (fits : ∀ id ∈ cases.flatMap Prod.fst, env.Fits id)
    (each : ∀ s ∈ cases.flatMap Prod.snd, s.IsFormed env returnType) :
    Gives Balances (Stmt.renderCases env returnType cases) := by
  induction cases with
  | nil => exact .ok .nil
  | cons group rest ih =>
    obtain ⟨labels, body⟩ := group
    obtain ⟨here, later⟩ := List.forall_mem_append.1 each
    obtain ⟨fits, fits'⟩ := List.forall_mem_append.1 fits
    exact (Env.labels_balance scopeNamed fits).bind fun _ heads =>
      (Stmt.renderAll_balances here).bind fun _ balances => (ih fits' later).bind fun _ others =>
        .ok ((heads.append (.caseBody balances)).append others)

theorem isFormed_switch {cases : List (List ExprId × List (Stmt ExprId))}
    {otherwise : Option (List (Stmt ExprId))} (fits : env.Fits id)
    (fits' : ∀ id ∈ cases.flatMap Prod.fst, env.Fits id)
    (each : ∀ s ∈ cases.flatMap Prod.snd, s.IsFormed env returnType)
    (last : ∀ s ∈ otherwise.getD [], s.IsFormed env returnType) :
    (Stmt.switch id cases otherwise).IsFormed env returnType := by
  have remaining : Gives Balances (Stmt.renderDefault env returnType otherwise) := by
    cases otherwise with
    | none => exact .ok .nil
    | some body =>
      have label : Spells "default:" [.word "default", .mark ":"] := by decide
      exact (Stmt.renderAll_balances last).bind fun _ balances =>
        .ok ((Balances.line label (.cons (by decide) (.single (by decide)))).append
          (.caseBody balances))
  have opened : Spells "switch (" [.word "switch", .mark "("] := by decide
  have closed : Spells ") \x7b" [.mark ")", .mark "\x7b"] := by decide
  refine (Env.header_reads scopeNamed fits opened (by decide) closed (by decide)).bind
    fun _ head => (renderCases_balance scopeNamed fits' each).bind fun _ groups =>
      remaining.bind fun _ others => .ok ?_
  obtain ⟨cs, closes, balanced, header⟩ := head
  obtain ⟨bs, lines, inner⟩ := groups.append others
  have brace : Spells "\x7d" [.mark "\x7d"] := by decide
  refine ⟨[], _, .nil, .plain ?_, ?_, .switch closes inner⟩
  · simpa using LinesSpell.flush header (lines.append (.single brace))
  · exact .cons (by decide) (balanced.parens_append inner.braces)

attribute [local simp] Stmt.printedValues Stmt.values in
/-- The expressions of a statement can be read, and what it declares is an identifier: then its tokens
are put together around those of its bodies, if the statements inside are like that. -/
theorem Stmt.isFormed_step {s : Stmt ExprId} (spellable : s.IsSpellable env)
    (inside : ∀ t ∈ s.children, t.IsSpellable env)
    (below : ∀ t ∈ s.children, t.IsFormed env returnType) :
    s.IsFormed env returnType := by
  obtain ⟨values, named⟩ := spellable
  cases s with
  | block body => exact isFormed_block below
  | declare name ty value =>
    exact isFormed_declare scopeNamed (named name rfl) (by simpa using values)
  | constant name ty value =>
    exact isFormed_constant scopeNamed (named name rfl) fun stored => values value (by simp [stored])
  | evaluate value => exact isFormed_evaluate scopeNamed (values value (by simp))
  | ret value => exact isFormed_ret scopeNamed (by simpa using values)
  | branch test positive negative =>
    have fits := values test (by simp)
    obtain ⟨first, second⟩ := List.forall_mem_cons.1 below
    cases negative with
    | none => exact isFormed_branch scopeNamed fits first
    | some negative =>
      exact isFormed_choice scopeNamed fits first (second negative (List.mem_singleton_self _))
  | whileLoop test body =>
    exact isFormed_whileLoop scopeNamed (values test (by simp))
      (below body (List.mem_singleton_self _))
  | doLoop body test =>
    exact isFormed_doLoop scopeNamed (below body (List.mem_singleton_self _))
      (values test (by simp))
  | forLoop start test advance body =>
    obtain ⟨tests, advances⟩ := List.forall_mem_append.1 values
    refine isFormed_forLoop scopeNamed ?_ (by simpa using tests) (by simpa using advances)
      (below body (List.mem_append_right _ (List.mem_singleton_self _)))
    intro s member
    obtain ⟨values, named⟩ := inside s (List.mem_append_left _ (Option.mem_toList.2 member))
    cases s with
    | declare name ty value => exact ⟨named name rfl, by simpa using values⟩
    | evaluate value => exact values value (by simp)
    | _ => trivial
  | switch value cases otherwise =>
    obtain ⟨chosen, labels⟩ := List.forall_mem_cons.1 values
    obtain ⟨each, last⟩ := List.forall_mem_append.1 below
    exact isFormed_switch scopeNamed chosen labels each last
  | breakLoop => exact .ok (.ofWord "break" rfl (by decide) (by decide) (by decide) rfl rfl rfl)
  | continueLoop =>
    exact .ok (.ofWord "continue" rfl (by decide) (by decide) (by decide) rfl rfl rfl)
  | throwing value =>
    have spells : Spells "throw std::exception()" [.word "throw", .word "std", .mark "::",
        .word "exception", .mark "(", .mark ")"] := by decide
    have call : IsBalanced [.mark "(", .mark ")"] := .parens .nil
    exact .ok (.ofLine rfl spells
      (.cons (by decide) (.cons (by decide) (.cons (by decide) (call.cons (by decide))))) rfl
      (.line rfl rfl rfl (.ofWord (by decide) (by decide))))

/-- Whatever is printed for a statement, its tokens are put together around those of its bodies. -/
theorem Stmt.render_isFormed {s : Stmt ExprId} (spellable : s.Every (IsSpellable env)) :
    s.IsFormed env returnType := by
  induction s using Stmt.induction with
  | step s ih =>
    obtain ⟨here, below⟩ := spellable.parts
    exact isFormed_step scopeNamed here (fun t member => (below t member).parts.1)
      fun t member => ih t member (below t member)

end Statements

end CppPrinter
