import CppPrinter.Proofs.Layout.Writing
import CppPrinter.Proofs.Stmt.Induction

/-!
# Steps of writing against the layout

A statement is written step by step, with lines left open and blocks opened on the way; its layout puts
the same lines together without any state. What the layout comes to where a statement stands is one
passage (`Fragment.passage`), and the steps put that passage (`Emit.follows`): by themselves,
below a header and behind an `else` alike, at every depth and while any method is being written.
-/

namespace CppPrinter

open Emit (Spot)

/-! ### Layouts as passages -/

namespace Fragment

/-- What a statement puts behind a header, whose line is open. A block leaves its last line open. -/
def below : Fragment → Passage
  | block body => .ofText " \x7b" ++ (.ofText "\n" ++ ((Passage.ofLines body).deeper ++
    (.tabs ++ .ofText "\x7d")))
  | f => .ofText "\n" ++ (Passage.ofLines f.lines).deeper

/-- What ends the line that a statement below a header left open. -/
def ending (f : Fragment) : Passage := if f.isBlock then .ofText "\n" else .ofText ""

/-- What leads to a text behind a statement below a header: the open line, or a line of its own. -/
def lead (f : Fragment) : Passage := if f.isBlock then .ofText " " else .tabs

/-- What a statement puts where it stands. -/
def passage : Spot → Fragment → Passage
  | .alone, f => .ofLines f.lines
  | .child, f => f.below
  | .alternative, conditional first rest =>
    .ofText " " ++ (.ofText first ++ (.ofText "\n" ++ .ofLines rest))
  | .alternative, f => f.below ++ f.ending

/-- What a conditional puts from its `if` on. -/
def chain : Fragment → Passage
  | conditional first rest => .ofText first ++ (.ofText "\n" ++ .ofLines rest)
  | f => .ofLines f.lines

/-- What a conditional puts where it stands, given from its `if` on. -/
def chained : Spot → Passage → Passage
  | .alone, t => .tabs ++ t
  | .child, t => .ofText "\n" ++ (Passage.tabs ++ t).deeper
  | .alternative, t => .ofText " " ++ t

open Passage

/-- A statement below a header with nothing to follow. -/
theorem ofText_below_ending (header : String) (f : Fragment) :
    ofText header ++ (f.below ++ f.ending) =
      ofText (f.headed header) ++ (ofText "\n" ++ ofLines (f.inner ++ f.closing)) := by
  cases f <;> simp [below, ending, isBlock, headed, inner, closing, ofText_append, ofLines_append,
    ofLines_indented, ofLines_flush, ofLines_nil]

theorem ofLines_under (header : String) (f : Fragment) :
    ofLines (f.under header) = tabs ++ (ofText header ++ (f.below ++ f.ending)) := by
  rw [ofText_below_ending, under, ofLines_flush]
  simp

/-- A statement below a header with a text to follow. -/
theorem ofText_below_lead (header next : String) (f : Fragment) :
    ofText header ++ (f.below ++ (f.lead ++ ofText next)) =
      ofText (f.headed header) ++ (ofText "\n" ++ (ofLines f.inner ++
        (tabs ++ ofText (f.followedBy next)))) := by
  have brace : ofText "\x7d " = ofText "\x7d" ++ ofText " " := rfl
  cases f <;> simp [below, lead, isBlock, headed, inner, followedBy, ofText_append, ofLines_indented,
    brace]

theorem ofLines_asElse (start : String) (f : Fragment) :
    ofLines (f.asElse start) = tabs ++ (ofText start ++ f.passage .alternative) := by
  cases f with
  | conditional first rest => simp [asElse, passage, ofLines_flush, ofText_append]
  | _ => exact ofLines_under start _

/-- A conditional without an alternative, from its `if` on. -/
theorem chain_ofBranch_none (header : String) (f : Fragment) :
    (ofBranch header f none).chain = ofText header ++ (f.below ++ f.ending) :=
  (ofText_below_ending header f).symm

/-- A conditional with an alternative, from its `if` on. -/
theorem chain_ofBranch_some (header : String) (f g : Fragment) :
    (ofBranch header f (some g)).chain =
      ofText header ++ (f.below ++ (f.lead ++ (ofText "else" ++ g.passage .alternative))) := by
  have front := congrArg (· ++ g.passage .alternative) (ofText_below_lead header "else" f)
  simp only [append_assoc] at front
  rw [front, ofBranch, chain, ofLines_append, ofLines_asElse]

theorem chained_chain_ofBranch (spot : Spot) (header : String) (f : Fragment) (g? : Option Fragment) :
    chained spot (ofBranch header f g?).chain = (ofBranch header f g?).passage spot := by
  cases g? <;> cases spot <;>
    simp [ofBranch, chain, chained, passage, below, lines, ofLines_flush]

theorem ofLines_ofDoLoop (f : Fragment) (condition : String) :
    ofLines (ofDoLoop f condition).lines = tabs ++ (ofText "do" ++ (f.below ++
      (f.lead ++ (ofText condition ++ ofText "\n")))) := by
  have front := congrArg (tabs ++ · ++ ofText "\n") (ofText_below_lead "do" condition f)
  simp only [append_assoc] at front
  rw [front, ofDoLoop, lines, ofLines_flush, ofLines_append, ofLines_flush]
  simp [ofLines_nil]

end Fragment

namespace Emit

/-- The steps of the statement come to its layout, wherever the statement stands. -/
def Follows (env : Env) (method : Option Signature) (s : Stmt ExprId) : Prop :=
  ∀ spot, Puts (statementAt env s spot) method
    (Fragment.passage spot <$> s.render env (method.map Signature.returnType))

theorem Follows.writes {env : Env} {method : Option Signature} {s : Stmt ExprId}
    (follows : Follows env method s) :
    Writes (statement env s) method
      (do return (← s.render env (method.map Signature.returnType)).lines) := by
  refine Puts.congr (follows .alone) ?_
  cases s.render env (method.map Signature.returnType) <;> rfl

namespace Puts

variable {env : Env} {method : Option Signature} {piece : Emit Unit} {r : Rendered (List Line)}

/-! ### Forms of statements -/

theorem trailingBlock (h : Writes piece method r) :
    Puts (trailingBlock piece) method (do return (Fragment.block (← r)).below) := by
  refine ((write _).seq (endLine.seq ((deeper h).seq (startLine.seq (write _))))).congr ?_
  cases r <;> rfl

theorem block (h : Writes piece method r) (spot : Spot) :
    Puts (block piece spot) method (do return (Fragment.block (← r)).passage spot) := by
  cases spot with
  | alone =>
    refine Puts.congr (Writes.inBlock h) ?_
    cases r <;> rfl
  | child => exact trailingBlock h
  | alternative =>
    refine ((trailingBlock h).seq endLine).congr ?_
    cases r <;> rfl

theorem ownLines (h : Writes piece method r) (spot : Spot) :
    Puts (ownLines piece spot) method (do return (Fragment.plain (← r)).passage spot) := by
  have below : Puts (do Emit.endLine; Emit.deeper piece) method
      (do return (Fragment.plain (← r)).below) := by
    refine (endLine.seq (deeper h)).congr ?_
    cases r <;> rfl
  cases spot with
  | alone =>
    refine Puts.congr h ?_
    cases r <;> rfl
  | child => exact below
  | alternative =>
    refine below.congr ?_
    cases r with
    | error e => rfl
    | ok ls => exact congrArg Except.ok (Passage.append_ofText_empty _).symm

theorem conditional {chain : Emit Unit} {r : Rendered Passage} (h : Puts chain method r) (spot : Spot) :
    Puts (conditional chain spot) method (Fragment.chained spot <$> r) := by
  cases spot with
  | alone =>
    refine (startLine.seq h).congr ?_
    cases r <;> rfl
  | child =>
    refine (endLine.seq (deeper (startLine.seq h))).congr ?_
    cases r <;> rfl
  | alternative =>
    refine ((write " ").seq h).congr ?_
    cases r <;> rfl

theorem localConstant (env : Env) (name : String) (ty : Ty) (value : ExprId)
    (method : Option Signature) :
    Writes (localConstant env name ty value) method (env.localConstant name ty value) := by
  unfold Emit.localConstant Env.localConstant
  split
  · exact Writes.ofRendered fun text => Writes.line text
  · exact nothing

theorem returnLine (env : Env) (value : ExprId) (method : Option Signature) :
    Writes (returnLine env value) method (do
      return [.flush ("return " ++ (← env.returned (method.map Signature.returnType) value) ++ ";")]) := by
  have line (text : String) : Writes (Emit.line ("return " ++ text ++ ";")) method
      (.ok [.flush ("return " ++ text ++ ";")]) := Writes.line _
  exact ofReturnType (f := fun returnType => do
    let text ← Emit.ofRendered (env.returned returnType value)
    Emit.line ("return " ++ text ++ ";"))
    (Writes.ofRendered (x := env.returned (method.map Signature.returnType) value) line)

/-! ### Statements below a header -/

section Header

variable {s : Stmt ExprId} {f : Fragment} (kind : f.isDeclaration = s.isVariable ∧ f.isBlock = s.isBlock)

include kind

theorem finish : Puts (finish s) method (.ok f.ending) := by
  unfold Emit.finish Fragment.ending
  rw [kind.2]
  cases s.isBlock with
  | true => exact endLine
  | false => exact nothing

theorem follow (text : String) : Puts (follow s text) method (.ok (f.lead ++ .ofText text)) := by
  unfold Emit.follow Fragment.lead
  rw [kind.2]
  cases s.isBlock with
  | true => exact (write _).congr (congrArg Except.ok (Passage.ofText_append " " text))
  | false => exact startLine.seq (write text)

end Header

/-- A header and the statement below it, with nothing to follow. -/
theorem header {s : Stmt ExprId} (follows : Follows env method s) (text : String) :
    Writes (do Emit.startLine; Emit.write text; statementAt env s .child; Emit.finish s) method
      (do return (← s.render env (method.map Signature.returnType)).under text) := by
  have child := (follows .child).andThen fun f rendered => finish (s.render_kind env _ f rendered)
  refine (startLine.seq ((write text).seq child)).congr ?_
  simp [Fragment.ofLines_under, Fragment.passage]

theorem doLoop {s : Stmt ExprId} (follows : Follows env method s) (test : ExprId) :
    Writes (do
      Emit.startLine
      Emit.write "do"
      statementAt env s .child
      let condition ← Emit.ofRendered (env.plain test)
      Emit.follow s ("while (" ++ condition ++ ");")
      Emit.endLine) method
      (do
        let f ← s.render env (method.map Signature.returnType)
        let condition ← env.plain test
        return (Fragment.ofDoLoop f ("while (" ++ condition ++ ");")).lines) := by
  have child := (follows .child).andThen fun f rendered => ofRendered (x := env.plain test)
    fun condition => (follow (s.render_kind env _ f rendered) ("while (" ++ condition ++ ");")).seq endLine
  refine (startLine.seq ((write "do").seq child)).congr ?_
  simp [Fragment.ofLines_ofDoLoop, Fragment.passage]

theorem branch {positive : Stmt ExprId} {negative : Option (Stmt ExprId)}
    (first : Follows env method positive) (second : ∀ s ∈ negative, Follows env method s)
    (test : ExprId) (spot : Spot) :
    Puts (statementAt env (.branch test positive negative) spot) method
      (Fragment.passage spot <$> (Stmt.branch test positive negative).render env
        (method.map Signature.returnType)) := by
  have chain : Puts (do
      let condition ← Emit.ofRendered (env.plain test)
      Emit.write ("if (" ++ condition ++ ")")
      statementAt env positive .child
      alternative env positive negative) method
      (Fragment.chain <$> (Stmt.branch test positive negative).render env
        (method.map Signature.returnType)) := by
    cases negative with
    | none =>
      refine (ofRendered fun condition => (write _).seq ((first .child).andThen fun f rendered =>
        finish (positive.render_kind env _ f rendered))).congr ?_
      simp [Stmt.render, Stmt.renderOption, Fragment.chain_ofBranch_none, Fragment.passage]
    | some negative =>
      refine (ofRendered fun condition => (write _).seq ((first .child).andThen fun f rendered =>
        (follow (positive.render_kind env _ f rendered) "else").seq
          (second negative rfl .alternative))).congr ?_
      simp [Stmt.render, Stmt.renderOption, Fragment.chain_ofBranch_some, Fragment.passage]
  refine (conditional chain spot).congr ?_
  simp [Stmt.render, Fragment.chained_chain_ofBranch]

/-! ### Lists of statements -/

section Bodies

variable {body : List (Stmt ExprId)} (each : ∀ s ∈ body, Follows env method s)

include each

theorem statements : Writes (statements env body) method (do
    return (← Stmt.renderAll env (method.map Signature.returnType) body).flatMap Fragment.lines) := by
  induction body with
  | nil => exact nothing
  | cons s rest ih =>
    obtain ⟨here, later⟩ := List.forall_mem_cons.1 each
    refine (here.writes.seq (ih later)).congr ?_
    rw [Stmt.renderAll]
    simp

omit each in
/-- Once the block of a case is open, the statements follow and its end behind them. -/
theorem caseStatements_true (env : Env) (body : List (Stmt ExprId)) :
    caseStatements env body true = (do
      Emit.statements env body
      Emit.update Writer.closeBlock) := by
  induction body with
  | nil =>
    rw [caseStatements, Emit.statements]
    simp
  | cons s rest ih =>
    rw [caseStatements, Emit.statements]
    simp [ih]

/-- The statements of a case, from the first variable on in a block. -/
theorem caseStatements : Writes (caseStatements env body false) method (do
    return Fragment.caseLines (← Stmt.renderAll env (method.map Signature.returnType) body)) := by
  induction body with
  | nil => exact nothing
  | cons s rest ih =>
    have whole := statements each
    obtain ⟨here, later⟩ := List.forall_mem_cons.1 each
    have kind := s.render_kind env (method.map Signature.returnType)
    cases opens : s.isVariable with
    | true =>
      have shape : Emit.caseStatements env (s :: rest) false =
          inBlock (Emit.statements env (s :: rest)) := by
        rw [Emit.caseStatements, inBlock, Emit.statements]
        simp [opens, caseStatements_true]
      rw [shape]
      refine whole.inBlock.congr ?_
      rw [Stmt.renderAll]
      cases rendered : s.render env (method.map Signature.returnType) with
      | error e => rfl
      | ok f =>
        have declared : f.isDeclaration = true := (kind f rendered).1.trans opens
        simp [Fragment.caseLines_declared declared]
    | false =>
      have shape : Emit.caseStatements env (s :: rest) false = (do
          statement env s
          Emit.caseStatements env rest false) := by
        rw [Emit.caseStatements]
        simp [opens, statement]
      rw [shape]
      refine (here.writes.seq (ih later)).congr ?_
      rw [Stmt.renderAll]
      cases rendered : s.render env (method.map Signature.returnType) with
      | error e => rfl
      | ok f =>
        have other : f.isDeclaration = false := (kind f rendered).1.trans opens
        simp [Fragment.caseLines_other other]

/-- The statements of a case below its labels. -/
theorem caseBody : Writes (Emit.deeper (Emit.caseStatements env body false)) method (do
    return Fragment.caseBody (← Stmt.renderAll env (method.map Signature.returnType) body)) := by
  refine Puts.congr (deeper (caseStatements each)) ?_
  simp [Fragment.caseBody, Passage.ofLines_indented]

end Bodies

theorem caseLabels (env : Env) (labels : List ExprId) (method : Option Signature) :
    Writes (caseLabels env labels) method (env.labels labels) := by
  have label (text : String) : Writes (Emit.line ("case " ++ text ++ ":")) method
      (.ok [.flush ("case " ++ text ++ ":")]) := Writes.line _
  have each := Writes.forM (fun id => Writes.ofRendered (x := env.plain id) label) labels
  refine Writes.congr each ?_
  have flat := mapM_map (fun id => env.plain id) (fun text => [Line.flush ("case " ++ text ++ ":")]) labels
  have single := mapM_map (fun id => env.plain id) (fun text => Line.flush ("case " ++ text ++ ":")) labels
  rw [Env.labels, single]
  show (labels.mapM (fun id => do return [Line.flush ("case " ++ (← env.plain id) ++ ":")]) >>= _) = _
  rw [flat]
  simp [← List.flatMap_def, ← List.map_eq_flatMap]

theorem switchCases {cases : List (List ExprId × List (Stmt ExprId))}
    (each : ∀ s ∈ cases.flatMap Prod.snd, Follows env method s) :
    Writes (switchCases env cases) method
      (Stmt.renderCases env (method.map Signature.returnType) cases) := by
  induction cases with
  | nil => exact nothing
  | cons group rest ih =>
    obtain ⟨labels, body⟩ := group
    rw [List.flatMap_cons, List.forall_mem_append] at each
    refine Writes.congr ((caseLabels env labels method).seq
      ((caseBody each.1).seq (ih each.2))) ?_
    simp [Stmt.renderCases]

theorem defaultCase {otherwise : Option (List (Stmt ExprId))}
    (each : ∀ s ∈ otherwise.getD [], Follows env method s) :
    Writes (defaultCase env otherwise) method
      (Stmt.renderDefault env (method.map Signature.returnType) otherwise) := by
  cases otherwise with
  | none => exact nothing
  | some body =>
    refine Writes.congr ((Writes.line "default:").seq (caseBody each)) ?_
    simp [Stmt.renderDefault]

end Puts

/-- The steps of writing a statement come to its layout, wherever the statement stands. -/
theorem follows (env : Env) (method : Option Signature) (s : Stmt ExprId) : Follows env method s := by
  induction s using Stmt.induction with
  | step s ih =>
    intro spot
    have own {piece : Emit Unit} {r : Rendered (List Line)} (written : Writes piece method r) :
        Puts (ownLines piece spot) method (do return (Fragment.plain (← r)).passage spot) :=
      Puts.ownLines written spot
    cases s with
    | block body =>
      have inside : Writes (Emit.statements env body) method _ := Puts.statements ih
      refine (Puts.block inside spot).congr ?_
      simp [Stmt.render]
    | declare name ty value =>
      have line (text : String) : Writes (Emit.line (text ++ ";")) method (.ok [.flush (text ++ ";")]) :=
        Writes.line _
      refine (own (Writes.ofRendered (x := env.declare name ty value) line)).congr ?_
      simp only [Stmt.render, bind_assoc, map_bind]
      cases spot <;> rfl
    | constant name ty value =>
      refine (own (Puts.localConstant env name ty value method)).congr ?_
      simp [Stmt.render]
    | evaluate value =>
      refine (own (Writes.ofRendered (x := env.plain value) fun text =>
        Writes.line (text ++ ";"))).congr ?_
      simp [Stmt.render]
    | ret value =>
      cases value with
      | none => exact own (Writes.line "return;")
      | some value =>
        refine (own (Puts.returnLine env value method)).congr ?_
        simp [Stmt.render]
    | branch test positive negative =>
      obtain ⟨first, second⟩ := List.forall_mem_cons.1 ih
      exact Puts.branch first (fun s member => second s (by simpa using member)) test spot
    | whileLoop test body =>
      refine (own (Writes.ofRendered (x := env.plain test) fun condition =>
        Puts.header (List.forall_mem_singleton.1 ih) ("while (" ++ condition ++ ")"))).congr ?_
      simp [Stmt.render]
    | doLoop body test =>
      refine (own (Puts.doLoop (List.forall_mem_singleton.1 ih) test)).congr ?_
      simp only [Stmt.render, bind_assoc, map_bind]
      cases spot <;> rfl
    | forLoop start test advance body =>
      have inner := (List.forall_mem_append.1 ih).2
      refine (own (Writes.ofRendered (x := env.loopStart start) fun first =>
        Writes.ofRendered (x := env.headPart test) fun condition =>
          Writes.ofRendered (x := env.headPart advance) fun step =>
            Puts.header (List.forall_mem_singleton.1 inner)
              ("for (" ++ first ++ ";" ++ condition ++ ";" ++ step ++ ")"))).congr ?_
      simp [Stmt.render]
    | breakLoop => exact own (Writes.line "break;")
    | continueLoop => exact own (Writes.line "continue;")
    | switch value cases otherwise =>
      obtain ⟨inCases, inDefault⟩ := List.forall_mem_append.1 ih
      refine (own (Writes.ofRendered (x := env.plain value) fun chosen =>
        (Writes.line ("switch (" ++ chosen ++ ") \x7b")).seq ((Puts.switchCases inCases).seq
          ((Puts.defaultCase inDefault).seq (Writes.line "\x7d"))))).congr ?_
      simp [Stmt.render]
    | throwing value => exact own (Writes.line "throw std::exception();")

theorem Writes.statement (env : Env) (s : Stmt ExprId) (method : Option Signature) :
    Writes (statement env s) method
      (do return (← s.render env (method.map Signature.returnType)).lines) :=
  (follows env method s).writes

/-- A statement with a layout is written as the lines of the layout. -/
theorem run_statement {env : Env} {s : Stmt ExprId} {f : Fragment} {w : Writer}
    (rendered : s.render env w.returnType? = .ok f) :
    (statement env s).run.run w = (.ok (), w.placeLines f.lines) := by
  have written := Writes.statement env s w.method
  rw [show s.render env (w.method.map Signature.returnType) = .ok f from rendered] at written
  exact written.run_eq rfl

/-- A statement that is written has a layout. -/
theorem exists_of_run_statement {env : Env} {s : Stmt ExprId} {w w' : Writer}
    (written : (statement env s).run.run w = (.ok (), w')) :
    ∃ f, s.render env w.returnType? = .ok f ∧ w' = w.placeLines f.lines := by
  obtain ⟨ls, result, rfl⟩ := (Writes.statement env s w.method).exists_of_run rfl written
  obtain ⟨f, rendered, ended⟩ := bind_eq_ok_iff.1 result
  cases ended
  exact ⟨f, rendered, rfl⟩

end Emit

end CppPrinter
