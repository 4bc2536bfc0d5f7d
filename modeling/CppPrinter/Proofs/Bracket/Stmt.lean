import CppPrinter.Proofs.Bracket.Expr
import CppPrinter.Proofs.Output.Layout

/-!
# Statements without loose brackets

A line takes and leaves brackets as its text does (`Lays.line`), and so do lines in a row. A statement
closes all that it opens: by itself (`Fragment.IsClosed`), and below a header, where the brace of its
block is opened at the end of the header's line and closed on a line that may go on with `else` or
`while` (`Fragment.lays_under`, `Fragment.leads_followedBy`). From this every statement is closed, however
deep it nests (`Stmt.render_closed`).
-/

namespace CppPrinter

/-- Read at the start of a line with the brackets `awaited`, the lines end with `awaited'`, below
whatever depth they are placed. -/
def Lays (awaited : List Char) (ls : List Line) (awaited' : List Char) : Prop :=
  ∀ depth, Scan.run awaited (.code .loose) (ls.flatMap (Line.place depth)) =
    some (awaited', .code .loose)

namespace Lays

variable {s t u : List Char} {ls ms : List Line} {text : String}

theorem nil : Lays s [] s := fun _ => rfl

theorem append (first : Lays s ls t) (second : Lays t ms u) : Lays s (ls ++ ms) u := by
  intro depth
  rw [List.flatMap_append, Scan.run_append, first depth]
  exact second depth

theorem frame (h : Lays s ls t) (below : List Char) : Lays (s ++ below) ls (t ++ below) :=
  fun depth => Scan.run_frame (h depth) below

theorem indented (h : Lays s ls t) : Lays s (indented ls) t := by
  intro depth
  rw [flatMap_place_indented]
  exact h (depth + 1)

theorem blank : Lays s [.blank] s := fun _ => rfl

/-- Tabs change nothing at the start of a line. -/
theorem run_tabs (s : List Char) (n : Nat) :
    Scan.run s (.code .loose) (List.replicate n '\t') = some (s, .code .loose) := by
  induction n with
  | zero => rfl
  | succ n ih =>
    have tab : Scan.step s (.code .loose) '\t' = some (s, .code .loose) := rfl
    rw [List.replicate_succ, Scan.run, tab]
    exact ih

/-- A line does what its text does. -/
theorem line (h : Leads freely s text t anyhow) : Lays s [.flush text] t := by
  intro depth
  obtain ⟨edge, -, read⟩ := h .loose (by decide)
  have ended : Scan.run t (.code edge) ['\n'] = some (t, .code .loose) := by
    cases edge <;> rfl
  rw [List.flatMap_singleton, Line.flush, Line.place, Scan.run_append, Scan.run_append, run_tabs,
    Option.bind_some, read, Option.bind_some, ended]

theorem cons (first : Lays s [l] t) (second : Lays t ls u) : Lays s (l :: ls) u :=
  first.append second

/-- Lines that all leave no bracket open. -/
theorem of_each {ls : List Line} (each : ∀ l ∈ ls, Lays [] [l] []) : Lays [] ls [] := by
  induction ls with
  | nil => exact .nil
  | cons l rest ih =>
    obtain ⟨here, later⟩ := List.forall_mem_cons.1 each
    exact here.cons (ih later)

/-- Steps of which each gives a line that leaves no bracket open. -/
theorem mapM {α : Type} {f : α → Rendered Line} {xs : List α}
    (each : ∀ x ∈ xs, Gives (fun l => Lays [] [l] []) (f x)) : Gives (Lays [] · []) (xs.mapM f) :=
  (Gives.mapM each).mono fun _ => .of_each

theorem flatten {groups : List (List Line)} (each : ∀ ls ∈ groups, Lays [] ls []) :
    Lays [] groups.flatten [] := by
  induction groups with
  | nil => exact .nil
  | cons ls rest ih =>
    obtain ⟨here, later⟩ := List.forall_mem_cons.1 each
    exact here.append (ih later)

/-- A line with a brace in front of lines and one with the closing brace behind them. -/
theorem block (front back : String) (opens : Leads freely [] front ['\x7d'] anyhow)
    (h : Lays [] ls []) (closes : Leads freely ['\x7d'] back [] anyhow) :
    Lays [] (.flush front :: (ls ++ [Line.flush back])) [] :=
  (line opens).append ((h.frame ['\x7d']).append (line closes))

theorem braced (h : Lays [] ls []) : Lays [] (braced ls) [] :=
  block _ _ (by decide) h.indented (by decide)

end Lays

theorem IsClosed.line {text : String} (h : IsClosed text) : Lays [] [.flush text] [] :=
  .line (h.mono (List.Subset.refl _) (by decide))

/-! ### Fragments -/

namespace Fragment

/-- What the statement comes to by itself closes all that it opens. The first line of a conditional
may open the brace of its block. -/
def IsClosed : Fragment → Prop
  | block body => Lays [] body []
  | conditional first rest => ∃ awaited, Leads freely [] first awaited anyhow ∧ Lays awaited rest []
  | declaration text => Leads freely [] text [] anyhow
  | plain lines => Lays [] lines []

/-- The brace that a block below a header leaves open at the end of the header's line. -/
def awaited : Fragment → List Char
  | block _ => ['\x7d']
  | _ => []

variable {f : Fragment} {s t : List Char}

theorem IsClosed.lays (h : f.IsClosed) : Lays [] f.lines [] := by
  cases f with
  | block body => exact Lays.braced h
  | conditional first rest =>
    obtain ⟨awaited, leads, lays⟩ := h
    exact (Lays.line leads).cons lays
  | declaration text => exact Lays.line h
  | plain lines => exact h

theorem leads_headed {header : String} (h : Leads freely s header [] softly) (f : Fragment) :
    Leads freely s (f.headed header) f.awaited softly := by
  have brace : Leads softly [] " \x7b" ['\x7d'] softly := by decide
  cases f with
  | block body => exact h.append brace
  | _ => exact h

theorem IsClosed.lays_inner (h : f.IsClosed) : Lays f.awaited f.inner f.awaited := by
  cases f with
  | block body => exact (Lays.frame h ['\x7d']).indented
  | _ => exact h.lays.indented

theorem lays_closing (f : Fragment) : Lays f.awaited f.closing [] := by
  have brace : Leads freely ['\x7d'] "\x7d" [] anyhow := by decide
  cases f with
  | block body => exact .line brace
  | _ => exact .nil

theorem leads_followedBy {next : String} {back : List Edge} (h : Leads freely [] next t back)
    (f : Fragment) : Leads freely f.awaited (f.followedBy next) t back := by
  have brace : Leads freely ['\x7d'] "\x7d " [] freely := by decide
  cases f with
  | block body => exact brace.append h
  | _ => exact h

/-- A statement below a header, which may close what was open before. -/
theorem lays_under {header : String} (h : Leads freely s header [] softly) (closed : f.IsClosed) :
    Lays s (f.under header) [] :=
  (Lays.line ((leads_headed h f).mono (List.Subset.refl _) (by decide))).append
    (closed.lays_inner.append f.lays_closing)

theorem lays_asElse {lead : String} (h : Leads freely s lead [] softly) (closed : f.IsClosed) :
    Lays s (f.asElse lead) [] := by
  cases f with
  | conditional first rest =>
    obtain ⟨awaited, leads, lays⟩ := closed
    have space : Leads softly [] " " [] freely := by decide
    exact (Lays.line ((h.append space).append leads)).cons lays
  | _ => exact lays_under h closed

theorem ofBranch_closed {header : String} (h : CppPrinter.IsClosed header) {positive : Fragment}
    (closed : positive.IsClosed) {negative? : Option Fragment}
    (closed' : ∀ negative ∈ negative?, negative.IsClosed) :
    (ofBranch header positive negative?).IsClosed := by
  have first : Leads freely [] (positive.headed header) positive.awaited anyhow :=
    (leads_headed h positive).mono (List.Subset.refl _) (by decide)
  cases negative? with
  | none => exact ⟨_, first, closed.lays_inner.append positive.lays_closing⟩
  | some negative =>
    have word : Leads freely [] "else" [] softly := by decide
    exact ⟨_, first, closed.lays_inner.append
      (lays_asElse (leads_followedBy word positive) (closed' negative rfl))⟩

theorem ofDoLoop_closed {body : Fragment} (closed : body.IsClosed) {condition : String}
    (h : CppPrinter.IsClosed condition) : (ofDoLoop body condition).IsClosed := by
  have word : Leads freely [] "do" [] softly := by decide
  have last : Leads freely body.awaited (body.followedBy condition) [] anyhow :=
    (leads_followedBy h body).mono (List.Subset.refl _) (by decide)
  exact (Lays.line ((leads_headed word body).mono (List.Subset.refl _) (by decide))).append
    (closed.lays_inner.append (.line last))

theorem lays_flatMap_lines {fs : List Fragment} (each : ∀ f ∈ fs, f.IsClosed) :
    Lays [] (fs.flatMap lines) [] := by
  rw [List.flatMap_def]
  exact .flatten (List.forall_mem_map.2 fun f member => (each f member).lays)

theorem lays_caseBody {fs : List Fragment} (each : ∀ f ∈ fs, f.IsClosed) :
    Lays [] (caseBody fs) [] := by
  have before : Lays [] ((fs.takeWhile (!·.isDeclaration)).flatMap lines) [] :=
    lays_flatMap_lines fun f member => each f ((List.takeWhile_sublist _).subset member)
  have declared : Lays [] ((fs.dropWhile (!·.isDeclaration)).flatMap lines) [] :=
    lays_flatMap_lines fun f member => each f ((List.dropWhile_sublist _).subset member)
  refine (before.append ?_).indented
  split
  · exact .nil
  · exact declared.braced

end Fragment

/-! ### Declarations -/

namespace Env

variable {env : Env} (named : env.EveryName IsIdentifier)

include named

theorem text_closed (id : ExprId) (form : Form) : Gives IsClosed (env.text id form) := by
  rw [Env.text_eq]
  exact Expr.text_closed named.scope (named.tree id) form .statement

theorem plain_closed (id : ExprId) : Gives IsClosed (env.plain id) := text_closed named id .plain

theorem coerced_closed (target : Ty) (id : ExprId) : Gives IsClosed (env.coerced target id) :=
  text_closed named id (.coerced target)

theorem initializer_leads (name : String) (ty : Ty) (value : Option ExprId) :
    Gives (fun text => Leads plainly [] text [] softly) (env.initializer name ty value) := by
  have equals : Leads plainly [] " = " [] freely := by decide
  have opening : Leads plainly [] "\x7b" ['\x7d'] freely := by decide
  unfold initializer
  split
  · exact .ok (by decide)
  · refine .after fun n => ?_
    split
    · split
      · exact .ok (by decide)
      · exact .error _
    · exact .error _
  · exact (coerced_closed named _ _).bind fun _ closed =>
      .ok ((opening.append (closed.frame _)).append (by decide))
  · exact (coerced_closed named _ _).bind fun _ closed => .ok (equals.append closed)

theorem declare_closed {name : String} (h : IsNaming name) (ty : Ty) (value : Option ExprId) :
    Gives IsClosed (env.declare name ty value) :=
  (ty.declaration_naming named.scope h).bind fun _ declared =>
    (initializer_leads named name ty value).bind fun _ initial =>
      .ok ((declared.mono (by decide) (List.Subset.refl _)).append initial)

theorem constant_closed {name : String} (h : IsNaming name) (ty : Ty) (value : ExprId) :
    Gives IsClosed (env.constant name ty value) := by
  refine (ty.declaration_naming named.scope h).bind fun _ declared =>
    (plain_closed named value).bind fun _ closed => .ok ?_
  have equals : Leads plainly [] " = " [] freely := by decide
  exact (((declared.leadsFrom _ (by decide)).append equals).append closed).append (by decide)

theorem headPart_leads (value : Option ExprId) :
    Gives (fun text => Leads freely [] text [] softly) (env.headPart value) := by
  cases value with
  | none => exact .ok (by decide)
  | some id =>
    exact (plain_closed named id).bind fun _ closed => .ok (closed.headed _ (by decide))

theorem returned_closed (returnType : Option Ty) (id : ExprId) :
    Gives IsClosed (env.returned returnType id) := by
  cases returnType with
  | none => exact plain_closed named id
  | some ty => exact coerced_closed named ty id

theorem labels_lay (ids : List ExprId) : Gives (Lays [] · []) (env.labels ids) := by
  refine Lays.mapM fun id _ => ?_
  refine (plain_closed named id).bind fun _ closed => .ok ?_
  exact ((closed.headed "case " (by decide)).followed _ (by decide)).line

end Env

/-! ### Statements -/

namespace Stmt

variable {env : Env} {returnType : Option Ty}

theorem loopStart_closed (named : env.EveryName IsIdentifier) {start : Option (Stmt ExprId)}
    (names : ∀ s ∈ start.toList, ∀ name ∈ s.name?, IsIdentifier name) :
    Gives IsClosed (env.loopStart start) := by
  cases start with
  | none => exact .ok (by decide)
  | some s =>
    cases s with
    | declare name ty value =>
      have h := names _ (List.mem_singleton_self _) name rfl
      exact Env.declare_closed named h.isWord.isNaming ty value
    | evaluate value => exact Env.plain_closed named value
    | _ => exact .unsupported _

theorem renderAll_closed {body : List (Stmt ExprId)}
    (each : ∀ s ∈ body, Gives Fragment.IsClosed (s.render env returnType)) :
    Gives (fun fs => ∀ f ∈ fs, Fragment.IsClosed f) (renderAll env returnType body) := by
  rw [renderAll_eq_mapM]
  exact .mapM each

theorem renderCases_lay (named : env.EveryName IsIdentifier) {cases : List (List ExprId × List (Stmt ExprId))}
    (each : ∀ s ∈ cases.flatMap Prod.snd, Gives Fragment.IsClosed (s.render env returnType)) :
    Gives (Lays [] · []) (renderCases env returnType cases) := by
  induction cases with
  | nil => exact .ok .nil
  | cons group rest ih =>
    obtain ⟨labels, body⟩ := group
    obtain ⟨here, later⟩ := List.forall_mem_append.1 each
    exact (Env.labels_lay named labels).bind fun _ heads => (renderAll_closed here).bind
      fun _ closed => (ih later).bind fun _ others =>
        .ok ((heads.append (Fragment.lays_caseBody closed)).append others)

/-- A statement is closed if all that it prints inside is. -/
theorem render_closed_step (named : env.EveryName IsIdentifier) (s : Stmt ExprId)
    (names : s.Every fun t => ∀ name ∈ t.name?, IsIdentifier name)
    (below : ∀ t ∈ s.children, Gives Fragment.IsClosed (t.render env returnType)) :
    Gives Fragment.IsClosed (s.render env returnType) := by
  have ended : ∀ {text : String}, IsClosed text → IsClosed (text ++ ";") := fun h =>
    h.followed _ (by decide)
  have fixed : ∀ {text : String}, IsClosed text →
      Gives Fragment.IsClosed (.ok (.plain [.flush text])) := fun h => .ok h.line
  cases s with
  | block body =>
    rw [render]
    exact (renderAll_closed below).bind fun _ closed => .ok (Fragment.lays_flatMap_lines closed)
  | declare name ty value =>
    have h := (names.parts.1 name rfl).isWord.isNaming
    exact (Env.declare_closed named h ty value).bind fun _ closed =>
      .ok ((ended closed).mono (List.Subset.refl _) (by decide))
  | constant name ty value =>
    have h := (names.parts.1 name rfl).isWord.isNaming
    have line : Gives (Lays [] · []) (env.localConstant name ty value) := by
      unfold Env.localConstant
      split
      · exact (Env.constant_closed named h ty value).bind fun _ closed => .ok closed.line
      · exact .ok .nil
    exact line.bind fun _ lays => .ok lays
  | evaluate value =>
    exact (Env.plain_closed named value).bind fun _ closed => .ok (ended closed).line
  | ret value =>
    cases value with
    | none => exact fixed (by decide)
    | some id =>
      exact (Env.returned_closed named returnType id).bind fun _ closed =>
        .ok (ended (closed.headed "return " (by decide))).line
  | branch test positive negative =>
    obtain ⟨first, second⟩ := List.forall_mem_cons.1 below
    have alternative : Gives (fun negative? => ∀ f ∈ negative?, Fragment.IsClosed f)
        (renderOption env returnType negative) := by
      cases negative with
      | none => exact .ok fun f member => absurd member (Option.not_mem_none f)
      | some negative =>
        refine (second negative (List.mem_singleton_self _)).bind fun f closed => .ok ?_
        rintro _ ⟨⟩
        exact closed
    exact (Env.plain_closed named test).bind fun _ condition => first.bind fun _ closed =>
      alternative.bind fun _ closed' => .ok (Fragment.ofBranch_closed
        (condition.around "if (" ')' (by decide) (by decide)) closed closed')
  | whileLoop test body =>
    exact (Env.plain_closed named test).bind fun _ condition =>
      (below body (List.mem_singleton_self _)).bind fun _ closed =>
        .ok (Fragment.lays_under
          (condition.around "while (" ')' (by decide) (by decide)) closed)
  | doLoop body test =>
    exact (below body (List.mem_singleton_self _)).bind fun _ closed =>
      (Env.plain_closed named test).bind fun _ condition => .ok (Fragment.ofDoLoop_closed closed
        (condition.around "while (" ')' (by decide) (by decide)))
  | forLoop start test advance body =>
    obtain ⟨-, last⟩ := List.forall_mem_append.1 below
    have starts : ∀ s ∈ start.toList, ∀ name ∈ s.name?, IsIdentifier name := fun s member =>
      (names.parts.2 s (List.mem_append_left _ member)).parts.1
    refine (loopStart_closed named starts).bind fun _ first =>
      (Env.headPart_leads named test).bind fun _ condition =>
        (Env.headPart_leads named advance).bind fun _ step =>
          (last body (List.mem_singleton_self _)).bind fun _ closed =>
            .ok (Fragment.lays_under ?_ closed)
    -- The parts of the head stand inside its parenthesis, which stays awaited below each of them.
    have opening : Leads freely [] "for (" [')'] freely := by decide
    have semicolon : Leads softly [] ";" [] freely := by decide
    exact (((((opening.append (first.frame _)).append (semicolon.frame _)).append
      (condition.frame _)).append (semicolon.frame _)).append (step.frame _)).append (by decide)
  | switch value cases otherwise =>
    obtain ⟨first, second⟩ := List.forall_mem_append.1 below
    have remaining : Gives (Lays [] · []) (renderDefault env returnType otherwise) := by
      cases otherwise with
      | none => exact .ok .nil
      | some body =>
        exact (renderAll_closed second).bind fun _ closed =>
          .ok ((Lays.line (by decide)).cons (Fragment.lays_caseBody closed))
    refine (Env.plain_closed named value).bind fun _ chosen =>
      (renderCases_lay named first).bind fun _ groups => remaining.bind fun _ last => .ok ?_
    have opening : Leads freely [] "switch (" [')'] freely := by decide
    exact Lays.block _ _ ((opening.append (chosen.frame _)).append (by decide)) (groups.append last)
      (by decide)
  | breakLoop | continueLoop | throwing => exact fixed (by decide)

/-- Every statement closes all that it opens, however deep it nests. -/
theorem render_closed (named : env.EveryName IsIdentifier) {s : Stmt ExprId}
    (names : s.Every fun t => ∀ name ∈ t.name?, IsIdentifier name) :
    Gives Fragment.IsClosed (s.render env returnType) := by
  induction s using Stmt.induction with
  | step s ih =>
    exact render_closed_step named s names fun t member => ih t member (names.parts.2 t member)

theorem bodyLines_lay (named : env.EveryName IsIdentifier) {body : List (Stmt ExprId)}
    (names : ∀ s ∈ body, s.Every fun t => ∀ name ∈ t.name?, IsIdentifier name) :
    Gives (Lays [] · []) (bodyLines env returnType body) :=
  (renderAll_closed fun s member => render_closed named (names s member)).bind fun _ closed =>
    .ok (Fragment.lays_flatMap_lines closed)

end Stmt

end CppPrinter
