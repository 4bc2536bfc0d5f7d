import CppPrinter.Proofs.Line.Stmt

/-!
# The state that writing leaves behind

Statements only add to what is written (`Writer.Extends`): whole lines behind the text, each below the
depth at which the writing stands, which stays as it was, and so does the method (`Emit.statement_extends`,
`Emit.statements_extend`). Bodies of a class are written apart from each other (`Class.WritesApart`): a
method is entered before its statements and left behind them, be they written to the end or not.
-/

namespace CppPrinter

/-! ### Lines behind a text -/

/-- The characters of the line below a depth, without its end. -/
def Line.row (depth : Nat) : Line → List Char
  | blank => []
  | code below text => List.replicate (depth + below) '\t' ++ text.toList

theorem Line.place_eq_row (depth : Nat) (line : Line) : line.place depth = line.row depth ++ ['\n'] := by
  cases line <;> rfl

/-- The later state has the lines of the earlier one and these behind them, none broken and each below its
depth, with which it goes on. -/
structure Writer.Extends (w : Writer) (rows : List (List Char)) (w' : Writer) : Prop where
  text : w'.text = w.text ++ String.ofList (rows.flatMap (· ++ ['\n']))
  inLine : ∀ row ∈ rows, '\n' ∉ row
  indented : ∀ row ∈ rows, List.replicate w.depth '\t' <+: row
  depth : w'.depth = w.depth
  method : w'.method = w.method

theorem Line.Carries.row {line : Line} (h : line.Carries IsOneLine) (depth : Nat) :
    '\n' ∉ line.row depth ∧ List.replicate depth '\t' <+: line.row depth := by
  cases line with
  | blank => exact h.elim
  | code below text =>
    have noTab : '\n' ∉ List.replicate (depth + below) '\t' := fun member =>
      absurd (List.eq_of_mem_replicate member) (by decide)
    refine ⟨fun member => (List.mem_append.1 member).elim noTab h, ?_⟩
    rw [Line.row, List.replicate_add, List.append_assoc]
    exact List.prefix_append _ _

theorem Writer.extends_placeLines (w : Writer) {ls : List Line} (h : Carry IsOneLine ls) :
    w.Extends (ls.map (Line.row w.depth)) (w.placeLines ls) where
  text := by
    have placed : ls.flatMap (Line.place w.depth) =
        (ls.map (Line.row w.depth)).flatMap (· ++ ['\n']) := by
      rw [List.flatMap_map]
      exact List.flatMap_congr fun line _ => line.place_eq_row w.depth
    rw [Writer.placeLines, placed]
  inLine := List.forall_mem_map.2 fun line member => ((h line member).row w.depth).1
  indented := List.forall_mem_map.2 fun line member => ((h line member).row w.depth).2
  depth := rfl
  method := rfl

namespace Emit

section Statements

variable {env : Env} (names : env.EveryName IsOneLine) {w w' : Writer}

include names

theorem statement_extends {s : Stmt ExprId} (locals : s.EveryName IsOneLine)
    (written : (statement env s).run.run w = (.ok (), w')) :
    ∃ rows, w.Extends rows w' ∧ (rows = [] ↔ s.IsFolded) ∧ (s.IsSimple → rows.length = 1) := by
  obtain ⟨f, rendered, rfl⟩ := exists_of_run_statement written
  have carried := s.render_oneLine names _ locals f rendered
  have shape := s.render_shape env _ f rendered
  refine ⟨_, w.extends_placeLines carried, ?_, ?_⟩
  · rw [List.map_eq_nil_iff]
    exact shape.1
  · rw [List.length_map]
    exact shape.2

theorem statements_extend {body : List (Stmt ExprId)} (locals : ∀ s ∈ body, s.EveryName IsOneLine)
    (written : (statements env body).run.run w = (.ok (), w')) : ∃ rows, w.Extends rows w' := by
  obtain ⟨ls, result, rfl⟩ := (Writes.statements env body w.method).exists_of_run rfl written
  exact ⟨_, w.extends_placeLines (Stmt.bodyLines_oneLine names _ locals ls result)⟩

end Statements

/-! ### Bodies -/

/-- Closes the block around what has been written, unless that ended in an error. -/
def closed : Except RenderError Unit × Writer → Except RenderError Unit × Writer
  | (.ok (), w) => (.ok (), w.closeBlock)
  | (.error e, w) => (.error e, w)

/-- Leaves the method whose body has been written, even if that ended in an error. -/
def left (outcome : Except RenderError Unit × Writer) : Except RenderError Unit × Writer :=
  (outcome.1, outcome.2.leaveMethod)

theorem run_update (change : Writer → Writer) (w : Writer) :
    (update change).run.run w = (.ok (), change w) := rfl

theorem run_inBlock (body : Emit Unit) (w : Writer) :
    (inBlock body).run.run w = closed (body.run.run w.openBlock) := by
  change (body >>= fun _ => update Writer.closeBlock).run.run w.openBlock = _
  rw [run_bind]
  generalize body.run.run w.openBlock = outcome
  obtain ⟨result, w'⟩ := outcome
  cases result <;> rfl

theorem run_inMethod (signature : Signature) (body : Emit Unit) (w : Writer) :
    (inMethod signature body).run.run w = left (body.run.run (w.enterMethod signature)) := rfl

end Emit

open Emit in
/-- The bodies of the class are written apart from each other: the statements of the constructor while no
method is being written, those of a method while that one is, which is left behind them in any case. -/
structure Class.WritesApart (env : Env) (c : Class ExprId) (w : Writer) : Prop where
  /-- The constructor is written from a state without a method. -/
  constructor : ∀ body, c.constructorBody = some body → ∃ v : Writer, v.method = none ∧
    v.depth = w.depth + 1 ∧
    (constructorDefinition env c).run.run w = closed ((statements env body).run.run v)
  /-- A method is written from a state with this method. -/
  method : ∀ m ∈ c.methods, m.dispatch ≠ .abstract → ∀ body, m.body = some body → ∀ head,
    m.toSignature.text env.scope (c.name ++ "::" ++ camelCase m.name) = .ok head →
    ∃ v : Writer, v.method = some m.toSignature ∧ v.depth = w.depth + 1 ∧
      (methodDefinition env c m).run.run w =
        left (closed ((statements env body.bodyStatements).run.run v))
  /-- Each of them leaves no method, whatever happens in it. -/
  apart : ((constructorDefinition env c).run.run w).2.method = none ∧
    ∀ m ∈ c.methods, ((methodDefinition env c m).run.run w).2.method = none
  /-- Neither do all of them in a row. -/
  after : ((classDefinitions env c).run.run w).2.method = none
  /-- What they come to are lines in which a method returns its own type, and the constructor none. -/
  lines : Outcome w (Passage.ofLines <$> c.definitionLines env) ((classDefinitions env c).run.run w)

namespace Class

variable (env : Env) (c : Class ExprId) {w : Writer}

theorem writesApart (outside : w.method = none) : c.WritesApart env w where
  constructor body given := by
    refine ⟨(w.newline.writeLine (c.name ++ "::" ++ c.name ++ "()")).openBlock, outside, rfl, ?_⟩
    simp only [Emit.constructorDefinition, given, Emit.run_bind, Emit.endLine, Emit.line,
      Emit.run_update, Emit.run_inBlock]
  method m _ concrete body given head declared := by
    refine ⟨((w.newline.writeLine head).enterMethod m.toSignature).openBlock, rfl, rfl, ?_⟩
    have headed : (Emit.ofRendered (.ok head) : Emit String).run.run w = (.ok head, w) := rfl
    simp only [Emit.methodDefinition, if_neg concrete, given, declared, Emit.run_bind, headed,
      Emit.endLine, Emit.line, Emit.run_update, Emit.run_inMethod, Emit.run_inBlock]
  apart := ⟨(Emit.Writes.constructorDefinition env c).keeps outside,
    fun m _ => (Emit.Writes.methodDefinition env c m).keeps outside⟩
  after := (Emit.Writes.classDefinitions env c).keeps outside
  lines := Emit.Writes.classDefinitions env c w outside

end Class

/-- Where no name of the program has a line break, every statement that is written puts whole lines behind
the text, each at the depth at which the writing stands or deeper, and leaves the depth and the method as
they were. It takes no line only if it is a constant that is folded into its uses, and exactly one if it is
an expression or a variable. Statements in a row do the same. The bodies of a class are written apart from
each other, so no returned value is converted to a type of another body. -/
theorem statements_framed {p : Program} (names : p.EveryName IsOneLine) :
    (∀ s : Stmt ExprId, s.EveryName IsOneLine → ∀ w w',
      (Emit.statement p.env s).run.run w = (.ok (), w') →
        ∃ rows, w.Extends rows w' ∧ (rows = [] ↔ s.IsFolded) ∧ (s.IsSimple → rows.length = 1)) ∧
    (∀ body : List (Stmt ExprId), (∀ s ∈ body, s.EveryName IsOneLine) → ∀ w w',
      (Emit.statements p.env body).run.run w = (.ok (), w') → ∃ rows, w.Extends rows w') ∧
    ∀ (c : Class ExprId) (w : Writer), w.method = none → c.WritesApart p.env w :=
  ⟨fun _ locals _ _ written => Emit.statement_extends names.env locals written,
    fun _ locals _ _ written => Emit.statements_extend names.env locals written,
    fun c _ outside => c.writesApart p.env outside⟩

/-- A class that gives its total as a wide number and as a narrow one. -/
def totalsClass : Class ExprId :=
  ⟨"Totals", none, .normal, some [.evaluate ⟨0⟩], [], [],
    [⟨⟨"Whole", .everywhere, .normal, false, .integer .i64, []⟩, some (.ret (some ⟨0⟩))⟩,
      ⟨⟨"Low", .everywhere, .normal, false, .i32, []⟩, some (.ret (some ⟨0⟩))⟩]⟩

def totals : Program where
  classes := #[totalsClass]
  exprs := ⟨#[⟨.symbol (.localName "total"), .integer .i64⟩]⟩

/-- A variable and a constant that takes no line, or else a statement below its header. -/
def keepRest : Stmt ExprId :=
  .branch ⟨0⟩ (.block [.declare "rest" (.integer .i64) (some ⟨0⟩), .constant "limit" .i32 ⟨0⟩])
    (some (.ret none))

theorem statements_framed_totals :
    totals.EveryName IsOneLine ∧ keepRest.EveryName IsOneLine ∧
    (∃ rows, Writer.Extends ⟨"", 1, none⟩ rows
      ⟨"\tif (total) \x7b\n\t\tint64_t rest = total;\n\t\x7d else\n\t\treturn;\n", 1, none⟩ ∧ rows ≠ []) ∧
    (∃ rows, Writer.Extends ⟨"", 1, none⟩ rows ⟨"\ttotal;\n\treturn;\n", 1, none⟩) ∧
    totalsClass.WritesApart totals.env {} ∧
    ((Emit.classDefinitions totals.env totalsClass).run.run {}).2.text =
      "\nTotals::Totals()\n\x7b\n\ttotal;\n\x7d\n" ++
      "\nint64_t Totals::whole() const\n\x7b\n\treturn total;\n\x7d\n" ++
      "\nint32_t Totals::low() const\n\x7b\n\treturn static_cast<int32_t>(total);\n\x7d\n" := by
  have simple : ∀ s : Stmt ExprId, s.children = [] → s.name? = none → s.EveryName IsOneLine :=
    fun s leaf unnamed => .intro (by simp [unnamed]) (by simp [leaf])
  have names : totals.EveryName IsOneLine := by
    refine ⟨fun c member => ?_, nofun, by decide⟩
    obtain rfl := List.mem_singleton.1 (Array.mem_toList_iff.2 member)
    refine ⟨by decide, nofun, nofun, ?_, ?_, ?_⟩
    · simp only [totalsClass, List.forall_mem_cons]
      exact ⟨⟨by decide, nofun⟩, ⟨by decide, nofun⟩, nofun⟩
    · rintro _ ⟨⟩
      exact List.forall_mem_singleton.2 (simple _ rfl rfl)
    · simp only [totalsClass, List.forall_mem_cons]
      refine ⟨?_, ?_, nofun⟩ <;> rintro _ ⟨⟩ <;> exact simple _ rfl rfl
  have locals : keepRest.EveryName IsOneLine := by
    refine .intro nofun (List.forall_mem_cons.2 ⟨.intro nofun ?_, ?_⟩)
    · simp only [Stmt.children, List.forall_mem_cons]
      refine ⟨.intro ?_ nofun, .intro ?_ nofun, nofun⟩ <;> rintro _ ⟨⟩ <;> decide
    · exact List.forall_mem_singleton.2 (simple _ rfl rfl)
  have inRow : ∀ s ∈ [Stmt.evaluate (ExprId.mk 0), .ret none], s.EveryName IsOneLine :=
    List.forall_mem_cons.2 ⟨simple _ rfl rfl, List.forall_mem_singleton.2 (simple _ rfl rfl)⟩
  obtain ⟨statement, statements, bodies⟩ := statements_framed names
  obtain ⟨rows, adds, folded, -⟩ := statement keepRest locals ⟨"", 1, none⟩ _ rfl
  have printed := statements _ inRow ⟨"", 1, none⟩ _ rfl
  exact ⟨names, locals, ⟨rows, adds, fun noRow => folded.1 noRow⟩, printed, bodies totalsClass {} rfl, rfl⟩

end CppPrinter
