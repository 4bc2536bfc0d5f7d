import CppPrinter.Layout.Writer
import CppPrinter.Proofs.Result

/-!
# What is written, as passages and lines

Writing carries a state, but all that it does to the state is to put text behind the text that is there.
What it puts depends on the depth alone at which it stands: a `Passage` goes from anywhere in a line to
anywhere in a line. `Emit.Puts` says of a piece of writing and of a passage that the piece puts the
passage, or ends in an error and leaves the method as it was; pieces in a row, a step deeper, in a brace
block or in a method put what their parts put. Where the passage is one of whole lines, the piece writes
them (`Emit.Writes`), and the text that is written from the start is a text of lines (`Emit.textOf_eq`).
-/

namespace CppPrinter

/-- The text of lines that start at the margin. -/
def linesText (ls : List Line) : String := String.ofList (ls.flatMap (Line.place 0))

theorem linesText_append (ls ms : List Line) : linesText (ls ++ ms) = linesText ls ++ linesText ms := by
  simp [linesText, String.ofList_append]

/-- A deeper line is a line below a greater depth. -/
theorem Line.place_indent (line : Line) (depth : Nat) :
    line.indent.place depth = line.place (depth + 1) := by
  cases line with
  | blank => rfl
  | code below text => simp [indent, place, Nat.add_comm, Nat.add_left_comm]

theorem flatMap_place_indented (ls : List Line) (depth : Nat) :
    (indented ls).flatMap (Line.place depth) = ls.flatMap (Line.place (depth + 1)) := by
  simp only [indented, List.flatMap_map, Line.place_indent]

/-! ### Passages -/

/-- Text to be written at a depth, from anywhere in a line to anywhere in a line. -/
def Passage := Nat → List Char

namespace Passage

/-- A text, whatever the depth. -/
def ofText (text : String) : Passage := fun _ => text.toList

/-- The tabs at the start of a line. -/
def tabs : Passage := fun depth => List.replicate depth '\t'

/-- Whole lines below the depth. -/
def ofLines (ls : List Line) : Passage := fun depth => ls.flatMap (Line.place depth)

/-- The passage written deeper by one step. -/
def deeper (t : Passage) : Passage := fun depth => t (depth + 1)

instance : Append Passage := ⟨fun t u depth => t depth ++ u depth⟩

theorem append_apply (t u : Passage) (depth : Nat) : (t ++ u) depth = t depth ++ u depth := rfl

variable (t u v : Passage) (ls ms : List Line)

@[simp] theorem append_assoc : t ++ u ++ v = t ++ (u ++ v) :=
  funext fun depth => List.append_assoc (t depth) (u depth) (v depth)

@[simp] theorem append_ofText_empty : t ++ ofText "" = t := funext fun _ => List.append_nil _

theorem ofText_append (front back : String) : ofText (front ++ back) = ofText front ++ ofText back :=
  funext fun _ => String.toList_append

theorem ofLines_nil : ofLines [] = ofText "" := rfl

theorem ofLines_append : ofLines (ls ++ ms) = ofLines ls ++ ofLines ms :=
  funext fun _ => List.flatMap_append

/-- A line is its tabs, its text and its end. -/
theorem ofLines_flush (text : String) (rest : List Line) :
    ofLines (.flush text :: rest) = tabs ++ ofText text ++ ofText "\n" ++ ofLines rest := by
  funext depth
  simp [append_apply, ofLines, Line.flush, Line.place, tabs, ofText]

theorem ofLines_indented : ofLines (indented ls) = (ofLines ls).deeper :=
  funext fun depth => flatMap_place_indented ls depth

theorem ofLines_braced :
    ofLines (braced ls) = ofLines [Line.flush "\x7b"] ++ (ofLines ls).deeper ++ ofLines [.flush "\x7d"] := by
  have split : braced ls = [Line.flush "\x7b"] ++ indented ls ++ [Line.flush "\x7d"] := rfl
  rw [split, ofLines_append, ofLines_append, ofLines_indented]

end Passage

namespace Writer

/-- Puts a passage behind the text. -/
def put (t : Passage) (w : Writer) : Writer := { w with text := w.text ++ String.ofList (t w.depth) }

/-- Writes lines below the current depth. -/
def placeLines (ls : List Line) (w : Writer) : Writer :=
  { w with text := w.text ++ String.ofList (ls.flatMap (Line.place w.depth)) }

theorem put_append (t u : Passage) (w : Writer) : w.put (t ++ u) = (w.put t).put u := by
  simp [put, Passage.append_apply, String.ofList_append, String.append_assoc]

theorem put_empty (w : Writer) : w.put (.ofText "") = w := by simp [put, Passage.ofText]

theorem write_eq (text : String) (w : Writer) : w.write text = w.put (.ofText text) := by
  simp [put, write, Passage.ofText]

theorem newline_eq (w : Writer) : w.newline = w.put (.ofText "\n") := w.write_eq "\n"

theorem writeLine_eq (text : String) (w : Writer) :
    w.writeLine text = w.put (.ofLines [.flush text]) := by
  rw [writeLine, newline_eq, write_eq, Passage.ofLines_flush, put_append, put_append, put_append]
  exact (put_empty _).symm

end Writer

namespace Emit

variable {α β : Type}

/-- A step that goes on from a result, or ends in an error. -/
theorem run_bind (x : Emit α) (f : α → Emit β) (w : Writer) :
    (x >>= f).run.run w = match x.run.run w with
      | (.ok a, w') => (f a).run.run w'
      | (.error e, w') => (.error e, w') := by
  change StateT.run (ExceptT.run x >>= ExceptT.bindCont f) w = _
  rw [StateT.run_bind]
  generalize StateT.run (ExceptT.run x) w = outcome
  obtain ⟨result, w'⟩ := outcome
  cases result <;> rfl

/-- What a piece of writing did to a state: it put a passage behind the text, or it ended in an error
and left the method as it was. -/
inductive Outcome (w : Writer) : Rendered Passage → Except RenderError Unit × Writer → Prop where
  | written (t : Passage) : Outcome w (.ok t) (.ok (), w.put t)
  | failed (e : RenderError) (w' : Writer) (kept : w'.method = w.method) :
      Outcome w (.error e) (.error e, w')

/-- The method is the same behind a piece of writing. -/
theorem Outcome.method_eq {w : Writer} {r : Rendered Passage} {outcome : Except RenderError Unit × Writer}
    (h : Outcome w r outcome) : outcome.2.method = w.method := by
  cases h with
  | written t => rfl
  | failed e w' kept => exact kept

/-- While `method` is being written, the piece of writing puts the passage of the result behind the
text, or it ends in the error of the result. -/
def Puts (piece : Emit Unit) (method : Option Signature) (r : Rendered Passage) : Prop :=
  ∀ w : Writer, w.method = method → Outcome w r (piece.run.run w)

/-- While `method` is being written, the piece of writing puts whole lines behind the text. -/
def Writes (piece : Emit Unit) (method : Option Signature) (r : Rendered (List Line)) : Prop :=
  Puts piece method (Passage.ofLines <$> r)

namespace Puts

variable {piece next body : Emit Unit} {method : Option Signature} {r s : Rendered Passage}

theorem congr (h : Puts piece method r) (same : r = s) : Puts piece method s := same ▸ h

theorem update {change : Writer → Writer} {t : Passage} (h : ∀ w, change w = w.put t) :
    Puts (update change) method (.ok t) := by
  intro w _
  change Outcome w _ (.ok (), change w)
  rw [h]
  exact .written t

theorem nothing : Puts (pure ()) method (.ok (.ofText "")) := by
  intro w _
  have same : Outcome w _ (.ok (), w.put (.ofText "")) := .written _
  rwa [Writer.put_empty] at same

theorem write (text : String) : Puts (write text) method (.ok (.ofText text)) :=
  update (Writer.write_eq text)

theorem startLine : Puts startLine method (.ok .tabs) := update fun _ => rfl

theorem endLine : Puts endLine method (.ok (.ofText "\n")) := update Writer.newline_eq

theorem line (text : String) : Puts (line text) method (.ok (.ofLines [.flush text])) :=
  update (Writer.writeLine_eq text)

theorem failed (e : RenderError) : Puts (Emit.ofRendered (.error e)) method (.error e) :=
  fun w _ => .failed e w rfl

/-- One piece behind another, which may depend on what the first one was made from. -/
theorem andThen {x : Rendered α} {front : α → Passage} {back : α → Rendered Passage}
    (h : Puts piece method (front <$> x)) (h' : ∀ a, x = .ok a → Puts next method (back a)) :
    Puts (piece >>= fun _ => next) method (do
      let a ← x
      return front a ++ (← back a)) := by
  intro w inMethod
  have first := h w inMethod
  rw [run_bind]
  generalize piece.run.run w = outcome at first
  cases x with
  | error e =>
    cases first with
    | failed e w' kept => exact .failed e w' kept
  | ok a =>
    cases first with
    | written t =>
      have second := h' a rfl (w.put (front a)) inMethod
      change Outcome w (do return front a ++ (← back a)) (next.run.run (w.put (front a)))
      generalize next.run.run (w.put (front a)) = outcome at second
      cases result : back a with
      | error e =>
        rw [result] at second
        cases second with
        | failed e w' kept => exact .failed e w' kept
      | ok u =>
        rw [result] at second
        cases second with
        | written u =>
          rw [← Writer.put_append]
          exact .written (front a ++ u)

/-- One piece behind another. -/
theorem seq (h : Puts piece method r) (h' : Puts next method s) :
    Puts (piece >>= fun _ => next) method (do return (← r) ++ (← s)) := by
  have whole : Puts piece method (id <$> r) := by rwa [id_map]
  exact andThen whole fun _ _ => h'

/-- A piece that is made from a result. -/
theorem ofRendered {x : Rendered α} {f : α → Emit Unit} {g : α → Rendered Passage}
    (h : ∀ a, Puts (f a) method (g a)) : Puts (ofRendered x >>= f) method (x >>= g) := by
  intro w inMethod
  cases x with
  | error e => exact .failed e w rfl
  | ok a => exact h a w inMethod

/-- A piece that is made from the return type in force. -/
theorem ofReturnType {f : Option Ty → Emit Unit}
    (h : Puts (f (method.map Signature.returnType)) method r) :
    Puts (get >>= fun w => f w.returnType?) method r := by
  intro w inMethod
  subst inMethod
  exact h w rfl

theorem deeper (h : Puts body method r) : Puts (deeper body) method (Passage.deeper <$> r) := by
  intro w inMethod
  have inner := h w.indent inMethod
  change Outcome w _ ((body >>= fun _ => Emit.update Writer.dedent).run.run w.indent)
  rw [run_bind]
  generalize body.run.run w.indent = outcome at inner
  cases inner with
  | failed e w' kept => exact .failed e w' kept
  | written t => exact .written t.deeper

/-- The body of a method, which is no part of another method's body. -/
theorem inMethod {signature : Signature} (h : Puts body (some signature) r) :
    Puts (inMethod signature body) none r := by
  intro w outside
  have inner := h (w.enterMethod signature) rfl
  change Outcome w r ((body.run.run (w.enterMethod signature)).1,
    (body.run.run (w.enterMethod signature)).2.leaveMethod)
  generalize body.run.run (w.enterMethod signature) = outcome at inner
  cases inner with
  | failed e w' => exact .failed e w'.leaveMethod outside.symm
  | written t =>
    have left : ((w.enterMethod signature).put t).leaveMethod = w.put t := by
      obtain ⟨text, depth, method⟩ := w
      cases outside
      rfl
    rw [left]
    exact .written t

end Puts

/-- A brace block is two lines around what stands deeper. -/
theorem inBlock_eq (body : Emit Unit) :
    inBlock body = (do
      line "\x7b"
      deeper body
      line "\x7d") := by
  simp only [inBlock, deeper, bind_assoc]
  rfl

namespace Writes

variable {piece next : Emit Unit} {method : Option Signature} {r s : Rendered (List Line)}

theorem congr (h : Writes piece method r) (same : r = s) : Writes piece method s := same ▸ h

theorem nothing : Writes (pure ()) method (.ok []) := Puts.nothing

theorem line (text : String) : Writes (line text) method (.ok [.flush text]) := Puts.line text

theorem endLine : Writes endLine method (.ok [.blank]) := Puts.endLine

theorem failed (e : RenderError) : Writes (Emit.ofRendered (.error e)) method (.error e) :=
  Puts.failed e

theorem ofRendered {x : Rendered α} {f : α → Emit Unit} {g : α → Rendered (List Line)}
    (h : ∀ a, Writes (f a) method (g a)) : Writes (ofRendered x >>= f) method (x >>= g) :=
  (Puts.ofRendered h).congr (by cases x <;> rfl)

theorem seq (h : Writes piece method r) (h' : Writes next method s) :
    Writes (piece >>= fun _ => next) method (do return (← r) ++ (← s)) := by
  refine (Puts.seq h h').congr ?_
  cases r with
  | error e => rfl
  | ok ls =>
    cases s with
    | error e => rfl
    | ok ms => exact congrArg Except.ok (Passage.ofLines_append ls ms).symm

theorem lines (ls : List Line) : Writes (lines ls) method (.ok ls) := by
  induction ls with
  | nil => exact nothing
  | cons l rest ih =>
    have here : Writes (update (Writer.place l)) method (.ok [l]) :=
      Puts.update fun w => by simp [Writer.place, Writer.write, Writer.put, Passage.ofLines]
    exact here.seq ih

theorem inBlock (h : Writes piece method r) :
    Writes (inBlock piece) method (do return braced (← r)) := by
  rw [inBlock_eq]
  refine ((Puts.line _).seq ((Puts.deeper h).seq (Puts.line _))).congr ?_
  cases r with
  | error e => rfl
  | ok ls => exact congrArg Except.ok (by rw [Passage.ofLines_braced, Passage.append_assoc])

theorem inMethod {signature : Signature} (h : Writes piece (some signature) r) :
    Writes (inMethod signature piece) none r := Puts.inMethod h

/-- Pieces in a row. -/
theorem forM {f : α → Emit Unit} {g : α → Rendered (List Line)}
    (h : ∀ a, Writes (f a) method (g a)) (xs : List α) :
    Writes (xs.forM f) method (do return (← xs.mapM g).flatten) := by
  induction xs with
  | nil => exact nothing
  | cons x rest ih =>
    refine ((h x).seq ih).congr ?_
    rw [List.mapM_cons]
    simp

/-- Where the result is there, its lines are behind the text. -/
theorem run_eq {ls : List Line} (h : Writes piece method (.ok ls)) {w : Writer}
    (inMethod : w.method = method) : piece.run.run w = (.ok (), w.placeLines ls) := by
  have outcome := h w inMethod
  generalize piece.run.run w = result at outcome
  cases outcome with
  | written t => rfl

/-- Where the writing succeeds, the result is there. -/
theorem exists_of_run (h : Writes piece method r) {w w' : Writer} (inMethod : w.method = method)
    (written : piece.run.run w = (.ok (), w')) : ∃ ls, r = .ok ls ∧ w' = w.placeLines ls := by
  cases r with
  | error e =>
    have outcome := h w inMethod
    rw [written] at outcome
    cases outcome
  | ok ls =>
    refine ⟨ls, rfl, ?_⟩
    rw [h.run_eq inMethod] at written
    exact (congrArg Prod.snd written).symm

/-- The method is the same behind the piece of writing, even behind an error. -/
theorem keeps (h : Writes piece method r) {w : Writer} (inMethod : w.method = method) :
    (piece.run.run w).2.method = method :=
  (h w inMethod).method_eq.trans inMethod

end Writes

/-- What is written from the start is the text of the lines. -/
theorem textOf_eq {piece : Emit Unit} {r : Rendered (List Line)} (h : Writes piece none r) :
    textOf piece = linesText <$> r := by
  have written := h {} rfl
  unfold textOf
  generalize piece.run.run {} = outcome at written
  cases r with
  | error e =>
    cases written with
    | failed e w' kept => rfl
  | ok ls =>
    cases written with
    | written t => exact congrArg Except.ok String.empty_append

end Emit

end CppPrinter
