import CppPrinter.Proofs.Layout.Writing
import CppPrinter.Proofs.Reading.Token

/-!
# Brackets outside of literals

A text is read character by character with a list of the closing brackets that are awaited
(`Scan.step`). Between the delimiters of a literal brackets do not count, and the reading stops for good
at a bracket that closes nothing, at the end of a line inside a literal, and at two characters that
would be read as something else than they look like: the start of a comment, a prefix in front of a
literal, another spelling of a bracket (`Edge.clashes`). A text that is read to its end with nothing
awaited is well bracketed (`IsWellBracketed`).

What the pieces of a text do is said by `Leads`: which brackets they take and leave, and behind which
characters they may stand. Pieces in a row lead where the last one leads (`Leads.append`), and whatever
is awaited below stays untouched (`Leads.frame`).
-/

namespace CppPrinter

/-- What was read last, as far as it matters for the character that comes next. -/
inductive Edge where
  | loose
  /-- A character of a word. -/
  | word
  | slash
  | angle
  | colon
  | percent
  deriving DecidableEq

namespace Edge

/-- The edge behind a character that is no quote and no bracket. -/
def behind (c : Char) : Edge :=
  if inWord c then word
  else if c = '/' then slash
  else if c = '<' then angle
  else if c = ':' then colon
  else if c = '%' then percent
  else loose

/-- The character would be read together with the one before it: a quote behind a word, whose literal
has a prefix then, the start of a comment, and a bracket spelled with two characters. -/
def clashes : Edge → Char → Bool
  | loose, _ => false
  | word, c => c == '\x22' || c == '\x27'
  | slash, c => c == '/' || c == '*'
  | angle, c => c == ':' || c == '%'
  | colon, c => c == '>'
  | percent, c => c == ':' || c == '>'

end Edge

namespace Scan

/-- Where a text is being read. -/
inductive Place where
  | code (edge : Edge)
  /-- Between the delimiters of a literal. -/
  | inside (delimiter : Char)
  /-- Behind a backslash in a literal. -/
  | escape (delimiter : Char)
  deriving DecidableEq

/-- The closing bracket that an opening one awaits. -/
def closerOf? : Char → Option Char
  | '(' => some ')'
  | '[' => some ']'
  | '\x7b' => some '\x7d'
  | _ => none

/-- What a character does to the brackets that are awaited. -/
inductive Move where
  | keep
  | opens (closer : Char)
  | closes (closer : Char)

/-- What is awaited afterwards. A bracket closes only what is awaited first. -/
def Move.result? : Move → List Char → Option (List Char)
  | keep, awaited => some awaited
  | opens closer, awaited => some (closer :: awaited)
  | closes closer, awaited => if awaited.head? = some closer then some awaited.tail else none

/-- What a character does, unless the reading stops at it. -/
def look? : Place → Char → Option (Move × Place)
  | .code edge, c =>
    if edge.clashes c then none
    else if c = '\x22' ∨ c = '\x27' then some (.keep, .inside c)
    else match closerOf? c with
      | some closer => some (.opens closer, .code .loose)
      | none =>
        if c = ')' ∨ c = ']' ∨ c = '\x7d' then some (.closes c, .code .loose)
        else some (.keep, .code (.behind c))
  | .inside delimiter, c =>
    if c = delimiter then some (.keep, .code .loose)
    else if c = '\\' then some (.keep, .escape delimiter)
    else if c = '\n' then none
    else some (.keep, .inside delimiter)
  | .escape delimiter, c => if c = '\n' then none else some (.keep, .inside delimiter)

/-- Reads one character, or stops. -/
def step (awaited : List Char) (place : Place) (c : Char) : Option (List Char × Place) := do
  let (move, place') ← look? place c
  return (← move.result? awaited, place')

/-- Reads some characters. -/
def run (awaited : List Char) (place : Place) : List Char → Option (List Char × Place)
  | [] => some (awaited, place)
  | c :: rest => (step awaited place c).bind fun s => run s.1 s.2 rest

theorem run_append (awaited : List Char) (place : Place) (front back : List Char) :
    run awaited place (front ++ back) =
      (run awaited place front).bind fun s => run s.1 s.2 back := by
  induction front generalizing awaited place with
  | nil => rfl
  | cons c rest ih =>
    rw [List.cons_append, run, run]
    cases step awaited place c with
    | none => rfl
    | some s => exact ih s.1 s.2

theorem Move.result?_frame {move : Move} {awaited awaited' : List Char}
    (moved : move.result? awaited = some awaited') (below : List Char) :
    move.result? (awaited ++ below) = some (awaited' ++ below) := by
  cases move with
  | keep | opens =>
    cases moved
    rfl
  | closes closer =>
    cases awaited with
    | nil => cases moved
    | cons first rest =>
      simp only [result?] at moved
      split at moved <;> cases moved
      rename_i fits
      exact if_pos fits

/-- What is awaited below does not change what a character does. -/
theorem step_frame {awaited awaited' : List Char} {place place' : Place} {c : Char}
    (read : step awaited place c = some (awaited', place')) (below : List Char) :
    step (awaited ++ below) place c = some (awaited' ++ below, place') := by
  obtain ⟨⟨move, there⟩, looked, rest⟩ := Option.bind_eq_some_iff.1 read
  obtain ⟨after, moved, result⟩ := Option.bind_eq_some_iff.1 rest
  cases result
  simp only [step, looked, Option.bind_eq_bind, Option.bind_some, move.result?_frame moved below]
  rfl

theorem run_frame {awaited awaited' : List Char} {place place' : Place} {cs : List Char}
    (read : run awaited place cs = some (awaited', place')) (below : List Char) :
    run (awaited ++ below) place cs = some (awaited' ++ below, place') := by
  induction cs generalizing awaited place with
  | nil =>
    cases read
    rfl
  | cons c rest ih =>
    obtain ⟨⟨middle, at'⟩, first, later⟩ := Option.bind_eq_some_iff.1 read
    rw [run, step_frame first below]
    exact ih later

end Scan

/-- Every literal in the text is closed on its line, and outside of literals all brackets are closed in
the order opposite to that in which they were opened. -/
def IsWellBracketed (text : String) : Prop :=
  ∃ edge, Scan.run [] (.code .loose) text.toList = some ([], .code edge)

/-- The edge behind which a literal may start, and any other operand. -/
def freely : List Edge := [.loose]

/-- The edges behind a name or a type. -/
def plainly : List Edge := [.loose, .word]

/-- The edges behind an operand. The colon is that of a resource with an empty name. -/
def softly : List Edge := [.loose, .word, .colon]

/-- All edges. -/
def anyhow : List Edge := [.loose, .word, .slash, .angle, .colon, .percent]

/-- Behind any edge of `front` and with the brackets `awaited`, the text can be read; it ends behind an
edge of `back` and with `awaited'`. -/
def Leads (front : List Edge) (awaited : List Char) (text : String) (awaited' : List Char)
    (back : List Edge) : Prop :=
  ∀ edge ∈ front, ∃ edge' ∈ back,
    Scan.run awaited (.code edge) text.toList = some (awaited', .code edge')

instance (front back : List Edge) (awaited awaited' : List Char) (text : String) :
    Decidable (Leads front awaited text awaited' back) :=
  inferInstanceAs (Decidable (∀ edge ∈ front, ∃ edge' ∈ back, _))

/-- A whole text is read from the start of a line, and nothing is awaited at its end. -/
theorem isWellBracketed_iff {text : String} :
    IsWellBracketed text ↔ Leads freely [] text [] anyhow := by
  constructor
  · rintro ⟨edge, read⟩ start free
    obtain rfl := List.mem_singleton.1 free
    exact ⟨edge, by cases edge <;> decide, read⟩
  · intro h
    obtain ⟨edge, -, read⟩ := h .loose (by decide)
    exact ⟨edge, read⟩

instance (text : String) : Decidable (IsWellBracketed text) := decidable_of_iff _ isWellBracketed_iff.symm

example : IsWellBracketed "f(\x22)]\\\x22\x22, [\x27(\x27])" := by decide

example : ¬ IsWellBracketed "f(x[1)]" := by decide

example : ¬ IsWellBracketed "f(\x22\n\x22)" := by decide

namespace Leads

variable {front middle back : List Edge} {s t u : List Char} {text next : String}

/-- One text behind the other. -/
theorem append (first : Leads front s text t middle) (second : Leads middle t next u back) :
    Leads front s (text ++ next) u back := by
  intro edge allowed
  obtain ⟨edge', allowed', read⟩ := first edge allowed
  obtain ⟨edge'', allowed'', read'⟩ := second edge' allowed'
  refine ⟨edge'', allowed'', ?_⟩
  rw [String.toList_append, Scan.run_append, read]
  exact read'

/-- Brackets that are awaited below stay as they are. -/
theorem frame (h : Leads front s text t back) (below : List Char) :
    Leads front (s ++ below) text (t ++ below) back := by
  intro edge allowed
  obtain ⟨edge', allowed', read⟩ := h edge allowed
  exact ⟨edge', allowed', Scan.run_frame read below⟩

theorem mono {front' back' : List Edge} (h : Leads front s text t back) (less : front' ⊆ front)
    (more : back ⊆ back') : Leads front' s text t back' := by
  intro edge allowed
  obtain ⟨edge', allowed', read⟩ := h edge (less allowed)
  exact ⟨edge', more allowed', read⟩

end Leads

/-- The text is fit to stand for an operand: it may come behind anything that a literal may come
behind, it closes what it opens, and nothing but a quote would be read together with its end. -/
def IsClosed (text : String) : Prop := Leads freely [] text [] softly

instance (text : String) : Decidable (IsClosed text) :=
  inferInstanceAs (Decidable (Leads freely [] text [] softly))

/-- The text is fit to stand for a name or a type, which may come behind anything. -/
def IsNaming (text : String) : Prop := Leads anyhow [] text [] plainly

instance (text : String) : Decidable (IsNaming text) :=
  inferInstanceAs (Decidable (Leads anyhow [] text [] plainly))

theorem IsNaming.isClosed {text : String} (h : IsNaming text) : IsClosed text :=
  h.mono (by decide) (by decide)

end CppPrinter
