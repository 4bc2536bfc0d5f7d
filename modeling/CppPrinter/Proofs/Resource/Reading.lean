import CppPrinter.Proofs.Layout.Writing
import CppPrinter.Proofs.Reading.Atom
import CppPrinter.Program.Resource
import Std.Data.String.ToNat

/-!
# Reading the table of resources

The tables of resources are read back from their text alone: line by line, an array by the line that
names it (`arrayHead?`), its elements by cutting its initializer at the commas (`InitializedArray.elements?`).
What the readers find in a table that has been written is in `Proofs/Resource/Table`.
-/

namespace CppPrinter

/-- The lines of a text without the tabs in front of them. What stands behind the last end of a line
counts as a line. -/
def textLines (text : String) : List (List Char) :=
  (text.toList.splitOn '\n').map (List.dropWhile (· == '\t'))

/-- The number that decimal digits spell. -/
def number? (digits : List Char) : Option Nat := (String.ofList digits).toNat?

/-- What a line says of an array of bytes. -/
structure ArrayHead where
  length : Nat
  identifier : String
  deriving DecidableEq

/-- The array that a line names, where the line is `lead`, the length, `> `, the identifier and
`trail`. -/
def arrayHead? (lead trail line : List Char) : Option ArrayHead :=
  let digits := (line.drop lead.length).takeWhile Char.isDigit
  let name := (line.drop (lead.length + digits.length + 2)).takeWhile inWord
  if line = lead ++ digits ++ ['>', ' '] ++ name ++ trail then
    (number? digits).map (⟨·, String.ofList name⟩)
  else none

/-- An array with the lines of its initializer. -/
structure InitializedArray where
  head : ArrayHead
  lines : List (List Char)
  deriving DecidableEq

namespace InitializedArray

/-- The pieces between the commas of some characters, spaces left out. -/
def pieces (cs : List Char) : List (List Char) := (cs.filter (· != ' ')).splitOn ','

/-- The elements of the initializer; none if there is a piece that is no number. An initializer
without characters has no elements. -/
def elements? (a : InitializedArray) : Option (List Nat) :=
  if a.lines.flatten = [] then some [] else (pieces a.lines.flatten).mapM number?

/-- The lines of an initializer hold at most sixteen numbers each, and all of them but the last end in
a comma. -/
structure IsWrapped (a : InitializedArray) : Prop where
  short : ∀ line ∈ a.lines, ((pieces line).filter (· ≠ [])).length ≤ 16
  continued : ∀ line ∈ a.lines.dropLast, line.getLast? = some ','
  ended : ∀ line ∈ a.lines.getLast?, line.getLast? ≠ some ','

end InitializedArray

/-- The arrays that are declared on lines of their own. -/
def readDeclarations (text : String) : List ArrayHead :=
  (textLines text).filterMap
    (arrayHead? "extern const std::array<uint8_t, ".toList ";".toList)

/-- The arrays that some lines define. An initializer takes the lines up to the one that closes it. -/
def definedArrays : List (List Char) → List InitializedArray
  | [] => []
  | line :: rest =>
    match arrayHead? "const std::array<uint8_t, ".toList " = \x7b".toList line with
    | some head => ⟨head, rest.takeWhile (· ≠ "\x7d;".toList)⟩ :: definedArrays rest
    | none => definedArrays rest

/-- The arrays that are defined with an initializer. -/
def readDefinitions (text : String) : List InitializedArray := definedArrays (textLines text)

/-- The characters of a line without its indentation. -/
def Line.contents : Line → List Char
  | .blank => []
  | .code _ text => text.toList

@[simp] theorem Line.contents_indent (line : Line) : line.indent.contents = line.contents := by
  cases line <;> rfl

theorem map_contents_indented (ls : List Line) :
    (indented ls).map Line.contents = ls.map Line.contents := by
  simp [indented]

/-- A line without an end of line in it and without tabs. -/
def Line.IsSmooth (line : Line) : Prop := ∀ c ∈ line.contents, c ≠ '\n' ∧ c ≠ '\t'

instance (line : Line) : Decidable line.IsSmooth :=
  inferInstanceAs (Decidable (∀ c ∈ line.contents, c ≠ '\n' ∧ c ≠ '\t'))

/-- A line that its text is read back as: it has no end of line in it and starts with no tab. -/
structure Line.IsWhole (line : Line) : Prop where
  inLine : ∀ c ∈ line.contents, c ≠ '\n'
  unindented : line.contents.head? ≠ some '\t'

theorem Line.IsSmooth.isWhole {line : Line} (smooth : line.IsSmooth) : line.IsWhole where
  inLine c member := (smooth c member).1
  unindented tab := (smooth '\t' (List.mem_of_head? tab)).2 rfl

theorem Line.IsWhole.indent {line : Line} (whole : line.IsWhole) : line.indent.IsWhole where
  inLine := by simpa using whole.inLine
  unindented := by simpa using whole.unindented

theorem Line.isWhole_blank : Line.blank.IsWhole := ⟨nofun, nofun⟩

/-- Whole lines are read back as they were written. -/
theorem textLines_linesText {ls : List Line} (whole : ∀ line ∈ ls, line.IsWhole) :
    textLines (linesText ls) = ls.map Line.contents ++ [[]] := by
  rw [textLines, linesText, String.toList_ofList]
  induction ls with
  | nil => simp
  | cons line rest ih =>
    obtain ⟨here, later⟩ := List.forall_mem_cons.1 whole
    obtain ⟨tabs, placed⟩ : ∃ n, line.place 0 = List.replicate n '\t' ++ line.contents ++ ['\n'] := by
      cases line with
      | blank => exact ⟨0, rfl⟩
      | code depth text => exact ⟨0 + depth, rfl⟩
    have oneLine : ∀ c ∈ List.replicate tabs '\t' ++ line.contents, (c == '\n') = false := by
      intro c member
      rcases List.mem_append.1 member with tab | inside
      · rw [List.eq_of_mem_replicate tab]
        rfl
      · exact beq_eq_false_iff_ne.2 (here.inLine c inside)
    have unindented : (List.replicate tabs '\t' ++ line.contents).dropWhile (· == '\t') =
        line.contents := by
      rw [List.dropWhile_append_of_pos (by simp)]
      have first := here.unindented
      cases shape : line.contents with
      | nil => rfl
      | cons c cs =>
        have noTab : c ≠ '\t' := fun tab => first (by rw [shape, tab, List.head?_cons])
        rw [List.dropWhile_cons_of_neg (by simpa using noTab)]
    rw [List.flatMap_cons, placed, List.append_assoc, List.singleton_append, List.splitOn,
      List.splitOnP_append_cons_of_forall_mem oneLine _ (by rfl), List.map_cons, unindented]
    exact congrArg (line.contents :: ·) (ih later)

/-- The array of a line is found where the length is spelled in digits, the identifier in the
characters of words, and the trail starts with a character of another kind. -/
theorem arrayHead?_eq_some (lead : List Char) {trail name : List Char} {c : Char} {cs : List Char}
    (n : Nat) (word : ∀ c ∈ name, inWord c = true) (shape : trail = c :: cs)
    (stops : inWord c = false) :
    arrayHead? lead trail (lead ++ (toString n).toList ++ ['>', ' '] ++ name ++ trail) =
      some ⟨n, String.ofList name⟩ := by
  have isDigit : ∀ c ∈ (toString n).toList, c.isDigit = true :=
    fun c => isDigit_of_mem_repr
  have behindLead : (lead ++ (toString n).toList ++ ['>', ' '] ++ name ++ trail).drop lead.length =
      (toString n).toList ++ '>' :: ' ' :: (name ++ trail) := by
    simp
  have digits : ((toString n).toList ++ '>' :: ' ' :: (name ++ trail)).takeWhile Char.isDigit =
      (toString n).toList := by
    rw [List.takeWhile_append_of_pos isDigit, List.takeWhile_cons_of_neg (by decide), List.append_nil]
  have behindLength : (lead ++ (toString n).toList ++ ['>', ' '] ++ name ++ trail).drop
      (lead.length + (toString n).toList.length + 2) = name ++ trail := by
    rw [← List.drop_drop, ← List.drop_drop, behindLead, List.drop_left]
    rfl
  have identifier : (name ++ trail).takeWhile inWord = name := by
    rw [List.takeWhile_append_of_pos word, shape, List.takeWhile_cons_of_neg (by simp [stops]),
      List.append_nil]
  have spelled : number? (toString n).toList = some n := by
    rw [number?, String.ofList_toList]
    exact Nat.toNat?_repr n
  simp only [arrayHead?, behindLead, digits, behindLength, identifier, if_pos, spelled,
    Option.map_some]

/-- A line that starts with another character names no array. -/
theorem arrayHead?_eq_none {lead trail line : List Char} (differs : line.head? ≠ lead.head?)
    (some_lead : lead ≠ []) : arrayHead? lead trail line = none := by
  unfold arrayHead?
  rw [if_neg]
  intro same
  apply differs
  rw [same]
  cases lead with
  | nil => exact absurd rfl some_lead
  | cons c cs => rfl

end CppPrinter
