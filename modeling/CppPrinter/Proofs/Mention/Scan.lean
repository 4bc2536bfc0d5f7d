import CppPrinter.Proofs.Reading.Token
import CppPrinter.Expr.Atom
import Mathlib.Data.Set.Insert

/-!
# References to resources on a line

A line is read character by character for references to the resource table: the word `TernResource`, two
colons behind it, and the identifier behind these, all outside of literals (`references`). A literal ends
on the line on which it starts, so every line is read on its own.

What the pieces of a line refer to is said by `Cites`. Two pieces in a row refer to what the one and the
other refer to, unless they run together into one word (`Cites.append`); in the texts that are printed,
something fixed always stands between them that prevents it.
-/

namespace CppPrinter

/-- Where a line is being read. -/
inductive Cursor where
  /-- Outside of words and literals. -/
  | gap
  | word (text : List Char)
  /-- Behind the namespace of the resource table and one colon. -/
  | colon
  /-- Behind the namespace and two colons, in the identifier. -/
  | name (text : List Char)
  /-- Between the delimiters of a literal. -/
  | inside (delimiter : Char)
  /-- Behind a backslash in a literal. -/
  | escape (delimiter : Char)
  deriving DecidableEq

namespace Cursor

/-- Behind a character that goes on with nothing. -/
def start (c : Char) : Cursor :=
  if inWord c then .word [c]
  else if c = '\x22' ∨ c = '\x27' then .inside c
  else .gap

/-- Reads one character. -/
def step : Cursor → Char → Cursor
  | .gap, c => start c
  | .word text, c =>
    if inWord c then .word (text ++ [c])
    else if c = ':' ∧ text = resourceNamespace.toList then .colon
    else start c
  | .colon, c => if c = ':' then .name [] else start c
  | .name text, c => if inWord c then .name (text ++ [c]) else start c
  | .inside delimiter, c =>
    if c = delimiter then .gap else if c = '\\' then .escape delimiter else .inside delimiter
  | .escape delimiter, _ => .inside delimiter

/-- The reference that ends here. -/
def pending : Cursor → List String
  | .name text => [String.ofList text]
  | _ => []

/-- The reference that ends in front of a character. -/
def ended (p : Cursor) (c : Char) : List String := if inWord c then [] else p.pending

/-- The references that end in front of some character of the text, and where the reading is then. -/
def read : Cursor → List Char → List String × Cursor
  | p, [] => ([], p)
  | p, c :: rest => (p.ended c ++ (read (p.step c) rest).1, (read (p.step c) rest).2)

theorem read_append (p : Cursor) (front back : List Char) :
    p.read (front ++ back) =
      ((p.read front).1 ++ ((p.read front).2.read back).1, ((p.read front).2.read back).2) := by
  induction front generalizing p with
  | nil => rfl
  | cons c rest ih => simp only [List.cons_append, read, ih, List.append_assoc]

/-- Nothing but a character of a word goes on with what is being read. -/
def isSoft : Cursor → Bool
  | .gap | .name _ => true
  | .word text => text != resourceNamespace.toList
  | _ => false

/-- What starts anew is read behind a soft place as it is read on its own. -/
theorem read_of_soft {p : Cursor} (soft : p.isSoft = true) {c : Char} (fresh : inWord c = false)
    (rest : List Char) :
    p.read (c :: rest) =
      (p.pending ++ (Cursor.gap.read (c :: rest)).1, (Cursor.gap.read (c :: rest)).2) := by
  have steps : p.step c = .start c := by
    cases p with
    | gap => rfl
    | word text =>
      have other : text ≠ resourceNamespace.toList := bne_iff_ne.1 soft
      simp [step, fresh, other]
    | name text => simp [step, fresh]
    | colon | inside | escape => cases soft
  have noPending : Cursor.gap.pending = [] := rfl
  rw [read, steps, read, ended, ended, if_neg (by simp [fresh]), if_neg (by simp [fresh]), noPending,
    List.nil_append]
  rfl

end Cursor

/-- The identifiers of the references on a line, those outside of literals. -/
def references (line : List Char) : List String :=
  (Cursor.gap.read line).1 ++ (Cursor.gap.read line).2.pending

example : references "f(TernResource::logo_png.data(), \x22TernResource::no\x22)".toList =
    ["logo_png"] := by decide

example : references "MyTernResource::no + TernResource:: + TernResource::a1".toList = ["", "a1"] := by
  decide

/-! ### Pieces of lines -/

/-- The text, which may stand on a line, refers to these identifiers when it is read from a gap, and
nothing but a character of a word goes on with its end. -/
structure Cites (text : String) (ids : Set String) : Prop where
  smooth : ∀ c ∈ text.toList, c ≠ '\n' ∧ c ≠ '\t'
  soft : (Cursor.gap.read text.toList).2.isSoft = true
  exact : ∀ id, id ∈ references text.toList ↔ id ∈ ids

/-- The text starts with no character of a word. -/
def IsFresh (text : String) : Prop := text.toList.head?.all (!inWord ·) = true

/-- The text ends in a gap. -/
def IsLoose (text : String) : Prop := (Cursor.gap.read text.toList).2 = .gap

theorem IsFresh.append {front : String} (fresh : IsFresh front) (filled : front ≠ "") (back : String) :
    IsFresh (front ++ back) := by
  obtain ⟨c, rest, shape⟩ := List.exists_cons_of_ne_nil (mt String.toList_eq_nil_iff.1 filled)
  simpa [IsFresh, shape] using fresh

/-- A fixed text without references. -/
structure IsPlain (text : String) : Prop where
  smooth : ∀ c ∈ text.toList, c ≠ '\n' ∧ c ≠ '\t'
  soft : (Cursor.gap.read text.toList).2.isSoft = true
  silent : references text.toList = []

/-- A fixed text to stand in front of others. -/
structure IsLead (text : String) : Prop extends IsPlain text where
  loose : IsLoose text

/-- A fixed text to stand behind others. -/
structure IsTail (text : String) : Prop extends IsPlain text where
  fresh : IsFresh text

/-- A fixed text to stand between others. -/
structure IsJoint (text : String) : Prop extends IsLead text, IsTail text where
  filled : text ≠ ""

instance (text : String) : Decidable (IsFresh text) := inferInstanceAs (Decidable (_ = _))

instance (text : String) : Decidable (IsLoose text) := inferInstanceAs (Decidable (_ = _))

instance (text : String) : Decidable (IsPlain text) :=
  decidable_of_iff ((∀ c ∈ text.toList, c ≠ '\n' ∧ c ≠ '\t') ∧
      (Cursor.gap.read text.toList).2.isSoft = true ∧ references text.toList = [])
    ⟨fun ⟨smooth, soft, silent⟩ => ⟨smooth, soft, silent⟩, fun h => ⟨h.smooth, h.soft, h.silent⟩⟩

instance (text : String) : Decidable (IsLead text) :=
  decidable_of_iff (IsPlain text ∧ IsLoose text) ⟨fun h => ⟨h.1, h.2⟩, fun h => ⟨h.toIsPlain, h.loose⟩⟩

instance (text : String) : Decidable (IsTail text) :=
  decidable_of_iff (IsPlain text ∧ IsFresh text) ⟨fun h => ⟨h.1, h.2⟩, fun h => ⟨h.toIsPlain, h.fresh⟩⟩

instance (text : String) : Decidable (IsJoint text) :=
  decidable_of_iff (IsLead text ∧ IsFresh text ∧ text ≠ "")
    ⟨fun h => ⟨h.1, h.2.1, h.2.2⟩, fun h => ⟨h.toIsLead, h.fresh, h.filled⟩⟩

namespace Cites

variable {front back text next lead tail joint : String} {S T : Set String}

theorem of_plain (h : IsPlain text) : Cites text ∅ where
  smooth := h.smooth
  soft := h.soft
  exact := by simp [h.silent]

/-- A text in the shape that is wanted, with its references. -/
theorem congr (h : Cites text S) (same : S = T) : Cites text T := same ▸ h

/-- What starts anew, or stands behind a gap, is read as it is read on its own. -/
theorem read_behind (h : Cites front S) (filled : back ≠ "") (apart : IsLoose front ∨ IsFresh back) :
    (Cursor.gap.read front.toList).2.read back.toList =
      ((Cursor.gap.read front.toList).2.pending ++ (Cursor.gap.read back.toList).1,
        (Cursor.gap.read back.toList).2) := by
  rcases apart with loose | fresh
  · rw [loose]
    rfl
  · obtain ⟨c, rest, shape⟩ :=
      List.exists_cons_of_ne_nil (mt String.toList_eq_nil_iff.1 filled)
    rw [shape]
    exact Cursor.read_of_soft h.soft (by simpa [IsFresh, shape] using fresh) rest

/-- Two pieces that do not run together. -/
theorem append (h : Cites front S) (h' : Cites back T) (apart : IsLoose front ∨ IsFresh back) :
    Cites (front ++ back) (S ∪ T) := by
  by_cases empty : back = ""
  · have silent : T = ∅ := Set.eq_empty_of_forall_notMem fun id member =>
      absurd ((h'.exact id).2 member) (by simp [empty, references, Cursor.read, Cursor.pending])
    rw [empty, String.append_empty, silent, Set.union_empty]
    exact h
  · have onward := h.read_behind empty apart
    have whole : references (front ++ back).toList =
        references front.toList ++ references back.toList := by
      simp only [references, String.toList_append, Cursor.read_append, onward, List.append_assoc]
    refine ⟨?_, ?_, fun id => ?_⟩
    · rw [String.toList_append]
      exact List.forall_mem_append.2 ⟨h.smooth, h'.smooth⟩
    · rw [String.toList_append, Cursor.read_append, onward]
      exact h'.soft
    · rw [whole, List.mem_append, h.exact, h'.exact, Set.mem_union]

theorem followed (h : Cites text S) (fixed : IsTail tail) : Cites (text ++ tail) S :=
  (h.append (of_plain fixed.toIsPlain) (.inr fixed.fresh)).congr (Set.union_empty S)

theorem headed (h : Cites text S) (fixed : IsLead lead) : Cites (lead ++ text) S :=
  ((of_plain fixed.toIsPlain).append h (.inl fixed.loose)).congr (Set.empty_union S)

/-- Two pieces with a fixed text between them. -/
theorem joined (h : Cites front S) (fixed : IsJoint joint) (h' : Cites back T) :
    Cites (front ++ joint ++ back) (S ∪ T) := by
  refine (h.followed fixed.toIsTail).append h' (.inl ?_)
  rw [IsLoose, String.toList_append, Cursor.read_append, h.read_behind fixed.filled (.inr fixed.fresh)]
  exact fixed.loose

/-- A piece behind one without references. -/
theorem behind (h : Cites text S) (fixed : IsJoint joint) (front_silent : Cites front ∅) :
    Cites (front ++ joint ++ text) S :=
  (front_silent.joined fixed h).congr (Set.empty_union S)

/-- A piece in front of one without references. -/
theorem before (h : Cites text S) (fixed : IsJoint joint) (back_silent : Cites back ∅) :
    Cites (text ++ joint ++ back) S :=
  (h.joined fixed back_silent).congr (Set.union_empty S)

/-- Texts in a row with commas between them, each with the references of what it is the text of. -/
theorem intercalate {α : Type} {ids : α → Set String} {texts : List String} {xs : List α}
    (each : List.Forall₂ (fun text x => Cites text (ids x)) texts xs) :
    Cites (", ".intercalate texts) {id | ∃ x ∈ xs, id ∈ ids x} := by
  induction each with
  | nil => exact (of_plain (by decide)).congr (by simp)
  | @cons text x texts xs here rest ih =>
    cases texts with
    | nil =>
      cases rest
      exact here.congr (by simp)
    | cons next texts =>
      rw [String.intercalate_cons_cons]
      exact (here.joined (by decide) ih).congr (by ext id; simp)

theorem intercalate_silent {texts : List String} (each : ∀ text ∈ texts, Cites text ∅) :
    Cites (", ".intercalate texts) ∅ :=
  (intercalate (List.forall₂_same.2 each)).congr (by simp)

end Cites

end CppPrinter
