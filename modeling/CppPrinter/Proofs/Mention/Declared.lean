import CppPrinter.Proofs.Mention.Stmt

/-!
# Declared first

The references on some lines stand behind the declarations of the arrays they refer to
(`DeclaredFirst`). In a text that is cut in front of and behind the table that declares the arrays, this
is a matter of the front alone (`declaredFirst_append_iff`). What the lines of the front refer to is said
exactly (`Refers`), and none of them is taken for a declaration of the table.
-/

namespace CppPrinter

/-- The array of bytes that the line declares to be defined elsewhere. -/
def externArray? : List Char → Option ArrayHead :=
  arrayHead? "extern const std::array<uint8_t, ".toList ";".toList

/-- The identifiers of the arrays that some lines declare. -/
def declared (ls : List (List Char)) : List String := (ls.filterMap externArray?).map ArrayHead.identifier

/-- Every reference on a line stands behind the line that declares what it refers to. -/
def DeclaredFirst (ls : List (List Char)) : Prop :=
  ∀ front line back, ls = front ++ line :: back → ∀ id ∈ references line, id ∈ declared front

theorem mem_declared_append {ls ms : List (List Char)} {id : String} :
    id ∈ declared (ls ++ ms) ↔ id ∈ declared ls ∨ id ∈ declared ms := by
  simp [declared, List.filterMap_append]

/-- In lines behind others, what is referred to may be declared by those too. -/
theorem declaredFirst_append_iff {ls ms : List (List Char)} :
    DeclaredFirst (ls ++ ms) ↔ DeclaredFirst ls ∧ ∀ front line back, ms = front ++ line :: back →
      ∀ id ∈ references line, id ∈ declared (ls ++ front) := by
  constructor
  · intro first
    refine ⟨fun front line back split => first front line (back ++ ms) (by simp [split]), ?_⟩
    exact fun front line back split => first (ls ++ front) line back (by simp [split])
  · rintro ⟨first, second⟩ front line back split
    rcases List.append_eq_append_iff.1 split with ⟨rest, rfl, behind⟩ | ⟨rest, before, behind⟩
    · exact second rest line back behind
    · rcases List.cons_eq_append_iff.1 behind with ⟨rfl, behind⟩ | ⟨rest, rfl, -⟩
      · rw [List.append_nil] at before
        have here := second [] line back behind.symm
        rwa [List.append_nil, before] at here
      · exact first front line rest before

/-- Around the lines that declare all that the lines behind them refer to, those in front of them may
refer to nothing. -/
theorem declaredFirst_around_iff {front table back : List (List Char)}
    (undeclared : declared front = []) (silent : ∀ line ∈ table, references line = [])
    (kept : ∀ line ∈ back, ∀ id ∈ references line, id ∈ declared table) :
    DeclaredFirst (front ++ table ++ back) ↔ ∀ line ∈ front, references line = [] := by
  rw [declaredFirst_append_iff, declaredFirst_append_iff]
  constructor
  · rintro ⟨⟨first, -⟩, -⟩ line member
    refine List.eq_nil_iff_forall_not_mem.2 fun id refers => ?_
    obtain ⟨before, behind, split⟩ := List.append_of_mem member
    have known : id ∈ declared front := by
      rw [split]
      exact mem_declared_append.2 (.inl (first before line behind split id refers))
    rw [undeclared] at known
    cases known
  · intro quiet
    refine ⟨⟨?_, ?_⟩, ?_⟩
    · rintro before line behind rfl id refers
      rw [quiet line (by simp)] at refers
      cases refers
    · rintro before line behind rfl id refers
      rw [silent line (by simp)] at refers
      cases refers
    · rintro before line behind rfl id refers
      have known := kept line (by simp) id refers
      exact mem_declared_append.2 (.inl (mem_declared_append.2 (.inr known)))

/-! ### How lines start -/

/-- The characters of words with which the text starts. -/
def firstWord (text : String) : List Char := text.toList.takeWhile inWord

theorem firstWord_append {text : String} (stops : ∃ c ∈ text.toList, inWord c = false)
    (rest : String) : firstWord (text ++ rest) = firstWord text := by
  obtain ⟨c, member, outside⟩ := stops
  rw [firstWord, String.toList_append, List.takeWhile_append, if_neg]
  · rfl
  · intro whole
    have inside := List.takeWhile_eq_self_iff.1
      ((List.takeWhile_prefix inWord).eq_of_length whole) c member
    rw [outside] at inside
    cases inside

theorem firstWord_followed (text : String) {tail : String} (fresh : IsFresh tail) :
    firstWord (text ++ tail) = firstWord text := by
  have nothing : tail.toList.takeWhile inWord = [] := by
    cases shape : tail.toList with
    | nil => rfl
    | cons c rest =>
      have stops : inWord c = false := by simpa [IsFresh, shape] using fresh
      rw [List.takeWhile_cons_of_neg (by simp [stops])]
  rw [firstWord, String.toList_append, List.takeWhile_append, nothing, List.append_nil, firstWord]
  split
  · rename_i whole
    exact ((List.takeWhile_prefix inWord).eq_of_length whole).symm
  · rfl

theorem firstWord_of_word {word : String} (h : IsWord word) : firstWord word = word.toList :=
  List.takeWhile_eq_self_iff.2 h.inside

/-- The text starts with a word other than that of the declarations of the table. -/
def IsInternal (text : String) : Prop := firstWord text ≠ "extern".toList

instance (text : String) : Decidable (IsInternal text) := inferInstanceAs (Decidable (_ ≠ _))

/-- A fixed text that says how a line starts. -/
structure IsHead (text : String) : Prop where
  stops : text.toList.any (!inWord ·) = true
  internal : IsInternal text

instance (text : String) : Decidable (IsHead text) :=
  decidable_of_iff (text.toList.any (!inWord ·) = true ∧ IsInternal text)
    ⟨fun h => ⟨h.1, h.2⟩, fun h => ⟨h.stops, h.internal⟩⟩

namespace IsInternal

variable {text : String}

theorem followed (h : IsInternal text) {tail : String} (fresh : IsFresh tail) :
    IsInternal (text ++ tail) := by
  rwa [IsInternal, firstWord_followed text fresh]

theorem of_head (head : String) (h : IsHead head) (rest : String) : IsInternal (head ++ rest) := by
  rw [IsInternal, firstWord_append (by simpa using h.stops)]
  exact h.internal

/-- No identifier is the keyword. -/
theorem of_identifier (h : IsIdentifier text) : IsInternal text := by
  rw [IsInternal, firstWord_of_word h.isWord]
  intro same
  exact h.free (String.toList_inj.1 same ▸ (by decide))

theorem of_star (h : IsInternal text) (star : text.toList.getLast? = some '*') (rest : String) :
    IsInternal (text ++ rest) := by
  rw [IsInternal, firstWord_append ⟨'*', List.mem_of_getLast? star, by decide⟩]
  exact h

theorem declarator (h : IsInternal text) (name : String) :
    IsInternal (CppPrinter.declarator text name) := by
  unfold CppPrinter.declarator
  split
  · rename_i star
    exact h.of_star star name
  · rw [String.append_assoc]
    exact h.followed (IsFresh.append (by decide) (by decide) name)

end IsInternal

/-- A line that starts otherwise declares no array of the table. -/
theorem externArray?_eq_none {line : List Char} (other : ¬ "extern const".toList <+: line) :
    externArray? line = none := by
  unfold externArray? arrayHead?
  rw [if_neg]
  intro same
  refine other ?_
  rw [same]
  simp only [List.append_assoc]
  have start : "extern const".toList <+: "extern const std::array<uint8_t, ".toList := by decide
  exact start.trans (List.prefix_append ..)

theorem IsInternal.undeclared {text : String} (h : IsInternal text) :
    externArray? text.toList = none := by
  refine externArray?_eq_none fun start => h ?_
  obtain ⟨rest, same⟩ := start
  rw [firstWord, ← same]
  have word : "extern const".toList = "extern".toList ++ ' ' :: "const".toList := by decide
  rw [word, List.append_assoc, List.takeWhile_append_of_pos (by decide), List.cons_append,
    List.takeWhile_cons_of_neg (by decide), List.append_nil]

/-! ### What lines refer to -/

/-- The lines refer to exactly these identifiers, and none of them declares an array. -/
structure Refers (ls : List Line) (ids : Set String) : Prop where
  whole : ∀ line ∈ ls, line.IsWhole
  exact : ∀ id, (∃ line ∈ ls, id ∈ references line.contents) ↔ id ∈ ids
  undeclared : ∀ line ∈ ls, externArray? line.contents = none

namespace Refers

variable {ls ms : List Line} {S T : Set String} {text : String}

theorem congr (h : Refers ls S) (same : S = T) : Refers ls T := same ▸ h

theorem nil : Refers [] ∅ := ⟨nofun, by simp, nofun⟩

theorem append (h : Refers ls S) (h' : Refers ms T) : Refers (ls ++ ms) (S ∪ T) where
  whole := List.forall_mem_append.2 ⟨h.whole, h'.whole⟩
  exact id := by
    rw [Set.mem_union, ← h.exact, ← h'.exact]
    simp only [List.mem_append, or_and_right, exists_or]
  undeclared := List.forall_mem_append.2 ⟨h.undeclared, h'.undeclared⟩

theorem line (h : Cites text S) (undeclared : externArray? text.toList = none) :
    Refers [.flush text] S where
  whole := List.forall_mem_singleton.2 h.isWhole
  exact id := by
    rw [← h.exact]
    simp [Line.flush, Line.contents]
  undeclared := List.forall_mem_singleton.2 undeclared

/-- A fixed line. -/
theorem fixed (h : IsPlain text) (internal : IsInternal text) : Refers [.flush text] ∅ :=
  line (.of_plain h) internal.undeclared

/-- A line that refers to nothing, whatever goes on with its end. -/
theorem quiet {l : Line} (whole : l.IsWhole) (silent : references l.contents = [])
    (undeclared : externArray? l.contents = none) : Refers [l] ∅ :=
  ⟨List.forall_mem_singleton.2 whole, by simp [silent], List.forall_mem_singleton.2 undeclared⟩

theorem blank : Refers [.blank] ∅ := quiet Line.isWhole_blank rfl rfl

/-- Lines behind ones without references. -/
theorem behind (h : Refers ls S) (front_silent : Refers ms ∅) : Refers (ms ++ ls) S :=
  (front_silent.append h).congr (Set.empty_union S)

/-- Lines in front of ones without references. -/
theorem before (h : Refers ls S) (back_silent : Refers ms ∅) : Refers (ls ++ ms) S :=
  (h.append back_silent).congr (Set.union_empty S)

theorem indented (h : Refers ls S) : Refers (indented ls) S where
  whole := List.forall_mem_map.2 fun line member => (h.whole line member).indent
  exact id := by
    rw [← h.exact]
    simp [CppPrinter.indented]
  undeclared := List.forall_mem_map.2 fun line member => by
    rw [Line.contents_indent]
    exact h.undeclared line member

/-- Lines of which each refers to nothing. -/
theorem of_each_silent (each : ∀ line ∈ ls, Refers [line] ∅) : Refers ls ∅ := by
  induction ls with
  | nil => exact nil
  | cons line rest ih =>
    obtain ⟨here, later⟩ := List.forall_mem_cons.1 each
    exact (ih later).behind here

/-- Lines between braces below a line that refers to nothing. -/
theorem definition {head : String} (silent : Cites head ∅) (internal : IsInternal head)
    (h : Refers ls S) :
    Refers ([Line.blank, .flush head, .flush "\x7b"] ++ ls ++ [Line.flush "\x7d;"]) S := by
  have brace : Refers [.flush "\x7b"] ∅ := fixed (by decide) (by decide)
  have front := (brace.behind (line silent internal.undeclared)).behind blank
  exact (h.behind front).before (fixed (by decide) (by decide))

/-- Groups of lines, each with what it refers to. -/
theorem flatten {α : Type} {ids : α → Set String} {xs : List α} {groups : List (List Line)}
    (each : List.Forall₂ (fun x ls => Refers ls (ids x)) xs groups) :
    Refers groups.flatten {id | ∃ x ∈ xs, id ∈ ids x} := by
  induction each with
  | nil => exact nil.congr (by simp)
  | cons here _ ih => exact (here.append ih).congr (by ext id; simp)

/-- The lines refer to nothing just when no line does. -/
theorem eq_empty_iff (h : Refers ls S) :
    S = ∅ ↔ ∀ line ∈ ls.map Line.contents, references line = [] := by
  simp only [List.forall_mem_map, Set.eq_empty_iff_forall_notMem, ← h.exact, not_exists, not_and,
    List.eq_nil_iff_forall_not_mem]
  exact ⟨fun quiet line member id => quiet id line member,
    fun quiet id line member => quiet line member id⟩

end Refers

/-- Where the front of some lines is known exactly, and the others refer to nothing but what is declared
between, every reference stands behind its declaration just when the front refers to nothing. -/
theorem declaredFirst_lines_iff {front table back : List Line} {S : Set String} (h : Refers front S)
    (silent : Keeps ∅ table) (kept : Keeps {id | id ∈ declared (table.map Line.contents)} back) :
    DeclaredFirst ((front ++ table ++ back).map Line.contents) ↔ S = ∅ := by
  have nothing : declared (front.map Line.contents) = [] := by
    rw [declared, List.map_eq_nil_iff, List.filterMap_eq_nil_iff]
    exact List.forall_mem_map.2 h.undeclared
  rw [h.eq_empty_iff, List.map_append, List.map_append]
  refine declaredFirst_around_iff nothing (List.forall_mem_map.2 fun line member => ?_)
    (List.forall_mem_map.2 fun line member => (kept line member).2)
  exact List.eq_nil_iff_forall_not_mem.2 (silent line member).2

end CppPrinter
