import CppPrinter.Proofs.Reading.Enclosed

/-!
# Texts in pieces

A text may be put together from tokens, spaces and parentheses (`render`). It need not be read as
the tokens that it was made of: a token goes on with the one behind it where nothing stands between
them (`Merges`). But then it is read as a longer token, which no parenthesis makes up for. So a text
whose tokens are those of its pieces up to parentheses is read piece by piece, and no token in it
goes on with the next one (`Spells.eq_tokensIn`).
-/

namespace CppPrinter

/-- The characters of what is being read, where it is a word, a number or a mark. -/
def Pending.text? : Pending → Option (List Char)
  | word text | number text | mark text => some text
  | _ => none

namespace Token

/-- The characters of a token. -/
def chars : Token → List Char
  | word text | number text | mark text => text.toList
  | literal delimiter contents sfx =>
    delimiter :: (contents.toList ++ delimiter :: sfx.toList)

/-- What is being read at the end of a token. -/
def pending : Token → Pending
  | word text => .word text.toList
  | number text => .number text.toList
  | mark text => .mark text.toList
  | literal delimiter contents sfx => .behind delimiter contents.toList sfx.toList

/-- The token is a word, a number or a mark, it is read as itself, and it has nothing of a
parenthesis. -/
structure IsPlain (t : Token) : Prop where
  scanned : Pending.blank.scan t.chars = ([], t.pending)
  whole : t.pending.isWhole = true
  text : t.pending.text? = some t.chars
  noBound : ∀ c ∈ t.chars, c ∉ ['(', ')', ';']

instance (t : Token) : Decidable t.IsPlain :=
  decidable_of_iff
    (Pending.blank.scan t.chars = ([], t.pending) ∧ t.pending.isWhole = true ∧
      t.pending.text? = some t.chars ∧ ∀ c ∈ t.chars, c ∉ ['(', ')', ';'])
    ⟨fun ⟨scanned, whole, text, noBound⟩ => ⟨scanned, whole, text, noBound⟩,
      fun ⟨scanned, whole, text, noBound⟩ => ⟨scanned, whole, text, noBound⟩⟩

@[simp] theorem tokens_pending (t : Token) : t.pending.tokens = [t] := by
  cases t <;> simp [pending, Pending.tokens]

theorem IsPlain.chars_ne_nil {t : Token} (h : t.IsPlain) : t.chars ≠ [] := by
  intro empty
  have nothing := h.scanned
  rw [empty] at nothing
  cases t <;> cases nothing

theorem IsPlain.not_mem_bounds {t : Token} (h : t.IsPlain) : t ∉ bounds := by
  have bad : ∀ b ∈ bounds, b.chars.any (fun c => decide (c ∈ ['(', ')', ';'])) = true := by decide
  intro isBound
  obtain ⟨c, member, isBad⟩ := List.any_eq_true.1 (bad t isBound)
  exact h.noBound c member (of_decide_eq_true isBad)

end Token

/-- The token goes on with the one behind it, if nothing stands between them. -/
def Merges (t u : Token) : Prop := ∃ c ∈ u.chars.head?, t.pending.grow? c ≠ none

/-- What a text is put together from. -/
inductive Piece where
  | opening
  | closing
  | blank
  | token (t : Token)
  deriving DecidableEq

namespace Piece

def chars : Piece → List Char
  | opening => ['(']
  | closing => [')']
  | blank => [' ']
  | token t => t.chars

def tokens : Piece → List Token
  | opening => [.mark "("]
  | closing => [.mark ")"]
  | blank => []
  | token t => [t]

/-- What is being read behind a piece that nothing stands in front of. -/
def pending : Piece → Pending
  | opening => .mark ['(']
  | closing => .mark [')']
  | blank => .blank
  | token t => t.pending

/-- The token that the next piece may go on with. -/
def glue : Piece → Option Token
  | token t => some t
  | _ => none

def IsPlain : Piece → Prop
  | token t => t.IsPlain
  | _ => True

end Piece

/-- The text of some pieces. -/
def render (pieces : List Piece) : String := String.ofList (pieces.flatMap Piece.chars)

/-- The tokens of some pieces. -/
def tokensIn (pieces : List Piece) : List Token := pieces.flatMap Piece.tokens

/-- The pieces are read as what they are. -/
def ArePlain (pieces : List Piece) : Prop := ∀ q ∈ pieces, q.IsPlain

/-- A mark between spaces, in front of something else. -/
def spaced (mark : String) (back : List Piece) : List Piece :=
  .blank :: .token (.mark mark) :: .blank :: back

/-- No token goes on with the one behind it. -/
def Clear : Option Token → List Piece → Prop
  | _, [] => True
  | glued, .token t :: rest => (∀ g ∈ glued, ¬ Merges g t) ∧ Clear (some t) rest
  | _, _ :: rest => Clear none rest

/-- The token is no parenthesis. -/
def Token.isOther (t : Token) : Bool := decide (t ∉ [.mark "(", .mark ")"])

/-- The tokens other than parentheses. -/
def others (ts : List Token) : List Token := ts.filter Token.isOther

section Pieces

variable {pieces front back : List Piece} {q : Piece} {t : Token} {glued : Option Token}

theorem toList_render (pieces : List Piece) :
    (render pieces).toList = pieces.flatMap Piece.chars :=
  String.toList_ofList

@[simp] theorem render_append (front back : List Piece) :
    render (front ++ back) = render front ++ render back := by
  simp [render, String.ofList_append]

@[simp] theorem tokensIn_append (front back : List Piece) :
    tokensIn (front ++ back) = tokensIn front ++ tokensIn back :=
  List.flatMap_append

@[simp] theorem render_nil : render [] = "" := rfl

theorem render_cons (q : Piece) (pieces : List Piece) :
    render (q :: pieces) = String.ofList q.chars ++ render pieces := by
  simp [render, String.ofList_append]

@[simp] theorem render_opening (pieces : List Piece) :
    render (.opening :: pieces) = "(" ++ render pieces :=
  render_cons .opening pieces

@[simp] theorem render_closing (pieces : List Piece) :
    render (.closing :: pieces) = ")" ++ render pieces :=
  render_cons .closing pieces

@[simp] theorem render_blank (pieces : List Piece) :
    render (.blank :: pieces) = " " ++ render pieces :=
  render_cons .blank pieces

@[simp] theorem render_word (text : String) (pieces : List Piece) :
    render (.token (.word text) :: pieces) = text ++ render pieces := by
  rw [render_cons, Piece.chars, Token.chars, String.ofList_toList]

@[simp] theorem render_number (text : String) (pieces : List Piece) :
    render (.token (.number text) :: pieces) = text ++ render pieces := by
  rw [render_cons, Piece.chars, Token.chars, String.ofList_toList]

@[simp] theorem render_mark (text : String) (pieces : List Piece) :
    render (.token (.mark text) :: pieces) = text ++ render pieces := by
  rw [render_cons, Piece.chars, Token.chars, String.ofList_toList]

@[simp] theorem tokensIn_nil : tokensIn [] = [] := rfl

theorem tokensIn_cons (q : Piece) (pieces : List Piece) :
    tokensIn (q :: pieces) = q.tokens ++ tokensIn pieces := rfl

@[simp] theorem tokensIn_opening (pieces : List Piece) :
    tokensIn (.opening :: pieces) = .mark "(" :: tokensIn pieces := rfl

@[simp] theorem tokensIn_closing (pieces : List Piece) :
    tokensIn (.closing :: pieces) = .mark ")" :: tokensIn pieces := rfl

@[simp] theorem tokensIn_blank (pieces : List Piece) :
    tokensIn (.blank :: pieces) = tokensIn pieces := rfl

@[simp] theorem tokensIn_token (t : Token) (pieces : List Piece) :
    tokensIn (.token t :: pieces) = t :: tokensIn pieces := rfl

@[simp] theorem render_spaced (mark : String) (pieces : List Piece) :
    render (spaced mark pieces) = " " ++ mark ++ " " ++ render pieces := by
  simp [spaced, String.append_assoc]

@[simp] theorem tokensIn_spaced (mark : String) (pieces : List Piece) :
    tokensIn (spaced mark pieces) = .mark mark :: tokensIn pieces := rfl

theorem arePlain_append : ArePlain (front ++ back) ↔ ArePlain front ∧ ArePlain back :=
  List.forall_mem_append

theorem arePlain_cons : ArePlain (q :: pieces) ↔ q.IsPlain ∧ ArePlain pieces :=
  List.forall_mem_cons

theorem arePlain_spaced {mark : String} (plain : (Token.mark mark).IsPlain)
    (h : ArePlain pieces) : ArePlain (spaced mark pieces) :=
  arePlain_cons.2 ⟨trivial, arePlain_cons.2 ⟨plain, arePlain_cons.2 ⟨trivial, h⟩⟩⟩

theorem Clear.weaken (h : Clear glued pieces) : Clear none pieces := by
  cases pieces with
  | nil => trivial
  | cons q rest =>
    cases q with
    | token t => exact ⟨nofun, h.2⟩
    | opening | closing | blank => exact h

theorem Clear.left (h : Clear glued (front ++ back)) : Clear glued front := by
  induction front generalizing glued with
  | nil => trivial
  | cons q rest ih =>
    cases q with
    | token t => exact ⟨h.1, ih h.2⟩
    | opening | closing | blank => exact ih h

theorem Token.IsPlain.isOther (h : t.IsPlain) : t.isOther = true := by
  have noParen : ∀ b ∈ [Token.mark "(", Token.mark ")"], b ∈ bounds := by decide
  exact decide_eq_true fun isParen => h.not_mem_bounds (noParen t isParen)

end Pieces

namespace Pending

/-- A token that goes on becomes longer, or cannot be read at all. -/
theorem grow?_text {p q : Pending} {text : List Char} {c : Char} (read : p.text? = some text)
    (grows : p.grow? c = some q) : q = stuck ∨ q.text? = some (text ++ [c]) := by
  cases p with
  | word front | number front =>
    cases read
    simp only [grow?] at grows
    split at grows
    · cases grows
      exact Or.inr rfl
    · split at grows <;> cases grows
      exact Or.inl rfl
  | mark front =>
    cases read
    simp only [grow?] at grows
    split at grows
    · rename_i point
      cases grows
      have onlyPoint : text = ['.'] := by simpa using (Bool.and_eq_true _ _ |>.mp point).1
      rw [onlyPoint]
      exact Or.inr rfl
    · split at grows
      · cases grows
        exact Or.inl rfl
      · split at grows <;> cases grows
        exact Or.inr rfl
  | blank | inside | escape | behind | stuck => cases read

theorem stuck_scan (cs : List Char) : stuck.scan cs = ([], stuck) := by
  induction cs with
  | nil => rfl
  | cons c rest ih =>
    have stays : stuck.next c = ([], stuck) := rfl
    rw [scan, stays, ih]
    rfl

/-- What is being read becomes the beginning of the next token. -/
theorem exists_scan_eq_cons {p : Pending} {text : List Char} (read : p.text? = some text)
    (cs : List Char) (whole : (p.scan cs).2.isWhole = true) :
    ∃ v rest more, (p.scan cs).1 ++ (p.scan cs).2.tokens = v :: rest ∧
      v.chars = text ++ more := by
  have ended {p : Pending} {text : List Char} (read : p.text? = some text) :
      ∃ v : Token, p.tokens = [v] ∧ v.chars = text := by
    cases p with
    | word front | number front | mark front =>
      cases read
      exact ⟨_, rfl, String.toList_ofList⟩
    | blank | inside | escape | behind | stuck => cases read
  induction cs generalizing p text with
  | nil =>
    obtain ⟨v, tokens, chars⟩ := ended read
    exact ⟨v, [], [], by simp [tokens], by simp [chars]⟩
  | cons c cs ih =>
    cases grows : p.grow? c with
    | none =>
      obtain ⟨v, tokens, chars⟩ := ended read
      rw [scan_of_grow?_eq_none grows, tokens]
      exact ⟨v, _, [], rfl, by simp [chars]⟩
    | some q =>
      have goesOn : p.scan (c :: cs) = q.scan cs := by
        have next : p.next c = ([], q) := by rw [Pending.next, grows]
        rw [scan, next]
        rfl
      rw [goesOn] at whole ⊢
      rcases grow?_text read grows with rfl | longer
      · rw [stuck_scan] at whole
        cases whole
      · obtain ⟨v, rest, more, first, chars⟩ := ih longer whole
        exact ⟨v, rest, c :: more, first, by simpa using chars⟩

end Pending

namespace Piece

variable {q next : Piece}

theorem scan_eq (plain : q.IsPlain) : Pending.blank.scan q.chars = ([], q.pending) := by
  cases q with
  | token t => exact plain.scanned
  | opening | closing | blank => decide

theorem chars_ne_nil (plain : q.IsPlain) : q.chars ≠ [] := by
  cases q with
  | token t => exact plain.chars_ne_nil
  | opening | closing | blank => nofun

theorem tokens_pending (q : Piece) : q.pending.tokens = q.tokens := by
  cases q with
  | token t => exact t.tokens_pending
  | opening | closing | blank => decide

/-- Behind anything but a token, everything starts anew, and so does everything but a token. -/
theorem grow?_eq_none (plain : q.IsPlain) (apart : q.glue = none ∨ next.glue = none) {c : Char}
    (first : next.chars.head? = some c) : q.pending.grow? c = none := by
  cases q with
  | opening | closing | blank => exact Pending.grow?_free (by decide) c
  | token t =>
    have noToken : next.glue = none := apart.resolve_left nofun
    have separates : c ∈ Pending.separators := by
      cases next with
      | token u => cases noToken
      | opening | closing | blank => cases first; decide
    exact Pending.grow?_separator plain.whole separates

end Piece

/-- All that is read of a text behind something that is being read. -/
def Pending.readAll (p : Pending) (cs : List Char) : List Token :=
  (p.scan cs).1 ++ (p.scan cs).2.tokens

/-- A token that starts anew ends what is being read. -/
theorem Pending.scan_piece {p : Pending} {q : Piece} (plain : q.IsPlain)
    (fresh : ∀ c ∈ q.chars.head?, p.grow? c = none) (cs : List Char) :
    p.readAll (q.chars ++ cs) = p.tokens ++ q.pending.readAll cs ∧
      (p.scan (q.chars ++ cs)).2 = (q.pending.scan cs).2 := by
  obtain ⟨c, rest, shape⟩ := List.exists_cons_of_ne_nil (Piece.chars_ne_nil plain)
  have fresh' : p.grow? c = none := fresh c (by rw [shape]; rfl)
  have scanned := Piece.scan_eq plain
  rw [shape] at scanned
  rw [readAll, shape, List.cons_append, scan_of_grow?_eq_none fresh', ← List.cons_append,
    scan_append, scanned]
  simp [readAll]

theorem others_cons {t : Token} (other : t.isOther = true) (ts : List Token) :
    others (t :: ts) = t :: others ts :=
  List.filter_cons_of_pos other

theorem others_append (xs ys : List Token) : others (xs ++ ys) = others xs ++ others ys :=
  List.filter_append xs ys

/-- A token that goes on is read as a longer one, whatever stands behind it. -/
theorem others_readAll_ne {t : Token} (plain : t.IsPlain) {c : Char}
    (grows : t.pending.grow? c ≠ none) {cs : List Char}
    (whole : (t.pending.scan (c :: cs)).2.isWhole = true) (ts : List Token) :
    others (t.pending.readAll (c :: cs)) ≠ others (t :: ts) := by
  obtain ⟨p, grown⟩ := Option.ne_none_iff_exists'.1 grows
  have goesOn : t.pending.scan (c :: cs) = p.scan cs := by
    have next : t.pending.next c = ([], p) := by rw [Pending.next, grown]
    rw [Pending.scan, next]
    rfl
  rw [Pending.readAll, goesOn]
  rw [goesOn] at whole
  rcases Pending.grow?_text plain.text grown with rfl | longer
  · rw [Pending.stuck_scan] at whole
    cases whole
  · obtain ⟨v, rest, more, first, chars⟩ := Pending.exists_scan_eq_cons longer cs whole
    have length : v.chars.length = t.chars.length + 1 + more.length := by
      rw [chars, List.length_append, List.length_append]
      rfl
    have some : 0 < t.chars.length := List.length_pos_of_ne_nil plain.chars_ne_nil
    -- Longer than one character, the token is no parenthesis.
    have other : v.isOther = true := by
      refine decide_eq_true fun isParen => ?_
      have short : ∀ b ∈ [Token.mark "(", Token.mark ")"], b.chars.length = 1 := by decide
      have one := short v isParen
      omega
    rw [first, others_cons other, others_cons plain.isOther]
    intro same
    rw [(List.cons.inj same).1] at length
    omega

/-- Pieces behind a piece, read to the same tokens up to parentheses, are read as they are. -/
theorem readAll_eq_tokensIn {q : Piece} {pieces : List Piece} (plain : q.IsPlain)
    (arePlain : ArePlain pieces)
    (whole : (q.pending.scan (pieces.flatMap Piece.chars)).2.isWhole = true)
    (same : others (q.pending.readAll (pieces.flatMap Piece.chars)) =
      others (q.tokens ++ tokensIn pieces)) :
    q.pending.readAll (pieces.flatMap Piece.chars) = q.tokens ++ tokensIn pieces ∧
      Clear q.glue pieces := by
  induction pieces generalizing q with
  | nil =>
    refine ⟨?_, trivial⟩
    simp [Pending.readAll, q.tokens_pending, tokensIn]
  | cons next rest ih =>
    obtain ⟨plain', arePlain'⟩ := arePlain_cons.1 arePlain
    rw [List.flatMap_cons] at whole same ⊢
    by_cases fresh : ∀ c ∈ next.chars.head?, q.pending.grow? c = none
    · obtain ⟨read, tail⟩ := Pending.scan_piece plain' fresh (rest.flatMap Piece.chars)
      rw [tail] at whole
      rw [read, q.tokens_pending, others_append, others_append,
        List.append_cancel_left_eq] at same
      obtain ⟨behind, clear⟩ := ih plain' arePlain' whole same
      refine ⟨by rw [read, q.tokens_pending, behind]; rfl, ?_⟩
      cases next with
      | opening | closing | blank => exact clear
      | token u =>
        refine ⟨?_, clear⟩
        rintro g glued ⟨c, first, grows⟩
        cases q with
        | token t => cases glued; exact grows (fresh c first)
        | opening | closing | blank => cases glued
    · -- Only a token goes on, and only with the characters of another one.
      obtain ⟨c, first, grows⟩ : ∃ c ∈ next.chars.head?, q.pending.grow? c ≠ none := by
        simpa using fresh
      obtain ⟨t, rfl⟩ : ∃ t, q = .token t := by
        cases q with
        | token t => exact ⟨t, rfl⟩
        | opening | closing | blank =>
          exact absurd (Piece.grow?_eq_none plain (Or.inl rfl) first) grows
      obtain ⟨more, shape⟩ : ∃ more, next.chars = c :: more :=
        List.head?_eq_some_iff.1 first
      rw [shape, List.cons_append] at whole same
      exact absurd same (others_readAll_ne plain grows whole _)

/-- A text of pieces that is read to the tokens of the pieces up to parentheses is read to all
their tokens, and no token in it goes on with the one behind it. -/
theorem Spells.eq_tokensIn {pieces : List Piece} {us : List Token} (arePlain : ArePlain pieces)
    (spells : Spells (render pieces) us) (same : others us = others (tokensIn pieces)) :
    us = tokensIn pieces ∧ Clear none pieces := by
  obtain ⟨whole, rfl⟩ := spells
  have plain : Piece.blank.IsPlain := trivial
  rw [tailOf, toList_render] at whole same ⊢
  exact readAll_eq_tokensIn plain arePlain whole same

/-- A character that only one piece has, and that is all of it, splits the pieces. -/
theorem exists_split {q : Piece} {c : Char} (alone : q.chars = [c])
    (only : ∀ next : Piece, next.IsPlain → c ∈ next.chars → next = q) {pieces : List Piece}
    (arePlain : ArePlain pieces) {front back : List Char}
    (shape : pieces.flatMap Piece.chars = front ++ c :: back) :
    ∃ left right, pieces = left ++ q :: right ∧ left.flatMap Piece.chars = front ∧
      right.flatMap Piece.chars = back := by
  induction pieces generalizing front with
  | nil => simp at shape
  | cons next rest ih =>
    obtain ⟨plain, arePlain'⟩ := arePlain_cons.1 arePlain
    rw [List.flatMap_cons] at shape
    rcases List.append_eq_append_iff.1 shape with ⟨mid, same, behind⟩ | ⟨mid, same, behind⟩
    · obtain ⟨left, right, rfl, rfl, atBack⟩ := ih arePlain' behind
      exact ⟨next :: left, right, rfl, same.symm, atBack⟩
    · cases mid with
      | nil =>
        have atOnce : rest.flatMap Piece.chars = [] ++ c :: back := behind.symm
        obtain ⟨left, right, rfl, empty, atBack⟩ := ih arePlain' atOnce
        refine ⟨next :: left, right, rfl, ?_, atBack⟩
        rw [List.flatMap_cons, empty, same]
        simp
      | cons first mid =>
        obtain ⟨rfl, rest'⟩ := List.cons.inj behind
        have member : c ∈ next.chars := by simp [same]
        obtain rfl := only next plain member
        rw [alone] at same
        obtain ⟨rfl, rfl⟩ : front = [] ∧ mid = [] := by
          cases front with
          | nil => simpa using same
          | cons => simp at same
        exact ⟨[], rest, rfl, rfl, by simpa using rest'.symm⟩

end CppPrinter
