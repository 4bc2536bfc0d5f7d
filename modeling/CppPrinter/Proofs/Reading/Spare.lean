import CppPrinter.Proofs.Reading.Demand
import CppPrinter.Proofs.Reading.Piece

/-!
# No spare parentheses

In a text in pieces, a parenthesis is needed for one of two reasons: the tree of the text demands it
(`Tree.demand`), or it keeps a token off the one in front of it (`Merges`). A text where every
parenthesis is needed (`Frugal`) has no other with the same tree that comes of it by leaving out a
pair of parentheses (`Frugal.not_readsAt`).
-/

namespace CppPrinter

/-- Every parenthesis that opens is demanded, or it alone stands between two tokens one of which
would go on with the other. So many are open in front of the pieces, and they stand behind a token
or behind nothing that goes on. -/
inductive Frugal : Option Token → Nat → Profile → List Piece → Prop where
  | nil {glued : Option Token} : Frugal glued 0 [] []
  | opening {glued : Option Token} {k : Nat} {d : Profile} {rest : List Piece} :
      Frugal glued (k + 1) d rest → Frugal glued k d (.opening :: rest)
  | closing {glued : Option Token} {k : Nat} {d : Profile} {rest : List Piece} :
      Frugal none k d rest → Frugal glued k d (.closing :: rest)
  | blank {glued : Option Token} {k : Nat} {d : Profile} {rest : List Piece} :
      Frugal none k d rest → Frugal glued k d (.blank :: rest)
  | demanded {glued : Option Token} {k n : Nat} {d : Profile} {t : Token} {rest : List Piece}
      (most : k ≤ n) : Frugal (some t) 0 d rest → Frugal glued k ((n, t) :: d) (.token t :: rest)
  | apart {g : Token} {n : Nat} {d : Profile} {t : Token} {rest : List Piece}
      (merges : Merges g t) :
      Frugal (some t) 0 d rest → Frugal (some g) 1 ((n, t) :: d) (.token t :: rest)

/-- The second pieces are the first ones, but for parentheses that close. -/
inductive Drops : List Piece → List Piece → Prop where
  | nil : Drops [] []
  | keep (q : Piece) {rest rest' : List Piece} : Drops rest rest' → Drops (q :: rest) (q :: rest')
  | drop {rest rest' : List Piece} : Drops rest rest' → Drops (.closing :: rest) rest'

/-- The second pieces are the first ones but for a parenthesis that opens and others that close
behind it. -/
inductive Strips : List Piece → List Piece → Prop where
  | here {rest rest' : List Piece} : Drops rest rest' → Strips (.opening :: rest) rest'
  | keep (q : Piece) {rest rest' : List Piece} :
      Strips rest rest' → Strips (q :: rest) (q :: rest')

section Strips

variable {pieces pieces' front back : List Piece}

theorem Drops.refl (pieces : List Piece) : Drops pieces pieces := by
  induction pieces with
  | nil => exact .nil
  | cons q rest ih => exact .keep q ih

/-- Pieces without a pair of parentheses. -/
theorem strips_pair (front mid back : List Piece) :
    Strips (front ++ .opening :: (mid ++ .closing :: back)) (front ++ (mid ++ back)) := by
  have drops : Drops (mid ++ .closing :: back) (mid ++ back) := by
    induction mid with
    | nil => exact .drop (.refl back)
    | cons q rest ih => exact .keep q ih
  induction front with
  | nil => exact .here drops
  | cons q rest ih => exact .keep q ih

theorem Drops.others_eq (h : Drops pieces pieces') :
    others (tokensIn pieces) = others (tokensIn pieces') := by
  induction h with
  | nil => rfl
  | keep q _ ih => rw [tokensIn_cons, tokensIn_cons, others_append, others_append, ih]
  | drop _ ih => exact ih

theorem Strips.others_eq (h : Strips pieces pieces') :
    others (tokensIn pieces) = others (tokensIn pieces') := by
  induction h with
  | here drops => exact drops.others_eq
  | keep q _ ih => rw [tokensIn_cons, tokensIn_cons, others_append, others_append, ih]

theorem Drops.subset (h : Drops pieces pieces') : ∀ q ∈ pieces', q ∈ pieces := by
  induction h with
  | nil => exact fun q member => member
  | keep first _ ih => exact List.cons_subset_cons first ih
  | drop _ ih => exact fun q member => List.mem_cons_of_mem _ (ih q member)

theorem Strips.subset (h : Strips pieces pieces') : ∀ q ∈ pieces', q ∈ pieces := by
  induction h with
  | here drops => exact fun q member => List.mem_cons_of_mem _ (drops.subset q member)
  | keep first _ ih => exact List.cons_subset_cons first ih

theorem Strips.arePlain (h : Strips pieces pieces') (arePlain : ArePlain pieces) :
    ArePlain pieces' :=
  fun q member => arePlain q (h.subset q member)

end Strips

/-- The tokens of a profile are those that are no parentheses. -/
theorem map_profile (k : Nat) (ts : List Token) : (profile k ts).map Prod.snd = others ts := by
  induction ts generalizing k with
  | nil => rfl
  | cons token rest ih =>
    rw [profile]
    split
    · rename_i isOpen
      rw [ih, isOpen]
      rfl
    · split
      · rename_i isClose
        rw [ih, isClose]
        rfl
      · rename_i noOpen noClose
        have other : token.isOther = true := by simp [Token.isOther, noOpen, noClose]
        rw [List.map_cons, ih, others_cons other]

theorem profile_token {t : Token} (plain : t.IsPlain) (k : Nat) (rest : List Piece) :
    profile k (tokensIn (.token t :: rest)) = (k, t) :: profile 0 (tokensIn rest) :=
  profile_other plain.not_mem_bounds k (tokensIn rest)

namespace Frugal

variable {glued glued' : Option Token} {k k' : Nat} {d e : Profile}
  {pieces pieces' front back : List Piece}

/-- The tokens of the demand are the tokens of the pieces. -/
theorem tokens_eq (h : Frugal glued k d pieces) (arePlain : ArePlain pieces) :
    d.map Prod.snd = others (tokensIn pieces) := by
  induction h with
  | nil => rfl
  | opening _ ih | closing _ ih | blank _ ih => exact ih (arePlain_cons.1 arePlain).2
  | demanded _ _ ih | apart _ _ ih =>
    obtain ⟨plain, arePlain'⟩ := arePlain_cons.1 arePlain
    rw [List.map_cons, ih arePlain', tokensIn_token, others_cons (Token.IsPlain.isOther plain)]

/-- What would go on is only a reason for more parentheses. -/
theorem behind (h : Frugal none k d pieces) (glued : Option Token) : Frugal glued k d pieces := by
  induction pieces generalizing glued k d with
  | nil => cases h with | nil => exact .nil
  | cons q rest ih =>
    cases h with
    | opening h => exact .opening (ih h glued)
    | closing h => exact .closing h
    | blank h => exact .blank h
    | demanded most h => exact .demanded most h

theorem append (h : Frugal glued k d front) (h' : ∀ glued, Frugal glued 0 e back) :
    Frugal glued k (d ++ e) (front ++ back) := by
  induction h with
  | nil => exact h' _
  | opening _ ih => exact .opening ih
  | closing _ ih => exact .closing ih
  | blank _ ih => exact .blank ih
  | demanded most _ ih => exact .demanded most ih
  | apart merges _ ih => exact .apart merges ih

/-- Tokens in a row have no parentheses to spare. -/
theorem tokens (glued : Option Token) (ts : List Token) :
    Frugal glued 0 (flat ts) (ts.map .token) := by
  induction ts generalizing glued with
  | nil => exact .nil
  | cons t ts ih => exact .demanded (Nat.le_refl 0) (ih (some t))

/-- A mark between spaces is apart from everything. -/
theorem spaced (h : Frugal none 0 d pieces) (mark : String) (glued : Option Token) :
    Frugal glued 0 ((0, .mark mark) :: d) (spaced mark pieces) :=
  .blank (.demanded (Nat.le_refl 0) (.blank h))

/-- One more parenthesis is needed where one more is demanded. -/
theorem raise_one (h : Frugal none k d pieces) (some : d ≠ []) :
    Frugal none (k + 1) (raise 1 d) pieces := by
  induction pieces generalizing k with
  | nil => cases h with | nil => exact absurd rfl some
  | cons q rest ih =>
    cases h with
    | opening h => exact .opening (ih h)
    | closing h => exact .closing (ih h)
    | blank h => exact .blank (ih h)
    | demanded most h => exact .demanded (Nat.add_le_add_right most 1) h

/-- Where one more parenthesis is needed than there is, and none is left out in front of the next
token, the tokens do not meet the demand. -/
theorem not_drops (drops : Drops pieces pieces') (h : Frugal glued (k + 1) d pieces)
    (arePlain : ArePlain pieces') (less : k' ≤ k) (clear : k = 0 → Clear glued pieces') :
    ¬ Meets d (profile k' (tokensIn pieces')) := by
  -- What opens on the way to the first token opens on both sides, so the difference stays.
  induction drops generalizing glued k k' d with
  | nil => cases h
  | @keep q rest rest' _ ih =>
    obtain ⟨plain, arePlain'⟩ := arePlain_cons.1 arePlain
    cases h with
    | opening h =>
      intro meets
      rw [tokensIn_opening, profile_open] at meets
      exact ih h arePlain' (Nat.add_le_add_right less 1) nofun meets
    | closing h =>
      intro meets
      rw [tokensIn_closing, profile_close] at meets
      exact ih h arePlain' (Nat.zero_le k) clear meets
    | blank h => exact ih h arePlain' less clear
    | demanded most h =>
      intro meets
      rw [profile_token plain] at meets
      obtain ⟨-, enough⟩ := (List.forall₂_cons.1 meets).1
      exact absurd (Nat.le_trans most enough) (by omega)
    | apart merges h => exact absurd merges ((clear rfl).1 _ rfl)
  | drop _ ih =>
    cases h with
    | closing h => exact ih h arePlain less fun zero => (clear zero).weaken

/-- Without a pair of parentheses, the tokens do not meet the demand. -/
theorem not_strips (strips : Strips pieces pieces') (h : Frugal glued k d pieces)
    (arePlain : ArePlain pieces') (less : k' ≤ k) (clear : Clear glued' pieces')
    (same : k = 0 → glued' = glued) : ¬ Meets d (profile k' (tokensIn pieces')) := by
  induction strips generalizing glued glued' k k' d with
  | here drops =>
    cases h with
    | opening h => exact h.not_drops drops arePlain less fun zero => same zero ▸ clear
  | keep q _ ih =>
    obtain ⟨plain, arePlain'⟩ := arePlain_cons.1 arePlain
    cases h with
    | opening h =>
      intro meets
      rw [tokensIn_opening, profile_open] at meets
      exact ih h arePlain' (Nat.add_le_add_right less 1) clear nofun meets
    | closing h =>
      intro meets
      rw [tokensIn_closing, profile_close] at meets
      exact ih h arePlain' (Nat.zero_le k) clear (fun _ => rfl) meets
    | blank h => exact ih h arePlain' less clear fun _ => rfl
    | demanded _ h | apart _ h =>
      intro meets
      rw [profile_token plain] at meets
      have behind := (List.forall₂_cons.1 meets).2
      exact ih h arePlain' (Nat.le_refl 0) clear.2 (fun _ => rfl) behind

/-- Without a pair of parentheses, the tokens are not those of the tree. -/
theorem not_derives {t : Tree} {r : Rank} (strips : Strips pieces pieces')
    (h : Frugal none 0 (fitted (t.fits r) t.demand) pieces) (arePlain : ArePlain pieces)
    (clear : Clear none pieces') : ¬ Derives r (tokensIn pieces') t := by
  intro derives
  exact h.not_strips strips (strips.arePlain arePlain) (Nat.le_refl 0) clear (fun _ => rfl)
    derives.meets

/-- What is read of a text to a tree with the tokens of its pieces are these tokens. -/
theorem spells_tokensIn {us : List Token} (h : Frugal none 0 d pieces)
    (arePlain : ArePlain pieces) (strips : Strips pieces pieces')
    (spells : Spells (render pieces') us) (meets : Meets e (profile 0 us))
    (same : e.map Prod.snd = d.map Prod.snd) : us = tokensIn pieces' ∧ Clear none pieces' := by
  refine spells.eq_tokensIn (strips.arePlain arePlain) ?_
  rw [← strips.others_eq, ← h.tokens_eq arePlain, ← same, meets.tokens_eq, map_profile]

theorem not_readsAt {t : Tree} {p : Precedence} (strips : Strips pieces pieces')
    (h : Frugal none 0 (fitted (t.fits (.level p)) t.demand) pieces) (arePlain : ArePlain pieces) :
    ¬ ReadsAt p (render pieces') t := by
  rintro ⟨us, spells, derives⟩
  obtain ⟨rfl, clear⟩ := h.spells_tokensIn arePlain strips spells derives.meets rfl
  exact h.not_derives strips arePlain clear derives

end Frugal

end CppPrinter
