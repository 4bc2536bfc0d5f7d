import CppPrinter.Proofs.Reading.Enclosed
import CppPrinter.Proofs.Reading.TypeGrammar

/-!
# The parentheses that a tree asks for

Parentheses leave no trace in a tree, but without some of them other tokens would come together.
How many have to open in front of each token is read off the tree (`Tree.demand`): one more wherever
an operand binds looser than its position asks. Whatever derives the tree has at least so many
(`Derives.meets`), so a text that has one less somewhere is not read to the tree.
-/

namespace CppPrinter

/-- Tokens other than parentheses, each with a number of parentheses that open right in front. -/
abbrev Profile := List (Nat × Token)

/-- The profile of some tokens, so many parentheses being open in front of the first. -/
def profile : Nat → List Token → Profile
  | _, [] => []
  | k, token :: rest =>
    if token = .mark "(" then profile (k + 1) rest
    else if token = .mark ")" then profile 0 rest
    else (k, token) :: profile 0 rest

/-- So many more parentheses open in front of the first token. -/
def raise (k : Nat) : Profile → Profile
  | [] => []
  | (n, token) :: rest => (n + k, token) :: rest

/-- One more parenthesis opens, unless the operand fits its position. -/
def fitted (fits : Bool) (d : Profile) : Profile := if fits then d else raise 1 d

/-- No parenthesis opens in front of any of the tokens. -/
def flat (ts : List Token) : Profile := ts.map (0, ·)

/-- The tokens are the same, and nowhere do less parentheses open than demanded. -/
def Meets (demand given : Profile) : Prop :=
  List.Forall₂ (fun x y => x.2 = y.2 ∧ x.1 ≤ y.1) demand given

/-- How tight a part of the grammar binds. -/
def Rank.height : Rank → Nat
  | items => 0
  | level p => p.level
  | tight => Precedence.primary.level + 1

namespace Tree

/-- The tightest part of the grammar that the tree belongs to without parentheses. -/
def rank : Tree → Rank
  | binary op _ _ => .level ((infixOps.lookup op).getD .statement)
  | assign .. => .level .assign
  | cond .. => .level .select
  | prefixed .. => .level .primary
  | _ => .tight

/-- The tree needs no parentheses in a position. -/
def fits (t : Tree) (position : Rank) : Bool := decide (position.height ≤ t.rank.height)

/-- The tokens of a tree, each with the parentheses that have to open in front of it. -/
def demand : Tree → Profile
  | name path => flat (pathTokens path)
  | literal token => flat [token]
  | prefixed op t => (0, .mark op) :: fitted (t.fits (.level .primary)) t.demand
  | postfixed op t => fitted (t.fits .tight) t.demand ++ flat [.mark op]
  | binary op l r =>
    let p := (infixOps.lookup op).getD .statement
    fitted (l.fits (.level p)) l.demand ++
      (0, .mark op) :: fitted (r.fits (.level p.tighter)) r.demand
  | assign op l r =>
    fitted (l.fits (.level .condOr)) l.demand ++
      (0, .mark op) :: fitted (r.fits (.level .argument)) r.demand
  | cond c t e =>
    fitted (c.fits (.level .condOr)) c.demand ++
      (0, .mark "?") ::
        (t.demand ++ (0, .mark ":") :: fitted (e.fits (.level .assign)) e.demand)
  | index a i =>
    fitted (a.fits .tight) a.demand ++ (0, .mark "[") :: (i.demand ++ flat [.mark "]"])
  | member o op path => fitted (o.fits .tight) o.demand ++ flat (.mark op :: pathTokens path)
  | scope t word => fitted (t.fits .tight) t.demand ++ flat [.mark "::", .word word]
  | call t a => fitted (t.fits .tight) t.demand ++ raise 1 a.demand
  | braces t => (0, .mark "\x7b") :: (t.demand ++ flat [.mark "\x7d"])
  | cast kind ty t => flat (.word kind :: .mark "<" :: (ty ++ [Token.mark ">"])) ++ raise 1 t.demand
  | template path ty => flat (pathTokens path ++ .mark "<" :: (ty ++ [Token.mark ">"]))
  | nil => []
  | snoc front item =>
    (if front = nil then [] else front.demand ++ flat [.mark ","]) ++
      fitted (item.fits (.level .argument)) item.demand

end Tree

section Profile

variable {k depth : Nat} {d e given given' : Profile} {fits : Bool} {token : Token}
  {front back ts : List Token}

@[simp] theorem raise_zero : raise 0 d = d := by
  cases d <;> rfl

theorem raise_raise (j k : Nat) (d : Profile) : raise j (raise k d) = raise (k + j) d := by
  cases d with
  | nil => rfl
  | cons first rest => simp [raise, Nat.add_assoc]

@[simp] theorem raise_cons (k n : Nat) (token : Token) (d : Profile) :
    raise k ((n, token) :: d) = (n + k, token) :: d := rfl

theorem raise_append (some : d ≠ []) (k : Nat) (e : Profile) :
    raise k (d ++ e) = raise k d ++ e := by
  cases d with
  | nil => exact absurd rfl some
  | cons first rest => rfl

theorem raise_ne_nil (some : d ≠ []) (k : Nat) : raise k d ≠ [] := by
  cases d with
  | nil => exact some
  | cons first rest => nofun

@[simp] theorem fitted_true (d : Profile) : fitted true d = d := rfl

theorem fitted_ne_nil (some : d ≠ []) (fits : Bool) : fitted fits d ≠ [] := by
  unfold fitted
  split
  · exact some
  · exact raise_ne_nil some 1

@[simp] theorem profile_open (k : Nat) (ts : List Token) :
    profile k (.mark "(" :: ts) = profile (k + 1) ts := by
  simp [profile]

@[simp] theorem profile_close (k : Nat) (ts : List Token) :
    profile k (.mark ")" :: ts) = profile 0 ts := by
  simp [profile]

theorem profile_other (noBound : token ∉ bounds) (k : Nat) (ts : List Token) :
    profile k (token :: ts) = (k, token) :: profile 0 ts := by
  simp only [bounds, List.mem_cons, List.not_mem_nil, or_false, not_or] at noBound
  simp [profile, noBound]

theorem profile_flat (noBound : ∀ token ∈ front, token ∉ bounds) (back : List Token) :
    profile 0 (front ++ back) = flat front ++ profile 0 back := by
  induction front with
  | nil => rfl
  | cons token front ih =>
    obtain ⟨first, others⟩ := List.forall_mem_cons.1 noBound
    rw [List.cons_append, profile_other first, ih others]
    rfl

/-- What closes its parentheses leaves none open in front of what follows. -/
theorem profile_append_of_closes (closes : closesParens depth front = true) (some : front ≠ [])
    (k : Nat) (back : List Token) :
    profile k (front ++ back) = profile k front ++ profile 0 back := by
  induction front generalizing depth k with
  | nil => exact absurd rfl some
  | cons token rest ih =>
    cases rest with
    | nil =>
      have noOpen : token ≠ .mark "(" := by
        rintro rfl
        simp [closesParens, closesBrackets] at closes
      by_cases close : token = .mark ")"
      · subst close
        simp [profile]
      · simp [profile, noOpen, close]
    | cons next rest =>
      have tail : ∃ depth, closesParens depth (next :: rest) = true := by
        rw [closesParens, closesBrackets] at closes
        split at closes
        · exact ⟨_, closes⟩
        · split at closes
          · exact ⟨_, (Bool.and_eq_true _ _ |>.mp closes).2⟩
          · exact ⟨_, (Bool.and_eq_true _ _ |>.mp closes).2⟩
      obtain ⟨depth', closes'⟩ := tail
      have behind := ih closes' (List.cons_ne_nil next rest)
      rw [List.cons_append, profile, profile]
      split
      · exact behind _
      · split
        · exact behind _
        · rw [behind, List.cons_append]

/-- Nothing has to be in front of what follows. -/
theorem profile_append (closes : closesParens 0 front = true) (back : List Token) :
    profile 0 (front ++ back) = profile 0 front ++ profile 0 back := by
  cases front with
  | nil => rfl
  | cons token rest => exact profile_append_of_closes closes (List.cons_ne_nil token rest) 0 back

/-- Parentheses around some tokens. -/
theorem profile_paren (closes : closesParens 0 ts = true) (k : Nat) :
    profile k (.mark "(" :: (ts ++ [Token.mark ")"])) = profile (k + 1) ts := by
  rw [profile_open]
  cases ts with
  | nil => exact profile_close (k + 1) []
  | cons token rest =>
    rw [profile_append_of_closes closes (List.cons_ne_nil token rest), profile_close]
    exact List.append_nil _

theorem Meets.nil : Meets [] (profile 0 []) := List.Forall₂.nil

theorem Meets.append (h : Meets d given) (h' : Meets e given') : Meets (d ++ e) (given ++ given') :=
  List.rel_append h h'

theorem Meets.refl (d : Profile) : Meets d d := by
  induction d with
  | nil => exact .nil
  | cons first rest ih => exact .cons ⟨rfl, Nat.le_refl _⟩ ih

/-- A token that is no parenthesis, with the parentheses that are open in front of it. -/
theorem Meets.other (noBound : token ∉ bounds) (h : Meets d (profile 0 ts)) (k : Nat) :
    Meets ((k, token) :: d) (profile k (token :: ts)) := by
  rw [profile_other noBound]
  exact .cons ⟨rfl, Nat.le_refl k⟩ h

/-- Tokens without parentheses demand none. -/
theorem Meets.flat (noBound : ∀ token ∈ front, token ∉ bounds) (h : Meets d (profile 0 back)) :
    Meets (flat front ++ d) (profile 0 (front ++ back)) := by
  rw [profile_flat noBound]
  exact (Meets.refl _).append h

/-- The tokens of the demand are all the tokens that are no parentheses. -/
theorem Meets.tokens_eq (h : Meets d given) : d.map Prod.snd = given.map Prod.snd := by
  induction h with
  | nil => rfl
  | cons first _ ih => rw [List.map_cons, List.map_cons, first.1, ih]

theorem raise_fitted_false (k : Nat) (d : Profile) :
    raise k (fitted false d) = raise (k + 1) d := by
  rw [Nat.add_comm]
  exact raise_raise k 1 d

/-- Behind one more parenthesis any operand fits. -/
theorem Meets.of_raise (h : Meets (raise (k + 1) d) given) (fits : Bool) :
    Meets (raise k (fitted fits d)) given := by
  cases fits with
  | false => rwa [raise_fitted_false]
  | true =>
    cases d with
    | nil => exact h
    | cons first rest =>
      cases h with
      | cons here behind =>
        obtain ⟨same, most⟩ : first.2 = _ ∧ first.1 + (k + 1) ≤ _ := here
        have less : first.1 + k ≤ first.1 + (k + 1) := by omega
        exact .cons ⟨same, Nat.le_trans less most⟩ behind

/-- What meets a demand meets it in a looser position. -/
theorem Meets.loosen {fits' : Bool} (h : Meets (raise k (fitted fits d)) given)
    (looser : fits = true → fits' = true) : Meets (raise k (fitted fits' d)) given := by
  cases fits with
  | true => rwa [looser rfl]
  | false =>
    rw [raise_fitted_false] at h
    exact h.of_raise fits'

end Profile

namespace Tree

@[simp] theorem fits_items (t : Tree) : t.fits .items = true :=
  decide_eq_true (Nat.zero_le _)

@[simp] theorem fits_statement (t : Tree) : t.fits (.level .statement) = true :=
  decide_eq_true (Nat.zero_le _)

/-- What fits a position fits every looser one. -/
theorem fits_of_le {t : Tree} {r s : Rank} (h : t.fits r = true) (looser : s.height ≤ r.height) :
    t.fits s = true :=
  decide_eq_true (Nat.le_trans looser (of_decide_eq_true h))

end Tree

theorem lookup_infixOps {op : String} {p : Precedence} (isOp : (op, p) ∈ infixOps) :
    infixOps.lookup op = some p := by
  have once : ∀ o ∈ infixOps, infixOps.lookup o.1 = some o.2 := by decide
  exact once (op, p) isOp

theorem pathTokens_ne_nil {path : List String} (some : path ≠ []) : pathTokens path ≠ [] := by
  match path with
  | [] => exact absurd rfl some
  | [_] | _ :: _ :: _ => nofun

theorem pathTokens_concat {path : List String} (some : path ≠ []) (word : String) :
    pathTokens (path ++ [word]) = pathTokens path ++ [Token.mark "::", .word word] := by
  induction path with
  | nil => exact absurd rfl some
  | cons first rest ih =>
    cases rest with
    | nil => rfl
    | cons next rest =>
      have more : next :: rest ++ [word] ≠ [] := nofun
      rw [List.cons_append, pathTokens_cons first more, ih nofun]
      rfl

namespace Derives

variable {r : Rank} {us : List Token} {t : Tree}

/-- Every name has a word. -/
theorem path_ne_nil (h : Derives r us t) (path : List String)
    (named : t = .name path ∨ ∃ o op, t = .member o op path) : path ≠ [] := by
  induction h generalizing path with
  | loosen _ _ ih | ofTight _ ih | paren _ ih => exact ih path named
  | @qualify word _ t _ _ _ _ =>
    have concat (front : List String) : front ++ [word] ≠ [] := by simp
    cases t with
    | name front | member _ _ front =>
      rcases named with same | ⟨_, _, same⟩ <;> cases same
      exact concat front
    | _ => rcases named with same | ⟨_, _, same⟩ <;> cases same
  | name | member =>
    rcases named with same | ⟨_, _, same⟩ <;> cases same
    exact List.cons_ne_nil _ _
  | _ =>
    rcases named with same | ⟨_, _, same⟩ <;> cases same

theorem ne_nil (h : Derives r us t) (noItems : r ≠ .items) : us ≠ [] := by
  obtain ⟨token, rest, rfl, -⟩ := h.startsOperand noItems
  exact List.cons_ne_nil token rest

theorem level_ne_nil {p : Precedence} (h : Derives (.level p) us t) : us ≠ [] :=
  h.ne_nil nofun

theorem tight_ne_nil (h : Derives .tight us t) : us ≠ [] :=
  h.ne_nil nofun

theorem items_ne_nil (h : Derives .items us t) (some : t ≠ .nil) : us ≠ [] := by
  cases h with
  | noItem => exact absurd rfl some
  | firstItem h => exact h.level_ne_nil
  | nextItem => simp

/-- A tree of some tokens demands tokens. -/
theorem demand_ne_nil (h : Derives r us t) (some : us ≠ []) : t.demand ≠ [] := by
  induction h with
  | loosen _ _ ih | ofTight _ ih => exact ih some
  | paren h ih => exact ih h.level_ne_nil
  | call h _ ih _ =>
    exact List.append_ne_nil_of_left_ne_nil (fitted_ne_nil (ih h.tight_ne_nil) _) _
  | @qualify _ _ t => cases t <;> simp [Tree.qualify, Tree.demand, flat, pathTokens_ne_nil]
  | firstItem h ih =>
    simpa [Tree.demand] using fitted_ne_nil (ih some) _
  | noItem => exact absurd rfl some
  | name => simp [Tree.demand, flat, pathTokens]
  | nextItem more => simp [Tree.demand, more, flat]
  | _ => simp [Tree.demand, flat]

/-- An operand in front of something else. -/
theorem meets_append {e : Profile} {back : List Token} (h : Derives r us t) (some : us ≠ [])
    (front : ∀ k, Meets (raise k (fitted (t.fits r) t.demand)) (profile k us))
    (behind : Meets e (profile 0 back)) (k : Nat) :
    Meets (raise k (fitted (t.fits r) t.demand ++ e)) (profile k (us ++ back)) := by
  have demanded : fitted (t.fits r) t.demand ≠ [] := fitted_ne_nil (h.demand_ne_nil some) _
  rw [raise_append demanded, profile_append_of_closes h.closesParens some]
  exact (front k).append behind

/-- The tokens of a tree have all parentheses that the tree demands in its position, and those that
are open in front of the first token come on top. -/
theorem meets_raise (h : Derives r us t) (k : Nat) :
    Meets (raise k (fitted (t.fits r) t.demand)) (profile k us) := by
  have infixes : ∀ o ∈ infixOps, Token.mark o.1 ∉ bounds := by decide
  have assigns : ∀ op ∈ assignOps, Token.mark op ∉ bounds := by decide
  have prefixes : ∀ op ∈ prefixOps, Token.mark op ∉ bounds := by decide
  have postfixes : ∀ op ∈ postfixOps, Token.mark op ∉ bounds := by decide
  have members : ∀ op ∈ memberOps, Token.mark op ∉ bounds := by decide
  have words (text : String) : Token.word text ∉ bounds := by simp [bounds]
  -- What is open in front is left open, for parentheses around an expression add to it.
  induction h generalizing k with
  | @loosen p q _ t lower _ ih =>
    have looser : (Rank.level q).height ≤ (Rank.level p).height := lower
    exact (ih k).loosen fun fits => Tree.fits_of_le fits looser
  | ofTight _ ih =>
    have looser : (Rank.level .primary).height ≤ Rank.tight.height := by decide
    exact (ih k).loosen fun fits => Tree.fits_of_le fits looser
  | @binary op p ls rs l r isOp left _ ihLeft ihRight =>
    have found := lookup_infixOps isOp
    have fits : (Tree.binary op l r).fits (.level p) = true := by
      simp [Tree.fits, Tree.rank, found]
    have right := (raise_zero ▸ ihRight 0).other (infixes _ isOp) 0
    simpa [fits, Tree.demand, found] using
      left.meets_append left.level_ne_nil ihLeft right k
  | assign isAssign left _ ihLeft ihRight =>
    have right := (raise_zero ▸ ihRight 0).other (assigns _ isAssign) 0
    exact left.meets_append left.level_ne_nil ihLeft right k
  | cond test positive _ ihTest ihPositive ihNegative =>
    have colon : Token.mark ":" ∉ bounds := by decide
    have question : Token.mark "?" ∉ bounds := by decide
    have negative := (raise_zero ▸ ihNegative 0).other colon 0
    have branches := positive.meets_append positive.level_ne_nil ihPositive negative 0
    rw [raise_zero, Tree.fits_statement, fitted_true] at branches
    exact test.meets_append test.level_ne_nil ihTest (branches.other question 0) k
  | prefixed isPrefix _ ih =>
    have operand := (raise_zero ▸ ih 0).other (prefixes _ isPrefix) k
    simpa [Tree.fits, Tree.rank, Tree.demand] using operand
  | postfixed isPostfix operand ih =>
    have mark := Meets.nil.other (postfixes _ isPostfix) 0
    exact operand.meets_append operand.tight_ne_nil ih mark k
  | index array position ihArray ihPosition =>
    have opening : Token.mark "[" ∉ bounds := by decide
    have closing : Token.mark "]" ∉ bounds := by decide
    have inner := position.meets_append position.level_ne_nil ihPosition
      (Meets.nil.other closing 0) 0
    rw [raise_zero, Tree.fits_statement, fitted_true] at inner
    exact array.meets_append array.tight_ne_nil ihArray (inner.other opening 0) k
  | @call ts as t a callee items ihCallee ihItems =>
    have inside : Meets (raise 1 a.demand) (profile 0 (.mark "(" :: (as ++ [Token.mark ")"]))) := by
      rw [profile_paren items.closesParens]
      simpa using ihItems 1
    exact callee.meets_append callee.tight_ne_nil ihCallee inside k
  | @member _ name _ _ isMember _ object ih =>
    have reach := (Meets.nil.other (words name) 0).other (members _ isMember) 0
    exact object.meets_append object.tight_ne_nil ih reach k
  | @qualify word ts t _ _ outer ih =>
    have colons : Token.mark "::" ∉ bounds := by decide
    have qualified := outer.meets_append outer.tight_ne_nil ih
      ((Meets.nil.other (words word) 0).other colons 0) k
    -- A name takes one more word, and anything else becomes the outer part of a name.
    cases t with
    | name path | member _ _ path =>
      have some : path ≠ [] := outer.path_ne_nil path (by simp)
      simpa [Tree.qualify, Tree.demand, Tree.fits, Tree.rank, pathTokens_concat some, flat]
        using qualified
    | _ => exact qualified
  | name =>
    rw [Tree.demand, pathTokens]
    simpa [Tree.fits, Tree.rank, flat] using Meets.nil.other (words _) k
  | @literal token isLiteral =>
    have noBound : token ∉ bounds := by
      intro isBound
      have noLiteral : ∀ t ∈ bounds, t.isLiteral = false := by decide
      rw [noLiteral token isBound] at isLiteral
      cases isLiteral
    simpa [Tree.demand, Tree.fits, Tree.rank, flat] using Meets.nil.other noBound k
  | paren inner ih =>
    rw [profile_paren inner.closesParens]
    have raised := ih (k + 1)
    rw [Tree.fits_statement, fitted_true] at raised
    exact raised.of_raise _
  | braces items ih =>
    have opening : Token.mark "\x7b" ∉ bounds := by decide
    have closing : Token.mark "\x7d" ∉ bounds := by decide
    have inner := (raise_zero ▸ ih 0).append (Meets.nil.other closing 0)
    rw [← profile_append items.closesParens, Tree.fits_items, fitted_true] at inner
    simpa [Tree.demand, Tree.fits, Tree.rank, flat] using inner.other opening k
  | @cast kind ty ts t _ isType inner ih =>
    have angle : Token.mark "<" ∉ bounds := by decide
    have angle' : Token.mark ">" ∉ bounds := by decide
    have inside : Meets (raise 1 t.demand) (profile 0 (.mark "(" :: (ts ++ [Token.mark ")"]))) := by
      rw [profile_paren inner.closesParens]
      simpa using ih 1
    have behind := (inside.other angle' 0).flat (not_mem_bounds_of_closesType isType)
    have whole := (behind.other angle 0).other (words kind) k
    simpa [Tree.demand, Tree.fits, Tree.rank, flat] using whole
  | template isType =>
    have angle : Token.mark "<" ∉ bounds := by decide
    have angle' : Token.mark ">" ∉ bounds := by decide
    have colons : Token.mark "::" ∉ bounds := by decide
    have behind := (Meets.nil.other angle' 0).flat (not_mem_bounds_of_closesType isType)
    have whole := (((behind.other angle 0).other (words "make_shared") 0).other colons 0).other
      (words "std") k
    simpa [Tree.demand, Tree.fits, Tree.rank, flat, templatePath, pathTokens] using whole
  | noItem => exact .nil
  | firstItem _ ih => simpa [Tree.demand] using ih k
  | nextItem more front _ ihFront ih =>
    have comma : Token.mark "," ∉ bounds := by decide
    have last := (raise_zero ▸ ih 0).other comma 0
    have whole := front.meets_append (front.items_ne_nil more) ihFront last k
    simpa [Tree.demand, more, flat] using whole

/-- The tokens of a tree have all parentheses that the tree demands in its position. -/
theorem meets (h : Derives r us t) : Meets (fitted (t.fits r) t.demand) (profile 0 us) := by
  simpa using h.meets_raise 0

end Derives

end CppPrinter
