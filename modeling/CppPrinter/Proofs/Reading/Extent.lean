import CppPrinter.Proofs.Reading.Operand

/-!
# How far an operand reaches

A form behind an operand takes the whole operand, unless the operand starts with an operator: then
the operator is read last, and the form goes to what the operator stands before
(`Derives.extend`). In the same way an assignment behind a conditional or behind another
assignment goes to the last part of it (`Derives.reassign`).
-/

namespace CppPrinter

/-- The tokens start with an operator before an operand. -/
def StartsPrefix (ts : List Token) : Prop := ∃ op rest, ts = .mark op :: rest ∧ op ∈ prefixOps

/-- The marks that an operand may start with when any form may stand behind it. -/
def openings : List String := ["(", "\x7b"]

/-- What any form may stand behind starts with a word, a literal or an opening bracket. -/
theorem Derives.tight_head {rank : Rank} {ts : List Token} {t : Tree} (h : Derives rank ts t)
    (tight : rank = .tight) :
    ∃ token rest, ts = token :: rest ∧ ∀ m, token = .mark m → m ∈ openings := by
  have longer {front back : List Token}
      (kept : ∃ token rest, front = token :: rest ∧ ∀ m, token = .mark m → m ∈ openings) :
      ∃ token rest, front ++ back = token :: rest ∧ ∀ m, token = .mark m → m ∈ openings := by
    obtain ⟨token, rest, rfl, starts⟩ := kept
    exact ⟨token, rest ++ back, rfl, starts⟩
  induction h with
  | postfixed _ _ ih | member _ _ _ ih | qualify _ _ _ ih => exact longer (ih rfl)
  | index _ _ ih _ | call _ _ ih _ => exact longer (ih rfl)
  | @literal token isLiteral =>
    refine ⟨token, [], rfl, ?_⟩
    rintro m rfl
    cases isLiteral
  | paren | braces =>
    refine ⟨_, _, rfl, ?_⟩
    rintro m same
    cases same
    decide
  | name | cast | template => exact ⟨_, _, rfl, nofun⟩
  | loosen | binary | assign | cond | prefixed | ofTight | noItem | firstItem | nextItem =>
    cases tight

theorem Derives.not_startsPrefix {ts : List Token} {t : Tree} (h : Derives .tight ts t) :
    ¬ StartsPrefix ts := by
  have apart : ∀ m ∈ openings, m ∉ prefixOps := by decide
  rintro ⟨op, rest, rfl, isPrefix⟩
  obtain ⟨token, rest', shape, starts⟩ := h.tight_head rfl
  cases shape
  exact apart op (starts op rfl) isPrefix

/-- An expression of the tightest level is an operand with whatever stands behind it, or an operator
and another one. -/
theorem Derives.primary_cases {rank : Rank} {ts : List Token} {t : Tree} (h : Derives rank ts t)
    (primary : rank = .level .primary) :
    Derives .tight ts t ∨ ∃ op us u, ts = .mark op :: us ∧ op ∈ prefixOps ∧
      Derives (.level .primary) us u ∧ t = .prefixed op u := by
  induction h with
  | @loosen p q _ _ le derives ih =>
    cases primary
    have same : p = .primary := by
      revert le
      cases p <;> decide
    exact ih (by rw [same])
  | @prefixed op ts t isPrefix derives => exact Or.inr ⟨op, ts, t, rfl, isPrefix, derives, rfl⟩
  | ofTight derives => exact Or.inl derives
  | binary atLevel =>
    cases primary
    have loose : ∀ o ∈ infixOps, o.2 ≠ .primary := by decide
    exact absurd rfl (loose _ atLevel)
  | _ => cases primary

/-- A form behind an operand takes all of it, or only what stands behind its first operator. -/
theorem Derives.extend {back : List Token} {form : Tree → Tree}
    (takes : ∀ ts t, Derives .tight ts t → Derives .tight (ts ++ back) (form t))
    {ts : List Token} {t : Tree} (h : Derives (.level .primary) ts t) :
    ∃ u, Derives (.level .primary) (ts ++ back) u ∧
      (Derives .tight ts t ∧ u = form t ∨ StartsPrefix ts ∧ ∃ op v, u = .prefixed op v) := by
  induction shorter : ts.length using Nat.strongRecOn generalizing ts t with
  | ind n ih =>
    rcases h.primary_cases rfl with tight | ⟨op, us, u, rfl, isPrefix, derives, rfl⟩
    · exact ⟨form t, .ofTight (takes ts t tight), Or.inl ⟨tight, rfl⟩⟩
    · have less : us.length < n := by simp [← shorter]
      obtain ⟨v, derives', -⟩ := ih us.length less derives rfl
      exact ⟨.prefixed op v, .prefixed isPrefix derives',
        Or.inr ⟨⟨op, us, rfl, isPrefix⟩, op, v, rfl⟩⟩

/-- The tokens are an assignment or a conditional outside of all brackets. -/
inductive Groups : List Token → Tree → Prop where
  | assign {op : String} {ls rs : List Token} {l r : Tree} (isAssign : op ∈ assignOps)
      (left : Derives (.level .condOr) ls l) (right : Derives (.level .assign) rs r) :
      Groups (ls ++ .mark op :: rs) (.assign op l r)
  | cond {cs ts es : List Token} {c t e : Tree} (test : Derives (.level .condOr) cs c)
      (positive : Derives (.level .statement) ts t) (negative : Derives (.level .assign) es e) :
      Groups (cs ++ .mark "?" :: (ts ++ .mark ":" :: es)) (.cond c t e)

theorem Groups.derives {ts : List Token} {t : Tree} (h : Groups ts t) :
    Derives (.level .assign) ts t := by
  cases h with
  | assign isAssign left right => exact .assign isAssign left (.loosen (by decide) right)
  | cond test positive negative => exact .loosen (by decide) (.cond test positive negative)

/-- An item of a list is an assignment, a conditional or something tighter. -/
theorem Derives.assign_cases {rank : Rank} {ts : List Token} {t : Tree} (h : Derives rank ts t)
    {p : Precedence} (atLevel : rank = .level p) (noComma : 0 < p.level) :
    Derives (.level .condOr) ts t ∨ Groups ts t := by
  induction h generalizing p with
  | @loosen q p' ts t le derives ih =>
    cases atLevel
    exact ih rfl (by omega)
  | @binary op q ls rs l r isOp left right =>
    cases atLevel
    have tight : ∀ o ∈ infixOps, 0 < o.2.level → Precedence.condOr.level ≤ o.2.level := by decide
    exact Or.inl (.loosen (tight _ isOp noComma) (.binary isOp left right))
  | assign isAssign left right ihLeft ihRight =>
    rcases ihRight rfl (by decide) with derives | groups
    · exact Or.inr (.assign isAssign left (.loosen (by decide) derives))
    · exact Or.inr (.assign isAssign left groups.derives)
  | cond test positive negative => exact Or.inr (.cond test positive negative)
  | prefixed isPrefix derives => exact Or.inl (.loosen (by decide) (.prefixed isPrefix derives))
  | ofTight derives => exact Or.inl (.loosen (by decide) (.ofTight derives))
  | _ => cases atLevel

/-- An assignment behind an expression, whatever the expression is. -/
theorem Derives.reassign {op : String} (isAssign : op ∈ assignOps) {rs : List Token} {r : Tree}
    (right : Derives (.level .assign) rs r) {ts : List Token} {t : Tree}
    (h : Derives (.level .assign) ts t) : ∃ u, Groups (ts ++ .mark op :: rs) u := by
  induction shorter : ts.length using Nat.strongRecOn generalizing ts t with
  | ind n ih =>
    rcases h.assign_cases rfl (by decide) with derives | groups
    · exact ⟨_, .assign isAssign derives right⟩
    · cases groups with
      | @assign op' ls ms l m isAssign' left mid =>
        have less : ms.length < n := by simp [← shorter]; omega
        obtain ⟨v, groups⟩ := ih ms.length less mid rfl
        refine ⟨.assign op' l v, ?_⟩
        rw [List.append_assoc, List.cons_append]
        exact .assign isAssign' left groups.derives
      | @cond cs ps es c p e test positive negative =>
        have less : es.length < n := by simp [← shorter]; omega
        obtain ⟨v, groups⟩ := ih es.length less negative rfl
        refine ⟨.cond c p v, ?_⟩
        have shape : cs ++ .mark "?" :: (ps ++ .mark ":" :: es) ++ .mark op :: rs =
            cs ++ .mark "?" :: (ps ++ .mark ":" :: (es ++ .mark op :: rs)) := by simp
        rw [shape]
        exact .cond test positive groups.derives

/-- An assignment behind an assignment or a conditional takes only the last part of it. -/
theorem Groups.reassign {op : String} (isAssign : op ∈ assignOps) {rs : List Token} {r : Tree}
    (right : Derives (.level .assign) rs r) {ts : List Token} {t : Tree} (h : Groups ts t) :
    ∃ u, Groups (ts ++ .mark op :: rs) u ∧ ∀ x, u ≠ .assign op t x := by
  cases h with
  | @assign op' ls ms l m isAssign' left mid =>
    obtain ⟨v, groups⟩ := Derives.reassign isAssign right mid
    refine ⟨.assign op' l v, ?_, ?_⟩
    · rw [List.append_assoc, List.cons_append]
      exact .assign isAssign' left groups.derives
    · intro x same
      -- the target of an assignment would be the assignment itself
      have itself : l = .assign op' l m := by injection same
      have larger := congrArg sizeOf itself
      simp only [Tree.assign.sizeOf_spec] at larger
      omega
  | @cond cs ps es c p e test positive negative =>
    obtain ⟨v, groups⟩ := Derives.reassign isAssign right negative
    refine ⟨.cond c p v, ?_, nofun⟩
    have shape : cs ++ .mark "?" :: (ps ++ .mark ":" :: es) ++ .mark op :: rs =
        cs ++ .mark "?" :: (ps ++ .mark ":" :: (es ++ .mark op :: rs)) := by simp
    rw [shape]
    exact .cond test positive groups.derives

/-- What is an item of a list can stand on either side of an assignment. -/
theorem Derives.assign_of_argument {ts : List Token} {t : Tree}
    (h : Derives (.level .argument) ts t) : Derives (.level .assign) ts t := by
  rcases h.assign_cases rfl (by decide) with derives | groups
  · exact .loosen (by decide) derives
  · exact groups.derives

/-- Where a number ends an operand, another number may stand in its place. -/
theorem Derives.renumber {digits : String} (digits' : String) {front : List Token} {t : Tree}
    (h : Derives (.level .primary) (front ++ [Token.number digits]) t) :
    (∃ u, Derives (.level .primary) (front ++ [Token.number digits']) u) ∧
      (¬ StartsPrefix (front ++ [Token.number digits]) → front = []) := by
  induction front generalizing t with
  | nil => exact ⟨⟨_, .ofTight (.literal rfl)⟩, fun _ => rfl⟩
  | cons token front ih =>
    rcases h.primary_cases rfl with tight | ⟨op, us, u, shape, isPrefix, derives, rfl⟩
    · have last : (token :: front ++ [Token.number digits]).getLast? = some (.number digits) := by
        simp [List.getLast?_cons]
      have single := (tight.eq_number last).1
      simp at single
    · rw [List.cons_append, List.cons.injEq] at shape
      obtain ⟨rfl, rfl⟩ := shape
      obtain ⟨⟨v, derives'⟩, -⟩ := ih derives
      exact ⟨⟨.prefixed op v, .prefixed isPrefix derives'⟩,
        fun bare => absurd ⟨op, _, rfl, isPrefix⟩ bare⟩

end CppPrinter
