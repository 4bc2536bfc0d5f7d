import CppPrinter.Proofs.Reading.Token
import Std.Data.String.ToNat

/-!
# The grammar of types

What a list of tokens means as a type is a `TypeTree`, and `DerivesType` is the grammar that gives
it. `const` may stand in front of the type it belongs to or behind it, and behind a star it belongs
to the pointer; an array of unknown length comes last. The two templates are those of an inline array
and of an owning pointer. The words and the last token tell how a type was put together, so its
tokens have one reading (`DerivesType.unique`), and so have those of a declaration
(`DerivesDeclaration.unique`).
-/

namespace CppPrinter

/-- A type as it is read. -/
inductive TypeTree where
  /-- A type by its name, qualified or not. -/
  | named (path : List String)
  | const (base : TypeTree)
  | pointer (pointee : TypeTree)
  /-- An array of unknown length. -/
  | unbounded (element : TypeTree)
  /-- `std::array` -/
  | array (element : TypeTree) (length : Nat)
  /-- `std::shared_ptr` -/
  | sharedPtr (pointee : TypeTree)
  deriving DecidableEq, Repr

/-- The words of the language that are types. -/
def typeWords : List String := ["void", "bool", "float", "double"]

/-- The words name a type: names, one inside the other, or a word that is a type. -/
def IsTypePath (path : List String) : Prop :=
  path ≠ [] ∧ ((∀ word ∈ path, word ∉ keywords) ∨ ∃ word ∈ typeWords, path = [word])

/-- The tokens of a qualified name. -/
def pathTokens : List String → List Token
  | [] => []
  | [word] => [.word word]
  | word :: rest => .word word :: .mark "::" :: pathTokens rest

/-- The parts of the grammar. -/
inductive TypeRank where
  /-- A name or a template. -/
  | simple
  /-- With `const` in front or behind. -/
  | specified
  /-- With stars behind. -/
  | pointing
  /-- Any type. -/
  | whole

/-- The tokens are a type of a rank, with its tree. -/
inductive DerivesType : TypeRank → List Token → TypeTree → Prop where
  | named {path : List String} (isPath : IsTypePath path) :
      DerivesType .simple (pathTokens path) (.named path)
  | array {ts : List Token} {t : TypeTree} (length : Nat) :
      DerivesType .whole ts t →
      DerivesType .simple
        ([Token.word "std", .mark "::", .word "array", .mark "<"] ++ ts ++
          [Token.mark ",", .number length.repr, .mark ">"])
        (.array t length)
  | sharedPtr {ts : List Token} {t : TypeTree} :
      DerivesType .whole ts t →
      DerivesType .simple
        ([Token.word "std", .mark "::", .word "shared_ptr", .mark "<"] ++ ts ++ [Token.mark ">"])
        (.sharedPtr t)
  | ofSimple {ts : List Token} {t : TypeTree} :
      DerivesType .simple ts t → DerivesType .specified ts t
  | westConst {ts : List Token} {t : TypeTree} :
      DerivesType .simple ts t → DerivesType .specified (.word "const" :: ts) (.const t)
  | eastConst {ts : List Token} {t : TypeTree} :
      DerivesType .simple ts t → DerivesType .specified (ts ++ [Token.word "const"]) (.const t)
  | ofSpecified {ts : List Token} {t : TypeTree} :
      DerivesType .specified ts t → DerivesType .pointing ts t
  | pointer {ts : List Token} {t : TypeTree} :
      DerivesType .pointing ts t → DerivesType .pointing (ts ++ [Token.mark "*"]) (.pointer t)
  | constPointer {ts : List Token} {t : TypeTree} :
      DerivesType .pointing ts t →
      DerivesType .pointing (ts ++ [Token.mark "*", .word "const"]) (.const (.pointer t))
  | ofPointing {ts : List Token} {t : TypeTree} :
      DerivesType .pointing ts t → DerivesType .whole ts t
  | unbounded {ts : List Token} {t : TypeTree} :
      DerivesType .pointing ts t →
      DerivesType .whole (ts ++ [Token.mark "[", .mark "]"]) (.unbounded t)

/-- A type that `const` can be put behind: a name or a template, or a pointer. -/
inductive TakesConst : List Token → TypeTree → Prop where
  | simple {ts : List Token} {t : TypeTree} : DerivesType .simple ts t → TakesConst ts t
  | pointer {ts : List Token} {t : TypeTree} :
      DerivesType .pointing ts t → TakesConst (ts ++ [Token.mark "*"]) (.pointer t)

/-- The text is a type, with its tree. -/
def ReadsType (text : String) (t : TypeTree) : Prop :=
  ∃ ts, Spells text ts ∧ DerivesType .whole ts t

/-- The tokens declare something of a type: a name stands behind the type or, for an array of
unknown length, in front of its brackets. -/
inductive DerivesDeclaration : List Token → String → TypeTree → Prop where
  | plain {ts : List Token} {t : TypeTree} {name : String} (free : name ∉ keywords) :
      DerivesType .pointing ts t → DerivesDeclaration (ts ++ [Token.word name]) name t
  | unbounded {ts : List Token} {t : TypeTree} {name : String} (free : name ∉ keywords) :
      DerivesType .pointing ts t →
      DerivesDeclaration (ts ++ [Token.word name, .mark "[", .mark "]"]) name (.unbounded t)

/-- The text declares a name, with its type. -/
def ReadsDeclaration (text name : String) (t : TypeTree) : Prop :=
  ∃ ts, Spells text ts ∧ DerivesDeclaration ts name t

/-! ### First and last tokens -/

theorem pathTokens_cons (word : String) {rest : List String} (some : rest ≠ []) :
    pathTokens (word :: rest) = .word word :: .mark "::" :: pathTokens rest := by
  cases rest with
  | nil => exact absurd rfl some
  | cons => rfl

theorem pathTokens_injective {path path' : List String} (same : pathTokens path = pathTokens path') :
    path = path' := by
  induction path generalizing path' with
  | nil =>
    match path', same with
    | [], _ => rfl
    | [_], same | _ :: _ :: _, same => cases same
  | cons word rest ih =>
    match rest, path', same with
    | [], [_], same => cases same; rfl
    | [], [], same | [], _ :: _ :: _, same => cases same
    | _ :: _, [], same | _ :: _, [_], same => cases same
    | _ :: _, word' :: next' :: rest', same =>
      obtain ⟨sameWord, sameRest⟩ : Token.word word = .word word' ∧ _ := List.cons.inj same
      rw [Token.word.inj sameWord, ih (List.cons.inj sameRest).2]

/-- The first and the last word of a name are not `const`. -/
theorem IsTypePath.tokens_ends {path : List String} (h : IsTypePath path) :
    (∃ word ∈ path, word ≠ "const" ∧ (pathTokens path).head? = some (.word word)) ∧
      ∃ word ∈ path, word ≠ "const" ∧ (pathTokens path).getLast? = some (.word word) := by
  obtain ⟨some, names⟩ := h
  have noConst : ∀ word ∈ path, word ≠ "const" := by
    intro word member
    rcases names with free | ⟨only, isType, rfl⟩
    · rintro rfl
      exact free _ member (by decide)
    · rw [List.mem_singleton.1 member]
      have others : ∀ word ∈ typeWords, word ≠ "const" := by decide
      exact others only isType
  clear names
  have last : ∃ word ∈ path, (pathTokens path).getLast? = .some (.word word) := by
    clear noConst
    induction path with
    | nil => exact absurd rfl some
    | cons word rest ih =>
      cases rest with
      | nil => exact ⟨word, List.mem_singleton_self word, rfl⟩
      | cons next rest =>
        obtain ⟨word', member, ends⟩ := ih (List.cons_ne_nil next rest)
        refine ⟨word', List.mem_cons_of_mem word member, ?_⟩
        rw [pathTokens_cons word (List.cons_ne_nil next rest), List.getLast?_cons,
          List.getLast?_cons, ends]
        rfl
  constructor
  · match path, some, noConst with
    | [word], _, noConst => exact ⟨word, by simp, noConst word (by simp), rfl⟩
    | word :: next :: rest, _, noConst => exact ⟨word, by simp, noConst word (by simp), rfl⟩
  · obtain ⟨word, member, ends⟩ := last
    exact ⟨word, member, noConst word member, ends⟩

namespace DerivesType

variable {ts us : List Token} {t u : TypeTree} {rank : TypeRank}

/-- A name or a template does not start with `const`, and ends in another word or a bracket. -/
theorem simple_ends (h : DerivesType .simple ts t) :
    (∃ first ∈ ts.head?, first ≠ .word "const") ∧
      ∃ last ∈ ts.getLast?, last ≠ .word "const" ∧ last ≠ .mark "*" ∧ last ≠ .mark "]" := by
  cases h with
  | named isPath =>
    obtain ⟨⟨first, -, noConst, isFirst⟩, last, -, noConst', isLast⟩ := isPath.tokens_ends
    exact ⟨⟨_, isFirst, by simp [noConst]⟩, _, isLast, by simp [noConst']⟩
  | array | sharedPtr =>
    refine ⟨⟨.word "std", rfl, by decide⟩, .mark ">", ?_, by decide⟩
    rw [List.getLast?_append]
    rfl

theorem simple_ne_nil (h : DerivesType .simple ts t) : ts ≠ [] := by
  rintro rfl
  obtain ⟨⟨first, isFirst, -⟩, -⟩ := h.simple_ends
  cases isFirst

theorem ne_const_cons (h : DerivesType .simple ts t) (back : List Token) :
    ts ≠ .word "const" :: back := by
  rintro rfl
  obtain ⟨⟨first, isFirst, noConst⟩, -⟩ := h.simple_ends
  cases isFirst
  exact noConst rfl

theorem ne_concat_const (h : DerivesType .simple ts t) (front : List Token) :
    ts ≠ front ++ [Token.word "const"] := by
  rintro rfl
  obtain ⟨-, last, isLast, noConst, -⟩ := h.simple_ends
  rw [List.getLast?_concat] at isLast
  cases isLast
  exact noConst rfl

/-- `const` in front is not `const` behind. -/
theorem ne_const_cons_of_concat (h : DerivesType .simple ts t) (back : List Token) :
    ts ++ [Token.word "const"] ≠ .word "const" :: back := by
  intro same
  cases ts with
  | nil => exact h.simple_ne_nil rfl
  | cons first rest => exact h.ne_const_cons rest (congrArg (· :: rest) (List.cons.inj same).1)

/-- A type without stars does not end in one, be it in front of `const`, nor in a bracket of an
array. -/
theorem specified_ends (h : DerivesType .specified ts t) :
    ∃ last ∈ ts.getLast?, last ≠ .mark "*" ∧ last ≠ .mark "]" ∧
      (last = .word "const" → ts.dropLast.getLast? ≠ some (.mark "*")) := by
  cases h with
  | ofSimple h =>
    obtain ⟨-, last, isLast, noConst, noStar, noBracket⟩ := h.simple_ends
    exact ⟨last, isLast, noStar, noBracket, fun same => absurd same noConst⟩
  | westConst h =>
    obtain ⟨-, last, isLast, noConst, noStar, noBracket⟩ := h.simple_ends
    refine ⟨last, ?_, noStar, noBracket, fun same => absurd same noConst⟩
    rw [List.getLast?_cons, Option.mem_def.1 isLast]
    rfl
  | eastConst h =>
    obtain ⟨-, last, isLast, -, noStar, -⟩ := h.simple_ends
    refine ⟨.word "const", by simp, by decide, by decide, ?_⟩
    intro _ star
    rw [List.dropLast_concat, Option.mem_def.1 isLast] at star
    exact noStar (Option.some.inj star)

theorem ne_concat_star (h : DerivesType .specified ts t) (front : List Token) :
    ts ≠ front ++ [Token.mark "*"] := by
  rintro rfl
  obtain ⟨last, isLast, noStar, -⟩ := h.specified_ends
  rw [List.getLast?_concat] at isLast
  cases isLast
  exact noStar rfl

theorem ne_concat_star_const (h : DerivesType .specified ts t) (front : List Token) :
    ts ≠ front ++ [Token.mark "*", .word "const"] := by
  intro same
  have shape : ts = (front ++ [Token.mark "*"]) ++ [Token.word "const"] := by simpa using same
  obtain ⟨last, isLast, -, -, noStar⟩ := h.specified_ends
  rw [shape, List.getLast?_concat] at isLast
  rw [shape, List.dropLast_concat, List.getLast?_concat] at noStar
  cases isLast
  exact noStar rfl rfl

theorem star_ne_star_const (front back : List Token) :
    front ++ [Token.mark "*"] ≠ back ++ [Token.mark "*", .word "const"] := by
  intro same
  have ends := congrArg List.getLast? same
  rw [List.getLast?_append, List.getLast?_append] at ends
  cases ends

/-- No type but an array of unknown length ends in its brackets. -/
theorem ne_concat_brackets (h : DerivesType .pointing ts t) (front : List Token) :
    ts ≠ front ++ [Token.mark "[", .mark "]"] := by
  have other : ∃ last ∈ ts.getLast?, last ≠ .mark "]" := by
    cases h with
    | ofSpecified h =>
      obtain ⟨last, isLast, -, noBracket, -⟩ := h.specified_ends
      exact ⟨last, isLast, noBracket⟩
    | pointer => exact ⟨.mark "*", by simp, by decide⟩
    | constPointer => exact ⟨.word "const", by simp, by decide⟩
  rintro rfl
  obtain ⟨last, isLast, noBracket⟩ := other
  rw [List.getLast?_append] at isLast
  cases isLast
  exact noBracket rfl

/-! ### One reading -/

/-- A name is no template, and one template is not the other. -/
theorem simple_apart {path : List String} (isPath : IsTypePath path) (length : Nat) :
    pathTokens path ≠ [Token.word "std", .mark "::", .word "array", .mark "<"] ++ ts ++
      [Token.mark ",", .number length.repr, .mark ">"] ∧
    pathTokens path ≠
      [Token.word "std", .mark "::", .word "shared_ptr", .mark "<"] ++ ts ++ [Token.mark ">"] := by
  obtain ⟨-, word, -, -, isLast⟩ := isPath.tokens_ends
  constructor
  all_goals
    intro same
    rw [same, List.getLast?_append] at isLast
    cases isLast

/-- The tokens of a type have one tree. -/
theorem unique (h : DerivesType rank ts t) (h' : DerivesType rank ts u) : t = u := by
  generalize same : ts = us at h'
  induction h generalizing us u with
  | named isPath =>
    cases h' with
    | named isPath' => rw [pathTokens_injective same]
    | array length => exact absurd same (simple_apart isPath length).1
    | sharedPtr => exact absurd same (simple_apart isPath 0).2
  | array length inner ih =>
    cases h' with
    | named isPath => exact absurd same.symm (simple_apart isPath length).1
    | array length' inner' =>
      obtain ⟨front, back⟩ := List.append_inj' same rfl
      have sameLength : length.repr = length'.repr := by simpa using back
      rw [ih _ (List.append_cancel_left front) inner', Nat.repr_injective sameLength]
    | sharedPtr => simp at same
  | sharedPtr inner ih =>
    cases h' with
    | named isPath => exact absurd same.symm (simple_apart isPath 0).2
    | array => simp at same
    | sharedPtr inner' =>
      rw [ih _ (List.append_cancel_left (List.append_inj' same rfl).1) inner']
  | ofSimple h ih =>
    cases h' with
    | ofSimple h' => exact ih _ same h'
    | westConst => exact absurd same (h.ne_const_cons _)
    | eastConst => exact absurd same (h.ne_concat_const _)
  | westConst h ih =>
    cases h' with
    | ofSimple h' => exact absurd same.symm (h'.ne_const_cons _)
    | westConst h' => rw [ih _ (List.cons.inj same).2 h']
    | eastConst h' => exact absurd same.symm (h'.ne_const_cons_of_concat _)
  | eastConst h ih =>
    cases h' with
    | ofSimple h' => exact absurd same.symm (h'.ne_concat_const _)
    | westConst h' => exact absurd same (h.ne_const_cons_of_concat _)
    | eastConst h' => rw [ih _ (List.append_inj' same rfl).1 h']
  | ofSpecified h ih =>
    cases h' with
    | ofSpecified h' => exact ih _ same h'
    | pointer => exact absurd same (h.ne_concat_star _)
    | constPointer => exact absurd same (h.ne_concat_star_const _)
  | pointer h ih =>
    cases h' with
    | ofSpecified h' => exact absurd same.symm (h'.ne_concat_star _)
    | pointer h' => rw [ih _ (List.append_inj' same rfl).1 h']
    | constPointer => exact absurd same (star_ne_star_const _ _)
  | constPointer h ih =>
    cases h' with
    | ofSpecified h' => exact absurd same.symm (h'.ne_concat_star_const _)
    | pointer => exact absurd same.symm (star_ne_star_const _ _)
    | constPointer h' => rw [ih _ (List.append_inj' same rfl).1 h']
  | ofPointing h ih =>
    cases h' with
    | ofPointing h' => exact ih _ same h'
    | unbounded => exact absurd same (h.ne_concat_brackets _)
  | unbounded h ih =>
    cases h' with
    | ofPointing h' => exact absurd same.symm (h'.ne_concat_brackets _)
    | unbounded h' => rw [ih _ (List.append_inj' same rfl).1 h']

end DerivesType

namespace TakesConst

variable {ts : List Token} {t : TypeTree}

theorem pointing (h : TakesConst ts t) : DerivesType .pointing ts t := by
  cases h with
  | simple h => exact .ofSpecified (.ofSimple h)
  | pointer h => exact .pointer h

/-- `const` behind a type belongs to all of it. -/
theorem const (h : TakesConst ts t) : DerivesType .pointing (ts ++ [Token.word "const"]) (.const t) := by
  cases h with
  | simple h => exact .ofSpecified (.eastConst h)
  | pointer h =>
    rw [List.append_assoc]
    exact .constPointer h

end TakesConst

theorem ReadsType.unique {text : String} {t u : TypeTree} (h : ReadsType text t)
    (h' : ReadsType text u) : t = u := by
  obtain ⟨ts, spells, derives⟩ := h
  obtain ⟨us, spells', derives'⟩ := h'
  cases spells.unique spells'
  exact derives.unique derives'

/-- The tokens of a declaration declare one name, with one type. -/
theorem DerivesDeclaration.unique {ts : List Token} {name name' : String} {t u : TypeTree}
    (h : DerivesDeclaration ts name t) (h' : DerivesDeclaration ts name' u) :
    name = name' ∧ t = u := by
  have apart (front back : List Token) (word word' : String) :
      front ++ [Token.word word] ≠ back ++ [Token.word word', .mark "[", .mark "]"] := by
    intro same
    have ends := congrArg List.getLast? same
    rw [List.getLast?_append, List.getLast?_append] at ends
    cases ends
  generalize same : ts = us at h'
  cases h with
  | plain _ derives =>
    cases h' with
    | plain _ derives' =>
      obtain ⟨rfl, sameName⟩ := List.append_inj' same rfl
      exact ⟨by simpa using sameName, derives.unique derives'⟩
    | unbounded => exact absurd same (apart _ _ _ _)
  | unbounded _ derives =>
    cases h' with
    | plain => exact absurd same.symm (apart _ _ _ _)
    | unbounded _ derives' =>
      obtain ⟨rfl, sameName⟩ := List.append_inj' same rfl
      exact ⟨by simpa using sameName, congrArg TypeTree.unbounded (derives.unique derives')⟩

theorem ReadsDeclaration.unique {text name name' : String} {t u : TypeTree}
    (h : ReadsDeclaration text name t) (h' : ReadsDeclaration text name' u) :
    name = name' ∧ t = u := by
  obtain ⟨ts, spells, derives⟩ := h
  obtain ⟨us, spells', derives'⟩ := h'
  cases spells.unique spells'
  exact derives.unique derives'

end CppPrinter
