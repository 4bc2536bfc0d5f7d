import CppPrinter.Text.Identifier
import Mathlib.Data.List.Nodup

/-!
# Names in camel case

Camel case forgets whether a name starts with a capital, and nothing else: two names become one exactly
when they are the same but for the case of their first characters (`camelCase_eq_iff`). So distinct names
stay distinct unless two of them are (`nodup_map_camelCase_iff`).
-/

namespace CppPrinter

/-- The capital I with a dot above, whose lowercase is an `i` with a combining dot. -/
def dottedCapital : Char := Char.ofNat 0x130

def combiningDot : Char := Char.ofNat 0x307

/-- Every other character has a lowercase of one character. -/
theorem exists_lowercase_eq {c : Char} (other : c ≠ dottedCapital) : ∃ d, lowercase c = [d] := by
  have noDot : c.toNat ≠ 0x130 := fun code => other (Char.toNat_inj.1 code)
  rw [lowercase, if_neg noDot]
  split
  · exact ⟨_, rfl⟩
  · exact ⟨_, rfl⟩

/-- The names are the same but for the case of their first characters, where the dotted capital is also
the same as an `i` with a dot behind it. -/
inductive SameButCase : List Char → List Char → Prop where
  | first {c d : Char} {rest : List Char} (same : lowercase c = lowercase d) :
      SameButCase (c :: rest) (d :: rest)
  | dotted {d : Char} {rest : List Char} (same : lowercase d = ['i']) :
      SameButCase (dottedCapital :: rest) (d :: combiningDot :: rest)
  | undotted {c : Char} {rest : List Char} (same : lowercase c = ['i']) :
      SameButCase (c :: combiningDot :: rest) (dottedCapital :: rest)

/-- A first character in lowercase, with the rest of the name, is that of another name. -/
theorem lowercase_append_eq_iff {c d : Char} {r s : List Char} :
    lowercase c ++ r = lowercase d ++ s ↔ SameButCase (c :: r) (d :: s) := by
  constructor
  · intro same
    by_cases capital : c = dottedCapital <;> by_cases capital' : d = dottedCapital
    · subst capital capital'
      rw [List.append_cancel_left same]
      exact .first rfl
    · subst capital
      obtain ⟨x, small⟩ := exists_lowercase_eq capital'
      rw [small] at same
      obtain ⟨rfl, rfl⟩ := List.cons.inj same
      exact .dotted small
    · subst capital'
      obtain ⟨x, small⟩ := exists_lowercase_eq capital
      rw [small] at same
      obtain ⟨rfl, rfl⟩ := List.cons.inj same
      exact .undotted small
    · obtain ⟨x, small⟩ := exists_lowercase_eq capital
      obtain ⟨y, small'⟩ := exists_lowercase_eq capital'
      rw [small, small'] at same
      obtain ⟨rfl, rfl⟩ := List.cons.inj same
      exact .first (small.trans small'.symm)
  · rintro (same | same | same)
    · rw [same]
    · rw [same]
      rfl
    · rw [same]
      rfl

theorem lowercase_ne_nil (c : Char) : lowercase c ≠ [] := by
  by_cases capital : c = dottedCapital
  · subst capital
    exact List.cons_ne_nil _ _
  · obtain ⟨d, small⟩ := exists_lowercase_eq capital
    rw [small]
    exact List.cons_ne_nil _ _

theorem toList_camelCase (name : String) :
    (camelCase name).toList = name.toList.head?.elim [] lowercase ++ name.toList.tail := by
  unfold camelCase
  split
  · rename_i nothing
    simp [nothing]
  · rename_i first rest shape
    simp [shape]

/-- Camel case makes one name of two exactly when they are the same but for the case of their first
characters. -/
theorem camelCase_eq_iff {a b : String} :
    camelCase a = camelCase b ↔ a = b ∨ SameButCase a.toList b.toList := by
  rw [← String.toList_inj, ← @String.toList_inj a, toList_camelCase, toList_camelCase]
  cases a.toList with
  | nil =>
    cases b.toList with
    | nil => simp
    | cons d s =>
      refine iff_of_false (fun same => lowercase_ne_nil d ?_) nofun
      exact (List.append_eq_nil_iff.1 same.symm).1
  | cons c r =>
    cases b.toList with
    | nil =>
      refine iff_of_false (fun same => lowercase_ne_nil c ?_) nofun
      exact (List.append_eq_nil_iff.1 same).1
    | cons d s =>
      refine lowercase_append_eq_iff.trans ⟨.inr, ?_⟩
      rintro (same | alike)
      · obtain ⟨rfl, rfl⟩ := List.cons.inj same
        exact .first rfl
      · exact alike

/-- Distinct names stay distinct in camel case exactly when no two of them are the same but for the case
of their first characters. -/
theorem nodup_map_camelCase_iff {names : List String} (distinct : names.Nodup) :
    (names.map camelCase).Nodup ↔ names.Pairwise fun a b => ¬ SameButCase a.toList b.toList := by
  rw [List.Nodup, List.pairwise_map]
  constructor
  · exact fun apart => apart.imp fun unlike alike => unlike (camelCase_eq_iff.2 (.inr alike))
  · intro unlike
    refine (distinct.and unlike).imp fun both same => ?_
    rcases camelCase_eq_iff.1 same with equal | alike
    · exact both.1 equal
    · exact both.2 alike

/-- Where camel case gives things the only names they can go by, they go by distinct names exactly when no
two of their own names are the same but for the case of their first characters. -/
theorem exists_distinct_iff {α : Type} {xs : List α} {name : α → String} {GoBy : (α → String) → Prop}
    (given : GoBy fun x => camelCase (name x))
    (only : ∀ names, GoBy names → ∀ x ∈ xs, names x = camelCase (name x))
    (distinct : (xs.map name).Nodup) : (∃ names, GoBy names ∧ (xs.map names).Nodup) ↔
      (xs.map name).Pairwise fun a b => ¬ SameButCase a.toList b.toList := by
  rw [← nodup_map_camelCase_iff distinct, List.map_map]
  constructor
  · rintro ⟨names, named, apart⟩
    have same : xs.map names = xs.map (camelCase ∘ name) := List.map_congr_left (only names named)
    rwa [← same]
  · exact fun apart => ⟨_, given, apart⟩

end CppPrinter
