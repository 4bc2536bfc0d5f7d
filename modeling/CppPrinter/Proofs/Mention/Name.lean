import CppPrinter.Proofs.Bracket.Class

/-!
# Ordinary names

An ordinary name is an identifier that is not taken for the namespace of the resource table
(`IsOrdinary`); a name put into lowercase, at its start or as a whole, never is.
-/

namespace CppPrinter

/-- An identifier other than the namespace of the resource table. -/
structure IsOrdinary (name : String) : Prop where
  identifier : IsIdentifier name
  other : name ≠ resourceNamespace

instance (name : String) : Decidable (IsOrdinary name) :=
  decidable_of_iff (IsIdentifier name ∧ name ≠ resourceNamespace)
    ⟨fun h => ⟨h.1, h.2⟩, fun h => ⟨h.identifier, h.other⟩⟩

/-! ### Lowercase -/

/-- The capital with which the namespace starts is no lowercase character. -/
theorem notMem_lowercase (c : Char) : 'T' ∉ lowercase c := by
  intro member
  obtain rfl | ⟨high, -⟩ := mem_lowercase member
  · exact absurd member (by decide)
  · exact absurd high (by decide)

theorem notMem_lowercaseAfter (before cs : List Char) : 'T' ∉ lowercaseAfter before cs := by
  induction cs generalizing before with
  | nil => exact List.not_mem_nil
  | cons c rest ih =>
    rw [lowercaseAfter, List.mem_append, not_or]
    refine ⟨?_, ih (c :: before)⟩
    split
    · unfold lowercaseSigma
      split <;> decide
    · exact notMem_lowercase c

/-- No member is printed by the name of the namespace. -/
theorem IsIdentifier.camelCase_ne {name : String} (h : IsIdentifier name) :
    camelCase name ≠ resourceNamespace := by
  intro same
  obtain ⟨first, rest, shape⟩ := List.exists_cons_of_ne_nil h.isWord.filled
  obtain ⟨c, others, lower⟩ := List.exists_cons_of_ne_nil (lowercase_ne_nil first)
  have starts : (camelCase name).toList.head? = some c := by
    rw [camelCase, shape]
    simp [lower]
  rw [same] at starts
  obtain rfl : 'T' = c := Option.some.inj starts
  exact notMem_lowercase first (by simp [lower])

/-- No function is called by the name of the namespace. -/
theorem mathFunction_ne (name : String) : mathFunction name ≠ resourceNamespace := by
  unfold mathFunction
  split
  · decide
  · split
    · decide
    · intro same
      have capital : 'T' ∈ (lowercaseText name).toList := by
        rw [same]
        decide
      rw [lowercaseText, String.toList_ofList] at capital
      exact notMem_lowercaseAfter [] name.toList capital

end CppPrinter
