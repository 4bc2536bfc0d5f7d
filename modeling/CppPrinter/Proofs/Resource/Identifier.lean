import CppPrinter.Proofs.Resource.Program
import CppPrinter.Proofs.Sharing.Agree

/-!
# Identifiers of resources

Every character of a name that is no ASCII letter or digit becomes an underscore. Two names come to
the same identifier when they differ in such characters alone (`sanitizeIdentifier_eq_iff`), and the
identifier of a name is one of the language when the name has a first character that is no digit and
does not come to a keyword (`isIdentifier_sanitizeIdentifier_iff`). So whether the table of resources
is sound (`ResourceTable.IsIdentified`) is a matter of the names in it (`ResourceTable.HasFitNames`).
-/

namespace CppPrinter

/-- The names are equal but for characters that are no ASCII letters or digits. -/
def LooksLike (name other : String) : Prop :=
  List.Forall₂ (fun c d => c = d ∨ (c.isAlphanum = false ∧ d.isAlphanum = false))
    name.toList other.toList

/-- Two characters are replaced alike. -/
theorem replaced_eq_iff (c d : Char) :
    (if isIdentifierChar c then c else '_') = (if isIdentifierChar d then d else '_') ↔
      c = d ∨ (c.isAlphanum = false ∧ d.isAlphanum = false) := by
  have underscore : '_'.isAlphanum = false := by decide
  unfold isIdentifierChar
  cases left : c.isAlphanum <;> cases right : d.isAlphanum <;> simp
  · constructor <;> rintro rfl <;> simp_all
  · constructor <;> rintro rfl <;> simp_all

theorem sanitizeIdentifier_eq_iff (name other : String) :
    sanitizeIdentifier name = sanitizeIdentifier other ↔ LooksLike name other := by
  rw [sanitizeIdentifier, sanitizeIdentifier, String.ofList_inj, map_eq_map_iff_forall₂, LooksLike]
  simp only [replaced_eq_iff]

/-- What an identifier starts with is a digit just when its name starts with one. -/
theorem startsWord_replaced_iff (c : Char) :
    startsWord (if isIdentifierChar c then c else '_') = true ↔ c.isDigit = false := by
  by_cases kept : isIdentifierChar c
  · rw [if_pos kept]
    refine ⟨isDigit_eq_false_of_startsWord, fun noDigit => ?_⟩
    have letter : c.isAlpha = true := by
      simpa [isIdentifierChar, Char.isAlphanum, noDigit] using kept
    simp [startsWord, letter]
  · rw [if_neg kept]
    have noDigit : c.isDigit = false := by
      simp only [isIdentifierChar, Char.isAlphanum, Bool.or_eq_true, not_or] at kept
      simpa using kept.2
    exact iff_of_true (by decide) noDigit

/-- The identifier of a name is one of the language when the name starts with something else than a
digit and does not come to a keyword. -/
theorem isIdentifier_sanitizeIdentifier_iff (name : String) :
    IsIdentifier (sanitizeIdentifier name) ↔
      (∃ c ∈ name.toList.head?, c.isDigit = false) ∧ sanitizeIdentifier name ∉ keywords := by
  have inside : ∀ c ∈ (sanitizeIdentifier name).toList, inWord c = true :=
    fun _ => inWord_of_mem_sanitizeIdentifier
  have first : (sanitizeIdentifier name).toList.head? =
      name.toList.head?.map fun c => if isIdentifierChar c then c else '_' := by
    rw [sanitizeIdentifier, String.toList_ofList, List.head?_map]
  constructor
  · rintro ⟨⟨c, rest, shape, starts, -⟩, free⟩
    rw [shape, List.head?_cons, eq_comm, Option.map_eq_some_iff] at first
    obtain ⟨d, isFirst, rfl⟩ := first
    exact ⟨⟨d, isFirst, (startsWord_replaced_iff d).1 starts⟩, free⟩
  · rintro ⟨⟨d, isFirst, noDigit⟩, free⟩
    rw [Option.mem_def.1 isFirst, Option.map_some] at first
    obtain ⟨rest, shape⟩ := List.head?_eq_some_iff.1 first
    rw [shape] at inside
    exact ⟨⟨_, rest, shape, (startsWord_replaced_iff d).2 noDigit,
      (List.forall_mem_cons.1 inside).2⟩, free⟩

/-- Where no two members share a key, the members with the key of one are that one. -/
theorem filter_eq_singleton {α β : Type} [DecidableEq β] {key : α → β} {xs : List α} {x : α}
    (distinct : (xs.map key).Nodup) (member : x ∈ xs) : xs.filter (key · = key x) = [x] := by
  induction xs with
  | nil => cases member
  | cons y rest ih =>
    rw [List.map_cons, List.nodup_cons] at distinct
    rcases List.mem_cons.1 member with rfl | later
    · have others : rest.filter (key · = key x) = [] := by
        refine List.filter_eq_nil_iff.2 fun z inRest => ?_
        rw [decide_eq_true_iff]
        exact fun same => distinct.1 (List.mem_map.2 ⟨z, inRest, same⟩)
      rw [List.filter_cons_of_pos (by simp), others]
    · have other : key y ≠ key x := fun same =>
        distinct.1 (List.mem_map.2 ⟨x, later, same.symm⟩)
      rw [List.filter_cons_of_neg (by simpa using other)]
      exact ih distinct.2 later

namespace ResourceTable

variable (t : ResourceTable)

/-- The arrays that the table declares. -/
def declaredArrays : List ArrayHead := readDeclarations (linesText t.declarationLines)

/-- The arrays that the table defines. -/
def initializedArrays : List InitializedArray := readDefinitions (linesText t.definitionLines)

/-- Where an expression of the resource stands as it is, there stands the qualified identifier of
exactly one array that the table defines, and that one holds the bytes of the resource. -/
def Denotes (name : String) (bytes : List UInt8) : Prop :=
  ∃ array : InitializedArray, array.elements? = some (bytes.map UInt8.toNat) ∧
    t.initializedArrays.filter (·.head.identifier = array.head.identifier) = [array] ∧
    ∀ scope ty position, (Expr.node ⟨.resource name, ty⟩).text scope .plain position =
      .ok (resourceNamespace ++ "::" ++ array.head.identifier)

/-- The resources are told apart by proper identifiers. -/
structure IsIdentified : Prop where
  /-- Identifiers of the language are declared, so none is empty or starts with a digit. -/
  proper : ∀ head ∈ t.declaredArrays, IsIdentifier head.identifier
  /-- There is a declaration for each resource, and no two share an identifier. -/
  distinct : t.declaredArrays.length = t.size ∧ (t.declaredArrays.map ArrayHead.identifier).Nodup
  denotes : ∀ (name : String) (bytes : List UInt8), t[name]? = some bytes → t.Denotes name bytes

/-- The names suit the replacement of characters. -/
structure HasFitNames : Prop where
  /-- A name is not empty and starts with no digit. -/
  started : ∀ name ∈ t, ∃ c ∈ name.toList.head?, c.isDigit = false
  free : ∀ name ∈ t, sanitizeIdentifier name ∉ keywords
  apart : ∀ name ∈ t, ∀ other ∈ t, LooksLike name other → name = other

instance (name other : String) : Decidable (LooksLike name other) :=
  inferInstanceAs (Decidable (List.Forall₂ _ _ _))

/-- To look for the first character is to look at one, although there are only finitely many to try. -/
instance : Decidable t.HasFitNames :=
  decidable_of_iff ((∀ name ∈ t.keys, name.toList.head?.any (!·.isDigit) = true) ∧
      (∀ name ∈ t.keys, sanitizeIdentifier name ∉ keywords) ∧
      ∀ name ∈ t.keys, ∀ other ∈ t.keys, LooksLike name other → name = other) <| by
    simp only [Std.TreeMap.mem_keys, Option.any_eq_true, Bool.not_eq_eq_eq_not, Bool.not_true]
    exact ⟨fun ⟨started, free, apart⟩ => ⟨started, free, apart⟩,
      fun fit => ⟨fit.started, fit.free, fit.apart⟩⟩

theorem declaredArrays_eq : t.declaredArrays = t.toList.map fun r => resourceHead r.1 r.2 :=
  t.readDeclarations_declarationLines

theorem initializedArrays_eq :
    t.initializedArrays = t.toList.map fun r => ⟨resourceHead r.1 r.2, initializer r.2⟩ :=
  t.readDefinitions_definitionLines

theorem identifiers_declaredArrays :
    t.declaredArrays.map ArrayHead.identifier = t.keys.map sanitizeIdentifier := by
  rw [declaredArrays_eq, List.map_map, ← Std.TreeMap.map_fst_toList_eq_keys, List.map_map]
  rfl

theorem proper_iff : (∀ head ∈ t.declaredArrays, IsIdentifier head.identifier) ↔
    ∀ name ∈ t, IsIdentifier (sanitizeIdentifier name) := by
  rw [← List.forall_mem_map (f := ArrayHead.identifier), identifiers_declaredArrays,
    List.forall_mem_map]
  simp only [Std.TreeMap.mem_keys]

theorem distinct_iff : (t.declaredArrays.map ArrayHead.identifier).Nodup ↔
    ∀ name ∈ t, ∀ other ∈ t, LooksLike name other → name = other := by
  rw [identifiers_declaredArrays, List.nodup_map_iff_inj_on Std.TreeMap.nodup_keys]
  simp only [Std.TreeMap.mem_keys, sanitizeIdentifier_eq_iff]

/-- Where no two identifiers are the same, a reference picks out its array. -/
theorem denotes_of_nodup (distinct : (t.declaredArrays.map ArrayHead.identifier).Nodup)
    {name : String} {bytes : List UInt8} (found : t[name]? = some bytes) : t.Denotes name bytes := by
  have sameKeys : t.initializedArrays.map (·.head.identifier) =
      t.declaredArrays.map ArrayHead.identifier := by
    rw [initializedArrays_eq, declaredArrays_eq, List.map_map, List.map_map]
    rfl
  have defined : ⟨resourceHead name bytes, initializer bytes⟩ ∈ t.initializedArrays := by
    rw [initializedArrays_eq]
    exact List.mem_map.2 ⟨(name, bytes), mem_toList_iff.2 found, rfl⟩
  have apart : (t.initializedArrays.map (·.head.identifier)).Nodup := by rwa [sameKeys]
  exact ⟨⟨resourceHead name bytes, initializer bytes⟩, elements?_initializer _ bytes,
    filter_eq_singleton apart defined, fun _ _ _ => rfl⟩

/-- A table is sound just when its names suit the replacement of characters. -/
theorem isIdentified_iff : t.IsIdentified ↔ t.HasFitNames := by
  have lengths : t.declaredArrays.length = t.size := by
    rw [declaredArrays_eq, List.length_map, Std.TreeMap.length_toList]
  constructor
  · intro identified
    have proper := t.proper_iff.1 identified.proper
    exact {
      started := fun name member => ((isIdentifier_sanitizeIdentifier_iff name).1 (proper name member)).1
      free := fun name member => (proper name member).free
      apart := t.distinct_iff.1 identified.distinct.2 }
  · intro fit
    have distinct := t.distinct_iff.2 fit.apart
    exact {
      proper := t.proper_iff.2 fun name member =>
        (isIdentifier_sanitizeIdentifier_iff name).2 ⟨fit.started name member, fit.free name member⟩
      distinct := ⟨lengths, distinct⟩
      denotes := fun _ _ => t.denotes_of_nodup distinct }

end ResourceTable

/-- In the source of a program, the resources are told apart by proper identifiers exactly when no name
is empty, starts with a digit or comes to a keyword, and no two names differ only in characters that
are no ASCII letters or digits. -/
theorem resources_identified_iff (p : Program) (o : Options) (files : Artifacts)
    (printed : p.print o = .ok files) :
    (∃ definitions, files.source =
      linesText (Program.inclusionLines o) ++ linesText p.resources.declarationLines ++
        linesText (o.opening ++ definitions ++ o.closing) ++ linesText p.resources.definitionLines) ∧
    (p.resources.IsIdentified ↔ p.resources.HasFitNames) := by
  refine ⟨?_, p.resources.isIdentified_iff⟩
  rcases p.print_resources o with ⟨e, failed⟩ | ⟨header, definitions, -, carried⟩
  · have here : p.print o = .error e := failed p.resources
    rw [here] at printed
    cases printed
  · have here : p.print o = .ok _ := carried p.resources
    rw [here, Except.ok.injEq] at printed
    exact ⟨definitions.flatten, by rw [← printed]⟩

/-- A class with a constructor that mentions one of the resources. -/
def mentioning (name : String) (resources : List (String × List UInt8)) : Program where
  classes := #[⟨"Reader", none, .normal, some [.evaluate ⟨0⟩], [], [], []⟩]
  exprs := ⟨#[⟨.resource name, .arrayStorage (.integer ⟨.w8, false⟩) 1⟩]⟩
  resources := .ofList resources

/-- A name with directories, and one with a letter beyond ASCII. -/
def icons : Program := mentioning "icons/app.png" [("icons/app.png", [1]), ("ma\u00df.png", [])]

theorem resources_identified_iff_icons :
    ∃ files, icons.print {} = .ok files ∧ icons.resources.IsIdentified := by
  obtain ⟨files, printed⟩ := exists_of_isOk (r := icons.print {}) (by decide +kernel)
  have identified := (resources_identified_iff icons {} files printed).2
  exact ⟨files, printed, identified.2 (by decide +kernel)⟩

/-- A name that starts with a digit, and two that differ in a dot. -/
def clashing : Program := mentioning "a.b" [("1.png", [1]), ("a.b", [2]), ("a_b", [3])]

/-- One array has no proper identifier, and two have the same, which the constructor refers to. -/
theorem clashing_not_identified :
    clashing.print {} = .ok
      { headerPath := "out.hpp"
        header := "#pragma once\n#include <array>\n#include <memory>\n#include <string>\n" ++
          "#include <string_view>\n\nclass Reader;\n\nclass Reader\n\x7b\npublic:\n" ++
          "\tReader();\n\x7d;\n"
        sourcePath := "out.cpp"
        source := "#include <algorithm>\n#include <cmath>\n#include \"out.hpp\"\n" ++
          "using namespace std::string_view_literals;\n\n" ++
          "namespace\n\x7b\n\tnamespace TernResource\n\t\x7b\n" ++
          "\t\textern const std::array<uint8_t, 1> 1_png;\n" ++
          "\t\textern const std::array<uint8_t, 1> a_b;\n" ++
          "\t\textern const std::array<uint8_t, 1> a_b;\n\t\x7d\n\x7d\n\n" ++
          "Reader::Reader()\n\x7b\n\tTernResource::a_b;\n\x7d\n\n" ++
          "namespace\n\x7b\n\tnamespace TernResource\n\t\x7b\n" ++
          "\t\tconst std::array<uint8_t, 1> 1_png = \x7b\n\t\t\t1\n\t\t\x7d;\n" ++
          "\t\tconst std::array<uint8_t, 1> a_b = \x7b\n\t\t\t2\n\t\t\x7d;\n" ++
          "\t\tconst std::array<uint8_t, 1> a_b = \x7b\n\t\t\t3\n\t\t\x7d;\n\t\x7d\n\x7d\n" } ∧
      ¬ clashing.resources.IsIdentified :=
  ⟨eq_ok_of_toOption (by decide +kernel), fun identified =>
    absurd (clashing.resources.isIdentified_iff.1 identified) (by decide +kernel)⟩

end CppPrinter
