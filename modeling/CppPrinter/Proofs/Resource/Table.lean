import CppPrinter.Proofs.Resource.Initializer

/-!
# The tables carry the resources

What is read back from the two tables of resources are the resources in the order of their names:
the definitions hold the bytes, and the declarations name the same arrays in the same order
(`readDefinitions_definitionLines`, `readDeclarations_declarationLines`). No name gets in the way of
this, because an identifier has no character in it that ends one, and no line between two arrays
starts like one.
-/

namespace CppPrinter

/-- The array of a resource. -/
def resourceHead (name : String) (bytes : List UInt8) : ArrayHead :=
  ⟨bytes.length, sanitizeIdentifier name⟩

/-- The line that names the array of a resource, in characters. -/
theorem toList_resourceDeclaration (name : String) (bytes : List UInt8) :
    (resourceDeclaration name bytes).toList = "const std::array<uint8_t, ".toList ++
      (toString bytes.length).toList ++ ['>', ' '] ++ (sanitizeIdentifier name).toList := by
  have between : "> ".toList = ['>', ' '] := by decide
  unfold resourceDeclaration
  rw [String.toList_append, String.toList_append, String.toList_append, between]

/-- No end of line and no tab. -/
theorem smooth_of_inWord {c : Char} (h : inWord c = true) : c ≠ '\n' ∧ c ≠ '\t' := by
  constructor <;> rintro rfl <;> exact absurd h (by decide)

theorem smooth_resourceDeclaration (name : String) (bytes : List UInt8) :
    ∀ c ∈ (resourceDeclaration name bytes).toList, c ≠ '\n' ∧ c ≠ '\t' := by
  intro c member
  have fixed : ∀ c ∈ "const std::array<uint8_t, ".toList ++ ['>', ' '], c ≠ '\n' ∧ c ≠ '\t' := by
    decide
  rw [toList_resourceDeclaration] at member
  simp only [List.mem_append] at member
  rcases member with ((lead | digit) | between) | word
  · exact fixed c (List.mem_append_left _ lead)
  · exact smooth_of_inWord (inWord_of_isDigit (isDigit_of_mem_repr digit))
  · exact fixed c (List.mem_append_right _ between)
  · exact smooth_of_inWord (inWord_of_mem_sanitizeIdentifier word)

/-- A line with fixed texts around the array of a resource. -/
theorem smooth_around (front back : String) (name : String) (bytes : List UInt8)
    (fixed : ∀ c ∈ front.toList ++ back.toList, c ≠ '\n' ∧ c ≠ '\t') :
    (Line.flush (front ++ resourceDeclaration name bytes ++ back)).IsSmooth := by
  intro c member
  rw [Line.flush, Line.contents, String.toList_append, String.toList_append] at member
  rcases List.mem_append.1 member with inside | behind
  · rcases List.mem_append.1 inside with before | array
    · exact fixed c (List.mem_append_left _ before)
    · exact smooth_resourceDeclaration name bytes c array
  · exact fixed c (List.mem_append_right _ behind)

theorem smooth_indented {ls : List Line} (smooth : ∀ line ∈ ls, line.IsSmooth) :
    ∀ line ∈ indented ls, line.IsSmooth := by
  intro line member
  obtain ⟨inner, inside, rfl⟩ := List.mem_map.1 member
  intro c here
  rw [Line.contents_indent] at here
  exact smooth inner inside c here

theorem smooth_resourceDefinition (name : String) (bytes : List UInt8) :
    ∀ line ∈ resourceDefinition name bytes, line.IsSmooth := by
  have opening := smooth_around "" " = \x7b" name bytes (by decide)
  rw [String.empty_append] at opening
  refine List.forall_mem_cons.2 ⟨opening, List.forall_mem_append.2
    ⟨smooth_indented fun line member c inside => ?_, List.forall_mem_singleton.2 (by decide)⟩⟩
  rcases of_mem_initializer (List.mem_map_of_mem member) inside with digit | rfl | rfl
  · exact smooth_of_inWord (inWord_of_isDigit digit)
  · decide
  · decide

/-- The lines around the entries of a table. -/
theorem smooth_inResourceNamespace {body : List Line} (smooth : ∀ line ∈ body, line.IsSmooth) :
    ∀ line ∈ inResourceNamespace body, line.IsSmooth := by
  have plain : ∀ text ∈ ["namespace", "\x7b", "\x7d", "namespace " ++ resourceNamespace],
      (Line.flush text).IsSmooth := by decide
  have block : ∀ {ls : List Line}, (∀ line ∈ ls, line.IsSmooth) →
      ∀ line ∈ braced ls, line.IsSmooth := by
    intro ls inner
    exact List.forall_mem_cons.2 ⟨plain _ (by simp), List.forall_mem_append.2
      ⟨smooth_indented inner, List.forall_mem_singleton.2 (plain _ (by simp))⟩⟩
  refine List.forall_mem_append.2 ⟨List.forall_mem_cons.2 ⟨nofun, List.forall_mem_singleton.2
    (plain _ (by simp))⟩, block (List.forall_mem_cons.2 ⟨plain _ (by simp), block smooth⟩)⟩

/-- What is read of a table: its entries between lines that name no array. -/
theorem contents_inResourceNamespace (body : List Line) :
    (inResourceNamespace body).map Line.contents =
      ["", "namespace", "\x7b", "namespace " ++ resourceNamespace, "\x7b"].map String.toList ++
        (body.map Line.contents ++ ["\x7d", "\x7d"].map String.toList) := by
  have block : ∀ ls, (braced ls).map Line.contents =
      "\x7b".toList :: (ls.map Line.contents ++ ["\x7d".toList]) := by
    intro ls
    rw [braced, List.map_cons, List.map_append, map_contents_indented]
    rfl
  rw [inResourceNamespace, List.map_append, block, List.map_cons (l := braced body), block]
  simp [Line.contents, Line.flush]

/-- The array of a declaration is read back. -/
theorem arrayHead?_declaration (name : String) (bytes : List UInt8) :
    arrayHead? "extern const std::array<uint8_t, ".toList ";".toList
      ("extern " ++ resourceDeclaration name bytes ++ ";").toList = some (resourceHead name bytes) := by
  have shape : ("extern " ++ resourceDeclaration name bytes ++ ";").toList =
      "extern const std::array<uint8_t, ".toList ++ (toString bytes.length).toList ++ ['>', ' '] ++
        (sanitizeIdentifier name).toList ++ ";".toList := by
    simp [toList_resourceDeclaration]
  have word : ∀ c ∈ (sanitizeIdentifier name).toList, inWord c = true := fun _ =>
    inWord_of_mem_sanitizeIdentifier
  have semicolon : ";".toList = [';'] := by decide
  have found := arrayHead?_eq_some "extern const std::array<uint8_t, ".toList bytes.length word
    semicolon (by decide)
  rw [shape, found, String.ofList_toList]
  rfl

/-- The array of a definition is read back. -/
theorem arrayHead?_definition (name : String) (bytes : List UInt8) :
    arrayHead? "const std::array<uint8_t, ".toList " = \x7b".toList
      (resourceDeclaration name bytes ++ " = \x7b").toList = some (resourceHead name bytes) := by
  have word : ∀ c ∈ (sanitizeIdentifier name).toList, inWord c = true := fun _ =>
    inWord_of_mem_sanitizeIdentifier
  have brace : " = \x7b".toList = [' ', '=', ' ', '\x7b'] := by decide
  have found := arrayHead?_eq_some "const std::array<uint8_t, ".toList bytes.length word brace
    (by decide)
  rw [String.toList_append, toList_resourceDeclaration, found, String.ofList_toList]
  rfl

/-- Lines that start unlike a definition define nothing. -/
theorem definedArrays_skip {xs : List (List Char)} (ys : List (List Char))
    (plain : ∀ line ∈ xs, line.head? ≠ some 'c') :
    definedArrays (xs ++ ys) = definedArrays ys := by
  induction xs with
  | nil => rfl
  | cons line rest ih =>
    obtain ⟨here, later⟩ := List.forall_mem_cons.1 plain
    have noHead : arrayHead? "const std::array<uint8_t, ".toList " = \x7b".toList line = none :=
      arrayHead?_eq_none here (by decide)
    rw [List.cons_append, definedArrays, noHead]
    exact ih later

/-- One definition is read back, and the reading goes on behind it. -/
theorem definedArrays_resourceDefinition (name : String) (bytes : List UInt8)
    (rest : List (List Char)) :
    definedArrays ((resourceDefinition name bytes).map Line.contents ++ rest) =
      ⟨resourceHead name bytes, initializer bytes⟩ :: definedArrays rest := by
  have shape : (resourceDefinition name bytes).map Line.contents ++ rest =
      (resourceDeclaration name bytes ++ " = \x7b").toList ::
        (initializer bytes ++ "\x7d;".toList :: rest) := by
    simp [resourceDefinition, map_contents_indented, initializer, Line.flush, Line.contents]
  have inLine : ∀ line ∈ initializer bytes, ∀ c, line.head? = some c → c ≠ 'c' ∧ c ≠ '\x7d' := by
    intro line member c first
    rcases of_mem_initializer member (List.mem_of_head? first) with digit | rfl | rfl
    · constructor <;> rintro rfl <;> cases digit
    · decide
    · decide
  have inner : (initializer bytes ++ "\x7d;".toList :: rest).takeWhile (· ≠ "\x7d;".toList) =
      initializer bytes := by
    rw [List.takeWhile_append_of_pos, List.takeWhile_cons_of_neg (by simp), List.append_nil]
    intro line member
    rw [decide_eq_true_iff]
    rintro rfl
    exact (inLine _ member '\x7d' (by decide)).2 rfl
  have behind : definedArrays (initializer bytes ++ "\x7d;".toList :: rest) = definedArrays rest := by
    rw [← List.singleton_append, ← List.append_assoc]
    refine definedArrays_skip rest (List.forall_mem_append.2 ⟨fun line member first => ?_,
      List.forall_mem_singleton.2 (by decide)⟩)
    exact (inLine line member 'c' first).1 rfl
  rw [shape, definedArrays, arrayHead?_definition]
  simp only [inner, behind]

theorem definedArrays_flatMap (entries : List (String × List UInt8)) (rest : List (List Char)) :
    definedArrays ((entries.flatMap fun r => resourceDefinition r.1 r.2).map Line.contents ++ rest) =
      (entries.map fun r => ⟨resourceHead r.1 r.2, initializer r.2⟩) ++ definedArrays rest := by
  induction entries with
  | nil => rfl
  | cons r entries ih =>
    rw [List.flatMap_cons, List.map_append, List.append_assoc, definedArrays_resourceDefinition, ih]
    rfl

namespace ResourceTable

variable (t : ResourceTable)

/-- The definitions are read back as the resources in order, with their lines. -/
theorem readDefinitions_definitionLines : readDefinitions (linesText t.definitionLines) =
    t.toList.map fun r => ⟨resourceHead r.1 r.2, initializer r.2⟩ := by
  unfold definitionLines
  split
  · rename_i empty
    have nothing : t.toList = [] := by
      rwa [← List.isEmpty_iff, Std.TreeMap.isEmpty_toList]
    rw [nothing]
    decide
  · have smooth : ∀ line ∈ t.toList.flatMap fun r => resourceDefinition r.1 r.2, line.IsSmooth := by
      intro line member
      obtain ⟨r, -, inside⟩ := List.mem_flatMap.1 member
      exact smooth_resourceDefinition r.1 r.2 line inside
    have whole := fun line member => (smooth_inResourceNamespace smooth line member).isWhole
    rw [readDefinitions, textLines_linesText whole, contents_inResourceNamespace, List.append_assoc,
      definedArrays_skip _ (by decide), List.append_assoc, definedArrays_flatMap,
      definedArrays_skip _ (by decide)]
    exact List.append_nil _

/-- The declarations name the arrays of the resources in order. -/
theorem readDeclarations_declarationLines : readDeclarations (linesText t.declarationLines) =
    t.toList.map fun r => resourceHead r.1 r.2 := by
  unfold declarationLines
  split
  · rename_i empty
    have nothing : t.toList = [] := by
      rwa [← List.isEmpty_iff, Std.TreeMap.isEmpty_toList]
    rw [nothing]
    decide
  · have smooth : ∀ line ∈ t.toList.map fun r => Line.flush
        ("extern " ++ resourceDeclaration r.1 r.2 ++ ";"), line.IsSmooth :=
      List.forall_mem_map.2 fun r _ => smooth_around _ _ r.1 r.2 (by decide)
    have arrays : ∀ entries : List (String × List UInt8),
        ((entries.map fun r => Line.flush ("extern " ++ resourceDeclaration r.1 r.2 ++ ";")).map
          Line.contents).filterMap
            (arrayHead? "extern const std::array<uint8_t, ".toList ";".toList) =
          entries.map fun r => resourceHead r.1 r.2 := by
      intro entries
      induction entries with
      | nil => rfl
      | cons r rest ih =>
        have here : arrayHead? "extern const std::array<uint8_t, ".toList ";".toList
            (Line.flush ("extern " ++ resourceDeclaration r.1 r.2 ++ ";")).contents =
              some (resourceHead r.1 r.2) := arrayHead?_declaration r.1 r.2
        rw [List.map_cons, List.map_cons, List.filterMap_cons_some here, ih, List.map_cons]
    have before : (["", "namespace", "\x7b", "namespace " ++ resourceNamespace, "\x7b"].map
        String.toList).filterMap (arrayHead? "extern const std::array<uint8_t, ".toList
          ";".toList) = [] := by decide
    have behind : (["\x7d", "\x7d"].map String.toList ++ [[]]).filterMap
        (arrayHead? "extern const std::array<uint8_t, ".toList ";".toList) = [] := by decide
    have whole := fun line member => (smooth_inResourceNamespace smooth line member).isWhole
    rw [readDeclarations, textLines_linesText whole, contents_inResourceNamespace, List.append_assoc,
      List.filterMap_append, before, List.append_assoc, List.filterMap_append, arrays, behind]
    exact List.append_nil _

end ResourceTable

end CppPrinter
