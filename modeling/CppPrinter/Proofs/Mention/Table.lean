import CppPrinter.Proofs.Bracket.Program
import CppPrinter.Proofs.Mention.Class
import CppPrinter.Proofs.Resource.Identifier

/-!
# Lines around the classes

Neither the table of resources nor the inclusions and the namespace refer to a resource
(`ResourceTable.declarationLines_keep`, `ResourceTable.definitionLines_keep`, `inclusionLines_refer`),
and the declarations of the table declare the identifiers of all resources
(`ResourceTable.mem_declared_iff`).
-/

namespace CppPrinter

/-- Lines that refer to nothing keep to any identifiers. -/
theorem Refers.keeps {ls : List Line} (h : Refers ls ∅) (ids : Set String) : Keeps ids ls :=
  fun line member => ⟨h.whole line member, fun id refers =>
    absurd ((h.exact id).1 ⟨line, member, refers⟩) (Set.notMem_empty id)⟩

theorem Keeps.commaLines {ids : Set String} {items : List String}
    (each : ∀ item ∈ items, Cites item ∅) : Keeps ids (commaLines items) := by
  induction items with
  | nil => exact .nil
  | cons item rest ih =>
    obtain ⟨here, later⟩ := List.forall_mem_cons.1 each
    cases rest with
    | nil => exact .line (.of_silent here)
    | cons next rest => exact (Keeps.line (.of_silent (here.followed (by decide)))).cons (ih later)

/-! ### Namespaces -/

/-- The name of a namespace is no reference, even where it is that of the table. -/
theorem namespaceLine_refers {name : String} (h : IsWord name) :
    Refers [.flush ("namespace " ++ name)] ∅ := by
  have lead : ∀ c ∈ "namespace ".toList, c ≠ '\n' ∧ c ≠ '\t' := by decide
  have smooth : (Line.flush ("namespace " ++ name)).IsSmooth := by
    rw [Line.IsSmooth, Line.flush, Line.contents, String.toList_append]
    exact List.forall_mem_append.2 ⟨lead, fun c member => smooth_of_inWord (h.inside c member)⟩
  have read : Cursor.gap.read "namespace ".toList = ([], .gap) := by decide
  have silent : references ("namespace " ++ name).toList = [] := by
    rw [references, String.toList_append, Cursor.read_append, read, Cursor.read_of_isWord h]
    rfl
  exact .quiet smooth.isWhole silent (IsInternal.of_head "namespace " (by decide) name).undeclared

namespace Options

variable {o : Options} (named : o.IsNamed)

include named

theorem opening_refers : Refers o.opening ∅ := by
  unfold opening
  cases given : o.namespaceName with
  | none => exact .nil
  | some name =>
    have head := namespaceLine_refers (named.namespaceName name given).isWord
    exact ((Refers.fixed (by decide) (by decide)).behind head).behind .blank

omit named in
theorem closing_refers (o : Options) : Refers o.closing ∅ := by
  unfold closing
  cases o.namespaceName with
  | none => exact .nil
  | some name => exact .fixed (by decide) (by decide)

end Options

/-! ### Inclusions -/

theorem includeLines_refer : Refers (headerIncludes.map includeLine) ∅ ∧
    Refers (sourceIncludes.map includeLine) ∅ := by
  have each : ∀ names ∈ [headerIncludes, sourceIncludes], ∀ name ∈ names,
      IsPlain ("#include <" ++ name ++ ">") ∧ IsInternal ("#include <" ++ name ++ ">") := by decide +kernel
  have whole : ∀ names ∈ [headerIncludes, sourceIncludes], Refers (names.map includeLine) ∅ :=
    fun names listed => .of_each_silent (List.forall_mem_map.2 fun name member =>
      .fixed (each names listed name member).1 (each names listed name member).2)
  exact ⟨whole _ (by simp), whole _ (by simp)⟩

/-- Between its delimiters a literal refers to nothing. -/
theorem Cursor.read_inside {delimiter : Char} {cs : List Char} (free : ∀ c ∈ cs, c ≠ delimiter) :
    ∀ p ∈ [inside delimiter, escape delimiter], ∃ q ∈ [inside delimiter, escape delimiter],
      p.read cs = ([], q) := by
  induction cs with
  | nil => exact fun p place => ⟨p, place, rfl⟩
  | cons c rest ih =>
    obtain ⟨here, later⟩ := List.forall_mem_cons.1 free
    intro p place
    have silent : p.ended c = [] := by
      rcases List.mem_pair.1 place with rfl | rfl <;> simp [ended, pending]
    have stays : p.step c ∈ [inside delimiter, escape delimiter] := by
      rcases List.mem_pair.1 place with rfl | rfl
      · simp only [step, if_neg here]
        split <;> simp
      · simp [step]
    obtain ⟨q, place', read⟩ := ih later (p.step c) stays
    exact ⟨q, place', by rw [Cursor.read, silent, read]; rfl⟩

/-- The header is included by a literal, which refers to nothing. -/
theorem headerInclusion_refers {o : Options} (named : o.IsNamed) :
    Refers [.flush ("#include \x22" ++ o.headerName ++ "\x22")] ∅ := by
  have opens : Cursor.gap.read "#include \x22".toList = ([], .inside '\x22') := by decide
  obtain ⟨q, place, read⟩ := Cursor.read_inside (fun c member => (named.headerName c member).1)
    (.inside '\x22') (by simp)
  have closes : (q.read "\x22".toList).1 ++ (q.read "\x22".toList).2.pending = [] := by
    rcases List.mem_pair.1 place with rfl | rfl
    · rfl
    · rfl
  refine .quiet ⟨?_, ?_⟩ ?_ ?_
  · have fixed : ∀ c ∈ "#include \x22".toList ++ "\x22".toList, c ≠ '\n' := by decide
    obtain ⟨front, behind⟩ := List.forall_mem_append.1 fixed
    rw [Line.flush, Line.contents, String.toList_append, String.toList_append]
    exact List.forall_mem_append.2 ⟨List.forall_mem_append.2
      ⟨front, fun c member => (named.headerName c member).2⟩, behind⟩
  · have first : "#include \x22".toList.head? = some '#' := by decide
    rw [Line.flush, Line.contents, String.toList_append, String.toList_append, List.append_assoc,
      List.head?_append, first, Option.some_or]
    decide
  · rw [Line.flush, Line.contents, references, String.toList_append, String.toList_append,
      Cursor.read_append, Cursor.read_append, opens, read]
    exact closes
  · exact ((IsInternal.of_head "#include \x22" (by decide) o.headerName).followed (by decide)).undeclared

/-- What stands in front of the declarations of the resources in the source refers to nothing. -/
theorem inclusionLines_refer {o : Options} (named : o.IsNamed) :
    Refers (Program.inclusionLines o) ∅ := by
  have literals : Refers [.flush "using namespace std::string_view_literals;"] ∅ :=
    .fixed (by decide) (by decide)
  exact (literals.behind (headerInclusion_refers named)).behind includeLines_refer.2

/-! ### Tables -/

/-- The array of a resource refers to nothing, even where its identifier is that of the namespace. -/
theorem cites_resourceDeclaration (name : String) (bytes : List UInt8) {tail : String}
    (fixed : IsTail tail) (apart : tail.toList.head?.any (· != ':') = true) :
    Cites (resourceDeclaration name bytes ++ tail) ∅ := by
  have length : Cites ("const std::array<uint8_t, " ++ toString bytes.length) ∅ :=
    (cites_repr bytes.length).headed (by decide)
  have identifier : Cites (sanitizeIdentifier name ++ tail) ∅ :=
    .word_closed (fun _ => inWord_of_mem_sanitizeIdentifier) fixed apart
  have whole := identifier.behind (by decide : IsJoint "> ") length
  rwa [← String.append_assoc] at whole

theorem cites_byteLine (bytes : List UInt8) : Cites (byteLine bytes) ∅ :=
  .intercalate_silent (List.forall_mem_map.2 fun byte _ => cites_repr byte.toNat)

theorem resourceDefinition_keeps (ids : Set String) (name : String) (bytes : List UInt8) :
    Keeps ids (resourceDefinition name bytes) := by
  have head : Cites (resourceDeclaration name bytes ++ " = \x7b") ∅ :=
    cites_resourceDeclaration name bytes (by decide) (by decide)
  have elements : Keeps ids (commaLines ((chunks bytesPerLine bytes).map byteLine)) :=
    .commaLines (List.forall_mem_map.2 fun line _ => cites_byteLine line)
  exact (Keeps.line (.of_silent head)).cons
    (elements.indented.append (.line (.of_plain (by decide))))

theorem inResourceNamespace_keeps {ids : Set String} {body : List Line} (h : Keeps ids body) :
    Keeps ids (inResourceNamespace body) := by
  have word : IsWord resourceNamespace := ⟨by decide, by decide⟩
  have inner : Keeps ids [.flush ("namespace " ++ resourceNamespace)] :=
    (namespaceLine_refers word).keeps ids
  exact (Keeps.blank.append (.line (.of_plain (by decide)))).append (inner.append h.braced).braced

namespace ResourceTable

variable (t : ResourceTable)

theorem declarationLines_keep (ids : Set String) : Keeps ids t.declarationLines := by
  unfold declarationLines
  split
  · exact .nil
  · refine inResourceNamespace_keeps (.of_each (List.forall_mem_map.2 fun r _ => ?_))
    have cites : Cites (resourceDeclaration r.1 r.2 ++ ";") ∅ :=
      cites_resourceDeclaration r.1 r.2 (by decide) (by decide)
    have whole := cites.headed (by decide : IsLead "extern ")
    rw [← String.append_assoc] at whole
    exact .line (.of_silent whole)

theorem definitionLines_keep (ids : Set String) : Keeps ids t.definitionLines := by
  unfold definitionLines
  split
  · exact .nil
  · rw [List.flatMap_def]
    exact inResourceNamespace_keeps (.flatten (List.forall_mem_map.2 fun r _ =>
      resourceDefinition_keeps ids r.1 r.2))

/-- The table declares the identifiers of all resources. -/
theorem mem_declared_iff {id : String} :
    id ∈ declared (t.declarationLines.map Line.contents) ↔
      ∃ name ∈ t, sanitizeIdentifier name = id := by
  have whole : ∀ line ∈ t.declarationLines, line.IsWhole := fun line member =>
    (t.declarationLines_keep ∅ line member).1
  have nothing : externArray? [] = none := by decide
  have read : declared (t.declarationLines.map Line.contents) =
      t.declaredArrays.map ArrayHead.identifier := by
    rw [declaredArrays, readDeclarations, textLines_linesText whole, List.filterMap_append,
      declared, ← externArray?, List.filterMap_cons_none nothing, List.filterMap_nil, List.append_nil]
  rw [read, identifiers_declaredArrays, List.mem_map]
  simp only [Std.TreeMap.mem_keys]

end ResourceTable

end CppPrinter
