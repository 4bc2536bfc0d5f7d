import CppPrinter.Proofs.Reference.Program
import CppPrinter.Proofs.Resource.Order
import CppPrinter.Proofs.Resource.Table

/-!
# The resources of a program

A table of resources is known by what its names stand for, so it does not matter in what order the
resources came into it (`ResourceTable.toList_insertAll_of_perm`). In the source of a program the two
tables stand around the definitions of the classes, which do not depend on them, and neither does the
header (`Program.print_resources`). Together with what is read back from the tables this is
`resources_carried`.
-/

namespace CppPrinter

namespace ResourceTable

variable (t : ResourceTable)

/-- The resources in order of their names, and the names differ. -/
theorem pairwise_toList : t.toList.Pairwise fun r s => r.1 < s.1 :=
  Std.TreeMap.ordered_keys_toList.imp compare_lt_iff_lt.1

theorem mem_toList_iff {t : ResourceTable} {name : String} {bytes : List UInt8} :
    (name, bytes) ∈ t.toList ↔ t[name]? = some bytes :=
  Std.TreeMap.mem_toList_iff_getElem?_eq_some

/-- A table is known by what its names stand for. -/
theorem toList_congr {t u : ResourceTable} (same : ∀ name : String, t[name]? = u[name]?) :
    t.toList = u.toList := by
  have distinct : ∀ v : ResourceTable, v.toList.Nodup := fun v =>
    v.pairwise_toList.imp fun lower equal => absurd (congrArg Prod.fst equal) (ne_of_lt lower)
  have perm : t.toList.Perm u.toList :=
    (List.perm_ext_iff_of_nodup (distinct t) (distinct u)).2 fun (name, bytes) => by
      rw [mem_toList_iff, mem_toList_iff, same]
  exact perm.eq_of_pairwise (fun r s _ _ lower higher => absurd lower (lt_asymm higher))
    t.pairwise_toList u.pairwise_toList

/-- Puts resources into the table one after the other. -/
def insertAll (rs : List (String × List UInt8)) : ResourceTable :=
  rs.foldl (fun t r => t.insert r.1 r.2) t

/-- What a name stands for does not change if it is none of those put in. -/
theorem getElem?_insertAll_of_notMem {rs : List (String × List UInt8)} {name : String}
    (other : name ∉ rs.map Prod.fst) : (t.insertAll rs)[name]? = t[name]? := by
  induction rs generalizing t with
  | nil => rfl
  | cons r rest ih =>
    rw [List.map_cons, List.mem_cons, not_or] at other
    have kept : (t.insert r.1 r.2)[name]? = t[name]? := by
      rw [Std.TreeMap.getElem?_insert, if_neg]
      exact fun equal => other.1 (Std.LawfulEqCmp.eq_of_compare equal).symm
    rw [insertAll, List.foldl_cons]
    exact (ih (t.insert r.1 r.2) other.2).trans kept

/-- A name put in once stands for the bytes it was put in with. -/
theorem getElem?_insertAll_of_mem {rs : List (String × List UInt8)} {name : String}
    {bytes : List UInt8} (distinct : (rs.map Prod.fst).Nodup) (member : (name, bytes) ∈ rs) :
    (t.insertAll rs)[name]? = some bytes := by
  induction rs generalizing t with
  | nil => cases member
  | cons r rest ih =>
    rw [List.map_cons, List.nodup_cons] at distinct
    rw [insertAll, List.foldl_cons]
    rcases List.mem_cons.1 member with rfl | later
    · refine (getElem?_insertAll_of_notMem _ distinct.1).trans ?_
      rw [Std.TreeMap.getElem?_insert_self]
    · exact ih (t.insert r.1 r.2) distinct.2 later

/-- Resources of different names may be put in in any order. -/
theorem toList_insertAll_of_perm {rs ss : List (String × List UInt8)}
    (distinct : (rs.map Prod.fst).Nodup) (perm : rs.Perm ss) :
    (t.insertAll rs).toList = (t.insertAll ss).toList := by
  have names : (rs.map Prod.fst).Perm (ss.map Prod.fst) := perm.map Prod.fst
  refine toList_congr fun name => ?_
  by_cases named : name ∈ rs.map Prod.fst
  · obtain ⟨⟨_, bytes⟩, member, rfl⟩ := List.mem_map.1 named
    rw [t.getElem?_insertAll_of_mem distinct member,
      t.getElem?_insertAll_of_mem (names.nodup_iff.1 distinct) (perm.mem_iff.1 member)]
  · rw [t.getElem?_insertAll_of_notMem named,
      t.getElem?_insertAll_of_notMem fun other => named (names.mem_iff.2 other)]

/-- Both tables are printed from the list of the resources. -/
theorem lines_congr {t u : ResourceTable} (same : t.toList = u.toList) :
    t.declarationLines = u.declarationLines ∧ t.definitionLines = u.definitionLines := by
  have empty : t.isEmpty = u.isEmpty := by
    rw [← Std.TreeMap.isEmpty_toList, ← Std.TreeMap.isEmpty_toList, same]
  unfold declarationLines definitionLines
  rw [empty, same]
  exact ⟨rfl, rfl⟩

end ResourceTable

/-- What a definition has to say of a resource: its identifier, its length, its bytes in order, and
lines of at most sixteen bytes with commas between them. -/
structure InitializedArray.Carries (a : InitializedArray) (r : String × List UInt8) : Prop where
  identifier : a.head.identifier = sanitizeIdentifier r.1
  length : a.head.length = r.2.length
  elements : a.elements? = some (r.2.map UInt8.toNat)
  wrapped : a.IsWrapped

namespace Program

variable (p : Program) (o : Options)

/-- Adds resources one after the other. -/
def addResources (rs : List (String × List UInt8)) : Program :=
  rs.foldl (fun p r => (p.addResource r.1 r.2).2) p

theorem addResources_eq (rs : List (String × List UInt8)) :
    p.addResources rs = { p with resources := p.resources.insertAll rs } := by
  induction rs generalizing p with
  | nil => rfl
  | cons r rest ih => exact ih (p.addResource r.1 r.2).2

/-- The lines of the source before the declarations of the resources. -/
def inclusionLines : List Line :=
  sourceIncludes.map includeLine ++
    [Line.flush ("#include \"" ++ o.headerName ++ "\""),
      .flush "using namespace std::string_view_literals;"]

/-- Where a print succeeds and what it says depends on the resources in the two tables alone, which
stand in the source around the definitions of the classes. -/
theorem print_resources : (∃ e, ∀ t, ({ p with resources := t } : Program).print o = .error e) ∨
    ∃ header definitions, p.classes.toList.mapM (Class.definitionLines p.env) = .ok definitions ∧
      ∀ t : ResourceTable, ({ p with resources := t } : Program).print o = .ok
        { headerPath := o.headerPath
          header := header
          sourcePath := o.sourcePath
          source := linesText (inclusionLines o) ++ linesText t.declarationLines ++
            linesText (o.opening ++ definitions.flatten ++ o.closing) ++
            linesText t.definitionLines } := by
  have whole : ∀ t : ResourceTable, ({ p with resources := t } : Program).print o = (do
      let header ← p.headerLines o
      let definitions ← p.classes.toList.mapM (Class.definitionLines p.env)
      return ⟨o.headerPath, linesText header, o.sourcePath,
        linesText (inclusionLines o ++ t.declarationLines ++ o.opening ++ definitions.flatten ++
          o.closing ++ t.definitionLines)⟩) := by
    intro t
    rw [print_eq]
    exact bind_congr fun header => by rw [sourceLines, bind_assoc]; rfl
  cases header : p.headerLines o with
  | error e =>
    refine .inl ⟨e, fun t => ?_⟩
    rw [whole t, header]
    rfl
  | ok headerLines =>
    cases printed : p.classes.toList.mapM (Class.definitionLines p.env) with
    | error e =>
      refine .inl ⟨e, fun t => ?_⟩
      rw [whole t, header, printed]
      rfl
    | ok definitions =>
      refine .inr ⟨linesText headerLines, definitions, rfl, fun t => ?_⟩
      rw [whole t, header, printed]
      simp only [ok_bind, pure_eq_ok, linesText_append, String.append_assoc]

/-- Programs whose tables of resources are printed alike are printed alike. -/
theorem print_congr_resources {t u : ResourceTable} (same : t.toList = u.toList) :
    ({ p with resources := t } : Program).print o = ({ p with resources := u } : Program).print o := by
  obtain ⟨declared, defined⟩ := ResourceTable.lines_congr same
  rcases p.print_resources o with ⟨e, failed⟩ | ⟨header, definitions, -, printed⟩
  · rw [failed, failed]
  · rw [printed, printed, declared, defined]

end Program

/-- The tables of a program carry its resources exactly. What is read back from the definitions is one
array for each resource, in the order of the bytes of the names, and the declarations name the same
arrays in the same order. It does not matter in what order resources of different names are added, and
neither the header nor the definitions of the classes depend on them. -/
theorem resources_carried (p : Program) (o : Options) :
    (∃ resources : List (String × List UInt8),
      (∀ name bytes, (name, bytes) ∈ resources ↔ p.resources[name]? = some bytes) ∧
      resources.Pairwise (fun r s => bytesOf r.1 < bytesOf s.1) ∧
      List.Forall₂ InitializedArray.Carries
        (readDefinitions (linesText p.resources.definitionLines)) resources ∧
      readDeclarations (linesText p.resources.declarationLines) =
        (readDefinitions (linesText p.resources.definitionLines)).map InitializedArray.head) ∧
    (∀ rs ss : List (String × List UInt8), (rs.map Prod.fst).Nodup → rs.Perm ss →
      (p.addResources rs).resources.declarationLines =
        (p.addResources ss).resources.declarationLines ∧
      (p.addResources rs).resources.definitionLines =
        (p.addResources ss).resources.definitionLines ∧
      (p.addResources rs).print o = (p.addResources ss).print o) ∧
    ((∃ e, ∀ t, ({ p with resources := t } : Program).print o = .error e) ∨
      ∃ header definitions, p.classes.toList.mapM (Class.definitionLines p.env) = .ok definitions ∧
        ∀ t : ResourceTable, ({ p with resources := t } : Program).print o = .ok
          { headerPath := o.headerPath
            header := header
            sourcePath := o.sourcePath
            source := linesText (Program.inclusionLines o) ++ linesText t.declarationLines ++
              linesText (o.opening ++ definitions.flatten ++ o.closing) ++
              linesText t.definitionLines }) := by
  refine ⟨⟨p.resources.toList, fun _ _ => ResourceTable.mem_toList_iff,
    p.resources.pairwise_toList.imp bytesOf_lt, ?_, ?_⟩, ?_, p.print_resources o⟩
  · rw [ResourceTable.readDefinitions_definitionLines, List.forall₂_map_left_iff,
      List.forall₂_same]
    exact fun r _ => ⟨rfl, rfl, elements?_initializer _ r.2, isWrapped_initializer _ r.2⟩
  · rw [ResourceTable.readDefinitions_definitionLines,
      ResourceTable.readDeclarations_declarationLines, List.map_map]
    rfl
  · intro rs ss distinct perm
    have same := p.resources.toList_insertAll_of_perm distinct perm
    obtain ⟨declared, defined⟩ := ResourceTable.lines_congr same
    rw [p.addResources_eq rs, p.addResources_eq ss]
    exact ⟨declared, defined, p.print_congr_resources o same⟩

/-- A file of seventeen bytes, which takes two lines, and an empty one. -/
def logoAndNothing : List (String × List UInt8) :=
  [("logo.png", [137, 80, 78, 71, 13, 10, 26, 10, 0, 0, 0, 13, 73, 72, 68, 82, 255]), ("a-b", [])]

theorem resources_carried_logoAndNothing : (logoAndNothing.map Prod.fst).Nodup ∧
    logoAndNothing.Perm logoAndNothing.reverse ∧
    (Program.addResources {} logoAndNothing).print {} =
      (Program.addResources {} logoAndNothing.reverse).print {} := by
  have distinct : (logoAndNothing.map Prod.fst).Nodup := by decide
  have perm : logoAndNothing.Perm logoAndNothing.reverse := (List.reverse_perm _).symm
  exact ⟨distinct, perm, ((resources_carried {} {}).2.1 _ _ distinct perm).2.2⟩

end CppPrinter
