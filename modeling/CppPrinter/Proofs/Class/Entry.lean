import CppPrinter.Class.Declaration
import CppPrinter.Proofs.Result

/-!
# The definition of a class, line by line

The sections of a class, one behind the other, are a list of entries with a line for each
(`Class.entries`, `Class.declarationLines_eq`). Every member has its entry, whatever its visibility:
the constructor has exactly one (`filter_isConstructor_entries`), and the entries of the methods are
the methods of the class in another order (`methods_perm`).
-/

namespace CppPrinter

namespace Class

/-- What one line in the definition of a class stands for. -/
inductive Entry where
  | access (keyword : String)
  | constructor
  | constant (k : Constant ExprId)
  | field (f : Field ExprId)
  | method (m : Method ExprId)

namespace Entry

def isConstructor : Entry → Bool
  | constructor => true
  | _ => false

/-- The method that the line declares. -/
def method? : Entry → Option (Method ExprId)
  | method m => some m
  | _ => none

/-- The line itself. The members stand deeper than the keywords of access. -/
def line (env : Env) (c : Class ExprId) : Entry → Rendered Line
  | access keyword => .ok (.flush (keyword ++ ":"))
  | constructor => .ok c.constructorLine.indent
  | constant k => Line.indent <$> do
    return .flush (← env.constant (camelCase k.name) k.ty k.value)
  | field f => Line.indent <$> do
    return .flush ((← env.declare (camelCase f.name) f.ty f.value) ++ ";")
  | method m => Line.indent <$> m.toSignature.declarationLine env.scope

end Entry

variable (c : Class ExprId)

/-- What the class declares at a visibility. -/
def membersOf (v : Visibility) : List Entry :=
  (if c.hasConstructorIn v then [Entry.constructor] else []) ++ (c.storedConstants v).map Entry.constant ++
    (c.fieldsOf v).map Entry.field ++ (c.methodsOf v).map Entry.method

/-- The lines of one section. -/
def entriesOf (v : Visibility) (keyword : String) : List Entry :=
  if c.isEmptyIn v then [] else .access keyword :: c.membersOf v

/-- The lines between the braces of the class. -/
def entries : List Entry := sections.flatMap fun s => c.entriesOf s.1 s.2

/-- Entries whose lines are those of a list, deeper by one step. -/
theorem mapM_line {α : Type} {env : Env} {entry : α → Entry} {f : α → Rendered Line}
    (same : ∀ x, (entry x).line env c = Line.indent <$> f x) (xs : List α) :
    (xs.map entry).mapM (Entry.line env c) = indented <$> xs.mapM f := by
  induction xs with
  | nil => rfl
  | cons x rest ih =>
    rw [List.map_cons, List.mapM_cons, List.mapM_cons, ih, same]
    simp [indented]

theorem sectionLines_eq (env : Env) (v : Visibility) (keyword : String) :
    c.sectionLines env v keyword = (c.entriesOf v keyword).mapM (Entry.line env c) := by
  unfold sectionLines entriesOf
  split
  · rfl
  · have start : (if c.hasConstructorIn v then [Entry.constructor] else []).mapM
        (Entry.line env c) =
          .ok (indented (if c.hasConstructorIn v then [c.constructorLine] else [])) := by
      split <;> rfl
    rw [List.mapM_cons, membersOf, List.mapM_append, List.mapM_append, List.mapM_append, start,
      c.mapM_line fun k => rfl, c.mapM_line fun f => rfl, c.mapM_line fun m => rfl]
    simp [memberLines, Entry.line, indented]

/-- The definition of the class is its head and, between braces, the lines of its entries. -/
theorem declarationLines_eq (env : Env) :
    c.declarationLines env = (do
      let head ← c.headText env.scope
      let body ← c.entries.mapM (Entry.line env c)
      return [Line.blank, .flush head, .flush "\x7b"] ++ body ++ [Line.flush "\x7d;"]) := by
  unfold declarationLines entries
  simp only [mapM_flatMap, sectionLines_eq, bind_assoc, pure_bind]

/-! ### Every member has its entry -/

/-- Whatever has a visibility stands in exactly one section. -/
theorem flatMap_sections_perm {α : Type} (visibility : α → Visibility) (xs : List α) :
    (sections.flatMap fun s => xs.filter (visibility · = s.1)).Perm xs := by
  induction xs with
  | nil => exact .nil
  | cons x rest ih =>
    refine List.Perm.trans ?_ (ih.cons x)
    cases seen : visibility x with
    | everywhere | descendants => simp [sections, seen]
    | unit =>
      simp only [sections, seen, List.flatMap_cons, List.filter_cons]
      exact (List.perm_middle.append_left _).trans List.perm_middle
    | ownClass =>
      simp only [sections, seen, List.flatMap_cons, List.filter_cons]
      exact ((List.perm_middle.append_left _).append_left _).trans
        ((List.perm_middle.append_left _).trans List.perm_middle)

/-- Just the sections without members are left out. -/
theorem membersOf_eq_nil_iff (v : Visibility) : c.membersOf v = [] ↔ c.isEmptyIn v = true := by
  cases here : c.hasConstructorIn v <;> simp [membersOf, isEmptyIn, here, and_assoc]

/-- The members of a class are its entries but for the keywords of access. -/
theorem mem_entries_iff {e : Entry} (noKeyword : ∀ keyword, e ≠ .access keyword) :
    e ∈ c.entries ↔ ∃ v, e ∈ c.membersOf v := by
  have inSection (v : Visibility) (keyword : String) :
      e ∈ c.entriesOf v keyword ↔ e ∈ c.membersOf v := by
    unfold entriesOf
    split
    · rename_i empty
      rw [(c.membersOf_eq_nil_iff _).2 empty]
    · rw [List.mem_cons]
      exact or_iff_right (noKeyword keyword)
  rw [entries, List.mem_flatMap]
  constructor
  · rintro ⟨s, -, member⟩
    exact ⟨s.1, (inSection s.1 s.2).1 member⟩
  · rintro ⟨v, member⟩
    obtain ⟨s, listed, rfl⟩ : ∃ s ∈ sections, s.1 = v := by
      cases v <;> simp [sections]
    exact ⟨s, listed, (inSection s.1 s.2).2 member⟩

theorem field_mem_entries_iff {f : Field ExprId} : .field f ∈ c.entries ↔ f ∈ c.fields := by
  rw [c.mem_entries_iff (e := .field f) fun _ => nofun]
  simp [membersOf, fieldsOf]

theorem method_mem_entries_iff {m : Method ExprId} : .method m ∈ c.entries ↔ m ∈ c.methods := by
  rw [c.mem_entries_iff (e := .method m) fun _ => nofun]
  simp [membersOf, methodsOf]

theorem constant_mem_entries_iff {k : Constant ExprId} :
    .constant k ∈ c.entries ↔ k ∈ c.constants ∧ k.ty.isArrayStorage = true := by
  rw [c.mem_entries_iff (e := .constant k) fun _ => nofun]
  simp [membersOf, storedConstants]

/-- What is picked from the members of the sections is picked from all entries. -/
theorem filterMap_entries {α : Type} (pick : Entry → Option α)
    (noKeyword : ∀ keyword, pick (.access keyword) = none) :
    c.entries.filterMap pick = sections.flatMap fun s => (c.membersOf s.1).filterMap pick := by
  rw [entries, List.filterMap_flatMap]
  congr 1
  funext s
  unfold entriesOf
  split
  · rename_i empty
    rw [(c.membersOf_eq_nil_iff _).2 empty]
  · rw [List.filterMap_cons, noKeyword]

/-- What is picked from each visibility as a list is picked from the entries, in another order. -/
theorem filterMap_entries_perm {α : Type} {pick : Entry → Option α} {xs : List α}
    (visibility : α → Visibility) (noKeyword : ∀ keyword, pick (.access keyword) = none)
    (picked : ∀ v, (c.membersOf v).filterMap pick = xs.filter (visibility · = v)) :
    (c.entries.filterMap pick).Perm xs := by
  rw [c.filterMap_entries pick noKeyword]
  simp only [picked]
  exact flatMap_sections_perm visibility xs

/-- A choice among the members of a visibility looks at each sort apart. -/
theorem filterMap_membersOf {α : Type} (pick : Entry → Option α) {v : Visibility}
    (noConstructor : pick .constructor = none) :
    (c.membersOf v).filterMap pick =
      (c.storedConstants v).filterMap (fun k => pick (.constant k)) ++
        (c.fieldsOf v).filterMap (fun f => pick (.field f)) ++
        (c.methodsOf v).filterMap (fun m => pick (.method m)) := by
  have start : (if c.hasConstructorIn v then [Entry.constructor] else []).filterMap pick = [] := by
    split <;> simp [noConstructor]
  simp [membersOf, start]

theorem filterMap_method?_membersOf (v : Visibility) :
    (c.membersOf v).filterMap Entry.method? = c.methodsOf v := by
  simp [c.filterMap_membersOf Entry.method? rfl, Entry.method?]

/-- The entries of the methods are the methods of the class. -/
theorem methods_perm : (c.entries.filterMap Entry.method?).Perm c.methods :=
  c.filterMap_entries_perm (·.visibility) (fun _ => rfl) c.filterMap_method?_membersOf

/-- The constructor is declared once. -/
theorem filter_isConstructor_entries : c.entries.filter Entry.isConstructor = [.constructor] := by
  have members (v : Visibility) : (c.membersOf v).filter Entry.isConstructor =
      if c.hasConstructorIn v then [.constructor] else [] := by
    have start : (if c.hasConstructorIn v then [Entry.constructor] else []).filter
        Entry.isConstructor = if c.hasConstructorIn v then [.constructor] else [] := by
      split <;> rfl
    simp [membersOf, start, Entry.isConstructor]
  rw [← List.filterMap_eq_filter, c.filterMap_entries _ fun _ => rfl]
  simp only [List.filterMap_eq_filter, members]
  cases kind : c.kind <;> simp [sections, hasConstructorIn, kind, ClassKind.constructorVisibility]

end Class

end CppPrinter
