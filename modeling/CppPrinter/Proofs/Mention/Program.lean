import CppPrinter.Proofs.Mention.Table
import CppPrinter.Proofs.Order.Visit

/-!
# References behind their declarations

The declarations of the resources stand at one place of the source, behind the line that includes the
header. So whatever the source refers to is declared before, and what the header refers to is not: in
the translation unit, which has the lines of the header in place of that line, every reference stands
behind its declaration exactly when no value in the header mentions a resource
(`resources_declared_first_iff`).
-/

namespace CppPrinter

/-! ### The translation unit -/

/-- Some lines, in which those of the header stand in place of the first that includes a file by a name
between quotes. -/
def expanded (header : List (List Char)) : List (List Char) → List (List Char)
  | [] => []
  | line :: rest =>
    if "#include \x22".toList <+: line then header ++ rest else line :: expanded header rest

/-- The lines of the translation unit of the source. -/
def Artifacts.unitLines (f : Artifacts) : List (List Char) :=
  expanded (textLines f.header) (textLines f.source)

theorem expanded_append (header : List (List Char)) {front : List (List Char)}
    (other : ∀ line ∈ front, ¬ "#include \x22".toList <+: line) (ls : List (List Char)) :
    expanded header (front ++ ls) = front ++ expanded header ls := by
  induction front with
  | nil => rfl
  | cons line rest ih =>
    obtain ⟨here, later⟩ := List.forall_mem_cons.1 other
    rw [List.cons_append, expanded, if_neg here, ih later, List.cons_append]

/-! ### Resources of a program -/

/-- The resource that the shape stands for. -/
def Shape.resource? {ρ : Type} : Shape ρ → Option String
  | resource name => some name
  | _ => none

/-- Whatever the expressions stand for is a resource of the table. -/
def Program.ListsResources (p : Program) : Prop :=
  ∀ n ∈ p.exprs.nodes, ∀ name ∈ n.shape.resource?, name ∈ p.resources

instance (p : Program) : Decidable p.ListsResources :=
  inferInstanceAs (Decidable (∀ n ∈ p.exprs.nodes, ∀ name ∈ n.shape.resource?, name ∈ p.resources))

/-- A value that is printed in the header mentions the resource. -/
inductive Program.HeaderMentions (p : Program) (name : String) : Prop where
  /-- The value is that of a member of an enumeration. -/
  | member {e : Enum ExprId} {m : EnumMember ExprId} {id : ExprId} (enumeration : e ∈ p.enums)
      (listed : m ∈ e.members) (value : id ∈ m.value) (inside : (p.exprs.tree id).Mentions name)
  /-- The value is that of a constant array. -/
  | constant {c : Class ExprId} {k : Constant ExprId} (holder : c ∈ p.classes)
      (listed : k ∈ c.constants) (isStorage : k.ty.isArrayStorage = true)
      (inside : (p.exprs.tree k.value).Mentions name)
  /-- The value is the initial one of a field. -/
  | field {c : Class ExprId} {f : Field ExprId} {id : ExprId} (holder : c ∈ p.classes)
      (listed : f ∈ c.fields) (value : id ∈ f.value) (inside : (p.exprs.tree id).Mentions name)

/-- What an expression mentions is held by some node in it. -/
theorem Expr.Mentions.property {property : String → Prop} {e : Expr} {name : String}
    (every : e.Every fun n => ∀ name ∈ n.shape.resource?.toList, property name)
    (mentions : e.Mentions name) : property name := by
  induction mentions with
  | itself ty => exact every.parts.1 name (List.mem_singleton_self name)
  | operand n listed _ ih => exact ih (every.parts.2 _ (Shape.printedOperands_subset _ listed))

namespace Program

variable {p : Program} {o : Options}

/-- The identifiers that the source declares for the resources. -/
def declaredIdentifiers (p : Program) : Set String :=
  {id | id ∈ declared (p.resources.declarationLines.map Line.contents)}

/-- What expressions mention is declared by the table. -/
theorem ListsResources.mentioned_subset (lists : p.ListsResources) (id : ExprId) :
    p.env.mentioned id ⊆ p.declaredIdentifiers := by
  rintro x ⟨name, mentions, rfl⟩
  have held_map : ∀ {α β : Type} (f : α → β) (s : Shape α),
      (s.map f).resource?.toList = s.resource?.toList := fun f s => by cases s <;> rfl
  have every := Arena.every_tree (fun s => s.resource?.toList) held_map
    (fun n listed name held => lists n listed name (Option.mem_toList.1 held)) id
  exact p.resources.mem_declared_iff.2 ⟨name, mentions.property every, rfl⟩

/-- The identifiers to which the header refers. -/
def headerMentioned (p : Program) : Set String :=
  {id | ∃ name, p.HeaderMentions name ∧ sanitizeIdentifier name = id}

theorem mem_headerMentioned_iff {x : String} : x ∈ p.headerMentioned ↔
    (∃ e ∈ p.enums, x ∈ e.mentioned p.env) ∨ ∃ c ∈ p.classes, x ∈ c.mentioned p.env := by
  constructor
  · rintro ⟨name, mentions, rfl⟩
    cases mentions with
    | member enumeration listed value inside =>
      exact .inl ⟨_, enumeration, _, listed, _, value, name, inside, rfl⟩
    | constant holder listed isStorage inside =>
      exact .inr ⟨_, holder,
        Class.mem_mentioned_iff.2 (.inl ⟨_, listed, isStorage, name, inside, rfl⟩)⟩
    | field holder listed value inside =>
      exact .inr ⟨_, holder,
        Class.mem_mentioned_iff.2 (.inr ⟨_, listed, _, value, name, inside, rfl⟩)⟩
  · rintro (⟨e, enumeration, m, listed, id, value, name, inside, rfl⟩ | ⟨c, holder, mentioned⟩)
    · exact ⟨name, .member enumeration listed value inside, rfl⟩
    · rcases Class.mem_mentioned_iff.1 mentioned with
        ⟨k, listed, isStorage, name, inside, rfl⟩ | ⟨f, listed, id, value, name, inside, rfl⟩
      · exact ⟨name, .constant holder listed isStorage inside, rfl⟩
      · exact ⟨name, .field holder listed value inside, rfl⟩

/-- Whole lines are read back with the empty one behind the last end of a line. -/
theorem textLines_eq {ls : List Line} (whole : ∀ line ∈ ls, line.IsWhole) :
    textLines (linesText ls) = (ls ++ [Line.blank]).map Line.contents := by
  rw [textLines_linesText whole, List.map_append]
  rfl

section Lines

variable (names : p.EveryName IsOrdinary)

include names

theorem forwardLines_refer : Refers p.forwardLines ∅ := by
  unfold forwardLines
  split
  · exact .nil
  · refine (Refers.of_each_silent (List.forall_mem_map.2 fun c member => ?_)).behind .blank
    have name : Cites ("class " ++ c.name) ∅ :=
      (Cites.ordinary (names.classes c (Array.mem_toList_iff.1 member)).name).headed (by decide)
    exact .line (name.followed (by decide))
      ((IsInternal.of_head "class " (by decide) c.name).followed (by decide)).undeclared

theorem classLines_refer (id : ClassId) :
    Gives (Refers · {x | ∃ c, p.class? id = .ok c ∧ x ∈ c.mentioned p.env}) (p.classLines id) := by
  intro lines printed
  obtain ⟨c, found, declared⟩ := bind_eq_ok_iff.1 printed
  have own := names.classes c (Array.mem_of_getElem? (lookUp_eq_ok_iff.1 found))
  refine (Class.declarationLines_refer names.env own lines declared).congr ?_
  ext x
  simp [found]

/-- The header declares everything with what the values in it mention. -/
theorem declarationLines_refer : Gives (Refers · p.headerMentioned) p.declarationLines := by
  intro lines printed
  obtain ⟨order, ordered, rest⟩ := bind_eq_ok_iff.1 printed
  obtain ⟨enums, printedEnums, rest⟩ := bind_eq_ok_iff.1 rest
  obtain ⟨classes, printedClasses, result⟩ := bind_eq_ok_iff.1 rest
  cases result
  have enumLines := Refers.flatten (Gives.forall₂ (fun e member =>
    Enum.declarationLines_refer names.env (names.enums e (Array.mem_toList_iff.1 member)))
    enums printedEnums)
  have classLines := Refers.flatten
    (Gives.forall₂ (fun id _ => classLines_refer names id) classes printedClasses)
  refine ((enumLines.before (forwardLines_refer names)).append classLines).congr ?_
  -- Every class stands somewhere in the order.
  have complete := (settled_of_ordered ordered).2
  ext x
  rw [mem_headerMentioned_iff]
  refine or_congr (exists_congr fun e => and_congr_left fun _ => Array.mem_toList_iff) ?_
  constructor
  · rintro ⟨id, -, c, found, mentioned⟩
    exact ⟨c, Array.mem_of_getElem? (lookUp_eq_ok_iff.1 found), mentioned⟩
  · rintro ⟨c, holder, mentioned⟩
    obtain ⟨i, found⟩ := Array.getElem?_of_mem holder
    exact ⟨⟨i⟩, (complete ⟨i⟩).2 (Array.getElem?_eq_some_iff.1 found).1, c,
      lookUp_eq_ok_iff.2 found, mentioned⟩

variable (named : o.IsNamed)

include named

/-- The header refers to what the values in it mention. -/
theorem headerLines_refer : Gives (Refers · p.headerMentioned) (p.headerLines o) := by
  refine (declarationLines_refer names).bind fun _ inner => .ok ?_
  have pragma : Refers [.flush "#pragma once"] ∅ := .fixed (by decide) (by decide)
  have start : Refers (headerStart o) ∅ :=
    (Options.opening_refers named).behind (includeLines_refer.1.behind pragma)
  exact (inner.behind start).before o.closing_refers

/-- What is read back of both files: the header refers to what its values mention, and the source, behind
the declarations of the resources, to what these declare. -/
theorem exists_of_print (lists : p.ListsResources) {files : Artifacts}
    (printed : p.print o = .ok files) : ∃ header back : List Line,
      textLines files.header = header.map Line.contents ∧ Refers header p.headerMentioned ∧
      textLines files.source =
        (inclusionLines o ++ p.resources.declarationLines ++ back).map Line.contents ∧
      Keeps p.declaredIdentifiers back := by
  rw [print_eq, bind_eq_ok_iff] at printed
  obtain ⟨header, headerPrinted, rest⟩ := printed
  obtain ⟨source, sourcePrinted, result⟩ := bind_eq_ok_iff.1 rest
  obtain ⟨definitions, defined, same⟩ := bind_eq_ok_iff.1 sourcePrinted
  cases same
  rw [pure_eq_ok, Except.ok.injEq] at result
  subst result
  have inHeader := headerLines_refer names named header headerPrinted
  have bodies := Gives.mapM (fun c member => Class.definitionLines_keep names.env
    lists.mentioned_subset (names.classes c (Array.mem_toList_iff.1 member))) definitions defined
  obtain ⟨back, isBack⟩ : ∃ back, back = o.opening ++ definitions.flatten ++ o.closing ++
    p.resources.definitionLines := ⟨_, rfl⟩
  have kept : Keeps p.declaredIdentifiers back :=
    isBack ▸ ((((Options.opening_refers named).keeps _).append (.flatten bodies)).append
      (o.closing_refers.keeps _)).append (p.resources.definitionLines_keep _)
  have start := ((inclusionLines_refer named).keeps p.declaredIdentifiers).append
    (p.resources.declarationLines_keep _)
  have parts : p.sourceStart o ++ definitions.flatten ++ o.closing ++ p.resources.definitionLines =
      inclusionLines o ++ p.resources.declarationLines ++ back := by
    simp [isBack, sourceStart, inclusionLines]
  refine ⟨header ++ [Line.blank], back ++ [Line.blank], textLines_eq inHeader.whole, inHeader.before .blank,
    ?_, kept.append .blank⟩
  rw [parts, textLines_eq fun line member => (start.append kept line member).1, List.append_assoc]

omit names named in
/-- The header stands in place of its inclusion. -/
theorem expanded_source (o : Options) (header : List (List Char)) (rest : List Line) :
    expanded header ((inclusionLines o ++ rest).map Line.contents) =
      (sourceIncludes.map includeLine).map Line.contents ++ (header ++
        (.flush "using namespace std::string_view_literals;" :: rest).map Line.contents) := by
  have other : ∀ line ∈ (sourceIncludes.map includeLine).map Line.contents,
      ¬ "#include \x22".toList <+: line := by decide
  have inclusion : "#include \x22".toList <+:
      (Line.flush ("#include \x22" ++ o.headerName ++ "\x22")).contents := by
    rw [Line.flush, Line.contents, String.toList_append, String.toList_append, List.append_assoc]
    exact List.prefix_append ..
  rw [inclusionLines, List.append_assoc, List.map_append, expanded_append header other,
    List.cons_append, List.map_cons, expanded, if_pos inclusion]
  rfl

variable (lists : p.ListsResources) {files : Artifacts} (printed : p.print o = .ok files)

include lists printed

/-- In the source every reference stands behind its declaration. -/
theorem declaredFirst_source : DeclaredFirst (textLines files.source) := by
  obtain ⟨-, back, -, -, readSource, kept⟩ := exists_of_print names named lists printed
  rw [readSource, declaredFirst_lines_iff (inclusionLines_refer named)
    (p.resources.declarationLines_keep ∅) kept]

/-- In the translation unit every reference stands behind its declaration just when there is none in the
header. -/
theorem declaredFirst_unitLines_iff : DeclaredFirst files.unitLines ↔ p.headerMentioned = ∅ := by
  obtain ⟨header, back, readHeader, inHeader, readSource, kept⟩ :=
    exists_of_print names named lists printed
  have literals : Refers [.flush "using namespace std::string_view_literals;"] ∅ :=
    .fixed (by decide) (by decide)
  have front := (inHeader.before literals).behind includeLines_refer.2
  have unit : files.unitLines = (sourceIncludes.map includeLine ++
      (header ++ [Line.flush "using namespace std::string_view_literals;"]) ++
        p.resources.declarationLines ++ back).map Line.contents := by
    rw [Artifacts.unitLines, readSource, readHeader, List.append_assoc, expanded_source]
    simp
  rw [unit, declaredFirst_lines_iff front (p.resources.declarationLines_keep ∅) kept]

end Lines

end Program

/-- In the source of a program, every reference to a resource stands behind the declaration of its
array. In the translation unit, with the header in place of its inclusion, every reference does exactly
when no value of an enumeration, a constant array or a field mentions a resource. -/
theorem resources_declared_first_iff (p : Program) (o : Options) (files : Artifacts)
    (names : p.EveryName IsOrdinary) (named : o.IsNamed) (lists : p.ListsResources)
    (printed : p.print o = .ok files) :
    DeclaredFirst (textLines files.source) ∧
      (DeclaredFirst files.unitLines ↔ ∀ name, ¬ p.HeaderMentions name) := by
  refine ⟨Program.declaredFirst_source names named lists printed,
    (Program.declaredFirst_unitLines_iff names named lists printed).trans ?_⟩
  rw [Set.eq_empty_iff_forall_notMem]
  refine ⟨fun nothing name mentions => nothing _ ⟨name, mentions, rfl⟩, ?_⟩
  rintro nothing _ ⟨name, mentions, rfl⟩
  exact nothing name mentions

/-- A constructor mentions a resource, and no value in the header does. -/
theorem resources_declared_first_iff_icons :
    ∃ files, icons.print {} = .ok files ∧ DeclaredFirst files.unitLines := by
  have names : icons.EveryName IsOrdinary := by
    refine ⟨fun c member => ?_, nofun, by decide⟩
    obtain rfl := List.mem_singleton.1 (Array.mem_toList_iff.2 member)
    refine ⟨by decide, nofun, nofun, nofun, ?_, nofun⟩
    rintro _ ⟨⟩
    exact List.forall_mem_singleton.2 (.intro nofun nofun)
  have lists : icons.ListsResources := by decide +kernel
  obtain ⟨files, printed⟩ := exists_of_isOk (r := icons.print {}) (by decide +kernel)
  refine ⟨files, printed,
    (resources_declared_first_iff icons {} files names Options.isNamed_default lists printed).2.2
      fun name mentions => ?_⟩
  cases mentions with
  | member enumeration => cases Array.mem_toList_iff.2 enumeration
  | constant holder listed =>
    obtain rfl := List.mem_singleton.1 (Array.mem_toList_iff.2 holder)
    cases listed
  | field holder listed =>
    obtain rfl := List.mem_singleton.1 (Array.mem_toList_iff.2 holder)
    cases listed

/-- A class with a field that starts with a pointer to the bytes of a resource. -/
def iconField : Program where
  classes := #[⟨"Icon", none, .normal, none, [],
    [⟨"pixels", .everywhere, .arrayPtr .readOnly (.integer ⟨.w8, false⟩), some ⟨0⟩⟩], []⟩]
  exprs := ⟨#[⟨.resource "app.png", .arrayStorage (.integer ⟨.w8, false⟩) 2⟩]⟩
  resources := .ofList ([("app.png", [137, 80])] : List (String × List UInt8))

/-- What the class with the field is printed into. -/
def iconFieldFiles : Artifacts where
  headerPath := "out.hpp"
  header := "#pragma once\n#include <array>\n#include <memory>\n#include <string>\n" ++
    "#include <string_view>\n\nclass Icon;\n\nclass Icon\n\x7b\npublic:\n\tIcon() = default;\n" ++
    "\tuint8_t const *pixels = TernResource::app_png.data();\n\x7d;\n"
  sourcePath := "out.cpp"
  source := "#include <algorithm>\n#include <cmath>\n#include \"out.hpp\"\n" ++
    "using namespace std::string_view_literals;\n\n" ++
    "namespace\n\x7b\n\tnamespace TernResource\n\t\x7b\n" ++
    "\t\textern const std::array<uint8_t, 2> app_png;\n\t\x7d\n\x7d\n\n" ++
    "namespace\n\x7b\n\tnamespace TernResource\n\t\x7b\n" ++
    "\t\tconst std::array<uint8_t, 2> app_png = \x7b\n\t\t\t137, 80\n\t\t\x7d;\n\t\x7d\n\x7d\n"

/-- The field refers to an array that is declared further down, although the table lists the resource. -/
theorem iconField_not_declared_first : iconField.print {} = .ok iconFieldFiles ∧
    iconField.ListsResources ∧ ¬ DeclaredFirst iconFieldFiles.unitLines := by
  have printed : iconField.print {} = .ok iconFieldFiles := eq_ok_of_toOption (by decide +kernel)
  have names : iconField.EveryName IsOrdinary := by
    refine ⟨fun c member => ?_, nofun, by decide⟩
    obtain rfl := List.mem_singleton.1 (Array.mem_toList_iff.2 member)
    exact ⟨by decide, nofun, by decide, nofun, nofun, nofun⟩
  have lists : iconField.ListsResources := by decide +kernel
  refine ⟨printed, lists, fun first => ?_⟩
  have nothing := (Program.declaredFirst_unitLines_iff names Options.isNamed_default lists printed).1 first
  have holder : iconField.classes[0] ∈ iconField.classes := Array.getElem_mem _
  have mentions : iconField.HeaderMentions "app.png" :=
    .field holder (List.mem_singleton_self _) rfl (.itself _)
  exact absurd (nothing ▸ ⟨_, mentions, rfl⟩) (Set.notMem_empty (sanitizeIdentifier "app.png"))

end CppPrinter
