import CppPrinter.Proofs.Class.Page
import CppPrinter.Proofs.Order.Visit

/-!
# Header and source agree

Two files that a program is printed into are made of the lines of its enumerations and of one page for
each class (`Program.exists_layout`): the header holds the pages in the order that the search finds and
the source in the order of the program, each as its class is printed. On every page the methods agree
(`methods_agree`); the constructors agree except for static classes that bring one along
(`constructor_agrees_iff`).
-/

namespace CppPrinter

namespace Program

variable {p : Program} {o : Options} {files : Artifacts}

/-- The enumerations in order of position. -/
def enumIds (p : Program) : List EnumId := (List.range p.enums.size).map EnumId.mk

/-- What the two files consist of. The header holds every enumeration in the order of the program, and
every class once, in the order that the search finds; the source holds every class in the order of the
program. The page of a class and the lines of an enumeration are what these are printed as. -/
structure IsLaidOut (p : Program) (o : Options) (files : Artifacts) (order : List ClassId)
    (pages : ClassId → Page) (enums : EnumId → List Line) : Prop where
  ordered : classOrder p.classes = .ok order
  distinct : order.Nodup
  complete : ∀ id, id ∈ order ↔ id.index < p.classes.size
  printedClasses : ∀ (id : ClassId) (c : Class ExprId), p.classes[id.index]? = some c →
    c.IsPrinted p.env (pages id)
  printedEnums : ∀ (id : EnumId) (e : Enum ExprId), p.enums[id.index]? = some e →
    e.declarationLines p.env = .ok (enums id)
  headerPath : files.headerPath = o.headerPath
  header : files.header = linesText (headerStart o ++ p.enumIds.flatMap enums ++ p.forwardLines ++
    order.flatMap (fun id => (pages id).declared) ++ o.closing)
  sourcePath : files.sourcePath = o.sourcePath
  source : files.source = linesText (p.sourceStart o ++
    p.classIds.flatMap (fun id => (pages id).defined) ++ o.closing ++ p.resources.definitionLines)

/-- The classes in order of position are what is found at their positions. -/
theorem map_class?_classIds (p : Program) :
    p.classIds.map p.class? = p.classes.toList.map .ok := by
  refine List.ext_getElem (by simp [classIds]) fun i inside _ => ?_
  have bound : i < p.classes.size := by simpa [classIds] using inside
  simp [classIds, class?, lookUp_of_lt bound]

/-- Going through the classes is going through their positions. -/
theorem mapM_classes {α : Type} (p : Program) (f : Class ExprId → Rendered α) :
    p.classes.toList.mapM f = p.classIds.mapM (fun id => p.class? id >>= f) := by
  calc p.classes.toList.mapM f
      = (p.classes.toList.map Except.ok).mapM (fun c : Rendered (Class ExprId) => c >>= f) := by
        rw [List.mapM_map]
        rfl
    _ = p.classIds.mapM (fun id => p.class? id >>= f) := by
        rw [← map_class?_classIds, List.mapM_map]
        rfl

/-- The printed enumerations are those found at their positions. -/
theorem exists_enums {parts : List (List Line)}
    (printed : p.enums.toList.mapM (Enum.declarationLines p.env) = .ok parts) :
    ∃ enums : EnumId → List Line, parts.flatten = p.enumIds.flatMap enums ∧
      ∀ (id : EnumId) (e : Enum ExprId), p.enums[id.index]? = some e →
        e.declarationLines p.env = .ok (enums id) := by
  obtain ⟨sameLength, each⟩ := List.forall₂_iff_get.1 (mapM_eq_ok_iff.1 printed)
  have listed : parts = p.enumIds.map fun id => parts.getD id.index [] := by
    refine List.ext_getElem (by simpa [enumIds] using sameLength.symm) fun i inside _ => ?_
    simp [enumIds, inside]
  refine ⟨fun id => parts.getD id.index [], by rw [List.flatMap_def, ← listed], fun id e found => ?_⟩
  obtain ⟨inside, rfl⟩ := Array.getElem?_eq_some_iff.1 found
  have inParts : id.index < parts.length := by simpa [← sameLength] using inside
  simpa [inParts] using each id.index (by simpa using inside) inParts

/-- Classes that the header declares in an order of all of them, and that the source defines, have a page
each. -/
theorem exists_pages {order : List ClassId} {classes definitions : List (List Line)}
    (complete : ∀ id, id ∈ order ↔ id.index < p.classes.size)
    (declared : order.mapM p.classLines = .ok classes)
    (defined : p.classes.toList.mapM (Class.definitionLines p.env) = .ok definitions) :
    ∃ pages : ClassId → Page, classes.flatten = order.flatMap (fun id => (pages id).declared) ∧
      definitions.flatten = p.classIds.flatMap (fun id => (pages id).defined) ∧
      ∀ (id : ClassId) (c : Class ExprId), p.classes[id.index]? = some c →
        c.IsPrinted p.env (pages id) := by
  -- A position without a class gets any page.
  have page (id : ClassId) : ∃ page, ∀ c, p.classes[id.index]? = some c →
      c.IsPrinted p.env page := by
    cases found : p.classes[id.index]? with
    | none => exact ⟨⟨"", [], none, []⟩, nofun⟩
    | some c =>
      have inside := (Array.getElem?_eq_some_iff.1 found).1
      obtain ⟨ls, inHeader⟩ := exists_of_mapM declared ((complete id).2 inside)
      obtain ⟨ms, inSource⟩ := exists_of_mapM defined
        (Array.mem_toList_iff.2 (Array.mem_of_getElem? found))
      have looked : p.class? id = .ok c := lookUp_eq_ok_iff.2 found
      rw [classLines, looked] at inHeader
      obtain ⟨page, isPage⟩ := Class.exists_page inHeader inSource
      refine ⟨page, fun c' same => ?_⟩
      cases same
      exact isPage
  choose pages isPage using page
  have found (id : ClassId) (inside : id.index < p.classes.size) :
      ∃ c, p.class? id = .ok c ∧ c.IsPrinted p.env (pages id) :=
    ⟨_, lookUp_of_lt inside, isPage id _ (Array.getElem?_eq_getElem inside)⟩
  refine ⟨pages, ?_, ?_, isPage⟩
  · rw [List.flatMap_def]
    refine congrArg _ (eq_map_of_mapM declared fun id listed => ?_)
    obtain ⟨c, looked, isPrinted⟩ := found id ((complete id).1 listed)
    rw [classLines, looked]
    exact isPrinted.declared
  · rw [mapM_classes] at defined
    rw [List.flatMap_def]
    refine congrArg _ (eq_map_of_mapM defined fun id listed => ?_)
    obtain ⟨i, inside, rfl⟩ := List.mem_map.1 listed
    obtain ⟨c, looked, isPrinted⟩ := found ⟨i⟩ (List.mem_range.1 inside)
    rw [looked]
    exact isPrinted.defined

/-- Both files of a program that is printed are laid out in this way. -/
theorem exists_layout (printed : p.print o = .ok files) :
    ∃ order pages enums, p.IsLaidOut o files order pages enums := by
  simp only [print, header_eq, source_eq, headerLines, sourceLines, declarationLines,
    bind_eq_ok_iff, map_eq_ok_iff, pure_eq_ok, Except.ok.injEq] at printed
  obtain ⟨-, ⟨-, ⟨-, ⟨order, ordered, parts, printedEnums, classes, declared, rfl⟩, rfl⟩, rfl⟩,
    -, ⟨-, ⟨definitions, defined, rfl⟩, rfl⟩, rfl⟩ := printed
  obtain ⟨settled, complete⟩ := settled_of_ordered ordered
  obtain ⟨enums, inHeader, isEnum⟩ := exists_enums printedEnums
  obtain ⟨pages, inOrder, inSource, isPage⟩ := exists_pages complete declared defined
  refine ⟨order, pages, enums, {
    ordered, distinct := settled.nodup, complete, printedClasses := isPage, printedEnums := isEnum
    headerPath := rfl, header := ?_, sourcePath := rfl, source := ?_ }⟩
  · rw [inHeader, inOrder]
    simp only [List.append_assoc]
  · rw [inSource]

end Program

/-- In the two files of a program, every method is declared once, in the definition of its class in
the header; every method that is not abstract is defined once, in the order of its class, in the
source; and both give it the same signature, but for what only a declaration says and for the name
of the class in front of the method's. -/
theorem methods_agree (p : Program) (o : Options) (files : Artifacts)
    (printed : p.print o = .ok files) :
    ∃ order pages enums, p.IsLaidOut o files order pages enums ∧
      ∀ (id : ClassId) (c : Class ExprId), p.classes[id.index]? = some c →
        c.MethodsAgree p.scope (pages id) := by
  obtain ⟨order, pages, enums, laidOut⟩ := p.exists_layout printed
  exact ⟨order, pages, enums, laidOut, fun id c found => (laidOut.printedClasses id c found).methodsAgree⟩

/-- The source follows the program, where a square comes before the shape it derives from; the header
cannot. -/
def figures : Program where
  classes := #[
    ⟨"Square", some ⟨1⟩, .sealed, some [], [], [⟨"side", .ownClass, .double, none⟩],
      [⟨⟨"Of", .unit, .static, true, .classPtr .shared ⟨0⟩, [⟨"side", .double⟩]⟩,
        some (.ret (some ⟨1⟩))⟩,
       ⟨⟨"Area", .everywhere, .override, false, .double, []⟩, some (.ret (some ⟨0⟩))⟩,
       ⟨⟨"Grow", .descendants, .normal, true, .void, [⟨"by", .double⟩, ⟨"whole", .bool⟩]⟩,
        some (.block [])⟩]⟩,
    ⟨"Shape", none, .abstract, none, [], [],
      [⟨⟨"Area", .everywhere, .abstract, false, .double, []⟩, none⟩]⟩]
  exprs := ⟨#[⟨.symbol (.field ⟨0⟩ "side"), .double⟩, ⟨.newObject ⟨0⟩, .classPtr .shared ⟨0⟩⟩]⟩

theorem methods_agree_figures : ∃ files, figures.print {} = .ok files ∧
    ∃ order pages enums, figures.IsLaidOut {} files order pages enums ∧
      ∀ (id : ClassId) (c : Class ExprId), figures.classes[id.index]? = some c →
        c.MethodsAgree figures.scope (pages id) := by
  obtain ⟨files, printed⟩ := exists_of_isOk (r := figures.print {}) (by decide +kernel)
  exact ⟨files, printed, methods_agree figures {} files printed⟩

/-- In the two files of a program, a constructor is defined in the source just when its declaration
in the header leaves it open, unless the class is static and the program supplies a constructor: that
one is deleted in the header and defined in the source. -/
theorem constructor_agrees_iff (p : Program) (o : Options) (files : Artifacts)
    (printed : p.print o = .ok files) :
    ∃ order pages enums, p.IsLaidOut o files order pages enums ∧
      ∀ (id : ClassId) (c : Class ExprId), p.classes[id.index]? = some c →
        c.ConstructorPrinted (pages id) ∧ (c.ConstructorAgrees (pages id) ↔
          ¬ (c.kind = .static ∧ c.constructorBody.isSome = true)) := by
  obtain ⟨order, pages, enums, laidOut⟩ := p.exists_layout printed
  refine ⟨order, pages, enums, laidOut, fun id c found => ?_⟩
  have isPage := laidOut.printedClasses id c found
  exact ⟨isPage.constructorPrinted, isPage.constructorAgrees_iff⟩

/-- A class with a constructor of its own, and a static one without. -/
def counterAndTools : Program where
  classes := #[
    ⟨"Counter", none, .normal, some [], [], [], []⟩,
    ⟨"Tools", none, .static, none, [], [],
      [⟨⟨"Reset", .everywhere, .static, true, .void, []⟩, some (.block [])⟩]⟩]

theorem constructor_agrees_iff_counterAndTools : ∃ files, counterAndTools.print {} = .ok files ∧
    ∃ order pages enums, counterAndTools.IsLaidOut {} files order pages enums ∧
      ∀ (id : ClassId) (c : Class ExprId), counterAndTools.classes[id.index]? = some c →
        c.ConstructorPrinted (pages id) ∧ (c.ConstructorAgrees (pages id) ↔
          ¬ (c.kind = .static ∧ c.constructorBody.isSome = true)) := by
  obtain ⟨files, printed⟩ := exists_of_isOk (r := counterAndTools.print {}) (by decide +kernel)
  exact ⟨files, printed, constructor_agrees_iff counterAndTools {} files printed⟩

/-- A static class that brings a constructor along. -/
def deletedConstructor : Program where
  classes := #[⟨"C", none, .static, some [], [], [], []⟩]

/-- The header deletes a constructor that the source defines. -/
theorem deleted_constructor_is_defined :
    deletedConstructor.print {} = .ok
      { headerPath := "out.hpp"
        header := "#pragma once\n#include <array>\n#include <memory>\n#include <string>\n" ++
          "#include <string_view>\n\nclass C;\n\nclass C\n\x7b\nprivate:\n\tC() = delete;\n\x7d;\n"
        sourcePath := "out.cpp"
        source := "#include <algorithm>\n#include <cmath>\n#include \"out.hpp\"\n" ++
          "using namespace std::string_view_literals;\n\nC::C()\n\x7b\n\x7d\n" } ∧
      ∃ c page, deletedConstructor.class? ⟨0⟩ = .ok c ∧ c.IsPrinted deletedConstructor.env page ∧
        ¬ c.ConstructorAgrees page := by
  refine ⟨eq_ok_of_toOption (by decide +kernel), ?_⟩
  obtain ⟨files, printed⟩ := exists_of_isOk (r := deletedConstructor.print {}) (by decide +kernel)
  obtain ⟨order, pages, enums, laidOut⟩ := Program.exists_layout printed
  have onPage := laidOut.printedClasses ⟨0⟩ _ rfl
  exact ⟨_, pages ⟨0⟩, rfl, onPage, fun agrees =>
    onPage.constructorAgrees_iff.1 agrees ⟨rfl, rfl⟩⟩

end CppPrinter
