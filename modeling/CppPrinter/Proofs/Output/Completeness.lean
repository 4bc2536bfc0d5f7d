import CppPrinter.Proofs.Order.Sequence
import CppPrinter.Proofs.Output.Agreement

/-!
# Classes stored in constants

A constant array of objects needs the full definition of their class, as a field of that type does.
The order of the classes looks at parents and fields alone, so it puts the class of the objects first
where the class with the constant depends on it in another way too, and otherwise where it is met
first (`stored_class_first_iff`). A program may list the two the other way round
(`stored_class_behind_holder`).
-/

namespace CppPrinter

open Relation

/-- The class of which a spelled type stores values exists. -/
theorem Ty.baseClass_exists_of_spelling {scope : Scope} {ty : Ty} {promote : Bool} {text : String}
    {d : ClassId} (spelled : ty.spelling scope promote = .ok text) (stores : ty.baseClass = some d) :
    d.index < scope.classes.size := by
  induction ty generalizing promote text with
  | arrayPtr _ element ih | arrayStorage element _ ih =>
    obtain ⟨inner, spelledElement, -⟩ := bind_eq_ok_iff.1 spelled
    exact ih spelledElement stores
  | classValue c =>
    cases stores
    obtain ⟨head, looked, -⟩ := bind_eq_ok_iff.1 spelled
    exact (Array.getElem?_eq_some_iff.1 (lookUp_eq_ok_iff.1 looked)).1
  | _ => cases stores

/-- What stands in front of a declared name starts with the text of its type. -/
theorem exists_declarator_eq (ty name : String) : ∃ rest, declarator ty name = ty ++ rest := by
  unfold declarator
  split
  · exact ⟨name, rfl⟩
  · exact ⟨" " ++ name, String.append_assoc ..⟩

namespace Class

variable {env : Env} {c : Class ExprId} {page : Page}

/-- A constant array has its line in the definition of its class, with the array spelled out. -/
theorem IsPrinted.exists_constant_line (h : c.IsPrinted env page) {k : Constant ExprId}
    (member : k ∈ c.constants) (isStorage : k.ty.isArrayStorage = true) :
    (∃ rest, (.constant k, .code 1 ("static constexpr std::array<" ++ rest)) ∈ page.entries) ∧
      ∀ d, k.ty.baseClass = some d → d.index < env.scope.classes.size := by
  obtain ⟨line, listed, printed⟩ :=
    h.exists_line (c.constant_mem_entries_iff.2 ⟨member, isStorage⟩)
  obtain ⟨_, chain, rfl⟩ := map_eq_ok_iff.1 printed
  obtain ⟨text, isConstant, result⟩ := bind_eq_ok_iff.1 chain
  cases result
  obtain ⟨declared, isDeclared, rest⟩ := bind_eq_ok_iff.1 isConstant
  obtain ⟨value, -, result⟩ := bind_eq_ok_iff.1 rest
  cases result
  obtain ⟨spelled, isSpelled, result⟩ := bind_eq_ok_iff.1 isDeclared
  cases result
  refine ⟨?_, fun d stores => Ty.baseClass_exists_of_spelling isSpelled stores⟩
  cases shape : k.ty with
  | arrayStorage element length =>
    rw [shape] at isSpelled
    obtain ⟨inner, -, result⟩ := bind_eq_ok_iff.1 isSpelled
    cases result
    obtain ⟨behind, same⟩ := exists_declarator_eq
      ("std::array<" ++ inner ++ ", " ++ toString length ++ ">") (camelCase k.name)
    refine ⟨inner ++ ", " ++ toString length ++ ">" ++ behind ++ " = " ++ value ++ ";", ?_⟩
    have together (rest : String) : "static constexpr " ++ ("std::array<" ++ rest) =
        "static constexpr std::array<" ++ rest := by
      rw [← String.append_assoc]
      rfl
    rw [same] at listed
    simpa only [Line.flush, Line.indent, String.append_assoc, together] using listed
  | _ => simp [shape, Ty.isArrayStorage] at isStorage

end Class

/-- In the header of a program, the class whose objects a constant array of another class holds is
defined before that class exactly if it is met first on the way through the classes and what they
derive from and store in fields; so it is whenever the class with the constant depends on it. -/
theorem stored_class_first_iff (p : Program) (o : Options) (files : Artifacts)
    (printed : p.print o = .ok files) :
    ∃ order pages enums, p.IsLaidOut o files order pages enums ∧
      ∀ (id : ClassId) (c : Class ExprId), p.classes[id.index]? = some c →
        ∀ k ∈ c.constants, k.ty.isArrayStorage = true → ∀ d, k.ty.baseClass = some d →
          (∃ rest, (.constant k, .code 1 ("static constexpr std::array<" ++ rest)) ∈
            (pages id).entries) ∧ d ∈ order ∧
          (StandsBefore order d id ↔ MetBefore p.classes d id p.classIds) ∧
          (TransGen (DependsOn p.classes) id d → StandsBefore order d id) := by
  obtain ⟨order, pages, enums, laidOut⟩ := Program.exists_layout printed
  refine ⟨order, pages, enums, laidOut, fun id c found k member isStorage d stores => ?_⟩
  obtain ⟨line, exist⟩ := (laidOut.printedClasses id c found).exists_constant_line member isStorage
  have ordered := laidOut.ordered
  have listed : id ∈ order :=
    (laidOut.complete id).2 (Array.getElem?_eq_some_iff.1 found).1
  have listed' : d ∈ order := by
    have inside := exist d stores
    rw [Program.env, Program.scope, Array.size_map] at inside
    exact (laidOut.complete d).2 inside
  have settled := (settled_of_classOrder (dependenciesExist_of_classOrder ordered) ordered).1
  exact ⟨line, listed', standsBefore_iff_metBefore ordered listed listed',
    settled.standsBefore_of_transGen⟩

/-- A point, and a shape that holds points: two in a constant, and one in a field. -/
def pointsFirst : Program where
  classes := #[
    ⟨"Shape", none, .normal, none,
      [⟨"corners", .everywhere, .arrayStorage (.arrayStorage (.classValue ⟨1⟩) 2) 1, ⟨0⟩⟩],
      [⟨"centre", .everywhere, .classValue ⟨1⟩, none⟩], []⟩,
    ⟨"Point", none, .normal, none, [], [], []⟩]
  exprs := ⟨#[⟨.aggregate [], .arrayStorage (.arrayStorage (.classValue ⟨1⟩) 2) 1⟩]⟩

theorem stored_class_first_iff_pointsFirst : ∃ files, pointsFirst.print {} = .ok files ∧
    ∃ order pages enums, pointsFirst.IsLaidOut {} files order pages enums ∧
      ∀ (id : ClassId) (c : Class ExprId), pointsFirst.classes[id.index]? = some c →
        ∀ k ∈ c.constants, k.ty.isArrayStorage = true → ∀ d, k.ty.baseClass = some d →
          (∃ rest, (.constant k, .code 1 ("static constexpr std::array<" ++ rest)) ∈
            (pages id).entries) ∧ d ∈ order ∧
          (StandsBefore order d id ↔ MetBefore pointsFirst.classes d id pointsFirst.classIds) ∧
          (TransGen (DependsOn pointsFirst.classes) id d → StandsBefore order d id) := by
  obtain ⟨files, printed⟩ := exists_of_isOk (r := pointsFirst.print {}) (by decide +kernel)
  exact ⟨files, printed, stored_class_first_iff pointsFirst {} files printed⟩

/-- The same two classes without the field. -/
def pointsLast : Program where
  classes := #[
    ⟨"Shape", none, .normal, none,
      [⟨"corners", .everywhere, .arrayStorage (.classValue ⟨1⟩) 2, ⟨0⟩⟩], [], []⟩,
    ⟨"Point", none, .normal, none, [], [], []⟩]
  exprs := ⟨#[⟨.aggregate [], .arrayStorage (.classValue ⟨1⟩) 2⟩]⟩

/-- The header defines the class of the points behind the class that holds two of them in a
constant. -/
theorem stored_class_behind_holder :
    pointsLast.print {} = .ok
      { headerPath := "out.hpp"
        header := "#pragma once\n#include <array>\n#include <memory>\n#include <string>\n" ++
          "#include <string_view>\n\nclass Shape;\nclass Point;\n\nclass Shape\n\x7b\npublic:\n" ++
          "\tShape() = default;\n\tstatic constexpr std::array<Point, 2> corners = \x7b  \x7d;\n" ++
          "\x7d;\n\nclass Point\n\x7b\npublic:\n\tPoint() = default;\n\x7d;\n"
        sourcePath := "out.cpp"
        source := "#include <algorithm>\n#include <cmath>\n#include \"out.hpp\"\n" ++
          "using namespace std::string_view_literals;\n" } ∧
      classOrder pointsLast.classes = .ok [⟨0⟩, ⟨1⟩] ∧
      ¬ StandsBefore [(⟨0⟩ : ClassId), ⟨1⟩] ⟨1⟩ ⟨0⟩ := by
  refine ⟨eq_ok_of_toOption (by decide +kernel), eq_ok_of_toOption (by decide), ?_⟩
  intro stands
  exact absurd (stands [] [⟨1⟩] rfl) List.not_mem_nil

end CppPrinter
