import CppPrinter.Output.Disk
import CppPrinter.Proofs.Output.Layout
import CppPrinter.Proofs.Output.Path

/-!
# The two files on a disk

The path of a file leads to a place in its directory, named by its last component (`Path.place_eq`), so
two files of one directory are apart exactly when their names differ. The header stands beside the source
and is not lost when the source is written, unless the extension of the output is that of the header, or its
name is lost on the way to the name of the header (`Program.files_apart_iff`).
-/

namespace CppPrinter

namespace Path

variable {front name path extension : List Char}

/-! ### Places -/

theorem splitOn_append (a b : List Char) :
    (a ++ '/' :: b).splitOn '/' = a.splitOn '/' ++ b.splitOn '/' := by
  induction a with
  | nil => simp [List.splitOn, List.splitOnP_cons_eq_if_modifyHead]
  | cons c a ih =>
    have filled : a.splitOn '/' ≠ [] := List.splitOnP_ne_nil _ _
    obtain ⟨first, rest, split⟩ := List.exists_cons_of_ne_nil filled
    simp only [List.splitOn] at ih split ⊢
    rw [List.cons_append, List.splitOnP_cons_eq_if_modifyHead, List.splitOnP_cons_eq_if_modifyHead,
      ih, split]
    split <;> rfl

theorem components_append (a b : List Char) :
    components (a ++ '/' :: b) = components a ++ components b := by
  rw [components, splitOn_append, List.filter_append, components, components]

theorem components_of_not_mem (noSlash : '/' ∉ name) :
    components name = if counts name then [name] else [] := by
  have single : name.splitOn '/' = [name] :=
    List.splitOnP_eq_singleton fun c member => by
      simpa using fun slash : c = '/' => noSlash (slash ▸ member)
  rw [components, single, List.filter_singleton, Bool.cond_eq_ite]

/-- What does not count at the end of a path adds no component. -/
theorem components_trimmed (path : List Char) : components (trimmed path) = components path := by
  rw [trimmed]
  suffices reversed : ∀ turned : List Char,
      components (trimReversed turned).reverse = components turned.reverse by
    simpa using reversed path.reverse
  intro turned
  fun_induction trimReversed turned with
  | case1 rest ih => simpa [components_append, components_of_not_mem, counts] using ih
  | case2 rest ih => simpa [components_append, components_of_not_mem, counts] using ih
  | case3 => rfl

/-- The place of a file in a directory. -/
def Place.enter (directory : Place) (name : List Char) : Place :=
  { directory with components := directory.components ++ [name] }

theorem Place.enter_inj (directory : Place) (name other : List Char) :
    directory.enter name = directory.enter other ↔ name = other := by
  simp [enter]

/-- A component behind a separator leads one step further. -/
theorem place_append (separated : ∀ c ∈ front.getLast?, c = '/') (noSlash : '/' ∉ name)
    (counted : counts name = true) : place (front ++ name) = (place front).enter name := by
  have own : components name = [name] := by rw [components_of_not_mem noSlash, if_pos counted]
  obtain rfl | ⟨start, c, rfl⟩ := front.eq_nil_or_concat'
  · have relative : name.head? ≠ some '/' := fun slash => noSlash (List.mem_of_mem_head? slash)
    have nowhere : components [] = [] := components_of_not_mem List.not_mem_nil
    simpa [place, Place.enter, own, nowhere] using relative
  · obtain rfl : c = '/' := separated c (by simp)
    have shape : start ++ ['/'] ++ name = start ++ '/' :: name := by simp
    have start_components : components (start ++ ['/']) = components start := by
      rw [components_append, components_of_not_mem List.not_mem_nil]
      exact List.append_nil _
    simp only [place, Place.enter, start_components]
    rw [shape, components_append, own]
    simp

theorem counts_of_isFileName (isFile : isFileName name = true) : counts name = true := by
  simp only [isFileName, Bool.and_eq_true] at isFile
  simpa only [counts, Bool.and_eq_true] using isFile.1

/-- A file stands in its directory under its name. -/
theorem place_eq (named : fileName? path = some name) : place path = (place (directory path)).enter name := by
  obtain ⟨isFile, last⟩ := fileName?_eq_some_iff.1 named
  subst last
  rw [← place_append (getLast?_directory path) (not_mem_lastComponent path) (counts_of_isFileName isFile),
    directory_append]
  obtain ⟨trail, split, -⟩ := exists_trail path
  have filled : trimmed path ≠ [] := by
    intro nothing
    rw [← directory_append, List.append_eq_nil_iff] at nothing
    rw [nothing.2] at isFile
    cases isFile
  have start : path.head? = (trimmed path).head? := calc
    path.head? = (trimmed path ++ trail).head? := congrArg List.head? split
    _ = (trimmed path).head? := List.head?_append_of_ne_nil _ filled
  rw [place, place, components_trimmed, start]

/-- A new extension changes the name unless the name has it. -/
theorem stem_append_eq_iff (filled : name ≠ []) (noPoint : '.' ∉ extension) :
    stem name ++ '.' :: extension = name ↔ extension? name = some extension := by
  constructor
  · intro same
    rw [← same]
    exact extension?_append (stem_ne_nil filled) noPoint
  · intro given
    obtain ⟨start, some_start, rfl, noPoint⟩ := exists_of_extension? given
    rw [stem_append some_start noPoint]

end Path

namespace Disk

variable (disk : Disk) (path other text : String)

@[simp] theorem read_write_self : (disk.write path text).read path = some text := if_pos rfl

/-- Only the file at the same place is replaced. -/
theorem read_write_of_ne (apart : Path.place other.toList ≠ Path.place path.toList) :
    (disk.write path text).read other = disk.read other := if_neg apart

end Disk

namespace Artifacts

/-- The two files are apart: the header stands in the directory of the source, whose name is given, under
the stem of that name with its own extension. The source includes it by that name, and writing the source
behind the header leaves the header as it is. -/
structure AreApart (files : Artifacts) (name : List Char) : Prop where
  directory : Path.directory files.headerPath.toList = Path.directory files.sourcePath.toList
  named : ∃ header, Path.fileName? files.headerPath.toList = some header ∧
    Path.stem header = Path.stem name ∧ Path.extension? header = some "hpp".toList
  included : ∃ rest, files.source = linesText (sourceIncludes.map includeLine ++ [Line.flush
    ("#include \"" ++ String.ofList (Path.lastComponent files.headerPath.toList) ++ "\"")]) ++ rest
  distinct : Path.place files.headerPath.toList ≠ Path.place files.sourcePath.toList
  kept : ∀ disk, (files.write disk).read files.headerPath = some files.header

end Artifacts

namespace Program

variable {p : Program} {o : Options} {files : Artifacts} {name : List Char}

/-- The paths of the files that are printed, and the lines the source starts with. -/
theorem paths_of_print (printed : p.print o = .ok files) :
    files.headerPath = o.headerPath ∧ files.sourcePath = o.sourcePath ∧
      ∃ rest, files.source = linesText (sourceIncludes.map includeLine ++
        [Line.flush ("#include \"" ++ o.headerName ++ "\"")]) ++ rest := by
  simp only [print, source_eq, sourceLines, bind_eq_ok_iff, map_eq_ok_iff, pure_eq_ok,
    Except.ok.injEq] at printed
  obtain ⟨header, -, source, ⟨-, ⟨definitions, -, rfl⟩, rfl⟩, rfl⟩ := printed
  refine ⟨rfl, rfl, ?_⟩
  have start : p.sourceStart o = (sourceIncludes.map includeLine ++
      [Line.flush ("#include \"" ++ o.headerName ++ "\"")]) ++
        (.flush "using namespace std::string_view_literals;" :: p.resources.declarationLines ++
          o.opening) := by
    simp [sourceStart]
  simp only [start, linesText_append, String.append_assoc]
  exact ⟨_, rfl⟩

/-- The files a program is printed into are apart, and both are there after they are written, exactly when
the output does not have the extension of the header and its path does not end with two points and an
extension, of which the header keeps the points alone. -/
theorem files_apart_iff (printed : p.print o = .ok files)
    (named : Path.fileName? o.sourcePath.toList = some name) :
    files.sourcePath = o.sourcePath ∧
      (files.AreApart name ↔
        Path.extension? name ≠ some "hpp".toList ∧ ¬ Path.EndsInPoints o.sourcePath.toList) := by
  obtain ⟨headerPath, sourcePath, included⟩ := paths_of_print printed
  refine ⟨sourcePath, ?_⟩
  have path : files.headerPath.toList = Path.withExtension "hpp".toList o.sourcePath.toList := by
    rw [headerPath, Options.headerPath, String.toList_ofList]
  have filled : name ≠ [] := by
    rintro rfl
    obtain ⟨isFile, nothing⟩ := Path.fileName?_eq_some_iff.1 named
    rw [nothing] at isFile
    cases isFile
  by_cases points : Path.EndsInPoints o.sourcePath.toList
  · -- The header would be the parent directory, which is no file.
    refine iff_of_false (fun apart => ?_) (fun plain => plain.2 points)
    obtain ⟨header, unnamed, -⟩ := apart.named
    rw [path, Path.withExtension_of_endsInPoints points, Path.fileName?_parent] at unnamed
    cases unnamed
  · rw [Path.withExtension_eq named points] at path
    have header := @Path.fileName?_setExtension _ _ "hpp".toList named (by decide) (by decide) (by decide)
    have directory := @Path.directory_setExtension _ _ "hpp".toList named (by decide) (by decide) (by decide)
    rw [← path] at header directory
    have distinct : Path.place files.headerPath.toList ≠ Path.place files.sourcePath.toList ↔
        Path.extension? name ≠ some "hpp".toList := by
      rw [Path.place_eq header, sourcePath, Path.place_eq named, directory, Ne, Path.Place.enter_inj,
        Path.stem_append_eq_iff filled (by decide)]
    refine ⟨fun apart => ⟨distinct.1 apart.distinct, points⟩, fun ⟨other, _⟩ => ?_⟩
    exact {
      directory := by rw [directory, sourcePath]
      named := ⟨_, header, Path.stem_append (Path.stem_ne_nil filled) (by decide),
        Path.extension?_append (Path.stem_ne_nil filled) (by decide)⟩
      included := by
        have last := (Path.fileName?_eq_some_iff.1 header).2
        rw [headerPath] at header
        rwa [last, ← Options.headerName_eq header]
      distinct := distinct.2 other
      kept := fun disk => by
        rw [Artifacts.write, Disk.read_write_of_ne _ _ _ _ (distinct.2 other), Disk.read_write_self] }

/-- A point at the start of the name and a trail behind it do no harm. -/
theorem files_apart_iff_hidden : ∃ files,
    ({} : Program).print { sourcePath := "gen/.a.b.cpp/." } = .ok files ∧
    files.headerPath = "gen/.a.b.hpp" ∧ Path.fileName? "gen/.a.b.cpp/.".toList = some ".a.b.cpp".toList ∧
      files.AreApart ".a.b.cpp".toList := by
  obtain ⟨files, printed⟩ := exists_of_isOk
    (r := ({} : Program).print { sourcePath := "gen/.a.b.cpp/." }) (by decide +kernel)
  have named : Path.fileName? "gen/.a.b.cpp/.".toList = some ".a.b.cpp".toList := by decide +kernel
  have plain : ¬ Path.EndsInPoints "gen/.a.b.cpp/.".toList := by
    intro points
    have left := @Path.withExtension_of_endsInPoints _ "hpp".toList points
    exact absurd left (by decide +kernel)
  refine ⟨files, printed, ?_, named, (files_apart_iff printed named).2.2 ⟨by decide +kernel, plain⟩⟩
  rw [(paths_of_print printed).1]
  decide +kernel

/-- The files of a program without declarations, in one place. -/
def clashingFiles : Artifacts where
  headerPath := "x.hpp"
  header := "#pragma once\n#include <array>\n#include <memory>\n#include <string>\n#include <string_view>\n"
  sourcePath := "x.hpp"
  source := "#include <algorithm>\n#include <cmath>\n#include \"x.hpp\"\n" ++
    "using namespace std::string_view_literals;\n"

/-- An output with the extension of the header: the source is written over the header. -/
theorem header_overwritten :
    ({} : Program).print { sourcePath := "x.hpp" } = .ok clashingFiles ∧
      (∀ disk, (clashingFiles.write disk).read "x.hpp" = some clashingFiles.source) ∧
      clashingFiles.source ≠ clashingFiles.header ∧ ¬ clashingFiles.AreApart "x.hpp".toList :=
  ⟨eq_ok_of_toOption (by decide +kernel), fun disk => Disk.read_write_self _ _ _, by decide +kernel,
    fun apart => apart.distinct rfl⟩

end Program

end CppPrinter
