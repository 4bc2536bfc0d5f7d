import CppPrinter.Output.Artifact

/-!
# The printed files on a disk

A path leads from the root or from the current directory along its components, of which empty ones and `.`
do not count. So paths that are written differently may lead to the same place, and a file that is written
there takes the place of the one before. The files of a program are written one after the other.
-/

namespace CppPrinter

namespace Path

/-- A component leads somewhere unless it is empty or names the directory it is in. -/
def counts (component : List Char) : Bool := component != [] && component != ['.']

/-- The components along which a path leads. -/
def components (path : List Char) : List (List Char) := (path.splitOn '/').filter counts

/-- Where a path leads. -/
structure Place where
  /-- From the root, and not from the current directory. -/
  rooted : Bool
  components : List (List Char)
  deriving DecidableEq, Repr

/-- The place a path leads to. -/
def place (path : List Char) : Place := ⟨path.head? == some '/', components path⟩

end Path

/-- The files of a disk, each at the place of its path. -/
def Disk : Type := Path.Place → Option String

namespace Disk

/-- The text of the file a path leads to. -/
def read (disk : Disk) (path : String) : Option String := disk (Path.place path.toList)

/-- Writes a text into the file a path leads to. -/
def write (path text : String) (disk : Disk) : Disk :=
  fun place => if place = Path.place path.toList then some text else disk place

end Disk

/-- Writes both files, the header first. -/
def Artifacts.write (files : Artifacts) (disk : Disk) : Disk :=
  (disk.write files.headerPath files.header).write files.sourcePath files.source

end CppPrinter
