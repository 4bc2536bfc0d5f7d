/-!
# Paths of the printed files

A path names a file by its last component. Separators at the end and components `.` behind the
first one do not count, so `a.cpp/.` names the file `a.cpp`. A name has an extension behind its last
point, unless the name starts with that point. All functions work on the characters of a path.
-/

namespace CppPrinter

namespace Path

/-- A reversed path without separators and `.` components at its end. -/
def trimReversed : List Char → List Char
  | '/' :: rest => trimReversed rest
  | '.' :: '/' :: rest => trimReversed rest
  | path => path

/-- The path up to the end of its last component. -/
def trimmed (path : List Char) : List Char := (trimReversed path.reverse).reverse

/-- The last component, whatever it is. -/
def lastComponent (path : List Char) : List Char :=
  ((trimmed path).reverse.takeWhile (· ≠ '/')).reverse

/-- The component names a file: it is there, and it is neither the current nor the parent
directory. -/
def isFileName (name : List Char) : Bool :=
  name != [] && name != ['.'] && name != ['.', '.']

/-- The last component, if it names a file. -/
def fileName? (path : List Char) : Option (List Char) :=
  if isFileName (lastComponent path) then some (lastComponent path) else none

/-- What stands behind the last point of a file name; none if the name starts with that point. -/
def extension? (name : List Char) : Option (List Char) :=
  if '.' ∈ name.drop 1 then some (name.reverse.takeWhile (· ≠ '.')).reverse else none

/-- The file name without its extension and the point before it. -/
def stem (name : List Char) : List Char :=
  match extension? name with
  | some extension => name.take (name.length - extension.length - 1)
  | none => name

/-- The path with a new extension behind the stem of the file it names; a path that names no file
stays as it is. -/
def setExtension (extension path : List Char) : List Char :=
  match fileName? path with
  | some name =>
    (trimmed path).take ((trimmed path).length - name.length) ++ stem name ++ '.' :: extension
  | none => path

/-- The path less as many characters at the end as its extension has. -/
def cutExtension (path : List Char) : List Char :=
  match (fileName? path).bind extension? with
  | some extension => path.take (path.length - extension.length)
  | none => path

/-- The path with its extension replaced: the old extension makes room first, and the new one goes
behind the stem of what is left. Only for a name such as `..x` does the first step matter: what is
left of it is the parent directory, which takes no extension. -/
def withExtension (extension path : List Char) : List Char :=
  setExtension extension (cutExtension path)

end Path

end CppPrinter
