import CppPrinter.Text.Lowercase

/-!
# Names of members and resources

Members are printed in camel case: the first character of the name in lowercase, the rest as it
is. A resource is known by its name with every character that no identifier can hold replaced.
-/

namespace CppPrinter

/-- The name of a member as it is printed, at its declaration and at every use. -/
def camelCase (name : String) : String :=
  match name.toList with
  | [] => ""
  | first :: rest => String.ofList (lowercase first ++ rest)

/-- The characters that stay in the identifier of a resource: letters and digits of ASCII. -/
def isIdentifierChar (c : Char) : Bool := c.isAlphanum

/-- A name with every character outside ASCII letters and digits replaced by an underscore. -/
def sanitizeIdentifier (name : String) : String :=
  String.ofList (name.toList.map fun c => if isIdentifierChar c then c else '_')

end CppPrinter
