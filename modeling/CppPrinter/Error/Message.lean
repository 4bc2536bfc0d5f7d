import CppPrinter.Error.Basic
import CppPrinter.Error.Description

/-!
# Messages of errors

The one place that words the reasons for which printing ends.
-/

namespace CppPrinter

/-- What has no printed form. -/
def Unsupported.message : Unsupported → String
  | unsignedInteger bits => "unsigned " ++ toString bits ++ "-bit integer"
  | nullType => "type of null has no spelling"
  | nonFinite value => "non-finite floating-point literal " ++ value.nonFiniteText
  | librarySymbol target =>
    "library symbol " ++ target.describe ++ " outside a call or member access"
  | memberAccess target => "member access to " ++ target.describe
  | aggregateOf ty => "aggregate initializer of non-array type " ++ ty.describe
  | libraryMethod name => "library method " ++ name
  | arity method found expected =>
    method ++ " with " ++ toString found ++ " arguments (expected " ++ toString expected ++ ")"
  | missingBody className method => "method " ++ className ++ "." ++ method ++ " without a body"
  | loopStart start => "for-loop initializer " ++ start.describe

/-- The wording of an error. -/
def RenderError.message : RenderError → String
  | dangling => "reference to a missing class, enumeration, method or expression"
  | circularDependency className => "circular dependency for class " ++ className
  | arrayInitializer name =>
    "unsupported initializer for array storage \x60" ++ name ++
      "\x60: only null, zero and false are supported"
  | unsupported cause => "unsupported by the C++ backend: " ++ cause.message

end CppPrinter
