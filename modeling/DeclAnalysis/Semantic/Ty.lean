/-!
# Types

The types that expressions, properties and signatures have. A type that could
not be determined is an error type; it is compatible with everything, so that
one failure does not entail others.
-/

namespace DeclAnalysis

/-- A type. Classes and namespaces are given by the index of their descriptor
and by their name. -/
inductive Ty where
  | any
  | nothing
  | unit
  | int
  | double
  | boolean
  | string
  /-- The type of the instances of a class. -/
  | classType (descriptor : Nat) (name : String)
  /-- The type of a namespace that is used as an expression. -/
  | namespaceType (descriptor : Nat) (name : String)
  /-- A type that could not be determined. -/
  | error (message : String)
deriving DecidableEq, Repr, Inhabited

namespace Ty

/-- The built-in type of a name. -/
def builtin? : String → Option Ty
  | "Any" => some any
  | "Nothing" => some nothing
  | "Unit" => some unit
  | "Int" => some int
  | "Double" => some double
  | "Boolean" => some boolean
  | "String" => some string
  | _ => none

/-- The type could not be determined. -/
def isError : Ty → Bool
  | error _ => true
  | _ => false

/-- Arithmetic is defined on the type. -/
def isNumeric : Ty → Bool
  | int | double => true
  | _ => false

/-- The class or namespace behind the type. -/
def descriptor? : Ty → Option Nat
  | classType d _ | namespaceType d _ => some d
  | _ => none

/-- How messages write the type. -/
def text : Ty → String
  | any => "Any"
  | nothing => "Nothing"
  | unit => "Unit"
  | int => "Int"
  | double => "Double"
  | boolean => "Boolean"
  | string => "String"
  | classType _ name => name
  | namespaceType _ name => "namespace " ++ name
  | error message => "[ERROR : " ++ message ++ "]"

end Ty

end DeclAnalysis
