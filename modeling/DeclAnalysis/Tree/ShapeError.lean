import DeclAnalysis.Json.Value
import DeclAnalysis.Decimal.Shortest
import DeclAnalysis.Text.Quoted

/-!
# Values of the wrong shape

A well-formed value need not have the shape that its place asks for. The causes
are listed here together with their wording.
-/

namespace DeclAnalysis

/-- What stands in the place of a value of another shape. -/
inductive Found where
  | null
  | bool (value : Bool)
  | integer (value : Int)
  | double (value : Double)
  | string (value : String)
  | sequence
  | map
  /-- The name of a variant without any content. -/
  | bareVariant
deriving DecidableEq, Repr, Inhabited

namespace Found

/-- What a JSON value is. -/
def ofJson : Json → Found
  | .null => null
  | .bool b => bool b
  | .number (.integer n) => integer n
  | .number (.double d) => double d
  | .string s => string s
  | .array _ => sequence
  | .object _ => map

/-- How a message calls the value. -/
def text : Found → String
  | null => "null"
  | bool b => "boolean \x60" ++ (if b then "true" else "false") ++ "\x60"
  | integer n => "integer \x60" ++ toString n ++ "\x60"
  | double d => "floating point \x60" ++ d.exponentText ++ "\x60"
  | string s => "string " ++ quotedText s
  | sequence => "sequence"
  | map => "map"
  | bareVariant => "unit variant"

end Found

/-- Why a value does not have the shape that its place asks for. -/
inductive ShapeError where
  | invalidType (found : Found) (expected : String)
  | invalidValue (found : Found) (expected : String)
  | invalidLength (length : Nat) (expected : String)
  | unknownVariant (name : String) (variants : List String)
  | missingField (name : String)
  | repeatedField (name : String)
deriving DecidableEq, Repr, Inhabited

namespace ShapeError

/-- The names that are allowed, for a message. -/
def choices (names : List String) : String :=
  match names.map fun name => "\x60" ++ name ++ "\x60" with
  | [] => "there are no variants"
  | [one] => "expected " ++ one
  | [one, other] => "expected " ++ one ++ " or " ++ other
  | many => "expected one of " ++ String.intercalate ", " many

/-- The wording of an error. -/
def message : ShapeError → String
  | invalidType found expected => "invalid type: " ++ found.text ++ ", expected " ++ expected
  | invalidValue found expected => "invalid value: " ++ found.text ++ ", expected " ++ expected
  | invalidLength length expected =>
    "invalid length " ++ toString length ++ ", expected " ++ expected
  | unknownVariant name variants =>
    "unknown variant \x60" ++ name ++ "\x60, " ++ choices variants
  | missingField name => "missing field \x60" ++ name ++ "\x60"
  | repeatedField name => "duplicate field \x60" ++ name ++ "\x60"

end ShapeError

end DeclAnalysis
