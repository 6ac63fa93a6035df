import DeclAnalysis.Decimal.Double

/-!
# JSON values

A JSON value keeps the fields of an object in the order in which they were
written, repeated names included, so that a reader of the value can still tell
a repetition. `Json.canonical` forgets that order: it sorts the fields by name
and keeps the last of each.
-/

namespace DeclAnalysis

/-- A JSON number: one without a fraction and an exponent is an integer, unless
it does not fit into 64 bits. -/
inductive Json.Number where
  | integer (value : Int)
  | double (value : Double)
deriving DecidableEq, Repr, Inhabited

/-- A JSON value. -/
inductive Json where
  | null
  | bool (value : Bool)
  | number (value : Json.Number)
  | string (value : String)
  | array (items : List Json)
  | object (fields : List (String × Json))
deriving Repr, Inhabited

namespace Json

/-- Puts a field into a list of fields that is sorted by name, in place of a
field of the same name. -/
def insertField (name : String) (value : Json) : List (String × Json) → List (String × Json)
  | [] => [(name, value)]
  | (other, old) :: rest =>
    if name < other then (name, value) :: (other, old) :: rest
    else if name = other then (name, value) :: rest
    else (other, old) :: insertField name value rest

mutual

/-- The value with every object sorted by field name, the last of several
fields of one name standing for all. -/
def canonical : Json → Json
  | .array items => .array (canonicalItems items)
  | .object fields => .object (canonicalFields fields [])
  | other => other

/-- The items in canonical form. -/
def canonicalItems : List Json → List Json
  | [] => []
  | item :: rest => canonical item :: canonicalItems rest

/-- The fields in canonical form, put into the sorted ones before them. -/
def canonicalFields : List (String × Json) → List (String × Json) → List (String × Json)
  | [], sorted => sorted
  | (name, value) :: rest, sorted =>
    canonicalFields rest (insertField name (canonical value) sorted)

end

/-- The value of the first field of a name, if the value is an object that has
one. -/
def field? (name : String) : Json → Option Json
  | .object fields => fields.lookup name
  | _ => none

/-- The natural number that a number is. -/
def natural? : Json → Option Nat
  | .number (.integer (.ofNat n)) => some n
  | _ => none

/-- The text that a string holds. -/
def string? : Json → Option String
  | .string s => some s
  | _ => none

/-- The truth value that a boolean holds. -/
def bool? : Json → Option Bool
  | .bool b => some b
  | _ => none

/-- The items of an array. -/
def items? : Json → Option (List Json)
  | .array items => some items
  | _ => none

/-- The fields of an object. -/
def fields? : Json → Option (List (String × Json))
  | .object fields => some fields
  | _ => none

end Json

end DeclAnalysis
