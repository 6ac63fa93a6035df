import DeclAnalysis.Decimal.Shortest
import DeclAnalysis.Text.Quoted
import DeclAnalysis.Toml.Datetime

/-!
# TOML values

The keys of a table keep their order. A table also remembers how it came into
being, since that decides what may still be added to it.

A date can be handed on as a table: under a reserved key, the first of the table,
it has the text of the date, and whatever follows in the table is disregarded.
So a table that begins with the reserved key is no table in its own right. If
there is no date under the key, the whole document is in disorder.
-/

namespace DeclAnalysis

namespace Toml

/-- A number with a fraction or an exponent, or one of the words for numbers
beyond them. -/
inductive Real where
  | finite (value : Double)
  | infinite (negative : Bool)
  | notANumber
deriving DecidableEq, Repr, Inhabited

/-- How a table came into being. -/
inductive TableOrigin where
  /-- A header of its own opened it, or it is the whole document. -/
  | header
  /-- A header of a table inside it implied it. -/
  | implied
  /-- A dotted key led through it. -/
  | dotted
  /-- It was written between braces. -/
  | inline
deriving DecidableEq, Repr, Inhabited

end Toml

/-- A TOML value. -/
inductive Toml where
  | string (value : String)
  | integer (value : Int)
  | real (value : Toml.Real)
  | boolean (value : Bool)
  | datetime (value : Toml.Datetime)
  | array (items : List Toml)
  | table (origin : Toml.TableOrigin) (fields : List (String × Toml))
  /-- The tables that headers in double brackets have opened, in their order. -/
  | tables (items : List Toml)
deriving Repr, Inhabited

namespace Toml

namespace Real

/-- How a message writes the number: with a decimal point if it is finite. -/
def text : Real → String
  | finite d => d.pointedText
  | infinite negative => if negative then "-inf" else "inf"
  | notANumber => "NaN"

end Real

/-- The fields of a table. -/
abbrev Fields := List (String × Toml)

/-- How a message calls a value of an unexpected type. -/
def foundText : Toml → String
  | string s => "string " ++ quotedText s
  | integer n => "integer \x60" ++ toString n ++ "\x60"
  | real r => "floating point \x60" ++ r.text ++ "\x60"
  | boolean b => "boolean \x60" ++ (if b then "true" else "false") ++ "\x60"
  | array _ | tables _ => "sequence"
  | table .. | datetime _ => "map"

/-- The name of the type of a value. -/
def typeName : Toml → String
  | string _ => "string"
  | integer _ => "integer"
  | real _ => "float"
  | boolean _ => "boolean"
  | datetime _ => "datetime"
  | array _ => "array"
  | table .inline _ => "inline table"
  | table .. => "table"
  | tables _ => "array of tables"

/-- The key under which a table has the text of a date. -/
def dateKey : String := "$__toml_private_datetime"

/-- The value is the text of a date. -/
def isDateText : Toml → Bool
  | string s => (Datetime.ofText? .lenient s.toList).isSome
  | _ => false

/-- The fields of a value that is a table in its own right. -/
def ownFields? : Toml → Option Fields
  | table _ [] => some []
  | table _ ((key, value) :: rest) => if key = dateKey then none else some ((key, value) :: rest)
  | _ => none

mutual

/-- Every table inside the value that begins with the reserved key stands for a
date. -/
def datesHold : Toml → Bool
  | table _ [] => true
  | table _ ((key, value) :: rest) =>
    if key = dateKey then isDateText value else datesHold value && fieldDatesHold rest
  | array items | tables items => itemDatesHold items
  | _ => true

/-- Every table inside the values of some fields that begins with the reserved
key stands for a date. -/
def fieldDatesHold : List (String × Toml) → Bool
  | [] => true
  | (_, value) :: rest => datesHold value && fieldDatesHold rest

/-- Every table inside some values that begins with the reserved key stands for a
date. -/
def itemDatesHold : List Toml → Bool
  | [] => true
  | value :: rest => datesHold value && itemDatesHold rest

end

end Toml

end DeclAnalysis
