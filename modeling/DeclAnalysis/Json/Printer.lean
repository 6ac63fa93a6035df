import DeclAnalysis.Json.Value
import DeclAnalysis.Decimal.Shortest

/-!
# Writing JSON text

Values are written on one line, or spread over lines with two blanks for every
level. Fields keep their order. Of the characters of a string only quotes,
backslashes and control characters are escaped.
-/

namespace DeclAnalysis

namespace Json

/-- A hexadecimal digit in lower case. -/
def hexDigit (n : Nat) : Char := Nat.digitChar n

/-- The characters that stand for a character inside a string. -/
def escapedChars (c : Char) : List Char :=
  match c with
  | '"' => ['\\', '"']
  | '\\' => ['\\', '\\']
  | '\x08' => ['\\', 'b']
  | '\x0c' => ['\\', 'f']
  | '\n' => ['\\', 'n']
  | '\r' => ['\\', 'r']
  | '\t' => ['\\', 't']
  | _ =>
    if c < ' ' then
      ['\\', 'u', '0', '0', hexDigit (c.toNat / 16), hexDigit (c.toNat % 16)]
    else [c]

/-- A text as a JSON string, quotes included. -/
def quoted (s : String) : String :=
  String.ofList ('"' :: s.toList.flatMap escapedChars ++ ['"'])

/-- A number as JSON text; a double keeps its decimal point. -/
def Number.text : Number → String
  | .integer n => toString n
  | .double d => d.pointedText

/-- A value that is neither a filled array nor a filled object. -/
def leafText : Json → String
  | .null => "null"
  | .bool b => if b then "true" else "false"
  | .number n => n.text
  | .string s => quoted s
  | .array _ => "[]"
  | .object _ => "\x7b\x7d"

mutual

/-- The value on one line, without blanks. -/
def compact : Json → String
  | .array (item :: rest) => "[" ++ compact item ++ compactItems rest ++ "]"
  | .object ((name, value) :: rest) =>
    "\x7b" ++ quoted name ++ ":" ++ compact value ++ compactFields rest ++ "\x7d"
  | leaf => leafText leaf

/-- The items of an array after the first. -/
def compactItems : List Json → String
  | [] => ""
  | item :: rest => "," ++ compact item ++ compactItems rest

/-- The fields of an object after the first. -/
def compactFields : List (String × Json) → String
  | [] => ""
  | (name, value) :: rest => "," ++ quoted name ++ ":" ++ compact value ++ compactFields rest

end

/-- The start of a line at a level. -/
def lineStart (level : Nat) : String := String.ofList ('\n' :: List.replicate (2 * level) ' ')

mutual

/-- The value over several lines, its closing bracket at the given level. -/
def spread (level : Nat) : Json → String
  | .array (item :: rest) =>
    "[" ++ lineStart (level + 1) ++ spread (level + 1) item ++ spreadItems (level + 1) rest
      ++ lineStart level ++ "]"
  | .object ((name, value) :: rest) =>
    "\x7b" ++ lineStart (level + 1) ++ quoted name ++ ": " ++ spread (level + 1) value
      ++ spreadFields (level + 1) rest ++ lineStart level ++ "\x7d"
  | leaf => leafText leaf

/-- The items of an array after the first, each on lines of its own. -/
def spreadItems (level : Nat) : List Json → String
  | [] => ""
  | item :: rest => "," ++ lineStart level ++ spread level item ++ spreadItems level rest

/-- The fields of an object after the first, each on lines of its own. -/
def spreadFields (level : Nat) : List (String × Json) → String
  | [] => ""
  | (name, value) :: rest =>
    "," ++ lineStart level ++ quoted name ++ ": " ++ spread level value
      ++ spreadFields level rest

end

/-- The value over several lines. -/
def pretty (value : Json) : String := spread 0 value

end Json

end DeclAnalysis
