import DeclAnalysis.Json.Value

/-!
# Reading JSON text

The reader walks over a list of characters. It fails in one of two ways: the
text ends inside a value, or a character stands where the grammar has no place
for it. Values nested deeper than a given limit count as malformed.

A value that nobody asked for is only delimited. The grammar of such a skipped
value is more generous: unpaired surrogate escapes, numbers out of range and
any nesting are accepted in it.
-/

namespace DeclAnalysis

namespace Json

/-- Why a text cannot be read. -/
inductive Flaw where
  /-- The text ends before the value is complete. -/
  | ended
  /-- A character stands where it may not stand. -/
  | malformed
deriving DecidableEq, Repr, Inhabited

/-- What becomes of a value that is read. -/
inductive Care where
  /-- The value is wanted. -/
  | kept
  /-- Only the end of the value is wanted. -/
  | skipped
deriving DecidableEq, Repr

/-- A reader takes characters off the front of a text. -/
abbrev Reader := StateT (List Char) (Except Flaw)

namespace Reader

/-- The characters that may stand between tokens. -/
def isBlank (c : Char) : Bool := c == ' ' || c == '\n' || c == '\t' || c == '\r'

/-- Passes over blanks. -/
def blanks : Reader Unit := modify (List.dropWhile isBlank)

/-- The next character, which stays in the text. -/
def peek? : Reader (Option Char) := return (← get).head?

/-- Drops the next character. -/
def drop : Reader Unit := modify List.tail

/-- The next character after blanks, which stays in the text; the text must not
end. -/
def next : Reader Char := do
  blanks
  match ← peek? with
  | some c => return c
  | none => throw .ended

/-- Reads the given characters. -/
def expect : List Char → Reader Unit
  | [] => return
  | c :: rest => do
    match ← peek? with
    | none => throw .ended
    | some d =>
      if c = d then
        drop
        expect rest
      else throw .malformed

/-! ### Numbers -/

/-- Takes decimal digits off the front. -/
def digits : Reader (List Nat) := do
  let text ← get
  let (taken, rest) := text.span Char.isDigit
  set rest
  return taken.map fun c => c.toNat - '0'.toNat

/-- The natural number that decimal digits write. -/
def ofDigits (places : List Nat) : Nat := places.foldl (fun n d => 10 * n + d) 0

/-- The flaw of a number that lacks a digit. A number that is kept and stops
at the end of the text is incomplete; a number that is skipped is malformed. -/
def missingDigit (care : Care) : Reader Unit := do
  match care, ← peek? with
  | .kept, none => throw .ended
  | _, _ => throw .malformed

/-- The digits of a fraction, if there is one. -/
def fraction? (care : Care) : Reader (Option (List Nat)) := do
  match ← peek? with
  | some '.' =>
    drop
    let places ← digits
    if places.isEmpty then missingDigit care
    return some places
  | _ => return none

/-- The value of an exponent, if there is one. -/
def exponent? (care : Care) : Reader (Option Int) := do
  let mark ← peek?
  if mark = some 'e' ∨ mark = some 'E' then
    drop
    let sign ← peek?
    if sign = some '+' ∨ sign = some '-' then drop
    let places ← digits
    if places.isEmpty then missingDigit care
    let value := ofDigits places
    return some (if sign = some '-' then -(value : Int) else value)
  else return none

/-- The greatest integer of 64 bits without a sign. -/
def maxNatural : Nat := 18446744073709551615

/-- The significand of a number, an integer of 64 bits, and the exponent that
goes with it. Digits that no longer fit are dropped; each dropped digit of the
whole part raises the exponent, and each taken digit of the fraction lowers it. -/
def significand (whole places : List Nat) : Nat × Int :=
  let rec takeWhole : Nat → List Nat → Nat × Int
    | n, [] => (n, 0)
    | n, d :: rest =>
      if maxNatural < 10 * n + d then (n, rest.length + 1) else takeWhole (10 * n + d) rest
  let rec takePlaces : Nat → Int → List Nat → Nat × Int
    | n, e, [] => (n, e)
    | n, e, d :: rest =>
      if maxNatural < 10 * n + d then (n, e) else takePlaces (10 * n + d) (e - 1) rest
  let (n, e) := takeWhole 0 whole
  takePlaces n e places

/-- The number written by a sign, the digits of its whole part, its fraction
and its exponent. A number without fraction and exponent is an integer if it
fits into 64 bits, with a sign for a negative one; minus zero is a double. -/
def numberOf
    (negative : Bool) (whole : List Nat)
    (fraction : Option (List Nat)) (exponent : Option Int) : Option Number :=
  let value := ofDigits whole
  let fits := if negative then 0 < value && value ≤ 9223372036854775808 else value ≤ maxNatural
  if fraction.isNone && exponent.isNone && fits then
    some (.integer (if negative then -(value : Int) else value))
  else
    let (n, e) := significand whole (fraction.getD [])
    (Double.ofDecimal? negative n (e + exponent.getD 0)).map .double

/-- Reads a number. A kept number must lie in the range of a double. -/
def number (care : Care) : Reader Json := do
  let negative := (← peek?) = some '-'
  if negative then drop
  let whole ← digits
  if whole.isEmpty then missingDigit care
  if whole.head? = some 0 ∧ 1 < whole.length then throw .malformed
  let fraction ← fraction? care
  let exponent ← exponent? care
  match numberOf negative whole fraction exponent with
  | some n => return .number n
  | none => if care = .kept then throw .malformed else return .null

/-! ### Strings -/

/-- The number that a hexadecimal digit stands for. -/
def hexDigit? (c : Char) : Option Nat :=
  if '0' ≤ c ∧ c ≤ '9' then some (c.toNat - '0'.toNat)
  else if 'a' ≤ c ∧ c ≤ 'f' then some (c.toNat - 'a'.toNat + 10)
  else if 'A' ≤ c ∧ c ≤ 'F' then some (c.toNat - 'A'.toNat + 10)
  else none

/-- The number written by four hexadecimal digits. -/
def hexUnit? (a b c d : Char) : Option Nat := do
  return 4096 * (← hexDigit? a) + 256 * (← hexDigit? b) + 16 * (← hexDigit? c) + (← hexDigit? d)

/-- The unit is the first half of a surrogate pair. -/
def isHighSurrogate (n : Nat) : Bool := 0xD800 ≤ n && n ≤ 0xDBFF

/-- The unit is the second half of a surrogate pair. -/
def isLowSurrogate (n : Nat) : Bool := 0xDC00 ≤ n && n ≤ 0xDFFF

/-- The character of a surrogate pair. -/
def pairChar (high low : Nat) : Char :=
  Char.ofNat (0x10000 + 0x400 * (high - 0xD800) + (low - 0xDC00))

/-- The character of a one-letter escape. -/
def escaped? : Char → Option Char
  | '"' => some '"'
  | '\\' => some '\\'
  | '/' => some '/'
  | 'b' => some '\x08'
  | 'f' => some '\x0c'
  | 'n' => some '\n'
  | 'r' => some '\r'
  | 't' => some '\t'
  | _ => none

/-- The flaw of an escape that lacks hexadecimal digits: the text ends if fewer
than four bytes are left of it. -/
def shortEscape (rest : List Char) : Flaw :=
  if rest.foldl (fun n c => n + c.utf8Size) 0 < 4 then .ended else .malformed

/-- Reads a string whose opening quote is taken already; `taken` holds the
characters before, the last one first. In a skipped string an unpaired
surrogate stands for the replacement character. -/
def stringTail (care : Care) (taken : List Char) :
    List Char → Except Flaw (String × List Char)
  | [] => .error .ended
  | '"' :: rest => .ok (String.ofList taken.reverse, rest)
  | '\\' :: 'u' :: a :: b :: c :: d :: rest =>
    match hexUnit? a b c d with
    | none => .error .malformed
    | some n =>
      if care = .skipped then stringTail care ('\uFFFD' :: taken) rest
      else if isLowSurrogate n then .error .malformed
      else if isHighSurrogate n then
        match rest with
        | '\\' :: 'u' :: e :: f :: g :: h :: rest =>
          match hexUnit? e f g h with
          | none => .error .malformed
          | some m =>
            if isLowSurrogate m then stringTail care (pairChar n m :: taken) rest
            else .error .malformed
        | '\\' :: 'u' :: rest => .error (shortEscape rest)
        | ['\\'] => .error .ended
        | [] => .error .ended
        | _ => .error .malformed
      else stringTail care (Char.ofNat n :: taken) rest
  | '\\' :: 'u' :: rest => .error (shortEscape rest)
  | ['\\'] => .error .ended
  | '\\' :: c :: rest =>
    match escaped? c with
    | some e => stringTail care (e :: taken) rest
    | none => .error .malformed
  | c :: rest => if c < ' ' then .error .malformed else stringTail care (c :: taken) rest

/-- Reads a string whose opening quote is next. -/
def string (care : Care) : Reader String := do
  drop
  let (s, rest) ← stringTail care [] (← get)
  set rest
  return s

/-! ### Arrays and objects -/

/-- The next character of an array or object after blanks: nothing when
`closing` ends it, and otherwise the first character of the next entry. Entries
are set apart by single commas. -/
def entry? (closing : Char) (first : Bool) : Reader (Option Char) := do
  let c ← next
  if c = closing then
    drop
    return none
  if first then return some c
  if c = ',' then
    drop
    let d ← next
    if d = closing then throw .malformed
    return some d
  throw .malformed

/-- Reads the name of a field; `c` is the next character. -/
def fieldName (care : Care) (c : Char) : Reader String := do
  if c ≠ '"' then throw .malformed
  string care

/-- Reads the colon between the name of a field and its value. -/
def colon : Reader Unit := do
  let c ← next
  if c ≠ ':' then throw .malformed
  drop

/-- Reads a literal name such as `true`. -/
def word (text : String) (value : Json) : Reader Json := do
  expect text.toList
  return value

/-- Reads a value that is neither an array nor an object; `c` is its first
character. -/
def scalar (care : Care) (c : Char) : Reader Json := do
  match c with
  | 'n' => word "null" .null
  | 't' => word "true" (.bool true)
  | 'f' => word "false" (.bool false)
  | '"' => return .string (← string care)
  | _ => if c = '-' ∨ c.isDigit then number care else throw .malformed

mutual

/-- Reads a value inside which arrays and objects may be nested `depth` deep.
The first argument bounds the number of steps. -/
def value : Nat → Care → Nat → Reader Json
  | 0, _, _ => throw .ended
  | fuel + 1, care, depth => do
    let c ← next
    if c = '[' ∨ c = '{' then
      match care, depth with
      | .kept, 0 => throw .malformed
      | _, _ =>
        drop
        if c = '[' then return .array (← items fuel care (depth - 1) true)
        else return .object (← fields fuel care (depth - 1) true)
    else scalar care c

/-- Reads the items of an array up to its end. -/
def items : Nat → Care → Nat → Bool → Reader (List Json)
  | 0, _, _, _ => throw .ended
  | fuel + 1, care, depth, first => do
    match ← entry? ']' first with
    | none => return []
    | some _ =>
      let item ← value fuel care depth
      return item :: (← items fuel care depth false)

/-- Reads the fields of an object up to its end. -/
def fields : Nat → Care → Nat → Bool → Reader (List (String × Json))
  | 0, _, _, _ => throw .ended
  | fuel + 1, care, depth, first => do
    match ← entry? '\x7d' first with
    | none => return []
    | some c =>
      let name ← fieldName care c
      colon
      let item ← value fuel care depth
      return (name, item) :: (← fields fuel care depth false)

end

/-- A bound on the steps that the rest of the text can take: every two steps
take a character. -/
def stepBound : Reader Nat := return 2 * (← get).length + 2

/-- Reads a value inside which arrays and objects may be nested `depth` deep. -/
def wanted (depth : Nat) : Reader Json := do
  value (← stepBound) .kept depth

/-- Passes over a value. -/
def unwanted : Reader Unit := do
  let _ ← value (← stepBound) .skipped 0

/-- Only blanks may be left. -/
def finish : Reader Unit := do
  blanks
  match ← peek? with
  | none => return
  | some _ => throw .malformed

end Reader

/-- Reads a text that holds one value, of any nesting. -/
def ofText (text : String) : Except Flaw Json := do
  let chars := text.toList
  let (value, _) ← (do
    let value ← Reader.wanted chars.length
    Reader.finish
    return value : Reader Json).run chars
  return value

end Json

end DeclAnalysis
