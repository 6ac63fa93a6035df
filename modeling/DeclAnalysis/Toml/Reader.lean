import DeclAnalysis.Toml.Table

/-!
# Reading TOML text

The reader walks over a list of characters and gives up where the grammar has
no place for the next one. Arrays and inline tables may be nested in one another
to a limited depth, and a dotted key may have a limited number of parts.
-/

namespace DeclAnalysis

namespace Toml

/-- A reader takes characters off the front of a text. -/
abbrev Reader := StateT (List Char) Option

namespace Reader

/-- Arrays and tables may be nested less deep than this, and dotted keys have
fewer parts. -/
def depthLimit : Nat := 80

/-! ### Characters -/

/-- A character that ends neither a word nor a line. -/
def isBlank (c : Char) : Bool := c == ' ' || c == '\t'

/-- A character that may stand in a comment: any but a control character. -/
def isPlain (c : Char) : Bool := c == '\t' || (' ' ≤ c && c ≤ '~') || '\x80' ≤ c

/-- A character of a key without quotes. -/
def isKeyChar (c : Char) : Bool :=
  ('A' ≤ c && c ≤ 'Z') || ('a' ≤ c && c ≤ 'z') || c.isDigit || c == '-' || c == '_'

/-- A character after which a value without quotes is over. -/
def endsWord (c : Char) : Bool :=
  isBlank c || c == '\n' || c == '\r' || c == ',' || c == ']' || c == '\x7d' || c == '#'

/-- Fails. -/
def refuse {α : Type} : Reader α := fun _ => none

/-- The next character, which stays in the text. -/
def peek? : Reader (Option Char) := return (← get).head?

/-- Takes the next character. -/
def next : Reader Char := do
  match ← get with
  | [] => refuse
  | c :: rest =>
    set rest
    return c

/-- Reads one character. -/
def expect (c : Char) : Reader Unit := do
  if (← next) ≠ c then refuse

/-- Passes over blanks. -/
def blanks : Reader Unit := modify (List.dropWhile isBlank)

/-- Takes the longest run of characters of a class. -/
def takeWhile (isWanted : Char → Bool) : Reader (List Char) := do
  let (taken, rest) := (← get).span isWanted
  set rest
  return taken

/-- What is left after blanks, line breaks and comments. -/
def afterGap (inComment : Bool) : List Char → List Char
  | [] => []
  | '\n' :: rest => afterGap false rest
  | '\r' :: '\n' :: rest => afterGap false rest
  | c :: rest =>
    if inComment then (if isPlain c then afterGap true rest else c :: rest)
    else if isBlank c then afterGap false rest
    else if c = '#' then afterGap true rest
    else c :: rest

/-- Passes over blanks, line breaks and comments. -/
def gap : Reader Unit := modify (afterGap false)

/-- Reads the rest of a line on which nothing but a comment may follow. -/
def endOfLine : Reader Unit := do
  blanks
  if (← peek?) = some '#' then
    let _ ← takeWhile isPlain
  match ← get with
  | [] => return
  | '\n' :: rest => set rest
  | '\r' :: '\n' :: rest => set rest
  | _ => refuse

/-! ### Strings -/

/-- The number that hexadecimal digits write. -/
def hexadecimal? (digits : List Char) : Option Nat :=
  digits.foldlM (fun n c =>
    if c.isDigit then some (16 * n + (c.toNat - '0'.toNat))
    else if 'a' ≤ c ∧ c ≤ 'f' then some (16 * n + (c.toNat - 'a'.toNat + 10))
    else if 'A' ≤ c ∧ c ≤ 'F' then some (16 * n + (c.toNat - 'A'.toNat + 10))
    else none) 0

/-- The character of a number. -/
def char? (n : Nat) : Option Char := if n.isValidChar then some (Char.ofNat n) else none

/-- The character that an escape writes, and what follows it; the backslash is
taken already. -/
def escaped? : List Char → Option (Char × List Char)
  | 'b' :: rest => some ('\x08', rest)
  | 'f' :: rest => some ('\x0c', rest)
  | 'n' :: rest => some ('\n', rest)
  | 'r' :: rest => some ('\r', rest)
  | 't' :: rest => some ('\t', rest)
  | '"' :: rest => some ('"', rest)
  | '\\' :: rest => some ('\\', rest)
  | 'u' :: a :: b :: c :: d :: rest => do
    return (← char? (← hexadecimal? [a, b, c, d]), rest)
  | 'U' :: a :: b :: c :: d :: e :: f :: g :: h :: rest => do
    return (← char? (← hexadecimal? [a, b, c, d, e, f, g, h]), rest)
  | _ => none

/-- Whether blanks up to the end of the line follow. -/
def lineEnds (text : List Char) : Bool :=
  match text.dropWhile isBlank with
  | '\n' :: _ => true
  | '\r' :: '\n' :: _ => true
  | _ => false

/-- The rest of a string on one line up to its closing quote. Escapes, if the
kind of string has them, take more than one character, so the first argument
bounds the number of steps. -/
def lineTail (quote : Char) (escapes : Bool) : Nat → List Char → Reader String
  | 0, _ => refuse
  | fuel + 1, taken => do
    let c ← next
    if c = quote then return String.ofList taken.reverse
    else if escapes && c = '\\' then
      match escaped? (← get) with
      | none => refuse
      | some (e, rest) =>
        set rest
        lineTail quote escapes fuel (e :: taken)
    else if isPlain c then lineTail quote escapes fuel (c :: taken)
    else refuse

/-- The quotes that end a string over several lines, if they do: three, of which
up to two more in front belong to the string. -/
def closing? (quote : Char) (text : List Char) : Option (Nat × List Char) :=
  let count := min 5 (text.takeWhile (· == quote)).length
  if 3 ≤ count then some (count - 3, text.drop count) else none

/-- The rest of a string over several lines up to its closing quotes. A
backslash at the end of a line passes over all blanks and line breaks after it. -/
def linesTail (quote : Char) (escapes : Bool) : Nat → List Char → Reader String
  | 0, _ => refuse
  | fuel + 1, taken => do
    let text ← get
    match closing? quote text with
    | some (extra, rest) =>
      set rest
      return String.ofList (taken.reverse ++ List.replicate extra quote)
    | none =>
      match text with
      | [] => refuse
      | '\n' :: rest =>
        set rest
        linesTail quote escapes fuel ('\n' :: taken)
      | '\r' :: '\n' :: rest =>
        set rest
        linesTail quote escapes fuel ('\n' :: taken)
      | c :: rest =>
        if escapes && c = '\\' then
          if lineEnds rest then
            set (skipped rest)
            linesTail quote escapes fuel taken
          else
            match escaped? rest with
            | none => refuse
            | some (e, rest) =>
              set rest
              linesTail quote escapes fuel (e :: taken)
        else if isPlain c then
          set rest
          linesTail quote escapes fuel (c :: taken)
        else refuse
where
  /-- What is left after blanks and line breaks. -/
  skipped : List Char → List Char
    | '\n' :: rest => skipped rest
    | '\r' :: '\n' :: rest => skipped rest
    | c :: rest => if isBlank c then skipped rest else c :: rest
    | [] => []

/-- Reads a string on one line; its opening quote is next. -/
def lineString (quote : Char) : Reader String := do
  expect quote
  lineTail quote (quote == '"') ((← get).length + 1) []

/-- Reads a string; its opening quote or quotes are next. A line break right
after three opening quotes does not belong to the string. -/
def string (quote : Char) : Reader String := do
  let text ← get
  if text.take 3 = [quote, quote, quote] then
    set <|
      match text.drop 3 with
      | '\n' :: rest => rest
      | '\r' :: '\n' :: rest => rest
      | rest => rest
    linesTail quote (quote == '"') (text.length + 1) []
  else lineString quote

/-! ### Numbers -/

/-- The digits of a text in which single underscores may stand between digits. -/
def digits? (isDigit : Char → Bool) : List Char → Option (List Char)
  | [] => none
  | [c] => if isDigit c then some [c] else none
  | c :: '_' :: rest => if isDigit c then (digits? isDigit rest).map (c :: ·) else none
  | c :: rest => if isDigit c then (digits? isDigit rest).map (c :: ·) else none

/-- The integer lies in the range of 64 bits. -/
def inRange (n : Int) : Bool := -9223372036854775808 ≤ n && n ≤ 9223372036854775807

/-- The integer that digits of a base write. -/
def inBase? (base : Nat) (isDigit : Char → Bool) (text : List Char) : Option Toml := do
  let digits ← digits? isDigit text
  let n := digits.foldl (fun n c => base * n + ((hexadecimal? [c]).getD 0)) 0
  if inRange n then return .integer n else none

/-- A sign in front of a number, and what follows it. -/
def signed : List Char → Bool × List Char
  | '-' :: rest => (true, rest)
  | '+' :: rest => (false, rest)
  | rest => (false, rest)

/-- The decimal digits of a whole number without a sign; only zero begins with a
zero. -/
def whole? (text : List Char) : Option (List Char) := do
  let digits ← digits? Char.isDigit text
  if digits.head? = some '0' ∧ digits ≠ ['0'] then none else return digits

/-- The integer that a decimal text writes. -/
def decimal? (text : List Char) : Option Toml := do
  let (negative, rest) := signed text
  let n ← natural? (← whole? rest)
  let value : Int := if negative then -(n : Int) else n
  if inRange value then return .integer value else none

/-- The number `± digits · 10 ^ exponent`. The digits are those of `n`, of which
there are `length`; beyond a few hundred places the number is infinite or zero. -/
def realOf (negative : Bool) (n length : Nat) (exponent : Int) : Real :=
  if n = 0 then .finite (.zero negative)
  else
    let leading := exponent + length
    if 400 < leading then .infinite negative
    else if leading < -400 then .finite (.zero negative)
    else
      let num := n * tenTo exponent.toNat
      let den := tenTo (-exponent).toNat
      match Double.nearest? negative num den with
      | some d => .finite d
      | none => .infinite negative

/-- The digits behind the point of a number, given the text from the point on. -/
def places? : List Char → Option (List Char)
  | [] => some []
  | _ :: places => digits? Char.isDigit places

/-- The exponent of a number, given the text from its mark on. -/
def exponent? : List Char → Option Int
  | [] => some 0
  | _ :: scale => do
    let (negative, rest) := signed scale
    let n ← natural? (← digits? Char.isDigit rest)
    return if negative then -(n : Int) else n

/-- The real number that a text with a fraction or an exponent writes. Positive
numbers beyond the range of a double are refused, negative ones are infinite. -/
def fractional? (text : List Char) : Option Toml := do
  let (negative, rest) := signed text
  let (mantissa, scale) := rest.span fun c => c != 'e' && c != 'E'
  let (front, back) := mantissa.span (· != '.')
  if scale.isEmpty && back.isEmpty then none
  let whole ← whole? front
  let places ← places? back
  let exponent ← exponent? scale
  let digits := (whole ++ places).dropWhile (· == '0')
  let n := (natural? digits).getD 0
  match realOf negative n digits.length (exponent - places.length) with
  | .infinite false => none
  | number => return .real number

/-- The value of a word for a number beyond all others, or for none. -/
def beyond? (text : List Char) : Option Toml :=
  let (negative, rest) := signed text
  if rest = "inf".toList then some (.real (.infinite negative))
  else if rest = "nan".toList then some (.real .notANumber)
  else none

/-- The value that a word without quotes stands for. -/
def word? (text : List Char) : Option Toml :=
  if text = "true".toList then some (.boolean true)
  else if text = "false".toList then some (.boolean false)
  else
    match text with
    | '0' :: 'x' :: rest => inBase? 16 (fun c => (hexadecimal? [c]).isSome) rest
    | '0' :: 'o' :: rest => inBase? 8 (fun c => '0' ≤ c && c ≤ '7') rest
    | '0' :: 'b' :: rest => inBase? 2 (fun c => c == '0' || c == '1') rest
    | _ =>
      decimal? text <|> fractional? text <|> beyond? text
        <|> (Datetime.ofText? .strict text).map .datetime

/-- Reads a value that is a word without quotes. The time after a date may be
set apart from it by a single blank. -/
def word : Reader Toml := do
  let first ← takeWhile fun c => !endsWord c
  let text ←
    match (Date.ofText? first).isSome, ← get with
    | true, ' ' :: c :: rest =>
      if c.isDigit then do
        set (c :: rest)
        let clock ← takeWhile fun c => !endsWord c
        pure (first ++ ' ' :: clock)
      else pure first
    | _, _ => pure first
  match word? text with
  | some value => return value
  | none => refuse

/-! ### Keys -/

/-- Reads one part of a key. -/
def keyPart : Reader String := do
  match ← peek? with
  | some '"' => lineString '"'
  | some '\'' => lineString '\''
  | _ =>
    let part ← takeWhile isKeyChar
    if part.isEmpty then refuse else return String.ofList part

/-- Reads the parts of a key; blanks may stand around each. -/
def keyParts : Nat → Reader (List String)
  | 0 => refuse
  | fuel + 1 => do
    blanks
    let part ← keyPart
    blanks
    if (← peek?) = some '.' then
      expect '.'
      return part :: (← keyParts fuel)
    else return [part]

/-- Reads a key: the parts before the last one, and the last one. -/
def key : Reader (Path × String) := do
  let parts ← keyParts (depthLimit - 1)
  match parts.getLast? with
  | none => refuse
  | some last => return (parts.dropLast, last)

/-! ### Values -/

mutual

/-- Reads a value inside which arrays and tables may be nested `depth` deep. The
first argument bounds the number of steps. -/
def value : Nat → Nat → Reader Toml
  | 0, _ => refuse
  | fuel + 1, depth => do
    match ← peek?, depth with
    | some '"', _ => return .string (← string '"')
    | some '\'', _ => return .string (← string '\'')
    | some '[', depth + 1 =>
      expect '['
      return .array (← items fuel depth)
    | some '\x7b', depth + 1 =>
      expect '\x7b'
      blanks
      let pairs ← if (← peek?) = some '\x7d' then pure [] else pairs fuel depth
      expect '\x7d'
      match ofPairs? pairs with
      | some braced => return braced
      | none => refuse
    | _, _ => word

/-- Reads the items of an array up to its closing bracket. Each may be followed
by a comma, and must be if it is not the last. -/
def items : Nat → Nat → Reader (List Toml)
  | 0, _ => refuse
  | fuel + 1, depth => do
    gap
    if (← peek?) = some ']' then
      expect ']'
      return []
    let item ← value fuel depth
    gap
    match ← next with
    | ']' => return [item]
    | ',' => return item :: (← items fuel depth)
    | _ => refuse

/-- Reads the pairs of an inline table; single commas stand between them. -/
def pairs : Nat → Nat → Reader (List (Path × String × Toml))
  | 0, _ => refuse
  | fuel + 1, depth => do
    let (path, last) ← key
    expect '='
    blanks
    let item ← value fuel depth
    blanks
    let pair := (path, last, item)
    if (← peek?) = some ',' then
      expect ','
      return pair :: (← pairs fuel depth)
    else return [pair]

end

/-! ### Documents -/

/-- Reads a header; its opening bracket is next. -/
def header : Reader Statement := do
  expect '['
  if (← peek?) = some '[' then
    expect '['
    let (path, last) ← key
    expect ']'
    expect ']'
    endOfLine
    return .openItem path last
  else
    let (path, last) ← key
    expect ']'
    endOfLine
    return .openTable path last

/-- Reads a pair on a line of its own. -/
def pair : Reader Statement := do
  let (path, last) ← key
  expect '='
  blanks
  let item ← value (2 * (← get).length + 2) (depthLimit - 1)
  endOfLine
  return .pair path last item

/-- Reads statements to the end of the text. -/
def statements : Nat → Reader (List Statement)
  | 0 => refuse
  | fuel + 1 => do
    gap
    match ← peek? with
    | none => return []
    | some c =>
      let statement ← if c = '[' then header else pair
      return statement :: (← statements fuel)

end Reader

/-- The table that a TOML document describes. A byte order mark may stand before
it. -/
def ofText? (text : String) : Option Fields := do
  let chars :=
    match text.toList with
    | '\uFEFF' :: rest => rest
    | chars => chars
  let (statements, _) ← StateT.run (Reader.statements (chars.length + 1)) chars
  ofStatements? statements

end Toml

end DeclAnalysis
