/-!
# Command lines

A command line is a list of words. Words that begin with a dash are options:
flags, or options with a value, which follows in the same word or in the next
one. An option is given at most once. After a double dash no word is an option.
-/

namespace DeclAnalysis

namespace CommandLine

/-- The options. -/
inductive OptionName where
  | help
  | version
  | logLevel
  | logJson
  | format
  | failOnWarnings
  | severity
  | noColor
  | force
deriving DecidableEq, Repr, Inhabited

/-- How an option is written. -/
structure OptionForm where
  name : OptionName
  long : String
  short : Option Char := none
  hasValue : Bool := false
  /-- The values that the option may have; any value if the list is empty. -/
  values : List String := []
deriving Repr, Inhabited

/-- How the words of a command are to be read. -/
structure Grammar where
  options : List OptionForm
  /-- The number of words that are not options. -/
  operands : Nat
  /-- An operand may be the empty word. -/
  emptyOperands : Bool := false
deriving Repr, Inhabited

/-- Why reading stops before the end. -/
inductive Stop where
  | misuse
  | help
  | version
deriving DecidableEq, Repr, Inhabited

/-- The words that have been read. -/
structure Matches where
  /-- The options and their values, the last one first; a flag has none. -/
  options : List (OptionName × Option String) := []
  /-- The words that are not options, the last one first. -/
  operands : List String := []
  /-- The option that waits for its value. -/
  pending : Option OptionForm := none
  /-- No word is an option any more. -/
  literal : Bool := false
deriving Repr, Inhabited

namespace Matches

/-- The option has been given. -/
def has (m : Matches) (name : OptionName) : Bool := m.options.any fun (n, _) => n = name

/-- The value of an option. -/
def value? (m : Matches) (name : OptionName) : Option String := (m.options.lookup name).join

/-- Takes note of an option. -/
def add (m : Matches) (name : OptionName) (value : Option String) : Except Stop Matches :=
  if m.has name then .error .misuse
  else .ok { m with options := (name, value) :: m.options, pending := none }

/-- Takes note of an option with a value. -/
def addValue (m : Matches) (form : OptionForm) (value : String) : Except Stop Matches :=
  if form.values.isEmpty || form.values.contains value then m.add form.name (some value)
  else .error .misuse

/-- Takes note of a flag. -/
def addFlag (m : Matches) (form : OptionForm) : Except Stop Matches :=
  match form.name with
  | .help => .error .help
  | .version => .error .version
  | name => m.add name none

end Matches

/-- A long option and the value that follows it in the same word. -/
def splitLong : List Char → List Char → String × Option String
  | name, [] => (String.ofList name.reverse, none)
  | name, '=' :: value => (String.ofList name.reverse, some (String.ofList value))
  | name, c :: rest => splitLong (c :: name) rest

/-- Reads a word with a long option; the dashes are taken already. -/
def readLong (g : Grammar) (m : Matches) (word : List Char) : Except Stop Matches :=
  let (name, value) := splitLong [] word
  match g.options.find? (·.long = name), value with
  | none, _ => .error .misuse
  | some form, some value => if form.hasValue then m.addValue form value else .error .misuse
  | some form, none => if form.hasValue then .ok { m with pending := some form } else m.addFlag form

/-- Reads a word with short options; the dash is taken already. What follows an
option with a value is its value, without an equals sign in front. -/
def readShort (g : Grammar) (m : Matches) : List Char → Except Stop Matches
  | [] => .ok m
  | c :: rest =>
    match g.options.find? (·.short = some c) with
    | none => .error .misuse
    | some form =>
      if form.hasValue then
        match rest with
        | [] => .ok { m with pending := some form }
        | '=' :: value => m.addValue form (String.ofList value)
        | value => m.addValue form (String.ofList value)
      else
        match m.addFlag form with
        | .ok m => readShort g m rest
        | .error stop => .error stop

/-- Reads a word that is not an option. -/
def readOperand (g : Grammar) (m : Matches) (word : String) : Except Stop Matches :=
  if m.operands.length < g.operands && (g.emptyOperands || word ≠ "") then
    .ok { m with operands := word :: m.operands }
  else .error .misuse

/-- Reads a word. A word with an option cannot be the value that an option waits
for. -/
def readWord (g : Grammar) (m : Matches) (word : String) : Except Stop Matches :=
  if m.literal then readOperand g m word
  else
    match word.toList, m.pending with
    | ['-', '-'], none => .ok { m with literal := true }
    | '-' :: '-' :: long, none => readLong g m long
    | '-' :: c :: short, none => readShort g m (c :: short)
    | '-' :: _ :: _, some _ => .error .misuse
    | _, some form => m.addValue form word
    | _, none => readOperand g m word

/-- The words must not end while an option waits for its value. -/
def finished (m : Matches) : Except Stop Matches :=
  if m.pending.isSome then .error .misuse else .ok m

/-- Reads all words. -/
def readAll (g : Grammar) (words : List String) : Except Stop Matches := do
  finished (← words.foldlM (readWord g) {})

/-- Reads the words up to the first one that is neither an option nor the value
of one, and gives back what is left from there on. -/
def readOptions (g : Grammar) (m : Matches) :
    List String → Except Stop (Matches × List String)
  | [] => return (← finished m, [])
  | word :: rest => do
    let isOperand := word.toList.head? ≠ some '-' || word = "-"
    if m.pending.isNone && isOperand then return (m, word :: rest)
    let m ← readWord g m word
    if m.literal then .error .misuse else readOptions g m rest

end CommandLine

end DeclAnalysis
