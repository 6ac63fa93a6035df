import DeclAnalysis.Tree.Decode
import DeclAnalysis.Json.Reader

/-!
# Reading trees from text

The text of a file is read from front to back, so of several faults the first
one counts. The fields of the file are read as they come, and those that it
does not have are skipped. Of a declaration the tag is read as it comes; its
other fields are read once the declaration is complete.
-/

namespace DeclAnalysis

/-- Why a text is not a declaration tree. -/
inductive TextFault where
  /-- The text is not JSON. -/
  | flaw (flaw : Json.Flaw)
  /-- The text is JSON of another shape. -/
  | shape (error : ShapeError)
deriving Repr, Inhabited

namespace Interchange

open Json Schema

/-- A reader of trees takes characters off the front of a text. -/
abbrev TreeReader := StateT (List Char) (Except TextFault)

/-- Reads a part of the text that may only fail by not being JSON. -/
def lift {α : Type} (reader : Reader α) : TreeReader α := fun text =>
  match reader.run text with
  | .ok result => .ok result
  | .error flaw => .error (.flaw flaw)

/-- Fails because of the shape of a value. -/
def refuse {α : Type} (error : ShapeError) : TreeReader α := throw (.shape error)

/-- A part of the reading that may only fail because of the shape of a value. -/
def shaped {α : Type} : Result α → TreeReader α
  | .ok a => return a
  | .error error => refuse error

/-- The arrays and objects that a text may nest in one another. -/
def nesting : Nat := 127

/-- The arrays and objects that the fields of a declaration may nest in one
another: three of them are open already. -/
def fieldNesting : Nat := nesting - 3

/-- Fails because the value that begins with `c` is not of the expected type.
Arrays and objects are not looked into, and everything else is read first. -/
def mismatch {α : Type} (c : Char) (expected : String) : TreeReader α := do
  if c = '[' then refuse (.invalidType .sequence expected)
  else if c = '\x7b' then refuse (.invalidType .map expected)
  else
    let json ← lift (Reader.scalar .kept c)
    refuse (.invalidType (.ofJson json) expected)

/-- Reads a string. -/
def text (expected : String) : TreeReader String := do
  let c ← lift Reader.next
  if c = '"' then lift (Reader.string .kept) else mismatch c expected

/-- Reads the tag of a declaration. -/
def tag : TreeReader (Variant Declaration) := do
  let name ← text "variant identifier"
  shaped (variantOf false Schema.declarations (.string name))

/-- Reads a field that is kept until the declaration is complete. -/
def keptValue : TreeReader Json := do
  let fuel ← lift Reader.stepBound
  lift (Reader.value fuel .kept fieldNesting)

/-- Reads the fields of a declaration up to its end: the kind that its tag names
and the other fields. The first argument bounds the number of fields. -/
def declarationFields : Nat → Bool → Option (Variant Declaration) →
    TreeReader (Option (Variant Declaration) × List (String × Json))
  | 0, _, _ => throw (.flaw .ended)
  | fuel + 1, first, kind => do
    match ← lift (Reader.entry? '\x7d' first) with
    | none => return (kind, [])
    | some c =>
      let name ← lift (Reader.fieldName .kept c)
      if name = tagField then
        if kind.isSome then refuse (.repeatedField tagField)
        lift Reader.colon
        let v ← tag
        declarationFields fuel false (some v)
      else
        lift Reader.colon
        let value ← keptValue
        let (kind, rest) ← declarationFields fuel false kind
        return (kind, (name, value) :: rest)

/-- Reads the items of a declaration after its tag, up to its end. The argument
bounds the number of items. -/
def declarationItems : Nat → TreeReader (List Json)
  | 0 => throw (.flaw .ended)
  | fuel + 1 => do
    match ← lift (Reader.entry? ']' false) with
    | none => return []
    | some _ =>
      let item ← keptValue
      return item :: (← declarationItems fuel)

/-- Reads a declaration. -/
def declaration : TreeReader Declaration := do
  let c ← lift Reader.next
  let fuel ← lift Reader.stepBound
  if c = '\x7b' then
    lift Reader.drop
    match ← declarationFields fuel true none with
    | (some v, fields) => shaped (v.ofFields (fieldParts fields))
    | (none, _) => refuse (.missingField tagField)
  else if c = '[' then
    lift Reader.drop
    match ← lift (Reader.entry? ']' true) with
    | none => refuse (.missingField tagField)
    | some _ =>
      let v ← tag
      let items ← declarationItems fuel
      shaped (v.ofItems (parts items))
  else mismatch c declarationTitle

/-- Reads declarations up to the end of their array. The first argument bounds
their number. -/
def declarationsUpTo : Nat → Bool → TreeReader (List Declaration)
  | 0, _ => throw (.flaw .ended)
  | fuel + 1, first => do
    match ← lift (Reader.entry? ']' first) with
    | none => return []
    | some _ =>
      let d ← declaration
      return d :: (← declarationsUpTo fuel false)

/-- Reads an array of declarations. -/
def declarations : TreeReader (List Declaration) := do
  let c ← lift Reader.next
  if c = '[' then
    lift Reader.drop
    declarationsUpTo (← lift Reader.stepBound) true
  else mismatch c "a sequence"

/-- Reads the fields of a file up to its end. The first argument bounds their
number, `named` tells whether the name has been read, and `found` holds the
declarations once they have been read. -/
def fileFields : Nat → (first named : Bool) → Option (List Declaration) →
    TreeReader (List Declaration)
  | 0, _, _, _ => throw (.flaw .ended)
  | fuel + 1, first, named, found => do
    match ← lift (Reader.entry? '\x7d' first) with
    | none => return found.getD []
    | some c =>
      match ← lift (Reader.fieldName .kept c) with
      | "name" =>
        if named then refuse (.repeatedField "name")
        lift Reader.colon
        let _ ← text "a string"
        fileFields fuel false true found
      | "declarations" =>
        if found.isSome then refuse (.repeatedField "declarations")
        lift Reader.colon
        let ds ← declarations
        fileFields fuel false named (some ds)
      | _ =>
        lift Reader.colon
        lift Reader.unwanted
        fileFields fuel false named found

/-- Reads the items of a file up to its end: its name and its declarations, each
of which may be left out. A third item is out of place. -/
def fileItems : TreeReader (List Declaration) := do
  match ← lift (Reader.entry? ']' true) with
  | none => return []
  | some _ =>
    let _ ← text "a string"
    match ← lift (Reader.entry? ']' false) with
    | none => return []
    | some _ =>
      let ds ← declarations
      let c ← lift Reader.next
      if c ≠ ']' then throw (.flaw .malformed)
      lift Reader.drop
      return ds

/-- Reads a whole text. -/
def file : TreeReader (List Declaration) := do
  let c ← lift Reader.next
  let fuel ← lift Reader.stepBound
  let ds ←
    if c = '\x7b' then
      lift Reader.drop
      fileFields fuel true false none
    else if c = '[' then
      lift Reader.drop
      fileItems
    else mismatch c Schema.file.title
  lift Reader.finish
  return ds

end Interchange

namespace SourceFile

/-- The file that a text describes; `name` replaces the name that it gives
itself. -/
def ofText (name : String) (text : String) : Except TextFault SourceFile := do
  let (declarations, _) ← Interchange.file.run text.toList
  return ofDeclarations name declarations

end SourceFile

end DeclAnalysis
