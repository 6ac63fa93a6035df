import DeclAnalysis.Tree.Schema
import DeclAnalysis.Tree.ShapeError

/-!
# Reading trees from JSON values

A node is an object of its fields or an array of them in order; an expression
is always an object. The fields of an object are read in the order in which
they stand there, unknown ones are passed over, and only after that missing
ones are looked for. A tag is read before everything else.

Reading follows the structure of the value: what can be read from a value is
determined by one layer of it, whose entries stand for what can be read from
them.
-/

namespace DeclAnalysis

namespace Schema

/-- Reading fails with the first error met. -/
abbrev Result := Except ShapeError

/-- A value in its place: what it is, and what can be read from it. -/
structure Part where
  json : Json
  read : (a : Arity) → (i : Item) → Result (a.Of i.Value)

/-- One layer of a JSON value. -/
inductive Layer where
  | leaf (json : Json)
  | array (items : List Part)
  | object (fields : List (String × Part))

namespace Layer

/-- What the value is. -/
def found : Layer → Found
  | leaf json => .ofJson json
  | array _ => .sequence
  | object _ => .map

/-- The value is null. -/
def isNull : Layer → Bool
  | leaf .null => true
  | _ => false

/-- The error that the value is not of the expected type. -/
def mismatch {α : Type} (layer : Layer) (expected : String) : Result α :=
  .error (.invalidType layer.found expected)

end Layer

/-! ### Fields -/

/-- The values of a list of fields as far as they are known. -/
abbrev Slots : List Field → Type
  | [] => Unit
  | f :: rest => Option f.Value × Slots rest

/-- No value is known. -/
def Slots.empty : (fs : List Field) → Slots fs
  | [] => ()
  | _ :: rest => (none, Slots.empty rest)

/-- Reads the field of a name from a part. An unknown name is passed over, and
a name may come only once. -/
def Slots.fill (name : String) (part : Part) : (fs : List Field) → Slots fs → Result (Slots fs)
  | [], _ => .ok ()
  | f :: fs, (slot, slots) =>
    if f.name = name then
      if slot.isSome then .error (.repeatedField name)
      else do
        let value ← part.read f.arity f.item
        return (some value, slots)
    else do
      let slots ← Slots.fill name part fs slots
      return (slot, slots)

/-- Reads fields in the order in which they stand. -/
def Slots.fillAll (fs : List Field) : List (String × Part) → Slots fs → Result (Slots fs)
  | [], slots => .ok slots
  | (name, part) :: rest, slots => do
    let slots ← Slots.fill name part fs slots
    Slots.fillAll fs rest slots

/-- The values of all fields, if none is missing that must be there. -/
def Slots.complete : (fs : List Field) → Slots fs → Result (Values fs)
  | [], _ => .ok ()
  | f :: fs, (slot, slots) => do
    let value ←
      match slot <|> f.absent with
      | some value => pure value
      | none => throw (.missingField f.name)
    let values ← Slots.complete fs slots
    return (value, values)

/-- A number of elements, for a message. -/
def elements (n : Nat) : String := toString n ++ (if n = 1 then " element" else " elements")

/-- Reads fields from the items of an array, the first of them being number
`index`, and gives back the items that are left. -/
def readItems (expected : String) : (fs : List Field) → Nat → List Part →
    Result (Values fs × List Part)
  | [], _, parts => .ok ((), parts)
  | f :: fs, index, [] =>
    match f.absent with
    | some value => do
      let (values, rest) ← readItems expected fs (index + 1) []
      return ((value, values), rest)
    | none => .error (.invalidLength index expected)
  | f :: fs, index, part :: parts => do
    let value ← part.read f.arity f.item
    let (values, rest) ← readItems expected fs (index + 1) parts
    return ((value, values), rest)

/-! ### Nodes -/

variable {α : Type}

namespace Variant

/-- What a message says about an array that is too short for the fields. -/
def lengthTitle (v : Variant α) : String := v.title ++ " with " ++ elements v.fields.length

/-- Reads a node from the fields of an object. -/
def ofFields (v : Variant α) (fields : List (String × Part)) : Result α := do
  let slots ← Slots.fillAll v.fields fields (Slots.empty v.fields)
  return v.build (← Slots.complete v.fields slots)

/-- Reads a node from the items of an array. -/
def ofItems (v : Variant α) (items : List Part) : Result α := do
  let (values, rest) ← readItems v.lengthTitle v.fields 0 items
  if rest.isEmpty then return v.build values
  else
    throw (.invalidLength (v.fields.length + rest.length)
      (elements v.fields.length ++ " in sequence"))

/-- Reads a node. -/
def ofLayer (v : Variant α) (layer : Layer) : Result α :=
  match layer with
  | .object fields => v.ofFields fields
  | .array items => v.ofItems items
  | .leaf _ => layer.mismatch v.title

end Variant

/-- The kind of node that a tag names. Where kinds are `indexed`, the position
of a kind in the list names it as well. -/
def variantOf (indexed : Bool) (variants : List (Variant α)) (tag : Json) :
    Result (Variant α) :=
  let mismatch := .error (.invalidType (.ofJson tag) "variant identifier")
  match tag with
  | .string name =>
    match variants.find? (·.tag = name) with
    | some v => .ok v
    | none => .error (.unknownVariant name (variants.map (·.tag)))
  | .number (.integer (.ofNat n)) =>
    if indexed then
      match variants[n]? with
      | some v => .ok v
      | none =>
        .error (.invalidValue (.ofJson tag)
          ("variant index 0 <= i < " ++ toString variants.length))
    else mismatch
  | _ => mismatch

/-- The tag among the fields of an object, and the other fields. -/
def splitTag (fields : List (String × Part)) : Result (Part × List (String × Part)) :=
  let (tags, rest) := fields.partition (·.1 = tagField)
  match tags with
  | [] => .error (.missingField tagField)
  | [(_, tag)] => .ok (tag, rest)
  | _ => .error (.repeatedField tagField)

/-- Reads a node that names its kind by a tag. -/
def readTagged
    (indexed : Bool) (title : String) (variants : List (Variant α)) (layer : Layer) :
    Result α :=
  match layer with
  | .object fields => do
    let (tag, rest) ← splitTag fields
    let v ← variantOf indexed variants tag.json
    v.ofFields rest
  | .array [] => .error (.missingField tagField)
  | .array (tag :: rest) => do
    let v ← variantOf indexed variants tag.json
    v.ofItems rest
  | .leaf _ => layer.mismatch title

/-- Reads an expression. -/
def readExpr (layer : Layer) : Result Expr :=
  match layer with
  | .object _ => readTagged true "" exprs layer
  | _ => layer.mismatch "struct Expression"

/-! ### Leaves -/

/-- Reads a truth value. -/
def readBool (layer : Layer) : Result Bool :=
  match layer with
  | .leaf (.bool b) => .ok b
  | _ => layer.mismatch "a boolean"

/-- Reads a text. -/
def readText (layer : Layer) : Result String :=
  match layer with
  | .leaf (.string s) => .ok s
  | _ => layer.mismatch "a string"

/-- The greatest integer constant. -/
def maxInteger : Int := 9223372036854775807

/-- Reads an integer of 64 bits. -/
def readInteger (json : Json) : Result Int :=
  match json with
  | .number (.integer n) =>
    if n ≤ maxInteger then .ok n else .error (.invalidValue (.ofJson json) "i64")
  | _ => .error (.invalidType (.ofJson json) "i64")

/-- Reads a number as a double. -/
def readDouble (json : Json) : Result Double :=
  match json with
  | .number (.double d) => .ok d
  | .number (.integer n) =>
    .ok ((Double.nearest? (n < 0) n.natAbs 1).getD (Double.zero false))
  | _ => .error (.invalidType (.ofJson json) "f64")

/-- What a message says about an object that should hold one field. -/
def singleField {α : Type} : Result α := .error (.invalidValue .map "map with a single key")

/-- Reads a literal of the named kind. -/
def readLiteralOf (kind : String) (json : Json) : Result Literal :=
  match kind with
  | "int" => .int <$> readInteger json
  | "double" => .double <$> readDouble json
  | "string" => .string <$> readText (.leaf json)
  | "bool" => .bool <$> readBool (.leaf json)
  | _ => .error (.unknownVariant kind literals)

/-- Reads a literal: an object whose one field names the kind and holds the
value. -/
def readLiteral (layer : Layer) : Result Literal :=
  match layer with
  | .object [(kind, part)] => readLiteralOf kind part.json
  | .object _ => singleField
  | .leaf (.string kind) =>
    if kind ∈ literals then .error (.invalidType .bareVariant "newtype variant")
    else .error (.unknownVariant kind literals)
  | _ => layer.mismatch "string or map"

/-- The operator of a name. -/
def operatorOf (name : String) : Result BinaryOperator :=
  match operators.lookup name with
  | some operator => .ok operator
  | none => .error (.unknownVariant name (operators.map (·.1)))

/-- Reads an operator: its name, or an object whose one field has that name and
holds nothing. -/
def readOperator (layer : Layer) : Result BinaryOperator :=
  match layer with
  | .leaf (.string name) => operatorOf name
  | .object [(name, part)] => do
    let operator ← operatorOf name
    match part.json with
    | .null | .object [] => return operator
    | json => throw (.invalidType (.ofJson json) "unit")
  | .object _ => singleField
  | _ => layer.mismatch "string or map"

/-! ### All items -/

/-- What a message calls a declaration. -/
def declarationTitle : String := "internally tagged enum Declaration"

/-- What a message calls a delegation specifier. -/
def specifierTitle : String := "internally tagged enum DelegationSpecifier"

/-- Reads one item. -/
def readItem (layer : Layer) : (i : Item) → Result i.Value
  | .bool => readBool layer
  | .text => readText layer
  | .literal => readLiteral layer
  | .operator => readOperator layer
  | .typeRef => typeRef.ofLayer layer
  | .parameter => parameter.ofLayer layer
  | .accessor => accessor.ofLayer layer
  | .importDirective => importDirective.ofLayer layer
  | .specifier => readTagged true specifierTitle specifiers layer
  | .expr => readExpr layer
  | .declaration => readTagged true declarationTitle declarations layer
  | .topDeclaration => readTagged false declarationTitle declarations layer

/-- Reads a list of items. -/
def readMany (layer : Layer) (i : Item) : Result (List i.Value) :=
  match layer with
  | .array items => items.mapM fun part => part.read .one i
  | _ => layer.mismatch "a sequence"

/-- Reads as many items as an arity says. -/
def readLayer (layer : Layer) : (a : Arity) → (i : Item) → Result (a.Of i.Value)
  | .one, i => readItem layer i
  | .optional, i => if layer.isNull then .ok none else some <$> readItem layer i
  | .many, i => readMany layer i
  | .optionalMany, i => if layer.isNull then .ok none else some <$> readMany layer i

mutual

/-- What can be read from a value. -/
def part : Json → Part
  | .array items => ⟨.array items, readLayer (.array (parts items))⟩
  | .object fields => ⟨.object fields, readLayer (.object (fieldParts fields))⟩
  | leaf => ⟨leaf, readLayer (.leaf leaf)⟩

/-- What can be read from the items of an array. -/
def parts : List Json → List Part
  | [] => []
  | item :: rest => part item :: parts rest

/-- What can be read from the fields of an object. -/
def fieldParts : List (String × Json) → List (String × Part)
  | [] => []
  | (name, value) :: rest => (name, part value) :: fieldParts rest

end

/-- Reads a file: its own name for itself and its declarations. -/
def readFile (json : Json) : Result (String × List Declaration) :=
  match json with
  | .object fields => file.ofFields (fieldParts fields)
  | .array items => do
    let (values, rest) ← readItems file.lengthTitle file.fields 0 (parts items)
    if rest.isEmpty then return file.build values
    else throw (.invalidLength items.length "fewer elements in array")
  | _ => .error (.invalidType (.ofJson json) file.title)

end Schema

namespace SourceFile

/-- The file that a JSON value describes; `name` replaces the name that it gives
itself. -/
def ofJson (name : String) (json : Json) : Except ShapeError SourceFile := do
  let (_, declarations) ← Schema.readFile json
  return ofDeclarations name declarations

end SourceFile

end DeclAnalysis
