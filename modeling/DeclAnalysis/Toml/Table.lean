import DeclAnalysis.Toml.Value

/-!
# Growing tables

A TOML document is a list of statements, each of which adds to the table that
the document stands for. A key may be given once. A table may be opened by a
header once; what a header has only implied may still be opened, and then moves
to the end of the table around it. Dotted keys may extend what dotted keys have
begun.
-/

namespace DeclAnalysis

namespace Toml

/-- A list of keys that leads into nested tables. -/
abbrev Path := List String

/-- A statement of a document. -/
inductive Statement where
  /-- The last part of a dotted key gets a value, in the table to which the parts
  before it lead. -/
  | pair (path : Path) (key : String) (value : Toml)
  /-- The table of a path is opened. -/
  | openTable (path : Path) (key : String)
  /-- A new table is added to those of a path and opened. -/
  | openItem (path : Path) (key : String)
deriving Repr, Inhabited

namespace Fields

/-- The value of a key. -/
def find? (fields : Fields) (key : String) : Option Toml := fields.lookup key

/-- Replaces the value of a key, or adds the key at the end. -/
def set (key : String) (value : Toml) : Fields → Fields
  | [] => [(key, value)]
  | (k, v) :: rest => if k = key then (key, value) :: rest else (k, v) :: set key value rest

/-- Takes a key away. -/
def erase (fields : Fields) (key : String) : Fields := fields.filter fun (k, _) => k ≠ key

/-- Adds a key that is not there yet. -/
def add? (fields : Fields) (key : String) (value : Toml) : Option Fields :=
  if (fields.find? key).isSome then none else some (fields ++ [(key, value)])

end Fields

/-- Changes the last of the tables of a list. -/
def onLast? (change : Fields → Option Fields) : List Toml → Option (List Toml)
  | [] => none
  | [table origin fields] => (change fields).map fun changed => [table origin changed]
  | [_] => none
  | first :: rest => (onLast? change rest).map (first :: ·)

/-- Changes the table to which headers lead along a path. Missing tables are
implied, and of several tables under one key the last one is meant. -/
def below? (change : Fields → Option Fields) : Path → Fields → Option Fields
  | [], fields => change fields
  | key :: path, fields => do
    let entry ←
      match fields.find? key with
      | none => (below? change path []).map (table .implied)
      | some (table .inline _) => none
      | some (table origin inner) => (below? change path inner).map (table origin)
      | some (tables items) => (onLast? (below? change path) items).map tables
      | some _ => none
    return fields.set key entry

/-- Adds a pair inside a table that is not the one a dotted key starts from; its
origin must then be a dotted key. -/
def addDotted? (key : String) (value : Toml) :
    Path → TableOrigin → Fields → Option Fields
  | [], origin, fields => if origin = .dotted then fields.add? key value else none
  | part :: path, _, fields => do
    let entry ←
      match fields.find? part with
      | none => (addDotted? key value path .dotted []).map (table .dotted)
      | some (table .dotted inner) =>
        (addDotted? key value path .dotted inner).map (table .dotted)
      | some (table .implied inner) =>
        (addDotted? key value path .implied inner).map (table .implied)
      | some (tables items) =>
        (onLast? (addDotted? key value path .header) items).map tables
      | some _ => none
    return fields.set part entry

/-- Adds a pair to a table; the parts of the path are those of a dotted key. -/
def addPair? (path : Path) (key : String) (value : Toml) (fields : Fields) : Option Fields :=
  match path with
  | [] => fields.add? key value
  | _ => addDotted? key value path .header fields

/-- Opens a table for a header. -/
def openTable? (key : String) (fields : Fields) : Option Fields :=
  match fields.find? key with
  | none => some (fields ++ [(key, table .header [])])
  | some (table .implied inner) => some (fields.erase key ++ [(key, table .header inner)])
  | some _ => none

/-- Adds a table to those that a header in double brackets names. -/
def openItem? (key : String) (fields : Fields) : Option Fields :=
  match fields.find? key with
  | none => some (fields ++ [(key, tables [table .header []])])
  | some (tables items) => some (fields.set key (tables (items ++ [table .header []])))
  | some _ => none

/-- A document under construction: its table so far, and the path of the table
that was opened last. -/
structure Draft where
  fields : Fields := []
  opened : Path := []
deriving Inhabited

namespace Draft

/-- Follows a statement. -/
def follow? (draft : Draft) : Statement → Option Draft
  | .pair path key value => do
    return { draft with fields := ← below? (addPair? path key value) draft.opened draft.fields }
  | .openTable path key => do
    return ⟨← below? (openTable? key) path draft.fields, path ++ [key]⟩
  | .openItem path key => do
    return ⟨← below? (openItem? key) path draft.fields, path ++ [key]⟩

end Draft

/-- The table that the statements of a document describe. -/
def ofStatements? (statements : List Statement) : Option Fields :=
  (statements.foldlM Draft.follow? {}).map Draft.fields

/-- The table that pairs between braces describe. -/
def ofPairs? (pairs : List (Path × String × Toml)) : Option Toml :=
  (pairs.foldlM (fun fields (path, key, value) => addPair? path key value fields) []).map
    (table .inline)

end Toml

end DeclAnalysis
