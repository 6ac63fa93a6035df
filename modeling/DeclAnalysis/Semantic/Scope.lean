import Std.Data.TreeMap

/-!
# Scopes

Scopes bind names to descriptors and form a tree through their parents, through
which names are looked up. A write-through scope looks up names like any other
but keeps its own bindings in a target scope; the body of a namespace thus sees
its surroundings and fills the scope of the namespace's members.

Scopes and descriptors are given by their index in the order of creation.
-/

namespace DeclAnalysis

open Std (TreeMap)

/-- What a scope belongs to. -/
inductive ScopeKind where
  | root
  | toplevel
  | namespaceScope
  | writeThrough
  | classScope
  | function
  | accessor
  | constructor
  | block
deriving DecidableEq, Repr, Inhabited

/-- The names bound in a scope. Only functions may share a name; variables and
properties are names of one kind. A field is the name of a property under which
its backing field is known. -/
structure Bindings where
  classifiers : TreeMap String Nat := {}
  namespaces : TreeMap String Nat := {}
  functions : TreeMap String (List Nat) := {}
  values : TreeMap String Nat := {}
  fields : TreeMap String Nat := {}
deriving Inhabited

/-- A scope. -/
structure Scope where
  kind : ScopeKind
  parent : Option Nat := none
  /-- The scopes whose parent this one is, in the order of creation. -/
  children : List Nat := []
  /-- The declaration that the scope belongs to. -/
  owner : Option Nat := none
  /-- Where the bindings of the scope are kept, if not in the scope itself. -/
  writeTarget : Option Nat := none
  /-- The scopes whose names are visible here unless they are bound here. -/
  imports : List Nat := []
  bindings : Bindings := {}
deriving Inhabited

/-- All scopes of an analysis. -/
structure ScopeTree where
  scopes : Array Scope := #[]
deriving Inhabited

namespace ScopeTree

/-- The number of scopes. -/
def size (t : ScopeTree) : Nat := t.scopes.size

/-- The scope of an index; an index without a scope counts as an empty scope
without surroundings. -/
def get (t : ScopeTree) (id : Nat) : Scope := t.scopes.getD id { kind := .root }

/-- Changes one scope. -/
def modify (t : ScopeTree) (id : Nat) (f : Scope → Scope) : ScopeTree :=
  ⟨t.scopes.modify id f⟩

/-- Adds a scope and gives back its index. -/
def create
    (t : ScopeTree) (kind : ScopeKind) (parent : Option Nat) (owner : Option Nat) :
    Nat × ScopeTree :=
  let id := t.size
  let grown : ScopeTree := ⟨t.scopes.push { kind, parent, owner }⟩
  match parent with
  | none => (id, grown)
  | some p => (id, grown.modify p fun s => { s with children := s.children ++ [id] })

/-- Adds a scope that looks up names through `outer` and keeps its bindings in
`target`, to whose owner it belongs. -/
def createWriteThrough (t : ScopeTree) (outer target : Nat) : Nat × ScopeTree :=
  let (id, t) := t.create .writeThrough (some outer) (t.get target).owner
  (id, t.modify id fun s => { s with writeTarget := some target })

/-- The scopes met on the way upwards, at most `steps` of them. -/
def chain (t : ScopeTree) : Nat → Nat → List Nat
  | 0, _ => []
  | steps + 1, id =>
    id ::
      match (t.get id).parent with
      | none => []
      | some p => chain t steps p

/-- The scope itself, its parent, the parent of that, and so on. A chain cannot
be longer than the number of scopes. -/
def ancestors (t : ScopeTree) (id : Nat) : List Nat := t.chain t.size id

/-- Whether a scope is, or lies inside, another. -/
def descends (t : ScopeTree) (scope ancestor : Nat) : Bool :=
  (t.ancestors scope).contains ancestor

/-- The nearest declaration that the scope or one around it belongs to. -/
def containingDeclaration? (t : ScopeTree) (scope : Nat) : Option Nat :=
  (t.ancestors scope).findSome? fun id => (t.get id).owner

/-- Sets the declaration that a scope belongs to. -/
def setOwner (t : ScopeTree) (scope owner : Nat) : ScopeTree :=
  t.modify scope fun s => { s with owner := some owner }

/-- The end of the write targets that begin at a scope, after at most so many
steps. -/
def storageWithin (t : ScopeTree) : Nat → Nat → Nat
  | 0, id => id
  | steps + 1, id =>
    match (t.get id).writeTarget with
    | none => id
    | some target => storageWithin t steps target

/-- The scope that keeps the bindings of a scope. -/
def storage (t : ScopeTree) (scope : Nat) : Nat := t.storageWithin t.size scope

/-- The bindings of a scope, wherever they are kept. -/
def bindings (t : ScopeTree) (scope : Nat) : Bindings := (t.get (t.storage scope)).bindings

/-- Changes the bindings of a scope, wherever they are kept. -/
def bind (t : ScopeTree) (scope : Nat) (f : Bindings → Bindings) : ScopeTree :=
  t.modify (t.storage scope) fun s => { s with bindings := f s.bindings }

/-- Binds the name of a class. -/
def addClassifier (t : ScopeTree) (scope : Nat) (name : String) (descriptor : Nat) :
    ScopeTree :=
  t.bind scope fun b => { b with classifiers := b.classifiers.insert name descriptor }

/-- Binds the name of a namespace. -/
def addNamespace (t : ScopeTree) (scope : Nat) (name : String) (descriptor : Nat) :
    ScopeTree :=
  t.bind scope fun b => { b with namespaces := b.namespaces.insert name descriptor }

/-- Adds a function to those of its name. -/
def addFunction (t : ScopeTree) (scope : Nat) (name : String) (descriptor : Nat) :
    ScopeTree :=
  t.bind scope fun b =>
    { b with functions := b.functions.insert name (b.functions.getD name [] ++ [descriptor]) }

/-- Binds the name of a variable or property. -/
def addVariable (t : ScopeTree) (scope : Nat) (name : String) (descriptor : Nat) :
    ScopeTree :=
  t.bind scope fun b => { b with values := b.values.insert name descriptor }

/-- Makes the backing field of a property known under the name of the property. -/
def addField (t : ScopeTree) (scope : Nat) (name : String) (property : Nat) : ScopeTree :=
  t.bind scope fun b => { b with fields := b.fields.insert name property }

/-- Makes the names of one scope visible in another. -/
def importScope (t : ScopeTree) (scope imported : Nat) : ScopeTree :=
  t.modify scope fun s => { s with imports := s.imports ++ [imported] }

section Lookup

variable {α : Type} (t : ScopeTree) (pick : Bindings → Option α) (scope : Nat) (name : String)

/-- What is bound in the scope or, failing that, in the first of its imports
that has a binding. Surrounding scopes are left aside. -/
def local? : Option α :=
  pick (t.bindings scope) <|> (t.get scope).imports.findSome? fun i => pick (t.bindings i)

/-- What is bound in the nearest scope that has a binding. -/
def lookup? : Option α := (t.ancestors scope).findSome? (t.local? pick ·)

/-- The class of a name. -/
def classifier? : Option Nat := t.lookup? (·.classifiers[name]?) scope

/-- The namespace of a name. -/
def namespace? : Option Nat := t.lookup? (·.namespaces[name]?) scope

/-- The functions of a name in the nearest scope that has any. -/
def functions : List Nat := (t.lookup? (·.functions[name]?) scope).getD []

/-- The variable or property of a name. -/
def value? : Option Nat := t.lookup? (·.values[name]?) scope

/-- The property whose backing field is known under a name. -/
def field? : Option Nat := t.lookup? (·.fields[name]?) scope

/-- The class of a name among the members of a scope. -/
def memberClassifier? : Option Nat := t.local? (·.classifiers[name]?) scope

/-- The namespace of a name among the members of a scope. -/
def memberNamespace? : Option Nat := t.local? (·.namespaces[name]?) scope

/-- The functions of a name among the members of a scope. -/
def memberFunctions : List Nat := (t.local? (·.functions[name]?) scope).getD []

/-- The variable or property of a name among the members of a scope. -/
def memberValue? : Option Nat := t.local? (·.values[name]?) scope

end Lookup

/-- The names of the variables bound in a scope, sorted. -/
def variableNames (t : ScopeTree) (scope : Nat) : List String :=
  (t.bindings scope).values.keys

end ScopeTree

end DeclAnalysis
