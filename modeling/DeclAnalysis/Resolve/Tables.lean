import DeclAnalysis.Tree.Declaration
import DeclAnalysis.Typing.Session

/-!
# Declaration tables

The declarations of a file are resolved in several passes. What the first ones
learn about declarations is kept in tables for the later ones, in the order of
the declarations.
-/

namespace DeclAnalysis

open Std (TreeMap)

/-- A declaration with a body that is resolved like that of a function. -/
inductive FunctionLike where
  | function (decl : FunctionDecl)
  | constructor (decl : ConstructorDecl)
deriving Repr, Inhabited

namespace FunctionLike

/-- The number of the node. -/
def id : FunctionLike → Nat
  | function decl => decl.id
  | constructor decl => decl.id

end FunctionLike

/-- What the passes know about the declarations of a file. -/
structure Tables where
  classes : Array (ClassHead × Nat) := #[]
  /-- The scope of the contents of each namespace declaration. -/
  namespaceScopes : TreeMap Nat Nat := {}
  /-- The scope that each class, function, property and constructor stands in. -/
  declaringScopes : TreeMap Nat Nat := {}
  functions : Array (FunctionLike × Nat) := #[]
  properties : Array (PropertyDecl × Nat) := #[]
  /-- The properties of each class and namespace. -/
  propertiesByContainer : TreeMap Nat (List Nat) := {}
deriving Inhabited

namespace Tables

/-- The scope that a declaration stands in. -/
def declaringScope (t : Tables) (node : Nat) : Except Fault Nat :=
  match t.declaringScopes[node]? with
  | some scope => .ok scope
  | none => .error (.at_ node .noDeclaringScope)

/-- Enters a class. -/
def addClass (t : Tables) (head : ClassHead) (descriptor scope : Nat) : Tables :=
  { t with
    classes := t.classes.push (head, descriptor)
    declaringScopes := t.declaringScopes.insert head.id scope }

/-- Enters a function or constructor. -/
def addFunction (t : Tables) (f : FunctionLike) (descriptor scope : Nat) : Tables :=
  { t with
    functions := t.functions.push (f, descriptor)
    declaringScopes := t.declaringScopes.insert f.id scope }

/-- Enters a property among those of a container. -/
def indexProperty (t : Tables) (container property : Nat) : Tables :=
  { t with
    propertiesByContainer :=
      t.propertiesByContainer.insert container
        (t.propertiesByContainer.getD container [] ++ [property]) }

/-- Enters a property declaration. -/
def addProperty
    (t : Tables) (p : PropertyDecl) (descriptor scope : Nat) (container : Option Nat) :
    Tables :=
  let entered : Tables :=
    { t with
      declaringScopes := t.declaringScopes.insert p.id scope
      properties := t.properties.push (p, descriptor) }
  match container with
  | none => entered
  | some c => entered.indexProperty c descriptor

/-- The properties of a container in the order in which they were entered. -/
def propertiesOf (t : Tables) (container : Nat) : List Nat :=
  t.propertiesByContainer.getD container []

end Tables

/-- The state of the passes. -/
structure PassState extends Session where
  tables : Tables := {}
deriving Inhabited

/-- A pass may stop with a fault; the state is then left as it is. -/
abbrev Pass := ExceptT Fault (StateM PassState)

namespace Pass

/-- Runs a computation on the session of the state. -/
def onSession {α : Type} (run : Analysis α) : StateM PassState α :=
  modifyGet fun s =>
    let (a, session) := run.run s.toSession
    (a, { s with toSession := session })

instance : MonadLift Analysis Pass where
  monadLift run := ExceptT.lift (onSession run)

instance : MonadLift FaultyAnalysis Pass where
  monadLift run := ExceptT.mk (onSession run.run)

/-- The tables of the state. -/
def tables : Pass Tables := return (← getThe PassState).tables

/-- Changes the tables. -/
def onTables (f : Tables → Tables) : Pass Unit :=
  modifyThe PassState fun s => { s with tables := f s.tables }

/-- The session of the state. -/
def session : Pass Session := return (← getThe PassState).toSession

/-- Goes on with the result of something that may be refused. -/
def ofExcept {α : Type} : Except Fault α → Pass α
  | .ok a => return a
  | .error fault => throw fault

end Pass

/-- The settings of an analysis. -/
structure AnalysisOptions where
  /-- Code that can never run is reported. -/
  reportUnreachable : Bool := true
  /-- The name of namespaces that are declared without one. -/
  defaultNamespace : String := "<no name provided>"
deriving DecidableEq, Repr, Inhabited

/-- The name of classes that are declared without one. -/
def noNameProvided : String := "<no name provided>"

end DeclAnalysis
