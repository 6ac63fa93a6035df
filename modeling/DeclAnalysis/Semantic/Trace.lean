import Std.Data.TreeMap
import Std.Data.TreeSet
import DeclAnalysis.Semantic.Descriptor

/-!
# The binding trace

Everything that is learnt about the nodes of a tree is recorded in one trace.
Observers may watch what is recorded. They change nothing about it, with one
exception: the tracker of a property records a backing field for it as soon as
one is referred to.
-/

namespace DeclAnalysis

open Std (TreeMap TreeSet)

/-- How a node refers to a descriptor. -/
inductive ReferenceKind where
  | identifier
  /-- The node names the backing field of a property. -/
  | fieldIdentifier
deriving DecidableEq, Repr, Inhabited

/-- What is known about the nodes of a tree. -/
structure Trace where
  declarations : TreeMap Nat Nat := {}
  references : TreeMap Nat (ReferenceKind × Nat) := {}
  expressionTypes : TreeMap Nat Ty := {}
  typeReferences : TreeMap Nat Ty := {}
  /-- The properties that have a backing field. -/
  backingFields : TreeSet Nat := {}
deriving Inhabited

namespace Trace

/-- The descriptor that a node declares. -/
def declaration? (t : Trace) (node : Nat) : Option Nat := t.declarations[node]?

/-- The descriptor that a node refers to. -/
def reference? (t : Trace) (node : Nat) : Option Nat := (t.references[node]?).map (·.2)

/-- The type of an expression. -/
def expressionType? (t : Trace) (node : Nat) : Option Ty := t.expressionTypes[node]?

/-- The type that a type reference denotes. -/
def typeReference? (t : Trace) (node : Nat) : Option Ty := t.typeReferences[node]?

/-- The property has a backing field. -/
def hasBackingField (t : Trace) (property : Nat) : Bool := t.backingFields.contains property

/-- Records what a node declares. -/
def recordDeclaration (t : Trace) (node descriptor : Nat) : Trace :=
  { t with declarations := t.declarations.insert node descriptor }

/-- Records what a node refers to. -/
def recordReference (t : Trace) (node : Nat) (kind : ReferenceKind) (descriptor : Nat) :
    Trace :=
  { t with references := t.references.insert node (kind, descriptor) }

/-- Records the type of an expression. -/
def recordExpressionType (t : Trace) (node : Nat) (type : Ty) : Trace :=
  { t with expressionTypes := t.expressionTypes.insert node type }

/-- Records what a type reference denotes. -/
def recordTypeReference (t : Trace) (node : Nat) (type : Ty) : Trace :=
  { t with typeReferences := t.typeReferences.insert node type }

/-- Records that a property has a backing field. -/
def recordBackingField (t : Trace) (property : Nat) : Trace :=
  { t with backingFields := t.backingFields.insert property }

/-- The names of the properties with a backing field, sorted; a name stands in
the list once for every property that bears it. -/
def backingFieldNames (t : Trace) (descriptors : DescriptorTable) : List String :=
  (t.backingFields.toList.map descriptors.name).mergeSort (· ≤ ·)

end Trace

/-- Something that watches what is recorded. -/
inductive Observer where
  /-- Records a backing field for the property once one is referred to. -/
  | tracker (property : Nat)
  /-- Notes the nodes that refer to a backing field which does not exist. -/
  | guard (violations : List Nat)
deriving DecidableEq, Repr, Inhabited

namespace Observer

/-- What an observer does about a reference, before it is recorded. -/
def see (t : Trace) (node : Nat) (kind : ReferenceKind) (descriptor : Nat) :
    Observer → Observer × Trace
  | tracker property =>
    if kind = .fieldIdentifier ∧ descriptor = property then
      (tracker property, t.recordBackingField descriptor)
    else (tracker property, t)
  | guard violations =>
    if kind = .fieldIdentifier ∧ !t.hasBackingField descriptor then
      (guard (violations ++ [node]), t)
    else (guard violations, t)

/-- What several observers do about a reference, the outermost one first. -/
def seeAll (node : Nat) (kind : ReferenceKind) (descriptor : Nat) :
    List Observer → Trace → List Observer × Trace
  | [], t => ([], t)
  | o :: rest, t =>
    let (o, t) := o.see t node kind descriptor
    let (rest, t) := seeAll node kind descriptor rest t
    (o :: rest, t)

/-- The nodes that an observer has noted. -/
def violations : Observer → List Nat
  | tracker _ => []
  | guard nodes => nodes

end Observer

/-- A trace with the observers that watch it, the outermost one first. -/
structure Recorder where
  trace : Trace := {}
  observers : List Observer := []
deriving Inhabited

namespace Recorder

/-- Records what a node declares. -/
def recordDeclaration (r : Recorder) (node descriptor : Nat) : Recorder :=
  { r with trace := r.trace.recordDeclaration node descriptor }

/-- Records what a node refers to, under the eyes of the observers. -/
def recordReference (r : Recorder) (node : Nat) (kind : ReferenceKind) (descriptor : Nat) :
    Recorder :=
  let (observers, trace) := Observer.seeAll node kind descriptor r.observers r.trace
  { trace := trace.recordReference node kind descriptor, observers }

/-- Records the type of an expression. -/
def recordExpressionType (r : Recorder) (node : Nat) (type : Ty) : Recorder :=
  { r with trace := r.trace.recordExpressionType node type }

/-- Records what a type reference denotes. -/
def recordTypeReference (r : Recorder) (node : Nat) (type : Ty) : Recorder :=
  { r with trace := r.trace.recordTypeReference node type }

/-- Records that a property has a backing field. -/
def recordBackingField (r : Recorder) (property : Nat) : Recorder :=
  { r with trace := r.trace.recordBackingField property }

/-- Adds an observer outside all others. -/
def watch (r : Recorder) (o : Observer) : Recorder := { r with observers := o :: r.observers }

/-- Takes the outermost observer away and gives back the nodes that it noted. -/
def unwatch (r : Recorder) : List Nat × Recorder :=
  match r.observers with
  | [] => ([], r)
  | o :: rest => (o.violations, { r with observers := rest })

end Recorder

end DeclAnalysis
