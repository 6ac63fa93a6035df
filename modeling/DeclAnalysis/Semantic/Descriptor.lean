import DeclAnalysis.Fault
import DeclAnalysis.Semantic.Ty

/-!
# Descriptors

A descriptor is what a name stands for once it is resolved: a namespace, a
class, a function, a property or a variable. Descriptors refer to one another
by their index in the order of creation.

Supertypes and constructors are attached to a class while it is open. Once it is
finalized they stay as they are.
-/

namespace DeclAnalysis

/-- What is known about a class. -/
structure ClassData where
  memberScope : Nat
  declaringScope : Nat
  supertypes : List Ty := []
  constructors : List Nat := []
  primaryConstructor : Option Nat := none
deriving DecidableEq, Repr, Inhabited

/-- What a function or constructor is for. -/
inductive FunctionRole where
  | plain
  | getter
  | setter
  | primaryConstructor
  | secondaryConstructor
deriving DecidableEq, Repr, Inhabited

namespace FunctionRole

/-- The role of a constructor. -/
def isConstructor : FunctionRole → Bool
  | primaryConstructor | secondaryConstructor => true
  | _ => false

end FunctionRole

/-- What is known about a function or constructor. The return type is the
declared one or the one that its body turns out to have. -/
structure Signature where
  role : FunctionRole
  parameters : List Nat := []
  returnType : Option Ty := none
deriving DecidableEq, Repr, Inhabited

/-- What is known about a property. -/
structure PropertyData where
  mutable : Bool
  type : Option Ty
  getter : Option Nat := none
  setter : Option Nat := none
deriving DecidableEq, Repr, Inhabited

/-- What is known about a parameter or a local variable. -/
structure VariableData where
  type : Option Ty
  mutable : Bool
deriving DecidableEq, Repr, Inhabited

/-- What a descriptor stands for. -/
inductive DescriptorKind where
  | namespaceKind (memberScope : Nat)
  | classKind (finalized : Bool) (data : ClassData)
  | constructorKind (signature : Signature)
  | functionKind (signature : Signature)
  | propertyKind (data : PropertyData)
  | variableKind (data : VariableData)
deriving DecidableEq, Repr, Inhabited

namespace DescriptorKind

/-- The name of the kind. -/
def name : DescriptorKind → String
  | namespaceKind _ => "namespace"
  | classKind .. => "class"
  | constructorKind _ => "constructor"
  | functionKind _ => "function"
  | propertyKind _ => "property"
  | variableKind _ => "variable"

end DescriptorKind

/-- A descriptor. The container is the descriptor of the declaration around it. -/
structure Descriptor where
  name : String
  container : Option Nat
  kind : DescriptorKind
deriving DecidableEq, Repr, Inhabited

/-- All descriptors of an analysis. -/
structure DescriptorTable where
  entries : Array Descriptor := #[]
deriving DecidableEq, Repr, Inhabited

namespace DescriptorTable

/-- The number of descriptors. -/
def size (t : DescriptorTable) : Nat := t.entries.size

/-- The descriptor of an index; an index without a descriptor counts as a
nameless variable of unknown type. -/
def get (t : DescriptorTable) (id : Nat) : Descriptor :=
  t.entries.getD id ⟨"", none, .variableKind ⟨none, false⟩⟩

/-- Adds a descriptor and gives back its index. -/
def create
    (t : DescriptorTable) (name : String) (container : Option Nat) (kind : DescriptorKind) :
    Nat × DescriptorTable :=
  (t.size, ⟨t.entries.push { name, container, kind }⟩)

/-- Changes what one descriptor stands for. -/
def modifyKind (t : DescriptorTable) (id : Nat) (f : DescriptorKind → DescriptorKind) :
    DescriptorTable :=
  ⟨t.entries.modify id fun d => { d with kind := f d.kind }⟩

/-- The name of a descriptor. -/
def name (t : DescriptorTable) (id : Nat) : String := (t.get id).name

/-- The scope of the members of a namespace. -/
def namespaceMembers? (t : DescriptorTable) (id : Nat) : Option Nat :=
  match (t.get id).kind with
  | .namespaceKind memberScope => some memberScope
  | _ => none

/-- What is known about a class. -/
def classData? (t : DescriptorTable) (id : Nat) : Option ClassData :=
  match (t.get id).kind with
  | .classKind _ data => some data
  | _ => none

/-- What is known about a function or constructor. -/
def signature? (t : DescriptorTable) (id : Nat) : Option Signature :=
  match (t.get id).kind with
  | .functionKind s | .constructorKind s => some s
  | _ => none

/-- What is known about a property. -/
def propertyData? (t : DescriptorTable) (id : Nat) : Option PropertyData :=
  match (t.get id).kind with
  | .propertyKind data => some data
  | _ => none

/-- What is known about a variable. -/
def variableData? (t : DescriptorTable) (id : Nat) : Option VariableData :=
  match (t.get id).kind with
  | .variableKind data => some data
  | _ => none

/-- The type of a variable, parameter or property, as far as it is known. -/
def valueType? (t : DescriptorTable) (id : Nat) : Option Ty :=
  match (t.get id).kind with
  | .variableKind data => data.type
  | .propertyKind data => data.type
  | _ => none

/-- The value may be assigned to. -/
def isMutableValue (t : DescriptorTable) (id : Nat) : Bool :=
  match (t.get id).kind with
  | .variableKind data => data.mutable
  | .propertyKind data => data.mutable
  | _ => false

/-- The return type of a function or constructor, as far as it is known. -/
def returnType? (t : DescriptorTable) (id : Nat) : Option Ty :=
  (t.signature? id).bind Signature.returnType

/-- The types of the parameters of a function or constructor, a type that is not
known counting as the greatest one. -/
def parameterTypes (t : DescriptorTable) (id : Nat) : List Ty :=
  match t.signature? id with
  | some s => s.parameters.map fun p => (t.valueType? p).getD .any
  | none => []

/-- The type of the instances of a class. -/
def classType (t : DescriptorTable) (id : Nat) : Ty := .classType id (t.name id)

/-- The type of a namespace that is used as an expression. -/
def namespaceType (t : DescriptorTable) (id : Nat) : Ty := .namespaceType id (t.name id)

/-- The scope of the members of a class or namespace type. -/
def memberScope? (t : DescriptorTable) (type : Ty) : Option Nat := do
  let id ← type.descriptor?
  t.namespaceMembers? id <|> (t.classData? id).map ClassData.memberScope

/-- Changes a class that is still open. -/
def editClass (t : DescriptorTable) (id : Nat) (f : ClassData → ClassData) :
    Except Fault DescriptorTable :=
  match (t.get id).kind with
  | .classKind false data => .ok (t.modifyKind id fun _ => .classKind false (f data))
  | .classKind true _ => .error (.internal none (.finalized (t.name id)))
  | kind => .error (.internal none (.notAClass (t.name id) kind.name))

/-- Sets the supertypes of an open class. -/
def setSupertypes (t : DescriptorTable) (id : Nat) (supertypes : List Ty) :
    Except Fault DescriptorTable :=
  t.editClass id fun data => { data with supertypes }

/-- Adds a constructor to an open class. -/
def addConstructor (t : DescriptorTable) (id constructor : Nat) :
    Except Fault DescriptorTable :=
  t.editClass id fun data => { data with constructors := data.constructors ++ [constructor] }

/-- Adds a constructor to an open class and makes it the primary one. -/
def setPrimaryConstructor (t : DescriptorTable) (id constructor : Nat) :
    Except Fault DescriptorTable :=
  t.editClass id fun data =>
    { data with
      primaryConstructor := some constructor
      constructors := data.constructors ++ [constructor] }

/-- Whether a descriptor is an open class. -/
def isOpenClass (d : Descriptor) : Bool :=
  match d.kind with
  | .classKind finalized _ => !finalized
  | _ => false

/-- The descriptor with its class, if it is one, finalized. -/
def finalized (d : Descriptor) : Descriptor :=
  match d.kind with
  | .classKind _ data => { d with kind := .classKind true data }
  | _ => d

/-- Finalizes all classes and gives back how many were open. -/
def finalizeClasses (t : DescriptorTable) : Nat × DescriptorTable :=
  (t.entries.countP isOpenClass, ⟨t.entries.map finalized⟩)

/-- Changes the signature of a function or constructor; everything else stays as
it is. -/
def editSignature (t : DescriptorTable) (id : Nat) (f : Signature → Signature) :
    DescriptorTable :=
  t.modifyKind id fun
    | .functionKind s => .functionKind (f s)
    | .constructorKind s => .constructorKind (f s)
    | other => other

/-- Changes what is known about a property; everything else stays as it is. -/
def editProperty (t : DescriptorTable) (id : Nat) (f : PropertyData → PropertyData) :
    DescriptorTable :=
  t.modifyKind id fun
    | .propertyKind data => .propertyKind (f data)
    | other => other

/-- Changes what is known about a variable; everything else stays as it is. -/
def editVariable (t : DescriptorTable) (id : Nat) (f : VariableData → VariableData) :
    DescriptorTable :=
  t.modifyKind id fun
    | .variableKind data => .variableKind (f data)
    | other => other

/-- Sets the return type of a function or constructor. -/
def setReturnType (t : DescriptorTable) (id : Nat) (type : Ty) :
    Except Fault DescriptorTable :=
  match t.signature? id with
  | some _ => .ok (t.editSignature id fun s => { s with returnType := some type })
  | none => .error (.internal none (.notAFunction (t.name id)))

end DescriptorTable

end DeclAnalysis
