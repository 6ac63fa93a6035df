import DeclAnalysis.Resolve.Signature

/-!
# Registering signatures

The second pass makes functions, properties and constructors known in the scopes
in which they are declared. It needs all classes and namespaces to have been
collected.
-/

namespace DeclAnalysis

namespace Pass

open Analysis

/-- Makes the properties of the primary parameters of a class known. They have a
backing field. -/
def registerParameterProperty (members classId : Nat) (property : String × Nat) : Pass Unit := do
  onScopes (·.addVariable members property.1 property.2)
  recordBackingField property.2
  onTables (·.indexProperty classId property.2)

/-- Attaches the primary constructor of a class and gives back the scope of its
members. -/
def registerClass (head : ClassHead) : Pass Nat := do
  match (← session).trace.declaration? head.id with
  | none => throw (.at_ head.id .classNotCollected)
  | some descriptor =>
    match (← session).descriptors.classData? descriptor with
    | none => throw (.at_ head.id .classExpected)
    | some data =>
      let (constructor, properties) ← resolvePrimaryConstructor descriptor head
      properties.forM (registerParameterProperty data.memberScope descriptor)
      if let some c := constructor then tryDescriptors (·.setPrimaryConstructor descriptor c)
      return data.memberScope

/-- Makes a function known. -/
def registerFunction (scope : Nat) (decl : FunctionDecl) : Pass Unit := do
  let container := (← session).scopes.containingDeclaration? scope
  let function ← resolveFunction scope container decl
  onScopes (·.addFunction scope decl.name function)
  onTables (·.addFunction (.function decl) function scope)

/-- Makes a property known. -/
def registerProperty (scope : Nat) (decl : PropertyDecl) : Pass Unit := do
  let container := (← session).scopes.containingDeclaration? scope
  let property ← resolveProperty scope container decl
  onScopes (·.addVariable scope decl.name property)
  onTables (·.addProperty decl property scope container)

/-- The class that a scope belongs to, if it belongs to a class. -/
def owningClass? (s : Session) (scope : Nat) : Option Nat :=
  (s.scopes.containingDeclaration? scope).filter fun id => (s.descriptors.classData? id).isSome

/-- Attaches a secondary constructor to the class around it. Outside of classes it
is reported and otherwise left aside. -/
def registerConstructor (scope : Nat) (decl : ConstructorDecl) : Pass Unit := do
  match owningClass? (← session) scope with
  | none =>
    reportCode .misplacedConstructor decl.id "Constructors are only allowed inside classes"
  | some classId =>
    let constructor ← resolveConstructor scope classId decl
    tryDescriptors (·.addConstructor classId constructor)
    onTables (·.addFunction (.constructor decl) constructor scope)

mutual

/-- Makes known what a declaration declares. The members of a class object, which
is reported, belong to what is around it. -/
def register (scope : Nat) : Declaration → Pass Unit
  | .classDecl head members => do
    let inner ← registerClass head
    registerAll inner members
  | .classObject id members => do
    reportCode .unsupportedConstruct id "Class objects are not supported yet"
    registerAll scope members
  | .namespaceDecl head members => do
    match (← tables).namespaceScopes[head.id]? with
    | none => throw (.at_ head.id .namespaceNotCollected)
    | some inner => registerAll inner members
  | .functionDecl decl => registerFunction scope decl
  | .propertyDecl decl => registerProperty scope decl
  | .constructorDecl decl => registerConstructor scope decl
  | .typedefDecl id _ | .extensionDecl id _ =>
    reportCode .unsupportedConstruct id "Unsupported declaration"

/-- Makes known what several declarations declare. -/
def registerAll (scope : Nat) : List Declaration → Pass Unit
  | [] => return
  | d :: rest => do
    register scope d
    registerAll scope rest

end

end Pass

end DeclAnalysis
