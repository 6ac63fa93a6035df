import DeclAnalysis.Resolve.Tables
import DeclAnalysis.Typing.TypeName

/-!
# Resolving signatures

The supertypes of classes and the parameters and declared types of functions,
constructors and properties. A type that is not declared is left open.
-/

namespace DeclAnalysis

namespace Analysis

/-- The name of every constructor. -/
def constructorName : String := "<init>"

/-! ### Supertypes -/

/-- The supertype that a type counts as: a class, the greatest type or an error
type counts as itself, and every other type is reported. -/
def supertypeOf (ref : TypeRef) (type : Ty) : Analysis Ty := do
  match type with
  | .classType .. | .any | .error _ => return type
  | other =>
    reportCode .semanticError ref.id ("'" ++ other.text ++ "' cannot be used as a supertype")
    return .error ("Invalid supertype: " ++ other.text)

/-- Resolves the supertypes that a class names; a class that names none has the
greatest type as its only supertype. -/
def resolveSupertypes (scope : Nat) (head : ClassHead) : Analysis (List Ty) := do
  let refs := head.delegationSpecifiers.filterMap DelegationSpecifier.typeRef?
  let supertypes ← refs.mapM fun ref => do supertypeOf ref (← resolveTypeRef scope ref)
  return if supertypes.isEmpty then [.any] else supertypes

/-- Attaches the supertypes that a class names. -/
def resolveClass (scope : Nat) (head : ClassHead) (descriptor : Nat) :
    FaultyAnalysis Unit := do
  let supertypes ← resolveSupertypes scope head
  tryDescriptors (·.setSupertypes descriptor supertypes)

/-! ### Parameters -/

/-- What is said about a parameter without a type. -/
def untypedParameter : String := "A type annotation is required on a value parameter"

/-- The type of a parameter. -/
def parameterType (scope : Nat) (p : Parameter) : Analysis Ty := do
  match p.typeRef with
  | some ref => resolveTypeRef scope ref
  | none =>
    reportCode .semanticError p.id untypedParameter
    return .error untypedParameter

/-- Declares a parameter of a function. -/
def resolveParameter (scope function : Nat) (p : Parameter) : Analysis Nat := do
  let type ← parameterType scope p
  let descriptor ← createDescriptor p.name (some function) (.variableKind ⟨some type, false⟩)
  recordDeclaration p.id descriptor
  return descriptor

/-- Declares a function or constructor with its parameters. -/
def resolveSignature
    (scope : Nat) (role : FunctionRole) (name : String) (container : Option Nat)
    (parameters : List Parameter) : Analysis Nat := do
  let signature : Signature := { role }
  let descriptor ←
    createDescriptor name container
      (if role.isConstructor then .constructorKind signature else .functionKind signature)
  let parameters ← parameters.mapM (resolveParameter scope descriptor)
  onDescriptors (·.editSignature descriptor fun s => { s with parameters })
  return descriptor

/-- Sets the return type of a function or constructor. -/
def setReturnType (function : Nat) (type : Ty) : FaultyAnalysis Unit :=
  tryDescriptors (·.setReturnType function type)

/-! ### Constructors -/

/-- The properties that the parameters of a primary constructor declare. -/
def declareParameterProperty (classId : Nat) (p : Parameter) (type : Ty) :
    Analysis (String × Nat) := do
  let property ←
    createDescriptor p.name (some classId)
      (.propertyKind { mutable := p.mutable, type := some type })
  recordDeclaration p.id property
  return (p.name, property)

/-- Resolves the primary constructor of a class that has one, and the properties
that its parameters declare. -/
def resolvePrimaryConstructor (classId : Nat) (head : ClassHead) :
    FaultyAnalysis (Option Nat × List (String × Nat)) := do
  match head.primaryConstructor with
  | none => return (none, [])
  | some parameters =>
    match (← get).descriptors.classData? classId with
    | none => throw (.at_ head.id .classExpected)
    | some data =>
      let constructor ←
        resolveSignature data.memberScope .primaryConstructor constructorName (some classId)
          parameters
      setReturnType constructor ((← get).descriptors.classType classId)
      let types := (← get).descriptors.parameterTypes constructor
      let properties ←
        (parameters.zip types).mapM fun (p, type) => declareParameterProperty classId p type
      return (some constructor, properties)

/-- Resolves a secondary constructor of a class. -/
def resolveConstructor (scope classId : Nat) (decl : ConstructorDecl) :
    FaultyAnalysis Nat := do
  let constructor ←
    resolveSignature scope .secondaryConstructor constructorName (some classId) decl.parameters
  setReturnType constructor ((← get).descriptors.classType classId)
  recordDeclaration decl.id constructor
  return constructor

/-! ### Functions -/

/-- Resolves a function. -/
def resolveFunction (scope : Nat) (container : Option Nat) (decl : FunctionDecl) :
    FaultyAnalysis Nat := do
  let function ← resolveSignature scope .plain decl.name container decl.parameters
  if let some ref := decl.returnType then
    let type ← resolveTypeRef scope ref
    setReturnType function type
  recordDeclaration decl.id function
  return function

/-! ### Properties -/

/-- Resolves the getter of a property. Without a declared type it returns the
declared type of the property. -/
def resolveGetter
    (scope property : Nat) (name : String) (propertyType : Option Ty) (getter : Accessor) :
    FaultyAnalysis Nat := do
  let function ←
    resolveSignature scope .getter ("<get-" ++ name ++ ">") (some property) []
  let returnType ←
    match getter.returnType with
    | some ref => some <$> resolveTypeRef scope ref
    | none => pure propertyType
  if let some type := returnType then setReturnType function type
  recordDeclaration getter.id function
  return function

/-- The name of the parameter of a setter that names none. -/
def defaultSetterParameter : String := "value"

/-- The type of the parameter of a setter. Without a declared type it is the
declared type of the property. -/
def setterParameterType (scope : Nat) (propertyType : Option Ty) (parameter : Option Parameter) :
    Analysis (Option Ty) := do
  match parameter.bind Parameter.typeRef with
  | some ref => some <$> resolveTypeRef scope ref
  | none => return propertyType

/-- Resolves the setter of a property, which has one parameter and returns the
unit type. -/
def resolveSetter
    (scope property : Nat) (name : String) (propertyType : Option Ty) (setter : Accessor) :
    FaultyAnalysis Nat := do
  let function ←
    resolveSignature scope .setter ("<set-" ++ name ++ ">") (some property) []
  let type ← setterParameterType scope propertyType setter.parameter
  let parameterName := (setter.parameter.map Parameter.name).getD defaultSetterParameter
  let value ← createDescriptor parameterName (some function) (.variableKind ⟨type, false⟩)
  if let some p := setter.parameter then recordDeclaration p.id value
  onDescriptors (·.editSignature function fun s =>
    { s with parameters := s.parameters ++ [value] })
  setReturnType function .unit
  recordDeclaration setter.id function
  return function

/-- Resolves a property with its accessors. -/
def resolveProperty (scope : Nat) (container : Option Nat) (decl : PropertyDecl) :
    FaultyAnalysis Nat := do
  let type ← decl.typeRef.mapM fun ref => (resolveTypeRef scope ref : Analysis Ty)
  let property ←
    createDescriptor decl.name container (.propertyKind { mutable := decl.mutable, type })
  recordDeclaration decl.id property
  let getter ← decl.getter.mapM (resolveGetter scope property decl.name type)
  let setter ← decl.setter.mapM (resolveSetter scope property decl.name type)
  onDescriptors (·.editProperty property fun p => { p with getter, setter })
  return property

end Analysis

end DeclAnalysis
