import DeclAnalysis.Resolve.Signature
import DeclAnalysis.Tree.Roots
import DeclAnalysis.Typing.Check

/-!
# Resolving bodies

The last pass checks delegation lists, initializers and bodies against the
signatures, which are all known by now, and fills in the types that were left
open. Properties come before functions, each in the order of the declarations.
-/

namespace DeclAnalysis

namespace DescriptorTable

/-- The parameter of a setter. -/
def setterValue? (t : DescriptorTable) (setter : Nat) : Option Nat :=
  (t.signature? setter).bind fun s => s.parameters.head?

/-- The type of the parameter of a setter, as far as it is known. -/
def setterValueType? (t : DescriptorTable) (setter : Nat) : Option Ty :=
  (t.setterValue? setter).bind t.valueType?

/-- Sets the type of a property, of the parameter of its setter and the return
type of its getter, wherever they are still open. -/
def fillPropertyType (t : DescriptorTable) (property : Nat) (type : Ty) : DescriptorTable :=
  match t.propertyData? property with
  | none => t
  | some data =>
    let t := t.editProperty property fun p => { p with type := p.type <|> some type }
    let t :=
      match data.getter with
      | none => t
      | some g => t.editSignature g fun s => { s with returnType := s.returnType <|> some type }
    match data.setter.bind t.setterValue? with
    | none => t
    | some v => t.editVariable v fun v => { v with type := v.type <|> some type }

end DescriptorTable

namespace Analysis

/-! ### Delegation lists -/

/-- Resolves an entry of the delegation list of a class whose members are in the
given scope. -/
def resolveDelegation (members : Nat) (hasPrimary : Bool) :
    DelegationSpecifier → FaultyAnalysis Unit
  | .byExpression _ ref (some delegate) => do
    match ← (infer members delegate : Analysis (Option Ty)) with
    | none => return
    | some actual =>
      let supertype ← resolveTypeRef members ref
      if !(← get).descriptors.isSubtype actual supertype then
        reportMismatch delegate.id supertype actual
  | .superCall id (some ref) arguments => checkConstructorCall members ref id arguments
  | .superClass id _ =>
    if hasPrimary then
      reportCode .constructorParametersRequired id
        "Constructor parameters required in initializer"
    else return
  | .thisCall id _ => throw (.at_ id .thisCallInClass)
  | .byExpression _ _ none | .superCall _ none _ => return

/-- Resolves the delegation list of a class. -/
def resolveDelegations (head : ClassHead) (descriptor : Nat) : FaultyAnalysis Unit := do
  match (← get).descriptors.classData? descriptor with
  | none => throw (.at_ head.id .classExpected)
  | some data =>
    head.delegationSpecifiers.forM
      (resolveDelegation data.memberScope head.primaryConstructor.isSome)

/-! ### Functions and accessors -/

/-- Reports the topmost expressions of a body that can never run. -/
def reportUnreachable
    (options : AnalysisOptions) (flow : FlowInformation) (node : Nat) (body : Expr) :
    FaultyAnalysis Unit := do
  match flow.unreachable node with
  | .error fault => throw fault
  | .ok elements =>
    if options.reportUnreachable then
      (body.roots elements).forM fun element =>
        reportCode .unreachableCode element "Unreachable code"

/-- Resolves the body of a function or accessor that is declared in a scope. -/
def resolveFunctionBody
    (options : AnalysisOptions) (node : Nat) (body : Option Expr) (function scope : Nat) :
    FaultyAnalysis Unit := do
  let declared := ((← get).descriptors.returnType? function).isSome
  match body with
  | none =>
    if !declared then
      reportCode .missingReturnTypeAndBody node
        "This function must either declare a return type or have a body element"
      setReturnType function (.error "No type, no body")
  | some body =>
    let flow := FlowInformation.data (.ofBody node body)
    let inner ← functionInnerScope scope function
    if declared then checkReturnType flow inner node (some body) function
    else
      let inferred ← inferReturnType flow inner node (some body)
      setReturnType function (inferred.getD (.error "Unable to infer body type"))
    reportUnreachable options flow node body

/-! ### Properties -/

/-- Resolves the initializer of a property. Its type must be convertible to what
a setter accepts or, without a setter, to the type of the property. -/
def resolveInitializer (scope property : Nat) (setter : Option Nat) (initializer : Expr) :
    Analysis Unit := do
  let inferred ← infer scope initializer
  let t := (← get).descriptors
  let expected :=
    match setter with
    | some setter => t.setterValueType? setter
    | none => t.valueType? property
  expectKnownType initializer.id expected inferred
  if let some actual := inferred then onDescriptors (·.fillPropertyType property actual)

/-- Resolves the accessors of a property. -/
def resolveAccessors
    (options : AnalysisOptions) (decl : PropertyDecl) (property : Nat) (data : PropertyData)
    (scope : Nat) : FaultyAnalysis Unit := do
  if let (some accessor, some getter) := (decl.getter, data.getter) then
    resolveFunctionBody options accessor.id accessor.body getter scope
    if let some type := (← get).descriptors.returnType? getter then
      onDescriptors (·.fillPropertyType property type)
  if let (some accessor, some setter) := (decl.setter, data.setter) then
    resolveFunctionBody options accessor.id accessor.body setter scope

/-- What is said about a property of which neither the declaration nor a body
gives the type. -/
def untypedProperty : String :=
  "This property must either have a type annotation or be initialized"

/-- The property has an accessor with a body. -/
def hasAccessorBody (decl : PropertyDecl) : Bool :=
  (decl.getter.toList ++ decl.setter.toList).any fun a => a.body.isSome

/-- What is said about the initializer of a property that cannot store it. -/
def initializerNotAllowed : String :=
  "Initializer is not allowed here because this property has no setter and no backing field "
    ++ "either"

/-- Settles the type and the backing field of a property after its bodies have
been resolved. A property without any accessor body has a backing field. -/
def concludeProperty (decl : PropertyDecl) (property : Nat) : Analysis Unit := do
  if ((← get).descriptors.valueType? property).isNone then
    reportCode .semanticError decl.id untypedProperty
    onDescriptors (·.fillPropertyType property (.error untypedProperty))
  if !hasAccessorBody decl then recordBackingField property
  if let some initializer := decl.initializer then
    if !decl.mutable && !(← get).trace.hasBackingField property then
      reportCode .initializerNotAllowed initializer.id initializerNotAllowed

/-- Resolves the initializer and the accessors of a property that is declared in a
scope. Inside the accessors the backing field is known under the name of the
property. -/
def resolvePropertyBodies
    (options : AnalysisOptions) (scope : Nat) (decl : PropertyDecl) (property : Nat) :
    FaultyAnalysis Unit := do
  match (← get).descriptors.propertyData? property with
  | none => throw (.at_ decl.id .propertyExpected)
  | some data =>
    if let some initializer := decl.initializer then
      resolveInitializer scope property data.setter initializer
    let accessorScope ← createScope .accessor (some scope) none
    onScopes (·.addField accessorScope decl.name property)
    let _ ← observed (.tracker property)
      (resolveAccessors options decl property data accessorScope)
    concludeProperty decl property

/-! ### Constructors -/

/-- Resolves an entry of the delegation list of a secondary constructor. -/
def resolveConstructorInitializer (scope classId : Nat) :
    DelegationSpecifier → Analysis Unit
  | .superCall id (some ref) arguments => checkConstructorCall scope ref id arguments
  | .superCall _ none _ => return
  | .thisCall id arguments => do
    let classType := (← get).descriptors.classType classId
    checkClassConstructorCall scope classId classType id arguments
  | .byExpression id _ _ =>
    reportCode .semanticError id "'by'-clause is only supported for primary constructors"
  | .superClass id _ =>
    reportCode .constructorParametersRequired id "Constructor parameters required"

/-- Resolves the delegation list and the body of a secondary constructor. -/
def resolveConstructorParts
    (options : AnalysisOptions) (scope classId : Nat) (decl : ConstructorDecl) :
    FaultyAnalysis Unit := do
  decl.initializers.forM fun i => (resolveConstructorInitializer scope classId i : Analysis Unit)
  if let some body := decl.body then
    let _ ← infer scope body
    reportUnreachable options (.data (.ofBody decl.id body)) decl.id body

/-- Resolves a secondary constructor that is declared in a scope. Inside it the
backing fields of the properties of its class are known, and references to
those that do not exist are reported at the end. -/
def resolveConstructorBody
    (options : AnalysisOptions) (properties : Nat → List Nat) (scope : Nat)
    (decl : ConstructorDecl) (constructor : Nat) : FaultyAnalysis Unit := do
  match ((← get).descriptors.get constructor).container with
  | none => throw (.at_ decl.id .constructorWithoutClass)
  | some classId =>
    let fieldScope ← createScope .constructor (some scope) none
    let t := (← get).descriptors
    onScopes fun scopes =>
      (properties classId).foldl (fun s p => s.addField fieldScope (t.name p) p) scopes
    let inner ← functionInnerScope fieldScope constructor
    let violations ← observed (.guard []) (resolveConstructorParts options inner classId decl)
    violations.forM fun node =>
      reportCode .backingFieldMisuse node "This property does not have a backing field"

end Analysis

namespace Pass

open Analysis

/-- Resolves the body of a function or constructor, after which its return type
must be known. -/
def resolveFunctionLike (options : AnalysisOptions) (f : FunctionLike) (descriptor : Nat) :
    Pass Unit := do
  let tables ← tables
  let scope ← ofExcept (tables.declaringScope f.id)
  match f with
  | .function decl => resolveFunctionBody options decl.id decl.body descriptor scope
  | .constructor decl =>
    resolveConstructorBody options tables.propertiesOf scope decl descriptor
  if ((← session).descriptors.returnType? descriptor).isNone then
    throw (.at_ f.id .returnTypeUnset)

/-- Resolves everything that the tables hold. -/
def resolveBodies (options : AnalysisOptions) : Pass Unit := do
  let tables ← tables
  tables.classes.toList.forM fun (head, descriptor) =>
    (resolveDelegations head descriptor : FaultyAnalysis Unit)
  tables.properties.toList.forM fun (decl, property) => do
    let scope ← ofExcept (tables.declaringScope decl.id)
    resolvePropertyBodies options scope decl property
  tables.functions.toList.forM fun (f, descriptor) => resolveFunctionLike options f descriptor

end Pass

end DeclAnalysis
