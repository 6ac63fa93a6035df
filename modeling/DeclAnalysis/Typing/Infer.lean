import DeclAnalysis.Typing.Subtyping
import DeclAnalysis.Typing.TypeName

/-!
# Inference

Expressions are typed from the leaves upwards. The type of every expression that
has one is recorded, and so is what every name refers to. A problem is reported
where it arises; the expression then has an error type, which no longer gives
rise to further problems. Lambdas have no type.
-/

namespace DeclAnalysis

namespace Analysis

/-! ### Names -/

/-- The error type of a name that refers to nothing, which is reported. -/
def unresolved (node : Nat) (name : String) : Analysis Ty := do
  let message := "Unresolved reference: " ++ name
  reportCode .unresolvedReference node message
  return .error message

/-- The error type of something whose type has still to be found out. -/
def notKnownYet (what name : String) : Ty := .error (what ++ " of " ++ name ++ " is not known yet")

/-- The type of a node that refers to a value, which is recorded. -/
def referToValue (node : Nat) (kind : ReferenceKind) (name : String) (value : Nat) :
    Analysis Ty := do
  recordReference node kind value
  return ((← get).descriptors.valueType? value).getD (notKnownYet "Type" name)

/-- The type of a node that refers to a namespace, which is recorded. -/
def referToNamespace (node ns : Nat) : Analysis Ty := do
  recordReference node .identifier ns
  return (← get).descriptors.namespaceType ns

/-- The name of the property whose backing field a name denotes. -/
def fieldName? (name : String) : Option String :=
  match name.toList with
  | '$' :: rest => some (String.ofList rest)
  | _ => none

/-- Types a simple name. A variable hides a namespace of the same name. -/
def inferName (scope node : Nat) (name : String) : Analysis Ty := do
  let scopes := (← get).scopes
  match fieldName? name with
  | some field =>
    match scopes.field? scope field with
    | some property => referToValue node .fieldIdentifier name property
    | none => unresolved node name
  | none =>
    match scopes.value? scope name, scopes.namespace? scope name with
    | some value, _ => referToValue node .identifier name value
    | none, some ns => referToNamespace node ns
    | none, none => unresolved node name

/-- Types the member of a name in a value of the receiver's type. -/
def inferMember (node : Nat) (receiver : Ty) (name : String) : Analysis Ty := do
  if receiver.isError then return receiver
  let s ← get
  match s.descriptors.memberScope? receiver with
  | none =>
    let message := "Type " ++ receiver.text ++ " has no members"
    reportCode .semanticError node message
    return .error message
  | some members =>
    match s.scopes.memberValue? members name, s.scopes.memberNamespace? members name with
    | some value, _ => referToValue node .identifier name value
    | none, some ns => referToNamespace node ns
    | none, none => unresolved node name

/-! ### Operators and assignments -/

/-- Reports an expression whose known type is not convertible to the expected
one. -/
def expectType (node : Nat) (expected actual : Ty) : Analysis Unit := do
  if !(← get).descriptors.isConvertible actual expected then
    reportMismatch node expected actual

/-- Reports an expression whose type, if both types are known, is not convertible
to the expected one. -/
def expectKnownType (node : Nat) (expected actual : Option Ty) : Analysis Unit :=
  match expected, actual with
  | some expected, some actual => expectType node expected actual
  | _, _ => return

/-- The type of the result of an operator, if it can be applied to operands of
the given types. -/
def operatorType? (operator : BinaryOperator) (left right : Ty) : Option Ty :=
  let numeric := left.isNumeric && right.isNumeric
  let number := if left = .double ∨ right = .double then Ty.double else .int
  match operator with
  | .plus => if left = .string then some .string else if numeric then some number else none
  | .minus | .times | .div | .rem => if numeric then some number else none
  | .lt | .gt | .ltEq | .gtEq => if numeric then some .boolean else none
  | .eq | .notEq => some .boolean
  | .and | .or => if left = .boolean ∧ right = .boolean then some .boolean else none

/-- Types the application of an operator. An operand of an error type makes it
the type of the whole. -/
def inferOperator (node : Nat) (operator : BinaryOperator) (left right : Ty) :
    Analysis Ty := do
  if left.isError then return left
  if right.isError then return right
  match operatorType? operator left right with
  | some type => return type
  | none =>
    let message :=
      "Operator '" ++ operator.symbol ++ "' cannot be applied to '" ++ left.text ++ "' and '"
        ++ right.text ++ "'"
    reportCode .semanticError node message
    return .error message

/-- The expression may be assigned to: it is a name or a member access. -/
def isAssignable : Expr → Bool
  | .name .. | .dot .. => true
  | _ => false

/-- The expression is the name of a backing field. -/
def isFieldName : Expr → Bool
  | .name _ name => (fieldName? name).isSome
  | _ => false

/-- Reports the assignment to a value that may not be changed. What a target
refers to is taken from the trace, and backing fields may always be changed. -/
def checkReassignment (target : Expr) : Analysis Unit := do
  let s ← get
  match s.trace.reference? target.id with
  | none => return
  | some value =>
    if !isFieldName target && !s.descriptors.isMutableValue value then
      reportCode .semanticError target.id
        ("Val cannot be reassigned: " ++ s.descriptors.name value)

/-! ### Calls -/

/-- The parameters accept the arguments: there are as many, and each argument of
known type is convertible to its parameter. -/
def accepts (t : DescriptorTable) (arguments : List (Option Ty)) (candidate : Nat) : Bool :=
  let parameters := t.parameterTypes candidate
  parameters.length = arguments.length
    && (parameters.zip arguments).all fun (expected, actual) =>
      actual.all fun actual => t.isConvertible actual expected

/-- The first candidate that accepts the arguments. -/
def selectCandidate? (candidates : List Nat) (arguments : List (Option Ty)) :
    Analysis (Option Nat) :=
  return candidates.find? (accepts (← get).descriptors arguments)

/-- Types the call of one of several functions of a name. -/
def callFunction (node : Nat) (name : String) (functions : List Nat)
    (arguments : List (Option Ty)) : Analysis Ty := do
  match ← selectCandidate? functions arguments with
  | some function =>
    recordReference node .identifier function
    return ((← get).descriptors.returnType? function).getD (notKnownYet "Return type" name)
  | none =>
    let message := "None of the functions named '" ++ name ++ "' accept the given arguments"
    reportCode .semanticError node message
    return .error message

/-- Looks for the constructor of a class that accepts the arguments. A class
without any constructor can be called without arguments. -/
def matchConstructor (node classId : Nat) (classType : Ty) (arguments : List (Option Ty)) :
    Analysis Unit := do
  let constructors :=
    match (← get).descriptors.classData? classId with
    | some data => data.constructors
    | none => []
  if constructors.isEmpty && arguments.isEmpty then return
  match ← selectCandidate? constructors arguments with
  | some constructor => recordReference node .identifier constructor
  | none =>
    reportCode .semanticError node
      ("None of the constructors of '" ++ classType.text ++ "' accept the given arguments")

/-- Types a call: of a function, or else of a class. -/
def inferCall (scope node : Nat) (callee : String) (arguments : List (Option Ty)) :
    Analysis Ty := do
  let s ← get
  match s.scopes.functions scope callee with
  | [] =>
    match s.scopes.classifier? scope callee with
    | some classId =>
      let classType := s.descriptors.classType classId
      matchConstructor node classId classType arguments
      return classType
    | none => unresolved node callee
  | functions => callFunction node callee functions arguments

/-! ### Local variables -/

/-- What is said about a variable with neither a type nor an initializer. -/
def untypedVariable : String :=
  "This variable must either have a type annotation or be initialized"

/-- Declares a local variable with the declared type, or else with the type of
its initializer. -/
def declareLocal (scope node : Nat) (name : String) (mutable : Bool)
    (declared initialized : Option Ty) : Analysis Unit := do
  let type ←
    match declared <|> initialized with
    | some type => pure type
    | none => do
      reportCode .semanticError node untypedVariable
      pure (Ty.error untypedVariable)
  let container := (← get).scopes.containingDeclaration? scope
  let v ← createDescriptor name container (.variableKind ⟨some type, mutable⟩)
  onScopes (·.addVariable scope name v)
  recordDeclaration node v

/-! ### Expressions -/

/-- Records the type of an expression, if it has one. -/
def recordKnownType (node : Nat) : Option Ty → Analysis Unit
  | some type => recordExpressionType node type
  | none => return

mutual

/-- Types an expression in a scope. -/
def infer (scope : Nat) (e : Expr) : Analysis (Option Ty) := do
  let type ←
    match e with
    | .constant _ (.int _) => pure (some Ty.int)
    | .constant _ (.double _) => pure (some Ty.double)
    | .constant _ (.string _) => pure (some Ty.string)
    | .constant _ (.bool _) => pure (some Ty.boolean)
    | .name node name => some <$> inferName scope node name
    | .dot node receiver name => do
      match ← infer scope receiver with
      | some receiver => some <$> inferMember node receiver name
      | none => pure none
    | .block _ statements => do
      let block ← createScope .block (some scope) none
      inferStatements block (some .unit) statements
    | .cond _ condition thenBranch none => do
      expectKnownType condition.id (some .boolean) (← infer scope condition)
      let _ ← infer scope thenBranch
      pure (some .unit)
    | .cond _ condition thenBranch (some elseBranch) => do
      expectKnownType condition.id (some .boolean) (← infer scope condition)
      let thenType ← infer scope thenBranch
      let elseType ← infer scope elseBranch
      match thenType, elseType with
      | some a, some b => pure (some ((← get).descriptors.join a b))
      | _, _ => pure none
    | .whileLoop _ condition body => do
      expectKnownType condition.id (some .boolean) (← infer scope condition)
      let _ ← infer scope body
      pure (some .unit)
    | .doWhileLoop _ body condition => do
      let _ ← infer scope body
      expectKnownType condition.id (some .boolean) (← infer scope condition)
      pure (some .unit)
    | .breakLoop _ | .continueLoop _ | .ret _ none => pure (some .nothing)
    | .ret _ (some value) => do
      let _ ← infer scope value
      pure (some .nothing)
    | .binary node operator left right => do
      let leftType ← infer scope left
      let rightType ← infer scope right
      match leftType, rightType with
      | some left, some right => some <$> inferOperator node operator left right
      | _, _ => pure none
    | .assign _ target value => do
      let targetType ←
        if isAssignable target then infer scope target
        else do
          reportCode .semanticError target.id "Invalid assignment target"
          pure none
      checkReassignment target
      let valueType ← infer scope value
      expectKnownType value.id targetType valueType
      pure (some .unit)
    | .call node callee arguments => do
      let types ← inferArguments scope arguments
      some <$> inferCall scope node callee types
    | .localVariable node name mutable typeRef none => do
      let declared ← typeRef.mapM (resolveTypeRef scope)
      declareLocal scope node name mutable declared none
      pure (some .unit)
    | .localVariable node name mutable typeRef (some initializer) => do
      let declared ← typeRef.mapM (resolveTypeRef scope)
      let initialized ← infer scope initializer
      expectKnownType initializer.id declared initialized
      declareLocal scope node name mutable declared initialized
      pure (some .unit)
    | .lambda .. => pure none
  recordKnownType e.id type
  return type

/-- Types statements one after the other; the type of the last one is that of
the whole, and `last` is the one before them. -/
def inferStatements (scope : Nat) (last : Option Ty) : List Expr → Analysis (Option Ty)
  | [] => return last
  | e :: rest => do
    let type ← infer scope e
    inferStatements scope type rest

/-- Types arguments from left to right. -/
def inferArguments (scope : Nat) : List Expr → Analysis (List (Option Ty))
  | [] => return []
  | e :: rest => do
    let type ← infer scope e
    return type :: (← inferArguments scope rest)

end

end Analysis

end DeclAnalysis
