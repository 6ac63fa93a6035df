import DeclAnalysis.Flow.Query
import DeclAnalysis.Typing.Infer

/-!
# Checks of calls and bodies

A constructor call is checked against the constructors of a class, and the body
of a function against its declared return type; where no return type is
declared, it is joined from the return points of the body.
-/

namespace DeclAnalysis

namespace Analysis

/-- Checks a call of one of the constructors of a class. -/
def checkClassConstructorCall
    (scope classId : Nat) (classType : Ty) (node : Nat) (arguments : List Expr) :
    Analysis Unit := do
  let types ← inferArguments scope arguments
  matchConstructor node classId classType types

/-- Checks a constructor call on the type that a reference denotes. -/
def checkConstructorCall (scope : Nat) (ref : TypeRef) (node : Nat) (arguments : List Expr) :
    Analysis Unit := do
  let type ← resolveTypeRef scope ref
  match type with
  | .classType classId _ => checkClassConstructorCall scope classId type node arguments
  | _ =>
    let _ ← inferArguments scope arguments
    if !type.isError then
      reportCode .semanticError node
        ("'" ++ type.text ++ "' is not a class and has no constructors")

/-- Where the value of a body comes from. Opaque elements after which the body is
done are reported. -/
def returnPoints (flow : FlowInformation) (node : Nat) :
    FaultyAnalysis ReturnedInformation := do
  match flow.returned node with
  | .ok info =>
    info.unsupported.forM fun element => report (.unsupportedElement element)
    return info
  | .error fault => throw fault

/-- Types the body of a function and checks all return points against the
declared return type. -/
def checkReturnType
    (flow : FlowInformation) (scope node : Nat) (body : Option Expr) (function : Nat) :
    FaultyAnalysis Unit := do
  match (← get).descriptors.returnType? function with
  | none => throw (.at_ node .returnTypeNotYetSet)
  | some expected =>
    match body with
    | none => return
    | some body =>
      let _ ← infer scope body
      let points ← returnPoints flow node
      points.expressions.forM fun element => do
        let actual := (← get).trace.expressionType? element
        expectKnownType element (some expected) actual
      if !(← get).descriptors.isConvertible .unit expected then
        points.unitReturning.forM fun element => reportMismatch element expected .unit

/-- The known types of the return points of a body, in their order, followed by
the unit type if the body may end without a value. -/
def returnTypes (t : Trace) (points : ReturnedInformation) : List Ty :=
  points.expressions.filterMap t.expressionType?
    ++ (if points.unitReturning.isEmpty then [] else [.unit])

/-- The join of a list of types. -/
def joinAll (t : DescriptorTable) : List Ty → Option Ty
  | [] => none
  | first :: rest => some (rest.foldl t.join first)

/-- Types the body of a function and joins the types of its return points. -/
def inferReturnType
    (flow : FlowInformation) (scope node : Nat) (body : Option Expr) :
    FaultyAnalysis (Option Ty) := do
  match body with
  | none => return none
  | some body =>
    let _ ← infer scope body
    let points ← returnPoints flow node
    let s ← get
    return joinAll s.descriptors (returnTypes s.trace points)

end Analysis

end DeclAnalysis
