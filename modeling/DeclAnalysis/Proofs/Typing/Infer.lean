import DeclAnalysis.Proofs.Flow.Operands
import DeclAnalysis.Proofs.Flow.ReturnPoints
import DeclAnalysis.Typing.Check

/-!
# Typing in steps

The type of an expression is first found and then recorded. The first step depends on the
form of the expression, the second one does not. Declarations of local variables and
constructor calls consist of several steps, too. A body with a declared return type is first
typed, then its opaque return points are reported, and at last all other return points are
compared with the declared type.
-/

namespace DeclAnalysis

namespace Analysis

/-- The type of the target of an assignment. -/
def inferTarget (scope : Nat) (target : Expr) : Analysis (Option Ty) :=
  if isAssignable target then infer scope target
  else do
    reportCode .semanticError target.id "Invalid assignment target"
    pure none

/-- The type of an expression, before it is recorded. -/
def inferForm (scope : Nat) : Expr → Analysis (Option Ty)
  | .constant _ (.int _) => pure (some Ty.int)
  | .constant _ (.double _) => pure (some Ty.double)
  | .constant _ (.string _) => pure (some Ty.string)
  | .constant _ (.bool _) => pure (some Ty.boolean)
  | .name node name => some <$> inferName scope node name
  | .dot node receiver name => do
    match ← infer scope receiver with
    | some receiver => some <$> inferMember node receiver name
    | none => pure none
  | .block _ statements => do
    let block ← createScope .block (some scope) none
    inferStatements block (some .unit) statements
  | .cond _ condition thenBranch none => do
    expectKnownType condition.id (some .boolean) (← infer scope condition)
    let _ ← infer scope thenBranch
    pure (some .unit)
  | .cond _ condition thenBranch (some elseBranch) => do
    expectKnownType condition.id (some .boolean) (← infer scope condition)
    let thenType ← infer scope thenBranch
    let elseType ← infer scope elseBranch
    match thenType, elseType with
    | some a, some b => pure (some ((← get).descriptors.join a b))
    | _, _ => pure none
  | .whileLoop _ condition body => do
    expectKnownType condition.id (some .boolean) (← infer scope condition)
    let _ ← infer scope body
    pure (some .unit)
  | .doWhileLoop _ body condition => do
    let _ ← infer scope body
    expectKnownType condition.id (some .boolean) (← infer scope condition)
    pure (some .unit)
  | .breakLoop _ | .continueLoop _ | .ret _ none => pure (some .nothing)
  | .ret _ (some value) => do
    let _ ← infer scope value
    pure (some .nothing)
  | .binary node operator left right => do
    let leftType ← infer scope left
    let rightType ← infer scope right
    match leftType, rightType with
    | some left, some right => some <$> inferOperator node operator left right
    | _, _ => pure none
  | .assign _ target value => do
    let targetType ← inferTarget scope target
    checkReassignment target
    let valueType ← infer scope value
    expectKnownType value.id targetType valueType
    pure (some .unit)
  | .call node callee arguments => do
    let types ← inferArguments scope arguments
    some <$> inferCall scope node callee types
  | .localVariable node name mutable typeRef none => do
    let declared ← typeRef.mapM (resolveTypeRef scope)
    declareLocal scope node name mutable declared none
    pure (some .unit)
  | .localVariable node name mutable typeRef (some initializer) => do
    let declared ← typeRef.mapM (resolveTypeRef scope)
    let initialized ← infer scope initializer
    expectKnownType initializer.id declared initialized
    declareLocal scope node name mutable declared initialized
    pure (some .unit)
  | .lambda .. => pure none

/-- The type of every expression that has one is recorded. -/
theorem infer_eq (scope : Nat) (e : Expr) :
    infer scope e = do
      let type ← inferForm scope e
      recordKnownType e.id type
      return type := by
  match e with
  | .constant _ (.int _) | .constant _ (.double _) | .constant _ (.string _)
  | .constant _ (.bool _) | .breakLoop _ | .continueLoop _ | .ret _ none | .lambda ..
  | .name .. | .block .. | .cond _ _ _ none
  | .whileLoop .. | .doWhileLoop .. | .ret _ (some _) 
  | .call .. | .localVariable _ _ _ _ none | .localVariable _ _ _ _ (some _) => rw [infer]; rfl
  | .dot _ receiver _ =>
      rw [infer, inferForm, bind_assoc]
      congr 1
      funext type
      cases type <;> rfl
  | .cond _ condition thenBranch (some elseBranch) =>
      rw [infer, inferForm]
      simp only [bind_assoc]
      congr 1
      funext conditionType
      congr 1
      funext _
      congr 1
      funext thenType
      congr 1
      funext elseType
      cases thenType <;> cases elseType <;> rfl
  | .binary _ _ left right =>
      rw [infer, inferForm]
      simp only [bind_assoc]
      congr 1
      funext leftType
      congr 1
      funext rightType
      cases leftType <;> cases rightType <;> rfl
  | .assign _ target value =>
      rw [infer, inferForm, inferTarget]
      dsimp only
      split
      · rfl
      · rfl

/-- The type of a local variable: the declared one, or else that of its initializer. -/
def localType (node : Nat) (declared initialized : Option Ty) : Analysis Ty := do
  match declared <|> initialized with
  | some type => pure type
  | none => do
    reportCode .semanticError node untypedVariable
    pure (Ty.error untypedVariable)

theorem declareLocal_eq
    (scope node : Nat) (name : String) (mutable : Bool) (declared initialized : Option Ty) :
    declareLocal scope node name mutable declared initialized = (do
      let type ← localType node declared initialized
      let container := (← get).scopes.containingDeclaration? scope
      let v ← createDescriptor name container (.variableKind ⟨some type, mutable⟩)
      onScopes (·.addVariable scope name v)
      recordDeclaration node v) := by
  unfold declareLocal localType
  cases declared <|> initialized with
  | none => rfl
  | some type => rfl

/-- What is done about the candidate that a constructor call selects. -/
def concludeConstructor (node : Nat) (classType : Ty) : Option Nat → Analysis Unit
  | some constructor => recordReference node .identifier constructor
  | none =>
    reportCode .semanticError node
      ("None of the constructors of '" ++ classType.text ++ "' accept the given arguments")

theorem matchConstructor_eq
    (node classId : Nat) (classType : Ty) (arguments : List (Option Ty)) :
    matchConstructor node classId classType arguments = (do
      let constructors := ((← get).descriptors.classData? classId).elim [] ClassData.constructors
      if constructors.isEmpty && arguments.isEmpty then return
      concludeConstructor node classType (← selectCandidate? constructors arguments)) := by
  unfold matchConstructor concludeConstructor
  congr 1
  funext s
  cases s.descriptors.classData? classId with
  | none => rfl
  | some data => rfl

/-- The result of an operator is a built-in type. -/
theorem operatorType?_cases
    {operator : BinaryOperator} {left right type : Ty}
    (h : operatorType? operator left right = some type) :
    type = .string ∨ type = .boolean ∨ type = .double ∨ type = .int := by
  have hnumber {numeric double : Prop} [Decidable numeric] [Decidable double]
      (h : (if numeric then some (if double then Ty.double else .int) else none) = some type) :
      type = .double ∨ type = .int := by
    obtain ⟨-, h⟩ := Option.ite_none_right_eq_some.mp h
    obtain rfl := Option.some.inj h
    split
    · exact .inl rfl
    · exact .inr rfl
  unfold operatorType? at h
  cases operator with
  | plus =>
      simp only at h
      split at h
      · exact .inl (Option.some.inj h).symm
      · exact .inr (.inr (hnumber h))
  | minus | times | div | rem => exact .inr (.inr (hnumber h))
  | eq | notEq => exact .inr (.inl (Option.some.inj h).symm)
  | lt | gt | ltEq | gtEq | and | or =>
      obtain ⟨-, h⟩ := Option.ite_none_right_eq_some.mp h
      exact .inr (.inl (Option.some.inj h).symm)

end Analysis

/-!
## Return points are nodes of the body

The steps of a body are those of its sub-expressions, and so the value of a subroutine comes from
nodes of its body.
-/

namespace FlowGraph

variable {subroutine p x : Nat} {body : Expr}

/-- The steps of the graph of a body concern nodes of the body. -/
theorem element_mem_nodes_of_step?
    {s : Step} (hs : (ofBody subroutine body).step? p = some s) : s.element ∈ body.nodes := by
  obtain ⟨i, hi, his⟩ := Option.bind_eq_some_iff.mp hs
  rw [← Array.getElem?_toList] at hi
  have hmem : s ∈ body.steps false := by
    rw [← filterMap_step?_ofBody subroutine]
    exact List.mem_filterMap.mpr ⟨i, List.mem_of_getElem? hi, his⟩
  exact Expr.element_mem_nodes_of_mem_steps hmem

theorem mem_nodes_of_mem_sourceElements
    {kinds : StepKind → Bool} {order : List Nat}
    (h : x ∈ (ofBody subroutine body).sourceElements kinds order) : x ∈ body.nodes := by
  obtain ⟨p, -, hp⟩ := List.mem_filterMap.mp h
  obtain ⟨kind, -, hs⟩ := bind_elementOf_eq_some_iff.mp hp
  exact element_mem_nodes_of_step? hs

/-- The value of a subroutine comes from nodes of its body, and the subroutine is done without
a value only at nodes of its body. -/
theorem returned_subset_nodes (subroutine : Nat) (body : Expr) :
    (ofBody subroutine body).returned.expressions ⊆ body.nodes ∧
      (ofBody subroutine body).returned.unitReturning ⊆ body.nodes := by
  obtain ⟨order, -, -, heq⟩ := exists_returned_eq_sourceElements subroutine body
  rw [heq]
  exact ⟨fun _ => mem_nodes_of_mem_sourceElements, fun _ => mem_nodes_of_mem_sourceElements⟩

end FlowGraph

namespace FlowInformation

theorem returned_ofBody (node : Nat) (body : Expr) :
    (data (.ofBody node body)).returned node = .ok (FlowGraph.ofBody node body).returned :=
  returned_add {} node body

end FlowInformation

/-! ## Checks of return points -/

namespace Analysis

/-- Checks where the value of a body comes from against the expected type. -/
def checkReturnPoints (expected : Ty) (points : ReturnedInformation) : FaultyAnalysis Unit := do
  points.expressions.forM fun element => do
    let actual := (← get).trace.expressionType? element
    expectKnownType element (some expected) actual
  if !(← get).descriptors.isConvertible .unit expected then
    points.unitReturning.forM fun element => reportMismatch element expected .unit

/-- The return points of a body are those of its graph. -/
theorem returnPoints_ofBody (node : Nat) (body : Expr) :
    returnPoints (.data (.ofBody node body)) node = do
      (FlowGraph.ofBody node body).returned.unsupported.forM fun element =>
        report (.unsupportedElement element)
      return (FlowGraph.ofBody node body).returned := by
  unfold returnPoints
  rw [FlowInformation.returned_ofBody]

end Analysis

end DeclAnalysis
