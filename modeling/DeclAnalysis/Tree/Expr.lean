import DeclAnalysis.Decimal.Double

/-!
# Expressions

The expressions of function bodies, initializers and import targets. Every
node carries a number of its own; a tree that has just been built carries
arbitrary ones, and numbering replaces them.
-/

namespace DeclAnalysis

/-- A possibly dotted type name such as `ns.inner.Class`. -/
structure TypeRef where
  id : Nat := 0
  name : String
deriving DecidableEq, Repr, Inhabited

/-- A value parameter. The parameters of a primary constructor may be mutable,
for each of them declares a property. -/
structure Parameter where
  id : Nat := 0
  name : String
  typeRef : Option TypeRef := none
  mutable : Bool := false
deriving DecidableEq, Repr, Inhabited

/-- A constant; integers have 64 bits. -/
inductive Literal where
  | int (value : Int)
  | double (value : Double)
  | string (value : String)
  | bool (value : Bool)
deriving DecidableEq, Repr, Inhabited

/-- The operators between two operands. -/
inductive BinaryOperator where
  | plus | minus | times | div | rem
  | lt | gt | ltEq | gtEq
  | eq | notEq
  | and | or
deriving DecidableEq, Repr, Inhabited

namespace BinaryOperator

/-- How the operator is written. -/
def symbol : BinaryOperator → String
  | plus => "+"
  | minus => "-"
  | times => "*"
  | div => "/"
  | rem => "%"
  | lt => "<"
  | gt => ">"
  | ltEq => "<="
  | gtEq => ">="
  | eq => "=="
  | notEq => "!="
  | and => "&&"
  | or => "||"

/-- The right operand is evaluated only if the left one does not decide. -/
def isShortCircuit : BinaryOperator → Bool
  | and | or => true
  | _ => false

end BinaryOperator

/-- An expression. The first argument of each form is the number of its node.

A simple name of the form `$name` denotes the backing field of the property
`name`. -/
inductive Expr where
  | constant (id : Nat) (value : Literal)
  | name (id : Nat) (name : String)
  | dot (id : Nat) (receiver : Expr) (name : String)
  | block (id : Nat) (statements : List Expr)
  | cond (id : Nat) (condition thenBranch : Expr) (elseBranch : Option Expr)
  | whileLoop (id : Nat) (condition body : Expr)
  | doWhileLoop (id : Nat) (body condition : Expr)
  | breakLoop (id : Nat)
  | continueLoop (id : Nat)
  | ret (id : Nat) (value : Option Expr)
  | binary (id : Nat) (operator : BinaryOperator) (left right : Expr)
  | assign (id : Nat) (target value : Expr)
  | call (id : Nat) (callee : String) (arguments : List Expr)
  | localVariable (id : Nat) (name : String) (mutable : Bool)
      (typeRef : Option TypeRef) (initializer : Option Expr)
  | lambda (id : Nat) (parameters : List Parameter) (body : Expr)
deriving Repr, Inhabited

namespace Expr

/-- The number of the node. -/
def id : Expr → Nat
  | constant id _ | name id _ | dot id _ _ | block id _ | cond id _ _ _ | whileLoop id _ _
  | doWhileLoop id _ _ | breakLoop id | continueLoop id | ret id _ | binary id _ _ _
  | assign id _ _ | call id _ _ | localVariable id _ _ _ _ | lambda id _ _ => id

/-- The direct sub-expressions, in the order of evaluation. -/
def children : Expr → List Expr
  | constant .. | name .. | breakLoop .. | continueLoop .. => []
  | dot _ receiver _ => [receiver]
  | block _ statements => statements
  | cond _ condition thenBranch elseBranch => condition :: thenBranch :: elseBranch.toList
  | whileLoop _ condition body => [condition, body]
  | doWhileLoop _ body condition => [body, condition]
  | ret _ value => value.toList
  | binary _ _ left right => [left, right]
  | assign _ target value => [target, value]
  | call _ _ arguments => arguments
  | localVariable _ _ _ _ initializer => initializer.toList
  | lambda _ _ body => [body]

mutual

/-- The expression and all its sub-expressions, every one before those inside
it. -/
def subexpressions : Expr → List Expr
  | e@(constant ..) | e@(name ..) | e@(breakLoop ..) | e@(continueLoop ..)
  | e@(ret _ none) | e@(localVariable _ _ _ _ none) => [e]
  | e@(dot _ receiver _) => e :: receiver.subexpressions
  | e@(block _ statements) => e :: subexpressionsOf statements
  | e@(cond _ condition thenBranch none) =>
    e :: (condition.subexpressions ++ thenBranch.subexpressions)
  | e@(cond _ condition thenBranch (some elseBranch)) =>
    e :: (condition.subexpressions ++ thenBranch.subexpressions ++ elseBranch.subexpressions)
  | e@(whileLoop _ condition body) => e :: (condition.subexpressions ++ body.subexpressions)
  | e@(doWhileLoop _ body condition) => e :: (body.subexpressions ++ condition.subexpressions)
  | e@(ret _ (some value)) => e :: value.subexpressions
  | e@(binary _ _ left right) => e :: (left.subexpressions ++ right.subexpressions)
  | e@(assign _ target value) => e :: (target.subexpressions ++ value.subexpressions)
  | e@(call _ _ arguments) => e :: subexpressionsOf arguments
  | e@(localVariable _ _ _ _ (some initializer)) => e :: initializer.subexpressions
  | e@(lambda _ _ body) => e :: body.subexpressions

/-- The sub-expressions of several expressions, one after the other. -/
def subexpressionsOf : List Expr → List Expr
  | [] => []
  | e :: rest => e.subexpressions ++ subexpressionsOf rest

end

end Expr

end DeclAnalysis
