import DeclAnalysis.Tree.Declaration

/-!
# Expressions and bodies of a tree

A body is an expression that is run as a subroutine of its own: the body of a
function, an accessor or a constructor, and the initializer of a property.
Import targets, delegates and the arguments of delegation lists are expressions
too, but no bodies.
-/

namespace DeclAnalysis

/-- What a body belongs to. -/
inductive BodyRole where
  | function
  | initializer
  | getter
  | setter
  | constructor
deriving DecidableEq, Repr, Inhabited

/-- A body with the node of the declaration or accessor that it belongs to. -/
structure Body where
  subroutine : Nat
  role : BodyRole
  expr : Expr
deriving Repr, Inhabited

namespace Body

/-- The body that an optional expression makes. -/
def ofExpr (subroutine : Nat) (role : BodyRole) (e : Option Expr) : List Body :=
  e.toList.map fun e => ⟨subroutine, role, e⟩

/-- The body of an optional accessor. -/
def ofAccessor (role : BodyRole) (a : Option Accessor) : List Body :=
  a.toList.flatMap fun a => ofExpr a.id role a.body

end Body

namespace PropertyDecl

/-- The bodies of a property, its initializer first. -/
def bodies (p : PropertyDecl) : List Body :=
  Body.ofExpr p.id .initializer p.initializer ++ Body.ofAccessor .getter p.getter
    ++ Body.ofAccessor .setter p.setter

end PropertyDecl

namespace Declaration

/-- The bodies of a declaration itself, without those of its members. -/
def ownBodies : Declaration → List Body
  | functionDecl decl => Body.ofExpr decl.id .function decl.body
  | propertyDecl decl => decl.bodies
  | constructorDecl decl => Body.ofExpr decl.id .constructor decl.body
  | _ => []

/-- The expressions of a declaration itself, without those of its members and
without their sub-expressions. -/
def ownExpressions (d : Declaration) : List Expr :=
  (match d with
    | namespaceDecl head _ => head.imports.flatMap fun i => i.imported.toList
    | classDecl head _ => head.delegationSpecifiers.flatMap DelegationSpecifier.expressions
    | constructorDecl decl => decl.initializers.flatMap DelegationSpecifier.expressions
    | _ => [])
    ++ d.ownBodies.map Body.expr

end Declaration

/-- The bodies of a list of declarations, in the order of the tree. -/
def bodiesOf (declarations : List Declaration) : List Body :=
  (Declaration.nestedIn declarations).flatMap Declaration.ownBodies

/-- All expressions of a list of declarations, in the order of the tree. -/
def expressionsOf (declarations : List Declaration) : List Expr :=
  Expr.subexpressionsOf ((Declaration.nestedIn declarations).flatMap Declaration.ownExpressions)

end DeclAnalysis
