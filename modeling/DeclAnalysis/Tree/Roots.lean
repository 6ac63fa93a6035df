import DeclAnalysis.Tree.Expr

/-!
# Topmost nodes of a set

Of a set of nodes only those are reported that lie inside no other node of the
set.
-/

namespace DeclAnalysis

namespace Expr

mutual

/-- The nodes of the expression that are in the set and lie inside no other node
of it, from left to right. Nothing below a node of the set is visited. -/
def roots (elements : List Nat) (e : Expr) : List Nat :=
  if e.id ∈ elements then [e.id]
  else
    match e with
    | constant .. | name .. | breakLoop .. | continueLoop .. | ret _ none
    | localVariable _ _ _ _ none => []
    | dot _ receiver _ => receiver.roots elements
    | block _ statements => rootsOf elements statements
    | cond _ condition thenBranch none =>
      condition.roots elements ++ thenBranch.roots elements
    | cond _ condition thenBranch (some elseBranch) =>
      condition.roots elements ++ thenBranch.roots elements ++ elseBranch.roots elements
    | whileLoop _ condition body => condition.roots elements ++ body.roots elements
    | doWhileLoop _ body condition => body.roots elements ++ condition.roots elements
    | ret _ (some value) => value.roots elements
    | binary _ _ left right => left.roots elements ++ right.roots elements
    | assign _ target value => target.roots elements ++ value.roots elements
    | call _ _ arguments => rootsOf elements arguments
    | localVariable _ _ _ _ (some initializer) => initializer.roots elements
    | lambda _ _ body => body.roots elements

/-- The topmost nodes in a list of expressions. -/
def rootsOf (elements : List Nat) : List Expr → List Nat
  | [] => []
  | e :: rest => e.roots elements ++ rootsOf elements rest

end

end Expr

end DeclAnalysis
