import DeclAnalysis.Tree.Declaration

/-!
# Numbering the nodes of a tree

The nodes of a file are numbered from 1 on, every node before the nodes inside
it and these from left to right. Because a tree with `k` nodes takes exactly
`k` numbers, the number of each node is known from the sizes of the trees
before it; numbering is therefore a function of the first number alone, and
whatever numbers the tree carried before have no influence.
-/

namespace DeclAnalysis

namespace TypeRef

/-- The type reference with the number `n`. -/
def number (n : Nat) (t : TypeRef) : TypeRef := { t with id := n }

end TypeRef

/-- The number of nodes of an optional type reference. -/
def typeRefCount (t : Option TypeRef) : Nat := if t.isSome then 1 else 0

namespace Parameter

/-- The number of nodes of a parameter. -/
def nodeCount (p : Parameter) : Nat := 1 + typeRefCount p.typeRef

/-- The parameter with its nodes numbered from `n` on. -/
def number (n : Nat) (p : Parameter) : Parameter :=
  { p with id := n, typeRef := p.typeRef.map (TypeRef.number (n + 1)) }

end Parameter

/-- The number of nodes of a list of parameters. -/
def parameterCount : List Parameter → Nat
  | [] => 0
  | p :: ps => p.nodeCount + parameterCount ps

/-- The parameters with their nodes numbered from `n` on. -/
def numberParameters (n : Nat) : List Parameter → List Parameter
  | [] => []
  | p :: rest => p.number n :: numberParameters (n + p.nodeCount) rest

namespace Expr

mutual

/-- The number of nodes of an expression. -/
def nodeCount : Expr → Nat
  | constant .. | name .. | breakLoop .. | continueLoop .. | ret _ none => 1
  | dot _ receiver _ => 1 + receiver.nodeCount
  | block _ statements => 1 + nodeCountOf statements
  | cond _ condition thenBranch none => 1 + condition.nodeCount + thenBranch.nodeCount
  | cond _ condition thenBranch (some elseBranch) =>
    1 + condition.nodeCount + thenBranch.nodeCount + elseBranch.nodeCount
  | whileLoop _ condition body => 1 + condition.nodeCount + body.nodeCount
  | doWhileLoop _ body condition => 1 + body.nodeCount + condition.nodeCount
  | ret _ (some value) => 1 + value.nodeCount
  | binary _ _ left right => 1 + left.nodeCount + right.nodeCount
  | assign _ target value => 1 + target.nodeCount + value.nodeCount
  | call _ _ arguments => 1 + nodeCountOf arguments
  | localVariable _ _ _ typeRef none => 1 + typeRefCount typeRef
  | localVariable _ _ _ typeRef (some initializer) =>
    1 + typeRefCount typeRef + initializer.nodeCount
  | lambda _ parameters body => 1 + parameterCount parameters + body.nodeCount

/-- The number of nodes of a list of expressions. -/
def nodeCountOf : List Expr → Nat
  | [] => 0
  | e :: rest => e.nodeCount + nodeCountOf rest

end

mutual

/-- The expression with its nodes numbered from `n` on. -/
def number (n : Nat) : Expr → Expr
  | constant _ value => constant n value
  | name _ text => name n text
  | dot _ receiver text => dot n (receiver.number (n + 1)) text
  | block _ statements => block n (numberAll (n + 1) statements)
  | cond _ condition thenBranch none =>
    cond n (condition.number (n + 1)) (thenBranch.number (n + 1 + condition.nodeCount)) none
  | cond _ condition thenBranch (some elseBranch) =>
    cond n (condition.number (n + 1)) (thenBranch.number (n + 1 + condition.nodeCount))
      (some (elseBranch.number (n + 1 + condition.nodeCount + thenBranch.nodeCount)))
  | whileLoop _ condition body =>
    whileLoop n (condition.number (n + 1)) (body.number (n + 1 + condition.nodeCount))
  | doWhileLoop _ body condition =>
    doWhileLoop n (body.number (n + 1)) (condition.number (n + 1 + body.nodeCount))
  | breakLoop _ => breakLoop n
  | continueLoop _ => continueLoop n
  | ret _ none => ret n none
  | ret _ (some value) => ret n (some (value.number (n + 1)))
  | binary _ operator left right =>
    binary n operator (left.number (n + 1)) (right.number (n + 1 + left.nodeCount))
  | assign _ target value =>
    assign n (target.number (n + 1)) (value.number (n + 1 + target.nodeCount))
  | call _ callee arguments => call n callee (numberAll (n + 1) arguments)
  | localVariable _ text mutable typeRef none =>
    localVariable n text mutable (typeRef.map (TypeRef.number (n + 1))) none
  | localVariable _ text mutable typeRef (some initializer) =>
    localVariable n text mutable (typeRef.map (TypeRef.number (n + 1)))
      (some (initializer.number (n + 1 + typeRefCount typeRef)))
  | lambda _ parameters body =>
    lambda n (numberParameters (n + 1) parameters)
      (body.number (n + 1 + parameterCount parameters))

/-- The expressions with their nodes numbered from `n` on. -/
def numberAll (n : Nat) : List Expr → List Expr
  | [] => []
  | e :: rest => e.number n :: numberAll (n + e.nodeCount) rest

end

/-- The number of nodes of an optional expression. -/
def optionalCount : Option Expr → Nat
  | none => 0
  | some e => e.nodeCount

end Expr

namespace ImportDirective

/-- The number of nodes of an import directive. -/
def nodeCount (i : ImportDirective) : Nat := 1 + Expr.optionalCount i.imported

/-- The import directive with its nodes numbered from `n` on. -/
def number (n : Nat) (i : ImportDirective) : ImportDirective :=
  { i with id := n, imported := i.imported.map (Expr.number (n + 1)) }

/-- The import directives with their nodes numbered from `n` on. -/
def numberAll (n : Nat) : List ImportDirective → List ImportDirective
  | [] => []
  | i :: rest => i.number n :: numberAll (n + i.nodeCount) rest

/-- The number of nodes of a list of import directives. -/
def nodeCountOf : List ImportDirective → Nat
  | [] => 0
  | i :: is => i.nodeCount + nodeCountOf is

end ImportDirective

namespace DelegationSpecifier

/-- The number of nodes of a delegation specifier. -/
def nodeCount : DelegationSpecifier → Nat
  | byExpression _ _ delegate => 2 + Expr.optionalCount delegate
  | superCall _ typeRef arguments => 1 + typeRefCount typeRef + Expr.nodeCountOf arguments
  | superClass .. => 2
  | thisCall _ arguments => 1 + Expr.nodeCountOf arguments

/-- The delegation specifier with its nodes numbered from `n` on. -/
def number (n : Nat) : DelegationSpecifier → DelegationSpecifier
  | byExpression _ typeRef delegate =>
    byExpression n (typeRef.number (n + 1)) (delegate.map (Expr.number (n + 2)))
  | superCall _ typeRef arguments =>
    superCall n (typeRef.map (TypeRef.number (n + 1)))
      (Expr.numberAll (n + 1 + typeRefCount typeRef) arguments)
  | superClass _ typeRef => superClass n (typeRef.number (n + 1))
  | thisCall _ arguments => thisCall n (Expr.numberAll (n + 1) arguments)

/-- The delegation specifiers with their nodes numbered from `n` on. -/
def numberAll (n : Nat) : List DelegationSpecifier → List DelegationSpecifier
  | [] => []
  | s :: rest => s.number n :: numberAll (n + s.nodeCount) rest

/-- The number of nodes of a list of delegation specifiers. -/
def nodeCountOf : List DelegationSpecifier → Nat
  | [] => 0
  | s :: ss => s.nodeCount + nodeCountOf ss

end DelegationSpecifier

namespace NamespaceHead

/-- The number of nodes of a namespace declaration without its members. -/
def nodeCount (h : NamespaceHead) : Nat := 1 + ImportDirective.nodeCountOf h.imports

/-- The head with its nodes numbered from `n` on. -/
def number (n : Nat) (h : NamespaceHead) : NamespaceHead :=
  { h with id := n, imports := ImportDirective.numberAll (n + 1) h.imports }

end NamespaceHead

namespace ClassHead

/-- The number of nodes of a primary parameter list. -/
def primaryCount (h : ClassHead) : Nat := parameterCount (h.primaryConstructor.getD [])

/-- The number of nodes of a class declaration without its members. -/
def nodeCount (h : ClassHead) : Nat :=
  1 + h.primaryCount + DelegationSpecifier.nodeCountOf h.delegationSpecifiers

/-- The head with its nodes numbered from `n` on. -/
def number (n : Nat) (h : ClassHead) : ClassHead :=
  { h with
    id := n
    primaryConstructor := h.primaryConstructor.map (numberParameters (n + 1))
    delegationSpecifiers :=
      DelegationSpecifier.numberAll (n + 1 + h.primaryCount) h.delegationSpecifiers }

end ClassHead

namespace FunctionDecl

/-- The number of nodes of a function declaration. -/
def nodeCount (f : FunctionDecl) : Nat :=
  1 + parameterCount f.parameters + typeRefCount f.returnType + Expr.optionalCount f.body

/-- The function declaration with its nodes numbered from `n` on. -/
def number (n : Nat) (f : FunctionDecl) : FunctionDecl :=
  let afterParameters := n + 1 + parameterCount f.parameters
  { f with
    id := n
    parameters := numberParameters (n + 1) f.parameters
    returnType := f.returnType.map (TypeRef.number afterParameters)
    body := f.body.map (Expr.number (afterParameters + typeRefCount f.returnType)) }

end FunctionDecl

namespace Accessor

/-- The number of nodes of an optional parameter. -/
def optionalParameterCount : Option Parameter → Nat
  | none => 0
  | some p => p.nodeCount

/-- The number of nodes of an accessor. -/
def nodeCount (a : Accessor) : Nat :=
  1 + optionalParameterCount a.parameter + typeRefCount a.returnType
    + Expr.optionalCount a.body

/-- The accessor with its nodes numbered from `n` on. -/
def number (n : Nat) (a : Accessor) : Accessor :=
  let afterParameter := n + 1 + optionalParameterCount a.parameter
  { a with
    id := n
    parameter := a.parameter.map (Parameter.number (n + 1))
    returnType := a.returnType.map (TypeRef.number afterParameter)
    body := a.body.map (Expr.number (afterParameter + typeRefCount a.returnType)) }

/-- The number of nodes of an optional accessor. -/
def optionalCount : Option Accessor → Nat
  | none => 0
  | some a => a.nodeCount

end Accessor

namespace PropertyDecl

/-- The number of nodes of a property declaration. -/
def nodeCount (p : PropertyDecl) : Nat :=
  1 + typeRefCount p.typeRef + Expr.optionalCount p.initializer
    + Accessor.optionalCount p.getter + Accessor.optionalCount p.setter

/-- The property declaration with its nodes numbered from `n` on. -/
def number (n : Nat) (p : PropertyDecl) : PropertyDecl :=
  let afterType := n + 1 + typeRefCount p.typeRef
  let afterInitializer := afterType + Expr.optionalCount p.initializer
  { p with
    id := n
    typeRef := p.typeRef.map (TypeRef.number (n + 1))
    initializer := p.initializer.map (Expr.number afterType)
    getter := p.getter.map (Accessor.number afterInitializer)
    setter :=
      p.setter.map (Accessor.number (afterInitializer + Accessor.optionalCount p.getter)) }

end PropertyDecl

namespace ConstructorDecl

/-- The number of nodes of a constructor declaration. -/
def nodeCount (c : ConstructorDecl) : Nat :=
  1 + parameterCount c.parameters + DelegationSpecifier.nodeCountOf c.initializers
    + Expr.optionalCount c.body

/-- The constructor declaration with its nodes numbered from `n` on. -/
def number (n : Nat) (c : ConstructorDecl) : ConstructorDecl :=
  let afterParameters := n + 1 + parameterCount c.parameters
  { c with
    id := n
    parameters := numberParameters (n + 1) c.parameters
    initializers := DelegationSpecifier.numberAll afterParameters c.initializers
    body :=
      c.body.map
        (Expr.number (afterParameters + DelegationSpecifier.nodeCountOf c.initializers)) }

end ConstructorDecl

namespace Declaration

mutual

/-- The number of nodes of a declaration. -/
def nodeCount : Declaration → Nat
  | namespaceDecl head members => head.nodeCount + nodeCountOf members
  | classDecl head members => head.nodeCount + nodeCountOf members
  | typedefDecl .. | extensionDecl .. => 1
  | functionDecl decl => decl.nodeCount
  | propertyDecl decl => decl.nodeCount
  | constructorDecl decl => decl.nodeCount
  | classObject _ members => 1 + nodeCountOf members

/-- The number of nodes of a list of declarations. -/
def nodeCountOf : List Declaration → Nat
  | [] => 0
  | d :: rest => d.nodeCount + nodeCountOf rest

end

mutual

/-- The declaration with its nodes numbered from `n` on. -/
def number (n : Nat) : Declaration → Declaration
  | namespaceDecl head members =>
    namespaceDecl (head.number n) (numberAll (n + head.nodeCount) members)
  | classDecl head members => classDecl (head.number n) (numberAll (n + head.nodeCount) members)
  | typedefDecl _ name => typedefDecl n name
  | extensionDecl _ name => extensionDecl n name
  | functionDecl decl => functionDecl (decl.number n)
  | propertyDecl decl => propertyDecl (decl.number n)
  | constructorDecl decl => constructorDecl (decl.number n)
  | classObject _ members => classObject n (numberAll (n + 1) members)

/-- The declarations with their nodes numbered from `n` on. -/
def numberAll (n : Nat) : List Declaration → List Declaration
  | [] => []
  | d :: rest => d.number n :: numberAll (n + d.nodeCount) rest

end

end Declaration

end DeclAnalysis
