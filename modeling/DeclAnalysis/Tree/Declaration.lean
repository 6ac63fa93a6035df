import DeclAnalysis.Tree.Expr

/-!
# Declarations

A declaration that holds further declarations is a head, which says what it is,
beside the list of its members. The other declarations, and every head, are
plain records.
-/

namespace DeclAnalysis

/-- An import directive of a namespace. -/
structure ImportDirective where
  id : Nat := 0
  imported : Option Expr := none
  allUnder : Bool := false
  absoluteInRoot : Bool := false
deriving Repr, Inhabited

/-- An entry of a delegation list: of a class, or before the body of a
constructor. -/
inductive DelegationSpecifier where
  /-- The written form is `: Trait by delegate`. -/
  | byExpression (id : Nat) (typeRef : TypeRef) (delegate : Option Expr)
  /-- The written form is `: Base(args)`, or `super(args)` in a constructor. -/
  | superCall (id : Nat) (typeRef : Option TypeRef) (arguments : List Expr)
  /-- The written form is `: Base`, without a call. -/
  | superClass (id : Nat) (typeRef : TypeRef)
  /-- The written form is `this(args)`. -/
  | thisCall (id : Nat) (arguments : List Expr)
deriving Repr, Inhabited

namespace DelegationSpecifier

/-- The number of the node. -/
def id : DelegationSpecifier → Nat
  | byExpression id _ _ | superCall id _ _ | superClass id _ | thisCall id _ => id

/-- The type that the entry names. -/
def typeRef? : DelegationSpecifier → Option TypeRef
  | byExpression _ typeRef _ | superClass _ typeRef => some typeRef
  | superCall _ typeRef _ => typeRef
  | thisCall .. => none

/-- The expressions that the entry holds. -/
def expressions : DelegationSpecifier → List Expr
  | byExpression _ _ delegate => delegate.toList
  | superCall _ _ arguments | thisCall _ arguments => arguments
  | superClass .. => []

end DelegationSpecifier

/-- What a namespace declaration says beside its members. -/
structure NamespaceHead where
  id : Nat := 0
  name : Option String := none
  imports : List ImportDirective := []
deriving Repr, Inhabited

/-- What a class declaration says beside its members. A class without any
primary parameter list has no primary constructor; one with an empty list has. -/
structure ClassHead where
  id : Nat := 0
  name : Option String := none
  primaryConstructor : Option (List Parameter) := none
  delegationSpecifiers : List DelegationSpecifier := []
deriving Repr, Inhabited

/-- A function declaration. -/
structure FunctionDecl where
  id : Nat := 0
  name : String
  parameters : List Parameter := []
  returnType : Option TypeRef := none
  body : Option Expr := none
deriving Repr, Inhabited

/-- A getter or a setter. The parameter is that of a setter and has no meaning
on a getter. -/
structure Accessor where
  id : Nat := 0
  parameter : Option Parameter := none
  returnType : Option TypeRef := none
  body : Option Expr := none
deriving Repr, Inhabited

/-- A property declaration. -/
structure PropertyDecl where
  id : Nat := 0
  name : String
  mutable : Bool := false
  typeRef : Option TypeRef := none
  initializer : Option Expr := none
  getter : Option Accessor := none
  setter : Option Accessor := none
deriving Repr, Inhabited

/-- A secondary constructor. -/
structure ConstructorDecl where
  id : Nat := 0
  parameters : List Parameter := []
  initializers : List DelegationSpecifier := []
  body : Option Expr := none
deriving Repr, Inhabited

/-- A declaration. -/
inductive Declaration where
  | namespaceDecl (head : NamespaceHead) (members : List Declaration)
  | classDecl (head : ClassHead) (members : List Declaration)
  | typedefDecl (id : Nat) (name : Option String)
  | extensionDecl (id : Nat) (name : Option String)
  | functionDecl (decl : FunctionDecl)
  | propertyDecl (decl : PropertyDecl)
  | constructorDecl (decl : ConstructorDecl)
  | classObject (id : Nat) (members : List Declaration)
deriving Repr, Inhabited

namespace Declaration

/-- The number of the node. -/
def id : Declaration → Nat
  | namespaceDecl head _ => head.id
  | classDecl head _ => head.id
  | typedefDecl id _ | extensionDecl id _ | classObject id _ => id
  | functionDecl decl => decl.id
  | propertyDecl decl => decl.id
  | constructorDecl decl => decl.id

/-- The members of a declaration that has any. -/
def members : Declaration → List Declaration
  | namespaceDecl _ members | classDecl _ members | classObject _ members => members
  | _ => []

mutual

/-- The declaration and all declarations inside it, every one before those
inside it. -/
def nested : Declaration → List Declaration
  | d@(namespaceDecl _ members) | d@(classDecl _ members) | d@(classObject _ members) =>
    d :: nestedIn members
  | d@(typedefDecl ..) | d@(extensionDecl ..) | d@(functionDecl ..) | d@(propertyDecl ..)
  | d@(constructorDecl ..) => [d]

/-- The declarations in a list, with all inside them. -/
def nestedIn : List Declaration → List Declaration
  | [] => []
  | d :: rest => d.nested ++ nestedIn rest

end

end Declaration

end DeclAnalysis
