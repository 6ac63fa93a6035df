import DeclAnalysis.Tree.Declaration
import DeclAnalysis.Decimal.Shortest

/-!
# Labels

A label describes a node to a reader of diagnostics, for example as a function
of a certain name. The labels of a tree are listed in the order in which its
nodes are numbered, so the label of node `n` is the `n`-th in the list of the
whole file.
-/

namespace DeclAnalysis

namespace Label

/-- The name that stands for a missing one in a label. -/
def anonymous : String := "<anonymous>"

/-- A description followed by a name between grave accents. -/
def named (what name : String) : String := what ++ " \x60" ++ name ++ "\x60"

end Label

open Label

namespace TypeRef

/-- The label of a type reference. -/
def label (t : TypeRef) : String := named "type reference" t.name

end TypeRef

/-- The labels of an optional type reference. -/
def typeRefLabels (t : Option TypeRef) : List String := t.toList.map TypeRef.label

namespace Parameter

/-- The labels of a parameter. -/
def labels (p : Parameter) : List String :=
  named "parameter" p.name :: typeRefLabels p.typeRef

end Parameter

/-- The labels of a list of parameters. -/
def parameterLabels (ps : List Parameter) : List String := ps.flatMap Parameter.labels

namespace Literal

/-- The label of a constant. A text stands between plain quotes, all other
constants between grave accents. -/
def label : Literal → String
  | int n => named "constant" (toString n)
  | double d => named "constant" d.text
  | string s => "constant \"" ++ s ++ "\""
  | bool b => named "constant" (if b then "true" else "false")

end Literal

namespace Expr

/-- The label of the node of an expression. -/
def label : Expr → String
  | constant _ value => value.label
  | name _ text => named "name" text
  | dot _ _ text => named "member access" ("." ++ text)
  | block .. => "block"
  | cond .. => "if expression"
  | whileLoop .. => "while loop"
  | doWhileLoop .. => "do-while loop"
  | breakLoop .. => "break"
  | continueLoop .. => "continue"
  | ret .. => "return"
  | binary _ operator _ _ => "\x60" ++ operator.symbol ++ "\x60 expression"
  | assign .. => "assignment"
  | call _ callee _ => named "call to" callee
  | localVariable _ text _ _ _ => named "local variable" text
  | lambda .. => "lambda"

mutual

/-- The labels of an expression. -/
def labels : Expr → List String
  | e@(constant ..) | e@(name ..) | e@(breakLoop ..) | e@(continueLoop ..)
  | e@(ret _ none) => [e.label]
  | e@(dot _ receiver _) => e.label :: receiver.labels
  | e@(block _ statements) => e.label :: labelsOf statements
  | e@(cond _ condition thenBranch none) =>
    e.label :: (condition.labels ++ thenBranch.labels)
  | e@(cond _ condition thenBranch (some elseBranch)) =>
    e.label :: (condition.labels ++ thenBranch.labels ++ elseBranch.labels)
  | e@(whileLoop _ condition body) => e.label :: (condition.labels ++ body.labels)
  | e@(doWhileLoop _ body condition) => e.label :: (body.labels ++ condition.labels)
  | e@(ret _ (some value)) => e.label :: value.labels
  | e@(binary _ _ left right) => e.label :: (left.labels ++ right.labels)
  | e@(assign _ target value) => e.label :: (target.labels ++ value.labels)
  | e@(call _ _ arguments) => e.label :: labelsOf arguments
  | e@(localVariable _ _ _ typeRef none) => e.label :: typeRefLabels typeRef
  | e@(localVariable _ _ _ typeRef (some initializer)) =>
    e.label :: (typeRefLabels typeRef ++ initializer.labels)
  | e@(lambda _ parameters body) => e.label :: (parameterLabels parameters ++ body.labels)

/-- The labels of a list of expressions. -/
def labelsOf : List Expr → List String
  | [] => []
  | e :: rest => e.labels ++ labelsOf rest

end

/-- The labels of an optional expression. -/
def optionalLabels (e : Option Expr) : List String := labelsOf e.toList

end Expr

namespace ImportDirective

/-- The labels of an import directive. -/
def labels (i : ImportDirective) : List String :=
  "import directive" :: Expr.optionalLabels i.imported

end ImportDirective

namespace DelegationSpecifier

/-- The labels of a delegation specifier. -/
def labels : DelegationSpecifier → List String
  | byExpression _ typeRef delegate =>
    named "delegation to" typeRef.name :: typeRef.label :: Expr.optionalLabels delegate
  | superCall _ typeRef arguments =>
    "supertype constructor call" :: (typeRefLabels typeRef ++ Expr.labelsOf arguments)
  | superClass _ typeRef => [named "supertype" typeRef.name, typeRef.label]
  | thisCall _ arguments => "this call" :: Expr.labelsOf arguments

end DelegationSpecifier

namespace NamespaceHead

/-- The labels of a namespace declaration without its members. -/
def labels (h : NamespaceHead) : List String :=
  named "namespace" (h.name.getD anonymous) :: h.imports.flatMap ImportDirective.labels

end NamespaceHead

namespace ClassHead

/-- The labels of a class declaration without its members. -/
def labels (h : ClassHead) : List String :=
  named "class" (h.name.getD anonymous) ::
    (parameterLabels (h.primaryConstructor.getD [])
      ++ h.delegationSpecifiers.flatMap DelegationSpecifier.labels)

end ClassHead

namespace FunctionDecl

/-- The labels of a function declaration. -/
def labels (f : FunctionDecl) : List String :=
  named "function" f.name ::
    (parameterLabels f.parameters ++ typeRefLabels f.returnType ++ Expr.optionalLabels f.body)

end FunctionDecl

namespace Accessor

/-- The labels of an accessor that describes itself by `text`. -/
def labels (text : String) (a : Accessor) : List String :=
  text :: (parameterLabels a.parameter.toList ++ typeRefLabels a.returnType
    ++ Expr.optionalLabels a.body)

end Accessor

namespace PropertyDecl

/-- The labels of a property declaration. -/
def labels (p : PropertyDecl) : List String :=
  named "property" p.name ::
    (typeRefLabels p.typeRef ++ Expr.optionalLabels p.initializer
      ++ p.getter.toList.flatMap (Accessor.labels (named "getter of" p.name))
      ++ p.setter.toList.flatMap (Accessor.labels (named "setter of" p.name)))

end PropertyDecl

namespace ConstructorDecl

/-- The labels of a constructor declaration. -/
def labels (c : ConstructorDecl) : List String :=
  "constructor" ::
    (parameterLabels c.parameters ++ c.initializers.flatMap DelegationSpecifier.labels
      ++ Expr.optionalLabels c.body)

end ConstructorDecl

namespace Declaration

mutual

/-- The labels of a declaration. -/
def labels : Declaration → List String
  | namespaceDecl head members => head.labels ++ labelsOf members
  | classDecl head members => head.labels ++ labelsOf members
  | typedefDecl _ name => [named "typedef" (name.getD anonymous)]
  | extensionDecl _ name => [named "extension" (name.getD anonymous)]
  | functionDecl decl => decl.labels
  | propertyDecl decl => decl.labels
  | constructorDecl decl => decl.labels
  | classObject _ members => "class object" :: labelsOf members

/-- The labels of a list of declarations. -/
def labelsOf : List Declaration → List String
  | [] => []
  | d :: rest => d.labels ++ labelsOf rest

end

end Declaration

end DeclAnalysis
