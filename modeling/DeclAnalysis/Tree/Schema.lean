import DeclAnalysis.Tree.SourceFile

/-!
# The interchange format of trees

The format is a table: for every kind of node the fields that it has, in order,
with the shape of each and with what stands for it when it is left out. Numbers
of nodes are no part of the format.

The values that the fields of a node hold form a tuple whose type follows from
the table, and each entry of the table says how the node is built from it.
-/

namespace DeclAnalysis

namespace Schema

/-- What a field is about. -/
inductive Item where
  | bool
  | text
  | literal
  | operator
  | typeRef
  | parameter
  | accessor
  | importDirective
  | specifier
  | expr
  | declaration
  /-- A declaration that stands directly in a file. -/
  | topDeclaration
deriving DecidableEq, Repr

/-- The type of the values of an item. -/
abbrev Item.Value : Item → Type
  | bool => Bool
  | text => String
  | literal => Literal
  | operator => BinaryOperator
  | typeRef => TypeRef
  | parameter => Parameter
  | accessor => Accessor
  | importDirective => ImportDirective
  | specifier => DelegationSpecifier
  | expr => Expr
  | declaration => Declaration
  | topDeclaration => Declaration

/-- How many items a field holds. -/
inductive Arity where
  | one
  | optional
  | many
  | optionalMany
deriving DecidableEq, Repr

/-- The type of as many values as an arity says. -/
abbrev Arity.Of (α : Type) : Arity → Type
  | one => α
  | optional => Option α
  | many => List α
  | optionalMany => Option (List α)

/-- A field of a node. -/
structure Field where
  name : String
  arity : Arity
  item : Item
  /-- What stands for the field when it is left out; a field without it must be
  there. -/
  absent : Option (arity.Of item.Value)

namespace Field

/-- The type of the values of a field. -/
abbrev Value (f : Field) : Type := f.arity.Of f.item.Value

/-- A field that must be there. -/
abbrev required (name : String) (item : Item) : Field := ⟨name, .one, item, none⟩

/-- A truth value, false when left out. -/
abbrev flag (name : String) : Field := ⟨name, .one, .bool, some false⟩

/-- A field that may be left out or null. -/
abbrev optional (name : String) (item : Item) : Field := ⟨name, .optional, item, some none⟩

/-- A list, empty when left out. -/
abbrev many (name : String) (item : Item) : Field := ⟨name, .many, item, some []⟩

/-- A list that may be left out or null. -/
abbrev optionalMany (name : String) (item : Item) : Field :=
  ⟨name, .optionalMany, item, some none⟩

end Field

/-- The values of a list of fields. -/
abbrev Values : List Field → Type
  | [] => Unit
  | f :: rest => f.Value × Values rest

/-- A kind of node: its tag, if nodes of several kinds may stand in one place,
what a message calls it, its fields and the node that they make. -/
structure Variant (α : Type) where
  tag : String := ""
  title : String
  fields : List Field
  build : Values fields → α

/-- The format of a type reference. -/
def typeRef : Variant TypeRef where
  title := "struct TypeRef"
  fields := [.required "name" .text]
  build := fun (name, _) => { name }

/-- The format of a parameter. -/
def parameter : Variant Parameter where
  title := "struct Parameter"
  fields := [.required "name" .text, .optional "type_ref" .typeRef, .flag "mutable"]
  build := fun (name, typeRef, mutable, _) => { name, typeRef, mutable }

/-- The format of an accessor. -/
def accessor : Variant Accessor where
  title := "struct Accessor"
  fields :=
    [.optional "parameter" .parameter, .optional "return_type" .typeRef, .optional "body" .expr]
  build := fun (parameter, returnType, body, _) => { parameter, returnType, body }

/-- The format of an import directive. -/
def importDirective : Variant ImportDirective where
  title := "struct ImportDirective"
  fields := [.optional "imported" .expr, .flag "all_under", .flag "absolute_in_root"]
  build := fun (imported, allUnder, absoluteInRoot, _) => { imported, allUnder, absoluteInRoot }

/-- The formats of delegation specifiers. -/
def specifiers : List (Variant DelegationSpecifier) :=
  [ { tag := "by_expression"
      title := "struct variant DelegationSpecifier::ByExpression"
      fields := [.required "type_ref" .typeRef, .optional "delegate" .expr]
      build := fun (typeRef, delegate, _) => .byExpression 0 typeRef delegate },
    { tag := "super_call"
      title := "struct variant DelegationSpecifier::SuperCall"
      fields := [.optional "type_ref" .typeRef, .many "arguments" .expr]
      build := fun (typeRef, arguments, _) => .superCall 0 typeRef arguments },
    { tag := "super_class"
      title := "struct variant DelegationSpecifier::SuperClass"
      fields := [.required "type_ref" .typeRef]
      build := fun (typeRef, _) => .superClass 0 typeRef },
    { tag := "this_call"
      title := "struct variant DelegationSpecifier::ThisCall"
      fields := [.many "arguments" .expr]
      build := fun (arguments, _) => .thisCall 0 arguments } ]

/-- The formats of expressions. -/
def exprs : List (Variant Expr) :=
  [ { tag := "constant"
      title := "struct variant ExpressionKind::Constant"
      fields := [.required "value" .literal]
      build := fun (value, _) => .constant 0 value },
    { tag := "name"
      title := "struct variant ExpressionKind::Name"
      fields := [.required "name" .text]
      build := fun (name, _) => .name 0 name },
    { tag := "dot"
      title := "struct variant ExpressionKind::Dot"
      fields := [.required "receiver" .expr, .required "name" .text]
      build := fun (receiver, name, _) => .dot 0 receiver name },
    { tag := "block"
      title := "struct variant ExpressionKind::Block"
      fields := [.many "statements" .expr]
      build := fun (statements, _) => .block 0 statements },
    { tag := "if"
      title := "struct variant ExpressionKind::If"
      fields :=
        [.required "condition" .expr, .required "then_branch" .expr,
          .optional "else_branch" .expr]
      build := fun (condition, thenBranch, elseBranch, _) =>
        .cond 0 condition thenBranch elseBranch },
    { tag := "while"
      title := "struct variant ExpressionKind::While"
      fields := [.required "condition" .expr, .required "body" .expr]
      build := fun (condition, body, _) => .whileLoop 0 condition body },
    { tag := "do_while"
      title := "struct variant ExpressionKind::DoWhile"
      fields := [.required "body" .expr, .required "condition" .expr]
      build := fun (body, condition, _) => .doWhileLoop 0 body condition },
    { tag := "break"
      title := "unit variant ExpressionKind::Break"
      fields := []
      build := fun _ => .breakLoop 0 },
    { tag := "continue"
      title := "unit variant ExpressionKind::Continue"
      fields := []
      build := fun _ => .continueLoop 0 },
    { tag := "return"
      title := "struct variant ExpressionKind::Return"
      fields := [.optional "value" .expr]
      build := fun (value, _) => .ret 0 value },
    { tag := "binary"
      title := "struct variant ExpressionKind::Binary"
      fields := [.required "operator" .operator, .required "left" .expr, .required "right" .expr]
      build := fun (operator, left, right, _) => .binary 0 operator left right },
    { tag := "assign"
      title := "struct variant ExpressionKind::Assign"
      fields := [.required "target" .expr, .required "value" .expr]
      build := fun (target, value, _) => .assign 0 target value },
    { tag := "call"
      title := "struct variant ExpressionKind::Call"
      fields := [.required "callee" .text, .many "arguments" .expr]
      build := fun (callee, arguments, _) => .call 0 callee arguments },
    { tag := "local_variable"
      title := "struct variant ExpressionKind::LocalVariable"
      fields :=
        [.required "name" .text, .flag "mutable", .optional "type_ref" .typeRef,
          .optional "initializer" .expr]
      build := fun (name, mutable, typeRef, initializer, _) =>
        .localVariable 0 name mutable typeRef initializer },
    { tag := "lambda"
      title := "struct variant ExpressionKind::Lambda"
      fields := [.many "parameters" .parameter, .required "body" .expr]
      build := fun (parameters, body, _) => .lambda 0 parameters body } ]

/-- The formats of declarations. -/
def declarations : List (Variant Declaration) :=
  [ { tag := "namespace"
      title := "struct NamespaceDecl"
      fields :=
        [.optional "name" .text, .many "imports" .importDirective,
          .many "declarations" .declaration]
      build := fun (name, imports, members, _) => .namespaceDecl { name, imports } members },
    { tag := "class"
      title := "struct ClassDecl"
      fields :=
        [.optional "name" .text, .optionalMany "primary_constructor" .parameter,
          .many "delegation_specifiers" .specifier, .many "declarations" .declaration]
      build := fun (name, primaryConstructor, delegationSpecifiers, members, _) =>
        .classDecl { name, primaryConstructor, delegationSpecifiers } members },
    { tag := "typedef"
      title := "struct TypedefDecl"
      fields := [.optional "name" .text]
      build := fun (name, _) => .typedefDecl 0 name },
    { tag := "extension"
      title := "struct ExtensionDecl"
      fields := [.optional "name" .text]
      build := fun (name, _) => .extensionDecl 0 name },
    { tag := "function"
      title := "struct FunctionDecl"
      fields :=
        [.required "name" .text, .many "parameters" .parameter,
          .optional "return_type" .typeRef, .optional "body" .expr]
      build := fun (name, parameters, returnType, body, _) =>
        .functionDecl { name, parameters, returnType, body } },
    { tag := "property"
      title := "struct PropertyDecl"
      fields :=
        [.required "name" .text, .flag "mutable", .optional "type_ref" .typeRef,
          .optional "initializer" .expr, .optional "getter" .accessor,
          .optional "setter" .accessor]
      build := fun (name, mutable, typeRef, initializer, getter, setter, _) =>
        .propertyDecl { name, mutable, typeRef, initializer, getter, setter } },
    { tag := "constructor"
      title := "struct ConstructorDecl"
      fields :=
        [.many "parameters" .parameter, .many "initializers" .specifier,
          .optional "body" .expr]
      build := fun (parameters, initializers, body, _) =>
        .constructorDecl { parameters, initializers, body } },
    { tag := "class_object"
      title := "struct ClassObjectDecl"
      fields := [.many "declarations" .declaration]
      build := fun (members, _) => .classObject 0 members } ]

/-- The format of a file: a name and declarations. -/
def file : Variant (String × List Declaration) where
  title := "struct SourceFile"
  fields := [⟨"name", .one, .text, some ""⟩, .many "declarations" .topDeclaration]
  build := fun (name, declarations, _) => (name, declarations)

/-- The field that holds the tag of a node. -/
def tagField : String := "kind"

/-- The tags of operators. -/
def operators : List (String × BinaryOperator) :=
  [("plus", .plus), ("minus", .minus), ("times", .times), ("div", .div), ("rem", .rem),
    ("lt", .lt), ("gt", .gt), ("lt_eq", .ltEq), ("gt_eq", .gtEq), ("eq", .eq),
    ("not_eq", .notEq), ("and", .and), ("or", .or)]

/-- The tags of literals. -/
def literals : List String := ["int", "double", "string", "bool"]

end Schema

end DeclAnalysis
