import DeclAnalysis.Typing.Infer
import DeclAnalysis.Proofs.Tree.Contents

/-!
# References to backing fields

A name of the form `$name` refers to the backing field of a property where it is typed: not inside
a lambda, and not in the target of an assignment that is neither a name nor a member access. All
other nodes that typing takes notice of are different ones.
-/

namespace DeclAnalysis

/-- A reference to a backing field: the node of a name and the name of the property. -/
structure FieldAccess where
  node : Nat
  property : String
deriving DecidableEq, Repr

/-- How the name of a backing field is written. -/
theorem Analysis.eq_append_of_fieldName?
    {text property : String} (h : fieldName? text = some property) : text = "$" ++ property := by
  unfold fieldName? at h
  split at h
  · rename_i rest hlist
    obtain rfl := Option.some.inj h
    apply String.toList_inj.mp
    simp [hlist]
  · cases h

namespace Expr

open Analysis (fieldName? isAssignable)

mutual

/-- The references to backing fields that are typed, in the order of typing. -/
def fieldAccesses : Expr → List FieldAccess
  | constant .. | breakLoop _ | continueLoop _ | ret _ none | localVariable _ _ _ _ none
  | lambda .. => []
  | name node text => (fieldName? text).toList.map fun property => ⟨node, property⟩
  | dot _ receiver _ => receiver.fieldAccesses
  | block _ statements => fieldAccessesOf statements
  | cond _ condition thenBranch none => condition.fieldAccesses ++ thenBranch.fieldAccesses
  | cond _ condition thenBranch (some elseBranch) =>
    condition.fieldAccesses ++ (thenBranch.fieldAccesses ++ elseBranch.fieldAccesses)
  | whileLoop _ condition body => condition.fieldAccesses ++ body.fieldAccesses
  | doWhileLoop _ body condition => body.fieldAccesses ++ condition.fieldAccesses
  | ret _ (some value) => value.fieldAccesses
  | binary _ _ left right => left.fieldAccesses ++ right.fieldAccesses
  | assign _ target value =>
    (if isAssignable target then target.fieldAccesses else []) ++ value.fieldAccesses
  | call _ _ arguments => fieldAccessesOf arguments
  | localVariable _ _ _ _ (some initializer) => initializer.fieldAccesses

/-- The references to backing fields in several expressions. -/
def fieldAccessesOf : List Expr → List FieldAccess
  | [] => []
  | e :: rest => e.fieldAccesses ++ fieldAccessesOf rest

end

mutual

/-- The nodes that typing takes notice of, apart from the names of backing fields. -/
def plainNodes : Expr → List Nat
  | constant node _ | breakLoop node | continueLoop node | ret node none | lambda node .. => [node]
  | name node text => if (fieldName? text).isSome then [] else [node]
  | dot node receiver _ => node :: receiver.plainNodes
  | block node statements => node :: plainNodesOf statements
  | cond node condition thenBranch none => node :: (condition.plainNodes ++ thenBranch.plainNodes)
  | cond node condition thenBranch (some elseBranch) =>
    node :: (condition.plainNodes ++ (thenBranch.plainNodes ++ elseBranch.plainNodes))
  | whileLoop node condition body => node :: (condition.plainNodes ++ body.plainNodes)
  | doWhileLoop node body condition => node :: (body.plainNodes ++ condition.plainNodes)
  | ret node (some value) => node :: value.plainNodes
  | binary node _ left right => node :: (left.plainNodes ++ right.plainNodes)
  | assign node target value =>
    node :: ((if isAssignable target then target.plainNodes else []) ++ value.plainNodes)
  | call node _ arguments => node :: plainNodesOf arguments
  | localVariable node _ _ typeRef none => node :: typeRefNodes typeRef
  | localVariable node _ _ typeRef (some initializer) =>
    node :: (typeRefNodes typeRef ++ initializer.plainNodes)

/-- The nodes in several expressions that typing takes notice of, apart from the names of backing
fields. -/
def plainNodesOf : List Expr → List Nat
  | [] => []
  | e :: rest => e.plainNodes ++ plainNodesOf rest

end

mutual

/-- No node is both the name of a backing field and another one. -/
theorem count_typed_le (node : Nat) (e : Expr) :
    (e.fieldAccesses.map FieldAccess.node).count node + e.plainNodes.count node ≤
      e.nodes.count node := by
  match e with
  | constant .. | breakLoop _ | continueLoop _ | ret _ none =>
      simp [fieldAccesses, plainNodes, nodes]
  | lambda .. =>
      simp only [fieldAccesses, plainNodes, nodes, List.map_nil, List.count_nil, List.count_cons]
      omega
  | name id text =>
      cases h : fieldName? text with
      | none => simp [fieldAccesses, plainNodes, nodes, h]
      | some property => simp [fieldAccesses, plainNodes, nodes, h]
  | dot _ inner _ | ret _ (some inner) =>
      have hinner := count_typed_le node inner
      simp only [fieldAccesses, plainNodes, nodes, List.count_cons]
      omega
  | block _ es | call _ _ es =>
      have hes := count_typedOf_le node es
      simp only [fieldAccesses, plainNodes, nodes, List.count_cons]
      omega
  | cond _ first second none | whileLoop _ first second | doWhileLoop _ first second
  | binary _ _ first second =>
      have hfirst := count_typed_le node first
      have hsecond := count_typed_le node second
      simp only [fieldAccesses, plainNodes, nodes, List.map_append, List.count_append,
        List.count_cons]
      omega
  | cond _ condition thenBranch (some elseBranch) =>
      have hcondition := count_typed_le node condition
      have hthen := count_typed_le node thenBranch
      have helse := count_typed_le node elseBranch
      simp only [fieldAccesses, plainNodes, nodes, List.map_append, List.count_append,
        List.count_cons]
      omega
  | assign _ target value =>
      have htarget := count_typed_le node target
      have hvalue := count_typed_le node value
      simp only [fieldAccesses, plainNodes, nodes, List.map_append, List.count_append,
        List.count_cons]
      split
      · omega
      · simp only [List.map_nil, List.count_nil]
        omega
  | localVariable _ _ _ typeRef none =>
      simp [fieldAccesses, plainNodes, nodes]
  | localVariable _ _ _ typeRef (some initializer) =>
      have hinitializer := count_typed_le node initializer
      simp only [fieldAccesses, plainNodes, nodes, List.count_append, List.count_cons]
      omega

theorem count_typedOf_le (node : Nat) (es : List Expr) :
    ((fieldAccessesOf es).map FieldAccess.node).count node + (plainNodesOf es).count node ≤
      (nodesOf es).count node := by
  match es with
  | [] => simp [fieldAccessesOf, plainNodesOf, nodesOf]
  | e :: rest =>
      have he := count_typed_le node e
      have hrest := count_typedOf_le node rest
      simp only [fieldAccessesOf, plainNodesOf, nodesOf, List.map_append, List.count_append]
      omega

end

/-- The references to backing fields in an optional expression. -/
def optionalAccesses : Option Expr → List FieldAccess
  | none => []
  | some e => e.fieldAccesses

/-- The nodes in an optional expression that typing takes notice of, apart from the names of
backing fields. -/
def optionalPlainNodes : Option Expr → List Nat
  | none => []
  | some e => e.plainNodes

theorem count_optional_le (node : Nat) (e : Option Expr) :
    ((optionalAccesses e).map FieldAccess.node).count node + (optionalPlainNodes e).count node ≤
      (optionalNodes e).count node := by
  cases e with
  | none => exact Nat.le_refl _
  | some e => exact count_typed_le node e

end Expr

/-- What is counted in the parts of several things is counted in all of them. -/
theorem count_flatMap_add_le
    {α β κ : Type} [BEq κ] (key : β → κ) (k : κ) {f : α → List β} {g h : α → List Nat}
    (node : Nat) (xs : List α)
    (hle : ∀ x, ((f x).map key).count k + (g x).count node ≤ (h x).count node) :
    ((xs.flatMap f).map key).count k + (xs.flatMap g).count node ≤ (xs.flatMap h).count node := by
  induction xs with
  | nil => exact Nat.le_refl _
  | cons x rest ih =>
      have hx := hle x
      simp only [List.flatMap_cons, List.map_append, List.count_append]
      omega

namespace DelegationSpecifier

/-- The nodes in an entry that typing takes notice of, apart from the names of backing fields. -/
def plainNodes (specifier : DelegationSpecifier) : List Nat :=
  typeRefNodes specifier.typeRef? ++ Expr.plainNodesOf specifier.expressions

theorem count_expressions_le (node : Nat) (specifier : DelegationSpecifier) :
    ((Expr.fieldAccessesOf specifier.expressions).map FieldAccess.node).count node +
      specifier.plainNodes.count node ≤ specifier.nodes.count node := by
  have hexpressions := Expr.count_typedOf_le node specifier.expressions
  unfold plainNodes
  cases specifier with
  | byExpression id ref delegate =>
      cases delegate with
      | none =>
          simp [expressions, typeRef?, nodes, typeRefNodes, Expr.fieldAccessesOf,
            Expr.plainNodesOf, Expr.optionalNodes, List.count_cons]
      | some delegate =>
          simp only [expressions, Option.toList_some, Expr.nodesOf, List.append_nil]
            at hexpressions
          simp only [expressions, typeRef?, nodes, typeRefNodes, Expr.optionalNodes,
            Option.toList_some, List.map_cons, List.map_nil, List.count_append, List.count_cons,
            List.count_nil]
          omega
  | superCall id ref arguments =>
      simp only [expressions] at hexpressions
      simp only [expressions, typeRef?, nodes, List.count_append, List.count_cons]
      omega
  | superClass id ref =>
      simp [expressions, typeRef?, nodes, typeRefNodes, Expr.fieldAccessesOf,
        Expr.plainNodesOf, List.count_cons]
  | thisCall id arguments =>
      simp only [expressions] at hexpressions
      simp only [expressions, typeRef?, nodes, typeRefNodes, Option.toList_none, List.map_nil,
        List.nil_append, List.count_cons]
      omega

/-- The references in an entry of the delegation list of a class. A call is typed where it names
a type. -/
def classAccesses : DelegationSpecifier → List FieldAccess
  | byExpression _ _ delegate => Expr.optionalAccesses delegate
  | superCall _ (some _) arguments => Expr.fieldAccessesOf arguments
  | superCall _ none _ | superClass .. | thisCall .. => []

/-- The references in an entry of the delegation list of a secondary constructor. Only calls are
typed. -/
def constructorAccesses : DelegationSpecifier → List FieldAccess
  | superCall _ (some _) arguments | thisCall _ arguments => Expr.fieldAccessesOf arguments
  | superCall _ none _ | superClass .. | byExpression .. => []

theorem classAccesses_sublist (specifier : DelegationSpecifier) :
    specifier.classAccesses.Sublist (Expr.fieldAccessesOf specifier.expressions) := by
  match specifier with
  | byExpression _ _ none => exact List.nil_sublist _
  | byExpression _ _ (some delegate) =>
      change delegate.fieldAccesses.Sublist (delegate.fieldAccesses ++ [])
      rw [List.append_nil]
  | superCall _ (some _) arguments => exact List.Sublist.refl _
  | superCall _ none _ | superClass .. | thisCall .. => exact List.nil_sublist _

theorem constructorAccesses_sublist (specifier : DelegationSpecifier) :
    specifier.constructorAccesses.Sublist (Expr.fieldAccessesOf specifier.expressions) := by
  match specifier with
  | superCall _ (some _) arguments | thisCall _ arguments => exact List.Sublist.refl _
  | superCall _ none _ | superClass .. | byExpression .. => exact List.nil_sublist _

/-- No node is both the name of a backing field and another one. -/
theorem count_typed_le
    {accesses : DelegationSpecifier → List FieldAccess}
    (h : ∀ specifier, (accesses specifier).Sublist (Expr.fieldAccessesOf specifier.expressions))
    (node : Nat) (specifier : DelegationSpecifier) :
    ((accesses specifier).map FieldAccess.node).count node + specifier.plainNodes.count node ≤
      specifier.nodes.count node := by
  have hexpressions := specifier.count_expressions_le node
  have hle := ((h specifier).map FieldAccess.node).count_le node
  omega

end DelegationSpecifier

/-! ## Declarations -/

namespace Accessor

/-- The references to backing fields in the body of an accessor. -/
def fieldAccesses (a : Accessor) : List FieldAccess := Expr.optionalAccesses a.body

/-- The nodes of the signature of an accessor. -/
def signatureNodes (a : Accessor) : List Nat :=
  a.id :: (parameterNodes a.parameter.toList ++ typeRefNodes a.returnType)

theorem nodes_eq (a : Accessor) : a.nodes = a.signatureNodes ++ Expr.optionalNodes a.body := rfl

end Accessor

namespace PropertyDecl

/-- The references to backing fields in the accessors of a property. -/
def accessorAccesses (decl : PropertyDecl) : List FieldAccess :=
  decl.getter.toList.flatMap Accessor.fieldAccesses ++
    decl.setter.toList.flatMap Accessor.fieldAccesses

end PropertyDecl

/-- The references to backing fields in a secondary constructor that are typed. -/
def ConstructorDecl.fieldAccesses (decl : ConstructorDecl) : List FieldAccess :=
  decl.initializers.flatMap DelegationSpecifier.constructorAccesses ++
    Expr.optionalAccesses decl.body

/-- The references to backing fields in the delegation list of a class that are typed. -/
def ClassHead.fieldAccesses (head : ClassHead) : List FieldAccess :=
  head.delegationSpecifiers.flatMap DelegationSpecifier.classAccesses

namespace Declaration

/-- The references to backing fields in a declaration without its members. Those in imports are
left out, for imports take effect before there are properties. -/
def fieldAccesses : Declaration → List FieldAccess
  | classDecl head _ => head.fieldAccesses
  | functionDecl decl => Expr.optionalAccesses decl.body
  | propertyDecl decl => Expr.optionalAccesses decl.initializer ++ decl.accessorAccesses
  | constructorDecl decl => decl.fieldAccesses
  | _ => []

/-- The nodes of a declaration without its members that the typing of bodies takes notice of, apart
from the names of backing fields. -/
def plainNodes : Declaration → List Nat
  | classDecl head _ => head.delegationSpecifiers.flatMap DelegationSpecifier.plainNodes
  | functionDecl decl => Expr.optionalPlainNodes decl.body
  | propertyDecl decl =>
    Expr.optionalPlainNodes decl.initializer ++
      (decl.getter.toList ++ decl.setter.toList).flatMap fun a => Expr.optionalPlainNodes a.body
  | constructorDecl decl =>
    decl.initializers.flatMap DelegationSpecifier.plainNodes ++ Expr.optionalPlainNodes decl.body
  | _ => []

/-- The nodes of a declaration without its members that belong to its signature. -/
def signatureNodes : Declaration → List Nat
  | namespaceDecl head _ => head.nodes
  | classDecl head _ => head.id :: parameterNodes (head.primaryConstructor.getD [])
  | functionDecl decl => decl.id :: (parameterNodes decl.parameters ++ typeRefNodes decl.returnType)
  | propertyDecl decl =>
    decl.id :: (typeRefNodes decl.typeRef ++
      (decl.getter.toList ++ decl.setter.toList).flatMap Accessor.signatureNodes)
  | constructorDecl decl => decl.id :: parameterNodes decl.parameters
  | classObject id _ | typedefDecl id _ | extensionDecl id _ => [id]

/-- Each node of a declaration is the name of a backing field, another node of a body, or a node of
the signature, and only one of these. -/
theorem count_parts_le (node : Nat) (d : Declaration) :
    (d.fieldAccesses.map FieldAccess.node).count node +
      (d.plainNodes.count node + d.signatureNodes.count node) ≤ d.ownNodes.count node := by
  cases d with
  | namespaceDecl head _ =>
      simp [fieldAccesses, plainNodes, signatureNodes, ownNodes]
  | classDecl head _ =>
      have hlist := count_flatMap_add_le FieldAccess.node node node head.delegationSpecifiers
        (DelegationSpecifier.count_typed_le DelegationSpecifier.classAccesses_sublist node)
      simp only [fieldAccesses, ClassHead.fieldAccesses, plainNodes, signatureNodes, ownNodes,
        ClassHead.nodes, List.count_append, List.count_cons]
      omega
  | typedefDecl id _ => simp [fieldAccesses, plainNodes, signatureNodes, ownNodes]
  | extensionDecl id _ => simp [fieldAccesses, plainNodes, signatureNodes, ownNodes]
  | classObject id _ => simp [fieldAccesses, plainNodes, signatureNodes, ownNodes]
  | functionDecl decl =>
      have hbody := Expr.count_optional_le node decl.body
      simp only [fieldAccesses, plainNodes, signatureNodes, ownNodes, FunctionDecl.nodes,
        List.count_append, List.count_cons]
      omega
  | constructorDecl decl =>
      have hlist := count_flatMap_add_le FieldAccess.node node node decl.initializers
        (DelegationSpecifier.count_typed_le DelegationSpecifier.constructorAccesses_sublist node)
      have hbody := Expr.count_optional_le node decl.body
      simp only [fieldAccesses, ConstructorDecl.fieldAccesses, plainNodes, signatureNodes,
        ownNodes, ConstructorDecl.nodes, List.map_append, List.count_append, List.count_cons]
      omega
  | propertyDecl decl =>
      have hinitializer := Expr.count_optional_le node decl.initializer
      have haccessor : ∀ accessor : Option Accessor,
          ((accessor.toList.flatMap Accessor.fieldAccesses).map FieldAccess.node).count node +
            ((accessor.toList.flatMap fun a => Expr.optionalPlainNodes a.body).count node +
              (accessor.toList.flatMap Accessor.signatureNodes).count node) ≤
            (accessor.toList.flatMap Accessor.nodes).count node := by
        intro accessor
        cases accessor with
        | none => exact Nat.le_refl _
        | some a =>
            have hbody := Expr.count_optional_le node a.body
            simp only [Option.toList_some, List.flatMap_cons, List.flatMap_nil, List.append_nil,
              Accessor.fieldAccesses, Accessor.nodes_eq, List.count_append]
            omega
      have hgetter := haccessor decl.getter
      have hsetter := haccessor decl.setter
      simp only [fieldAccesses, PropertyDecl.accessorAccesses, plainNodes, signatureNodes,
        ownNodes, PropertyDecl.nodes, List.flatMap_append, List.map_append, List.count_append,
        List.count_cons]
      omega

end Declaration

end DeclAnalysis
