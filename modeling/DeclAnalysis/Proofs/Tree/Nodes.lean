import Mathlib.Data.List.Nodup
import Mathlib.Data.List.Pairwise
import DeclAnalysis.Tree.Numbering

/-!
# The nodes of a tree

The numbers that the nodes of a tree carry, every node before the nodes inside it
and these from left to right. Numbering a tree from `n` on gives its nodes the
numbers from `n` on, in this order and without a gap.
-/

namespace DeclAnalysis

/-- If no value is found twice, it is found with one entry of a list only. -/
theorem eq_of_nodup_flatMap
    {α β : Type} {f : α → List β} {xs : List α}
    (hnodup : (xs.flatMap f).Nodup)
    {x y : α} (hx : x ∈ xs) (hy : y ∈ xs)
    {b : β} (hbx : b ∈ f x) (hby : b ∈ f y) :
    x = y := by
  by_contra hne
  let Apart : α → α → Prop := fun x y => (f x).Disjoint (f y)
  have hsymm : Std.Symm Apart := ⟨fun _ _ h _ hb hb' => h hb' hb⟩
  have hapart : Apart x y := (List.nodup_flatMap.mp hnodup).2.forall hx hy hne
  exact hapart hbx hby

/-- The nodes of an optional type reference. -/
def typeRefNodes (t : Option TypeRef) : List Nat := t.toList.map TypeRef.id

namespace Parameter

/-- The nodes of a parameter. -/
def nodes (p : Parameter) : List Nat := p.id :: typeRefNodes p.typeRef

end Parameter

/-- The nodes of a list of parameters. -/
def parameterNodes (ps : List Parameter) : List Nat := ps.flatMap Parameter.nodes

namespace Expr

mutual

/-- The nodes of an expression. -/
def nodes : Expr → List Nat
  | constant id _ | name id _ | breakLoop id | continueLoop id | ret id none => [id]
  | dot id receiver _ => id :: receiver.nodes
  | block id statements => id :: nodesOf statements
  | cond id condition thenBranch none => id :: (condition.nodes ++ thenBranch.nodes)
  | cond id condition thenBranch (some elseBranch) =>
    id :: (condition.nodes ++ thenBranch.nodes ++ elseBranch.nodes)
  | whileLoop id condition body => id :: (condition.nodes ++ body.nodes)
  | doWhileLoop id body condition => id :: (body.nodes ++ condition.nodes)
  | ret id (some value) => id :: value.nodes
  | binary id _ left right => id :: (left.nodes ++ right.nodes)
  | assign id target value => id :: (target.nodes ++ value.nodes)
  | call id _ arguments => id :: nodesOf arguments
  | localVariable id _ _ typeRef none => id :: typeRefNodes typeRef
  | localVariable id _ _ typeRef (some initializer) =>
    id :: (typeRefNodes typeRef ++ initializer.nodes)
  | lambda id parameters body => id :: (parameterNodes parameters ++ body.nodes)

/-- The nodes of several expressions. -/
def nodesOf : List Expr → List Nat
  | [] => []
  | e :: rest => e.nodes ++ nodesOf rest

end

/-- The node of an expression comes before the nodes inside it. -/
theorem nodes_eq_cons (e : Expr) : e.nodes = e.id :: e.nodes.tail := by
  cases e with
  | cond _ _ _ elseBranch => cases elseBranch <;> rfl
  | ret _ value => cases value <;> rfl
  | localVariable _ _ _ _ initializer => cases initializer <;> rfl
  | _ => rfl

theorem id_mem_nodes (e : Expr) : e.id ∈ e.nodes := by
  rw [nodes_eq_cons]
  exact List.mem_cons_self

/-- The nodes of an optional expression. -/
def optionalNodes : Option Expr → List Nat
  | none => []
  | some e => e.nodes

end Expr

namespace ImportDirective

/-- The nodes of an import directive. -/
def nodes (i : ImportDirective) : List Nat := i.id :: Expr.optionalNodes i.imported

theorem nodes_subset_of_imported
    {i : ImportDirective} {e : Expr} (h : i.imported = some e) : e.nodes ⊆ i.nodes := by
  unfold nodes
  rw [h]
  exact List.subset_cons_self ..

end ImportDirective

namespace DelegationSpecifier

/-- The nodes of a delegation specifier. -/
def nodes : DelegationSpecifier → List Nat
  | byExpression id typeRef delegate => id :: typeRef.id :: Expr.optionalNodes delegate
  | superCall id typeRef arguments => id :: (typeRefNodes typeRef ++ Expr.nodesOf arguments)
  | superClass id typeRef => [id, typeRef.id]
  | thisCall id arguments => id :: Expr.nodesOf arguments

end DelegationSpecifier

namespace NamespaceHead

/-- The nodes of a namespace declaration without its members. -/
def nodes (h : NamespaceHead) : List Nat := h.id :: h.imports.flatMap ImportDirective.nodes

end NamespaceHead

namespace ClassHead

/-- The nodes of a class declaration without its members. -/
def nodes (h : ClassHead) : List Nat :=
  h.id :: (parameterNodes (h.primaryConstructor.getD [])
    ++ h.delegationSpecifiers.flatMap DelegationSpecifier.nodes)

end ClassHead

namespace FunctionDecl

/-- The nodes of a function declaration. -/
def nodes (f : FunctionDecl) : List Nat :=
  f.id :: (parameterNodes f.parameters ++ typeRefNodes f.returnType
    ++ Expr.optionalNodes f.body)

end FunctionDecl

namespace Accessor

/-- The nodes of an accessor. -/
def nodes (a : Accessor) : List Nat :=
  a.id :: (parameterNodes a.parameter.toList ++ typeRefNodes a.returnType
    ++ Expr.optionalNodes a.body)

end Accessor

namespace PropertyDecl

/-- The nodes of a property declaration. -/
def nodes (p : PropertyDecl) : List Nat :=
  p.id :: (typeRefNodes p.typeRef ++ Expr.optionalNodes p.initializer
    ++ p.getter.toList.flatMap Accessor.nodes ++ p.setter.toList.flatMap Accessor.nodes)

end PropertyDecl

namespace ConstructorDecl

/-- The nodes of a constructor declaration. -/
def nodes (c : ConstructorDecl) : List Nat :=
  c.id :: (parameterNodes c.parameters ++ c.initializers.flatMap DelegationSpecifier.nodes
    ++ Expr.optionalNodes c.body)

end ConstructorDecl

namespace Declaration

mutual

/-- The nodes of a declaration. -/
def nodes : Declaration → List Nat
  | namespaceDecl head members => head.nodes ++ nodesOf members
  | classDecl head members => head.nodes ++ nodesOf members
  | typedefDecl id _ | extensionDecl id _ => [id]
  | functionDecl decl => decl.nodes
  | propertyDecl decl => decl.nodes
  | constructorDecl decl => decl.nodes
  | classObject id members => id :: nodesOf members

/-- The nodes of a list of declarations. -/
def nodesOf : List Declaration → List Nat
  | [] => []
  | d :: rest => d.nodes ++ nodesOf rest

end

/-- The nodes of a declaration without those of its members. -/
def ownNodes : Declaration → List Nat
  | namespaceDecl head _ => head.nodes
  | classDecl head _ => head.nodes
  | classObject id _ => [id]
  | typedefDecl id _ | extensionDecl id _ => [id]
  | functionDecl decl => decl.nodes
  | propertyDecl decl => decl.nodes
  | constructorDecl decl => decl.nodes

/-- The nodes of the import directives in front of the members of a namespace. -/
def importNodes : Declaration → List Nat
  | namespaceDecl head _ => head.imports.flatMap ImportDirective.nodes
  | _ => []

/-- What a class declaration says beside its members. -/
def classHead? : Declaration → Option ClassHead
  | classDecl head _ => some head
  | _ => none

theorem id_mem_ownNodes (d : Declaration) : d.id ∈ d.ownNodes := by
  cases d <;> exact List.mem_cons_self

mutual

/-- The nodes of a declaration are those of all declarations nested in it. -/
theorem flatMap_ownNodes_nested (d : Declaration) : d.nested.flatMap ownNodes = d.nodes := by
  match d with
  | namespaceDecl head members =>
      rw [nested, List.flatMap_cons, flatMap_ownNodes_nestedIn members]
      rfl
  | classDecl head members =>
      rw [nested, List.flatMap_cons, flatMap_ownNodes_nestedIn members]
      rfl
  | classObject id members =>
      rw [nested, List.flatMap_cons, flatMap_ownNodes_nestedIn members]
      rfl
  | typedefDecl .. | extensionDecl .. | functionDecl _ | propertyDecl _ | constructorDecl _ =>
      exact List.append_nil _

theorem flatMap_ownNodes_nestedIn (ds : List Declaration) :
    (nestedIn ds).flatMap ownNodes = nodesOf ds := by
  match ds with
  | [] => rfl
  | d :: rest =>
      rw [nestedIn, List.flatMap_append, flatMap_ownNodes_nested d,
        flatMap_ownNodes_nestedIn rest]
      rfl

end

theorem id_mem_nodes_of_mem_nested {d d' : Declaration} (h : d' ∈ d.nested) :
    d'.id ∈ d.nodes := by
  rw [← flatMap_ownNodes_nested]
  exact List.mem_flatMap.mpr ⟨d', h, d'.id_mem_ownNodes⟩

theorem id_mem_nodesOf_of_mem_nestedIn {ds : List Declaration} {d : Declaration}
    (h : d ∈ nestedIn ds) : d.id ∈ nodesOf ds := by
  rw [← flatMap_ownNodes_nestedIn]
  exact List.mem_flatMap.mpr ⟨d, h, d.id_mem_ownNodes⟩

end Declaration

/-! ## Numbering -/

open List (range')

/-- The numbers of a node and of what is inside it. -/
theorem range'_one_add (n k : Nat) : range' n (1 + k) = n :: range' (n + 1) k := by
  rw [Nat.add_comm, List.range'_succ]

theorem range'_one_append (n : Nat) (rest : List Nat) : range' n 1 ++ rest = n :: rest := rfl

theorem range'_add (n j k : Nat) : range' n (j + k) = range' n j ++ range' (n + j) k := by
  rw [List.range'_append_1]

theorem typeRefNodes_number (n : Nat) (t : Option TypeRef) :
    typeRefNodes (t.map (TypeRef.number n)) = range' n (typeRefCount t) := by
  cases t <;> rfl

namespace Parameter

theorem nodes_number (n : Nat) (p : Parameter) :
    (p.number n).nodes = range' n p.nodeCount := by
  rw [nodeCount, range'_one_add, ← typeRefNodes_number]
  rfl

end Parameter

theorem parameterNodes_number (n : Nat) (ps : List Parameter) :
    parameterNodes (numberParameters n ps) = range' n (parameterCount ps) := by
  induction ps generalizing n with
  | nil => rfl
  | cons p rest ih =>
      rw [parameterCount, range'_add, ← Parameter.nodes_number, ← ih]
      rfl

namespace Expr

mutual

/-- Numbering an expression gives its nodes consecutive numbers. -/
theorem nodes_number (n : Nat) (e : Expr) : (e.number n).nodes = range' n e.nodeCount := by
  match e with
  | constant .. | name .. | breakLoop _ | continueLoop _ | ret _ none => rfl
  | dot _ receiver _ =>
      simp only [number, nodes, nodeCount, range'_one_add, nodes_number]
  | block _ statements =>
      simp only [number, nodes, nodeCount, range'_one_add, nodesOf_number]
  | cond _ condition thenBranch none =>
      simp only [number, nodes, nodeCount, Nat.add_assoc, range'_add, range'_one_append,
        nodes_number]
  | cond _ condition thenBranch (some elseBranch) =>
      simp only [number, nodes, nodeCount, Nat.add_assoc, range'_add, range'_one_append,
        nodes_number, List.append_assoc]
  | whileLoop _ condition body =>
      simp only [number, nodes, nodeCount, Nat.add_assoc, range'_add, range'_one_append,
        nodes_number]
  | doWhileLoop _ body condition =>
      simp only [number, nodes, nodeCount, Nat.add_assoc, range'_add, range'_one_append,
        nodes_number]
  | ret _ (some value) =>
      simp only [number, nodes, nodeCount, range'_one_add, nodes_number]
  | binary _ _ left right =>
      simp only [number, nodes, nodeCount, Nat.add_assoc, range'_add, range'_one_append,
        nodes_number]
  | assign _ target value =>
      simp only [number, nodes, nodeCount, Nat.add_assoc, range'_add, range'_one_append,
        nodes_number]
  | call _ _ arguments =>
      simp only [number, nodes, nodeCount, range'_one_add, nodesOf_number]
  | localVariable _ _ _ typeRef none =>
      simp only [number, nodes, nodeCount, range'_one_add, typeRefNodes_number]
  | localVariable _ _ _ typeRef (some initializer) =>
      simp only [number, nodes, nodeCount, Nat.add_assoc, range'_add, range'_one_append,
        typeRefNodes_number, nodes_number]
  | lambda _ parameters body =>
      simp only [number, nodes, nodeCount, Nat.add_assoc, range'_add, range'_one_append,
        parameterNodes_number, nodes_number]

theorem nodesOf_number (n : Nat) (es : List Expr) :
    nodesOf (numberAll n es) = range' n (nodeCountOf es) := by
  match es with
  | [] => rfl
  | e :: rest =>
      simp only [numberAll, nodesOf, nodeCountOf, range'_add, nodes_number, nodesOf_number]

end

/-- No two nodes of a numbered expression have the same number. -/
theorem nodup_nodes_number (n : Nat) (e : Expr) : (e.number n).nodes.Nodup := by
  rw [nodes_number]
  exact List.nodup_range'

theorem optionalNodes_number (n : Nat) (e : Option Expr) :
    optionalNodes (e.map (Expr.number n)) = range' n (optionalCount e) := by
  cases e with
  | none => rfl
  | some e => exact e.nodes_number n

end Expr

namespace ImportDirective

theorem nodes_number (n : Nat) (i : ImportDirective) :
    (i.number n).nodes = range' n i.nodeCount := by
  rw [nodeCount, range'_one_add, ← Expr.optionalNodes_number]
  rfl

theorem nodes_numberAll (n : Nat) (is : List ImportDirective) :
    (numberAll n is).flatMap nodes = range' n (nodeCountOf is) := by
  induction is generalizing n with
  | nil => rfl
  | cons i rest ih =>
      rw [nodeCountOf, range'_add, ← nodes_number, ← ih]
      rfl

end ImportDirective

namespace DelegationSpecifier

theorem nodes_number (n : Nat) (s : DelegationSpecifier) :
    (s.number n).nodes = range' n s.nodeCount := by
  cases s with
  | byExpression id typeRef delegate =>
      simp only [number, nodes, nodeCount, Expr.optionalNodes_number, TypeRef.number]
      rw [show 2 = 1 + 1 from rfl, Nat.add_assoc, range'_one_add, range'_one_add]
  | superCall id typeRef arguments =>
      simp only [number, nodes, nodeCount, Nat.add_assoc, range'_add, range'_one_append,
        typeRefNodes_number, Expr.nodesOf_number]
  | superClass id typeRef => rfl
  | thisCall id arguments =>
      simp only [number, nodes, nodeCount, range'_one_add, Expr.nodesOf_number]

theorem nodes_numberAll (n : Nat) (ss : List DelegationSpecifier) :
    (numberAll n ss).flatMap nodes = range' n (nodeCountOf ss) := by
  induction ss generalizing n with
  | nil => rfl
  | cons s rest ih =>
      rw [nodeCountOf, range'_add, ← nodes_number, ← ih]
      rfl

end DelegationSpecifier

theorem NamespaceHead.nodes_number (n : Nat) (h : NamespaceHead) :
    (h.number n).nodes = range' n h.nodeCount := by
  rw [nodeCount, range'_one_add, ← ImportDirective.nodes_numberAll]
  rfl

theorem ClassHead.nodes_number (n : Nat) (h : ClassHead) :
    (h.number n).nodes = range' n h.nodeCount := by
  have hp : parameterNodes ((h.primaryConstructor.map (numberParameters (n + 1))).getD []) =
      range' (n + 1) h.primaryCount := by
    cases hp : h.primaryConstructor with
    | none => simp [primaryCount, hp, parameterCount, parameterNodes]
    | some ps => simp [primaryCount, hp, parameterNodes_number]
  simp only [nodes, number, nodeCount, Nat.add_assoc, range'_add, range'_one_append, hp,
    DelegationSpecifier.nodes_numberAll]

theorem FunctionDecl.nodes_number (n : Nat) (f : FunctionDecl) :
    (f.number n).nodes = range' n f.nodeCount := by
  simp only [nodes, number, nodeCount, Nat.add_assoc, range'_add, range'_one_append,
    parameterNodes_number, typeRefNodes_number, Expr.optionalNodes_number, List.append_assoc]

theorem Accessor.nodes_number (n : Nat) (a : Accessor) :
    (a.number n).nodes = range' n a.nodeCount := by
  have hp : parameterNodes (a.parameter.map (Parameter.number (n + 1))).toList =
      range' (n + 1) (optionalParameterCount a.parameter) := by
    cases a.parameter with
    | none => rfl
    | some p => simp [parameterNodes, optionalParameterCount, Parameter.nodes_number]
  simp only [nodes, number, nodeCount, Nat.add_assoc, range'_add, range'_one_append, hp,
    typeRefNodes_number, Expr.optionalNodes_number, List.append_assoc]

theorem PropertyDecl.nodes_number (n : Nat) (p : PropertyDecl) :
    (p.number n).nodes = range' n p.nodeCount := by
  have ha : ∀ (k : Nat) (a : Option Accessor),
      (a.map (Accessor.number k)).toList.flatMap Accessor.nodes =
        range' k (Accessor.optionalCount a) := by
    intro k a
    cases a with
    | none => rfl
    | some a => simp [Accessor.optionalCount, Accessor.nodes_number]
  simp only [nodes, number, nodeCount, Nat.add_assoc, range'_add, range'_one_append, ha,
    typeRefNodes_number, Expr.optionalNodes_number, List.append_assoc]

theorem ConstructorDecl.nodes_number (n : Nat) (c : ConstructorDecl) :
    (c.number n).nodes = range' n c.nodeCount := by
  simp only [nodes, number, nodeCount, Nat.add_assoc, range'_add, range'_one_append,
    parameterNodes_number, DelegationSpecifier.nodes_numberAll, Expr.optionalNodes_number,
    List.append_assoc]

namespace Declaration

mutual

/-- Numbering a declaration gives its nodes consecutive numbers. -/
theorem nodes_number (n : Nat) (d : Declaration) :
    (d.number n).nodes = range' n d.nodeCount := by
  match d with
  | namespaceDecl head members =>
      simp only [number, nodes, nodeCount, range'_add, NamespaceHead.nodes_number,
        nodesOf_number]
  | classDecl head members =>
      simp only [number, nodes, nodeCount, range'_add, ClassHead.nodes_number, nodesOf_number]
  | typedefDecl .. | extensionDecl .. => rfl
  | functionDecl decl => exact decl.nodes_number n
  | propertyDecl decl => exact decl.nodes_number n
  | constructorDecl decl => exact decl.nodes_number n
  | classObject _ members =>
      simp only [number, nodes, nodeCount, range'_one_add, nodesOf_number]

theorem nodesOf_number (n : Nat) (ds : List Declaration) :
    nodesOf (numberAll n ds) = range' n (nodeCountOf ds) := by
  match ds with
  | [] => rfl
  | d :: rest =>
      simp only [numberAll, nodesOf, nodeCountOf, range'_add, nodes_number, nodesOf_number]

end

end Declaration

end DeclAnalysis
