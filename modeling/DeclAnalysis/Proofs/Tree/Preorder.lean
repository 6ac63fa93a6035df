import Mathlib.Data.List.Infix
import DeclAnalysis.Proofs.Resolve.ReportedOnce
import DeclAnalysis.Proofs.Tree.Unnumbered

/-!
# Nodes in the order of their numbers

The nodes of a tree are its declarations, import directives, parameters, type references, accessors,
entries of delegation lists and expressions. Here they are listed as they stand in the tree, each
before those inside it. Numbering counts them in this order, and a subtree is a stretch of the list.
-/

namespace DeclAnalysis

/-- A node of a tree, with all that is inside it. -/
inductive Node where
  | declaration (d : Declaration)
  | importDirective (i : ImportDirective)
  | parameter (p : Parameter)
  | typeRef (t : TypeRef)
  /-- The getter of the property of a name. -/
  | getter (property : String) (a : Accessor)
  /-- The setter of the property of a name. -/
  | setter (property : String) (a : Accessor)
  | specifier (s : DelegationSpecifier)
  | expr (e : Expr)

namespace Node

open Label

/-- The number of the node. -/
def id : Node → Nat
  | declaration d => d.id
  | importDirective i => i.id
  | parameter p => p.id
  | typeRef t => t.id
  | getter _ a | setter _ a => a.id
  | specifier s => s.id
  | expr e => e.id

/-- What describes the node. -/
def label : Node → String
  | declaration (.namespaceDecl head _) => named "namespace" (head.name.getD anonymous)
  | declaration (.classDecl head _) => named "class" (head.name.getD anonymous)
  | declaration (.typedefDecl _ name) => named "typedef" (name.getD anonymous)
  | declaration (.extensionDecl _ name) => named "extension" (name.getD anonymous)
  | declaration (.functionDecl decl) => named "function" decl.name
  | declaration (.propertyDecl decl) => named "property" decl.name
  | declaration (.constructorDecl _) => "constructor"
  | declaration (.classObject ..) => "class object"
  | importDirective _ => "import directive"
  | parameter p => named "parameter" p.name
  | typeRef t => named "type reference" t.name
  | getter property _ => named "getter of" property
  | setter property _ => named "setter of" property
  | specifier (.byExpression _ t _) => named "delegation to" t.name
  | specifier (.superCall ..) => "supertype constructor call"
  | specifier (.superClass _ t) => named "supertype" t.name
  | specifier (.thisCall ..) => "this call"
  | expr e => e.label

/-- The expression that the node is. -/
def expr? : Node → Option Expr
  | expr e => some e
  | _ => none

/-- What an accessor holds. -/
def ofAccessor (a : Accessor) : List Node :=
  a.parameter.toList.map parameter ++ a.returnType.toList.map typeRef ++ a.body.toList.map expr

/-- The nodes directly inside a node, as they are written. -/
def children : Node → List Node
  | declaration (.namespaceDecl head members) =>
    head.imports.map importDirective ++ members.map declaration
  | declaration (.classDecl head members) =>
    (head.primaryConstructor.getD []).map parameter ++ head.delegationSpecifiers.map specifier
      ++ members.map declaration
  | declaration (.typedefDecl ..) | declaration (.extensionDecl ..) | typeRef _ => []
  | declaration (.functionDecl f) =>
    f.parameters.map parameter ++ f.returnType.toList.map typeRef ++ f.body.toList.map expr
  | declaration (.propertyDecl p) =>
    p.typeRef.toList.map typeRef ++ p.initializer.toList.map expr
      ++ p.getter.toList.map (getter p.name) ++ p.setter.toList.map (setter p.name)
  | declaration (.constructorDecl c) =>
    c.parameters.map parameter ++ c.initializers.map specifier ++ c.body.toList.map expr
  | declaration (.classObject _ members) => members.map declaration
  | importDirective i => i.imported.toList.map expr
  | parameter p => p.typeRef.toList.map typeRef
  | getter _ a | setter _ a => ofAccessor a
  | specifier (.byExpression _ t delegate) => typeRef t :: delegate.toList.map expr
  | specifier (.superCall _ t arguments) => t.toList.map typeRef ++ arguments.map expr
  | specifier (.superClass _ t) => [typeRef t]
  | specifier (.thisCall _ arguments) => arguments.map expr
  | expr (.constant ..) | expr (.name ..) | expr (.breakLoop _) | expr (.continueLoop _) => []
  | expr (.dot _ receiver _) => [expr receiver]
  | expr (.block _ statements) => statements.map expr
  | expr (.cond _ condition thenBranch elseBranch) =>
    expr condition :: expr thenBranch :: elseBranch.toList.map expr
  | expr (.whileLoop _ condition body) => [expr condition, expr body]
  | expr (.doWhileLoop _ body condition) => [expr body, expr condition]
  | expr (.ret _ value) => value.toList.map expr
  | expr (.binary _ _ left right) => [expr left, expr right]
  | expr (.assign _ target value) => [expr target, expr value]
  | expr (.call _ _ arguments) => arguments.map expr
  | expr (.localVariable _ _ _ t initializer) =>
    t.toList.map typeRef ++ initializer.toList.map expr
  | expr (.lambda _ parameters body) => parameters.map parameter ++ [expr body]

/-- The numbers in the tree below a node. -/
def numbers : Node → List Nat
  | declaration d => d.nodes
  | importDirective i => i.nodes
  | parameter p => p.nodes
  | typeRef t => [t.id]
  | getter _ a | setter _ a => a.nodes
  | specifier s => s.nodes
  | expr e => e.nodes

/-- The labels of the tree below a node. -/
def labels : Node → List String
  | declaration d => d.labels
  | importDirective i => i.labels
  | parameter p => p.labels
  | typeRef t => [t.label]
  | getter property a => a.labels (named "getter of" property)
  | setter property a => a.labels (named "setter of" property)
  | specifier s => s.labels
  | expr e => e.labels

/-! ## The nodes inside a node -/

theorem flatMap_numbers_typeRef (t : Option TypeRef) :
    (t.toList.flatMap fun t => (typeRef t).numbers) = typeRefNodes t := by
  cases t with
  | none => rfl
  | some t => rfl

theorem flatMap_numbers_expr (es : List Expr) :
    (es.flatMap fun e => (expr e).numbers) = Expr.nodesOf es :=
  (Expr.nodesOf_eq_flatMap es).symm

theorem flatMap_numbers_optionalExpr (e : Option Expr) :
    (e.toList.flatMap fun e => (expr e).numbers) = Expr.optionalNodes e := by
  cases e with
  | none => rfl
  | some e => exact List.append_nil _

theorem flatMap_numbers_declaration (ds : List Declaration) :
    (ds.flatMap fun d => (declaration d).numbers) = Declaration.nodesOf ds := by
  induction ds with
  | nil => rfl
  | cons d rest ih =>
      rw [List.flatMap_cons, ih]
      rfl

/-- The number of a node comes before those of the nodes inside it. -/
theorem numbers_eq_cons (x : Node) : x.numbers = x.id :: x.children.flatMap numbers := by
  cases x with
  | declaration d =>
      cases d with
      | namespaceDecl | classDecl | classObject =>
          simp only [children, List.flatMap_append, List.flatMap_map, flatMap_numbers_declaration]
          rfl
      | functionDecl | propertyDecl | constructorDecl =>
          simp only [children, List.flatMap_append, List.flatMap_map, flatMap_numbers_typeRef,
            flatMap_numbers_optionalExpr]
          rfl
      | typedefDecl | extensionDecl => rfl
  | importDirective | parameter | getter | setter =>
      simp only [children, ofAccessor, List.flatMap_append, List.flatMap_map,
        flatMap_numbers_typeRef, flatMap_numbers_optionalExpr]
      rfl
  | typeRef t => rfl
  | specifier s =>
      cases s with
      | byExpression =>
          simp only [children, List.flatMap_cons, List.flatMap_map, flatMap_numbers_optionalExpr]
          rfl
      | superCall | thisCall =>
          simp only [children, List.flatMap_append, List.flatMap_map, flatMap_numbers_typeRef,
            flatMap_numbers_expr]
          rfl
      | superClass => rfl
  | expr e =>
      match e with
      | .block .. | .call .. | .lambda .. =>
          simp only [children, List.flatMap_append, List.flatMap_singleton, List.flatMap_map,
            flatMap_numbers_expr]
          rfl
      | .localVariable _ _ _ t initializer =>
          simp only [children, List.flatMap_append, List.flatMap_map, flatMap_numbers_typeRef,
            flatMap_numbers_optionalExpr]
          cases initializer with
          | none => exact congrArg _ (List.append_nil _).symm
          | some initializer => rfl
      | .constant .. | .name .. | .dot .. | .cond _ _ _ none | .cond _ _ _ (some _) | .whileLoop ..
      | .doWhileLoop .. | .breakLoop _ | .continueLoop _ | .ret _ none | .ret _ (some _)
      | .binary .. | .assign .. => simp [children, numbers, Expr.nodes, id, Expr.id]

theorem flatMap_labels_typeRef (t : Option TypeRef) :
    (t.toList.flatMap fun t => (typeRef t).labels) = typeRefLabels t := by
  cases t with
  | none => rfl
  | some t => rfl

theorem flatMap_labels_expr (es : List Expr) :
    (es.flatMap fun e => (expr e).labels) = Expr.labelsOf es := by
  induction es with
  | nil => rfl
  | cons e rest ih =>
      rw [List.flatMap_cons, ih]
      rfl

theorem flatMap_labels_declaration (ds : List Declaration) :
    (ds.flatMap fun d => (declaration d).labels) = Declaration.labelsOf ds := by
  induction ds with
  | nil => rfl
  | cons d rest ih =>
      rw [List.flatMap_cons, ih]
      rfl

/-- The label of a node comes before those of the nodes inside it. -/
theorem labels_eq_cons (x : Node) : x.labels = x.label :: x.children.flatMap labels := by
  cases x with
  | declaration d =>
      cases d with
      | namespaceDecl | classDecl | classObject =>
          simp only [children, List.flatMap_append, List.flatMap_map, flatMap_labels_declaration]
          rfl
      | functionDecl | propertyDecl | constructorDecl =>
          simp only [children, List.flatMap_append, List.flatMap_map, flatMap_labels_typeRef,
            flatMap_labels_expr]
          rfl
      | typedefDecl | extensionDecl => rfl
  | importDirective | parameter | getter | setter =>
      simp only [children, ofAccessor, List.flatMap_append, List.flatMap_map,
        flatMap_labels_typeRef, flatMap_labels_expr]
      rfl
  | typeRef t => rfl
  | specifier s =>
      cases s with
      | byExpression | superCall | thisCall =>
          simp only [children, List.flatMap_cons, List.flatMap_append, List.flatMap_map,
            flatMap_labels_typeRef, flatMap_labels_expr]
          rfl
      | superClass => rfl
  | expr e =>
      match e with
      | .block .. | .call .. | .lambda .. =>
          simp only [children, List.flatMap_append, List.flatMap_singleton, List.flatMap_map,
            flatMap_labels_expr]
          rfl
      | .localVariable _ _ _ t initializer =>
          simp only [children, List.flatMap_append, List.flatMap_map, flatMap_labels_typeRef]
          cases initializer with
          | none => exact congrArg _ (List.append_nil _).symm
          | some initializer => simp [labels, label, Expr.labels]
      | .constant .. | .name .. | .dot .. | .cond _ _ _ none | .cond _ _ _ (some _) | .whileLoop ..
      | .doWhileLoop .. | .breakLoop _ | .continueLoop _ | .ret _ none | .ret _ (some _)
      | .binary .. | .assign .. => simp [children, labels, label, Expr.labels]

theorem length_numbers_lt_of_mem_children {x c : Node} (hc : c ∈ x.children) :
    c.numbers.length < x.numbers.length := by
  have hsub : c.numbers.Sublist (x.children.flatMap numbers) :=
    List.sublist_flatten_of_mem (List.mem_map_of_mem hc)
  rw [numbers_eq_cons x, List.length_cons]
  exact Nat.lt_succ_of_le hsub.length_le

/-- The node and all nodes inside it, each before those inside it and these as they are written. -/
def preorder (x : Node) : List Node :=
  x :: x.children.attach.flatMap fun c => c.1.preorder
termination_by x.numbers.length
decreasing_by exact length_numbers_lt_of_mem_children c.2

theorem preorder_eq_cons (x : Node) : x.preorder = x :: x.children.flatMap preorder := by
  rw [preorder, List.flatMap_subtype fun _ _ => rfl, List.unattach_attach]

theorem mem_preorder_of_mem_children {x c : Node} (hc : c ∈ x.children) : c ∈ x.preorder := by
  rw [preorder_eq_cons]
  refine List.mem_cons_of_mem x (List.mem_flatMap.mpr ⟨c, hc, ?_⟩)
  rw [preorder_eq_cons]
  exact List.mem_cons_self

/-- What holds of every node of which it holds of all children holds of all nodes. -/
theorem induction_children
    {p : Node → Prop}
    (h : ∀ x, (∀ c ∈ x.children, p c) → p x) (x : Node) :
    p x :=
  h x fun c _hc => induction_children h c
termination_by x.numbers.length
decreasing_by exact length_numbers_lt_of_mem_children _hc

theorem map_id_preorder (x : Node) : x.preorder.map id = x.numbers := by
  induction x using induction_children with
  | h x ih =>
      rw [preorder_eq_cons, numbers_eq_cons, List.map_cons, List.map_flatMap]
      exact congrArg _ (List.flatMap_congr ih)

theorem map_label_preorder (x : Node) : x.preorder.map label = x.labels := by
  induction x using induction_children with
  | h x ih =>
      rw [preorder_eq_cons, labels_eq_cons, List.map_cons, List.map_flatMap]
      exact congrArg _ (List.flatMap_congr ih)

/-- A subtree is a stretch of the list of nodes. -/
theorem preorder_isInfix {x y : Node} (hy : y ∈ x.preorder) : y.preorder <:+: x.preorder := by
  induction x using induction_children with
  | h x ih =>
      rw [preorder_eq_cons, List.mem_cons, List.mem_flatMap] at hy
      rcases hy with rfl | ⟨c, hc, hy⟩
      · exact List.infix_rfl
      · have hinfix := (ih c hc hy).trans (List.infix_flatMap_of_mem hc preorder)
        rw [preorder_eq_cons x]
        exact hinfix.trans (List.suffix_cons _ _).isInfix

/-- The numbers of the node and of all nodes inside it. -/
def span (x : Node) : List Nat := x.preorder.map id

theorem span_expr (e : Expr) : (expr e).span = e.nodes := map_id_preorder (expr e)

/-- The children of an expression are those nodes directly inside it that are expressions. -/
theorem filterMap_expr?_children (e : Expr) : (expr e).children.filterMap expr? = e.children := by
  have hsome (es : List Expr) : (es.map expr).filterMap expr? = es := by
    rw [List.filterMap_map]
    exact List.filterMap_some
  have hnone (t : Option TypeRef) : (t.toList.map typeRef).filterMap expr? = [] := by
    cases t with
    | none => rfl
    | some t => rfl
  have hparameters (ps : List Parameter) : (ps.map parameter).filterMap expr? = [] := by
    rw [List.filterMap_map]
    exact List.filterMap_eq_nil_iff.mpr fun _ _ => rfl
  cases e with
  | block | call | ret => exact hsome _
  | cond => exact congrArg _ (congrArg _ (hsome _))
  | localVariable => rw [children, List.filterMap_append, hnone, hsome]; rfl
  | lambda => rw [children, List.filterMap_append, hparameters]; rfl
  | _ => rfl

end Node

/-- A stretch of consecutive numbers consists of consecutive numbers. -/
theorem eq_range'_of_isInfix
    {first : Nat} {rest : List Nat} {n k : Nat} (h : first :: rest <:+: List.range' n k) :
    first :: rest = List.range' first (first :: rest).length := by
  obtain ⟨before, after, heq⟩ := h
  obtain ⟨j, -, hfront, -⟩ := List.range'_eq_append_iff.mp heq.symm
  obtain ⟨i, -, -, hstretch⟩ := List.range'_eq_append_iff.mp hfront.symm
  have hfirst : n + i * 1 = first := (List.range'_eq_cons_iff.mp hstretch.symm).1
  have hlength : (first :: rest).length = j - i := by
    rw [hstretch, List.length_range']
  rw [hlength, ← hfirst]
  exact hfirst ▸ hstretch

theorem Expr.map_id_sublist_flatMap_nodes (es : List Expr) :
    (es.map id).Sublist (es.flatMap nodes) := by
  induction es with
  | nil => exact List.Sublist.refl _
  | cons e rest ih =>
      rw [List.map_cons, List.flatMap_cons, nodes_eq_cons]
      exact (ih.trans (List.sublist_append_right _ _)).cons_cons e.id

/-! ## Files -/

namespace SourceFile

/-- All nodes of the file, each before those inside it. -/
def nodes (file : SourceFile) : List Node :=
  file.declarations.flatMap fun d => (Node.declaration d).preorder

theorem map_label_nodes (file : SourceFile) : file.nodes.map Node.label = file.labels := by
  rw [nodes, List.map_flatMap, labels, ← Node.flatMap_labels_declaration]
  exact List.flatMap_congr fun d _ => Node.map_label_preorder _

theorem map_id_nodes (file : SourceFile) :
    file.nodes.map Node.id = Declaration.nodesOf file.declarations := by
  rw [nodes, List.map_flatMap, ← Node.flatMap_numbers_declaration]
  exact List.flatMap_congr fun d _ => Node.map_id_preorder _

theorem preorder_isInfix_nodes {file : SourceFile} {x : Node} (hx : x ∈ file.nodes) :
    x.preorder <:+: file.nodes := by
  obtain ⟨d, hd, hx⟩ := List.mem_flatMap.mp hx
  have hinfix := List.infix_of_mem_flatten
    (List.mem_map_of_mem (f := fun d => (Node.declaration d).preorder) hd)
  exact (Node.preorder_isInfix hx).trans hinfix

section Obtained

variable {file : SourceFile} (hfile : file.Obtained)

include hfile

theorem Obtained.map_id_nodes_eq :
    file.nodes.map Node.id = List.range' 1 file.nodeCount := by
  obtain ⟨name, ds, rfl⟩ := hfile.exists_eq_ofDeclarations
  have hcount :
      (SourceFile.ofDeclarations name ds).nodeCount = Declaration.nodeCountOf ds := by
    unfold nodeCount SourceFile.ofDeclarations
    rw [← Declaration.nodeCountOf_unnumberedAll, Declaration.unnumberedAll_numberAll,
      Declaration.nodeCountOf_unnumberedAll]
  rw [map_id_nodes, hcount]
  exact Declaration.nodesOf_number 1 ds

theorem Obtained.length_nodes : file.nodes.length = file.nodeCount := by
  rw [← List.length_map, hfile.map_id_nodes_eq, List.length_range']

/-- Every node is found in the list of the nodes at the place that its number says. -/
theorem Obtained.getElem?_nodes {n : Nat} {x : Node} (h : file.nodes[n]? = some x) :
    x.id = n + 1 := by
  have hid : (file.nodes.map Node.id)[n]? = some x.id := by
    rw [List.getElem?_map, h]
    rfl
  rw [hfile.map_id_nodes_eq] at hid
  obtain ⟨hlt, hid⟩ := List.getElem?_eq_some_iff.mp hid
  rw [List.getElem_range'] at hid
  omega

theorem Obtained.label?_id {x : Node} (hx : x ∈ file.nodes) :
    file.label? x.id = some x.label := by
  obtain ⟨n, hn⟩ := List.getElem?_of_mem hx
  have hlabel : file.labels[n]? = some x.label := by
    rw [← map_label_nodes, List.getElem?_map, hn]
    rfl
  rw [hfile.getElem?_nodes hn]
  exact hlabel

theorem Obtained.isSome_label?_iff (n : Nat) :
    (file.label? n).isSome ↔ 1 ≤ n ∧ n ≤ file.nodeCount := by
  cases n with
  | zero => simp [label?]
  | succ n =>
      have hlength : file.labels.length = file.nodeCount := by
        rw [← map_label_nodes, List.length_map, hfile.length_nodes]
      rw [label?, isSome_getElem?, hlength]
      omega

/-- The numbers in a subtree are consecutive. -/
theorem Obtained.span_eq {x : Node} (hx : x ∈ file.nodes) :
    x.span = List.range' x.id x.span.length := by
  have hinfix : x.span <:+: List.range' 1 file.nodeCount := by
    rw [← hfile.map_id_nodes_eq]
    exact (preorder_isInfix_nodes hx).map Node.id
  have hcons : x.span = x.id :: (x.children.flatMap Node.preorder).map Node.id := by
    rw [Node.span, Node.preorder_eq_cons, List.map_cons]
  rw [hcons] at hinfix ⊢
  exact eq_range'_of_isInfix hinfix

theorem Obtained.pairwise_nodes_expr {e : Expr} (he : Node.expr e ∈ file.nodes) :
    e.nodes.Pairwise (· < ·) := by
  rw [← Node.span_expr, hfile.span_eq he]
  exact List.pairwise_lt_range'

theorem Obtained.nodup_nodes_expr {e : Expr} (he : Node.expr e ∈ file.nodes) :
    e.nodes.Nodup :=
  (hfile.pairwise_nodes_expr he).imp Nat.ne_of_lt

/-- The children of an expression are numbered from left to right. -/
theorem Obtained.pairwise_id_children {e : Expr} (he : Node.expr e ∈ file.nodes) :
    (e.children.map Expr.id).Pairwise (· < ·) := by
  have hsub := (Expr.map_id_sublist_flatMap_nodes e.children).trans
    e.flatMap_nodes_children_sublist
  exact (hfile.pairwise_nodes_expr he).sublist (hsub.trans (List.tail_sublist _))

/-- What is inside the children of an expression lies inside the expression, and apart. -/
theorem Obtained.pairwise_disjoint_children {e : Expr} (he : Node.expr e ∈ file.nodes) :
    e.children.Pairwise fun c c' => (Node.expr c).span.Disjoint (Node.expr c').span := by
  have hnodup := Expr.nodup_flatMap_nodes_children (hfile.nodup_nodes_expr he)
  refine (List.nodup_flatMap.mp hnodup).2.imp fun {c c'} hdisjoint => ?_
  rw [Node.span_expr, Node.span_expr]
  exact hdisjoint

end Obtained

/-- Numbering replaces the numbers that declarations carry, and changes nothing else. However a file
is obtained, the numbers of its nodes are those from 1 up to the number of nodes, in the order in
which the nodes are written, each before those inside it. Exactly these have labels, and the label
of a node describes it. The numbers in a subtree follow each other without a gap, beginning with
that of its root. The children of an expression are the expressions directly inside it, from left to
right in the order of their numbers, and their subtrees lie inside the expression and apart. -/
theorem numbered_in_preorder {file : SourceFile} (hfile : file.Obtained) :
    (∀ name ds,
        (ofDeclarations name ds).declarations.map Declaration.unnumbered =
            ds.map Declaration.unnumbered ∧
          ofDeclarations name (ds.map Declaration.unnumbered) = ofDeclarations name ds) ∧
      file.nodes.map Node.id = List.range' 1 file.nodeCount ∧
      (∀ n, (file.label? n).isSome ↔ 1 ≤ n ∧ n ≤ file.nodeCount) ∧
      (∀ x ∈ file.nodes, file.label? x.id = some x.label) ∧
      (∀ x ∈ file.nodes, x.span = List.range' x.id x.span.length) ∧
      ∀ e, Node.expr e ∈ file.nodes →
        e.children = (Node.expr e).children.filterMap Node.expr? ∧
          (e.children.map Expr.id).Pairwise (· < ·) ∧
          (e.children.Pairwise fun c c' => (Node.expr c).span.Disjoint (Node.expr c').span) ∧
          ∀ c ∈ e.children, (Node.expr c).span ⊆ (Node.expr e).span := by
  refine ⟨?_, hfile.map_id_nodes_eq, hfile.isSome_label?_iff, ?_, ?_, ?_⟩
  · intro name ds
    exact ⟨map_unnumbered_ofDeclarations name ds, ofDeclarations_unnumbered name ds⟩
  · intro x hx
    exact hfile.label?_id hx
  · intro x hx
    exact hfile.span_eq hx
  · intro e he
    refine ⟨(Node.filterMap_expr?_children e).symm, hfile.pairwise_id_children he,
      hfile.pairwise_disjoint_children he, ?_⟩
    intro c hc
    rw [Node.span_expr, Node.span_expr]
    exact List.Subset.trans (Expr.nodes_child_subset hc) (List.tail_subset _)

/-- A function of which all nodes carry the same number, and of which the body is a block around the
return of a constant and a call. -/
def misnumbered : FunctionDecl where
  id := 7
  name := "f"
  returnType := some ⟨7, "Int"⟩
  body := some
    (.block 7 [.ret 7 (some (.constant 7 (.int 1))), .call 7 "g" [.constant 7 (.int 2)]])

theorem numbered_in_preorder_misnumbered :
    let file := ofDeclarations "main" [.functionDecl misnumbered]
    file.Obtained ∧
      file.nodes.map Node.label =
        ["function `f`", "type reference `Int`", "block", "return", "constant `1`", "call to `g`",
          "constant `2`"] ∧
      file.nodes.map Node.id = [1, 2, 3, 4, 5, 6, 7] ∧
      (∀ n, (file.label? n).isSome ↔ 1 ≤ n ∧ n ≤ 7) ∧
      ∀ e, Node.expr e ∈ file.nodes → (e.children.map Expr.id).Pairwise (· < ·) := by
  intro file
  have hfile : file.Obtained := .ofDeclarations ..
  have hcount : file.nodeCount = 7 := by decide
  have hlabels : file.labels =
      ["function `f`", "type reference `Int`", "block", "return", "constant `1`", "call to `g`",
        "constant `2`"] := by
    decide +kernel
  obtain ⟨-, hid, hlabel, -, -, hchildren⟩ := numbered_in_preorder hfile
  rw [hcount] at hid hlabel
  refine ⟨hfile, ?_, hid, hlabel, ?_⟩
  · rw [map_label_nodes, hlabels]
  · intro e he
    exact (hchildren e he).2.1

end SourceFile

end DeclAnalysis
