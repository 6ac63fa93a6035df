import DeclAnalysis.Tree.SourceFile
import DeclAnalysis.Proofs.Tree.Nodes

/-!
# Every node has a label

A tree has as many labels as nodes, so that in a numbered file the label of a node stands where its
number says.
-/

namespace DeclAnalysis

theorem length_typeRefLabels (t : Option TypeRef) :
    (typeRefLabels t).length = (typeRefNodes t).length := by
  simp [typeRefLabels, typeRefNodes]

/-- Where each of several parts has as many labels as nodes, so have all of them together. -/
theorem length_flatMap_eq
    {α : Type} {labels : α → List String} {nodes : α → List Nat} (xs : List α)
    (h : ∀ x ∈ xs, (labels x).length = (nodes x).length) :
    (xs.flatMap labels).length = (xs.flatMap nodes).length := by
  rw [List.length_flatMap, List.length_flatMap, List.map_congr_left h]

theorem Parameter.length_labels (p : Parameter) : p.labels.length = p.nodes.length := by
  simp [labels, nodes, length_typeRefLabels]

theorem length_parameterLabels (ps : List Parameter) :
    (parameterLabels ps).length = (parameterNodes ps).length :=
  length_flatMap_eq ps fun p _ => p.length_labels

namespace Expr

mutual

theorem length_labels (e : Expr) : e.labels.length = e.nodes.length := by
  match e with
  | constant .. | name .. | breakLoop _ | continueLoop _ | ret _ none => rfl
  | dot _ receiver _ => simp [labels, nodes, length_labels receiver]
  | block _ statements => simp [labels, nodes, length_labelsOf statements]
  | cond _ condition thenBranch none =>
      simp [labels, nodes, length_labels condition, length_labels thenBranch]
  | cond _ condition thenBranch (some elseBranch) =>
      simp [labels, nodes, length_labels condition, length_labels thenBranch,
        length_labels elseBranch]
  | whileLoop _ condition body =>
      simp [labels, nodes, length_labels condition, length_labels body]
  | doWhileLoop _ body condition =>
      simp [labels, nodes, length_labels body, length_labels condition]
  | ret _ (some value) => simp [labels, nodes, length_labels value]
  | binary _ _ left right => simp [labels, nodes, length_labels left, length_labels right]
  | assign _ target value => simp [labels, nodes, length_labels target, length_labels value]
  | call _ _ arguments => simp [labels, nodes, length_labelsOf arguments]
  | localVariable _ _ _ typeRef none => simp [labels, nodes, length_typeRefLabels]
  | localVariable _ _ _ typeRef (some initializer) =>
      simp [labels, nodes, length_typeRefLabels, length_labels initializer]
  | lambda _ parameters body =>
      simp [labels, nodes, length_parameterLabels, length_labels body]

theorem length_labelsOf (es : List Expr) : (labelsOf es).length = (nodesOf es).length := by
  match es with
  | [] => rfl
  | e :: rest => simp [labelsOf, nodesOf, length_labels e, length_labelsOf rest]

end

theorem length_optionalLabels (e : Option Expr) :
    (optionalLabels e).length = (optionalNodes e).length := by
  cases e with
  | none => rfl
  | some e => simp [optionalLabels, labelsOf, optionalNodes, length_labels]

end Expr

theorem ImportDirective.length_labels (i : ImportDirective) :
    i.labels.length = i.nodes.length := by
  simp [labels, nodes, Expr.length_optionalLabels]

theorem DelegationSpecifier.length_labels (d : DelegationSpecifier) :
    d.labels.length = d.nodes.length := by
  cases d <;>
    simp [labels, nodes, length_typeRefLabels, Expr.length_labelsOf, Expr.length_optionalLabels]

theorem length_specifierLabels (specifiers : List DelegationSpecifier) :
    (specifiers.flatMap DelegationSpecifier.labels).length =
      (specifiers.flatMap DelegationSpecifier.nodes).length :=
  length_flatMap_eq specifiers fun d _ => d.length_labels

theorem NamespaceHead.length_labels (h : NamespaceHead) : h.labels.length = h.nodes.length := by
  have himports := length_flatMap_eq h.imports fun i _ => i.length_labels
  simp only [labels, nodes, List.length_cons, himports]

theorem ClassHead.length_labels (h : ClassHead) : h.labels.length = h.nodes.length := by
  simp only [labels, nodes, List.length_cons, List.length_append, length_parameterLabels,
    length_specifierLabels]

theorem FunctionDecl.length_labels (f : FunctionDecl) : f.labels.length = f.nodes.length := by
  simp only [labels, nodes, List.length_cons, List.length_append, length_parameterLabels,
    length_typeRefLabels, Expr.length_optionalLabels]

theorem Accessor.length_labels (text : String) (a : Accessor) :
    (a.labels text).length = a.nodes.length := by
  simp only [labels, nodes, List.length_cons, List.length_append, length_parameterLabels,
    length_typeRefLabels, Expr.length_optionalLabels]

theorem PropertyDecl.length_labels (p : PropertyDecl) : p.labels.length = p.nodes.length := by
  have haccessor : ∀ text (a : Option Accessor),
      (a.toList.flatMap (Accessor.labels text)).length =
        (a.toList.flatMap Accessor.nodes).length :=
    fun text a => length_flatMap_eq a.toList fun a _ => a.length_labels text
  simp only [labels, nodes, List.length_cons, List.length_append, length_typeRefLabels,
    Expr.length_optionalLabels, haccessor]

theorem ConstructorDecl.length_labels (c : ConstructorDecl) :
    c.labels.length = c.nodes.length := by
  simp only [labels, nodes, List.length_cons, List.length_append, length_parameterLabels,
    length_specifierLabels, Expr.length_optionalLabels]

namespace Declaration

mutual

theorem length_labels (d : Declaration) : d.labels.length = d.nodes.length := by
  match d with
  | namespaceDecl head members =>
      simp [labels, nodes, head.length_labels, length_labelsOf members]
  | classDecl head members => simp [labels, nodes, head.length_labels, length_labelsOf members]
  | classObject _ members => simp [labels, nodes, length_labelsOf members]
  | functionDecl decl => exact decl.length_labels
  | propertyDecl decl => exact decl.length_labels
  | constructorDecl decl => exact decl.length_labels
  | typedefDecl .. | extensionDecl .. => rfl

/-- Declarations have as many labels as nodes. -/
theorem length_labelsOf (ds : List Declaration) : (labelsOf ds).length = (nodesOf ds).length := by
  match ds with
  | [] => rfl
  | d :: rest => simp [labelsOf, nodesOf, length_labels d, length_labelsOf rest]

end

end Declaration

/-- Every node of a numbered file has a label. -/
theorem SourceFile.exists_label_of_mem_nodes
    {name : String} {ds : List Declaration} {node : Nat}
    (hnode : node ∈ Declaration.nodesOf (ofDeclarations name ds).declarations) :
    ∃ label, (ofDeclarations name ds).label? node = some label := by
  have hlength := Declaration.length_labelsOf (ofDeclarations name ds).declarations
  have hnodes : Declaration.nodesOf (ofDeclarations name ds).declarations =
      List.range' 1 (Declaration.nodeCountOf ds) := Declaration.nodesOf_number ..
  rw [hnodes, List.length_range'] at hlength
  rw [hnodes, List.mem_range'_1] at hnode
  obtain ⟨n, rfl⟩ := Nat.exists_eq_add_of_le' hnode.1
  have hlt : n < (ofDeclarations name ds).labels.length := by
    rw [labels, hlength]
    omega
  exact ⟨_, List.getElem?_eq_getElem hlt⟩

end DeclAnalysis
