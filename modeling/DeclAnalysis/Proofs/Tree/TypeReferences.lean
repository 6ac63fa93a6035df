import Mathlib.Data.List.Perm.Basic
import Mathlib.Data.List.Perm.Subperm
import DeclAnalysis.Proofs.Tree.Spaces

/-!
# The nodes of type references

Every type reference is a node of its own, so that in a layout with distinct nodes the node of
a type reference tells which one it is and in which space it stands.
-/

namespace DeclAnalysis

theorem sublist_parameterNodes (ps : List Parameter) :
    ((parameterTypeRefs ps).map TypeRef.id).Sublist (parameterNodes ps) := by
  unfold parameterTypeRefs parameterNodes
  rw [List.map_flatMap]
  induction ps with
  | nil => exact .slnil
  | cons p ps ih =>
      rw [List.flatMap_cons, List.flatMap_cons]
      exact (List.sublist_cons_self ..).append ih

namespace Expr

mutual

theorem sublist_nodes (e : Expr) : (e.typeRefs.map TypeRef.id).Sublist e.nodes := by
  match e with
  | constant .. | name .. | breakLoop _ | continueLoop _ | ret _ none => exact List.nil_sublist _
  | dot _ receiver _ => exact (sublist_nodes receiver).cons _
  | block _ statements => exact (sublist_nodesOf statements).cons _
  | cond _ condition thenBranch none =>
      rw [typeRefs, List.map_append]
      exact ((sublist_nodes condition).append (sublist_nodes thenBranch)).cons _
  | cond _ condition thenBranch (some elseBranch) =>
      rw [typeRefs, List.map_append, List.map_append]
      exact (((sublist_nodes condition).append (sublist_nodes thenBranch)).append
        (sublist_nodes elseBranch)).cons _
  | whileLoop _ condition body =>
      rw [typeRefs, List.map_append]
      exact ((sublist_nodes condition).append (sublist_nodes body)).cons _
  | doWhileLoop _ body condition =>
      rw [typeRefs, List.map_append]
      exact ((sublist_nodes body).append (sublist_nodes condition)).cons _
  | ret _ (some value) => exact (sublist_nodes value).cons _
  | binary _ _ left right =>
      rw [typeRefs, List.map_append]
      exact ((sublist_nodes left).append (sublist_nodes right)).cons _
  | assign _ target value =>
      rw [typeRefs, List.map_append]
      exact ((sublist_nodes target).append (sublist_nodes value)).cons _
  | call _ _ arguments => exact (sublist_nodesOf arguments).cons _
  | localVariable _ _ _ typeRef none => exact List.sublist_cons_self ..
  | localVariable _ _ _ typeRef (some initializer) =>
      rw [typeRefs, List.map_append]
      exact ((List.Sublist.refl _).append (sublist_nodes initializer)).cons _
  | lambda _ parameters body =>
      rw [typeRefs, List.map_append]
      exact ((sublist_parameterNodes parameters).append (sublist_nodes body)).cons _

theorem sublist_nodesOf (es : List Expr) : ((typeRefsOf es).map TypeRef.id).Sublist (nodesOf es) := by
  match es with
  | [] => exact .slnil
  | e :: rest =>
      rw [typeRefsOf, List.map_append]
      exact (sublist_nodes e).append (sublist_nodesOf rest)

end

theorem sublist_optionalNodes (e : Option Expr) :
    ((optionalTypeRefs e).map TypeRef.id).Sublist (optionalNodes e) := by
  cases e with
  | none => exact .slnil
  | some e => exact e.sublist_nodes

end Expr

/-- Parts of lists are parts of the lists that these make up. -/
theorem sublist_flatMap {α : Type} {f : α → List TypeRef} {g : α → List Nat}
    (h : ∀ a, ((f a).map TypeRef.id).Sublist (g a)) (as : List α) :
    ((as.flatMap f).map TypeRef.id).Sublist (as.flatMap g) := by
  induction as with
  | nil => exact .slnil
  | cons a as ih =>
      rw [List.flatMap_cons, List.flatMap_cons, List.map_append]
      exact (h a).append ih

namespace DelegationSpecifier

theorem sublist_nodes (specifier : DelegationSpecifier) :
    (specifier.typeRefs.map TypeRef.id).Sublist specifier.nodes := by
  cases specifier with
  | byExpression id typeRef delegate =>
      exact ((Expr.sublist_optionalNodes delegate).cons_cons _).cons _
  | superCall id typeRef arguments =>
      rw [typeRefs, List.map_append]
      exact ((List.Sublist.refl _).append (Expr.sublist_nodesOf arguments)).cons _
  | superClass id typeRef => exact List.sublist_cons_self ..
  | thisCall id arguments => exact (Expr.sublist_nodesOf arguments).cons _

end DelegationSpecifier

theorem Accessor.sublist_nodes (a : Accessor) : (a.typeRefs.map TypeRef.id).Sublist a.nodes := by
  unfold typeRefs nodes
  rw [List.map_append, List.map_append]
  exact (((sublist_parameterNodes _).append (.refl _)).append
    (Expr.sublist_optionalNodes a.body)).cons _

theorem PropertyDecl.sublist_nodes (p : PropertyDecl) :
    (p.typeRefs.map TypeRef.id).Sublist p.nodes := by
  unfold typeRefs nodes
  rw [List.map_append, List.map_append, List.map_append]
  exact ((((List.Sublist.refl _).append (Expr.sublist_optionalNodes p.initializer)).append
    (sublist_flatMap Accessor.sublist_nodes _)).append
      (sublist_flatMap Accessor.sublist_nodes _)).cons _

theorem FunctionDecl.sublist_nodes (f : FunctionDecl) :
    (f.typeRefs.map TypeRef.id).Sublist f.nodes := by
  unfold typeRefs nodes
  rw [List.map_append, List.map_append]
  exact (((sublist_parameterNodes _).append (.refl _)).append
    (Expr.sublist_optionalNodes f.body)).cons _

theorem ConstructorDecl.sublist_nodes (c : ConstructorDecl) :
    (c.typeRefs.map TypeRef.id).Sublist c.nodes := by
  unfold typeRefs nodes
  rw [List.map_append, List.map_append]
  exact (((sublist_parameterNodes _).append
    (sublist_flatMap DelegationSpecifier.sublist_nodes _)).append
      (Expr.sublist_optionalNodes c.body)).cons _

/-- The type references of a class are those of its parameters and its delegation list. -/
theorem ClassHead.typeRefs_perm (head : ClassHead) :
    (head.supertypeRefs ++ head.innerTypeRefs).Perm
      (parameterTypeRefs (head.primaryConstructor.getD []) ++
        head.delegationSpecifiers.flatMap DelegationSpecifier.typeRefs) := by
  have hlist : (head.supertypeRefs ++
      head.delegationSpecifiers.flatMap DelegationSpecifier.expressionTypeRefs).Perm
        (head.delegationSpecifiers.flatMap DelegationSpecifier.typeRefs) := by
    have hsplit := List.flatMap_append_perm head.delegationSpecifiers
      (fun specifier => specifier.typeRef?.toList) DelegationSpecifier.expressionTypeRefs
    rw [supertypeRefs, List.filterMap_eq_flatMap_toList]
    refine hsplit.trans (List.Perm.of_eq ?_)
    exact congrArg (List.flatMap · _) (funext fun s => s.typeRefs_eq.symm)
  unfold innerTypeRefs
  refine (List.perm_append_comm_assoc ..).trans ?_
  exact hlist.append_left _

namespace Layout

variable {l : Layout}

/-- The nodes of the type references of a declaration differ and are nodes of it. -/
theorem subperm_typeRefsIn (d : Declaration) (space : Space) :
    ((d.typeRefsIn space).map fun p => p.2.id).Subperm d.ownNodes := by
  have hmap : ∀ (space : Space) (refs : List TypeRef),
      (refs.map (space, ·)).map (fun p => p.2.id) = refs.map TypeRef.id := by
    intro space refs
    rw [List.map_map]
    rfl
  cases d with
  | classDecl head members =>
      unfold Declaration.typeRefsIn
      rw [List.map_append, hmap, hmap, ← List.map_append]
      have hsublist : ((parameterTypeRefs (head.primaryConstructor.getD []) ++
          head.delegationSpecifiers.flatMap DelegationSpecifier.typeRefs).map TypeRef.id).Sublist
            head.nodes := by
        rw [List.map_append]
        exact ((sublist_parameterNodes _).append
          (sublist_flatMap DelegationSpecifier.sublist_nodes _)).cons _
      exact (head.typeRefs_perm.map _).subperm.trans hsublist.subperm
  | functionDecl decl =>
      unfold Declaration.typeRefsIn
      rw [hmap]
      exact decl.sublist_nodes.subperm
  | propertyDecl decl =>
      unfold Declaration.typeRefsIn
      rw [hmap]
      exact decl.sublist_nodes.subperm
  | constructorDecl decl =>
      unfold Declaration.typeRefsIn
      rw [hmap]
      exact decl.sublist_nodes.subperm
  | _ => exact List.nil_subperm

/-- The node of a type reference tells which one it is and where it stands. -/
theorem Distinct.typeRef_eq
    (h : l.Distinct) {p q : Space × TypeRef} (hp : p ∈ l.typeRefs) (hq : q ∈ l.typeRefs)
    (hid : p.2.id = q.2.id) : p = q := by
  have hnodup : (l.typeRefs.map fun p => p.2.id).Nodup := by
    unfold typeRefs
    rw [List.map_flatMap, List.nodup_flatMap]
    obtain ⟨hown, hdisjoint⟩ := List.nodup_flatMap.mp h
    refine ⟨fun p hp => ?_, hdisjoint.imp fun {p q} hpq node hnode hnode' => ?_⟩
    · obtain ⟨refs, hperm, hsublist⟩ := subperm_typeRefsIn p.2 p.1
      exact hperm.nodup_iff.mp (hsublist.nodup (hown p hp))
    · exact hpq ((subperm_typeRefsIn p.2 p.1).subset hnode)
        ((subperm_typeRefsIn q.2 q.1).subset hnode')
  exact List.inj_on_of_nodup_map hnodup hp hq hid

end Layout

end DeclAnalysis
