import DeclAnalysis.Proofs.Tree.Nodes

/-!
# Children of expressions

What is inside an expression is reached through its children, so most facts about
sub-expressions follow by induction on children. If all nodes of an expression differ, as
they do after numbering, a node belongs to one child only and every sub-expression is
found by its node.
-/

namespace DeclAnalysis

namespace Expr

variable {e x y : Expr}

theorem subexpressionsOf_eq_flatMap (es : List Expr) :
    subexpressionsOf es = es.flatMap subexpressions := by
  induction es with
  | nil => rfl
  | cons e rest ih => rw [subexpressionsOf, ih, List.flatMap_cons]

theorem nodesOf_eq_flatMap (es : List Expr) :
    nodesOf es = es.flatMap nodes := by
  induction es with
  | nil => rfl
  | cons e rest ih => rw [nodesOf, ih, List.flatMap_cons]

/-- An expression comes before all that is inside its children. -/
theorem subexpressions_eq_cons (e : Expr) :
    e.subexpressions = e :: e.children.flatMap subexpressions := by
  match e with
  | block .. | call .. =>
      simp [subexpressions, children, subexpressionsOf_eq_flatMap]
  | constant .. | name .. | dot .. | cond _ _ _ none | cond _ _ _ (some _) | whileLoop ..
  | doWhileLoop .. | breakLoop _ | continueLoop _ | ret _ none | ret _ (some _) | binary ..
  | assign .. | localVariable _ _ _ _ none | localVariable _ _ _ _ (some _) | lambda .. =>
      simp [subexpressions, children]

theorem mem_subexpressions_iff :
    x ∈ e.subexpressions ↔ x = e ∨ ∃ c ∈ e.children, x ∈ c.subexpressions := by
  rw [subexpressions_eq_cons, List.mem_cons, List.mem_flatMap]

theorem self_mem_subexpressions (e : Expr) :
    e ∈ e.subexpressions :=
  mem_subexpressions_iff.mpr (Or.inl rfl)

/-- The nodes of the children are among those inside the expression, in the same order. -/
theorem flatMap_nodes_children_sublist (e : Expr) :
    (e.children.flatMap nodes).Sublist e.nodes.tail := by
  match e with
  | block .. | call .. =>
      simp [nodes, children, nodesOf_eq_flatMap]
  | constant .. | name .. | dot .. | cond _ _ _ none | cond _ _ _ (some _) | whileLoop ..
  | doWhileLoop .. | breakLoop _ | continueLoop _ | ret _ none | ret _ (some _) | binary ..
  | assign .. | localVariable _ _ _ _ none | localVariable _ _ _ _ (some _) | lambda .. =>
      simp [nodes, children]

theorem nodeCount_le_nodeCountOf {es : List Expr} (hx : x ∈ es) :
    x.nodeCount ≤ nodeCountOf es := by
  induction es with
  | nil => exact absurd hx List.not_mem_nil
  | cons e rest ih =>
      rw [nodeCountOf]
      rcases List.mem_cons.mp hx with rfl | hx
      · exact Nat.le_add_right ..
      · exact Nat.le_trans (ih hx) (Nat.le_add_left ..)

theorem nodeCountOf_children_lt (e : Expr) :
    nodeCountOf e.children < e.nodeCount := by
  match e with
  | block .. | call .. =>
      simp only [children, nodeCount]
      omega
  | constant .. | name .. | dot .. | cond _ _ _ none | cond _ _ _ (some _) | whileLoop ..
  | doWhileLoop .. | breakLoop _ | continueLoop _ | ret _ none | ret _ (some _) | binary ..
  | assign .. | localVariable _ _ _ _ none | localVariable _ _ _ _ (some _) | lambda .. =>
      simp only [children, nodeCount, nodeCountOf, Option.toList]
      omega

theorem nodeCount_lt_of_mem_children {c : Expr} (hc : c ∈ e.children) :
    c.nodeCount < e.nodeCount :=
  Nat.lt_of_le_of_lt (nodeCount_le_nodeCountOf hc) e.nodeCountOf_children_lt

/-- What holds of every expression of which it holds of all children holds of all
expressions. -/
theorem induction_children
    {p : Expr → Prop}
    (h : ∀ e, (∀ c ∈ e.children, p c) → p e) (e : Expr) :
    p e :=
  h e fun c _hc => induction_children h c
termination_by e.nodeCount
decreasing_by exact nodeCount_lt_of_mem_children _hc

theorem nodeCount_le_of_mem_subexpressions (hx : x ∈ e.subexpressions) :
    x.nodeCount ≤ e.nodeCount := by
  induction e using induction_children with
  | h e ih =>
      rcases mem_subexpressions_iff.mp hx with rfl | ⟨c, hc, hxc⟩
      · exact Nat.le_refl _
      · exact Nat.le_trans (ih c hc hxc) (Nat.le_of_lt (nodeCount_lt_of_mem_children hc))

/-- Two expressions that are inside each other are the same. -/
theorem eq_of_mem_subexpressions
    (hx : x ∈ y.subexpressions) (hy : y ∈ x.subexpressions) :
    x = y := by
  rcases mem_subexpressions_iff.mp hx with rfl | ⟨c, hc, hxc⟩
  · rfl
  · have hlt := nodeCount_lt_of_mem_children hc
    have hle := nodeCount_le_of_mem_subexpressions hxc
    have hle' := nodeCount_le_of_mem_subexpressions hy
    omega

/-- What is inside a sub-expression is inside the expression. -/
theorem mem_subexpressions_trans
    (hx : x ∈ y.subexpressions) (hy : y ∈ e.subexpressions) :
    x ∈ e.subexpressions := by
  induction e using induction_children with
  | h e ih =>
      rcases mem_subexpressions_iff.mp hy with rfl | ⟨c, hc, hyc⟩
      · exact hx
      · exact mem_subexpressions_iff.mpr (Or.inr ⟨c, hc, ih c hc hyc⟩)

theorem nodes_child_subset {c : Expr} (hc : c ∈ e.children) :
    c.nodes ⊆ e.nodes.tail := by
  intro node hnode
  exact (flatMap_nodes_children_sublist e).subset (List.mem_flatMap.mpr ⟨c, hc, hnode⟩)

theorem nodes_subset_of_mem_subexpressions (hx : x ∈ e.subexpressions) :
    x.nodes ⊆ e.nodes := by
  induction e using induction_children with
  | h e ih =>
      rcases mem_subexpressions_iff.mp hx with rfl | ⟨c, hc, hxc⟩
      · exact List.Subset.refl _
      · exact List.Subset.trans (ih c hc hxc)
          (List.Subset.trans (nodes_child_subset hc) (List.tail_sublist _).subset)

/-! ## Nodes that differ -/

section Nodup

variable (hnodes : e.nodes.Nodup)

include hnodes

theorem id_not_mem_nodes_child {c : Expr} (hc : c ∈ e.children) :
    e.id ∉ c.nodes := by
  intro hmem
  rw [nodes_eq_cons] at hnodes
  exact (List.nodup_cons.mp hnodes).1 (nodes_child_subset hc hmem)

theorem nodup_flatMap_nodes_children :
    (e.children.flatMap nodes).Nodup := by
  rw [nodes_eq_cons] at hnodes
  exact (flatMap_nodes_children_sublist e).nodup (List.nodup_cons.mp hnodes).2

theorem nodup_nodes_child {c : Expr} (hc : c ∈ e.children) :
    c.nodes.Nodup :=
  (List.nodup_flatMap.mp (nodup_flatMap_nodes_children hnodes)).1 c hc

theorem nodup_nodes_of_mem_subexpressions (hx : x ∈ e.subexpressions) :
    x.nodes.Nodup := by
  induction e using induction_children with
  | h e ih =>
      rcases mem_subexpressions_iff.mp hx with rfl | ⟨c, hc, hxc⟩
      · exact hnodes
      · exact ih c hc (nodup_nodes_child hnodes hc) hxc

/-- A node lies in one child only. -/
theorem eq_of_mem_nodes_children
    {c c' : Expr} (hc : c ∈ e.children) (hc' : c' ∈ e.children)
    {node : Nat} (hnode : node ∈ c.nodes) (hnode' : node ∈ c'.nodes) :
    c = c' :=
  eq_of_nodup_flatMap (nodup_flatMap_nodes_children hnodes) hc hc' hnode hnode'

/-- A sub-expression around a node inside of a child is the expression itself or inside of
that child. -/
theorem mem_subexpressions_child
    {c : Expr} (hc : c ∈ e.children) {node : Nat} (hnode : node ∈ c.nodes)
    (hx : x ∈ e.subexpressions) (hnodex : node ∈ x.nodes) (hne : x ≠ e) :
    x ∈ c.subexpressions := by
  rcases mem_subexpressions_iff.mp hx with rfl | ⟨c', hc', hxc'⟩
  · exact absurd rfl hne
  · have hmem : node ∈ c'.nodes := nodes_subset_of_mem_subexpressions hxc' hnodex
    obtain rfl := eq_of_mem_nodes_children hnodes hc hc' hnode hmem
    exact hxc'

/-- Of two sub-expressions with a node in common one lies in the other. -/
theorem mem_subexpressions_or_mem_subexpressions
    (hx : x ∈ e.subexpressions) (hy : y ∈ e.subexpressions)
    {node : Nat} (hnodex : node ∈ x.nodes) (hnodey : node ∈ y.nodes) :
    x ∈ y.subexpressions ∨ y ∈ x.subexpressions := by
  induction e using induction_children with
  | h e ih =>
      rcases mem_subexpressions_iff.mp hx with rfl | ⟨c, hc, hxc⟩
      · exact Or.inr hy
      · by_cases hne : y = e
        · rw [hne]
          exact Or.inl hx
        · have hmem : node ∈ c.nodes := nodes_subset_of_mem_subexpressions hxc hnodex
          have hyc := mem_subexpressions_child hnodes hc hmem hy hnodey hne
          exact ih c hc (nodup_nodes_child hnodes hc) hxc hyc

/-- A sub-expression is found by its node. -/
theorem eq_of_id_eq
    (hx : x ∈ e.subexpressions) (hy : y ∈ e.subexpressions) (hid : x.id = y.id) :
    x = y := by
  induction e using induction_children with
  | h e ih =>
      rcases mem_subexpressions_iff.mp hx with rfl | ⟨c, hc, hxc⟩
      · rcases mem_subexpressions_iff.mp hy with rfl | ⟨c, hc, hyc⟩
        · rfl
        · have hmem := nodes_subset_of_mem_subexpressions hyc y.id_mem_nodes
          exact absurd (hid ▸ hmem) (id_not_mem_nodes_child hnodes hc)
      · have hmem : x.id ∈ c.nodes := nodes_subset_of_mem_subexpressions hxc x.id_mem_nodes
        have hne : y ≠ e := by
          rintro rfl
          exact id_not_mem_nodes_child hnodes hc (hid ▸ hmem)
        have hyc := mem_subexpressions_child hnodes hc hmem hy (hid ▸ y.id_mem_nodes) hne
        exact ih c hc (nodup_nodes_child hnodes hc) hxc hyc

end Nodup

end Expr

end DeclAnalysis
