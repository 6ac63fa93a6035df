import Mathlib.Data.List.Flatten
import DeclAnalysis.Tree.Roots
import DeclAnalysis.Proofs.Tree.Children

/-!
# Topmost nodes

Which nodes of a set are topmost in an expression is decided inside every sub-expression on
its own, as long as nothing around the sub-expression is in the set. What is inside of a
node of the set is hidden by it.
-/

namespace DeclAnalysis

namespace Expr

variable {elements : List Nat} {e t x : Expr}

/-- A node of the set hides what is inside. -/
theorem roots_of_mem (h : e.id ∈ elements) :
    e.roots elements = [e.id] := by
  unfold roots
  rw [if_pos h]

theorem rootsOf_eq_flatMap (es : List Expr) :
    rootsOf elements es = es.flatMap (roots elements) := by
  induction es with
  | nil => rfl
  | cons e rest ih => rw [rootsOf, ih, List.flatMap_cons]

/-- If a node is not in the set, those inside are looked at from left to right. -/
theorem roots_of_not_mem (h : e.id ∉ elements) :
    e.roots elements = e.children.flatMap (roots elements) := by
  unfold roots
  rw [if_neg h]
  match e with
  | block .. | call .. =>
      exact rootsOf_eq_flatMap _
  | constant .. | name .. | dot .. | cond _ _ _ none | cond _ _ _ (some _) | whileLoop ..
  | doWhileLoop .. | breakLoop _ | continueLoop _ | ret _ none | ret _ (some _) | binary ..
  | assign .. | localVariable _ _ _ _ none | localVariable _ _ _ _ (some _) | lambda .. =>
      simp [children]

/-- The topmost nodes of a set are in the order of the tree. -/
theorem roots_sublist_nodes (elements : List Nat) (e : Expr) :
    (e.roots elements).Sublist e.nodes := by
  induction e using induction_children with
  | h e ih =>
      by_cases hid : e.id ∈ elements
      · rw [roots_of_mem hid]
        exact List.singleton_sublist.mpr e.id_mem_nodes
      · rw [roots_of_not_mem hid]
        have hsub := (List.Sublist.flatMap_right e.children ih).trans
          e.flatMap_nodes_children_sublist
        exact hsub.trans (List.tail_sublist _)

theorem roots_subset_nodes (elements : List Nat) (e : Expr) :
    e.roots elements ⊆ e.nodes :=
  (roots_sublist_nodes elements e).subset

theorem roots_subset (elements : List Nat) (e : Expr) :
    e.roots elements ⊆ elements := by
  induction e using induction_children with
  | h e ih =>
      by_cases hid : e.id ∈ elements
      · rw [roots_of_mem hid]
        exact List.cons_subset.mpr ⟨hid, List.nil_subset elements⟩
      · rw [roots_of_not_mem hid]
        intro node hnode
        obtain ⟨c, hc, hmem⟩ := List.mem_flatMap.mp hnode
        exact ih c hc hmem

/-- Only those members of the set matter that are sub-expressions. -/
theorem roots_congr
    {others : List Nat} (h : ∀ x ∈ e.subexpressions, x.id ∈ others ↔ x.id ∈ elements) :
    e.roots others = e.roots elements := by
  induction e using induction_children with
  | h e ih =>
      have hself := h e (mem_subexpressions_iff.mpr (Or.inl rfl))
      by_cases hid : e.id ∈ elements
      · rw [roots_of_mem hid, roots_of_mem (hself.mpr hid)]
      · have hid' : e.id ∉ others := fun hmem => hid (hself.mp hmem)
        rw [roots_of_not_mem hid, roots_of_not_mem hid']
        apply List.flatMap_congr
        intro c hc
        apply ih c hc
        intro x hx
        exact h x (mem_subexpressions_iff.mpr (Or.inr ⟨c, hc, hx⟩))

/-- Nothing around the sub-expression is in the set. -/
def Exposes (elements : List Nat) (e t : Expr) : Prop :=
  ∀ around ∈ e.subexpressions, t ∈ around.subexpressions → around ≠ t →
    around.id ∉ elements

/-- What is exposed in an expression that is not in the set itself is exposed around it. -/
theorem Exposes.around
    {c : Expr} (hnodes : e.nodes.Nodup) (hc : c ∈ e.children) (ht : t ∈ c.subexpressions)
    (hid : e.id ∉ elements) (h : Exposes elements c t) :
    Exposes elements e t := by
  intro around haround hinside hne
  by_cases heq : around = e
  · rw [heq]
    exact hid
  · have hmem : t.id ∈ c.nodes := nodes_subset_of_mem_subexpressions ht t.id_mem_nodes
    have hmem' : t.id ∈ around.nodes :=
      nodes_subset_of_mem_subexpressions hinside t.id_mem_nodes
    exact h around (mem_subexpressions_child hnodes hc hmem haround hmem' heq) hinside hne

theorem exposes_self (elements : List Nat) (e : Expr) :
    Exposes elements e e := by
  intro around haround hinside hne
  exact absurd (eq_of_mem_subexpressions haround hinside) hne

/-- A value that is found with one entry only is found as often as it is there. -/
theorem count_flatMap_of_nodup
    {α : Type} {f g : α → List Nat} (hsub : ∀ a, g a ⊆ f a)
    {as : List α} (hnodup : (as.flatMap f).Nodup)
    {a : α} (ha : a ∈ as) {node : Nat} (hnode : node ∈ f a) :
    (as.flatMap g).count node = (g a).count node := by
  obtain ⟨before, after, rfl⟩ := List.append_of_mem ha
  rw [List.flatMap_append, List.flatMap_cons] at hnodup
  obtain ⟨-, hrest, hbefore⟩ := List.nodup_append.mp hnodup
  obtain ⟨-, -, hafter⟩ := List.nodup_append.mp hrest
  have hbefore' : node ∉ before.flatMap g := by
    intro hmem
    obtain ⟨b, hb, hmem⟩ := List.mem_flatMap.mp hmem
    exact hbefore node (List.mem_flatMap.mpr ⟨b, hb, hsub b hmem⟩) node
      (List.mem_append_left _ hnode) rfl
  have hafter' : node ∉ after.flatMap g := by
    intro hmem
    obtain ⟨b, hb, hmem⟩ := List.mem_flatMap.mp hmem
    exact hafter node hnode node (List.mem_flatMap.mpr ⟨b, hb, hsub b hmem⟩) rfl
  rw [List.flatMap_append, List.flatMap_cons, List.count_append, List.count_append,
    List.count_eq_zero_of_not_mem hbefore', List.count_eq_zero_of_not_mem hafter',
    Nat.zero_add, Nat.add_zero]

section Nodup

variable (hnodes : e.nodes.Nodup)

include hnodes

/-- Inside of an exposed sub-expression, the topmost nodes are those of the
sub-expression. -/
theorem count_roots
    (ht : t ∈ e.subexpressions) (hexposed : Exposes elements e t)
    {node : Nat} (hnode : node ∈ t.nodes) :
    (e.roots elements).count node = (t.roots elements).count node := by
  induction e using induction_children with
  | h e ih =>
      rcases mem_subexpressions_iff.mp ht with rfl | ⟨c, hc, htc⟩
      · rfl
      · have hne : e ≠ t := by
          rintro rfl
          exact id_not_mem_nodes_child hnodes hc
            (nodes_subset_of_mem_subexpressions htc e.id_mem_nodes)
        have hid : e.id ∉ elements := hexposed e e.self_mem_subexpressions ht hne
        have hexposed' : Exposes elements c t := by
          intro around haround
          exact hexposed around (mem_subexpressions_iff.mpr (Or.inr ⟨c, hc, haround⟩))
        have hmem : node ∈ c.nodes := nodes_subset_of_mem_subexpressions htc hnode
        rw [roots_of_not_mem hid, count_flatMap_of_nodup (roots_subset_nodes elements)
          (nodup_flatMap_nodes_children hnodes) hc hmem]
        exact ih c hc (nodup_nodes_child hnodes hc) htc hexposed'

/-- Around a node of the set there is an exposed one. -/
theorem exists_exposed
    (hx : x ∈ e.subexpressions) (hid : x.id ∈ elements) :
    ∃ top ∈ e.subexpressions, x ∈ top.subexpressions ∧ top.id ∈ elements ∧
      Exposes elements e top := by
  induction e using induction_children with
  | h e ih =>
      by_cases hself : e.id ∈ elements
      · exact ⟨e, e.self_mem_subexpressions, hx, hself, exposes_self elements e⟩
      · rcases mem_subexpressions_iff.mp hx with rfl | ⟨c, hc, hxc⟩
        · exact absurd hid hself
        obtain ⟨top, htop, hxtop, htopid, hexposed⟩ :=
          ih c hc (nodup_nodes_child hnodes hc) hxc
        exact ⟨top, mem_subexpressions_iff.mpr (Or.inr ⟨c, hc, htop⟩), hxtop, htopid,
          hexposed.around hnodes hc htop hself⟩

/-- Around a node of the set one expression is topmost, and it hides everything inside. -/
theorem exists_count_roots
    (hx : x ∈ e.subexpressions) (hid : x.id ∈ elements) :
    ∃ top ∈ e.subexpressions, x ∈ top.subexpressions ∧ top.id ∈ elements ∧
      Exposes elements e top ∧
        ∀ node ∈ top.nodes, (e.roots elements).count node = if node = top.id then 1 else 0 := by
  obtain ⟨top, htop, hxtop, htopid, hexposed⟩ := exists_exposed hnodes hx hid
  refine ⟨top, htop, hxtop, htopid, hexposed, fun node hnode => ?_⟩
  rw [count_roots hnodes htop hexposed hnode, roots_of_mem htopid,
    (List.nodup_singleton top.id).count]
  simp only [List.mem_singleton]

/-- The topmost nodes are those of the set around which there is no other one. -/
theorem mem_roots_iff {node : Nat} :
    node ∈ e.roots elements ↔
      ∃ x ∈ e.subexpressions, x.id = node ∧ node ∈ elements ∧ Exposes elements e x := by
  constructor
  · intro hnode
    induction e using induction_children with
    | h e ih =>
        by_cases hid : e.id ∈ elements
        · rw [roots_of_mem hid] at hnode
          obtain rfl := List.mem_singleton.mp hnode
          exact ⟨e, e.self_mem_subexpressions, rfl, hid, exposes_self elements e⟩
        · rw [roots_of_not_mem hid] at hnode
          obtain ⟨c, hc, hnode⟩ := List.mem_flatMap.mp hnode
          obtain ⟨x, hx, hxid, hmem, hexposed⟩ := ih c hc (nodup_nodes_child hnodes hc) hnode
          exact ⟨x, mem_subexpressions_iff.mpr (Or.inr ⟨c, hc, hx⟩), hxid, hmem,
            hexposed.around hnodes hc hx hid⟩
  · rintro ⟨x, hx, rfl, hmem, hexposed⟩
    rw [← List.count_pos_iff, count_roots hnodes hx hexposed x.id_mem_nodes, roots_of_mem hmem]
    exact List.count_pos_iff.mpr (List.mem_singleton_self x.id)

/-- None of the topmost nodes lies inside another. -/
theorem eq_of_mem_roots
    {y : Expr} (hx : x ∈ e.subexpressions) (hy : y ∈ e.subexpressions)
    (hxid : x.id ∈ e.roots elements) (hyid : y.id ∈ e.roots elements)
    (hinside : x ∈ y.subexpressions) :
    x = y := by
  obtain ⟨x', hx', hid, -, hexposed⟩ := (mem_roots_iff hnodes).mp hxid
  obtain rfl := eq_of_id_eq hnodes hx' hx hid
  by_contra hne
  exact hexposed y hy hinside (Ne.symm hne) (roots_subset elements e hyid)

/-- A member of the set lies inside of exactly one topmost node. -/
theorem existsUnique_roots
    (hx : x ∈ e.subexpressions) (hid : x.id ∈ elements) :
    ∃! top, top ∈ e.subexpressions ∧ x ∈ top.subexpressions ∧ top.id ∈ e.roots elements := by
  obtain ⟨top, htop, hxtop, htopid, hexposed⟩ := exists_exposed hnodes hx hid
  have hroot : top.id ∈ e.roots elements :=
    (mem_roots_iff hnodes).mpr ⟨top, htop, rfl, htopid, hexposed⟩
  refine ⟨top, ⟨htop, hxtop, hroot⟩, ?_⟩
  rintro other ⟨hother, hxother, hotherRoot⟩
  have hnode := nodes_subset_of_mem_subexpressions hxtop x.id_mem_nodes
  have hnode' := nodes_subset_of_mem_subexpressions hxother x.id_mem_nodes
  rcases mem_subexpressions_or_mem_subexpressions hnodes htop hother hnode hnode' with hin | hin
  · exact (eq_of_mem_roots hnodes htop hother hroot hotherRoot hin).symm
  · exact eq_of_mem_roots hnodes hother htop hotherRoot hroot hin

/-- The topmost nodes of the topmost nodes are all of them. -/
theorem mem_roots_roots_iff {node : Nat} :
    node ∈ e.roots (e.roots elements) ↔ node ∈ e.roots elements := by
  constructor
  · intro hnode
    exact roots_subset _ e hnode
  · intro hnode
    obtain ⟨x, hx, rfl, -, -⟩ := (mem_roots_iff hnodes).mp hnode
    refine (mem_roots_iff hnodes).mpr ⟨x, hx, rfl, hnode, ?_⟩
    intro around haround hinside hne hmem
    exact hne (eq_of_mem_roots hnodes hx haround hnode hmem hinside).symm

end Nodup

end Expr

end DeclAnalysis
