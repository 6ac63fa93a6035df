import DeclAnalysis.Proofs.Flow.Tails
import DeclAnalysis.Proofs.Tree.Contents

/-!
# Where values go

The value of a sub-expression goes to the place where it stands, or out of the body. A place
that demands a type is a condition, an assigned variable or an initializer; its value is not the
last one of the body, nor is it handed over by a `return`. So no node is a last step of a body
and at the same time one whose place demands a type.
-/

namespace DeclAnalysis

/-- The steps and the demanded nodes are among the nodes of a piece of tree, and no step is that
of a demanded node. -/
structure Undemanded (steps : List Step) (demanded nodes : List Nat) : Prop where
  element_mem : ∀ s ∈ steps, s.element ∈ nodes
  subset : demanded ⊆ nodes
  not_mem : ∀ s ∈ steps, s.element ∉ demanded

namespace Undemanded

variable {steps steps' : List Step} {demanded demanded' nodes nodes' : List Nat}

theorem of_subset (h : demanded ⊆ nodes) : Undemanded [] demanded nodes := ⟨nofun, h, nofun⟩

theorem mono
    (h : Undemanded steps demanded nodes) (hdemanded : demanded' ⊆ demanded)
    (hnodes : nodes ⊆ nodes') : Undemanded steps demanded' nodes' :=
  ⟨fun s hs => hnodes (h.element_mem s hs), fun _ hnode => hnodes (h.subset (hdemanded hnode)),
    fun s hs hmem => h.not_mem s hs (hdemanded hmem)⟩

theorem plain (h : Undemanded steps (demanded' ++ demanded) nodes) :
    Undemanded steps demanded nodes :=
  h.mono (List.subset_append_right ..) (List.Subset.refl _)

/-- Two pieces of tree without a common node. -/
theorem append
    (h : Undemanded steps demanded nodes) (h' : Undemanded steps' demanded' nodes')
    (hdisjoint : ∀ a ∈ nodes, ∀ b ∈ nodes', a ≠ b) :
    Undemanded (steps ++ steps') (demanded ++ demanded') (nodes ++ nodes') := by
  refine ⟨fun s hs => ?_, fun node hnode => ?_, fun s hs hmem => ?_⟩
  · rcases List.mem_append.mp hs with hs | hs
    · exact List.mem_append_left _ (h.element_mem s hs)
    · exact List.mem_append_right _ (h'.element_mem s hs)
  · rcases List.mem_append.mp hnode with hnode | hnode
    · exact List.mem_append_left _ (h.subset hnode)
    · exact List.mem_append_right _ (h'.subset hnode)
  · rcases List.mem_append.mp hs with hs | hs
    · rcases List.mem_append.mp hmem with hmem | hmem
      · exact h.not_mem s hs hmem
      · exact hdisjoint _ (h.element_mem s hs) _ (h'.subset hmem) rfl
    · rcases List.mem_append.mp hmem with hmem | hmem
      · exact hdisjoint _ (h.subset hmem) _ (h'.element_mem s hs) rfl
      · exact h'.not_mem s hs hmem

/-- Steps of the same piece of tree. -/
theorem join
    (h : Undemanded steps demanded nodes) (h' : Undemanded steps' demanded nodes) :
    Undemanded (steps ++ steps') demanded nodes := by
  refine ⟨fun s hs => ?_, h.subset, fun s hs => ?_⟩
  · exact (List.mem_append.mp hs).elim (h.element_mem s) (h'.element_mem s)
  · exact (List.mem_append.mp hs).elim (h.not_mem s) (h'.not_mem s)

variable {id : Nat} (hid : id ∉ nodes)

include hid

/-- The step of a node of which nothing is demanded. -/
theorem concat (h : Undemanded steps demanded nodes) (kind : StepKind) :
    Undemanded (steps ++ [⟨kind, id⟩]) demanded (id :: nodes) := by
  have hself : Undemanded [⟨kind, id⟩] demanded (id :: nodes) := by
    refine ⟨fun s hs => ?_, fun _ hnode => List.mem_cons_of_mem _ (h.subset hnode), fun s hs => ?_⟩
    · rw [List.mem_singleton.mp hs]
      exact List.mem_cons_self
    · rw [List.mem_singleton.mp hs]
      exact fun hmem => hid (h.subset hmem)
  exact (h.mono (List.Subset.refl _) (List.subset_cons_self ..)).join hself

/-- A node of which something is demanded, but which is itself no step. -/
theorem cons (h : Undemanded steps demanded nodes) :
    Undemanded steps (id :: demanded) (id :: nodes) := by
  refine ⟨fun s hs => List.mem_cons_of_mem _ (h.element_mem s hs),
    List.cons_subset_cons _ h.subset, fun s hs hmem => ?_⟩
  rcases List.mem_cons.mp hmem with rfl | hmem
  · exact hid (h.element_mem s hs)
  · exact h.not_mem s hs hmem

end Undemanded

namespace Expr

mutual

/-- The last step of an expression may be demanded only by the place of the expression itself. -/
theorem undemanded_tails (inBody : Bool) {e : Expr} (hnodes : e.nodes.Nodup) :
    Undemanded (e.tails inBody) e.demands e.nodes := by
  have hempty : ∀ {e : Expr}, Undemanded [] e.demands e.nodes :=
    fun {e} => .of_subset e.demands_subset_nodes
  have hself : ∀ {e : Expr} (kind : StepKind), e.nodes.Nodup →
      Undemanded [⟨kind, e.id⟩] e.demands e.nodes := by
    intro e kind hnodes
    rw [nodes_eq_cons] at hnodes ⊢
    exact (Undemanded.of_subset e.demands_subset_tail).concat (List.nodup_cons.mp hnodes).1 kind
  match e with
  | constant .. | name .. | dot .. | call .. | binary .. | whileLoop .. | doWhileLoop ..
  | assign .. | localVariable .. | lambda .. => exact hself _ hnodes
  | breakLoop _ | continueLoop _ =>
      cases inBody with
      | true => exact hempty
      | false => exact hself _ hnodes
  | ret .. => exact hempty
  | block _ statements => exact undemanded_blockTails inBody statements hnodes
  | cond _ condition thenBranch none =>
      simp only [nodes, List.nodup_cons, List.nodup_append] at hnodes
      have hcondition : Undemanded [] _ condition.nodes :=
        .of_subset (condition.demanded_subset condition.demands_subset_tail)
      have hthen := undemanded_tails inBody hnodes.2.2.1
      exact (hcondition.append hthen hnodes.2.2.2).concat hnodes.1 _
  | cond _ condition thenBranch (some elseBranch) =>
      simp only [nodes, List.nodup_cons, List.nodup_append] at hnodes
      have hcondition : Undemanded [] _ condition.nodes :=
        .of_subset (condition.demanded_subset condition.demands_subset_tail)
      have hthen := undemanded_tails inBody hnodes.2.1.2.1
      have helse := undemanded_tails inBody hnodes.2.2.1
      exact ((hcondition.append hthen hnodes.2.1.2.2).append helse hnodes.2.2.2).mono
        (List.Subset.refl _) (List.subset_cons_self ..)

theorem undemanded_blockTails
    (inBody : Bool) {id : Nat} (es : List Expr) (hnodes : (id :: nodesOf es).Nodup) :
    Undemanded (blockTails inBody id es) (demandsOf es) (id :: nodesOf es) := by
  match es with
  | [] => exact (Undemanded.of_subset (List.nil_subset _)).concat List.not_mem_nil _
  | [last] =>
      simp only [nodesOf, demandsOf, List.append_nil, List.nodup_cons] at hnodes ⊢
      exact (undemanded_tails inBody hnodes.2).mono (List.Subset.refl _) (List.subset_cons_self ..)
  | first :: second :: rest =>
      obtain ⟨hid, hstatements⟩ := List.nodup_cons.mp hnodes
      obtain ⟨hfirst, hrest, hdisjoint⟩ := List.nodup_append.mp hstatements
      have hfresh : id ∉ nodesOf (second :: rest) := fun hmem => hid (List.mem_append_right _ hmem)
      have hlast := undemanded_blockTails inBody (second :: rest)
        (List.nodup_cons.mpr ⟨hfresh, hrest⟩)
      have happend := (Undemanded.of_subset first.demands_subset_nodes).append hlast
        fun a ha b hb heq => ?_
      · refine happend.mono (List.Subset.refl _) ?_
        simp only [nodesOf, List.append_subset, List.cons_subset]
        grind
      · rcases List.mem_cons.mp hb with rfl | hb
        · exact hid (heq ▸ List.mem_append_left _ ha)
        · exact hdisjoint a ha b hb heq

end

mutual

/-- What a `return` in an expression hands over is demanded neither in the expression nor by the
place of the expression. -/
theorem undemanded_finals (inBody : Bool) {e : Expr} (hnodes : e.nodes.Nodup) :
    Undemanded (e.finals inBody) (e.demand ++ e.demands) e.nodes := by
  match e with
  | constant .. | name .. | lambda .. | breakLoop _ | continueLoop _ | block _ []
  | localVariable _ _ _ _ none =>
      exact .of_subset (demanded_subset _ (demands_subset_tail _))
  | dot id receiver _ =>
      obtain ⟨hid, hreceiver⟩ := List.nodup_cons.mp hnodes
      exact (undemanded_finals inBody hreceiver).plain.cons hid
  | ret id none => exact (Undemanded.of_subset (List.nil_subset _)).concat List.not_mem_nil _
  | ret _ (some value) =>
      obtain ⟨-, hvalue⟩ := List.nodup_cons.mp hnodes
      have hfinals := (undemanded_finals inBody hvalue).plain
      exact (hfinals.join (undemanded_tails inBody hvalue)).mono (List.Subset.refl _)
        (List.subset_cons_self ..)
  | block id (first :: rest) =>
      obtain ⟨hid, hstatements⟩ := List.nodup_cons.mp hnodes
      exact (undemanded_finalsAll inBody (first :: rest) hstatements).cons hid
  | call id _ arguments =>
      obtain ⟨hid, harguments⟩ := List.nodup_cons.mp hnodes
      exact (undemanded_finalsAll inBody arguments harguments).cons hid
  | cond _ condition thenBranch none =>
      simp only [nodes, List.nodup_cons, List.nodup_append] at hnodes
      have hcondition := undemanded_finals inBody hnodes.2.1
      have hthen := (undemanded_finals inBody hnodes.2.2.1).plain
      exact (hcondition.append hthen hnodes.2.2.2).cons hnodes.1
  | cond _ condition thenBranch (some elseBranch) =>
      simp only [nodes, List.nodup_cons, List.nodup_append] at hnodes
      have hcondition := undemanded_finals inBody hnodes.2.1.1
      have hthen := (undemanded_finals inBody hnodes.2.1.2.1).plain
      have helse := (undemanded_finals inBody hnodes.2.2.1).plain
      exact ((hcondition.append hthen hnodes.2.1.2.2).append helse hnodes.2.2.2).cons hnodes.1
  | whileLoop _ condition body =>
      simp only [nodes, List.nodup_cons, List.nodup_append] at hnodes
      have hcondition := undemanded_finals inBody hnodes.2.1
      have hbody := (undemanded_finals true hnodes.2.2.1).plain
      exact (hcondition.append hbody hnodes.2.2.2).cons hnodes.1
  | doWhileLoop _ body condition =>
      simp only [nodes, List.nodup_cons, List.nodup_append] at hnodes
      have hbody := (undemanded_finals true hnodes.2.1).plain
      have hcondition := undemanded_finals inBody hnodes.2.2.1
      exact (hbody.append hcondition hnodes.2.2.2).cons hnodes.1
  | binary _ _ left right =>
      simp only [nodes, List.nodup_cons, List.nodup_append] at hnodes
      have hleft := (undemanded_finals inBody hnodes.2.1).plain
      have hright := (undemanded_finals inBody hnodes.2.2.1).plain
      exact (hleft.append hright hnodes.2.2.2).cons hnodes.1
  | assign _ target value =>
      simp only [nodes, List.nodup_cons, List.nodup_append] at hnodes
      have htarget := undemanded_receiverFinals inBody hnodes.2.1
      have hvalue := undemanded_finals inBody hnodes.2.2.1
      exact (htarget.append hvalue hnodes.2.2.2).cons hnodes.1
  | localVariable _ _ _ _ (some initializer) =>
      simp only [nodes, List.nodup_cons, List.nodup_append] at hnodes
      have hinitializer := undemanded_finals inBody hnodes.2.2.1
      exact (hinitializer.mono (List.Subset.refl _) (List.subset_append_right ..)).cons hnodes.1

theorem undemanded_finalsAll (inBody : Bool) (es : List Expr) (hnodes : (nodesOf es).Nodup) :
    Undemanded (finalsAll inBody es) (demandsOf es) (nodesOf es) := by
  match es with
  | [] => exact .of_subset (List.nil_subset _)
  | e :: rest =>
      obtain ⟨hfirst, hrest, hdisjoint⟩ := List.nodup_append.mp hnodes
      exact (undemanded_finals inBody hfirst).plain.append
        (undemanded_finalsAll inBody rest hrest) hdisjoint

theorem undemanded_receiverFinals (inBody : Bool) {e : Expr} (hnodes : e.nodes.Nodup) :
    Undemanded (receiverFinals inBody e) e.demands e.nodes := by
  match e with
  | dot _ receiver _ =>
      obtain ⟨-, hreceiver⟩ := List.nodup_cons.mp hnodes
      exact (undemanded_finals inBody hreceiver).plain.mono (List.Subset.refl _)
        (List.subset_cons_self ..)
  | constant .. | name .. | lambda .. | breakLoop _ | continueLoop _ | block .. | cond ..
  | whileLoop .. | doWhileLoop .. | ret .. | binary .. | assign .. | call ..
  | localVariable .. => exact .of_subset (demands_subset_nodes _)

end

/-- The nodes of the last steps of a body, whether or not any execution reaches them. -/
def lastNodes (body : Expr) : List Nat := (body.tails false ++ body.finals false).map Step.element

theorem lastNodes_subset {body : Expr} (hnodes : body.nodes.Nodup) :
    body.lastNodes ⊆ body.nodes := by
  intro node hnode
  obtain ⟨s, hs, rfl⟩ := List.mem_map.mp hnode
  exact ((undemanded_tails false hnodes).join (undemanded_finals false hnodes).plain).element_mem s hs

/-- No type is demanded of a last step of a body. -/
theorem not_mem_lastNodes_of_mem_demands
    {body : Expr} (hnodes : body.nodes.Nodup) {node : Nat} (h : node ∈ body.demands) :
    node ∉ body.lastNodes := by
  intro hlast
  obtain ⟨s, hs, rfl⟩ := List.mem_map.mp hlast
  exact ((undemanded_tails false hnodes).join (undemanded_finals false hnodes).plain).not_mem s hs h

end Expr

end DeclAnalysis
