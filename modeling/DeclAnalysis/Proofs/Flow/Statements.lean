import Mathlib.Data.List.Flatten
import DeclAnalysis.Proofs.Flow.Operands
import DeclAnalysis.Proofs.Flow.Reachable
import DeclAnalysis.Proofs.Tree.Roots

/-!
# Statements after a return

A statement that follows a `return` in its block is never executed, nor is anything in it. Where
this shows is decided by the topmost nodes of the elements that are not executed. A block, a
condition or a loop has no element of its own but the unit value, so it is its parts that show;
any other statement shows itself, and hides its parts. All of this is hidden in turn if the block
lies in an expression that is itself not executed.
-/

namespace DeclAnalysis

namespace Expr

variable {inBody inner : Bool} {e x t : Expr} {s : Step} {missed : List Nat}

/-! ## Heads -/

/-- The expression consists of its parts: it has no value of its own except the unit value. -/
def isCompound : Expr → Bool
  | block .. | cond .. | whileLoop .. | doWhileLoop .. => true
  | _ => false

mutual

/-- The expressions by which an expression shows: those of its parts if it consists of parts,
and else the expression itself. -/
def heads : Expr → List Nat
  | block _ statements => headsOf statements
  | cond _ condition thenBranch none => condition.heads ++ thenBranch.heads
  | cond _ condition thenBranch (some elseBranch) =>
    condition.heads ++ thenBranch.heads ++ elseBranch.heads
  | whileLoop _ condition body => condition.heads ++ body.heads
  | doWhileLoop _ body condition => body.heads ++ condition.heads
  | constant id _ | name id _ | dot id _ _ | breakLoop id | continueLoop id | ret id _
  | binary id _ _ _ | assign id _ _ | call id _ _ | localVariable id _ _ _ _ | lambda id _ _ =>
    [id]

/-- The expressions by which several expressions show. -/
def headsOf : List Expr → List Nat
  | [] => []
  | e :: rest => e.heads ++ headsOf rest

end

theorem headsOf_eq_flatMap (es : List Expr) :
    headsOf es = es.flatMap heads := by
  induction es with
  | nil => rfl
  | cons e rest ih => rw [headsOf, ih, List.flatMap_cons]

theorem heads_of_isCompound (h : e.isCompound = true) :
    e.heads = e.children.flatMap heads := by
  match e with
  | block .. => exact headsOf_eq_flatMap _
  | cond _ _ _ none | cond _ _ _ (some _) | whileLoop .. | doWhileLoop .. =>
      simp [heads, children]

theorem heads_of_not_isCompound (h : e.isCompound = false) :
    e.heads = [e.id] := by
  cases e with
  | block | cond | whileLoop | doWhileLoop => cases h
  | _ => rfl

theorem heads_sublist_nodes (e : Expr) :
    e.heads.Sublist e.nodes := by
  induction e using induction_children with
  | h e ih =>
      cases hcompound : e.isCompound with
      | true =>
          rw [heads_of_isCompound hcompound]
          have hparts := List.Sublist.flatMap_right e.children ih
          exact (hparts.trans (flatMap_nodes_children_sublist e)).trans (List.tail_sublist _)
      | false =>
          rw [heads_of_not_isCompound hcompound, nodes_eq_cons]
          exact List.Sublist.cons_cons _ (List.nil_sublist _)

/-- What consists of its parts evaluates all of them. -/
theorem exists_mem_operands_of_isCompound
    (h : e.isCompound = true) {c : Expr} (hc : c ∈ e.children) :
    ∃ inner, (inner, c) ∈ e.operands inBody := by
  cases e with
  | block | cond => exact ⟨inBody, List.mem_map_of_mem hc⟩
  | whileLoop | doWhileLoop =>
      rcases List.mem_cons.mp hc with rfl | hc
      · exact ⟨_, List.mem_cons_self⟩
      · obtain rfl := List.mem_singleton.mp hc
        exact ⟨_, List.mem_cons_of_mem _ List.mem_cons_self⟩
  | _ => cases h

theorem kind_of_isCompound
    (h : e.isCompound = true) (hown : e.ownStep? inBody = some s) :
    s.kind = .readUnit := by
  match e with
  | block _ (_ :: _) | cond _ _ _ (some _) => cases hown
  | block _ [] | cond _ _ _ none | whileLoop .. | doWhileLoop .. =>
      obtain rfl := Option.some.inj hown
      rfl

theorem exists_ownStep?_of_not_isCompound (inBody : Bool) (h : e.isCompound = false) :
    ∃ s, e.ownStep? inBody = some s ∧ s.kind ≠ .readUnit := by
  match e with
  | constant .. | name .. | dot .. | ret _ none | ret _ (some _) | binary .. | assign ..
  | call .. | localVariable .. | lambda .. => exact ⟨_, rfl, nofun⟩
  | breakLoop _ | continueLoop _ => cases inBody <;> exact ⟨_, rfl, nofun⟩

/-- If everything that is evaluated is in the set, except for what consists of parts, then the
topmost nodes are the heads. -/
theorem roots_eq_heads
    (hcompound : ∀ x ∈ t.subexpressions, x.isCompound = true → x.id ∉ missed)
    (hplain : ∀ {x inner'}, t.Evaluates inner x inner' → x.isCompound = false → x.id ∈ missed) :
    t.roots missed = t.heads := by
  induction t using induction_children generalizing inner with
  | h t ih =>
      cases hparts : t.isCompound with
      | true =>
          rw [roots_of_not_mem (hcompound t t.self_mem_subexpressions hparts),
            heads_of_isCompound hparts]
          refine List.flatMap_congr fun c hc => ?_
          obtain ⟨inner', hoperand⟩ := exists_mem_operands_of_isCompound hparts hc
          refine ih c hc (fun x hx => ?_) fun hx => hplain (.operand hoperand hx)
          exact hcompound x (mem_subexpressions_iff.mpr (Or.inr ⟨c, hc, hx⟩))
      | false =>
          rw [roots_of_mem (hplain (.self t inner) hparts), heads_of_not_isCompound hparts]

/-! ## What is never executed -/

theorem mem_missed_iff {body : Expr} {node : Nat} :
    node ∈ body.missed ↔
      ∃ s ∈ body.steps false, s.kind ≠ .readUnit ∧ ¬(body.behaviour false).Performs s ∧
        s.element = node := by
  unfold missed
  simp only [List.mem_map, List.mem_filter, decide_eq_true_eq, and_assoc]

/-- What consists of its parts has no step that could be missed. -/
theorem id_not_mem_missed_of_isCompound
    {body : Expr} (hnodes : body.nodes.Nodup) (hx : x ∈ body.subexpressions)
    (hcompound : x.isCompound = true) :
    x.id ∉ body.missed := by
  intro hmem
  obtain ⟨s, hs, hkind, -, helement⟩ := mem_missed_iff.mp hmem
  obtain ⟨y, inner, hy, hown⟩ := mem_steps_iff.mp hs
  have hid : y.id = x.id := (element_of_ownStep? hown).symm.trans helement
  obtain rfl := eq_of_id_eq hnodes hy.mem_subexpressions hx hid
  exact hkind (kind_of_isCompound hcompound hown)

theorem not_ends_normal_ret (inBody : Bool) (id : Nat) (value : Option Expr) :
    ¬((ret id value).behaviour inBody).Ends .normal := by
  cases value <;> simp [behaviour]

/-- Nothing is performed after a statement that never ends normally. -/
theorem exists_performs_of_performs_behaviourAll_append
    {stmt : Expr} (hstmt : ¬(stmt.behaviour inBody).Ends .normal) {before after : List Expr}
    (h : (behaviourAll inBody (before ++ stmt :: after)).Performs s) :
    ∃ e ∈ before ++ [stmt], (e.behaviour inBody).Performs s := by
  induction before with
  | nil =>
      rcases Behaviour.performs_andThen.mp h with h | ⟨hends, -⟩
      · exact ⟨stmt, List.mem_cons_self, h⟩
      · exact absurd hends hstmt
  | cons e before ih =>
      rcases Behaviour.performs_andThen.mp h with h | ⟨-, h⟩
      · exact ⟨e, List.mem_cons_self, h⟩
      · obtain ⟨e', he', h⟩ := ih h
        exact ⟨e', List.mem_cons_of_mem _ he', h⟩

theorem behaviour_block_of_ne_nil (id : Nat) {statements : List Expr} (h : statements ≠ []) :
    (block id statements).behaviour inBody = behaviourAll inBody statements := by
  cases statements with
  | nil => exact absurd rfl h
  | cons first rest => rfl

/-- The step with which a return ends the body. -/
def returnStep (id : Nat) (value : Option Expr) : Step :=
  ⟨if value.isSome then .returnValue else .returnUnit, id⟩

/-- A sub-expression lies in an expression that is not executed. -/
def Hides (body x : Expr) : Prop :=
  ∃ around ∈ body.subexpressions, x ∈ around.subexpressions ∧ around.id ∈ body.missed

section AfterReturn

variable {body : Expr} (hnodes : body.nodes.Nodup) {id node : Nat} {value : Option Expr}
  {before after : List Expr}
  (hblock : block id (before ++ ret node value :: after) ∈ body.subexpressions) (ht : t ∈ after)

include hnodes hblock ht

/-- Nothing in a statement after a return is ever executed. -/
theorem not_performs_after_return (hs : s.element ∈ t.nodes) :
    ¬(body.behaviour inBody).Performs s := by
  intro hperforms
  have hchildren := nodup_flatMap_nodes_children (nodup_nodes_of_mem_subexpressions hnodes hblock)
  have hchild : t ∈ (block id (before ++ ret node value :: after)).children :=
    List.mem_append_right _ (List.mem_cons_of_mem _ ht)
  have hmem : s.element ∈ (block id (before ++ ret node value :: after)).nodes :=
    List.mem_of_mem_tail (nodes_child_subset hchild hs)
  obtain ⟨inner, h⟩ := exists_performs_of_performs hnodes hperforms hblock hmem rfl
  rw [behaviour_block_of_ne_nil id (by simp)] at h
  obtain ⟨e, he, h⟩ :=
    exists_performs_of_performs_behaviourAll_append (not_ends_normal_ret inner node value) h
  have hse := element_mem_nodes_of_mem_steps (mem_steps_of_performs h)
  -- The statements up to the return have no nodes in common with those after it.
  change ((before ++ ret node value :: after).flatMap nodes).Nodup at hchildren
  rw [List.append_cons, List.flatMap_append] at hchildren
  exact (List.nodup_append.mp hchildren).2.2 _ (List.mem_flatMap.mpr ⟨e, he, hse⟩) _
    (List.mem_flatMap.mpr ⟨t, ht, hs⟩) rfl

variable (hreached : (body.behaviour false).Performs (returnStep node value))

include hreached

/-- If the return is reached, the statements after it are evaluated as far as the structure of
the body goes. -/
theorem exists_evaluates_after_return :
    ∃ inner, body.Evaluates false t inner := by
  have hret : ret node value ∈ before ++ ret node value :: after :=
    List.mem_append_right _ List.mem_cons_self
  have hmem : node ∈ (block id (before ++ ret node value :: after)).nodes :=
    List.mem_of_mem_tail (nodes_child_subset hret (ret node value).id_mem_nodes)
  obtain ⟨inner, hinner⟩ := exists_evaluates_of_mem_steps hnodes (mem_steps_of_performs hreached)
    hblock hmem rfl
  have hoperand : (inner, t) ∈ (block id (before ++ ret node value :: after)).operands inner :=
    List.mem_map_of_mem (List.mem_append_right _ (List.mem_cons_of_mem _ ht))
  exact ⟨inner, hinner.trans (.operand hoperand (.self t inner))⟩

/-- Of a statement after a return that is reached, the heads are topmost. -/
theorem roots_missed_after_return :
    t.roots body.missed = t.heads := by
  obtain ⟨inner, ht'⟩ := exists_evaluates_after_return hnodes hblock ht hreached
  have hcompound : ∀ x ∈ t.subexpressions, x.isCompound = true → x.id ∉ body.missed :=
    fun x hx => id_not_mem_missed_of_isCompound hnodes
      (mem_subexpressions_trans hx ht'.mem_subexpressions)
  have hplain : ∀ {x inner'}, t.Evaluates inner x inner' → x.isCompound = false →
      x.id ∈ body.missed := by
    intro x inner' hx hplain
    obtain ⟨s, hown, hkind⟩ := exists_ownStep?_of_not_isCompound inner' hplain
    have helement := element_of_ownStep? hown
    have hsteps : s ∈ body.steps false :=
      (ht'.trans hx).steps_subset (mem_steps_cases.mpr (Or.inr hown))
    have hmem : s.element ∈ t.nodes := by
      rw [helement]
      exact nodes_subset_of_mem_subexpressions hx.mem_subexpressions x.id_mem_nodes
    exact mem_missed_iff.mpr
      ⟨s, hsteps, hkind, not_performs_after_return hnodes hblock ht hmem, helement⟩
  exact roots_eq_heads hcompound hplain

/-- Among the topmost elements that are not executed are the heads of a statement after a
return that is reached, each once, and nothing else in the statement. -/
theorem count_roots_missed_after_return
    (hopen : ¬body.Hides (block id (before ++ ret node value :: after)))
    {n : Nat} (hn : n ∈ t.nodes) :
    (body.roots body.missed).count n = if n ∈ t.heads then 1 else 0 := by
  have hchild : t ∈ (block id (before ++ ret node value :: after)).children :=
    List.mem_append_right _ (List.mem_cons_of_mem _ ht)
  have htblock : t ∈ (block id (before ++ ret node value :: after)).subexpressions :=
    mem_subexpressions_iff.mpr (Or.inr ⟨t, hchild, t.self_mem_subexpressions⟩)
  have htbody := mem_subexpressions_trans htblock hblock
  have hexposed : Exposes body.missed body t := by
    intro around haround hinside hne hmissed
    have hmem : t.id ∈ around.nodes :=
      nodes_subset_of_mem_subexpressions hinside t.id_mem_nodes
    have hmem' := nodes_subset_of_mem_subexpressions htblock t.id_mem_nodes
    rcases mem_subexpressions_or_mem_subexpressions hnodes haround hblock hmem hmem' with h | h
    · by_cases heq : around = block id (before ++ ret node value :: after)
      · exact hopen ⟨around, haround, heq ▸ around.self_mem_subexpressions, hmissed⟩
      · have hnodes' := nodup_nodes_of_mem_subexpressions hnodes hblock
        have hat := mem_subexpressions_child hnodes' hchild t.id_mem_nodes h hmem heq
        exact hne (eq_of_mem_subexpressions hat hinside)
    · exact hopen ⟨around, haround, h, hmissed⟩
  rw [count_roots hnodes htbody hexposed hn,
    roots_missed_after_return hnodes hblock ht hreached]
  have hnodup : t.heads.Nodup :=
    (heads_sublist_nodes t).nodup (nodup_nodes_of_mem_subexpressions hnodes htbody)
  exact hnodup.count

end AfterReturn

end Expr

end DeclAnalysis
