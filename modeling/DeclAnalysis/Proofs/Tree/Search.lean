import Mathlib.Data.List.Sort
import DeclAnalysis.Proofs.Tree.Preorder
import DeclAnalysis.Proofs.Tree.Roots

/-!
# Searching for topmost nodes

The topmost nodes of a set are also found by a search that keeps the expressions still to be looked
at on a stack. It puts the children of an expression on the stack as soon as the expression turns
out not to be in the set, and leaves them out otherwise.
-/

namespace DeclAnalysis

/-- A search that is under way: the expressions still to be looked at, the next one first, and the
nodes that have been found. -/
structure Search where
  stack : List Expr
  found : List Nat

namespace Search

/-- The search at its outset. -/
def of (e : Expr) : Search := ⟨[e], []⟩

/-- Looks at the next expression. -/
def step (elements : List Nat) (s : Search) : Search :=
  match s.stack with
  | [] => s
  | e :: rest =>
    if e.id ∈ elements then ⟨rest, s.found ++ [e.id]⟩ else ⟨e.children ++ rest, s.found⟩

/-- What the search finds in the end: what it has found and what is topmost in the expressions
still to be looked at. -/
def outcome (elements : List Nat) (s : Search) : List Nat :=
  s.found ++ s.stack.flatMap (Expr.roots elements)

theorem outcome_step (elements : List Nat) (s : Search) :
    (s.step elements).outcome elements = s.outcome elements := by
  obtain ⟨stack, found⟩ := s
  cases stack with
  | nil => rfl
  | cons e rest =>
      by_cases hid : e.id ∈ elements
      · simp only [step, outcome, if_pos hid, List.flatMap_cons, Expr.roots_of_mem hid,
          List.append_assoc]
      · simp only [step, outcome, if_neg hid, List.flatMap_append, List.flatMap_cons,
          Expr.roots_of_not_mem hid]

theorem nodeCountOf_append (es es' : List Expr) :
    Expr.nodeCountOf (es ++ es') = Expr.nodeCountOf es + Expr.nodeCountOf es' := by
  induction es with
  | nil => exact (Nat.zero_add _).symm
  | cons e rest ih => rw [List.cons_append, Expr.nodeCountOf, Expr.nodeCountOf, ih, Nat.add_assoc]

/-- Every look leaves fewer nodes. -/
theorem nodeCountOf_step_lt
    (elements : List Nat) {s : Search} (h : s.stack ≠ []) :
    Expr.nodeCountOf (s.step elements).stack < Expr.nodeCountOf s.stack := by
  obtain ⟨stack, found⟩ := s
  cases stack with
  | nil => exact absurd rfl h
  | cons e rest =>
      have hlt := e.nodeCountOf_children_lt
      by_cases hid : e.id ∈ elements
      · simp only [step, if_pos hid, Expr.nodeCountOf]
        omega
      · simp only [step, if_neg hid, nodeCountOf_append, Expr.nodeCountOf]
        omega

/-- After as many looks as there are nodes left, or more, the search is over. -/
theorem iterate_step
    {elements : List Nat} {s : Search} {k : Nat} (hk : Expr.nodeCountOf s.stack ≤ k) :
    (step elements)^[k] s = ⟨[], s.outcome elements⟩ := by
  induction k generalizing s with
  | zero =>
      obtain ⟨stack, found⟩ := s
      cases stack with
      | nil => simp [outcome]
      | cons e rest =>
          have hlt := e.nodeCountOf_children_lt
          rw [Expr.nodeCountOf] at hk
          omega
  | succ k ih =>
      rw [Function.iterate_succ_apply, ← outcome_step]
      apply ih
      by_cases hstack : s.stack = []
      · simp [step, hstack, Expr.nodeCountOf]
      · have hlt := nodeCountOf_step_lt elements hstack
        omega

theorem iterate_step_of
    (elements : List Nat) {e : Expr} {k : Nat} (hk : e.nodeCount ≤ k) :
    (step elements)^[k] (of e) = ⟨[], e.roots elements⟩ := by
  rw [iterate_step (by simpa [of, Expr.nodeCountOf] using hk)]
  simp [outcome, of]

end Search

namespace SourceFile

variable {file : SourceFile} (hfile : file.Obtained) {e : Expr} (he : Node.expr e ∈ file.nodes)

include hfile he

/-- However a set of nodes is given, the search in an expression of a file ends after at most as
many looks as there are nodes in the expression. What it finds are, once each and in increasing
order, the sub-expressions that are in the set and inside no other one that is in the set. None of
them is inside another, and every sub-expression that is in the set is inside exactly one of them or
is it. Members of the set that are no sub-expressions play no part, and a search for what has been
found finds the same again. -/
theorem search_finds_topmost (elements : List Nat) :
    (∀ k, e.nodeCount ≤ k →
      (Search.step elements)^[k] (Search.of e) = ⟨[], e.roots elements⟩) ∧
    (e.roots elements).Pairwise (· < ·) ∧
    (∀ node, node ∈ e.roots elements ↔
      ∃ x ∈ e.subexpressions, x.id = node ∧ node ∈ elements ∧
        ∀ around ∈ e.subexpressions, x ∈ around.subexpressions → around ≠ x →
          around.id ∉ elements) ∧
    (∀ x ∈ e.subexpressions, ∀ y ∈ e.subexpressions, x.id ∈ e.roots elements →
      y.id ∈ e.roots elements → x ∈ y.subexpressions → x = y) ∧
    (∀ x ∈ e.subexpressions, x.id ∈ elements →
      ∃! top, top ∈ e.subexpressions ∧ x ∈ top.subexpressions ∧ top.id ∈ e.roots elements) ∧
    (∀ others : List Nat, (∀ x ∈ e.subexpressions, x.id ∈ others ↔ x.id ∈ elements) →
      e.roots others = e.roots elements) ∧
    e.roots (e.roots elements) = e.roots elements := by
  have hnodes := hfile.nodup_nodes_expr he
  have hsorted (others : List Nat) : (e.roots others).Pairwise (· < ·) :=
    (hfile.pairwise_nodes_expr he).sublist (Expr.roots_sublist_nodes others e)
  refine ⟨?_, hsorted elements, ?_, ?_, ?_, ?_, ?_⟩
  · intro k hk
    exact Search.iterate_step_of elements hk
  · intro node
    exact Expr.mem_roots_iff hnodes
  · intro x hx y hy hxid hyid hinside
    exact Expr.eq_of_mem_roots hnodes hx hy hxid hyid hinside
  · intro x hx hid
    exact Expr.existsUnique_roots hnodes hx hid
  · intro others hothers
    exact Expr.roots_congr hothers
  · apply (hsorted _).eq_of_mem_iff (hsorted _)
    intro node
    exact Expr.mem_roots_roots_iff hnodes

omit hfile he

/-- The body of a function after numbering: a block around the return of a constant, a call and a
constant. -/
def numberedBlock : Expr :=
  .block 2
    [.ret 3 (some (.constant 4 (.int 1))), .call 5 "g" [.constant 6 (.int 2)],
      .constant 7 (.int 3)]

/-- The constant that the call is given is hidden by the call, and there is no node 9. -/
theorem search_finds_topmost_numberedBlock :
    let file := ofDeclarations "test" [.functionDecl { name := "f", body := some numberedBlock }]
    file.Obtained ∧ Node.expr numberedBlock ∈ file.nodes ∧
      (Search.step [9, 7, 6, 5])^[6] (Search.of numberedBlock) = ⟨[], [5, 7]⟩ ∧
      numberedBlock.roots [5, 6, 7] = [5, 7] ∧
      numberedBlock.roots [5, 7] = [5, 7] := by
  intro file
  have hfile : file.Obtained := .ofDeclarations ..
  have he : Node.expr numberedBlock ∈ file.nodes := by
    apply List.mem_flatMap.mpr
    refine ⟨_, List.mem_singleton_self _, Node.mem_preorder_of_mem_children ?_⟩
    exact List.mem_singleton_self _
  obtain ⟨hends, -, -, -, -, hothers, hagain⟩ := search_finds_topmost hfile he [9, 7, 6, 5]
  have hroots : numberedBlock.roots [9, 7, 6, 5] = [5, 7] := by decide
  rw [hroots] at hends hothers hagain
  refine ⟨hfile, he, hends 6 (by decide), hothers _ ?_, hagain⟩
  simp [numberedBlock, Expr.subexpressions, Expr.subexpressionsOf, Expr.id]

end SourceFile

end DeclAnalysis
