import Mathlib.Algebra.BigOperators.Group.Finset.Basic
import Mathlib.Algebra.Order.BigOperators.Group.Finset
import Mathlib.Combinatorics.Enumerative.DoubleCounting
import DeclAnalysis.Flow.Query
import DeclAnalysis.Proofs.Flow.Reachable

/-!
# Walking back from the exit

The walk looks at the exit and at every position that it finds to pass on a value
to a position that it has looked at. `Backs` describes these positions. Each of
them is looked at once, and what is noted are the sources of all of them.

The walk never stops because of its bound: a position is pushed at most once for
each edge that leads into a position not yet looked at, and a graph has at most
two edges for each instruction.
-/

namespace DeclAnalysis

namespace FlowGraph

open Finset

variable {g : FlowGraph} {reachable : Marks} {p q : Nat}

/-- The walk from the exit gets to the position. -/
inductive Backs (g : FlowGraph) (reachable : Marks) : Nat → Prop where
  | exit : Backs g reachable g.exit
  | source {p q : Nat} (hq : Backs g reachable q) (edge : p ∈ g.sources reachable q)
      (hp : g.passesOn p = true) : Backs g reachable p

theorem mem_sources :
    p ∈ g.sources reachable q ↔ q ∈ g.next p ∧ reachable.has p = true := by
  simp only [sources, previous, List.mem_filter, List.mem_range, decide_eq_true_eq]
  constructor
  · rintro ⟨⟨-, edge⟩, hp⟩
    exact ⟨edge, hp⟩
  · rintro ⟨edge, hp⟩
    exact ⟨⟨lt_size_of_mem_next edge, edge⟩, hp⟩

theorem nodup_sources (g : FlowGraph) (reachable : Marks) (p : Nat) :
    (g.sources reachable p).Nodup :=
  (List.nodup_range.filter _).filter _

/-! ## The number of edges -/

theorem length_next_le (g : FlowGraph) (p : Nat) : (g.next p).length ≤ 2 := by
  unfold next
  split
  · simp
  · simp
  · simp
  · simp
  · simp
  · dsimp only
    split <;> simp
  · simp

theorem length_sources_le (g : FlowGraph) (reachable : Marks) (p : Nat) :
    (g.sources reachable p).length ≤ #{q ∈ range g.size | p ∈ g.next q} := by
  have hsub : (g.sources reachable p).toFinset ⊆ {q ∈ range g.size | p ∈ g.next q} := by
    intro q hq
    obtain ⟨edge, -⟩ := mem_sources.mp (List.mem_toFinset.mp hq)
    rw [mem_filter, mem_range]
    exact ⟨lt_size_of_mem_next edge, edge⟩
  calc
    (g.sources reachable p).length = #(g.sources reachable p).toFinset :=
      (List.toFinset_card_of_nodup (nodup_sources g reachable p)).symm
    _ ≤ #{q ∈ range g.size | p ∈ g.next q} := card_le_card hsub

/-- Counted at their ends, the edges of a graph are at most two for each
instruction, because they are when counted at their starts. -/
theorem sum_length_sources_le (g : FlowGraph) (reachable : Marks) :
    ∑ p ∈ range g.size, (g.sources reachable p).length ≤ 2 * g.size := by
  calc
    ∑ p ∈ range g.size, (g.sources reachable p).length
        ≤ ∑ p ∈ range g.size, #{q ∈ range g.size | p ∈ g.next q} :=
      sum_le_sum fun p _ => length_sources_le g reachable p
    _ = ∑ q ∈ range g.size, #{p ∈ range g.size | p ∈ g.next q} :=
      sum_card_bipartiteAbove_eq_sum_card_bipartiteBelow fun p q => p ∈ g.next q
    _ ≤ ∑ _q ∈ range g.size, 2 := by
      refine sum_le_sum fun q _ => ?_
      have hsub : {p ∈ range g.size | p ∈ g.next q} ⊆ (g.next q).toFinset := by
        intro p hp
        exact List.mem_toFinset.mpr (mem_filter.mp hp).2
      exact (card_le_card hsub).trans
        ((List.toFinset_card_le _).trans (length_next_le g q))
    _ = 2 * g.size := by
      rw [sum_const_nat fun _ _ => rfl, card_range, Nat.mul_comm]

/-! ## The walk -/

/-- What is noted when the positions have been looked at in the order of the
list. -/
def noted (g : FlowGraph) (reachable : Marks) (order : List Nat) : ReturnedInformation :=
  ((order.flatMap (g.sources reachable)).filterMap (g.instructions[·]?)).foldl
    ReturnedInformation.add {}

theorem noted_concat (order : List Nat) :
    g.noted reachable (order ++ [p]) =
      ((g.sources reachable p).filterMap (g.instructions[·]?)).foldl ReturnedInformation.add
        (g.noted reachable order) := by
  simp [noted]

/-- What holds between two steps of the walk. -/
structure Walking (g : FlowGraph) (reachable : Marks) (pending : List Nat) (visited : Marks)
    (order : List Nat) : Prop where
  nodup : order.Nodup
  visited_iff : ∀ p, visited.has p = true ↔ g.size ≤ p ∨ p ∈ order
  inside : ∀ p ∈ pending, p < g.size
  sound : ∀ p, p ∈ pending ∨ p ∈ order → g.Backs reachable p
  started : g.exit ∈ pending ∨ g.exit ∈ order
  closed : ∀ p ∈ order, ∀ q ∈ g.sources reachable p, g.passesOn q = true →
    q ∈ pending ∨ q ∈ order

variable {pending order : List Nat} {visited : Marks}

theorem Walking.init (h : 0 < g.size) :
    Walking g reachable [g.exit] (Marks.none g.size) [] where
  nodup := List.nodup_nil
  visited_iff p := by simp [Marks.has_none]
  inside p hp := by
    obtain rfl := List.mem_singleton.mp hp
    exact Nat.sub_lt h Nat.one_pos
  sound p hp := by
    rcases hp with hp | hp
    · obtain rfl := List.mem_singleton.mp hp
      exact .exit
    · simp at hp
  started := Or.inl (List.mem_singleton_self _)
  closed p hp := by simp at hp

/-- A position that has been looked at before is dropped. -/
theorem Walking.skip (h : Walking g reachable (p :: pending) visited order)
    (hp : visited.has p = true) : Walking g reachable pending visited order := by
  have hmem : p ∈ order := by
    rcases (h.visited_iff p).mp hp with hle | hmem
    · exact absurd (h.inside p (by simp)) (Nat.not_lt.mpr hle)
    · exact hmem
  have hkeep : ∀ q, q ∈ p :: pending ∨ q ∈ order → q ∈ pending ∨ q ∈ order := by
    rintro q (hq | hq)
    · rcases List.mem_cons.mp hq with rfl | hq
      · exact Or.inr hmem
      · exact Or.inl hq
    · exact Or.inr hq
  refine ⟨h.nodup, h.visited_iff, fun q hq => h.inside q (by simp [hq]), fun q hq => ?_,
    hkeep _ h.started, fun r hr q hq hpass => hkeep q (h.closed r hr q hq hpass)⟩
  exact h.sound q (hq.imp_left (List.mem_cons_of_mem p))

/-- A new position is looked at, and those of its sources that pass on a value
become pending. -/
theorem Walking.visit (h : Walking g reachable (p :: pending) visited order)
    (hp : visited.has p = false) :
    Walking g reachable (((g.sources reachable p).filter g.passesOn).reverse ++ pending)
      (visited.insert p) (order ++ [p]) := by
  have hnew : p ∉ order := by
    intro hmem
    rw [(h.visited_iff p).mpr (Or.inr hmem)] at hp
    cases hp
  have hbacks : g.Backs reachable p := h.sound p (by simp)
  have hpending : ∀ q, q ∈ ((g.sources reachable p).filter g.passesOn).reverse ++ pending ↔
      (q ∈ g.sources reachable p ∧ g.passesOn q = true) ∨ q ∈ pending := by
    intro q
    rw [List.mem_append, List.mem_reverse, List.mem_filter]
  refine ⟨?_, fun q => ?_, fun q hq => ?_, fun q hq => ?_, ?_, fun r hr q hq hpass => ?_⟩
  · exact List.nodup_append.mpr ⟨h.nodup, by simp, by
      rintro a ha b hb rfl
      exact hnew (List.mem_singleton.mp hb ▸ ha)⟩
  · rw [Marks.has_insert, Bool.or_eq_true, decide_eq_true_eq, h.visited_iff, List.mem_append,
      List.mem_singleton]
    tauto
  · rcases (hpending q).mp hq with ⟨hq, -⟩ | hq
    · exact lt_size_of_mem_next (mem_sources.mp hq).1
    · exact h.inside q (List.mem_cons_of_mem p hq)
  · rcases hq with hq | hq
    · rcases (hpending q).mp hq with ⟨hq, hpass⟩ | hq
      · exact .source hbacks hq hpass
      · exact h.sound q (Or.inl (List.mem_cons_of_mem p hq))
    · rcases List.mem_append.mp hq with hq | hq
      · exact h.sound q (Or.inr hq)
      · exact List.mem_singleton.mp hq ▸ hbacks
  · rcases h.started with hq | hq
    · rcases List.mem_cons.mp hq with hq | hq
      · exact Or.inr (by simp [hq])
      · exact Or.inl ((hpending _).mpr (Or.inr hq))
    · exact Or.inr (by simp [hq])
  · rcases List.mem_append.mp hr with hr | hr
    · rcases h.closed r hr q hq hpass with hq | hq
      · rcases List.mem_cons.mp hq with rfl | hq
        · exact Or.inr (by simp)
        · exact Or.inl ((hpending q).mpr (Or.inr hq))
      · exact Or.inr (by simp [hq])
    · obtain rfl := List.mem_singleton.mp hr
      exact Or.inl ((hpending q).mpr (Or.inl ⟨hq, hpass⟩))

/-- When nothing is pending any more, the positions that have been looked at are
those to which the walk gets. -/
theorem Walking.mem_iff (h : Walking g reachable [] visited order) (p : Nat) :
    p ∈ order ↔ g.Backs reachable p := by
  refine ⟨fun hp => h.sound p (Or.inr hp), fun hp => ?_⟩
  induction hp with
  | exit => simpa using h.started
  | source _ edge hpass ih => simpa using h.closed _ ih _ edge hpass

/-- The walk notes the sources of the positions to which it gets, each once. -/
theorem Walking.exists_order {steps : Nat} (h : Walking g reachable pending visited order)
    (hsteps : pending.length + ∑ p ∈ visited.unmarked, (g.sources reachable p).length ≤ steps) :
    ∃ order' : List Nat, order'.Nodup ∧ (∀ p, p ∈ order' ↔ g.Backs reachable p) ∧
      g.walkBack reachable steps pending visited (g.noted reachable order) =
        g.noted reachable order' := by
  induction steps generalizing pending visited order with
  | zero =>
      have hnil : pending = [] := List.eq_nil_of_length_eq_zero (by omega)
      subst hnil
      exact ⟨order, h.nodup, h.mem_iff, rfl⟩
  | succ steps ih =>
      cases pending with
      | nil => exact ⟨order, h.nodup, h.mem_iff, rfl⟩
      | cons p pending =>
          rw [List.length_cons] at hsteps
          cases hp : visited.has p with
          | true =>
              obtain ⟨order', hnodup, hmem, heq⟩ := ih (h.skip hp) (by omega)
              refine ⟨order', hnodup, hmem, ?_⟩
              rw [← heq, walkBack, if_pos hp]
          | false =>
              have hsum := add_sum_erase visited.unmarked
                (fun p => (g.sources reachable p).length) (Marks.mem_unmarked.mpr hp)
              have hfilter := List.length_filter_le g.passesOn (g.sources reachable p)
              obtain ⟨order', hnodup, hmem, heq⟩ := ih (h.visit hp) (by
                rw [Marks.unmarked_insert, List.length_append, List.length_reverse]
                omega)
              refine ⟨order', hnodup, hmem, ?_⟩
              rw [← heq, noted_concat, walkBack, if_neg (by simp [hp])]

/-- What is known about where the value comes from are the sources of the positions
to which the walk from the exit gets. -/
theorem exists_returned_eq_noted (h : 0 < g.size) :
    ∃ order : List Nat, order.Nodup ∧ (∀ p, p ∈ order ↔ g.Backs g.reachable p) ∧
      g.returned = g.noted g.reachable order := by
  have hinit : Walking g g.reachable [g.exit] (Marks.none g.size) [] := .init h
  refine hinit.exists_order ?_
  have hunmarked : (Marks.none g.size).unmarked = range g.size := by
    ext p
    simp [Marks.mem_unmarked, Marks.has_none]
  have := sum_length_sources_le g g.reachable
  rw [hunmarked, List.length_singleton]
  omega

end FlowGraph

end DeclAnalysis
