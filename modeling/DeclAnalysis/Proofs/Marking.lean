import Mathlib.Data.Finset.Card
import Mathlib.Data.Finset.Filter
import Mathlib.Data.Finset.Range
import DeclAnalysis.Reachability

/-!
# What marking computes

Marking from a position adds to the marks exactly the positions that a path
reaches from there without meeting a mark of the start. Such a path is what
`Marks.Reaches` describes; the marks of the start are its walls, and positions
outside the graph, which count as marked, are walls as well.

The search keeps three things apart: the walls, the positions that are marked
and still pending, and those whose successors have all been marked. The
invariant `Marks.Spreading` says so, and the number of unmarked positions shows
that the bound on the number of steps is never what ends the search.
-/

namespace DeclAnalysis

namespace Marks

/-- A path leads from `start` to the position on which nothing is marked,
neither the start nor the end. -/
inductive Reaches (next : Nat → List Nat) (m : Marks) (start : Nat) : Nat → Prop where
  | start (free : m.has start = false) : Reaches next m start start
  | step {p q : Nat} (path : Reaches next m start p) (edge : q ∈ next p)
      (free : m.has q = false) : Reaches next m start q

theorem Reaches.start_free {next : Nat → List Nat} {m : Marks} {p q : Nat}
    (path : m.Reaches next p q) : m.has p = false := by
  induction path with
  | start free => exact free
  | step _ _ _ ih => exact ih

/-! ## Single marks -/

@[simp] theorem size_insert (m : Marks) (p : Nat) : (m.insert p).bits.size = m.bits.size := by
  simp [insert]

/-- A mark changes nothing about the other positions. -/
theorem has_insert (m : Marks) (p q : Nat) :
    (m.insert p).has q = (decide (p = q) || m.has q) := by
  by_cases hpq : p = q
  · subst hpq
    by_cases hp : p < m.bits.size
    · simp [insert, has, hp]
    · simp [insert, has, hp]
  · simp [insert, has, hpq, Array.getD_eq_getD_getElem?]

@[simp] theorem has_insert_self (m : Marks) (p : Nat) : (m.insert p).has p = true := by
  simp [has_insert]

theorem lt_size_of_has_eq_false {m : Marks} {p : Nat} (h : m.has p = false) :
    p < m.bits.size := by
  by_contra hp
  simp [has, hp] at h

@[simp] theorem size_none (size : Nat) : (none size).bits.size = size := by
  simp [none]

/-- Nothing inside the graph is marked at first. -/
theorem has_none (size p : Nat) : (none size).has p = decide (size ≤ p) := by
  by_cases hp : p < size
  · simp [none, has, hp]
  · simp [none, has, hp, Nat.le_of_not_lt hp]

/-- The positions without a mark. -/
def unmarked (m : Marks) : Finset Nat :=
  (Finset.range m.bits.size).filter fun p => m.has p = false

theorem mem_unmarked {m : Marks} {p : Nat} : p ∈ m.unmarked ↔ m.has p = false := by
  simp only [unmarked, Finset.mem_filter, Finset.mem_range, and_iff_right_iff_imp]
  exact lt_size_of_has_eq_false

theorem card_unmarked_le_size (m : Marks) : m.unmarked.card ≤ m.bits.size := by
  simpa [unmarked] using
    Finset.card_filter_le (Finset.range m.bits.size) fun p => m.has p = false

theorem unmarked_insert (m : Marks) (p : Nat) : (m.insert p).unmarked = m.unmarked.erase p := by
  ext q
  rw [Finset.mem_erase, mem_unmarked, mem_unmarked, has_insert, Bool.or_eq_false_iff,
    decide_eq_false_iff_not, eq_comm, ne_eq]

/-- Marking an unmarked position leaves one unmarked position less. -/
theorem card_unmarked_insert {m : Marks} {p : Nat} (h : m.has p = false) :
    (m.insert p).unmarked.card + 1 = m.unmarked.card := by
  rw [unmarked_insert]
  exact Finset.card_erase_add_one (mem_unmarked.mpr h)

/-! ## Several marks at once -/

/-- What `takeFresh` gives back: the positions that were unmarked, and marks that
differ from the old ones by exactly these. -/
structure Fresh (m : Marks) (positions fresh : List Nat) (m' : Marks) : Prop where
  has_iff : ∀ q, m'.has q = true ↔ m.has q = true ∨ q ∈ positions
  mem_iff : ∀ q, q ∈ fresh ↔ q ∈ positions ∧ m.has q = false
  card : fresh.length + m'.unmarked.card = m.unmarked.card
  size : m'.bits.size = m.bits.size

theorem takeFresh_fresh (m : Marks) (positions : List Nat) :
    Fresh m positions (m.takeFresh positions).1 (m.takeFresh positions).2 := by
  induction positions using List.reverseRecOn with
  | nil => constructor <;> simp [takeFresh]
  | append_singleton ps p ih =>
      obtain ⟨hhas, hmem, hcard, hsize⟩ := ih
      have hstep : m.takeFresh (ps ++ [p]) =
          if (m.takeFresh ps).2.has p then m.takeFresh ps
          else (p :: (m.takeFresh ps).1, (m.takeFresh ps).2.insert p) := by
        simp [takeFresh, List.foldl_append]
      rw [hstep]
      split
      case isTrue hp =>
        refine ⟨fun q => ?_, fun q => ?_, hcard, hsize⟩
        · grind
        · grind
      case isFalse hp =>
        have hp : (m.takeFresh ps).2.has p = false := by simpa using hp
        refine ⟨fun q => ?_, fun q => ?_, ?_, ?_⟩
        · rw [has_insert]
          grind
        · grind
        · have := card_unmarked_insert hp
          simp only [List.length_cons]
          omega
        · simpa using hsize

/-! ## The search -/

/-- What holds between two steps of a search from `start` that began with the
marks `walls`: everything new can be reached, and a position whose successors
are not all marked is still pending. -/
structure Spreading (next : Nat → List Nat) (walls : Marks) (start : Nat)
    (pending : List Nat) (m : Marks) : Prop where
  sound : ∀ p, m.has p = true → walls.has p = true ∨ walls.Reaches next start p
  walls_le : ∀ p, walls.has p = true → m.has p = true
  started : m.has start = true
  pending_reached : ∀ p ∈ pending, walls.Reaches next start p
  closed : ∀ p, walls.Reaches next start p → m.has p = true →
    p ∈ pending ∨ ∀ q ∈ next p, m.has q = true

variable {next : Nat → List Nat} {walls m : Marks} {start : Nat}

/-- Before the first step only the start is marked, and it is pending. -/
theorem Spreading.init (h : walls.has start = false) :
    Spreading next walls start [start] (walls.insert start) where
  sound p hp := by
    rw [has_insert, Bool.or_eq_true, decide_eq_true_eq] at hp
    rcases hp with rfl | hp
    · exact Or.inr (.start h)
    · exact Or.inl hp
  walls_le p hp := by simp [has_insert, hp]
  started := has_insert_self walls start
  pending_reached p hp := by
    obtain rfl := List.mem_singleton.mp hp
    exact .start h
  closed p hp hm := by
    rw [has_insert, Bool.or_eq_true, decide_eq_true_eq] at hm
    rcases hm with rfl | hm
    · simp
    · cases hp with
      | start free => simp [free] at hm
      | step _ _ free => simp [free] at hm

/-- Looking at one pending position keeps the invariant. -/
theorem Spreading.step {position : Nat} {pending fresh : List Nat} {m' : Marks}
    (h : Spreading next walls start (position :: pending) m)
    (hfresh : Fresh m (next position) fresh m') :
    Spreading next walls start (fresh ++ pending) m' := by
  have hposition : walls.Reaches next start position := h.pending_reached position (by simp)
  have hnew : ∀ q ∈ next position, m.has q = false → walls.Reaches next start q := by
    intro q hq hfree
    refine hposition.step hq ?_
    by_contra hwall
    have := h.walls_le q (by simpa using hwall)
    simp [hfree] at this
  refine ⟨fun p hp => ?_, fun p hp => ?_, ?_, fun p hp => ?_, fun p hp hm => ?_⟩
  · rcases (hfresh.has_iff p).mp hp with hold | hedge
    · exact h.sound p hold
    · cases hfree : m.has p with
      | true => exact h.sound p hfree
      | false => exact Or.inr (hnew p hedge hfree)
  · exact (hfresh.has_iff p).mpr (Or.inl (h.walls_le p hp))
  · exact (hfresh.has_iff start).mpr (Or.inl h.started)
  · rcases List.mem_append.mp hp with hp | hp
    · obtain ⟨hedge, hfree⟩ := (hfresh.mem_iff p).mp hp
      exact hnew p hedge hfree
    · exact h.pending_reached p (List.mem_cons_of_mem _ hp)
  · cases hfree : m.has p with
    | false =>
        have hedge : p ∈ next position := by
          rcases (hfresh.has_iff p).mp hm with hold | hedge
          · simp [hfree] at hold
          · exact hedge
        exact Or.inl (List.mem_append_left _ ((hfresh.mem_iff p).mpr ⟨hedge, hfree⟩))
    | true =>
        rcases h.closed p hp hfree with hpending | hclosed
        · rcases List.mem_cons.mp hpending with rfl | hpending
          · exact Or.inr fun q hq => (hfresh.has_iff q).mpr (Or.inr hq)
          · exact Or.inl (List.mem_append_right _ hpending)
        · exact Or.inr fun q hq => (hfresh.has_iff q).mpr (Or.inl (hclosed q hq))

/-- When nothing is pending any more, what is marked is what can be reached. -/
theorem Spreading.has_iff (h : Spreading next walls start [] m) (p : Nat) :
    m.has p = true ↔ walls.has p = true ∨ walls.Reaches next start p := by
  refine ⟨h.sound p, fun hp => ?_⟩
  rcases hp with hp | hp
  · exact h.walls_le p hp
  · induction hp with
    | start _ => exact h.started
    | step path edge _ ih =>
        rcases h.closed _ path ih with hpending | hclosed
        · simp at hpending
        · exact hclosed _ edge

theorem spread_cons (next : Nat → List Nat) (steps position : Nat) (pending : List Nat)
    (m : Marks) :
    spread next (steps + 1) (position :: pending) m =
      spread next steps ((m.takeFresh (next position)).1 ++ pending)
        (m.takeFresh (next position)).2 := rfl

/-- The search ends with nothing pending as soon as the bound covers the pending
and the unmarked positions. -/
theorem Spreading.has_spread_iff {steps : Nat} {pending : List Nat}
    (h : Spreading next walls start pending m)
    (hsteps : pending.length + m.unmarked.card ≤ steps) (p : Nat) :
    (spread next steps pending m).has p = true ↔
      walls.has p = true ∨ walls.Reaches next start p := by
  induction steps generalizing pending m with
  | zero =>
      have hnil : pending = [] := List.eq_nil_of_length_eq_zero (by omega)
      subst hnil
      exact h.has_iff p
  | succ steps ih =>
      cases pending with
      | nil => exact h.has_iff p
      | cons position pending =>
          have hfresh := takeFresh_fresh m (next position)
          have hcard := hfresh.card
          simp only [List.length_cons] at hsteps
          rw [spread_cons]
          refine ih (h.step hfresh) ?_
          rw [List.length_append]
          omega

/-- From an unmarked start, more steps than there are positions are always enough. -/
theorem has_spread_insert_iff {steps : Nat} (hstart : walls.has start = false)
    (hsteps : walls.bits.size < steps) (p : Nat) :
    (spread next steps [start] (walls.insert start)).has p = true ↔
      walls.has p = true ∨ walls.Reaches next start p := by
  refine (Spreading.init hstart).has_spread_iff ?_ p
  have hcard := card_unmarked_insert hstart
  have hle := card_unmarked_le_size walls
  simp only [List.length_singleton]
  omega

/-- Marking from a position adds exactly what can be reached from it without
meeting a mark. -/
theorem has_collect_iff (next : Nat → List Nat) (start : Nat) (walls : Marks) (p : Nat) :
    (walls.collect next start).has p = true ↔
      walls.has p = true ∨ walls.Reaches next start p := by
  unfold collect
  split
  case isTrue hstart =>
    refine ⟨Or.inl, fun hp => hp.elim id fun hp => ?_⟩
    simp [hp.start_free] at hstart
  case isFalse hstart =>
    have hfree : walls.has start = false := by simpa using hstart
    exact has_spread_insert_iff hfree (Nat.lt_succ_self _) p

end Marks

end DeclAnalysis
