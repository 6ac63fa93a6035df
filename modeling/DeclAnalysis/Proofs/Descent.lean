import DeclAnalysis.Proofs.Marking

/-!
# Both forms of the search

The search of a graph comes with a list of pending positions and as a recursive
descent. This module compares the two. `Marks.Drains` and `Marks.Descends` are
the runs of the two forms without a bound on their steps, so a run of theirs is a
search that came to its end.

The descent hands the marks from one sibling to the next, and what the earlier
siblings marked is a wall for the later ones. Nothing is lost by this: a path on
which nothing was marked at the start either avoids the new marks or ends at one,
because what can be reached from a new mark has been marked along with it.
-/

namespace DeclAnalysis

namespace Marks

variable {next : Nat → List Nat}

/-- Two sets of marks on the same graph with the same members are the same. -/
theorem eq_of_has_eq
    {m m' : Marks}
    (hsize : m.bits.size = m'.bits.size)
    (hhas : ∀ p, m.has p = m'.has p) :
    m = m' := by
  obtain ⟨bits⟩ := m
  obtain ⟨bits'⟩ := m'
  congr 1
  apply Array.ext hsize
  intro p hp hp'
  have := hhas p
  simpa [has, hp, hp'] using this

/-! ## Paths -/

theorem Reaches.end_free
    {m : Marks} {p q : Nat}
    (path : m.Reaches next p q) :
    m.has q = false := by
  cases path with
  | start free => exact free
  | step _ _ free => exact free

/-- A path that avoids some marks avoids every part of them. -/
theorem Reaches.anti
    {m m' : Marks} {p q : Nat}
    (hle : ∀ r, m.has r = true → m'.has r = true)
    (path : m'.Reaches next p q) :
    m.Reaches next p q := by
  have hfree : ∀ r, m'.has r = false → m.has r = false := by
    intro r hr
    by_contra hmarked
    have := hle r (by simpa using hmarked)
    simp [hr] at this
  induction path with
  | start free => exact .start (hfree _ free)
  | step _ edge free ih => exact ih.step edge (hfree _ free)

theorem Reaches.prepend
    {m : Marks} {p c q : Nat}
    (hp : m.has p = false)
    (edge : c ∈ next p)
    (path : m.Reaches next c q) :
    m.Reaches next p q := by
  induction path with
  | start free => exact (Reaches.start hp).step edge free
  | step _ edge free ih => exact ih.step edge free

/-- A path has its start behind it after the first edge, and need not come back
to it. -/
theorem reaches_iff_insert
    {m : Marks} {p : Nat}
    (hp : m.has p = false)
    (q : Nat) :
    m.Reaches next p q ↔ q = p ∨ ∃ c ∈ next p, (m.insert p).Reaches next c q := by
  have hfree : ∀ {r}, r ≠ p → m.has r = false → (m.insert p).has r = false := by
    intro r hne hr
    simp [has_insert, hr, Ne.symm hne]
  constructor
  · intro path
    induction path with
    | start _ => exact Or.inl rfl
    | @step r q _ edge free ih =>
        by_cases hq : q = p
        · exact Or.inl hq
        · rcases ih with rfl | ⟨c, hc, path⟩
          · exact Or.inr ⟨q, edge, .start (hfree hq free)⟩
          · exact Or.inr ⟨c, hc, path.step edge (hfree hq free)⟩
  · rintro (rfl | ⟨c, hc, path⟩)
    · exact .start hp
    · apply Reaches.prepend hp hc
      apply path.anti
      intro r hr
      simp [has_insert, hr]

/-! ## Runs of the two forms -/

/-- The pending positions are looked at one after the other until none is left,
which turns the one set of marks into the other. -/
inductive Drains (next : Nat → List Nat) : List Nat → Marks → Marks → Prop where
  | done (m : Marks) : Drains next [] m m
  | look {position : Nat} {pending : List Nat} {m m' : Marks}
      (rest : Drains next ((m.takeFresh (next position)).1 ++ pending)
        (m.takeFresh (next position)).2 m') :
      Drains next (position :: pending) m m'

/-- The descents into the positions, one after the other, come to an end, and turn
the one set of marks into the other. -/
inductive Descends (next : Nat → List Nat) : List Nat → Marks → Marks → Prop where
  | done (m : Marks) : Descends next [] m m
  | skip {position : Nat} {others : List Nat} {m m' : Marks}
      (marked : m.has position = true) (rest : Descends next others m m') :
      Descends next (position :: others) m m'
  | enter {position : Nat} {others : List Nat} {m m₁ m₂ : Marks}
      (free : m.has position = false)
      (inner : Descends next (next position) (m.insert position) m₁)
      (rest : Descends next others m₁ m₂) :
      Descends next (position :: others) m m₂

/-- The bound on the steps covers what is pending and what is unmarked, so the
list of pending positions is empty at the end. -/
theorem drains_spread
    {steps : Nat} {pending : List Nat} {m : Marks}
    (hsteps : pending.length + m.unmarked.card ≤ steps) :
    Drains next pending m (spread next steps pending m) := by
  induction steps generalizing pending m with
  | zero =>
      have hnil : pending = [] := List.eq_nil_of_length_eq_zero (by omega)
      subst hnil
      exact .done m
  | succ steps ih =>
      cases pending with
      | nil => exact .done m
      | cons position pending =>
          have hcard := (takeFresh_fresh m (next position)).card
          simp only [List.length_cons] at hsteps
          rw [spread_cons]
          apply Drains.look
          apply ih
          rw [List.length_append]
          omega

theorem Drains.size_eq
    {pending : List Nat} {m m' : Marks}
    (run : Drains next pending m m') :
    m'.bits.size = m.bits.size := by
  induction run with
  | done _ => rfl
  | look _ ih => rw [ih, (takeFresh_fresh _ _).size]

theorem Descends.size_eq
    {positions : List Nat} {m m' : Marks}
    (run : Descends next positions m m') :
    m'.bits.size = m.bits.size := by
  induction run with
  | done _ => rfl
  | skip _ _ ih => exact ih
  | enter _ _ _ ihinner ihrest => rw [ihrest, ihinner, size_insert]

/-- A descent takes no mark away. -/
theorem Descends.has_of_has
    {positions : List Nat} {m m' : Marks}
    (run : Descends next positions m m')
    {p : Nat} (hp : m.has p = true) :
    m'.has p = true := by
  induction run with
  | done _ => exact hp
  | skip _ _ ih => exact ih hp
  | enter _ _ _ ihinner ihrest =>
      apply ihrest
      apply ihinner
      simp [has_insert, hp]

theorem Descends.card_unmarked_le
    {positions : List Nat} {m m' : Marks}
    (run : Descends next positions m m') :
    m'.unmarked.card ≤ m.unmarked.card := by
  apply Finset.card_le_card
  intro p hp
  rw [mem_unmarked] at hp ⊢
  by_contra hmarked
  have := run.has_of_has (by simpa using hmarked)
  simp [hp] at this

/-- A descent into one position and descents into the others make up one run. -/
theorem Descends.cons
    {position : Nat} {others : List Nat} {m m₁ m₂ : Marks}
    (first : Descends next [position] m m₁)
    (rest : Descends next others m₁ m₂) :
    Descends next (position :: others) m m₂ := by
  cases first with
  | skip marked first =>
      cases first
      exact .skip marked rest
  | enter free inner first =>
      cases first
      exact .enter free inner rest

/-- The bound on the depth is larger than the number of unmarked positions, and
every level of the descent marks one of them. -/
theorem descends_descend
    {depth : Nat} {position : Nat} {m : Marks}
    (hdepth : m.unmarked.card < depth) :
    Descends next [position] m (descend next depth position m) := by
  induction depth generalizing position m with
  | zero => omega
  | succ depth ih =>
      have hsiblings : ∀ (others : List Nat) (m : Marks), m.unmarked.card < depth →
          Descends next others m (others.foldl (fun m p => descend next depth p m) m) := by
        intro others
        induction others with
        | nil => exact fun m _ => .done m
        | cons p others ihothers =>
            intro m hm
            have hfirst : Descends next [p] m (descend next depth p m) := ih hm
            exact hfirst.cons (ihothers _ (hfirst.card_unmarked_le.trans_lt hm))
      unfold descend
      by_cases hmarked : m.has position = true
      · rw [if_pos hmarked]
        exact .skip hmarked (.done m)
      · have hfree : m.has position = false := by simpa using hmarked
        rw [if_neg hmarked]
        refine .enter hfree (hsiblings _ _ ?_) (.done _)
        have := card_unmarked_insert hfree
        omega

/-! ## What the runs mark -/

/-- A path that avoids the marks `m` avoids the later marks `m'` too, or else its
end is one of them, if the new marks are closed under paths. -/
theorem Reaches.has_or_reaches
    {m m' : Marks} {p q : Nat}
    (hclosed : ∀ r r', m.has r = false → m'.has r = true → r' ∈ next r → m.has r' = false →
      m'.has r' = true)
    (path : m.Reaches next p q) :
    m'.has q = true ∨ m'.Reaches next p q := by
  induction path with
  | start _ =>
      cases hp : m'.has p with
      | true => exact Or.inl rfl
      | false => exact Or.inr (.start hp)
  | @step r q path edge free ih =>
      cases hq : m'.has q with
      | true => exact Or.inl rfl
      | false =>
          rcases ih with hr | path'
          · have := hclosed r q path.end_free hr edge free
            simp [hq] at this
          · exact Or.inr (path'.step edge hq)

/-- The descents mark what can be reached from their positions without meeting a
mark of the start. -/
theorem Descends.has_iff
    {positions : List Nat} {m m' : Marks}
    (run : Descends next positions m m')
    (q : Nat) :
    m'.has q = true ↔ m.has q = true ∨ ∃ p ∈ positions, m.Reaches next p q := by
  induction run generalizing q with
  | done m => simp
  | @skip position others m m' marked rest ih =>
      have hno : ¬m.Reaches next position q := by
        intro path
        simp [path.start_free] at marked
      rw [ih q, List.exists_mem_cons_iff]
      simp [hno]
  | @enter position others m m₁ m₂ free inner rest ihinner ihrest =>
      have hinner : ∀ r, m₁.has r = true ↔ m.has r = true ∨ m.Reaches next position r := by
        intro r
        rw [ihinner r, reaches_iff_insert free, has_insert, Bool.or_eq_true, decide_eq_true_eq,
          eq_comm (a := position)]
        tauto
      have hle : ∀ r, m.has r = true → m₁.has r = true :=
        fun r hr => (hinner r).mpr (Or.inl hr)
      have hclosed : ∀ r r', m.has r = false → m₁.has r = true → r' ∈ next r →
          m.has r' = false → m₁.has r' = true := by
        intro r r' hr hmarked edge hr'
        rcases (hinner r).mp hmarked with hold | path
        · simp [hr] at hold
        · exact (hinner r').mpr (Or.inr (path.step edge hr'))
      rw [ihrest q, hinner q, List.exists_mem_cons_iff]
      constructor
      · rintro ((hq | path) | ⟨p, hp, path⟩)
        · exact Or.inl hq
        · exact Or.inr (Or.inl path)
        · exact Or.inr (Or.inr ⟨p, hp, path.anti hle⟩)
      · rintro (hq | path | ⟨p, hp, path⟩)
        · exact Or.inl (Or.inl hq)
        · exact Or.inl (Or.inr path)
        · rcases path.has_or_reaches hclosed with hq | path
          · exact Or.inl ((hinner q).mp hq)
          · exact Or.inr ⟨p, hp, path⟩

/-! ## The two forms agree -/

/-- Marking with a list of pending positions looks at all of them. -/
theorem drains_collect
    {start : Nat} {walls : Marks}
    (hstart : walls.has start = false) :
    Drains next [start] (walls.insert start) (walls.collect next start) := by
  have hcard := card_unmarked_insert hstart
  have hle := card_unmarked_le_size walls
  rw [collect, if_neg (by simp [hstart])]
  apply drains_spread
  simp only [List.length_singleton]
  omega

theorem collect_of_has
    {start : Nat} {walls : Marks}
    (hstart : walls.has start = true) :
    walls.collect next start = walls := by
  rw [collect, if_pos hstart]

theorem size_collect
    (start : Nat) (walls : Marks) :
    (walls.collect next start).bits.size = walls.bits.size := by
  cases hstart : walls.has start with
  | true => rw [collect_of_has hstart]
  | false => rw [(drains_collect hstart).size_eq, size_insert]

theorem descends_collectRecursively
    (start : Nat) (walls : Marks) :
    Descends next [start] walls (walls.collectRecursively next start) :=
  descends_descend (Nat.lt_succ_of_le (card_unmarked_le_size walls))

/-- Both forms of the search come to their end with the same marks: the marks of
the start and with them what a path without any of these reaches. Started at a
mark, they change nothing. -/
theorem collect_eq_collectRecursively_and_has_iff
    (next : Nat → List Nat) (start : Nat) (walls : Marks) :
    (walls.has start = false →
      Drains next [start] (walls.insert start) (walls.collect next start)) ∧
    Descends next [start] walls (walls.collectRecursively next start) ∧
    walls.collect next start = walls.collectRecursively next start ∧
    (∀ p, (walls.collect next start).has p = true ↔
      walls.has p = true ∨ walls.Reaches next start p) ∧
    (walls.has start = true → walls.collect next start = walls) := by
  have hrun : Descends next [start] walls (walls.collectRecursively next start) :=
    descends_collectRecursively start walls
  refine ⟨drains_collect, hrun, ?_, has_collect_iff next start walls, collect_of_has⟩
  apply eq_of_has_eq
  · rw [size_collect, hrun.size_eq]
  · intro p
    rw [Bool.eq_iff_iff, has_collect_iff, hrun.has_iff]
    simp

end Marks

end DeclAnalysis
