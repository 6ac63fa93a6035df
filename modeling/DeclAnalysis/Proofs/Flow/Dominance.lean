import DeclAnalysis.Proofs.Flow.Reachable

/-!
# Dominance

A position dominates another one if every path from the entry to the other
passes through it. The query for what an element dominates never looks at paths:
it blocks the position of the element, and keeps what was reachable before and no
longer is. What is marked behind a blocked position is what a path can reach that
avoids it, so the two descriptions agree.

The order laws of dominance are shown on paths. Of two positions that dominate a
third one, one dominates the other: if neither did, a path could reach either one
without the other, and so every position without one of the two.
-/

namespace DeclAnalysis

namespace FlowGraph

variable {g : FlowGraph} {a b c p q : Nat}

/-! ## Paths -/

/-- A path along the edges from the entry to a position, given by the positions
on it, the last one first. -/
inductive Path (g : FlowGraph) : Nat → List Nat → Prop where
  | entry : Path g g.entry [g.entry]
  | step {p q : Nat} {path : List Nat} (before : Path g p path) (edge : q ∈ g.next p) :
      Path g q (q :: path)

/-- Every path from the entry to a position passes through the dominator. -/
def Dominates (g : FlowGraph) (dominator position : Nat) : Prop :=
  ∀ path, g.Path position path → dominator ∈ path

/-- The way up to a position on a path. -/
theorem Path.exists_suffix
    {path : List Nat}
    (hpath : g.Path q path)
    (hp : p ∈ path) :
    ∃ before, g.Path p before ∧ before <:+ path := by
  induction hpath with
  | entry =>
      obtain rfl := List.mem_singleton.mp hp
      exact ⟨[g.entry], .entry, List.suffix_rfl⟩
  | @step p' q path before edge ih =>
      rcases List.mem_cons.mp hp with rfl | hp
      · exact ⟨p :: path, before.step edge, List.suffix_rfl⟩
      · obtain ⟨way, hway, hsuffix⟩ := ih hp
        exact ⟨way, hway, hsuffix.trans (List.suffix_cons q path)⟩

/-- The way up to an earlier position is shorter. -/
theorem Path.exists_shorter
    {path : List Nat}
    (hpath : g.Path q path)
    (hp : p ∈ path)
    (hne : p ≠ q) :
    ∃ before, g.Path p before ∧ before.length < path.length := by
  cases hpath with
  | entry => exact absurd (List.mem_singleton.mp hp) hne
  | @step p' q path before edge =>
      have htail : p ∈ path := (List.mem_cons.mp hp).resolve_left hne
      obtain ⟨way, hway, hsuffix⟩ := before.exists_suffix htail
      refine ⟨way, hway, ?_⟩
      rw [List.length_cons]
      exact Nat.lt_succ_of_le hsuffix.length_le

/-- A position can be reached exactly if there is a path to it. -/
theorem leads_iff_exists_path : g.Leads g.entry q ↔ ∃ path, g.Path q path := by
  constructor
  · intro h
    induction h with
    | refl => exact ⟨[g.entry], .entry⟩
    | tail _ edge ih =>
        obtain ⟨path, hpath⟩ := ih
        exact ⟨_, hpath.step edge⟩
  · rintro ⟨path, hpath⟩
    induction hpath with
    | entry => exact .refl
    | step _ edge ih => exact ih.tail edge

/-! ## The order of dominance -/

theorem Dominates.leads
    (hdom : g.Dominates p q)
    (hq : g.Leads g.entry q) :
    g.Leads g.entry p := by
  obtain ⟨path, hpath⟩ := leads_iff_exists_path.mp hq
  obtain ⟨before, hbefore, -⟩ := hpath.exists_suffix (hdom path hpath)
  exact leads_iff_exists_path.mpr ⟨before, hbefore⟩

theorem Dominates.trans
    (hab : g.Dominates a b)
    (hbc : g.Dominates b c) :
    g.Dominates a c := by
  intro path hpath
  obtain ⟨before, hbefore, hsuffix⟩ := hpath.exists_suffix (hbc path hpath)
  exact hsuffix.subset (hab before hbefore)

/-- Two positions that dominate each other are the same or cannot be reached: a
path to one of them would always contain a shorter one. -/
theorem Dominates.eq_of_leads
    (hpq : g.Dominates p q)
    (hqp : g.Dominates q p)
    (hq : g.Leads g.entry q) :
    p = q := by
  by_contra hne
  have hnone : ∀ (n : Nat) (path : List Nat), path.length < n → ¬g.Path q path := by
    intro n
    induction n with
    | zero => intro path hlt; omega
    | succ n ih =>
        intro path hlt hpath
        obtain ⟨way, hway, hshort⟩ := hpath.exists_shorter (hpq path hpath) hne
        obtain ⟨before, hbefore, hshorter⟩ := hway.exists_shorter (hqp way hway) (Ne.symm hne)
        exact ih before (by omega) hbefore
  obtain ⟨path, hpath⟩ := leads_iff_exists_path.mp hq
  exact hnone _ path (Nat.lt_succ_self _) hpath

/-- If neither of two positions dominates the other, then every path can be
replaced by one that avoids the first or by one that avoids the second. -/
theorem exists_path_avoiding
    (hab : ¬g.Dominates a b)
    (hba : ¬g.Dominates b a)
    (hne : a ≠ b)
    {path : List Nat}
    (hpath : g.Path q path) :
    (∃ way, g.Path q way ∧ a ∉ way) ∨ (∃ way, g.Path q way ∧ b ∉ way) := by
  have htoB : ∃ way, g.Path b way ∧ a ∉ way := by simpa [Dominates] using hab
  have htoA : ∃ way, g.Path a way ∧ b ∉ way := by simpa [Dominates] using hba
  induction hpath with
  | entry =>
      by_cases h : a = g.entry
      · exact Or.inr ⟨[g.entry], .entry, by simpa [← h] using hne.symm⟩
      · exact Or.inl ⟨[g.entry], .entry, by simpa using h⟩
  | @step p q path before edge ih =>
      rcases ih with ⟨way, hway, havoids⟩ | ⟨way, hway, havoids⟩
      · by_cases h : a = q
        · subst h
          exact Or.inr htoA
        · exact Or.inl ⟨q :: way, hway.step edge, by simp [h, havoids]⟩
      · by_cases h : b = q
        · subst h
          exact Or.inl htoB
        · exact Or.inr ⟨q :: way, hway.step edge, by simp [h, havoids]⟩

/-- Of two positions that dominate the same reachable position, one dominates the
other. -/
theorem Dominates.comparable
    (hac : g.Dominates a c)
    (hbc : g.Dominates b c)
    (hc : g.Leads g.entry c)
    (hne : a ≠ b) :
    g.Dominates a b ∨ g.Dominates b a := by
  by_contra h
  obtain ⟨hab, hba⟩ := not_or.mp h
  obtain ⟨path, hpath⟩ := leads_iff_exists_path.mp hc
  rcases exists_path_avoiding hab hba hne hpath with ⟨way, hway, havoids⟩ | ⟨way, hway, havoids⟩
  · exact havoids (hac way hway)
  · exact havoids (hbc way hway)

/-! ## Marking around a position -/

/-- What is marked when a position is blocked are that position and what a path
can reach that avoids it. -/
theorem has_collect_insert_iff
    (hq : q < g.size) :
    (((Marks.none g.size).insert p).collect g.next g.entry).has q = true ↔
      p = q ∨ ∃ path, g.Path q path ∧ p ∉ path := by
  have hfree : ∀ r, ((Marks.none g.size).insert p).has r = false ↔ p ≠ r ∧ r < g.size := by
    intro r
    rw [Marks.has_insert, Bool.or_eq_false_iff, decide_eq_false_iff_not, Marks.has_none,
      decide_eq_false_iff_not, Nat.not_le]
  have hwall : ((Marks.none g.size).insert p).has q = true ↔ p = q := by
    rw [Marks.has_insert, Marks.has_none]
    simp [Nat.not_le.mpr hq]
  rw [Marks.has_collect_iff, hwall]
  apply or_congr_right
  constructor
  · intro h
    clear hq hwall
    induction h with
    | start free => exact ⟨[g.entry], .entry, by simpa using ((hfree _).mp free).1⟩
    | @step r q _ edge free ih =>
        obtain ⟨path, hpath, havoids⟩ := ih
        exact ⟨q :: path, hpath.step edge, by simp [havoids, ((hfree q).mp free).1]⟩
  · rintro ⟨path, hpath, havoids⟩
    clear hwall
    induction hpath with
    | entry => exact .start ((hfree _).mpr ⟨by simpa using havoids, hq⟩)
    | @step r q path before edge ih =>
        rw [List.mem_cons, not_or] at havoids
        obtain ⟨hne, havoids⟩ := havoids
        exact (ih (lt_size_of_mem_next edge) havoids).step edge ((hfree q).mpr ⟨hne, hq⟩)

/-- The instruction at a position carries an element. -/
def Carries (g : FlowGraph) (position element : Nat) : Prop :=
  ∃ i, g.instructions[position]? = some i ∧ i.element? = some element

theorem Carries.lt_size
    {x : Nat}
    (hx : g.Carries p x) :
    p < g.size := by
  obtain ⟨i, hi, -⟩ := hx
  exact (Array.getElem?_eq_some_iff.mp hi).1

theorem carries_iff_bind
    {x : Nat} :
    g.Carries p x ↔ (g.instructions[p]?).bind Instruction.element? = some x :=
  Option.bind_eq_some_iff.symm

theorem Carries.eq_of_nodup
    (hnodup : g.elements.Nodup)
    {x : Nat}
    (hp : g.Carries p x)
    (hq : g.Carries q x) :
    p = q := by
  obtain ⟨i, hi, hix⟩ := hp
  obtain ⟨j, hj, hjx⟩ := hq
  exact eq_of_element?_eq hnodup hi hix hj hjx

theorem Carries.element_eq
    {x y : Nat}
    (hx : g.Carries p x)
    (hy : g.Carries p y) :
    x = y :=
  Option.some.inj ((carries_iff_bind.mp hx).symm.trans (carries_iff_bind.mp hy))

/-- What is kept are the elements of the positions that can be reached, are not
the blocked one and are dominated by it. -/
theorem mem_dominated_iff
    {x : Nat} :
    x ∈ g.dominated p ↔
      ∃ q, g.Carries q x ∧ g.Leads g.entry q ∧ p ≠ q ∧ g.Dominates p q := by
  have hkept : ∀ q, q < g.size →
      ((g.reachable.has q &&
          !(((Marks.none g.size).insert p).collect g.next g.entry).has q) = true ↔
        g.Leads g.entry q ∧ p ≠ q ∧ g.Dominates p q) := by
    intro q hq
    rw [Bool.and_eq_true, Bool.not_eq_true', has_reachable_iff hq, ← Bool.not_eq_true,
      has_collect_insert_iff hq]
    simp [Dominates, not_or]
  simp only [dominated, List.mem_filterMap, List.mem_range, carries_iff_bind]
  constructor
  · rintro ⟨q, hq, hx⟩
    obtain ⟨hmarks, hcarries⟩ := Option.ite_none_right_eq_some.mp hx
    exact ⟨q, hcarries, (hkept q hq).mp hmarks⟩
  · rintro ⟨q, hcarries, h⟩
    have hq : q < g.size := (carries_iff_bind.mpr hcarries).lt_size
    exact ⟨q, hq, Option.ite_none_right_eq_some.mpr ⟨(hkept q hq).mpr h, hcarries⟩⟩

/-- What is kept of the elements stays in the order of the instructions. -/
theorem dominated_sublist
    (g : FlowGraph) (p : Nat) :
    (g.dominated p).Sublist g.elements := by
  have helements : g.elements =
      (List.range g.size).filterMap fun q => (g.instructions[q]?).bind Instruction.element? := by
    refine (filterMap_range_eq g.instructions.toList fun q i hi => ?_).symm
    rw [Array.getElem?_toList] at hi
    rw [hi, Option.bind_some]
  rw [helements, dominated, ← List.filterMap_filter]
  exact List.filter_sublist.filterMap _

/-- If all elements are different, an element is found where it is carried. -/
theorem representative?_eq_some_iff
    (hnodup : g.elements.Nodup)
    {x : Nat} :
    g.representative? x = some p ↔ g.Carries p x := by
  unfold representative?
  rw [Array.findIdx?_eq_some_iff_getElem]
  constructor
  · rintro ⟨hp, hx, -⟩
    exact ⟨_, Array.getElem?_eq_getElem hp, of_decide_eq_true hx⟩
  · intro hx
    obtain ⟨i, hi, hix⟩ := id hx
    obtain ⟨hp, rfl⟩ := Array.getElem?_eq_some_iff.mp hi
    refine ⟨hp, decide_eq_true hix, fun q hq hfound => ?_⟩
    have hcarries : g.Carries q x :=
      ⟨_, Array.getElem?_eq_getElem (hq.trans hp), of_decide_eq_true hfound⟩
    exact absurd (hcarries.eq_of_nodup hnodup hx) hq.ne

end FlowGraph

namespace FlowInformation

open FlowGraph (ofBody spread_elements_ofBody representative?_eq_some_iff)

/-! ## The elements that an element dominates -/

section OfBody

variable (subroutine n : Nat) (e : Expr)

/-- In the flow of one body alone, the answer is looked up from the position that
carries the element. -/
theorem mem_dominated_ofBody_iff
    {d x : Nat} :
    x ∈ (data (.ofBody subroutine (e.number n))).dominated d ↔
      ∃ p q, (ofBody subroutine (e.number n)).Carries p d ∧
        (ofBody subroutine (e.number n)).Carries q x ∧
        (ofBody subroutine (e.number n)).Leads 0 q ∧ p ≠ q ∧
        (ofBody subroutine (e.number n)).Dominates p q := by
  have hnodup := (spread_elements_ofBody subroutine n e).nodup
  have hlocate : (FlowData.ofBody subroutine (e.number n)).locate? d =
      ((ofBody subroutine (e.number n)).representative? d).map
        (ofBody subroutine (e.number n), ·) := by
    simp [FlowData.locate?, FlowData.ofBody, FlowData.add, FlowData.replace]
  simp only [dominated, hlocate]
  cases hd : (ofBody subroutine (e.number n)).representative? d with
  | none =>
      have hnone : ∀ p, ¬(ofBody subroutine (e.number n)).Carries p d := by
        intro p hp
        rw [(representative?_eq_some_iff hnodup).mpr hp] at hd
        cases hd
      simp [hnone]
  | some p =>
      have hp := (representative?_eq_some_iff hnodup).mp hd
      rw [Option.map_some, FlowGraph.mem_dominated_iff]
      constructor
      · rintro ⟨q, h⟩
        exact ⟨p, q, hp, h⟩
      · rintro ⟨p', q, hp', h⟩
        obtain rfl := hp.eq_of_nodup hnodup hp'
        exact ⟨q, h⟩

theorem dominated_ofBody_sublist
    (d : Nat) :
    ((data (.ofBody subroutine (e.number n))).dominated d).Sublist
      (ofBody subroutine (e.number n)).elements := by
  simp only [dominated, FlowData.locate?, FlowData.ofBody, FlowData.add, FlowData.replace,
    List.findSome?_cons, List.findSome?_nil]
  cases (ofBody subroutine (e.number n)).representative? d with
  | none => exact List.nil_sublist _
  | some p => exact FlowGraph.dominated_sublist _ p

/-- What dominates a dominated element is another element. -/
theorem ne_of_mem_dominated
    {d x : Nat}
    (hx : x ∈ (data (.ofBody subroutine (e.number n))).dominated d) :
    d ≠ x := by
  obtain ⟨p, q, hp, hq, -, hne, -⟩ := (mem_dominated_ofBody_iff subroutine n e).mp hx
  rintro rfl
  exact hne (hp.eq_of_nodup (spread_elements_ofBody subroutine n e).nodup hq)

theorem not_mem_dominated_of_mem
    {d x : Nat}
    (hx : x ∈ (data (.ofBody subroutine (e.number n))).dominated d) :
    d ∉ (data (.ofBody subroutine (e.number n))).dominated x := by
  have hnodup := (spread_elements_ofBody subroutine n e).nodup
  intro hd
  obtain ⟨p, q, hp, hq, hleads, hne, hpq⟩ := (mem_dominated_ofBody_iff subroutine n e).mp hx
  obtain ⟨q', p', hq', hp', -, -, hqp⟩ := (mem_dominated_ofBody_iff subroutine n e).mp hd
  obtain rfl := hp.eq_of_nodup hnodup hp'
  obtain rfl := hq.eq_of_nodup hnodup hq'
  exact hne (hpq.eq_of_leads hqp hleads)

theorem mem_dominated_trans
    {a b c : Nat}
    (hb : b ∈ (data (.ofBody subroutine (e.number n))).dominated a)
    (hc : c ∈ (data (.ofBody subroutine (e.number n))).dominated b) :
    c ∈ (data (.ofBody subroutine (e.number n))).dominated a := by
  have hnodup := (spread_elements_ofBody subroutine n e).nodup
  have hother : a ≠ c := by
    rintro rfl
    exact not_mem_dominated_of_mem subroutine n e hb hc
  obtain ⟨p, q, hp, hq, -, -, hpq⟩ := (mem_dominated_ofBody_iff subroutine n e).mp hb
  obtain ⟨q', r, hq', hr, hleads, -, hqr⟩ := (mem_dominated_ofBody_iff subroutine n e).mp hc
  obtain rfl := hq.eq_of_nodup hnodup hq'
  apply (mem_dominated_ofBody_iff subroutine n e).mpr
  refine ⟨p, r, hp, hr, hleads, ?_, hpq.trans hqr⟩
  rintro rfl
  exact hother (hp.element_eq hr)

theorem mem_dominated_or_mem_dominated
    {a b c : Nat}
    (ha : c ∈ (data (.ofBody subroutine (e.number n))).dominated a)
    (hb : c ∈ (data (.ofBody subroutine (e.number n))).dominated b)
    (hne : a ≠ b) :
    b ∈ (data (.ofBody subroutine (e.number n))).dominated a ∨
      a ∈ (data (.ofBody subroutine (e.number n))).dominated b := by
  have hnodup := (spread_elements_ofBody subroutine n e).nodup
  obtain ⟨p, r, hp, hr, hleads, -, hpr⟩ := (mem_dominated_ofBody_iff subroutine n e).mp ha
  obtain ⟨q, r', hq, hr', -, -, hqr⟩ := (mem_dominated_ofBody_iff subroutine n e).mp hb
  obtain rfl := hr.eq_of_nodup hnodup hr'
  have hpq : p ≠ q := by
    rintro rfl
    exact hne (hp.element_eq hq)
  rcases hpr.comparable hqr hleads hpq with h | h
  · exact Or.inl ((mem_dominated_ofBody_iff subroutine n e).mpr
      ⟨p, q, hp, hq, hqr.leads hleads, hpq, h⟩)
  · exact Or.inr ((mem_dominated_ofBody_iff subroutine n e).mpr
      ⟨q, p, hq, hp, hpr.leads hleads, hpq.symm, h⟩)

/-- In the flow of one body alone, the elements that an element dominates are the
other elements whose instruction can be reached, but on no path that avoids the
instruction of the dominator. They are given in the order of the instructions,
each once. Dominance is a strict order, in which the dominators of an element
form a chain. -/
theorem mem_dominated_iff_forall_path_and_strict_order :
    (∀ d x, x ∈ (data (.ofBody subroutine (e.number n))).dominated d ↔
      d ≠ x ∧ ∃ p q, (ofBody subroutine (e.number n)).Carries p d ∧
        (ofBody subroutine (e.number n)).Carries q x ∧
        (∃ path, (ofBody subroutine (e.number n)).Path q path) ∧
        ∀ path, (ofBody subroutine (e.number n)).Path q path → p ∈ path) ∧
      (∀ p q x, (ofBody subroutine (e.number n)).Carries p x →
        (ofBody subroutine (e.number n)).Carries q x → p = q) ∧
      (∀ d, ((data (.ofBody subroutine (e.number n))).dominated d).Sublist
          (ofBody subroutine (e.number n)).elements ∧
        ((data (.ofBody subroutine (e.number n))).dominated d).Nodup) ∧
      (∀ d, d ∉ (data (.ofBody subroutine (e.number n))).dominated d) ∧
      (∀ d x, x ∈ (data (.ofBody subroutine (e.number n))).dominated d →
        d ∉ (data (.ofBody subroutine (e.number n))).dominated x) ∧
      (∀ a b c, b ∈ (data (.ofBody subroutine (e.number n))).dominated a →
        c ∈ (data (.ofBody subroutine (e.number n))).dominated b →
        c ∈ (data (.ofBody subroutine (e.number n))).dominated a) ∧
      ∀ a b c, c ∈ (data (.ofBody subroutine (e.number n))).dominated a →
        c ∈ (data (.ofBody subroutine (e.number n))).dominated b → a ≠ b →
        b ∈ (data (.ofBody subroutine (e.number n))).dominated a ∨
          a ∈ (data (.ofBody subroutine (e.number n))).dominated b := by
  have hnodup := (spread_elements_ofBody subroutine n e).nodup
  refine ⟨fun d x => ⟨fun hx => ?_, ?_⟩, fun p q x hp hq => hp.eq_of_nodup hnodup hq,
    fun d => ⟨dominated_ofBody_sublist subroutine n e d,
      (dominated_ofBody_sublist subroutine n e d).nodup hnodup⟩,
    fun d hd => ne_of_mem_dominated subroutine n e hd rfl,
    fun d x => not_mem_dominated_of_mem subroutine n e,
    fun a b c => mem_dominated_trans subroutine n e,
    fun a b c => mem_dominated_or_mem_dominated subroutine n e⟩
  · obtain ⟨p, q, hp, hq, hleads, -, hdom⟩ := (mem_dominated_ofBody_iff subroutine n e).mp hx
    exact ⟨ne_of_mem_dominated subroutine n e hx, p, q, hp, hq,
      FlowGraph.leads_iff_exists_path.mp hleads, hdom⟩
  · rintro ⟨hne, p, q, hp, hq, hreached, hdom⟩
    apply (mem_dominated_ofBody_iff subroutine n e).mpr
    refine ⟨p, q, hp, hq, FlowGraph.leads_iff_exists_path.mpr hreached, ?_, hdom⟩
    rintro rfl
    exact hne (hp.element_eq hq)

end OfBody

end FlowInformation

end DeclAnalysis
