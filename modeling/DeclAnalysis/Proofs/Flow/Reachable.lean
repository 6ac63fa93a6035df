import DeclAnalysis.Flow.Query
import DeclAnalysis.Proofs.Flow.Elements
import DeclAnalysis.Proofs.Flow.Lowering
import DeclAnalysis.Proofs.Marking

/-!
# Reachable steps

In the graph of a body control reaches exactly the steps that some structural
execution performs. Marking finds the positions that the edges lead to, and these
are the entry, the positions of the fragment of the body and possibly the exit.

A step determines its position because no two steps of a numbered body have the
same element. This turns the correspondence between positions and steps into one
between elements, and the elements that the analysis reports as unreachable are
those of the steps that no execution performs.
-/

namespace DeclAnalysis

namespace FlowGraph

variable {g : FlowGraph} {p q : Nat}

/-! ## Marked positions -/

theorem next_eq_nil_of_size_le (h : g.size ≤ p) : g.next p = [] := by
  have hnone : g.instructions[p]? = none := by simpa [size] using h
  simp [next, hnone]

theorem lt_size_of_mem_next (h : q ∈ g.next p) : p < g.size := by
  by_contra hp
  rw [next_eq_nil_of_size_le (Nat.le_of_not_lt hp)] at h
  simp at h

theorem lt_size_of_step? {s : Step} (h : g.step? p = some s) : p < g.size := by
  by_contra hp
  have hnone : g.instructions[p]? = none := by simpa [size] using hp
  simp [step?, hnone] at h

/-- The reachable positions of a graph are those to which its edges lead. -/
theorem has_reachable_iff (hp : p < g.size) : g.reachable.has p = true ↔ g.Leads g.entry p := by
  have hfree : ∀ {q : Nat}, (Marks.none g.size).has q = false ↔ q < g.size := by
    intro q
    simp [Marks.has_none]
  rw [reachable, reachableFrom, Marks.has_collect_iff]
  constructor
  · rintro (h | h)
    · rw [hfree.mpr hp] at h
      cases h
    · clear hp
      induction h with
      | start _ => exact .refl
      | step _ edge _ ih => exact ih.tail edge
  · intro h
    refine Or.inr ?_
    induction h with
    | refl => exact .start (hfree.mpr hp)
    | tail _ edge ih => exact (ih (lt_size_of_mem_next edge)).step edge (hfree.mpr hp)

/-! ## The graph of a body -/

section OfBody

variable (subroutine : Nat) (body : Expr)

theorem toList_ofBody :
    (ofBody subroutine body).instructions.toList =
      .enter subroutine :: (body.lower none 1 ++ [.exit subroutine]) := rfl

theorem size_ofBody : (ofBody subroutine body).size = body.span + 2 := by
  simp [ofBody, size]

theorem exit_ofBody : (ofBody subroutine body).exit = 1 + body.span := by
  simp only [exit, size_ofBody]
  omega

theorem holds_ofBody :
    (ofBody subroutine body).Holds 0
      (.enter subroutine :: (body.lower none 1 ++ [.exit subroutine])) := by
  intro k hk
  simp only [ofBody, Nat.zero_add, List.getElem?_toArray]
  exact List.getElem?_eq_getElem hk

theorem entry_ofBody :
    (ofBody subroutine body).instructions[0]? = some (.enter subroutine) :=
  (holds_ofBody subroutine body).head

theorem next_entry_ofBody : (ofBody subroutine body).next 0 = [1] := by
  simp [next, entry_ofBody]

theorem holds_body_ofBody : (ofBody subroutine body).Holds 1 (body.lower none 1) := by
  simpa using (holds_ofBody subroutine body).tail.append_left

theorem instruction_exit_ofBody :
    (ofBody subroutine body).instructions[1 + body.span]? = some (.exit subroutine) := by
  simpa using (holds_ofBody subroutine body).tail.after_lower.head

theorem next_exit_ofBody : (ofBody subroutine body).next (1 + body.span) = [] := by
  simp [next, instruction_exit_ofBody]

theorem filterMap_step?_ofBody :
    (ofBody subroutine body).instructions.toList.filterMap Instruction.step? =
      body.steps false := by
  simp [toList_ofBody, Instruction.step?, Expr.filterMap_step?_lower, List.filterMap_cons]

/-- Control reaches the entry, what is live in the body, and the exit if the body
can end. -/
theorem exists_live_ofBody :
    ∃ live, Fragment (ofBody subroutine body) none 1 (1 + body.span)
        (body.behaviour false) live ∧
      ∀ p, (ofBody subroutine body).Leads 0 p ↔
        p = 0 ∨ live p ∨
          (p = 1 + body.span ∧
            ((body.behaviour false).Ends .normal ∨ (body.behaviour false).Ends .returned)) := by
  obtain ⟨live, hlive⟩ := body.exists_fragment_lower (holds_body_ofBody subroutine body)
  refine ⟨live, hlive, fun p => ⟨fun h => ?_, fun h => ?_⟩⟩
  · have hexit : ∀ {o q}, (body.behaviour false).Ends o →
        Exits (ofBody subroutine body) none (1 + body.span) o q →
        q = 1 + body.span ∧
          ((body.behaviour false).Ends .normal ∨ (body.behaviour false).Ends .returned) := by
      intro o q ho hq
      cases hq with
      | normal => exact ⟨rfl, Or.inl ho⟩
      | broken htargets | continued htargets => cases htargets
      | returned => exact ⟨exit_ofBody subroutine body, Or.inr ho⟩
    induction h with
    | refl => exact Or.inl rfl
    | tail _ edge ih =>
        rcases ih with rfl | h | ⟨rfl, -⟩
        · rw [next_entry_ofBody, List.mem_singleton] at edge
          subst edge
          rcases hlive.enters with h | ⟨hstop, hend⟩
          · exact Or.inr (Or.inl h)
          · exact Or.inr (Or.inr ⟨hstop, Or.inl hend⟩)
        · rcases hlive.closed h edge with h | ⟨o, ho, hq⟩
          · exact Or.inr (Or.inl h)
          · exact Or.inr (Or.inr (hexit ho hq))
        · rw [next_exit_ofBody] at edge
          cases edge
  · have hentry : (ofBody subroutine body).Leads 0 1 :=
      .single (by simp [next_entry_ofBody])
    rcases h with rfl | h | ⟨rfl, h | h⟩
    · exact .refl
    · exact hentry.trans (hlive.reached h)
    · exact hentry.trans (hlive.leaves h .normal)
    · refine hentry.trans (hlive.leaves h ?_)
      rw [← exit_ofBody subroutine body]
      exact .returned

/-- A step is reachable somewhere exactly if some execution performs it. -/
theorem performs_iff_exists_reachable {s : Step} :
    (body.behaviour false).Performs s ↔
      ∃ p, (ofBody subroutine body).step? p = some s ∧
        (ofBody subroutine body).reachable.has p = true := by
  obtain ⟨live, hlive, hleads⟩ := exists_live_ofBody subroutine body
  constructor
  · intro h
    obtain ⟨p, hp, hs⟩ := hlive.complete h
    refine ⟨p, hs, (has_reachable_iff (lt_size_of_step? hs)).mpr ?_⟩
    exact (hleads p).mpr (Or.inr (Or.inl hp))
  · rintro ⟨p, hs, hp⟩
    rcases (hleads p).mp ((has_reachable_iff (lt_size_of_step? hs)).mp hp) with
      rfl | h | ⟨rfl, -⟩
    · simp [step?, entry_ofBody, Instruction.step?] at hs
    · exact hlive.sound h hs
    · simp [step?, instruction_exit_ofBody, Instruction.step?] at hs

end OfBody

/-! ## Numbered bodies -/

/-- The elements of the instructions are those of their steps. -/
theorem elements_eq_map_steps (g : FlowGraph) :
    g.elements = (g.instructions.toList.filterMap Instruction.step?).map Step.element := by
  rw [elements, List.map_filterMap]
  congr 1
  funext i
  exact (i.map_element_step?).symm

theorem spread_elements_ofBody (subroutine n : Nat) (e : Expr) :
    Spread n (n + e.nodeCount) (ofBody subroutine (e.number n)).elements := by
  rw [elements_eq_map_steps, filterMap_step?_ofBody]
  exact e.spread_steps_number false n

/-- If all elements are different, an element is found at one position only. -/
theorem eq_of_element?_eq {i j : Instruction} {x : Nat} (hnodup : g.elements.Nodup)
    (hp : g.instructions[p]? = some i) (hi : i.element? = some x)
    (hq : g.instructions[q]? = some j) (hj : j.element? = some x) : p = q := by
  have hpairs := List.pairwise_iff_getElem.mp (List.pairwise_filterMap.mp hnodup)
  rw [← Array.getElem?_toList] at hp hq
  obtain ⟨hp', rfl⟩ := List.getElem?_eq_some_iff.mp hp
  obtain ⟨hq', rfl⟩ := List.getElem?_eq_some_iff.mp hq
  rcases Nat.lt_trichotomy p q with hlt | heq | hlt
  · exact absurd rfl (hpairs p q hp' hq' hlt x hi x hj)
  · exact heq
  · exact absurd rfl (hpairs q p hq' hp' hlt x hj x hi)

/-- In the graph of a numbered body, an element is that of one step only. -/
theorem eq_of_element_eq (subroutine n : Nat) (e : Expr) {s t : Step}
    (hs : (ofBody subroutine (e.number n)).step? p = some s)
    (ht : (ofBody subroutine (e.number n)).step? q = some t)
    (h : s.element = t.element) : p = q := by
  obtain ⟨i, hi, his⟩ := Option.bind_eq_some_iff.mp hs
  obtain ⟨j, hj, hjt⟩ := Option.bind_eq_some_iff.mp ht
  refine eq_of_element?_eq (spread_elements_ofBody subroutine n e).nodup
    hi (Instruction.element?_of_step? his) hj ?_
  rw [h]
  exact Instruction.element?_of_step? hjt

/-- A step of a numbered body is reachable exactly if some execution performs
it. -/
theorem has_reachable_ofBody_iff (subroutine n : Nat) (e : Expr) {s : Step}
    (hs : (ofBody subroutine (e.number n)).step? p = some s) :
    (ofBody subroutine (e.number n)).reachable.has p = true ↔
      ((e.number n).behaviour false).Performs s := by
  rw [performs_iff_exists_reachable subroutine]
  constructor
  · intro h
    exact ⟨p, hs, h⟩
  · rintro ⟨q, hq, h⟩
    exact eq_of_element_eq subroutine n e hs hq rfl ▸ h

/-! ## Unreachable elements -/

/-- A list made from the positions of another one, if what is made at a position
depends on the entry there alone. -/
theorem filterMap_range_eq {α β : Type} {f : Nat → Option β} {k : α → Option β} (l : List α)
    (h : ∀ p a, l[p]? = some a → f p = k a) :
    (List.range l.length).filterMap f = l.filterMap k := by
  induction l using List.reverseRecOn with
  | nil => simp
  | append_singleton l a ih =>
      have hl : (List.range l.length).filterMap f = l.filterMap k := by
        refine ih fun p b hb => h p b ?_
        rw [List.getElem?_append_left (List.getElem?_eq_some_iff.mp hb).1]
        exact hb
      have ha : f l.length = k a := h l.length a (by simp)
      rw [List.length_append, List.length_singleton, List.range_succ, List.filterMap_append,
        List.filterMap_append, hl]
      simp [List.filterMap_cons, ha]

end FlowGraph

namespace FlowData

/-- The graph that was added for a subroutine is the one that is found for it. -/
theorem graph?_add (data : FlowData) (subroutine : Nat) (body : Expr) :
    (data.add subroutine body).graph? subroutine = some (.ofBody subroutine body) := by
  have hreplace : ∀ (g : FlowGraph) (graphs : List FlowGraph),
      (replace g graphs).find? (·.subroutine = g.subroutine) = some g := by
    intro g graphs
    induction graphs with
    | nil => simp [replace]
    | cons other rest ih =>
        by_cases h : other.subroutine = g.subroutine
        · simp [replace, h]
        · simpa [replace, h] using ih
  exact hreplace (.ofBody subroutine body) data.graphs

end FlowData

namespace Expr

open Classical in
/-- The elements of the steps of a body that no execution performs. The unit value
of an element is no step that could be missed. -/
noncomputable def missed (body : Expr) : List Nat :=
  ((body.steps false).filter fun s =>
    s.kind ≠ .readUnit ∧ ¬(body.behaviour false).Performs s).map Step.element

theorem nodup_missed_number (n : Nat) (e : Expr) : (e.number n).missed.Nodup :=
  (List.Sublist.map Step.element List.filter_sublist).nodup (e.spread_steps_number false n).nodup

open FlowGraph

/-- What is reported as unreachable are the steps that no execution performs. -/
theorem unreachable_ofBody (subroutine n : Nat) (e : Expr) :
    (ofBody subroutine (e.number n)).unreachable = (e.number n).missed := by
  classical
  rw [missed, ← filterMap_step?_ofBody subroutine, List.filter_filterMap, List.map_filterMap]
  refine filterMap_range_eq (ofBody subroutine (e.number n)).instructions.toList ?_
  intro p i hp
  rw [Array.getElem?_toList] at hp
  simp only [hp]
  cases hstep : i.step? with
  | none =>
      have hnone : i.element? = none := by
        rw [← i.map_element_step?, hstep, Option.map_none]
      cases i <;> simp [hnone]
  | some s =>
      have hhas := has_reachable_ofBody_iff subroutine n e (step?_eq_some hp hstep)
      by_cases h : ((e.number n).behaviour false).Performs s
      · rw [if_pos (hhas.mpr h)]
        simp [h]
      · rw [if_neg (mt hhas.mp h)]
        cases i with
        | enter _ | exit _ => cases hstep
        | jump kind target element =>
            obtain ⟨x, rfl, rfl⟩ := Option.map_eq_some_iff.mp hstep
            simp [h, Instruction.element?]
        | read _ | readUnit _ | write _ | returnValue _ | returnUnit _ | unsupported _ =>
            cases hstep
            simp [h, Instruction.element?]

/-- Marking the graph of a body finds exactly the steps that some execution
performs, and what is reported as unreachable are the elements of the others, in
the order of the steps and each once. -/
theorem reachable_iff_performs_and_unreachable_eq_missed
    (data : FlowData) (subroutine n : Nat) (e : Expr) :
    (∀ p i x, (ofBody subroutine (e.number n)).instructions[p]? = some i →
      i.element? = some x →
        ∃ s, i.step? = some s ∧ s.element = x ∧
          ((ofBody subroutine (e.number n)).reachable.has p = true ↔
            ((e.number n).behaviour false).Performs s)) ∧
      (ofBody subroutine (e.number n)).instructions.toList.filterMap Instruction.step? =
        (e.number n).steps false ∧
      (FlowInformation.data (data.add subroutine (e.number n))).unreachable subroutine =
        .ok (e.number n).missed ∧
      (e.number n).missed.Nodup := by
  refine ⟨?_, filterMap_step?_ofBody _ _, ?_, nodup_missed_number n e⟩
  · intro p i x hp hx
    rw [← i.map_element_step?] at hx
    obtain ⟨s, hstep, hs⟩ := Option.map_eq_some_iff.mp hx
    exact ⟨s, hstep, hs, has_reachable_ofBody_iff subroutine n e (step?_eq_some hp hstep)⟩
  · simp only [FlowInformation.unreachable, FlowInformation.graph, FlowData.graph?_add,
      ← unreachable_ofBody subroutine n e]
    rfl

end Expr

end DeclAnalysis
