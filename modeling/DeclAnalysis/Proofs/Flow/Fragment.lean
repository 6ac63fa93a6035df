import Mathlib.Logic.Relation
import DeclAnalysis.Flow.Graph
import DeclAnalysis.Proofs.Flow.Execution

/-!
# Runs of instructions

The instructions of an expression are one run of positions of the graph, from
its start up to but not including its stop. Such a run carries out a behaviour
if, once it is entered at its start, exactly those of its positions are passed
and exactly those ends are met that the behaviour provides for. `Fragment` says
so about a run of positions and a behaviour, and fragments are put together in
the ways in which behaviours are.

The main result is `exists_fragment_lower`: the instructions of an expression
carry out its structural behaviour, wherever they stand.
-/

namespace DeclAnalysis

namespace Instruction

/-- The step that the instruction carries out. A jump that stands for no
expression is none. -/
def step? : Instruction → Option Step
  | enter _ | exit _ => none
  | read e => some ⟨.read, e⟩
  | readUnit e => some ⟨.readUnit, e⟩
  | write e => some ⟨.write, e⟩
  | returnValue e => some ⟨.returnValue, e⟩
  | returnUnit e => some ⟨.returnUnit, e⟩
  | jump _ _ e => e.map (⟨.leave, ·⟩)
  | unsupported e => some ⟨.unsupported, e⟩

/-- An instruction carries the element of its step. -/
theorem map_element_step? (i : Instruction) : i.step?.map Step.element = i.element? := by
  cases i with
  | jump kind target element => cases element <;> rfl
  | _ => rfl

theorem element?_of_step? {i : Instruction} {s : Step} (h : i.step? = some s) :
    i.element? = some s.element := by
  rw [← i.map_element_step?, h, Option.map_some]

end Instruction

namespace FlowGraph

variable {g : FlowGraph} {loop : Option LoopTargets} {start middle stop p q : Nat}

/-! ## Code in its place -/

/-- The instructions stand in the graph from the position on. -/
def Holds (g : FlowGraph) (start : Nat) (code : List Instruction) : Prop :=
  ∀ (k : Nat) (h : k < code.length), g.instructions[start + k]? = some code[k]

theorem Holds.append_left {a b : List Instruction} (h : g.Holds start (a ++ b)) :
    g.Holds start a := by
  intro k hk
  have := h k (by simp; omega)
  rwa [List.getElem_append_left hk] at this

theorem Holds.append_right {a b : List Instruction} (h : g.Holds start (a ++ b)) :
    g.Holds (start + a.length) b := by
  intro k hk
  have := h (a.length + k) (by simp; omega)
  rw [← Nat.add_assoc, List.getElem_append_right (by omega)] at this
  simpa using this

theorem Holds.head {i : Instruction} {rest : List Instruction}
    (h : g.Holds start (i :: rest)) : g.instructions[start]? = some i :=
  h 0 (by simp)

/-- The step carried out at a position. -/
def step? (g : FlowGraph) (position : Nat) : Option Step :=
  (g.instructions[position]?).bind Instruction.step?

/-- Control can pass from one position to another along the edges. -/
def Leads (g : FlowGraph) : Nat → Nat → Prop :=
  Relation.ReflTransGen fun p q => q ∈ g.next p

theorem next_eq_of_unconditional {target : Nat} {element : Option Nat}
    (h : g.instructions[p]? = some (.jump .unconditional target element)) :
    g.next p = [target] := by
  simp [next, h]

theorem mem_next_of_conditional {kind : JumpKind} {target : Nat} {element : Option Nat}
    (h : g.instructions[p]? = some (.jump kind target element)) (hk : kind ≠ .unconditional) :
    q ∈ g.next p ↔ q = target ∨ q = p + 1 := by
  cases kind with
  | unconditional => exact absurd rfl hk
  | ifTrue | ifFalse =>
      by_cases ht : target = p + 1 <;> simp [next, h, ht]

theorem leads_target {kind : JumpKind} {target : Nat} {element : Option Nat}
    (h : g.instructions[p]? = some (.jump kind target element)) (hk : kind ≠ .unconditional) :
    g.Leads p target :=
  .single ((mem_next_of_conditional h hk).mpr (Or.inl rfl))

theorem leads_following {kind : JumpKind} {target : Nat} {element : Option Nat}
    (h : g.instructions[p]? = some (.jump kind target element)) (hk : kind ≠ .unconditional) :
    g.Leads p (p + 1) :=
  .single ((mem_next_of_conditional h hk).mpr (Or.inr rfl))

/-! ## Fragments -/

/-- Where control goes after an outcome of the positions before `stop`. -/
inductive Exits (g : FlowGraph) (loop : Option LoopTargets) (stop : Nat) :
    Ending → Nat → Prop where
  | normal : Exits g loop stop .normal stop
  | broken {targets : LoopTargets} (h : loop = some targets) :
      Exits g loop stop .broken targets.onBreak
  | continued {targets : LoopTargets} (h : loop = some targets) :
      Exits g loop stop .continued targets.onContinue
  | returned : Exits g loop stop .returned g.exit

/-- Only the normal outcome depends on where the positions stop. -/
theorem Exits.of_ne_normal {stop' : Nat} {o : Ending} (h : Exits g loop stop o q)
    (ho : o ≠ .normal) : Exits g loop stop' o q := by
  cases h with
  | normal => exact absurd rfl ho
  | broken h => exact .broken h
  | continued h => exact .continued h
  | returned => exact .returned

/-- The positions from `start` up to `stop` carry out a behaviour. The positions
of `live` are those that are passed once the start has been entered; a run of no
positions is left at once. -/
structure Fragment (g : FlowGraph) (loop : Option LoopTargets) (start stop : Nat)
    (b : Behaviour) (live : Nat → Prop) : Prop where
  enters : live start ∨ (start = stop ∧ b.Ends .normal)
  reached : ∀ {p}, live p → g.Leads start p
  leaves : ∀ {o q}, b.Ends o → Exits g loop stop o q → g.Leads start q
  closed : ∀ {p q}, live p → q ∈ g.next p → live q ∨ ∃ o, b.Ends o ∧ Exits g loop stop o q
  sound : ∀ {p s}, live p → g.step? p = some s → b.Performs s
  complete : ∀ {s}, b.Performs s → ∃ p, live p ∧ g.step? p = some s

namespace Fragment

open Behaviour

variable {a b c : Behaviour} {la lb lc : Nat → Prop}

/-- One instruction that carries out a step. -/
theorem step {s : Step} {o : Ending} (hs : g.step? p = some s) (ho : o ≠ .unfinished)
    (hnext : ∀ q, q ∈ g.next p ↔ Exits g loop (p + 1) o q) :
    Fragment g loop p (p + 1) (Behaviour.step s o) (· = p) where
  enters := Or.inl rfl
  reached h := h ▸ Relation.ReflTransGen.refl
  leaves {o' q} ho' hq := by
    rcases ends_step.mp ho' with rfl | rfl
    · cases hq
    · exact .single ((hnext q).mpr hq)
  closed {p' q} hp hq := by
    subst hp
    exact Or.inr ⟨o, by simp, (hnext q).mp hq⟩
  sound {p' s'} hp hs' := by
    subst hp
    rw [hs] at hs'
    simpa using hs'.symm
  complete {s'} h := ⟨p, rfl, by rw [hs, performs_step.mp h]⟩

/-- One instruction that carries out a step and is followed by the next one. -/
theorem step_normal {s : Step} (hs : g.step? p = some s) (hnext : g.next p = [p + 1]) :
    Fragment g loop p (p + 1) (Behaviour.step s .normal) (· = p) := by
  refine step hs (by simp) fun q => ?_
  rw [hnext, List.mem_singleton]
  constructor
  · rintro rfl
    exact .normal
  · rintro ⟨⟩
    rfl

/-- No instruction. -/
theorem skip : Fragment g loop p p Behaviour.skip fun _ => False where
  enters := Or.inr ⟨rfl, by simp⟩
  reached h := h.elim
  leaves {o q} ho hq := by
    rcases ends_skip.mp ho with rfl | rfl
    · cases hq
      exact .refl
    · cases hq
  closed h := h.elim
  sound h := h.elim
  complete h := absurd h not_performs_skip

/-- One run of positions after another. -/
theorem andThen (ha : Fragment g loop start middle a la)
    (hb : Fragment g loop middle stop b lb) :
    Fragment g loop start stop (a.andThen b) fun p => la p ∨ (a.Ends .normal ∧ lb p) where
  enters := by
    rcases ha.enters with h | ⟨rfl, hend⟩
    · exact Or.inl (Or.inl h)
    · rcases hb.enters with h | ⟨rfl, hend'⟩
      · exact Or.inl (Or.inr ⟨hend, h⟩)
      · exact Or.inr ⟨rfl, ends_andThen.mpr (Or.inr ⟨hend, hend'⟩)⟩
  reached {p} h := by
    rcases h with h | ⟨hend, h⟩
    · exact ha.reached h
    · exact (ha.leaves hend .normal).trans (hb.reached h)
  leaves {o q} ho hq := by
    rcases ends_andThen.mp ho with ⟨ho, hne⟩ | ⟨hend, ho⟩
    · exact ha.leaves ho (hq.of_ne_normal hne)
    · exact (ha.leaves hend .normal).trans (hb.leaves ho hq)
  closed {p q} h hq := by
    rcases h with h | ⟨hend, h⟩
    · rcases ha.closed h hq with h | ⟨o, ho, hexit⟩
      · exact Or.inl (Or.inl h)
      · by_cases hne : o = .normal
        · subst hne
          cases hexit
          rcases hb.enters with h | ⟨rfl, hend'⟩
          · exact Or.inl (Or.inr ⟨ho, h⟩)
          · exact Or.inr ⟨.normal, ends_andThen.mpr (Or.inr ⟨ho, hend'⟩), .normal⟩
        · exact Or.inr ⟨o, ends_andThen.mpr (Or.inl ⟨ho, hne⟩), hexit.of_ne_normal hne⟩
    · rcases hb.closed h hq with h | ⟨o, ho, hexit⟩
      · exact Or.inl (Or.inr ⟨hend, h⟩)
      · exact Or.inr ⟨o, ends_andThen.mpr (Or.inr ⟨hend, ho⟩), hexit⟩
  sound {p s} h hs := by
    rcases h with h | ⟨hend, h⟩
    · exact performs_andThen.mpr (Or.inl (ha.sound h hs))
    · exact performs_andThen.mpr (Or.inr ⟨hend, hb.sound h hs⟩)
  complete {s} h := by
    rcases performs_andThen.mp h with h | ⟨hend, h⟩
    · obtain ⟨p, hp, hs⟩ := ha.complete h
      exact ⟨p, Or.inl hp, hs⟩
    · obtain ⟨p, hp, hs⟩ := hb.complete h
      exact ⟨p, Or.inr ⟨hend, hp⟩, hs⟩

/-! ### Branches -/

variable {kind : JumpKind}

theorem step?_eq_none {target : Nat}
    (h : g.instructions[p]? = some (.jump kind target none)) : g.step? p = none := by
  simp [step?, h, Instruction.step?]

/-- A jump over a run of positions to where they stop. -/
theorem jumpOver (hj : g.instructions[p]? = some (.jump kind stop none))
    (hk : kind ≠ .unconditional) (ha : Fragment g loop (p + 1) stop a la) :
    Fragment g loop p stop (Behaviour.skip.either a) fun q => q = p ∨ la q where
  enters := Or.inl (Or.inl rfl)
  reached {q} h := by
    rcases h with rfl | h
    · exact .refl
    · exact (leads_following hj hk).trans (ha.reached h)
  leaves {o q} ho hq := by
    rcases ends_either.mp ho with ho | ho
    · rcases ends_skip.mp ho with rfl | rfl
      · cases hq
        exact leads_target hj hk
      · cases hq
    · exact (leads_following hj hk).trans (ha.leaves ho hq)
  closed {q r} h hr := by
    rcases h with rfl | h
    · rcases (mem_next_of_conditional hj hk).mp hr with rfl | rfl
      · exact Or.inr ⟨.normal, by simp, .normal⟩
      · rcases ha.enters with h | ⟨rfl, hend⟩
        · exact Or.inl (Or.inr h)
        · exact Or.inr ⟨.normal, by simp, .normal⟩
    · rcases ha.closed h hr with h | ⟨o, ho, hexit⟩
      · exact Or.inl (Or.inr h)
      · exact Or.inr ⟨o, ends_either.mpr (Or.inr ho), hexit⟩
  sound {q s} h hs := by
    rcases h with rfl | h
    · simp [step?_eq_none hj] at hs
    · exact performs_either.mpr (Or.inr (ha.sound h hs))
  complete {s} h := by
    rcases performs_either.mp h with h | h
    · exact absurd h not_performs_skip
    · obtain ⟨q, hq, hs⟩ := ha.complete h
      exact ⟨q, Or.inr hq, hs⟩

/-- A choice between two runs of positions. -/
theorem branch {other : Nat} (hj : g.instructions[p]? = some (.jump kind other none))
    (hk : kind ≠ .unconditional) (ha : Fragment g loop (p + 1) middle a la)
    (hm : g.instructions[middle]? = some (.jump .unconditional stop none))
    (hb : Fragment g loop other stop b lb) :
    Fragment g loop p stop (a.either b)
      fun q => q = p ∨ la q ∨ (a.Ends .normal ∧ q = middle) ∨ lb q where
  enters := Or.inl (Or.inl rfl)
  reached {q} h := by
    rcases h with rfl | h | ⟨hend, rfl⟩ | h
    · exact .refl
    · exact (leads_following hj hk).trans (ha.reached h)
    · exact (leads_following hj hk).trans (ha.leaves hend .normal)
    · exact (leads_target hj hk).trans (hb.reached h)
  leaves {o q} ho hq := by
    rcases ends_either.mp ho with ho | ho
    · by_cases hne : o = .normal
      · subst hne
        cases hq
        refine (leads_following hj hk).trans ((ha.leaves ho .normal).trans (.single ?_))
        simp [next_eq_of_unconditional hm]
      · exact (leads_following hj hk).trans (ha.leaves ho (hq.of_ne_normal hne))
    · exact (leads_target hj hk).trans (hb.leaves ho hq)
  closed {q r} h hr := by
    rcases h with rfl | h | ⟨hend, rfl⟩ | h
    · rcases (mem_next_of_conditional hj hk).mp hr with rfl | rfl
      · rcases hb.enters with h | ⟨rfl, hend⟩
        · exact Or.inl (Or.inr (Or.inr (Or.inr h)))
        · exact Or.inr ⟨.normal, ends_either.mpr (Or.inr hend), .normal⟩
      · rcases ha.enters with h | ⟨rfl, hend⟩
        · exact Or.inl (Or.inr (Or.inl h))
        · exact Or.inl (Or.inr (Or.inr (Or.inl ⟨hend, rfl⟩)))
    · rcases ha.closed h hr with h | ⟨o, ho, hexit⟩
      · exact Or.inl (Or.inr (Or.inl h))
      · by_cases hne : o = .normal
        · subst hne
          cases hexit
          exact Or.inl (Or.inr (Or.inr (Or.inl ⟨ho, rfl⟩)))
        · exact Or.inr ⟨o, ends_either.mpr (Or.inl ho), hexit.of_ne_normal hne⟩
    · rw [next_eq_of_unconditional hm, List.mem_singleton] at hr
      subst hr
      exact Or.inr ⟨.normal, ends_either.mpr (Or.inl hend), .normal⟩
    · rcases hb.closed h hr with h | ⟨o, ho, hexit⟩
      · exact Or.inl (Or.inr (Or.inr (Or.inr h)))
      · exact Or.inr ⟨o, ends_either.mpr (Or.inr ho), hexit⟩
  sound {q s} h hs := by
    rcases h with rfl | h | ⟨-, rfl⟩ | h
    · simp [step?_eq_none hj] at hs
    · exact performs_either.mpr (Or.inl (ha.sound h hs))
    · simp [step?_eq_none hm] at hs
    · exact performs_either.mpr (Or.inr (hb.sound h hs))
  complete {s} h := by
    rcases performs_either.mp h with h | h
    · obtain ⟨q, hq, hs⟩ := ha.complete h
      exact ⟨q, Or.inr (Or.inl hq), hs⟩
    · obtain ⟨q, hq, hs⟩ := hb.complete h
      exact ⟨q, Or.inr (Or.inr (Or.inr hq)), hs⟩

/-! ### Loops -/

/-- A loop that checks its condition first. A normal end of the condition leads
to the jump at `check`, from which the loop is left or its body entered. -/
theorem whileLoop {check last : Nat} (hc : Fragment g loop start check c lc)
    (hj : g.instructions[check]? = some (.jump kind (last + 1) none))
    (hk : kind ≠ .unconditional)
    (hb : Fragment g (some ⟨start, last + 1⟩) (check + 1) last b lb)
    (hl : g.instructions[last]? = some (.jump .unconditional start none)) :
    Fragment g loop start (last + 1) (Behaviour.whileLoop c b)
      fun p => lc p ∨
        (c.Ends .normal ∧ (p = check ∨ lb p ∨ (b.Ends .normal ∧ p = last))) where
  enters := by
    rcases hc.enters with h | ⟨rfl, hend⟩
    · exact Or.inl (Or.inl h)
    · exact Or.inl (Or.inr ⟨hend, Or.inl rfl⟩)
  reached {p} h := by
    rcases h with h | ⟨hend, rfl | h | ⟨hend', rfl⟩⟩
    · exact hc.reached h
    · exact hc.leaves hend .normal
    · exact (hc.leaves hend .normal).trans ((leads_following hj hk).trans (hb.reached h))
    · exact (hc.leaves hend .normal).trans ((leads_following hj hk).trans (hb.leaves hend' .normal))
  leaves {o q} ho hq := by
    rcases ends_whileLoop.mp ho with ⟨rfl, hend⟩ | ⟨ho, hne⟩ | ⟨hend, ho, hloop⟩
    · cases hq
      exact (hc.leaves hend .normal).trans
        (leads_target hj hk)
    · exact hc.leaves ho (hq.of_ne_normal hne)
    · cases hq with
      | normal | broken | continued => exact hloop.elim
      | returned =>
          exact (hc.leaves hend .normal).trans
            ((leads_following hj hk).trans (hb.leaves ho .returned))
  closed {p q} h hq := by
    have hback : c.Ends .normal → lc start ∨
        (c.Ends .normal ∧ (start = check ∨ lb start ∨ (b.Ends .normal ∧ start = last))) := by
      intro hend
      rcases hc.enters with h | ⟨rfl, -⟩
      · exact Or.inl h
      · exact Or.inr ⟨hend, Or.inl rfl⟩
    rcases h with h | ⟨hend, rfl | h | ⟨hend', rfl⟩⟩
    · rcases hc.closed h hq with h | ⟨o, ho, hexit⟩
      · exact Or.inl (Or.inl h)
      · by_cases hne : o = .normal
        · subst hne
          cases hexit
          exact Or.inl (Or.inr ⟨ho, Or.inl rfl⟩)
        · exact Or.inr ⟨o, ends_whileLoop.mpr (Or.inr (Or.inl ⟨ho, hne⟩)),
            hexit.of_ne_normal hne⟩
    · rcases (mem_next_of_conditional hj hk).mp hq with rfl | rfl
      · exact Or.inr ⟨.normal, ends_whileLoop.mpr (Or.inl ⟨rfl, hend⟩), .normal⟩
      · rcases hb.enters with h | ⟨rfl, hend'⟩
        · exact Or.inl (Or.inr ⟨hend, Or.inr (Or.inl h)⟩)
        · exact Or.inl (Or.inr ⟨hend, Or.inr (Or.inr ⟨hend', rfl⟩)⟩)
    · rcases hb.closed h hq with h | ⟨o, ho, hexit⟩
      · exact Or.inl (Or.inr ⟨hend, Or.inr (Or.inl h)⟩)
      · cases hexit with
        | normal => exact Or.inl (Or.inr ⟨hend, Or.inr (Or.inr ⟨ho, rfl⟩)⟩)
        | broken htargets =>
            cases htargets
            exact Or.inr ⟨.normal, ends_whileLoop.mpr (Or.inl ⟨rfl, hend⟩), .normal⟩
        | continued htargets =>
            cases htargets
            exact Or.inl (hback hend)
        | returned =>
            exact Or.inr ⟨.returned, ends_whileLoop.mpr (Or.inr (Or.inr ⟨hend, ho, trivial⟩)),
              .returned⟩
    · rw [next_eq_of_unconditional hl, List.mem_singleton] at hq
      subst hq
      exact Or.inl (hback hend)
  sound {p s} h hs := by
    rcases h with h | ⟨hend, rfl | h | ⟨-, rfl⟩⟩
    · exact performs_whileLoop.mpr (Or.inl (hc.sound h hs))
    · simp [step?_eq_none hj] at hs
    · exact performs_whileLoop.mpr (Or.inr ⟨hend, hb.sound h hs⟩)
    · simp [step?_eq_none hl] at hs
  complete {s} h := by
    rcases performs_whileLoop.mp h with h | ⟨hend, h⟩
    · obtain ⟨p, hp, hs⟩ := hc.complete h
      exact ⟨p, Or.inl hp, hs⟩
    · obtain ⟨p, hp, hs⟩ := hb.complete h
      exact ⟨p, Or.inr ⟨hend, Or.inr (Or.inl hp)⟩, hs⟩

/-- A loop that checks its condition last. The normal end of its body and every
`continue` lead to the condition at `check`. -/
theorem doWhileLoop {check last : Nat}
    (hb : Fragment g (some ⟨check, last + 1⟩) start check b lb)
    (hc : Fragment g loop check last c lc)
    (hj : g.instructions[last]? = some (.jump kind start none)) (hk : kind ≠ .unconditional) :
    Fragment g loop start (last + 1) (Behaviour.doWhileLoop b c)
      fun p => lb p ∨ (b.GoesOn ∧ (lc p ∨ (c.Ends .normal ∧ p = last))) := by
  have hcheck : b.GoesOn → g.Leads start check := by
    rintro ⟨o, ho, hgo⟩
    cases o with
    | normal => exact hb.leaves ho .normal
    | continued => exact hb.leaves ho (.continued rfl)
    | broken | returned | unfinished => exact hgo.elim
  have hcheckLive : b.GoesOn → lc check ∨ (c.Ends .normal ∧ check = last) := by
    intro _
    rcases hc.enters with h | ⟨rfl, hend⟩
    · exact Or.inl h
    · exact Or.inr ⟨hend, rfl⟩
  have hstart : lb start ∨ (b.GoesOn ∧ (lc start ∨ (c.Ends .normal ∧ start = last))) := by
    rcases hb.enters with h | ⟨rfl, hend⟩
    · exact Or.inl h
    · have hgo : b.GoesOn := ⟨.normal, hend, trivial⟩
      exact Or.inr ⟨hgo, hcheckLive hgo⟩
  refine ⟨Or.inl hstart, fun {p} h => ?_, fun {o q} ho hq => ?_, fun {p q} h hq => ?_,
    fun {p s} h hs => ?_, fun {s} h => ?_⟩
  · rcases h with h | ⟨hgo, h | ⟨hend, rfl⟩⟩
    · exact hb.reached h
    · exact (hcheck hgo).trans (hc.reached h)
    · exact (hcheck hgo).trans (hc.leaves hend .normal)
  · rcases ends_doWhileLoop.mp ho with ⟨rfl, ho | ⟨hgo, hend⟩⟩ | ⟨ho, hloop⟩ | ⟨hgo, ho, hne⟩
    · cases hq
      exact hb.leaves ho (.broken rfl)
    · cases hq
      exact (hcheck hgo).trans ((hc.leaves hend .normal).trans
        (leads_following hj hk))
    · cases hq with
      | normal | broken | continued => exact hloop.elim
      | returned => exact hb.leaves ho .returned
    · exact (hcheck hgo).trans (hc.leaves ho (hq.of_ne_normal hne))
  · rcases h with h | ⟨hgo, h | ⟨hend, rfl⟩⟩
    · rcases hb.closed h hq with h | ⟨o, ho, hexit⟩
      · exact Or.inl (Or.inl h)
      · cases hexit with
        | normal =>
            have hgo : b.GoesOn := ⟨.normal, ho, trivial⟩
            exact Or.inl (Or.inr ⟨hgo, hcheckLive hgo⟩)
        | broken htargets =>
            cases htargets
            exact Or.inr ⟨.normal, ends_doWhileLoop.mpr (Or.inl ⟨rfl, Or.inl ho⟩), .normal⟩
        | continued htargets =>
            cases htargets
            have hgo : b.GoesOn := ⟨.continued, ho, trivial⟩
            exact Or.inl (Or.inr ⟨hgo, hcheckLive hgo⟩)
        | returned =>
            exact Or.inr ⟨.returned, ends_doWhileLoop.mpr (Or.inr (Or.inl ⟨ho, trivial⟩)),
              .returned⟩
    · rcases hc.closed h hq with h | ⟨o, ho, hexit⟩
      · exact Or.inl (Or.inr ⟨hgo, Or.inl h⟩)
      · by_cases hne : o = .normal
        · subst hne
          cases hexit
          exact Or.inl (Or.inr ⟨hgo, Or.inr ⟨ho, rfl⟩⟩)
        · exact Or.inr ⟨o, ends_doWhileLoop.mpr (Or.inr (Or.inr ⟨hgo, ho, hne⟩)),
            hexit.of_ne_normal hne⟩
    · rcases (mem_next_of_conditional hj hk).mp hq with rfl | rfl
      · exact Or.inl hstart
      · exact Or.inr ⟨.normal, ends_doWhileLoop.mpr (Or.inl ⟨rfl, Or.inr ⟨hgo, hend⟩⟩), .normal⟩
  · rcases h with h | ⟨hgo, h | ⟨-, rfl⟩⟩
    · exact performs_doWhileLoop.mpr (Or.inl (hb.sound h hs))
    · exact performs_doWhileLoop.mpr (Or.inr ⟨hgo, hc.sound h hs⟩)
    · simp [step?_eq_none hj] at hs
  · rcases performs_doWhileLoop.mp h with h | ⟨hgo, h⟩
    · obtain ⟨p, hp, hs⟩ := hb.complete h
      exact ⟨p, Or.inl hp, hs⟩
    · obtain ⟨p, hp, hs⟩ := hc.complete h
      exact ⟨p, Or.inr ⟨hgo, Or.inl hp⟩, hs⟩

end Fragment

end FlowGraph

end DeclAnalysis
