import DeclAnalysis.Flow.Query
import DeclAnalysis.Proofs.Flow.Lowering

/-!
# Last steps

The value of an expression is that of its last step. Which steps can be last is
read off the syntax: `tails` collects the last steps of the normal runs of an
expression, and `finals` the steps after which a `return` inside the expression
hands over its value, or is done without one.

In the graph a jump and the return of a value pass on the value with which they
are entered. A position from which such instructions lead to the exit drains, and
the value of the subroutine comes from the steps that are followed by a draining
position. `Concludes` relates the two readings. A fragment starts with an
instruction that does not drain, so whatever precedes it contributes no last
step; the targets of a loop do not drain for the same reason.
-/

namespace DeclAnalysis

namespace Expr

mutual

/-- The last steps of an expression when it ends normally. -/
def tails (inBody : Bool) : Expr → List Step
  | constant id _ | name id _ | dot id _ _ | call id _ _ | binary id _ _ _ => [⟨.read, id⟩]
  | whileLoop id _ _ | doWhileLoop id _ _ => [⟨.readUnit, id⟩]
  | block id statements => blockTails inBody id statements
  | cond id _ thenBranch none => thenBranch.tails inBody ++ [⟨.readUnit, id⟩]
  | cond _ _ thenBranch (some elseBranch) => thenBranch.tails inBody ++ elseBranch.tails inBody
  | assign id _ _ | localVariable id _ _ _ _ => [⟨.write, id⟩]
  | lambda id _ _ => [⟨.unsupported, id⟩]
  | breakLoop id | continueLoop id => if inBody then [] else [⟨.unsupported, id⟩]
  | ret _ _ => []

/-- The last steps of a block when it ends normally. -/
def blockTails (inBody : Bool) (id : Nat) : List Expr → List Step
  | [] => [⟨.readUnit, id⟩]
  | [last] => last.tails inBody
  | _ :: second :: rest => blockTails inBody id (second :: rest)

end

mutual

/-- The steps after which a `return` in an expression ends the body: the last
steps of the returned value, or the step of the `return` itself. -/
def finals (inBody : Bool) : Expr → List Step
  | constant .. | name .. | lambda .. | breakLoop _ | continueLoop _ | block _ []
  | localVariable _ _ _ _ none => []
  | dot _ receiver _ => receiver.finals inBody
  | block _ (first :: rest) => first.finals inBody ++ finalsAll inBody rest
  | cond _ condition thenBranch none => condition.finals inBody ++ thenBranch.finals inBody
  | cond _ condition thenBranch (some elseBranch) =>
    condition.finals inBody ++ thenBranch.finals inBody ++ elseBranch.finals inBody
  | whileLoop _ condition body => condition.finals inBody ++ body.finals true
  | doWhileLoop _ body condition => body.finals true ++ condition.finals inBody
  | ret id none => [⟨.returnUnit, id⟩]
  | ret _ (some value) => value.finals inBody ++ value.tails inBody
  | binary _ _ left right => left.finals inBody ++ right.finals inBody
  | assign _ target value => receiverFinals inBody target ++ value.finals inBody
  | call _ _ arguments => finalsAll inBody arguments
  | localVariable _ _ _ _ (some initializer) => initializer.finals inBody

/-- The steps after which a `return` in one of several expressions ends the body. -/
def finalsAll (inBody : Bool) : List Expr → List Step
  | [] => []
  | e :: rest => e.finals inBody ++ finalsAll inBody rest

/-- The steps after which a `return` in the target of an assignment ends the body. -/
def receiverFinals (inBody : Bool) : Expr → List Step
  | dot _ receiver _ => receiver.finals inBody
  | _ => []

end

end Expr

namespace FlowGraph

open DeclAnalysis.Expr

variable {g : FlowGraph} {loop : Option LoopTargets} {start middle stop p q : Nat}

/-! ## Positions that drain -/

/-- From the position only instructions that pass on a value lead to the exit. -/
inductive Drains (g : FlowGraph) : Nat → Prop where
  | exit : Drains g g.exit
  | pass {p q : Nat} (hp : g.passesOn p = true) (edge : q ∈ g.next p) (hq : Drains g q) :
      Drains g p

/-- The exit of a graph stands where it should. -/
def Closed (g : FlowGraph) : Prop :=
  ∃ subroutine, g.instructions[g.exit]? = some (.exit subroutine)

/-- An instruction that has a value of its own does not drain. -/
theorem not_drains_of_not_passesOn
    {i : Instruction}
    (hclosed : g.Closed)
    (hi : g.instructions[p]? = some i)
    (hp : i.passesOn = false)
    (hexit : ∀ subroutine, i ≠ .exit subroutine) :
    ¬g.Drains p := by
  intro h
  cases h with
  | exit =>
      obtain ⟨subroutine, hsub⟩ := hclosed
      rw [hi, Option.some_inj] at hsub
      exact hexit subroutine hsub
  | pass hp' _ _ =>
      simp [passesOn, hi, hp] at hp'

/-- A jump drains if one of its successors does. -/
theorem drains_jump_iff
    {kind : JumpKind} {target : Nat} {element : Option Nat}
    (hclosed : g.Closed)
    (hj : g.instructions[p]? = some (.jump kind target element)) :
    g.Drains p ↔ ∃ q ∈ g.next p, g.Drains q := by
  constructor
  · intro h
    cases h with
    | exit =>
        obtain ⟨subroutine, hsub⟩ := hclosed
        rw [hj, Option.some_inj] at hsub
        cases hsub
    | pass _ edge hq => exact ⟨_, edge, hq⟩
  · rintro ⟨q, edge, hq⟩
    refine .pass ?_ edge hq
    simp [passesOn, hj, Instruction.passesOn]

/-- The value of the subroutine may be that of the step at the position. -/
def Yields (g : FlowGraph) (p : Nat) (s : Step) : Prop :=
  g.step? p = some s ∧ g.passesOn p = false ∧ ∃ q ∈ g.next p, g.Drains q

/-- The value of the subroutine comes from the final steps of the positions, and
from their last steps if the position after them drains. -/
structure Concludes (g : FlowGraph) (start stop : Nat) (tails finals : List Step) : Prop where
  quiet : g.Drains start → start = stop
  sound : ∀ {p s}, start ≤ p → p < stop → g.Yields p s →
    s ∈ finals ∨ (s ∈ tails ∧ g.Drains stop)
  finals_complete : ∀ {s}, s ∈ finals → ∃ p, g.Yields p s
  tails_complete : ∀ {s}, s ∈ tails → g.Drains stop → ∃ p, g.Yields p s

namespace Concludes

variable {ta tb fa fb : List Step}

/-- One instruction that does not drain. If it has a value of its own, its step is
given by `hs` and its successors drain as `hnext` says. -/
theorem single
    {tails finals : List Step}
    (hquiet : ¬g.Drains p)
    (hsound : ∀ {s}, g.Yields p s → s ∈ finals ∨ (s ∈ tails ∧ g.Drains (p + 1)))
    (hfinals : ∀ {s}, s ∈ finals → g.Yields p s)
    (htails : ∀ {s}, s ∈ tails → g.Drains (p + 1) → g.Yields p s) :
    Concludes g p (p + 1) tails finals where
  quiet h := absurd h hquiet
  sound {q s} hp hq h := by
    obtain rfl : q = p := by omega
    exact hsound h
  finals_complete h := ⟨p, hfinals h⟩
  tails_complete h hdrains := ⟨p, htails h hdrains⟩

theorem not_passesOn_of_plain {i : Instruction} {s : Step}
    (hs : i.step? = some s) (hk : s.kind.isPlain = true ∨ s.kind = .returnUnit) :
    i.passesOn = false := by
  cases i with
  | jump kind target element =>
      obtain ⟨e, -, rfl⟩ := Option.map_eq_some_iff.mp hs
      simp [StepKind.isPlain] at hk
  | returnValue e =>
      cases hs
      simp [StepKind.isPlain] at hk
  | enter _ | exit _ => cases hs
  | read _ | readUnit _ | write _ | unsupported _ | returnUnit _ => rfl

/-- An instruction with a value of its own that is followed by the next one. -/
theorem plain {i : Instruction} {s : Step} (hclosed : g.Closed)
    (hi : g.instructions[p]? = some i) (hs : i.step? = some s) (hk : s.kind.isPlain = true) :
    Concludes g p (p + 1) [s] [] := by
  have hpass : i.passesOn = false := not_passesOn_of_plain hs (Or.inl hk)
  have hquiet : ¬g.Drains p := by
    refine not_drains_of_not_passesOn hclosed hi hpass ?_
    rintro subroutine rfl
    cases hs
  have hstep : g.step? p = some s := step?_eq_some hi hs
  have hnext : g.next p = [p + 1] := next_eq_of_plain hi hs hk
  refine single hquiet ?_ (by simp) ?_
  · rintro s' ⟨hs', -, q, edge, hq⟩
    rw [hnext, List.mem_singleton] at edge
    rw [hstep, Option.some_inj] at hs'
    subst edge hs'
    exact Or.inr ⟨List.mem_singleton_self s, hq⟩
  · intro s' hs' hdrains
    obtain rfl := List.mem_singleton.mp hs'
    exact ⟨hstep, by simp [FlowGraph.passesOn, hi, hpass], p + 1, by simp [hnext], hdrains⟩

/-- A return without a value. -/
theorem returnUnit {id : Nat} (hclosed : g.Closed)
    (hi : g.instructions[p]? = some (.returnUnit id)) :
    Concludes g p (p + 1) [] [⟨.returnUnit, id⟩] := by
  have hquiet : ¬g.Drains p := not_drains_of_not_passesOn hclosed hi rfl (by simp)
  have hstep : g.step? p = some ⟨.returnUnit, id⟩ := step?_eq_some hi rfl
  have hnext : g.next p = [g.exit] := next_eq_of_return hi rfl (by simp)
  refine single hquiet ?_ ?_ (by simp)
  · rintro s ⟨hs, -⟩
    rw [hstep, Option.some_inj] at hs
    exact Or.inl (by simp [hs])
  · intro s hs
    obtain rfl := List.mem_singleton.mp hs
    exact ⟨hstep, by simp [FlowGraph.passesOn, hi, Instruction.passesOn], g.exit,
      by simp [hnext], .exit⟩

/-- A jump that does not drain. -/
theorem jump {kind : JumpKind} {target : Nat} {element : Option Nat} (hclosed : g.Closed)
    (hj : g.instructions[p]? = some (.jump kind target element))
    (hquiet : ∀ q ∈ g.next p, ¬g.Drains q) :
    Concludes g p (p + 1) [] [] := by
  refine single ?_ ?_ (by simp) (by simp)
  · rw [drains_jump_iff hclosed hj]
    rintro ⟨q, edge, hq⟩
    exact hquiet q edge hq
  · rintro s ⟨-, hpass, -⟩
    simp [FlowGraph.passesOn, hj, Instruction.passesOn] at hpass

/-- No instruction. -/
theorem nothing : Concludes g p p [] [] where
  quiet _ := rfl
  sound hp hq _ := by omega
  finals_complete h := by simp at h
  tails_complete h _ := by simp at h

/-- One run of positions after another that does not begin with a draining one. -/
theorem andThen (ha : Concludes g start middle ta fa) (hb : Concludes g middle stop tb fb)
    (hquiet : ¬g.Drains middle) (hle : middle ≤ stop) :
    Concludes g start stop tb (fa ++ fb) where
  quiet h := by
    obtain rfl := ha.quiet h
    exact absurd h hquiet
  sound {p s} hp hq h := by
    rcases Nat.lt_or_ge p middle with hlt | hge
    · rcases ha.sound hp hlt h with h | ⟨-, hdrains⟩
      · exact Or.inl (List.mem_append_left _ h)
      · exact absurd hdrains hquiet
    · rcases hb.sound hge hq h with h | h
      · exact Or.inl (List.mem_append_right _ h)
      · exact Or.inr h
  finals_complete h := by
    rcases List.mem_append.mp h with h | h
    · exact ha.finals_complete h
    · exact hb.finals_complete h
  tails_complete := hb.tails_complete

theorem not_drains (h : Concludes g start stop ta fa) (hlt : start < stop) :
    ¬g.Drains start := by
  intro hdrains
  exact Nat.ne_of_lt hlt (h.quiet hdrains)

/-- An instruction with a value of its own at the end is the only last step. -/
theorem followed {i : Instruction} {s : Step} (ha : Concludes g start middle ta fa)
    (hclosed : g.Closed) (hi : g.instructions[middle]? = some i) (hs : i.step? = some s)
    (hk : s.kind.isPlain = true) : Concludes g start (middle + 1) [s] fa := by
  have hb := plain hclosed hi hs hk
  simpa using ha.andThen hb (hb.not_drains (by omega)) (by omega)

/-- The return of a value hands over the last steps of the value. -/
theorem returnValue {id : Nat} (ha : Concludes g start middle ta fa)
    (hi : g.instructions[middle]? = some (.returnValue id)) (hlt : start < middle) :
    Concludes g start (middle + 1) [] (fa ++ ta) := by
  have hdrains : g.Drains middle := by
    refine .pass (q := g.exit) ?_ ?_ .exit
    · simp [FlowGraph.passesOn, hi, Instruction.passesOn]
    · simp [next_eq_of_return hi rfl]
  refine ⟨fun h => ?_, fun {p s} hp hq h => ?_, fun {s} h => ?_, by simp⟩
  · have := ha.quiet h
    omega
  · rcases Nat.lt_or_ge p middle with hlt | hge
    · rcases ha.sound hp hlt h with h | ⟨h, -⟩
      · exact Or.inl (List.mem_append_left _ h)
      · exact Or.inl (List.mem_append_right _ h)
    · obtain rfl : p = middle := by omega
      obtain ⟨-, hpass, -⟩ := h
      simp [FlowGraph.passesOn, hi, Instruction.passesOn] at hpass
  · rcases List.mem_append.mp h with h | h
    · exact ha.finals_complete h
    · exact ha.tails_complete h hdrains

/-- Two branches, the first of which is followed by a jump over the second. -/
theorem branch (hclosed : g.Closed) (ha : Concludes g start middle ta fa)
    (hm : g.instructions[middle]? = some (.jump .unconditional stop none))
    (hb : Concludes g (middle + 1) stop tb fb) (hlt : start < middle) (hle : middle < stop) :
    Concludes g start stop (ta ++ tb) (fa ++ fb) := by
  have hdrains : g.Drains middle ↔ g.Drains stop := by
    rw [drains_jump_iff hclosed hm]
    simp [next_eq_of_unconditional hm]
  refine ⟨fun h => ?_, fun {p s} hp hq h => ?_, fun {s} h => ?_, fun {s} h hstop => ?_⟩
  · have := ha.quiet h
    omega
  · rcases Nat.lt_trichotomy p middle with hlt | rfl | hgt
    · rcases ha.sound hp hlt h with h | ⟨h, hmiddle⟩
      · exact Or.inl (List.mem_append_left _ h)
      · exact Or.inr ⟨List.mem_append_left _ h, hdrains.mp hmiddle⟩
    · obtain ⟨-, hpass, -⟩ := h
      simp [FlowGraph.passesOn, hm, Instruction.passesOn] at hpass
    · rcases hb.sound hgt hq h with h | ⟨h, hstop⟩
      · exact Or.inl (List.mem_append_right _ h)
      · exact Or.inr ⟨List.mem_append_right _ h, hstop⟩
  · rcases List.mem_append.mp h with h | h
    · exact ha.finals_complete h
    · exact hb.finals_complete h
  · rcases List.mem_append.mp h with h | h
    · exact ha.tails_complete h (hdrains.mpr hstop)
    · exact hb.tails_complete h hstop

end Concludes

end FlowGraph

/-! ## Expressions -/

namespace Expr

open FlowGraph

theorem span_pos (e : Expr) : 0 < e.span := by
  match e with
  | constant .. | name .. | breakLoop _ | continueLoop _ | lambda .. | ret _ none
  | localVariable _ _ _ _ none | block _ [] => simp [span]
  | dot .. | cond _ _ _ none | whileLoop .. | doWhileLoop .. | ret _ (some _) | assign ..
  | call .. | localVariable _ _ _ _ (some _) => simp [span]
  | cond _ _ _ (some _) =>
      simp only [span]
      omega
  | binary _ operator _ _ => cases h : operator.isShortCircuit <;> simp [span, h]
  | block _ (first :: rest) =>
      have := first.span_pos
      simp only [span]
      omega

/-- The targets of a loop do not drain. -/
def QuietLoop (g : FlowGraph) (loop : Option LoopTargets) : Prop :=
  ∀ targets, loop = some targets → ¬g.Drains targets.onBreak ∧ ¬g.Drains targets.onContinue

theorem quietLoop_some {g : FlowGraph} {onContinue onBreak : Nat}
    (hcontinue : ¬g.Drains onContinue) (hbreak : ¬g.Drains onBreak) :
    QuietLoop g (some ⟨onContinue, onBreak⟩) := by
  rintro targets ⟨⟩
  exact ⟨hbreak, hcontinue⟩

/-- A conditional jump does not drain if neither of its successors does. -/
theorem concludes_conditional {g : FlowGraph} {p target : Nat} {kind : JumpKind}
    (hclosed : g.Closed) (hj : g.instructions[p]? = some (.jump kind target none))
    (hk : kind ≠ .unconditional) (htarget : ¬g.Drains target)
    (hfollowing : ¬g.Drains (p + 1)) :
    Concludes g p (p + 1) [] [] := by
  refine .jump hclosed hj ?_
  intro q edge
  rcases (mem_next_of_conditional hj hk).mp edge with rfl | rfl
  · exact htarget
  · exact hfollowing

/-- An unconditional jump does not drain if its target does not. -/
theorem concludes_unconditional {g : FlowGraph} {p target : Nat} {element : Option Nat}
    (hclosed : g.Closed)
    (hj : g.instructions[p]? = some (.jump .unconditional target element))
    (htarget : ¬g.Drains target) :
    Concludes g p (p + 1) [] [] := by
  refine .jump hclosed hj ?_
  intro q edge
  rw [next_eq_of_unconditional hj, List.mem_singleton] at edge
  exact edge ▸ htarget

/-- Two branches behind a conditional jump from which one of them is reached. -/
theorem concludes_branches {g : FlowGraph} {start middle next stop : Nat} {kind : JumpKind}
    {ts fs ta fa tb fb : List Step} (hclosed : g.Closed) (hhead : Concludes g start middle ts fs)
    (hj : g.instructions[middle]? = some (.jump kind (next + 1) none)) (hk : kind ≠ .unconditional)
    (ha : Concludes g (middle + 1) next ta fa)
    (hm : g.instructions[next]? = some (.jump .unconditional stop none))
    (hb : Concludes g (next + 1) stop tb fb) (hlt : middle + 1 < next) (hlt' : next + 1 < stop) :
    Concludes g start stop (ta ++ tb) (fs ++ (fa ++ fb)) := by
  have hfirst := ha.not_drains hlt
  have hjump := concludes_conditional hclosed hj hk (hb.not_drains hlt') hfirst
  have hbranch := ha.branch hclosed hm hb hlt (by omega)
  have hboth := (hhead.andThen hjump (hjump.not_drains (by omega)) (by omega)).andThen hbranch
    hfirst (by omega)
  rwa [List.append_nil] at hboth

/-- A loop that checks its condition first ends with a failed check. -/
theorem concludes_whileLoop {g : FlowGraph} {start middle next id : Nat} {kind : JumpKind}
    {tc fc tb fb : List Step} (hclosed : g.Closed) (hc : Concludes g start middle tc fc)
    (hj : g.instructions[middle]? = some (.jump kind (next + 1) none)) (hk : kind ≠ .unconditional)
    (hb : Concludes g (middle + 1) next tb fb)
    (hm : g.instructions[next]? = some (.jump .unconditional start none))
    (hi : g.instructions[next + 1]? = some (.readUnit id))
    (hlt : start < middle) (hlt' : middle + 1 < next) :
    Concludes g start (next + 2) [⟨.readUnit, id⟩] (fc ++ fb) := by
  have hdone := Concludes.plain hclosed hi rfl rfl
  have hjump := concludes_conditional hclosed hj hk (hdone.not_drains (by omega))
    (hb.not_drains hlt')
  have hback := concludes_unconditional hclosed hm (hc.not_drains hlt)
  have hhead := hc.andThen hjump (hjump.not_drains (by omega)) (by omega)
  have hbody := hhead.andThen hb (hb.not_drains hlt') (by omega)
  have hloop := hbody.andThen hback (hback.not_drains (by omega)) (by omega)
  simpa using hloop.followed hclosed hi rfl rfl

/-- So does a loop that checks its condition last. -/
theorem concludes_doWhileLoop {g : FlowGraph} {start middle next id : Nat} {kind : JumpKind}
    {tb fb tc fc : List Step} (hclosed : g.Closed) (hb : Concludes g start middle tb fb)
    (hc : Concludes g middle next tc fc)
    (hj : g.instructions[next]? = some (.jump kind start none)) (hk : kind ≠ .unconditional)
    (hi : g.instructions[next + 1]? = some (.readUnit id))
    (hlt : start < middle) (hlt' : middle < next) :
    Concludes g start (next + 2) [⟨.readUnit, id⟩] (fb ++ fc) := by
  have hdone := Concludes.plain hclosed hi rfl rfl
  have hjump := concludes_conditional hclosed hj hk (hb.not_drains hlt)
    (hdone.not_drains (by omega))
  have hhead := hb.andThen hc (hc.not_drains hlt') (by omega)
  have hloop := hhead.andThen hjump (hjump.not_drains (by omega)) (by omega)
  simpa using hloop.followed hclosed hi rfl rfl

/-- The right operand of a short-circuit operator may be jumped over. -/
theorem concludes_jumpOver {g : FlowGraph} {start middle next id : Nat} {kind : JumpKind}
    {tl fl tr fr : List Step} (hclosed : g.Closed) (hl : Concludes g start middle tl fl)
    (hj : g.instructions[middle]? = some (.jump kind next none)) (hk : kind ≠ .unconditional)
    (hr : Concludes g (middle + 1) next tr fr) (hi : g.instructions[next]? = some (.read id))
    (hlt : middle + 1 < next) : Concludes g start (next + 1) [⟨.read, id⟩] (fl ++ fr) := by
  have hdone := Concludes.plain hclosed hi rfl rfl
  have hjump := concludes_conditional hclosed hj hk (hdone.not_drains (by omega))
    (hr.not_drains hlt)
  have hhead := hl.andThen hjump (hjump.not_drains (by omega)) (by omega)
  have hboth := hhead.andThen hr (hr.not_drains hlt) (by omega)
  simpa using hboth.followed hclosed hi rfl rfl

theorem concludes_congr {g : FlowGraph} {start stop stop' : Nat} {ta fa ta' fa' : List Step}
    (h : Concludes g start stop ta fa) (hstop : stop = stop') (ht : ta = ta') (hf : fa = fa') :
    Concludes g start stop' ta' fa' := by
  subst hstop ht hf
  exact h

mutual

/-- The value of an expression in a graph is that of its last steps. -/
theorem concludes_lower {g : FlowGraph} {loop : Option LoopTargets} {start : Nat}
    (hclosed : g.Closed) (hloop : QuietLoop g loop) (e : Expr)
    (h : g.Holds start (e.lower loop start)) :
    Concludes g start (start + e.span) (e.tails loop.isSome) (e.finals loop.isSome) := by
  match e with
  | constant id _ | name id _ | lambda id _ _ => exact .plain hclosed h.head rfl rfl
  | dot id receiver _ =>
      simp only [lower] at h
      have hr := concludes_lower hclosed hloop receiver h.append_left
      exact hr.followed hclosed h.after_lower.head rfl rfl
  | block id statements =>
      exact concludes_block hclosed hloop id statements h
  | cond id condition thenBranch none =>
      simp only [lower, List.append_assoc, List.cons_append, List.nil_append] at h
      have hc := concludes_lower hclosed hloop condition h.append_left
      have hj := h.after_lower
      have ht := concludes_lower hclosed hloop thenBranch hj.tail.append_left
      have hm := hj.tail.after_lower
      have he := Concludes.plain hclosed hm.tail.head rfl rfl
      have htpos := thenBranch.span_pos
      have hboth := concludes_branches hclosed hc hj.head (by simp) ht hm.head he (by omega)
        (by omega)
      refine concludes_congr hboth ?_ ?_ ?_
      · simp only [span]
        omega
      · simp [tails]
      · simp [finals]
  | cond _ condition thenBranch (some elseBranch) =>
      simp only [lower, List.append_assoc, List.cons_append, List.nil_append] at h
      have hc := concludes_lower hclosed hloop condition h.append_left
      have hj := h.after_lower
      have ht := concludes_lower hclosed hloop thenBranch hj.tail.append_left
      have hm := hj.tail.after_lower
      have he := concludes_lower hclosed hloop elseBranch hm.tail
      have htpos := thenBranch.span_pos
      have hepos := elseBranch.span_pos
      have hboth := concludes_branches hclosed hc hj.head (by simp) ht hm.head he (by omega)
        (by omega)
      refine concludes_congr hboth ?_ ?_ ?_
      · simp only [span]
        omega
      · simp [tails]
      · simp [finals]
  | whileLoop id condition body =>
      simp only [lower, List.append_assoc, List.cons_append, List.nil_append] at h
      have hc := concludes_lower hclosed hloop condition h.append_left
      have hcpos := condition.span_pos
      have hbpos := body.span_pos
      have hj := h.after_lower
      have hm := hj.tail.after_lower
      have hdone := Concludes.plain hclosed hm.tail.head rfl rfl
      have hquiet := quietLoop_some (hc.not_drains (by omega)) (hdone.not_drains (by omega))
      have hb := concludes_lower hclosed hquiet body hj.tail.append_left
      have hwhile := concludes_whileLoop hclosed hc hj.head (by simp) hb hm.head hm.tail.head
        (by omega) (by omega)
      refine concludes_congr hwhile ?_ ?_ ?_
      · simp only [span]
        omega
      · simp [tails]
      · simp [finals]
  | doWhileLoop id body condition =>
      simp only [lower, List.append_assoc, List.cons_append, List.nil_append] at h
      have hc := concludes_lower hclosed hloop condition h.after_lower.append_left
      have hcpos := condition.span_pos
      have hbpos := body.span_pos
      have hj := h.after_lower.after_lower
      have hdone := Concludes.plain hclosed hj.tail.head rfl rfl
      have hquiet := quietLoop_some (hc.not_drains (by omega)) (hdone.not_drains (by omega))
      have hb := concludes_lower hclosed hquiet body h.append_left
      have hdoWhile := concludes_doWhileLoop hclosed hb hc hj.head (by simp) hj.tail.head
        (by omega) (by omega)
      refine concludes_congr hdoWhile ?_ ?_ ?_
      · simp only [span]
        omega
      · simp [tails]
      · simp [finals]
  | breakLoop id =>
      cases loop with
      | none => exact .plain hclosed h.head rfl rfl
      | some targets => exact concludes_unconditional hclosed h.head (hloop targets rfl).1
  | continueLoop id =>
      cases loop with
      | none => exact .plain hclosed h.head rfl rfl
      | some targets => exact concludes_unconditional hclosed h.head (hloop targets rfl).2
  | ret id none => exact .returnUnit hclosed h.head
  | ret id (some value) =>
      simp only [lower] at h
      have hv := concludes_lower hclosed hloop value h.append_left
      have hpos := value.span_pos
      exact hv.returnValue h.after_lower.head (by omega)
  | binary id operator left right =>
      have hrpos := right.span_pos
      cases hop : operator.isShortCircuit with
      | true =>
          simp only [lower, hop, if_true, List.append_assoc, List.cons_append,
            List.nil_append] at h
          have hl := concludes_lower hclosed hloop left h.append_left
          have hj := h.after_lower
          have hr := concludes_lower hclosed hloop right hj.tail.append_left
          have hread := hj.tail.after_lower
          have hboth := concludes_jumpOver hclosed hl hj.head (skipKind_ne_unconditional operator)
            hr hread.head (by omega)
          refine concludes_congr hboth ?_ ?_ ?_
          · simp only [span, hop, if_true]
            omega
          · simp [tails]
          · simp [finals]
      | false =>
          simp only [lower, hop, if_false, List.append_assoc, Bool.false_eq_true] at h
          have hl := concludes_lower hclosed hloop left h.append_left
          have hr := concludes_lower hclosed hloop right h.after_lower.append_left
          have hread := h.after_lower.after_lower
          have hboth := hl.andThen hr (hr.not_drains (by omega)) (by omega)
          refine concludes_congr (hboth.followed hclosed hread.head rfl rfl) ?_ ?_ ?_
          · simp only [span, hop, if_false, Bool.false_eq_true]
            omega
          · simp [tails]
          · simp [finals]
  | assign id target value =>
      simp only [lower, List.append_assoc] at h
      obtain ⟨ts, ht⟩ := exists_concludes_lowerReceiver hclosed hloop target h.append_left
      have hv := concludes_lower hclosed hloop value h.after_lowerReceiver.append_left
      have hpos := value.span_pos
      have hwrite := h.after_lowerReceiver.after_lower
      have hboth := ht.andThen hv (hv.not_drains (by omega)) (by omega)
      refine concludes_congr (hboth.followed hclosed hwrite.head rfl rfl) ?_ ?_ ?_
      · simp only [span]
        omega
      · simp [tails]
      · simp [finals]
  | call id _ arguments =>
      simp only [lower] at h
      obtain ⟨ts, ha⟩ := exists_concludes_lowerAll hclosed hloop arguments h.append_left
      exact ha.followed hclosed h.after_lowerAll.head rfl rfl
  | localVariable id _ _ _ none => exact .plain hclosed h.head rfl rfl
  | localVariable id _ _ _ (some initializer) =>
      simp only [lower] at h
      have hi := concludes_lower hclosed hloop initializer h.append_left
      exact hi.followed hclosed h.after_lower.head rfl rfl

theorem concludes_block {g : FlowGraph} {loop : Option LoopTargets} {start : Nat}
    (hclosed : g.Closed) (hloop : QuietLoop g loop) (id : Nat) (statements : List Expr)
    (h : g.Holds start ((block id statements).lower loop start)) :
    Concludes g start (start + (block id statements).span)
      ((block id statements).tails loop.isSome) ((block id statements).finals loop.isSome) := by
  match statements with
  | [] => exact .plain hclosed h.head rfl rfl
  | [last] =>
      simp only [lower, lowerAll, List.append_nil] at h
      refine concludes_congr (concludes_lower hclosed hloop last h) ?_ ?_ ?_
      · simp [span, spanOf]
      · simp [tails, blockTails]
      · simp [finals, finalsAll]
  | first :: second :: rest =>
      simp only [lower] at h
      have hf := concludes_lower hclosed hloop first h.append_left
      have hr := concludes_block hclosed hloop id (second :: rest) h.after_lower
      have hpos := (block id (second :: rest)).span_pos
      refine concludes_congr (hf.andThen hr (hr.not_drains (by omega)) (by omega)) ?_ ?_ ?_
      · simp only [span, spanOf]
        omega
      · simp [tails, blockTails]
      · simp [finals, finalsAll]

theorem exists_concludes_lowerAll {g : FlowGraph} {loop : Option LoopTargets} {start : Nat}
    (hclosed : g.Closed) (hloop : QuietLoop g loop) (es : List Expr)
    (h : g.Holds start (lowerAll loop start es)) :
    ∃ ts, Concludes g start (start + spanOf es) ts (finalsAll loop.isSome es) := by
  match es with
  | [] => exact ⟨[], .nothing⟩
  | [last] =>
      simp only [lowerAll, List.append_nil] at h
      refine ⟨_, concludes_congr (concludes_lower hclosed hloop last h) ?_ rfl ?_⟩
      · simp [spanOf]
      · simp [finalsAll]
  | first :: second :: rest =>
      rw [lowerAll] at h
      have hf := concludes_lower hclosed hloop first h.append_left
      obtain ⟨ts, hr⟩ := exists_concludes_lowerAll hclosed hloop (second :: rest) h.after_lower
      have hpos : 0 < spanOf (second :: rest) := by
        have := second.span_pos
        simp only [spanOf]
        omega
      refine ⟨ts, concludes_congr (hf.andThen hr (hr.not_drains (by omega)) (by omega)) ?_ rfl ?_⟩
      · simp only [spanOf]
        omega
      · simp [finalsAll]

theorem exists_concludes_lowerReceiver {g : FlowGraph} {loop : Option LoopTargets}
    {start : Nat} (hclosed : g.Closed) (hloop : QuietLoop g loop) (e : Expr)
    (h : g.Holds start (lowerReceiver loop start e)) :
    ∃ ts, Concludes g start (start + receiverSpan e) ts (receiverFinals loop.isSome e) := by
  match e with
  | dot _ receiver _ => exact ⟨_, concludes_lower hclosed hloop receiver h⟩
  | constant .. | name .. | lambda .. | breakLoop _ | continueLoop _ | block .. | cond ..
  | whileLoop .. | doWhileLoop .. | ret .. | binary .. | assign .. | call ..
  | localVariable .. => exact ⟨[], .nothing⟩

end

end Expr

end DeclAnalysis
