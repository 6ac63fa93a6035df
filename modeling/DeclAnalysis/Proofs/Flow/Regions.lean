import DeclAnalysis.Proofs.Flow.Edges
import DeclAnalysis.Proofs.Flow.Operands

/-!
# Runs that are entered at their start

The instructions of an expression contain those of the expressions that it evaluates. Around them
stand the instructions of other expressions, of which the jumps stay within the expression or go to
the targets of its loop, and a few jumps from one of the expressions to another. None of them goes
into the midst of an expression, so that a run of instructions is entered at its start only if it
lies in another one of which this is true. It is left towards the position behind it, the exit, or
a target of its loop.
-/

namespace DeclAnalysis

/-! ## Jumps around a part -/

/-- The position is not in the midst of a run. -/
def Clear (start stop q : Nat) : Prop := q ≤ start ∨ stop ≤ q

theorem Clear.mono {start stop start' stop' q : Nat} (h : Clear start stop q)
    (hstart : start ≤ start') (hstop : stop' ≤ stop) : Clear start' stop' q := by
  unfold Clear at h ⊢
  omega

namespace Instruction

variable {may : Nat → Prop} {position : Nat} {code : List Instruction}

/-- If the instruction is a jump, it goes where it may. -/
def Heads (may : Nat → Prop) : Instruction → Prop
  | jump _ target _ => may target
  | _ => True

theorem Aims.heads {i : Instruction} (h : i.Aims may position) : i.Heads may := by
  cases i with
  | jump kind target element => exact h.1
  | _ => trivial

theorem AimAll.heads (h : AimAll may position code) : ∀ i ∈ code, i.Heads may := by
  intro i hi
  obtain ⟨k, hk⟩ := List.mem_iff_getElem?.mp hi
  exact (h.aims hk).heads

end Instruction

namespace Expr

variable {loop loop' : Option LoopTargets} {start start' stop i j : Nat} {e : Expr}
  {code more : List Instruction}

theorem LoopWithin.clear (h : LoopWithin (Clear start stop) loop) (hstart : start ≤ i)
    (hstop : j ≤ stop) : LoopWithin (Clear i j) loop :=
  h.mono fun _ hq => hq.mono hstart hstop

theorem mayAll_clear (h : stop ≤ i ∨ j ≤ start) : MayAll (Clear i j) start stop := by
  intro q hle hle'
  unfold Clear
  omega

/-- Expressions beside a run do not jump into its midst. -/
theorem heads_lower (hloop : LoopWithin (Clear i j) loop) (h : start + e.span ≤ i ∨ j ≤ start) :
    ∀ x ∈ e.lower loop start, x.Heads (Clear i j) :=
  (aimAll_lower start e hloop (mayAll_clear h)).heads

theorem heads_lowerAll {es : List Expr} (hloop : LoopWithin (Clear i j) loop)
    (h : start + spanOf es ≤ i ∨ j ≤ start) :
    ∀ x ∈ lowerAll loop start es, x.Heads (Clear i j) :=
  (aimAll_lowerAll start es hloop (mayAll_clear h)).heads

theorem heads_lowerReceiver (hloop : LoopWithin (Clear i j) loop)
    (h : start + receiverSpan e ≤ i ∨ j ≤ start) :
    ∀ x ∈ lowerReceiver loop start e, x.Heads (Clear i j) :=
  (aimAll_lowerReceiver start e hloop (mayAll_clear h)).heads

/-- Code that stands from one position on contains the instructions of an expression that stand from
another one on. No jump around them goes into their midst, nor is a target of their loop there. -/
structure Lies (start : Nat) (code : List Instruction) (loop : Option LoopTargets) (i : Nat)
    (e : Expr) : Prop where
  clear : LoopWithin (Clear i (i + e.span)) loop
  around : ∃ before behind, code = before ++ e.lower loop i ++ behind ∧
    i = start + before.length ∧ ∀ x ∈ before ++ behind, x.Heads (Clear i (i + e.span))

namespace Lies

theorem self (h : LoopWithin (Clear i (i + e.span)) loop) : Lies i (e.lower loop i) loop i e :=
  ⟨h, [], [], by simp, rfl, nofun⟩

theorem append_right (h : Lies start code loop i e)
    (hmore : ∀ x ∈ more, x.Heads (Clear i (i + e.span))) :
    Lies start (code ++ more) loop i e := by
  obtain ⟨hloop, before, behind, rfl, hi, hheads⟩ := h
  refine ⟨hloop, before, behind ++ more, by simp, hi, ?_⟩
  rw [← List.append_assoc]
  exact List.forall_mem_append.mpr ⟨hheads, hmore⟩

theorem append_left (h : Lies start' code loop i e) (hstart : start' = start + more.length)
    (hmore : ∀ x ∈ more, x.Heads (Clear i (i + e.span))) :
    Lies start (more ++ code) loop i e := by
  obtain ⟨hloop, before, behind, rfl, hi, hheads⟩ := h
  refine ⟨hloop, more ++ before, behind, by simp, ?_, ?_⟩
  · rw [hi, hstart, List.length_append, Nat.add_assoc]
  · rw [List.append_assoc]
    exact List.forall_mem_append.mpr ⟨hmore, hheads⟩

theorem congr (h : Lies start code loop i e) {i' : Nat} (hloop : loop = loop') (hi : i = i') :
    Lies start code loop' i' e :=
  hloop ▸ hi ▸ h

theorem bounds (h : Lies start code loop i e) : start ≤ i ∧ i + e.span ≤ start + code.length := by
  obtain ⟨-, before, behind, rfl, rfl, -⟩ := h
  simp only [List.length_append, length_lower]
  omega

end Lies

/-! ### Where the parts lie -/

open Instruction (Heads)

variable {id : Nat} {condition thenBranch elseBranch body left right target value : Expr}
  {operator : BinaryOperator}

theorem heads_jump {kind : JumpKind} {q : Nat} {element : Option Nat} (h : q ≤ i ∨ j ≤ q) :
    ∀ x ∈ [Instruction.jump kind q element], x.Heads (Clear i j) := by
  intro x hx
  rw [List.mem_singleton.mp hx]
  exact h

theorem lies_cond_none
    (h : LoopWithin (Clear start (start + (cond id condition thenBranch none).span)) loop) :
    Lies start ((cond id condition thenBranch none).lower loop start) loop start condition ∧
      Lies start ((cond id condition thenBranch none).lower loop start) loop
        (start + condition.span + 1) thenBranch := by
  simp only [span] at h
  have hcondition := h.clear (i := start) (j := start + condition.span) le_rfl (by omega)
  have hthen := h.clear (i := start + condition.span + 1)
    (j := start + condition.span + 1 + thenBranch.span) (by omega) (by omega)
  constructor
  · have hself := Lies.self hcondition
    refine (((hself.append_right ?_).append_right ?_).append_right ?_).append_right ?_
    · exact heads_jump (.inr (by omega))
    · exact heads_lower hcondition (.inr (by omega))
    · exact heads_jump (.inr (by omega))
    · simp [Heads]
  · refine (((Lies.self hthen).append_left ?_ ?_).append_right ?_).append_right ?_
    · simp [Nat.add_assoc]
    · refine List.forall_mem_append.mpr ⟨heads_lower hthen (.inl (by omega)), ?_⟩
      exact heads_jump (.inr (by omega))
    · exact heads_jump (.inr (by omega))
    · simp [Heads]

theorem lies_cond_some
    (h : LoopWithin (Clear start (start + (cond id condition thenBranch (some elseBranch)).span))
      loop) :
    Lies start ((cond id condition thenBranch (some elseBranch)).lower loop start) loop start
        condition ∧
      Lies start ((cond id condition thenBranch (some elseBranch)).lower loop start) loop
        (start + condition.span + 1) thenBranch ∧
      Lies start ((cond id condition thenBranch (some elseBranch)).lower loop start) loop
        (start + condition.span + 1 + thenBranch.span + 1) elseBranch := by
  simp only [span] at h
  have hcondition := h.clear (i := start) (j := start + condition.span) le_rfl (by omega)
  have hthen := h.clear (i := start + condition.span + 1)
    (j := start + condition.span + 1 + thenBranch.span) (by omega) (by omega)
  have helse := h.clear (i := start + condition.span + 1 + thenBranch.span + 1)
    (j := start + condition.span + 1 + thenBranch.span + 1 + elseBranch.span) (by omega) (by omega)
  refine ⟨?_, ?_, ?_⟩
  · have hself := Lies.self hcondition
    refine (((hself.append_right ?_).append_right ?_).append_right ?_).append_right ?_
    · exact heads_jump (.inr (by omega))
    · exact heads_lower hcondition (.inr (by omega))
    · exact heads_jump (.inr (by omega))
    · exact heads_lower hcondition (.inr (by omega))
  · refine (((Lies.self hthen).append_left ?_ ?_).append_right ?_).append_right ?_
    · simp [Nat.add_assoc]
    · refine List.forall_mem_append.mpr ⟨heads_lower hthen (.inl (by omega)), ?_⟩
      exact heads_jump (.inr (by omega))
    · exact heads_jump (.inr (by omega))
    · exact heads_lower hthen (.inr (by omega))
  · refine (Lies.self helse).append_left ?_ ?_
    · simp only [List.length_append, length_lower, List.length_singleton]
      omega
    · refine List.forall_mem_append.mpr ⟨?_, heads_jump (.inr (by omega))⟩
      refine List.forall_mem_append.mpr ⟨?_, heads_lower helse (.inl (by omega))⟩
      refine List.forall_mem_append.mpr ⟨heads_lower helse (.inl (by omega)), ?_⟩
      exact heads_jump (.inl (by omega))

theorem lies_whileLoop
    (h : LoopWithin (Clear start (start + (whileLoop id condition body).span)) loop) :
    Lies start ((whileLoop id condition body).lower loop start) loop start condition ∧
      Lies start ((whileLoop id condition body).lower loop start)
        (some ⟨start, start + condition.span + 1 + body.span + 1⟩)
        (start + condition.span + 1) body := by
  simp only [span] at h
  have hcondition := h.clear (i := start) (j := start + condition.span) le_rfl (by omega)
  constructor
  · have hself := Lies.self hcondition
    refine (((hself.append_right ?_).append_right ?_).append_right ?_).append_right ?_
    · exact heads_jump (.inr (by omega))
    · refine heads_lower ?_ (.inr (by omega))
      rintro targets ⟨⟩
      exact ⟨.inl le_rfl, .inr (by dsimp only; omega)⟩
    · exact heads_jump (.inl le_rfl)
    · simp [Heads]
  · have hbody : LoopWithin (Clear (start + condition.span + 1)
        (start + condition.span + 1 + body.span))
        (some ⟨start, start + condition.span + 1 + body.span + 1⟩) := by
      rintro targets ⟨⟩
      exact ⟨.inl (by dsimp only; omega), .inr (by dsimp only; omega)⟩
    have hcondition' := h.clear (i := start + condition.span + 1)
      (j := start + condition.span + 1 + body.span) (by omega) (by omega)
    refine (((Lies.self hbody).append_left ?_ ?_).append_right ?_).append_right ?_
    · simp [Nat.add_assoc]
    · refine List.forall_mem_append.mpr ⟨heads_lower hcondition' (.inl (by omega)), ?_⟩
      exact heads_jump (.inr (by omega))
    · exact heads_jump (.inl (by omega))
    · simp [Heads]

theorem lies_doWhileLoop
    (h : LoopWithin (Clear start (start + (doWhileLoop id body condition).span)) loop) :
    Lies start ((doWhileLoop id body condition).lower loop start)
        (some ⟨start + body.span, start + body.span + condition.span + 1⟩) start body ∧
      Lies start ((doWhileLoop id body condition).lower loop start) loop (start + body.span)
        condition := by
  simp only [span] at h
  constructor
  · have hbody : LoopWithin (Clear start (start + body.span))
        (some ⟨start + body.span, start + body.span + condition.span + 1⟩) := by
      rintro targets ⟨⟩
      exact ⟨.inr le_rfl, .inr (by dsimp only; omega)⟩
    have hcondition := h.clear (i := start) (j := start + body.span) le_rfl (by omega)
    refine (((Lies.self hbody).append_right ?_).append_right ?_).append_right ?_
    · exact heads_lower hcondition (.inr le_rfl)
    · exact heads_jump (.inl le_rfl)
    · simp [Heads]
  · have hcondition := h.clear (i := start + body.span) (j := start + body.span + condition.span)
      (by omega) (by omega)
    refine (((Lies.self hcondition).append_left ?_ ?_).append_right ?_).append_right ?_
    · simp
    · refine heads_lower ?_ (.inl le_rfl)
      rintro targets ⟨⟩
      exact ⟨.inl le_rfl, .inr (by dsimp only; omega)⟩
    · exact heads_jump (.inl (by omega))
    · simp [Heads]

theorem lies_shortCircuit (hoperator : operator.isShortCircuit = true)
    (h : LoopWithin (Clear start (start + (binary id operator left right).span)) loop) :
    Lies start ((binary id operator left right).lower loop start) loop start left ∧
      Lies start ((binary id operator left right).lower loop start) loop (start + left.span + 1)
        right := by
  simp only [span, hoperator, if_true] at h
  simp only [lower, hoperator, if_true]
  have hleft := h.clear (i := start) (j := start + left.span) le_rfl (by omega)
  have hright := h.clear (i := start + left.span + 1) (j := start + left.span + 1 + right.span)
    (by omega) (by omega)
  constructor
  · refine (((Lies.self hleft).append_right ?_).append_right ?_).append_right ?_
    · exact heads_jump (.inr (by omega))
    · exact heads_lower hleft (.inr (by omega))
    · simp [Heads]
  · refine ((Lies.self hright).append_left ?_ ?_).append_right ?_
    · simp [Nat.add_assoc]
    · refine List.forall_mem_append.mpr ⟨heads_lower hright (.inl (by omega)), ?_⟩
      exact heads_jump (.inr (by omega))
    · simp [Heads]

theorem lies_binary (hoperator : operator.isShortCircuit = false)
    (h : LoopWithin (Clear start (start + (binary id operator left right).span)) loop) :
    Lies start ((binary id operator left right).lower loop start) loop start left ∧
      Lies start ((binary id operator left right).lower loop start) loop (start + left.span)
        right := by
  simp only [span, hoperator, Bool.false_eq_true, if_false] at h
  simp only [lower, hoperator, Bool.false_eq_true, if_false]
  have hleft := h.clear (i := start) (j := start + left.span) le_rfl (by omega)
  have hright := h.clear (i := start + left.span) (j := start + left.span + right.span)
    (by omega) (by omega)
  constructor
  · refine ((Lies.self hleft).append_right ?_).append_right ?_
    · exact heads_lower hleft (.inr le_rfl)
    · simp [Heads]
  · refine ((Lies.self hright).append_left ?_ ?_).append_right ?_
    · simp
    · exact heads_lower hright (.inl le_rfl)
    · simp [Heads]

theorem lies_assign
    (h : LoopWithin (Clear start (start + (assign id target value).span)) loop) :
    (∀ receiver ∈ target.receiver?,
        Lies start ((assign id target value).lower loop start) loop start receiver) ∧
      Lies start ((assign id target value).lower loop start) loop (start + receiverSpan target)
        value := by
  simp only [span] at h
  constructor
  · intro receiver hreceiver
    cases target with
    | dot _ operand _ =>
        obtain rfl := Option.some.inj hreceiver
        simp only [receiverSpan] at h
        have hoperand := h.clear (i := start) (j := start + operand.span) le_rfl (by omega)
        refine ((Lies.self hoperand).append_right ?_).append_right ?_
        · exact heads_lower hoperand (.inr le_rfl)
        · simp [Heads]
    | _ => cases hreceiver
  · have hvalue := h.clear (i := start + receiverSpan target)
      (j := start + receiverSpan target + value.span) (by omega) (by omega)
    refine ((Lies.self hvalue).append_left ?_ ?_).append_right ?_
    · simp
    · exact heads_lowerReceiver hvalue (.inl le_rfl)
    · simp [Heads]

end Expr

/-! ## Edges into and out of a run -/

namespace FlowGraph

open DeclAnalysis.Expr (Lies LoopWithin)
open Instruction (Heads)

variable {g : FlowGraph} {p q start i : Nat} {code : List Instruction} {loop : Option LoopTargets}
  {e : Expr}

theorem Holds.exists_instruction (h : g.Holds start code) (hlow : start ≤ p)
    (hhigh : p < start + code.length) : ∃ x ∈ code, g.instructions[p]? = some x := by
  have hk : p - start < code.length := by omega
  have hp := h (p - start) hk
  rw [Nat.add_sub_cancel' hlow] at hp
  exact ⟨_, List.getElem_mem hk, hp⟩

theorem Holds.lies (h : g.Holds start code) (hlies : Lies start code loop i e) :
    g.Holds i (e.lower loop i) := by
  obtain ⟨-, before, behind, rfl, rfl, -⟩ := hlies
  exact h.append_left.append_right

/-- The edges from a position outside of a run go at most to its start. -/
def EntersAtStart (g : FlowGraph) (start stop : Nat) : Prop :=
  ∀ p q, q ∈ g.next p → ¬ (start ≤ p ∧ p < stop) → start ≤ q ∧ q < stop → q = start

/-- What lies in a run that is entered at its start is entered at its start, too. -/
theorem EntersAtStart.lies (henters : g.EntersAtStart start (start + code.length))
    (hholds : g.Holds start code) (hlies : Lies start code loop i e)
    (hexit : start + code.length ≤ g.exit) : g.EntersAtStart i (i + e.span) := by
  intro p q edge hp hq
  have hbounds := hlies.bounds
  by_cases hinside : start ≤ p ∧ p < start + code.length
  · obtain ⟨-, before, behind, rfl, rfl, hheads⟩ := hlies
    simp only [List.length_append, Expr.length_lower] at hinside hexit hbounds
    -- The instruction at `p` is before or behind those of the expression.
    obtain ⟨x, hx, hinstruction⟩ : ∃ x ∈ before ++ behind, g.instructions[p]? = some x := by
      by_cases hbefore : p < start + before.length
      · obtain ⟨x, hx, hinstruction⟩ :=
          hholds.append_left.append_left.exists_instruction hinside.1 hbefore
        exact ⟨x, List.mem_append_left _ hx, hinstruction⟩
      · have hbehind := hholds.append_right
        rw [List.length_append, Expr.length_lower] at hbehind
        obtain ⟨x, hx, hinstruction⟩ := hbehind.exists_instruction (p := p) (by omega) (by omega)
        exact ⟨x, List.mem_append_right _ hx, hinstruction⟩
    rcases eq_of_mem_next hinstruction edge with rfl | ⟨kind, element, rfl⟩ | rfl
    · omega
    · rcases hheads _ hx with hle | hle
      · omega
      · omega
    · omega
  · have hstart : q = start := henters p q edge hinside (by omega)
    omega

/-- An edge out of the instructions of an expression goes to the position behind them, to the exit
or to a target of the loop around it. -/
theorem Holds.eq_of_mem_next_lower (hholds : g.Holds i (e.lower loop i)) (edge : q ∈ g.next p)
    (hp : i ≤ p ∧ p < i + e.span) (hq : ¬ (i ≤ q ∧ q < i + e.span)) :
    q = i + e.span ∨ q = g.exit ∨
      ∃ targets, loop = some targets ∧ (q = targets.onBreak ∨ q = targets.onContinue) := by
  let may (q : Nat) : Prop := (i ≤ q ∧ q ≤ i + e.span) ∨
    ∃ targets, loop = some targets ∧ (q = targets.onBreak ∨ q = targets.onContinue)
  have hloop : LoopWithin may loop := by
    intro targets htargets
    exact ⟨.inr ⟨targets, htargets, .inr rfl⟩, .inr ⟨targets, htargets, .inl rfl⟩⟩
  have hheads := (Expr.aimAll_lower i e hloop fun q hlow hhigh => .inl ⟨hlow, hhigh⟩).heads
  obtain ⟨x, hx, hinstruction⟩ :=
    hholds.exists_instruction hp.1 (by rw [Expr.length_lower]; exact hp.2)
  rcases eq_of_mem_next hinstruction edge with rfl | ⟨kind, element, rfl⟩ | rfl
  · exact .inr (.inl rfl)
  · rcases hheads _ hx with hwithin | htargets
    · exact .inl (by omega)
    · exact .inr (.inr htargets)
  · exact .inl (by omega)

end FlowGraph

end DeclAnalysis
