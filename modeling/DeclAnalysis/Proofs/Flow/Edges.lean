import DeclAnalysis.Proofs.Flow.ReturnPoints

/-!
# The edges of a body

A jump in the instructions of an expression goes to a position of the expression,
right behind it, or to a target of the loop around it, and a conditional jump
never goes where it would fall through anyway. In a body the target of every jump
is a position after the entry and not behind the exit therefore. What the edges
of a graph are follows from it, instruction by instruction.
-/

namespace DeclAnalysis

/-! ## Targets -/

namespace Instruction

/-- The instruction ends the subroutine. -/
def isReturn : Instruction → Bool
  | returnValue _ | returnUnit _ => true
  | _ => false

/-- The instruction is a jump that is not always taken. -/
def isConditional : Instruction → Bool
  | jump .ifTrue _ _ | jump .ifFalse _ _ => true
  | _ => false

theorem eq_jump_of_isConditional
    (i : Instruction)
    (h : i.isConditional = true) :
    ∃ kind target element, kind ≠ JumpKind.unconditional ∧ i = .jump kind target element := by
  cases i with
  | jump kind target element =>
      cases kind with
      | unconditional => cases h
      | ifTrue => exact ⟨.ifTrue, target, element, by decide, rfl⟩
      | ifFalse => exact ⟨.ifFalse, target, element, by decide, rfl⟩
  | _ => cases h

/-- A jump at a position goes where it may, and a conditional one does not go to the
following position. -/
def Aims (may : Nat → Prop) (position : Nat) : Instruction → Prop
  | jump kind target _ => may target ∧ (kind ≠ .unconditional → target ≠ position + 1)
  | _ => True

/-- All jumps of code that stands from a position on have such targets. -/
def AimAll (may : Nat → Prop) : Nat → List Instruction → Prop
  | _, [] => True
  | position, i :: rest => i.Aims may position ∧ AimAll may (position + 1) rest

variable {may : Nat → Prop} {position : Nat}

@[simp] theorem aimAll_nil : AimAll may position [] := trivial

@[simp] theorem aimAll_cons
    {i : Instruction} {rest : List Instruction} :
    AimAll may position (i :: rest) ↔ i.Aims may position ∧ AimAll may (position + 1) rest :=
  Iff.rfl

@[simp] theorem aimAll_append
    {a b : List Instruction} :
    AimAll may position (a ++ b) ↔
      AimAll may position a ∧ AimAll may (position + a.length) b := by
  induction a generalizing position with
  | nil => simp
  | cons i a ih =>
      rw [List.cons_append, aimAll_cons, aimAll_cons, ih, List.length_cons, and_assoc,
        Nat.add_right_comm, Nat.add_assoc]

theorem AimAll.aims
    {code : List Instruction}
    (h : AimAll may position code)
    {k : Nat} {i : Instruction}
    (hi : code[k]? = some i) :
    i.Aims may (position + k) := by
  induction code generalizing position k with
  | nil => simp at hi
  | cons first rest ih =>
      cases k with
      | zero =>
          obtain rfl := Option.some.inj hi
          exact h.1
      | succ k =>
          have hrest : i.Aims may (position + 1 + k) := ih h.2 hi
          rwa [Nat.add_right_comm, Nat.add_assoc] at hrest

end Instruction

namespace Expr

open Instruction (Aims AimAll)

/-- The targets of a loop are positions that jumps may go to. -/
def LoopWithin (may : Nat → Prop) (loop : Option LoopTargets) : Prop :=
  ∀ targets ∈ loop, may targets.onContinue ∧ may targets.onBreak

/-- Jumps may go to the positions from one up to another. -/
def MayAll (may : Nat → Prop) (start stop : Nat) : Prop :=
  ∀ q, start ≤ q → q ≤ stop → may q

variable {may may' : Nat → Prop} {start stop start' stop' : Nat}

theorem LoopWithin.mono {loop : Option LoopTargets} (h : LoopWithin may loop)
    (himp : ∀ q, may q → may' q) : LoopWithin may' loop :=
  fun targets htargets => (h targets htargets).imp (himp _) (himp _)

theorem MayAll.mono (h : MayAll may start stop) (hstart : start ≤ start') (hstop : stop' ≤ stop) :
    MayAll may start' stop' :=
  fun q hle hle' => h q (hstart.trans hle) (hle'.trans hstop)

mutual

theorem aimAll_lower
    {loop : Option LoopTargets} (start : Nat) (e : Expr)
    (hloop : LoopWithin may loop)
    (hmay : MayAll may start (start + e.span)) :
    AimAll may start (e.lower loop start) := by
  match e with
  | constant .. | name .. | lambda .. | ret _ none | localVariable _ _ _ _ none | block _ [] =>
      simp [lower, Aims]
  | breakLoop _ =>
      cases loop with
      | none => simp [lower, Aims]
      | some targets => simpa [lower, Aims] using (hloop targets rfl).2
  | continueLoop _ =>
      cases loop with
      | none => simp [lower, Aims]
      | some targets => simpa [lower, Aims] using (hloop targets rfl).1
  | dot _ value _ | ret _ (some value) | localVariable _ _ _ _ (some value) =>
      simp only [span] at hmay
      have hvalue := aimAll_lower start value hloop (hmay.mono le_rfl (by omega))
      simp [lower, Aims, hvalue]
  | block _ (first :: rest) =>
      simp only [span] at hmay
      have hfirst := aimAll_lower start first hloop (hmay.mono le_rfl (by omega))
      have hrest := aimAll_lowerAll (start + first.span) rest hloop
        (hmay.mono (by omega) (by omega))
      simp [lower, hfirst, hrest]
  | cond _ condition thenBranch none =>
      simp only [span] at hmay
      have hcondition := aimAll_lower start condition hloop (hmay.mono le_rfl (by omega))
      have hthen := aimAll_lower (start + condition.span + 1) thenBranch hloop
        (hmay.mono (by omega) (by omega))
      have helse := hmay (start + condition.span + 1 + thenBranch.span + 1)
        (by omega) (by omega)
      have hend := hmay (start + condition.span + 1 + thenBranch.span + 1 + 1)
        (by omega) (by omega)
      simp [lower, Aims, hcondition, hthen, helse, hend]
      omega
  | cond _ condition thenBranch (some elseBranch) =>
      simp only [span] at hmay
      have hcondition := aimAll_lower start condition hloop (hmay.mono le_rfl (by omega))
      have hthen := aimAll_lower (start + condition.span + 1) thenBranch hloop
        (hmay.mono (by omega) (by omega))
      have helse := aimAll_lower (start + condition.span + 1 + thenBranch.span + 1) elseBranch
        hloop (hmay.mono (by omega) (by omega))
      have hother := hmay (start + condition.span + 1 + thenBranch.span + 1)
        (by omega) (by omega)
      have hend := hmay (start + condition.span + 1 + thenBranch.span + 1 + elseBranch.span)
        (by omega) (by omega)
      simp [lower, Aims, hcondition, hthen, helse, hother, hend]
      omega
  | whileLoop _ condition body =>
      simp only [span] at hmay
      have hhead := hmay start le_rfl (by omega)
      have hexit := hmay (start + condition.span + 1 + body.span + 1) (by omega) (by omega)
      have hinner : LoopWithin may
          (some ⟨start, start + condition.span + 1 + body.span + 1⟩) := by
        rintro targets ⟨⟩
        exact ⟨hhead, hexit⟩
      have hcondition := aimAll_lower start condition hloop (hmay.mono le_rfl (by omega))
      have hbody := aimAll_lower (start + condition.span + 1) body hinner
        (hmay.mono (by omega) (by omega))
      simp [lower, Aims, hcondition, hbody, hhead, hexit]
      omega
  | doWhileLoop _ body condition =>
      simp only [span] at hmay
      have hstart := hmay start le_rfl (by omega)
      have hcheck := hmay (start + body.span) (by omega) (by omega)
      have hexit := hmay (start + body.span + condition.span + 1) (by omega) (by omega)
      have hinner : LoopWithin may
          (some ⟨start + body.span, start + body.span + condition.span + 1⟩) := by
        rintro targets ⟨⟩
        exact ⟨hcheck, hexit⟩
      have hbody := aimAll_lower start body hinner (hmay.mono le_rfl (by omega))
      have hcondition := aimAll_lower (start + body.span) condition hloop
        (hmay.mono (by omega) (by omega))
      simp [lower, Aims, hcondition, hbody, hstart]
      omega
  | binary _ operator left right =>
      cases hoperator : operator.isShortCircuit with
      | true =>
          simp only [span, hoperator, if_true] at hmay
          have hright := right.span_pos
          have hleft := aimAll_lower start left hloop (hmay.mono le_rfl (by omega))
          have hright' := aimAll_lower (start + left.span + 1) right hloop
            (hmay.mono (by omega) (by omega))
          have hend := hmay (start + left.span + 1 + right.span) (by omega) (by omega)
          simp [lower, hoperator, Aims, hleft, hright', hend]
          omega
      | false =>
          simp only [span, hoperator, Bool.false_eq_true, if_false] at hmay
          have hleft := aimAll_lower start left hloop (hmay.mono le_rfl (by omega))
          have hright := aimAll_lower (start + left.span) right hloop
            (hmay.mono (by omega) (by omega))
          simp [lower, hoperator, Aims, hleft, hright]
  | assign _ target value =>
      simp only [span] at hmay
      have htarget := aimAll_lowerReceiver start target hloop (hmay.mono le_rfl (by omega))
      have hvalue := aimAll_lower (start + receiverSpan target) value hloop
        (hmay.mono (by omega) (by omega))
      simp [lower, Aims, htarget, hvalue]
  | call _ _ arguments =>
      simp only [span] at hmay
      have harguments := aimAll_lowerAll start arguments hloop (hmay.mono le_rfl (by omega))
      simp [lower, Aims, harguments]

theorem aimAll_lowerAll
    {loop : Option LoopTargets} (start : Nat) (es : List Expr)
    (hloop : LoopWithin may loop)
    (hmay : MayAll may start (start + spanOf es)) :
    AimAll may start (lowerAll loop start es) := by
  match es with
  | [] => exact trivial
  | e :: rest =>
      simp only [spanOf] at hmay
      have hfirst := aimAll_lower start e hloop (hmay.mono le_rfl (by omega))
      have hrest := aimAll_lowerAll (start + e.span) rest hloop (hmay.mono (by omega) (by omega))
      simp [lowerAll, hfirst, hrest]

theorem aimAll_lowerReceiver
    {loop : Option LoopTargets} (start : Nat) (e : Expr)
    (hloop : LoopWithin may loop)
    (hmay : MayAll may start (start + receiverSpan e)) :
    AimAll may start (lowerReceiver loop start e) := by
  match e with
  | dot _ receiver _ => exact aimAll_lower start receiver hloop hmay
  | constant .. | name .. | lambda .. | breakLoop _ | continueLoop _ | block .. | cond ..
  | whileLoop .. | doWhileLoop .. | ret .. | binary .. | assign .. | call ..
  | localVariable .. => exact trivial

end

end Expr

namespace FlowGraph

/-! ## Edges -/

variable {g : FlowGraph} {p q : Nat}

/-- The edges of an instruction: none from an exit, one from a return, one to the
target of an unconditional jump, one or two from a conditional jump, and else one
to the following position. -/
theorem next_cases
    {i : Instruction}
    (hi : g.instructions[p]? = some i) :
    ((∃ subroutine, i = .exit subroutine) ∧ g.next p = []) ∨
      (i.isReturn = true ∧ g.next p = [g.exit]) ∨
      (∃ target element, i = .jump .unconditional target element ∧ g.next p = [target]) ∨
      i.isConditional = true ∨ g.next p = [p + 1] := by
  cases i with
  | exit subroutine => exact Or.inl ⟨⟨subroutine, rfl⟩, by simp [next, hi]⟩
  | returnValue _ | returnUnit _ =>
      exact Or.inr (Or.inl ⟨rfl, by simp [next, hi]⟩)
  | jump kind target element =>
      cases kind with
      | unconditional =>
          exact Or.inr (Or.inr (Or.inl ⟨target, element, rfl, by simp [next, hi]⟩))
      | ifTrue | ifFalse => exact Or.inr (Or.inr (Or.inr (Or.inl rfl)))
  | enter _ | read _ | readUnit _ | write _ | unsupported _ =>
      exact Or.inr (Or.inr (Or.inr (Or.inr (by simp [next, hi]))))

theorem next_of_isReturn
    {i : Instruction}
    (hi : g.instructions[p]? = some i)
    (hreturn : i.isReturn = true) :
    g.next p = [g.exit] := by
  cases i with
  | returnValue _ | returnUnit _ => simp [next, hi]
  | _ => cases hreturn

theorem mem_previous_iff : q ∈ g.previous p ↔ p ∈ g.next q := by
  rw [previous, List.mem_filter, List.mem_range, decide_eq_true_eq]
  exact ⟨And.right, fun edge => ⟨lt_size_of_mem_next edge, edge⟩⟩

theorem nodup_previous (g : FlowGraph) (p : Nat) : (g.previous p).Nodup :=
  List.nodup_range.filter _

theorem nodup_next (g : FlowGraph) (p : Nat) : (g.next p).Nodup := by
  unfold next
  split <;> try simp
  split <;> simp_all

/-- An edge goes to the exit, to the target of a jump or to the following position. -/
theorem eq_of_mem_next
    {g : FlowGraph} {x : Instruction} (hx : g.instructions[p]? = some x) (edge : q ∈ g.next p) :
    q = g.exit ∨ (∃ kind element, x = .jump kind q element) ∨ q = p + 1 := by
  rcases next_cases hx with ⟨-, h⟩ | ⟨-, h⟩ | ⟨target, element, rfl, h⟩ | hconditional | h
  · rw [h] at edge
    cases edge
  · rw [h, List.mem_singleton] at edge
    exact .inl edge
  · rw [h, List.mem_singleton] at edge
    subst edge
    exact .inr (.inl ⟨.unconditional, element, rfl⟩)
  · obtain ⟨kind, target, element, hkind, rfl⟩ := x.eq_jump_of_isConditional hconditional
    rcases (mem_next_of_conditional hx hkind).mp edge with rfl | rfl
    · exact .inr (.inl ⟨kind, element, rfl⟩)
    · exact .inr (.inr rfl)
  · rw [h, List.mem_singleton] at edge
    exact .inr (.inr edge)

section OfBody

variable (subroutine : Nat) (body : Expr)

theorem aims_ofBody
    {i : Instruction}
    (hi : (ofBody subroutine body).instructions[p]? = some i) :
    i.Aims (fun q => 1 ≤ q ∧ q ≤ (ofBody subroutine body).exit) p := by
  rw [exit_ofBody]
  have hnoLoop : Expr.LoopWithin (fun q => 1 ≤ q ∧ q ≤ 1 + body.span) none := nofun
  have hbody := Expr.aimAll_lower 1 body hnoLoop fun q hlow hhigh => ⟨hlow, hhigh⟩
  have hall : Instruction.AimAll (fun q => 1 ≤ q ∧ q ≤ 1 + body.span) 0
      (ofBody subroutine body).instructions.toList := by
    simp [toList_ofBody, Instruction.Aims, hbody]
  rw [← Array.getElem?_toList] at hi
  have haims := hall.aims hi
  rwa [Nat.zero_add] at haims

/-- Only the last instruction is an exit. -/
theorem eq_exit_of_instruction
    {sub : Nat}
    (hi : (ofBody subroutine body).instructions[p]? = some (.exit sub)) :
    p = (ofBody subroutine body).exit := by
  have hlt : p < (ofBody subroutine body).size := (Array.getElem?_eq_some_iff.mp hi).1
  rw [exit_ofBody]
  rcases position_ofBody subroutine body hlt with rfl | rfl | ⟨hlow, hhigh⟩
  · rw [entry_ofBody] at hi
    cases hi
  · rfl
  · cases isInner_ofBody subroutine body hlow hhigh hi

/-- A conditional jump goes to its target or to the following position, which is
another one. -/
theorem next_of_conditional
    {kind : JumpKind} {target : Nat} {element : Option Nat}
    (hi : (ofBody subroutine body).instructions[p]? = some (.jump kind target element))
    (hkind : kind ≠ .unconditional) :
    target ≠ p + 1 ∧ (ofBody subroutine body).next p = [target, p + 1] := by
  have hne : target ≠ p + 1 := (aims_ofBody subroutine body hi).2 hkind
  refine ⟨hne, ?_⟩
  cases kind with
  | unconditional => exact absurd rfl hkind
  | ifTrue | ifFalse => simp [next, hi, hne]

/-- Every edge goes to a position after the entry. -/
theorem bounds_of_mem_next
    (edge : q ∈ (ofBody subroutine body).next p) :
    1 ≤ q ∧ q < (ofBody subroutine body).size := by
  have hlt := lt_size_of_mem_next edge
  obtain ⟨i, hi⟩ : ∃ i, (ofBody subroutine body).instructions[p]? = some i :=
    ⟨_, Array.getElem?_eq_getElem hlt⟩
  have hexit := exit_ofBody subroutine body
  have hsize := size_ofBody subroutine body
  have hfollowing : p + 1 < (ofBody subroutine body).size := by
    have hne : p ≠ 1 + body.span := by
      rintro rfl
      rw [next_exit_ofBody] at edge
      cases edge
    omega
  have haims := aims_ofBody subroutine body hi
  rcases eq_of_mem_next hi edge with rfl | ⟨kind, element, rfl⟩ | rfl
  · omega
  · obtain ⟨hlow, hhigh⟩ := haims.1
    omega
  · omega

theorem previous_entry_ofBody : (ofBody subroutine body).previous 0 = [] := by
  rw [List.eq_nil_iff_forall_not_mem]
  intro q hq
  have hbounds := bounds_of_mem_next subroutine body (mem_previous_iff.mp hq)
  omega

end OfBody

end FlowGraph

end DeclAnalysis
