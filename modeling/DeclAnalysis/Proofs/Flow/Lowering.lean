import DeclAnalysis.Proofs.Flow.Fragment

/-!
# Lowering keeps the behaviour

The instructions of an expression carry out its structural behaviour, wherever
they stand in a graph. The proof follows the expression: the instructions of
each form are those of its parts with a few of its own in between, and the
fragments of the parts are put together accordingly.
-/

namespace DeclAnalysis

namespace Expr

/-! ## Lengths -/

mutual

/-- The instructions of an expression are as many as its span says. -/
@[simp] theorem length_lower (loop : Option LoopTargets) (start : Nat) (e : Expr) :
    (e.lower loop start).length = e.span := by
  match e with
  | constant .. | name .. | lambda .. => simp [lower, span]
  | breakLoop _ | continueLoop _ => cases loop <;> simp [lower, span]
  | dot _ receiver _ => simp [lower, span, length_lower]
  | block _ [] => simp [lower, span]
  | block _ (first :: rest) => simp [lower, span, length_lower, length_lowerAll]
  | cond _ condition thenBranch none =>
      simp [lower, span, length_lower]
      omega
  | cond _ condition thenBranch (some elseBranch) =>
      simp [lower, span, length_lower]
      omega
  | whileLoop _ condition body =>
      simp [lower, span, length_lower]
      omega
  | doWhileLoop _ body condition =>
      simp [lower, span, length_lower]
      omega
  | ret _ none => simp [lower, span]
  | ret _ (some value) => simp [lower, span, length_lower]
  | binary _ operator left right =>
      cases h : operator.isShortCircuit <;> simp [lower, span, h, length_lower] <;> omega
  | assign _ target value =>
      simp [lower, span, length_lower, length_lowerReceiver]
      omega
  | call _ _ arguments => simp [lower, span, length_lowerAll]
  | localVariable _ _ _ _ none => simp [lower, span]
  | localVariable _ _ _ _ (some initializer) => simp [lower, span, length_lower]

@[simp] theorem length_lowerAll (loop : Option LoopTargets) (start : Nat) (es : List Expr) :
    (lowerAll loop start es).length = spanOf es := by
  match es with
  | [] => simp [lowerAll, spanOf]
  | e :: rest => simp [lowerAll, spanOf, length_lower, length_lowerAll]

@[simp] theorem length_lowerReceiver (loop : Option LoopTargets) (start : Nat) (e : Expr) :
    (lowerReceiver loop start e).length = receiverSpan e := by
  match e with
  | dot _ receiver _ => simp [lowerReceiver, receiverSpan, length_lower]
  | constant .. | name .. | lambda .. | breakLoop _ | continueLoop _ | block .. | cond ..
  | whileLoop .. | doWhileLoop .. | ret .. | binary .. | assign .. | call ..
  | localVariable .. => simp [lowerReceiver, receiverSpan]

end

end Expr

namespace FlowGraph

open DeclAnalysis.Expr

variable {g : FlowGraph} {loop : Option LoopTargets} {start p : Nat}
  {rest : List Instruction}

theorem Holds.tail {i : Instruction} (h : g.Holds start (i :: rest)) :
    g.Holds (start + 1) rest :=
  Holds.append_right (a := [i]) h

theorem Holds.after_lower {e : Expr} {start' : Nat}
    (h : g.Holds start (e.lower loop start' ++ rest)) : g.Holds (start + e.span) rest := by
  simpa using h.append_right

theorem Holds.after_lowerAll {es : List Expr} {start' : Nat}
    (h : g.Holds start (lowerAll loop start' es ++ rest)) :
    g.Holds (start + spanOf es) rest := by
  simpa using h.append_right

theorem Holds.after_lowerReceiver {e : Expr} {start' : Nat}
    (h : g.Holds start (lowerReceiver loop start' e ++ rest)) :
    g.Holds (start + receiverSpan e) rest := by
  simpa using h.append_right

theorem Fragment.congr_stop {stop stop' : Nat} {b : Behaviour} {live : Nat → Prop}
    (h : Fragment g loop start stop b live) (hstop : stop = stop') :
    Fragment g loop start stop' b live :=
  hstop ▸ h

/-! ## Single instructions -/

/-- An instruction that is no jump and no return is followed by the next one. -/
theorem next_eq_of_plain {i : Instruction} {s : Step} (hi : g.instructions[p]? = some i)
    (hs : i.step? = some s) (hk : s.kind.isPlain = true) : g.next p = [p + 1] := by
  cases i with
  | jump kind target element =>
      obtain ⟨e, -, rfl⟩ := Option.map_eq_some_iff.mp hs
      cases hk
  | returnValue e | returnUnit e =>
      cases hs
      cases hk
  | enter _ | exit _ => cases hs
  | read _ | readUnit _ | write _ | unsupported _ => simp [next, hi]

/-- A return is followed by the exit. -/
theorem next_eq_of_return {i : Instruction} {s : Step} (hi : g.instructions[p]? = some i)
    (hs : i.step? = some s) (hr : s.kind = .returnValue ∨ s.kind = .returnUnit) :
    g.next p = [g.exit] := by
  cases i with
  | jump kind target element =>
      obtain ⟨e, -, rfl⟩ := Option.map_eq_some_iff.mp hs
      simp at hr
  | returnValue e | returnUnit e => simp [next, hi]
  | enter _ | exit _ => cases hs
  | read _ | readUnit _ | write _ | unsupported _ =>
      cases hs
      simp at hr

theorem step?_eq_some {i : Instruction} {s : Step} (hi : g.instructions[p]? = some i)
    (hs : i.step? = some s) : g.step? p = some s := by
  rw [step?, hi, Option.bind_some, hs]

theorem fragment_plain (loop : Option LoopTargets) {i : Instruction} {s : Step}
    (hi : g.instructions[p]? = some i) (hs : i.step? = some s) (hk : s.kind.isPlain = true) :
    Fragment g loop p (p + 1) (Behaviour.step s .normal) (· = p) :=
  Fragment.step_normal (step?_eq_some hi hs) (next_eq_of_plain hi hs hk)

theorem fragment_return {i : Instruction} {s : Step} (hi : g.instructions[p]? = some i)
    (hs : i.step? = some s) (hr : s.kind = .returnValue ∨ s.kind = .returnUnit) :
    Fragment g loop p (p + 1) (Behaviour.step s .returned) (· = p) := by
  refine Fragment.step (step?_eq_some hi hs) (by simp) fun q => ?_
  rw [next_eq_of_return hi hs hr, List.mem_singleton]
  constructor
  · rintro rfl
    exact .returned
  · rintro ⟨⟩
    rfl

/-- The jump of a `break` or `continue`. -/
theorem fragment_leave {id target : Nat} {o : Ending} (ho : o ≠ .unfinished)
    (hi : g.instructions[p]? = some (.jump .unconditional target (some id)))
    (hexit : ∀ q, q = target ↔ Exits g loop (p + 1) o q) :
    Fragment g loop p (p + 1) (Behaviour.step ⟨.leave, id⟩ o) (· = p) := by
  refine Fragment.step (by simp [step?, hi, Instruction.step?]) ho fun q => ?_
  rw [next_eq_of_unconditional hi, List.mem_singleton]
  exact hexit q

end FlowGraph

/-! ## Expressions -/

namespace Expr

open FlowGraph

theorem skipKind_ne_unconditional (operator : BinaryOperator) :
    skipKind operator ≠ .unconditional := by
  unfold skipKind
  split <;> simp

mutual

/-- The instructions of an expression carry out its behaviour. -/
theorem exists_fragment_lower {g : FlowGraph} {loop : Option LoopTargets} {start : Nat}
    (e : Expr) (h : g.Holds start (e.lower loop start)) :
    ∃ live, Fragment g loop start (start + e.span) (e.behaviour loop.isSome) live := by
  match e with
  | constant id _ | name id _ =>
      exact ⟨_, fragment_plain loop h.head rfl rfl⟩
  | lambda id _ _ => exact ⟨_, fragment_plain loop h.head rfl rfl⟩
  | dot id receiver _ =>
      simp only [lower] at h
      obtain ⟨lr, hr⟩ := exists_fragment_lower receiver h.append_left
      exact ⟨_, hr.andThen (fragment_plain loop h.after_lower.head rfl rfl)⟩
  | block id [] => exact ⟨_, fragment_plain loop h.head rfl rfl⟩
  | block _ (first :: rest) =>
      simp only [lower] at h
      obtain ⟨lf, hf⟩ := exists_fragment_lower first h.append_left
      obtain ⟨lr, hr⟩ := exists_fragment_lowerAll rest h.after_lower
      exact ⟨_, (hf.andThen hr).congr_stop (by simp only [span]; omega)⟩
  | cond id condition thenBranch none =>
      simp only [lower, List.append_assoc, List.cons_append, List.nil_append] at h
      obtain ⟨lc, hc⟩ := exists_fragment_lower condition h.append_left
      have hj := h.after_lower
      obtain ⟨lt, ht⟩ := exists_fragment_lower thenBranch hj.tail.append_left
      have hm := hj.tail.after_lower
      have helse := fragment_plain loop hm.tail.head rfl rfl
      have hbranch := Fragment.branch hj.head (by simp) ht hm.head helse
      exact ⟨_, (hc.andThen hbranch).congr_stop (by simp only [span]; omega)⟩
  | cond _ condition thenBranch (some elseBranch) =>
      simp only [lower, List.append_assoc, List.cons_append, List.nil_append] at h
      obtain ⟨lc, hc⟩ := exists_fragment_lower condition h.append_left
      have hj := h.after_lower
      obtain ⟨lt, ht⟩ := exists_fragment_lower thenBranch hj.tail.append_left
      have hm := hj.tail.after_lower
      obtain ⟨le, he⟩ := exists_fragment_lower elseBranch hm.tail
      have hbranch := Fragment.branch hj.head (by simp) ht hm.head he
      exact ⟨_, (hc.andThen hbranch).congr_stop (by simp only [span]; omega)⟩
  | whileLoop id condition body =>
      simp only [lower, List.append_assoc, List.cons_append, List.nil_append] at h
      obtain ⟨lc, hc⟩ := exists_fragment_lower condition h.append_left
      have hj := h.after_lower
      obtain ⟨lb, hb⟩ := exists_fragment_lower body hj.tail.append_left
      have hm := hj.tail.after_lower
      have hloop := Fragment.whileLoop hc hj.head (by simp) hb hm.head
      have hdone := fragment_plain loop hm.tail.head rfl rfl
      exact ⟨_, (hloop.andThen hdone).congr_stop (by simp only [span]; omega)⟩
  | doWhileLoop id body condition =>
      simp only [lower, List.append_assoc, List.cons_append, List.nil_append] at h
      obtain ⟨lb, hb⟩ := exists_fragment_lower body h.append_left
      obtain ⟨lc, hc⟩ := exists_fragment_lower condition h.after_lower.append_left
      have hj := h.after_lower.after_lower
      have hloop := Fragment.doWhileLoop hb hc hj.head (by simp)
      have hdone := fragment_plain loop hj.tail.head rfl rfl
      exact ⟨_, (hloop.andThen hdone).congr_stop (by simp only [span]; omega)⟩
  | breakLoop id =>
      cases loop with
      | none => exact ⟨_, fragment_plain none h.head rfl rfl⟩
      | some targets =>
          refine ⟨_, fragment_leave (by simp) h.head fun q => ?_⟩
          constructor
          · rintro rfl
            exact .broken rfl
          · rintro (- | htargets)
            cases htargets
            rfl
  | continueLoop id =>
      cases loop with
      | none => exact ⟨_, fragment_plain none h.head rfl rfl⟩
      | some targets =>
          refine ⟨_, fragment_leave (by simp) h.head fun q => ?_⟩
          constructor
          · rintro rfl
            exact .continued rfl
          · rintro (- | - | htargets)
            cases htargets
            rfl
  | ret id none => exact ⟨_, fragment_return h.head rfl (by simp)⟩
  | ret id (some value) =>
      simp only [lower] at h
      obtain ⟨lv, hv⟩ := exists_fragment_lower value h.append_left
      exact ⟨_, hv.andThen (fragment_return h.after_lower.head rfl (by simp))⟩
  | binary id operator left right =>
      cases hop : operator.isShortCircuit with
      | true =>
          simp only [lower, hop, if_true, List.append_assoc, List.cons_append,
            List.nil_append] at h
          obtain ⟨ll, hl⟩ := exists_fragment_lower left h.append_left
          have hj := h.after_lower
          obtain ⟨lr, hr⟩ := exists_fragment_lower right hj.tail.append_left
          have hread := hj.tail.after_lower
          simp only [behaviour, hop, if_true]
          have hright := Fragment.jumpOver hj.head (skipKind_ne_unconditional operator) hr
          have hdone := fragment_plain loop hread.head rfl rfl
          exact ⟨_, (hl.andThen (hright.andThen hdone)).congr_stop
            (by simp only [span, hop, if_true]; omega)⟩
      | false =>
          simp only [lower, hop, if_false, List.append_assoc, Bool.false_eq_true] at h
          obtain ⟨ll, hl⟩ := exists_fragment_lower left h.append_left
          obtain ⟨lr, hr⟩ := exists_fragment_lower right h.after_lower.append_left
          have hread := h.after_lower.after_lower
          simp only [behaviour, hop, if_false, Bool.false_eq_true]
          have hdone := fragment_plain loop hread.head rfl rfl
          exact ⟨_, (hl.andThen (hr.andThen hdone)).congr_stop
            (by simp only [span, hop, if_false, Bool.false_eq_true]; omega)⟩
  | assign id target value =>
      simp only [lower, List.append_assoc] at h
      obtain ⟨lt, ht⟩ := exists_fragment_lowerReceiver target h.append_left
      obtain ⟨lv, hv⟩ := exists_fragment_lower value h.after_lowerReceiver.append_left
      have hwrite := h.after_lowerReceiver.after_lower
      have hdone := fragment_plain loop hwrite.head rfl rfl
      exact ⟨_, (ht.andThen (hv.andThen hdone)).congr_stop (by simp only [span]; omega)⟩
  | call id _ arguments =>
      simp only [lower] at h
      obtain ⟨la, ha⟩ := exists_fragment_lowerAll arguments h.append_left
      exact ⟨_, ha.andThen (fragment_plain loop h.after_lowerAll.head rfl rfl)⟩
  | localVariable id _ _ _ none =>
      exact ⟨_, fragment_plain loop h.head rfl rfl⟩
  | localVariable id _ _ _ (some initializer) =>
      simp only [lower] at h
      obtain ⟨li, hi⟩ := exists_fragment_lower initializer h.append_left
      exact ⟨_, hi.andThen (fragment_plain loop h.after_lower.head rfl rfl)⟩

theorem exists_fragment_lowerAll {g : FlowGraph} {loop : Option LoopTargets} {start : Nat}
    (es : List Expr) (h : g.Holds start (lowerAll loop start es)) :
    ∃ live, Fragment g loop start (start + spanOf es) (behaviourAll loop.isSome es) live := by
  match es with
  | [] => exact ⟨_, Fragment.skip⟩
  | e :: rest =>
      simp only [lowerAll] at h
      obtain ⟨le, he⟩ := exists_fragment_lower e h.append_left
      obtain ⟨lr, hr⟩ := exists_fragment_lowerAll rest h.after_lower
      exact ⟨_, (he.andThen hr).congr_stop (by simp only [spanOf]; omega)⟩

theorem exists_fragment_lowerReceiver {g : FlowGraph} {loop : Option LoopTargets}
    {start : Nat} (e : Expr) (h : g.Holds start (lowerReceiver loop start e)) :
    ∃ live,
      Fragment g loop start (start + receiverSpan e) (receiverBehaviour loop.isSome e) live := by
  match e with
  | dot _ receiver _ =>
      exact exists_fragment_lower receiver h
  | constant .. | name .. | lambda .. | breakLoop _ | continueLoop _ | block .. | cond ..
  | whileLoop .. | doWhileLoop .. | ret .. | binary .. | assign .. | call ..
  | localVariable .. => exact ⟨_, Fragment.skip⟩

end

end Expr

end DeclAnalysis
