import Mathlib.Data.List.Nodup
import DeclAnalysis.Proofs.Flow.Fragment
import DeclAnalysis.Tree.Numbering

/-!
# Elements of steps

Read from left to right, the instructions of an expression carry out its steps
in the order in which they would be performed. Once the nodes are numbered no
two of these steps have the same element, for the steps of an expression take
their elements from the numbers of its nodes.
-/

namespace DeclAnalysis

/-! ## Different numbers from an interval -/

/-- The numbers are different from each other and lie between the bounds. -/
structure Spread (low high : Nat) (numbers : List Nat) : Prop where
  nodup : numbers.Nodup
  bounds : ∀ x ∈ numbers, low ≤ x ∧ x < high

namespace Spread

variable {low middle middle' high : Nat} {xs ys : List Nat}

theorem nil : Spread low high [] := ⟨List.nodup_nil, by simp⟩

theorem singleton (h : low < high) : Spread low high [low] :=
  ⟨List.nodup_singleton low, by simpa using h⟩

theorem mono {low' high' : Nat} (h : Spread low high xs) (hlow : low' ≤ low)
    (hhigh : high ≤ high') : Spread low' high' xs := by
  refine ⟨h.nodup, fun x hx => ?_⟩
  have := h.bounds x hx
  omega

theorem append (hx : Spread low middle xs) (hy : Spread middle' high ys)
    (hlow : low ≤ middle) (hmiddle : middle ≤ middle') (hhigh : middle' ≤ high) :
    Spread low high (xs ++ ys) := by
  refine ⟨List.nodup_append.mpr ⟨hx.nodup, hy.nodup, ?_⟩, fun x h => ?_⟩
  · rintro x hxs y hys rfl
    have := hx.bounds x hxs
    have := hy.bounds x hys
    omega
  · rcases List.mem_append.mp h with h | h
    · have := hx.bounds x h
      omega
    · have := hy.bounds x h
      omega

theorem append_comm (h : Spread low high (xs ++ ys)) : Spread low high (ys ++ xs) := by
  refine ⟨List.nodup_append_comm.mp h.nodup, fun x hx => h.bounds x ?_⟩
  rw [List.mem_append] at hx ⊢
  exact hx.symm

/-- The number of a node is smaller than the numbers of the nodes inside it. -/
theorem append_head (h : Spread (low + 1) high xs) (hlow : low < high) :
    Spread low high (xs ++ [low]) :=
  append_comm ((singleton (Nat.lt_succ_self low)).append h (by omega) (by omega) hlow)

end Spread

/-- The instruction is neither the entry nor the exit of a subroutine. -/
def Instruction.isInner : Instruction → Bool
  | enter _ | exit _ => false
  | _ => true

namespace Expr

/-! ## Steps of instructions -/

mutual

/-- The instructions of an expression carry out its steps. -/
theorem filterMap_step?_lower (loop : Option LoopTargets) (start : Nat) (e : Expr) :
    (e.lower loop start).filterMap Instruction.step? = e.steps loop.isSome := by
  match e with
  | constant .. | name .. | lambda .. => rfl
  | breakLoop _ | continueLoop _ => cases loop <;> rfl
  | dot _ receiver _ =>
      simp [lower, steps, filterMap_step?_lower, Instruction.step?]
  | block _ [] => rfl
  | block _ (first :: rest) =>
      simp [lower, steps, filterMap_step?_lower, filterMap_step?_lowerAll]
  | cond _ condition thenBranch none =>
      simp [lower, steps, filterMap_step?_lower, Instruction.step?, List.filterMap_cons]
  | cond _ condition thenBranch (some elseBranch) =>
      simp [lower, steps, filterMap_step?_lower, Instruction.step?, List.filterMap_cons]
  | whileLoop _ condition body =>
      simp [lower, steps, filterMap_step?_lower, Instruction.step?, List.filterMap_cons]
  | doWhileLoop _ body condition =>
      simp [lower, steps, filterMap_step?_lower, Instruction.step?, List.filterMap_cons]
  | ret _ none => rfl
  | ret _ (some value) =>
      simp [lower, steps, filterMap_step?_lower, Instruction.step?]
  | binary _ operator left right =>
      cases h : operator.isShortCircuit <;>
        simp [lower, steps, h, filterMap_step?_lower, Instruction.step?, List.filterMap_cons]
  | assign _ target value =>
      simp [lower, steps, filterMap_step?_lower, filterMap_step?_lowerReceiver,
        Instruction.step?]
  | call _ _ arguments =>
      simp [lower, steps, filterMap_step?_lowerAll, Instruction.step?]
  | localVariable _ _ _ _ none => rfl
  | localVariable _ _ _ _ (some initializer) =>
      simp [lower, steps, filterMap_step?_lower, Instruction.step?]

theorem filterMap_step?_lowerAll (loop : Option LoopTargets) (start : Nat)
    (es : List Expr) :
    (lowerAll loop start es).filterMap Instruction.step? = stepsAll loop.isSome es := by
  match es with
  | [] => rfl
  | e :: rest =>
      simp [lowerAll, stepsAll, filterMap_step?_lower, filterMap_step?_lowerAll]

theorem filterMap_step?_lowerReceiver (loop : Option LoopTargets) (start : Nat) (e : Expr) :
    (lowerReceiver loop start e).filterMap Instruction.step? =
      receiverSteps loop.isSome e := by
  match e with
  | dot _ receiver _ => exact filterMap_step?_lower loop start receiver
  | constant .. | name .. | lambda .. | breakLoop _ | continueLoop _ | block .. | cond ..
  | whileLoop .. | doWhileLoop .. | ret .. | binary .. | assign .. | call ..
  | localVariable .. => rfl

end

mutual

/-- The instructions of an expression are neither entries nor exits. -/
theorem all_isInner_lower (loop : Option LoopTargets) (start : Nat) (e : Expr) :
    (e.lower loop start).all Instruction.isInner = true := by
  match e with
  | constant .. | name .. | lambda .. | block _ [] | ret _ none
  | localVariable _ _ _ _ none => rfl
  | breakLoop _ | continueLoop _ => cases loop <;> rfl
  | dot .. | cond _ _ _ none | cond _ _ _ (some _) | whileLoop .. | doWhileLoop ..
  | ret _ (some _) | localVariable _ _ _ _ (some _) =>
      simp [lower, all_isInner_lower, Instruction.isInner]
  | block _ (first :: rest) =>
      simp [lower, all_isInner_lower, all_isInner_lowerAll]
  | binary _ operator _ _ =>
      cases h : operator.isShortCircuit <;>
        simp [lower, h, all_isInner_lower, Instruction.isInner]
  | assign .. =>
      simp [lower, all_isInner_lower, all_isInner_lowerReceiver, Instruction.isInner]
  | call .. => simp [lower, all_isInner_lowerAll, Instruction.isInner]

theorem all_isInner_lowerAll (loop : Option LoopTargets) (start : Nat) (es : List Expr) :
    (lowerAll loop start es).all Instruction.isInner = true := by
  match es with
  | [] => rfl
  | e :: rest => simp [lowerAll, all_isInner_lower, all_isInner_lowerAll]

theorem all_isInner_lowerReceiver (loop : Option LoopTargets) (start : Nat) (e : Expr) :
    (lowerReceiver loop start e).all Instruction.isInner = true := by
  match e with
  | dot _ receiver _ => exact all_isInner_lower loop start receiver
  | constant .. | name .. | lambda .. | breakLoop _ | continueLoop _ | block .. | cond ..
  | whileLoop .. | doWhileLoop .. | ret .. | binary .. | assign .. | call ..
  | localVariable .. => rfl

end

/-! ## Numbered expressions -/

mutual

/-- The steps of a numbered expression have different elements, all of them
numbers of its nodes. -/
theorem spread_steps_number (inBody : Bool) (n : Nat) (e : Expr) :
    Spread n (n + e.nodeCount) (((e.number n).steps inBody).map Step.element) := by
  match e with
  | constant .. | name .. | breakLoop _ | continueLoop _ | ret _ none
  | localVariable _ _ _ _ none | block _ [] =>
      simp only [number, numberAll, steps, List.map_cons, List.map_nil]
      exact .singleton (by simp only [nodeCount]; omega)
  | lambda .. =>
      simp only [number, steps, List.map_cons, List.map_nil]
      exact .singleton (by simp only [nodeCount]; omega)
  | dot _ receiver _ =>
      have hr := spread_steps_number inBody (n + 1) receiver
      simp only [number, steps, nodeCount, List.map_append, List.map_cons, List.map_nil]
      exact .append_head (hr.mono (by omega) (by omega)) (by omega)
  | block _ (first :: rest) =>
      have hf := spread_steps_number inBody (n + 1) first
      have hr := spread_stepsAll_number inBody (n + 1 + first.nodeCount) rest
      simp only [number, numberAll, steps, nodeCount, nodeCountOf, List.map_append]
      exact (hf.append hr (by omega) (by omega) (by omega)).mono (by omega) (by omega)
  | cond _ condition thenBranch none =>
      have hc := spread_steps_number inBody (n + 1) condition
      have ht := spread_steps_number inBody (n + 1 + condition.nodeCount) thenBranch
      simp only [number, steps, nodeCount, List.map_append, List.map_cons, List.map_nil]
      exact .append_head ((hc.append ht (by omega) (by omega) (by omega)).mono
        (by omega) (by omega)) (by omega)
  | cond _ condition thenBranch (some elseBranch) =>
      have hc := spread_steps_number inBody (n + 1) condition
      have ht := spread_steps_number inBody (n + 1 + condition.nodeCount) thenBranch
      have he := spread_steps_number inBody
        (n + 1 + condition.nodeCount + thenBranch.nodeCount) elseBranch
      simp only [number, steps, nodeCount, List.map_append]
      have hct := hc.append ht (by omega) (by omega) (by omega)
      exact (hct.append he (by omega) (by omega) (by omega)).mono (by omega) (by omega)
  | whileLoop _ condition body =>
      have hc := spread_steps_number inBody (n + 1) condition
      have hb := spread_steps_number true (n + 1 + condition.nodeCount) body
      simp only [number, steps, nodeCount, List.map_append, List.map_cons, List.map_nil]
      exact .append_head ((hc.append hb (by omega) (by omega) (by omega)).mono
        (by omega) (by omega)) (by omega)
  | doWhileLoop _ body condition =>
      have hb := spread_steps_number true (n + 1) body
      have hc := spread_steps_number inBody (n + 1 + body.nodeCount) condition
      simp only [number, steps, nodeCount, List.map_append, List.map_cons, List.map_nil]
      exact .append_head ((hb.append hc (by omega) (by omega) (by omega)).mono
        (by omega) (by omega)) (by omega)
  | ret _ (some value) =>
      have hv := spread_steps_number inBody (n + 1) value
      simp only [number, steps, nodeCount, List.map_append, List.map_cons, List.map_nil]
      exact .append_head (hv.mono (by omega) (by omega)) (by omega)
  | binary _ _ left right =>
      have hl := spread_steps_number inBody (n + 1) left
      have hr := spread_steps_number inBody (n + 1 + left.nodeCount) right
      simp only [number, steps, nodeCount, List.map_append, List.map_cons, List.map_nil]
      exact .append_head ((hl.append hr (by omega) (by omega) (by omega)).mono
        (by omega) (by omega)) (by omega)
  | assign _ target value =>
      have ht := spread_receiverSteps_number inBody (n + 1) target
      have hv := spread_steps_number inBody (n + 1 + target.nodeCount) value
      simp only [number, steps, nodeCount, List.map_append, List.map_cons, List.map_nil]
      exact .append_head ((ht.append hv (by omega) (by omega) (by omega)).mono
        (by omega) (by omega)) (by omega)
  | call _ _ arguments =>
      have ha := spread_stepsAll_number inBody (n + 1) arguments
      simp only [number, steps, nodeCount, List.map_append, List.map_cons, List.map_nil]
      exact .append_head (ha.mono (by omega) (by omega)) (by omega)
  | localVariable _ _ _ typeRef (some initializer) =>
      have hi := spread_steps_number inBody (n + 1 + typeRefCount typeRef) initializer
      simp only [number, steps, nodeCount, List.map_append, List.map_cons, List.map_nil]
      exact .append_head (hi.mono (by omega) (by omega)) (by omega)

theorem spread_stepsAll_number (inBody : Bool) (n : Nat) (es : List Expr) :
    Spread n (n + nodeCountOf es)
      ((stepsAll inBody (numberAll n es)).map Step.element) := by
  match es with
  | [] =>
      simp only [numberAll, stepsAll, List.map_nil]
      exact .nil
  | e :: rest =>
      have he := spread_steps_number inBody n e
      have hr := spread_stepsAll_number inBody (n + e.nodeCount) rest
      simp only [numberAll, stepsAll, nodeCountOf, List.map_append]
      exact (he.append hr (by omega) (by omega) (by omega)).mono (by omega) (by omega)

theorem spread_receiverSteps_number (inBody : Bool) (n : Nat) (e : Expr) :
    Spread n (n + e.nodeCount)
      ((receiverSteps inBody (e.number n)).map Step.element) := by
  match e with
  | dot _ receiver _ =>
      have hr := spread_steps_number inBody (n + 1) receiver
      simp only [number, receiverSteps, nodeCount]
      exact hr.mono (by omega) (by omega)
  | constant .. | name .. | lambda .. | breakLoop _ | continueLoop _ | block ..
  | cond _ _ _ none | cond _ _ _ (some _) | whileLoop .. | doWhileLoop .. | ret _ none
  | ret _ (some _) | binary .. | assign .. | call .. | localVariable _ _ _ _ none
  | localVariable _ _ _ _ (some _) =>
      simp only [number, receiverSteps, List.map_nil]
      exact .nil

end

end Expr

end DeclAnalysis
