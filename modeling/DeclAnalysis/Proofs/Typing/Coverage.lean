import DeclAnalysis.Proofs.Flow.Builder
import DeclAnalysis.Proofs.Flow.Operands
import DeclAnalysis.Proofs.Typing.Recorded

/-!
# What typing covers

Whoever asks for the type of an expression afterwards finds it recorded, unless there is a lambda
or the expression stands in the target of an assignment that nothing can be assigned to. In
particular every instruction that an expression is lowered to stands for an expression whose type
is recorded, for nothing is evaluated in such a target.
-/

namespace DeclAnalysis

namespace Expr

variable {e x : Expr} {inBody inner : Bool}

theorem id_mem_evaluated (he : e.isLambda = false) : e.id ∈ e.evaluated := by
  match e with
  | lambda .. => cases he
  | constant .. | name .. | dot .. | block .. | cond _ _ _ none | cond _ _ _ (some _)
  | whileLoop .. | doWhileLoop .. | breakLoop _ | continueLoop _ | ret _ none | ret _ (some _)
  | binary .. | assign .. | call .. | localVariable _ _ _ _ none
  | localVariable _ _ _ _ (some _) =>
      exact List.mem_cons_self

theorem evaluatedOf_eq_flatMap (es : List Expr) : evaluatedOf es = es.flatMap evaluated := by
  induction es with
  | nil => rfl
  | cons e rest ih => rw [evaluatedOf, ih, List.flatMap_cons]

/-- A child is evaluated unless it is the target of an assignment that nothing can be assigned
to. -/
theorem evaluated_child_subset
    (he : e.isLambda = false) {c : Expr} (hc : c ∈ e.children)
    (htarget : ∀ node value, e = assign node c value → Analysis.isAssignable c = true) :
    c.evaluated ⊆ e.evaluated := by
  match e with
  | lambda .. => cases he
  | constant .. | name .. | breakLoop _ | continueLoop _ | ret _ none
  | localVariable _ _ _ _ none => cases hc
  | dot .. | ret _ (some _) | localVariable _ _ _ _ (some _) =>
      rw [List.mem_singleton.mp hc]
      exact List.subset_cons_self ..
  | block .. | call .. =>
      intro node hnode
      rw [evaluated, evaluatedOf_eq_flatMap]
      exact List.mem_cons_of_mem _ (List.mem_flatMap.mpr ⟨c, hc, hnode⟩)
  | cond _ _ _ none | cond _ _ _ (some _) | whileLoop .. | doWhileLoop .. | binary .. =>
      intro node hnode
      simp only [children, Option.toList, List.mem_cons, List.not_mem_nil, or_false] at hc
      simp only [evaluated, List.mem_cons, List.mem_append]
      grind
  | assign node target value =>
      rcases List.mem_cons.mp hc with rfl | hc
      · rw [evaluated, if_pos (htarget node value rfl)]
        exact List.subset_cons_of_subset _ (List.subset_append_left ..)
      · rw [List.mem_singleton.mp hc]
        exact List.subset_cons_of_subset _ (List.subset_append_right ..)

/-- What is not inside such a target is evaluated. -/
theorem id_mem_evaluated_of_mem_subexpressions
    (he : e.LambdaFree) (hx : x ∈ e.subexpressions)
    (houtside : ∀ node target value, assign node target value ∈ e.subexpressions →
      Analysis.isAssignable target = false → x ∉ target.subexpressions) :
    x.id ∈ e.evaluated := by
  induction e using induction_children with
  | h e ih =>
      have hself := he e e.self_mem_subexpressions
      rcases mem_subexpressions_iff.mp hx with rfl | ⟨c, hc, hxc⟩
      · exact id_mem_evaluated hself
      · have hsub : c.subexpressions ⊆ e.subexpressions := by
          intro sub hsub
          exact mem_subexpressions_iff.mpr (.inr ⟨c, hc, hsub⟩)
        apply evaluated_child_subset hself hc
        · rintro node value rfl
          by_contra htarget
          exact houtside node c value (self_mem_subexpressions _) (by simpa using htarget) hxc
        · apply ih c hc (fun sub h => he sub (hsub h)) hxc
          intro node target value hassign
          exact houtside node target value (hsub hassign)

/-! ### Steps -/

/-- Of an assignment only a part of the target is evaluated, and nothing of a lambda; everything
else evaluates its children. -/
theorem map_snd_operands
    (he : e.isLambda = false) (hassign : ∀ node target value, e ≠ assign node target value) :
    (e.operands inBody).map Prod.snd = e.children := by
  match e with
  | lambda .. => cases he
  | assign node target value => exact absurd rfl (hassign node target value)
  | constant .. | name .. | breakLoop _ | continueLoop _ | ret _ none
  | localVariable _ _ _ _ none | dot .. | ret _ (some _) | localVariable _ _ _ _ (some _)
  | whileLoop .. | doWhileLoop .. | binary .. =>
      rfl
  | block .. | call .. | cond .. =>
      simp [operands, children]

/-- What the steps of an expression stand for is evaluated, for they have no part in a target that
nothing can be assigned to. -/
theorem evaluated_operand_subset {o : Bool × Expr} (ho : o ∈ e.operands inBody) :
    o.2.evaluated ⊆ e.evaluated := by
  by_cases hassign : ∃ node target value, e = assign node target value
  · obtain ⟨node, target, value, rfl⟩ := hassign
    obtain ⟨operand, hoperand, rfl⟩ := List.mem_map.mp ho
    rcases List.mem_append.mp hoperand with hreceiver | hvalue
    · cases target with
      | dot _ receiver _ =>
          obtain rfl := List.mem_singleton.mp hreceiver
          apply List.subset_cons_of_subset
          apply List.subset_append_of_subset_left
          exact List.subset_cons_self ..
      | _ => cases hreceiver
    · rw [List.mem_singleton.mp hvalue]
      exact List.subset_cons_of_subset _ (List.subset_append_right ..)
  · push Not at hassign
    have hlambda : e.isLambda = false := by
      cases e with
      | lambda => cases ho
      | _ => rfl
    have hchild : o.2 ∈ e.children := by
      rw [← map_snd_operands hlambda hassign]
      exact List.mem_map_of_mem ho
    apply evaluated_child_subset hlambda hchild
    intro node value heq
    exact absurd heq (hassign node o.2 value)

theorem Evaluates.evaluated_subset (h : e.Evaluates inBody x inner) :
    x.evaluated ⊆ e.evaluated := by
  induction h with
  | self => exact List.Subset.refl _
  | operand ho _ ih => exact List.Subset.trans ih (evaluated_operand_subset ho)

theorem element_mem_evaluated_of_mem_steps
    (he : e.LambdaFree) {s : Step} (hs : s ∈ e.steps inBody) : s.element ∈ e.evaluated := by
  obtain ⟨x, inner, hx, hown⟩ := mem_steps_iff.mp hs
  rw [element_of_ownStep? hown]
  exact hx.evaluated_subset (id_mem_evaluated (he x hx.mem_subexpressions))

end Expr

theorem Instruction.element?_relabel (position : Nat → Nat) (i : Instruction) :
    (i.relabel position).element? = i.element? := by
  cases i <;> rfl

/-- What an instruction that is emitted for a body stands for is the element of a step. -/
theorem Code.exists_step_of_element?
    {subroutine : Nat} {body : Expr} {i : Instruction}
    (hi : i ∈ (Code.ofBody subroutine body).instructions) {element : Nat}
    (helement : i.element? = some element) :
    ∃ s ∈ body.steps false, s.element = element := by
  obtain ⟨p, hp⟩ := Array.mem_iff_getElem?.mp hi
  have hlowered := Array.mem_of_getElem? (Code.instruction_ofBody subroutine body hp)
  rw [← i.element?_relabel (Code.ofBody subroutine body).position,
    ← Instruction.map_element_step?] at helement
  obtain ⟨s, hstep, hs⟩ := Option.map_eq_some_iff.mp helement
  refine ⟨s, ?_, hs⟩
  rw [← FlowGraph.filterMap_step?_ofBody subroutine body]
  exact List.mem_filterMap.mpr ⟨_, hlowered.val, hstep⟩

namespace Analysis

/-- The type that is found for an expression is the one that is recorded for it. -/
theorem after_infer_recorded (scope : Nat) (e : Expr) (s : Session) :
    After (infer scope e) s fun type s' =>
      type.isSome → s'.trace.expressionType? e.id = type := by
  rw [infer_eq]
  have hform : After (inferForm scope e) s fun _ _ => True := trivial
  refine After.bind hform fun type s₁ _ => ?_
  cases type with
  | none => exact nofun
  | some type => exact fun _ => Std.TreeMap.getElem?_insert_self

/-- Typing comes to an end without a fault, in whatever state and scope it begins. It finds a type
for an expression without lambdas and records it, and so it does for all that is inside, apart from
the targets of assignments that are neither a name nor a member. That includes everything that the
code of the expression as a body refers to. -/
theorem infer_records (s : Session) (scope : Nat) (e : Expr) :
    ∃ type s', (infer scope e : FaultyAnalysis (Option Ty)).run s = (.ok type, s') ∧
      (e.LambdaFree →
        (∃ t, type = some t ∧ s'.trace.expressionType? e.id = some t) ∧
        (∀ sub ∈ e.subexpressions,
          (∀ node target value, .assign node target value ∈ e.subexpressions →
            isAssignable target = false → sub ∉ target.subexpressions) →
          (s'.trace.expressionType? sub.id).isSome) ∧
        ∀ subroutine, ∃ p, Pseudocode.build subroutine e = .ok p ∧
          ∀ i ∈ p.code.instructions, ∀ element, i.element? = some element →
            (s'.trace.expressionType? element).isSome) := by
  refine ⟨((infer scope e).run s).1, ((infer scope e).run s).2, rfl, fun he => ?_⟩
  obtain ⟨-, htyped, hsome⟩ := records_infer scope e he s
  have hown := after_infer_recorded scope e s hsome
  refine ⟨?_, ?_, ?_⟩
  · obtain ⟨t, ht⟩ := Option.isSome_iff_exists.mp hsome
    exact ⟨t, ht, hown.trans ht⟩
  · intro sub hsub houtside
    exact htyped _ (Expr.id_mem_evaluated_of_mem_subexpressions he hsub houtside)
  · intro subroutine
    obtain ⟨p, hbuild, hcode, -, -⟩ := Pseudocode.exists_build_eq_ok subroutine e
    refine ⟨p, hbuild, ?_⟩
    rw [hcode]
    intro i hi element helement
    obtain ⟨step, hstep, rfl⟩ := Code.exists_step_of_element? hi helement
    exact htyped _ (Expr.element_mem_evaluated_of_mem_steps he hstep)

/-- A variable is assigned the value of a branch, and a constant is the target of another
assignment. -/
def assigning : Expr :=
  .block 1 [
    .localVariable 2 "x" true none (some (.constant 3 (.int 1))),
    .assign 4 (.name 5 "x")
      (.cond 6 (.constant 7 (.bool true)) (.name 8 "x") (some (.constant 9 (.int 2)))),
    .assign 10 (.constant 11 (.int 1)) (.name 12 "x")]

theorem infer_records_assigning :
    assigning.LambdaFree ∧
    ∃ type s', (infer 0 assigning : FaultyAnalysis (Option Ty)).run {} = (.ok type, s') ∧
      type.isSome ∧ (s'.trace.expressionType? 8).isSome ∧
      ∃ p, Pseudocode.build 0 assigning = .ok p ∧
        ∀ i ∈ p.code.instructions, ∀ element, i.element? = some element →
          (s'.trace.expressionType? element).isSome := by
  have hfree : assigning.LambdaFree := by decide
  obtain ⟨type, s', hrun, hrecords⟩ := infer_records {} 0 assigning
  obtain ⟨⟨t, ht, -⟩, htyped, hcode⟩ := hrecords hfree
  refine ⟨hfree, type, s', hrun, Option.isSome_of_eq_some ht, ?_, hcode 0⟩
  apply htyped (.name 8 "x")
  · simp [assigning, Expr.subexpressions, Expr.subexpressionsOf]
  · intro node target value hassign htarget
    have hcases : target = .name 5 "x" ∨ target = .constant 11 (.int 1) := by
      simp [assigning, Expr.subexpressions, Expr.subexpressionsOf] at hassign
      exact hassign.imp (fun h => h.2.1) fun h => h.2.1
    rcases hcases with rfl | rfl
    · cases htarget
    · simp [Expr.subexpressions]

end Analysis

end DeclAnalysis
