import DeclAnalysis.Proofs.Flow.Finishing
import DeclAnalysis.Proofs.Flow.Operands
import DeclAnalysis.Proofs.Typing.Infer
import DeclAnalysis.Proofs.Typing.Recorded

/-!
# Return types that are found out

A body always has a return point. If it contains no lambda, and no `break` or
`continue` outside of loop bodies, then none of its steps is opaque, and so each
of its return points either has a type, which is recorded when the body is typed,
or is one after which there is no value. In both cases there is something to join:
the return type of the body is found out.
-/

namespace DeclAnalysis

namespace Expr

/-! ## Steps that are not opaque -/

mutual

/-- The `break`s and `continue`s in an expression that are in no loop body. -/
def strays : Expr → List Nat
  | breakLoop id | continueLoop id => [id]
  | constant .. | name .. | ret _ none | localVariable _ _ _ _ none => []
  | dot _ value _ | ret _ (some value) | localVariable _ _ _ _ (some value)
  | lambda _ _ value => value.strays
  | block _ statements => straysOf statements
  | cond _ condition thenBranch none => condition.strays ++ thenBranch.strays
  | cond _ condition thenBranch (some elseBranch) =>
    condition.strays ++ thenBranch.strays ++ elseBranch.strays
  | whileLoop _ condition _ | doWhileLoop _ _ condition => condition.strays
  | binary _ _ left right => left.strays ++ right.strays
  | assign _ target value => target.strays ++ value.strays
  | call _ _ arguments => straysOf arguments

/-- The `break`s and `continue`s in several expressions that are in no loop body. -/
def straysOf : List Expr → List Nat
  | [] => []
  | e :: rest => e.strays ++ straysOf rest

end

/-- Outside of loop bodies neither part contains stray leaves. -/
theorem strays_append
    {inBody : Bool} {xs ys : List Nat}
    (h : inBody = true ∨ xs ++ ys = []) :
    (inBody = true ∨ xs = []) ∧ (inBody = true ∨ ys = []) := by
  rw [List.append_eq_nil_iff] at h
  exact or_and_left.mp h

mutual

/-- Without lambdas and stray leaves no step is opaque. -/
theorem kind_ne_unsupported
    (inBody : Bool) (e : Expr)
    (hlambda : e.LambdaFree)
    (hstrays : inBody = true ∨ e.strays = []) :
    ∀ s ∈ e.steps inBody, s.kind ≠ .unsupported := by
  match e with
  | constant .. | name .. | ret _ none | localVariable _ _ _ _ none | block _ [] =>
      simp [steps]
  | lambda .. => exact absurd (hlambda _ List.mem_cons_self) Bool.noConfusion
  | breakLoop _ | continueLoop _ =>
      obtain rfl := hstrays.resolve_right (by simp [strays])
      simp [steps]
  | dot _ value _ | ret _ (some value) | localVariable _ _ _ _ (some value) =>
      have hvalue := kind_ne_unsupported inBody value (List.forall_mem_cons.mp hlambda).2 hstrays
      simpa [steps, or_imp, forall_and] using hvalue
  | block _ (first :: rest) =>
      have hboth := kind_ne_unsupported_all inBody (first :: rest)
        (List.forall_mem_cons.mp hlambda).2 hstrays
      simpa [steps, stepsAll] using hboth
  | cond _ condition thenBranch none =>
      obtain ⟨hcondition, hthen⟩ := List.forall_mem_append.mp (List.forall_mem_cons.mp hlambda).2
      obtain ⟨hstrays, hstrays'⟩ := strays_append hstrays
      have ha := kind_ne_unsupported inBody condition hcondition hstrays
      have hb := kind_ne_unsupported inBody thenBranch hthen hstrays'
      grind [steps]
  | cond _ condition thenBranch (some elseBranch) =>
      obtain ⟨hparts, helse⟩ := List.forall_mem_append.mp (List.forall_mem_cons.mp hlambda).2
      obtain ⟨hcondition, hthen⟩ := List.forall_mem_append.mp hparts
      obtain ⟨hstrays, hstrays''⟩ := strays_append hstrays
      obtain ⟨hstrays, hstrays'⟩ := strays_append hstrays
      have ha := kind_ne_unsupported inBody condition hcondition hstrays
      have hb := kind_ne_unsupported inBody thenBranch hthen hstrays'
      have hc := kind_ne_unsupported inBody elseBranch helse hstrays''
      grind [steps]
  | whileLoop _ condition body =>
      obtain ⟨hcondition, hbody⟩ := List.forall_mem_append.mp (List.forall_mem_cons.mp hlambda).2
      have ha := kind_ne_unsupported inBody condition hcondition hstrays
      have hb := kind_ne_unsupported true body hbody (Or.inl rfl)
      grind [steps]
  | doWhileLoop _ body condition =>
      obtain ⟨hbody, hcondition⟩ := List.forall_mem_append.mp (List.forall_mem_cons.mp hlambda).2
      have ha := kind_ne_unsupported true body hbody (Or.inl rfl)
      have hb := kind_ne_unsupported inBody condition hcondition hstrays
      grind [steps]
  | binary _ _ left right =>
      obtain ⟨hleft, hright⟩ := List.forall_mem_append.mp (List.forall_mem_cons.mp hlambda).2
      obtain ⟨hstrays, hstrays'⟩ := strays_append hstrays
      have ha := kind_ne_unsupported inBody left hleft hstrays
      have hb := kind_ne_unsupported inBody right hright hstrays'
      grind [steps]
  | assign _ target value =>
      obtain ⟨htarget, hvalue⟩ := List.forall_mem_append.mp (List.forall_mem_cons.mp hlambda).2
      obtain ⟨hstrays, hstrays'⟩ := strays_append hstrays
      have ha := kind_ne_unsupported_receiver inBody target htarget hstrays
      have hb := kind_ne_unsupported inBody value hvalue hstrays'
      grind [steps]
  | call _ _ arguments =>
      have ha := kind_ne_unsupported_all inBody arguments (List.forall_mem_cons.mp hlambda).2 hstrays
      grind [steps]

theorem kind_ne_unsupported_all
    (inBody : Bool) (es : List Expr)
    (hlambda : ∀ sub ∈ subexpressionsOf es, sub.isLambda = false)
    (hstrays : inBody = true ∨ straysOf es = []) :
    ∀ s ∈ stepsAll inBody es, s.kind ≠ .unsupported := by
  match es with
  | [] => simp [stepsAll]
  | e :: rest =>
      obtain ⟨hfirst, hrest⟩ := List.forall_mem_append.mp hlambda
      obtain ⟨hstrays, hstrays'⟩ := strays_append hstrays
      have ha := kind_ne_unsupported inBody e hfirst hstrays
      have hb := kind_ne_unsupported_all inBody rest hrest hstrays'
      exact List.forall_mem_append.mpr ⟨ha, hb⟩

theorem kind_ne_unsupported_receiver
    (inBody : Bool) (e : Expr)
    (hlambda : e.LambdaFree)
    (hstrays : inBody = true ∨ e.strays = []) :
    ∀ s ∈ receiverSteps inBody e, s.kind ≠ .unsupported := by
  match e with
  | dot _ receiver _ =>
      exact kind_ne_unsupported inBody receiver (List.forall_mem_cons.mp hlambda).2 hstrays
  | constant .. | name .. | lambda .. | breakLoop _ | continueLoop _ | block .. | cond ..
  | whileLoop .. | doWhileLoop .. | ret .. | binary .. | assign .. | call ..
  | localVariable .. => simp [receiverSteps]

end

/-- A return point that is not opaque is evaluated. -/
theorem IsReturnPoint.mem_evaluated
    {body : Expr} {s : Step}
    (h : body.IsReturnPoint s)
    (hkind : s.kind ≠ .unsupported) :
    s.element ∈ body.evaluated := by
  rcases h.1 with hs | hs
  · exact mem_evaluated_of_mem_tails false body s hs hkind
  · exact mem_evaluated_of_mem_finals false body s hs hkind

end Expr

/-! ## Return points of a body -/

namespace ReturnedInformation

variable {info : ReturnedInformation} {body : Expr}

/-- There is something in one of the lists. -/
theorem Lists.not_all_nil
    (h : info.Lists body) :
    info.expressions ≠ [] ∨ info.unitReturning ≠ [] ∨ info.unsupported ≠ [] := by
  obtain ⟨⟨kind, x⟩, hlast, hpoint⟩ := body.exists_isReturnPoint
  cases kind with
  | read => exact Or.inl (List.ne_nil_of_mem ((h.mem_expressions x).mpr (Or.inl hpoint)))
  | readUnit => exact Or.inl (List.ne_nil_of_mem ((h.mem_expressions x).mpr (Or.inr hpoint)))
  | write =>
      exact Or.inr (Or.inl (List.ne_nil_of_mem ((h.mem_unitReturning x).mpr (Or.inl hpoint))))
  | returnUnit =>
      exact Or.inr (Or.inl (List.ne_nil_of_mem ((h.mem_unitReturning x).mpr (Or.inr hpoint))))
  | unsupported =>
      exact Or.inr (Or.inr (List.ne_nil_of_mem ((h.mem_unsupported x).mpr hpoint)))
  | returnValue | leave => cases hlast

/-- Without opaque steps there is nothing but return points with or without a value. -/
theorem Lists.unsupported_eq_nil
    (h : info.Lists body)
    (hlambda : body.LambdaFree)
    (hstrays : body.strays = []) :
    info.unsupported = [] := by
  rw [List.eq_nil_iff_forall_not_mem]
  intro x hx
  have hpoint := (h.mem_unsupported x).mp hx
  exact Expr.kind_ne_unsupported false body hlambda (Or.inr hstrays) _
    (Expr.mem_steps_of_performs hpoint.2) rfl

/-- A return point with a value is evaluated. -/
theorem Lists.expressions_subset_evaluated
    (h : info.Lists body) :
    info.expressions ⊆ body.evaluated := by
  intro x hx
  rcases (h.mem_expressions x).mp hx with hpoint | hpoint
  · exact hpoint.mem_evaluated nofun
  · exact hpoint.mem_evaluated nofun

end ReturnedInformation

namespace Analysis

/-! ## Joining the types of return points -/

theorem isSome_joinAll
    (t : DescriptorTable) {types : List Ty}
    (h : types ≠ []) :
    (joinAll t types).isSome := by
  cases types with
  | nil => exact absurd rfl h
  | cons first rest => rfl

/-- If the types of the evaluated nodes are recorded, there is a type to join unless all
return points are opaque. -/
theorem returnTypes_ne_nil
    {s : Session} {info : ReturnedInformation} {body : Expr}
    (h : info.Lists body)
    (htyped : s.Typed body.evaluated)
    (hpoints : info.expressions ≠ [] ∨ info.unitReturning ≠ []) :
    returnTypes s.trace info ≠ [] := by
  unfold returnTypes
  rcases hpoints with hpoints | hpoints
  · obtain ⟨x, hx⟩ := List.exists_mem_of_ne_nil _ hpoints
    obtain ⟨type, htype⟩ := Option.isSome_iff_exists.mp
      (htyped x (h.expressions_subset_evaluated hx))
    apply List.append_ne_nil_of_left_ne_nil
    exact List.ne_nil_of_mem (List.mem_filterMap.mpr ⟨x, hx, htype⟩)
  · apply List.append_ne_nil_of_right_ne_nil
    simp [hpoints]

section ReturnPoints

variable (data : FlowData) (node n : Nat) (e : Expr)

/-- The return type of a body without opaque steps is found out, whatever the scope and the
session in which it is asked for. -/
theorem afterOk_inferReturnType_isSome
    (hlambda : (e.number n).LambdaFree)
    (hstrays : (e.number n).strays = [])
    (scope : Nat) (s : Session) :
    AfterOk (inferReturnType (.data (data.add node (e.number n))) scope node
      (some (e.number n))) s fun type _ => type.isSome := by
  have hlists := FlowGraph.lists_returned_ofBody node n e
  have hpoints : (FlowGraph.ofBody node (e.number n)).returned.expressions ≠ [] ∨
      (FlowGraph.ofBody node (e.number n)).returned.unitReturning ≠ [] := by
    have hall := hlists.not_all_nil
    rw [← or_assoc] at hall
    exact hall.resolve_right (· (hlists.unsupported_eq_nil hlambda hstrays))
  unfold inferReturnType
  refine AfterOr.bind (AfterOr.lift (records_infer scope (e.number n) hlambda s)) fun _ s₁ h₁ => ?_
  have hrun : AfterOk (returnPoints (.data (data.add node (e.number n))) node) s₁
      fun info s₂ => info = (FlowGraph.ofBody node (e.number n)).returned ∧
        s₂.trace = s₁.trace := by
    unfold AfterOk AfterOr After
    rw [run_returnPoints (FlowInformation.returned_add data node (e.number n)) s₁]
    exact ⟨rfl, rfl⟩
  refine AfterOr.bind hrun fun info s₂ h₂ => ?_
  obtain ⟨rfl, htrace⟩ := h₂
  have htyped : s₂.Typed (e.number n).evaluated := by
    intro x hx
    rw [htrace]
    exact h₁.2.1 x hx
  exact isSome_joinAll s₂.descriptors (returnTypes_ne_nil hlists htyped hpoints)

/-- Every body can finish: the exit of its graph can be reached from the entry. So asking for
its return points gives at least one, or reports at least one that is opaque. If there is no
lambda in the body and no `break` or `continue` outside of its loop bodies, its return type is
found out, from whatever session and in whatever scope. -/
theorem leads_exit_and_exists_returnPoint_and_returnType :
    (FlowGraph.ofBody node (e.number n)).Leads (FlowGraph.ofBody node (e.number n)).entry
        (FlowGraph.ofBody node (e.number n)).exit ∧
      (∀ s : Session, ∃ info : ReturnedInformation,
        (returnPoints (.data (data.add node (e.number n))) node).run.run s =
          (.ok info,
            { s with
              diagnostics := s.diagnostics ++
                (info.unsupported.map Diagnostic.unsupportedElement).toArray }) ∧
        (info.expressions ≠ [] ∨ info.unitReturning ≠ [] ∨ info.unsupported ≠ [])) ∧
      ((e.number n).LambdaFree → (e.number n).strays = [] → ∀ (scope : Nat) (s : Session),
        ∃ type s', (inferReturnType (.data (data.add node (e.number n))) scope node
          (some (e.number n))).run.run s = (.ok (some type), s')) := by
  refine ⟨FlowGraph.leads_exit_ofBody node (e.number n), fun s => ?_,
    fun hlambda hstrays scope s => ?_⟩
  · exact ⟨_, run_returnPoints (FlowInformation.returned_add data node (e.number n)) s,
      (FlowGraph.lists_returned_ofBody node n e).not_all_nil⟩
  · have hsome := afterOk_inferReturnType_isSome data node n e hlambda hstrays scope s
    unfold AfterOk AfterOr After at hsome
    generalize (inferReturnType (.data (data.add node (e.number n))) scope node
      (some (e.number n))).run.run s = outcome at hsome ⊢
    obtain ⟨fault | result, s'⟩ := outcome
    · exact hsome.elim
    · obtain ⟨type, rfl⟩ := Option.isSome_iff_exists.mp hsome
      exact ⟨type, s', rfl⟩

end ReturnPoints

end Analysis

end DeclAnalysis
