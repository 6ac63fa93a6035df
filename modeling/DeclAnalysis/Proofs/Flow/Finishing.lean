import DeclAnalysis.Proofs.Flow.ReturnPoints

/-!
# Every body can finish

Whatever is nested in whatever, some run of an expression comes to an end: it
ends normally, or it leaves what is around it. Outside of loop bodies there is
nothing to leave but the body of the subroutine, so some run of a body is done
with it. The exit of its graph can be reached therefore.

A run that ends passes a last step, which is one of those from which the value of
the subroutine may come. So there is always a return point.
-/

namespace DeclAnalysis

/-! ## Some run ends -/

/-- The ending of a run that has ended. Outside of loop bodies no loop can be left. -/
def Ending.IsFinal (inBody : Bool) : Ending → Prop
  | .normal | .returned => True
  | .broken | .continued => inBody = true
  | .unfinished => False

namespace Behaviour

variable {inBody : Bool} {a b c : Behaviour}

/-- Some run ends. -/
def Finishes (inBody : Bool) (b : Behaviour) : Prop := ∃ o, b.Ends o ∧ o.IsFinal inBody

theorem finishes_step
    (s : Step) {o : Ending}
    (ho : o.IsFinal inBody) :
    (step s o).Finishes inBody :=
  ⟨o, ends_step.mpr (Or.inr rfl), ho⟩

theorem finishes_skip : skip.Finishes inBody :=
  ⟨.normal, ends_skip.mpr (Or.inl rfl), trivial⟩

theorem Finishes.andThen
    (ha : a.Finishes inBody)
    (hb : b.Finishes inBody) :
    (a.andThen b).Finishes inBody := by
  obtain ⟨o, ho, hfinal⟩ := ha
  by_cases hnormal : o = .normal
  · subst hnormal
    obtain ⟨o', ho', hfinal'⟩ := hb
    exact ⟨o', ends_andThen.mpr (Or.inr ⟨ho, ho'⟩), hfinal'⟩
  · exact ⟨o, ends_andThen.mpr (Or.inl ⟨ho, hnormal⟩), hfinal⟩

theorem Finishes.either
    (ha : a.Finishes inBody) :
    (a.either b).Finishes inBody := by
  obtain ⟨o, ho, hfinal⟩ := ha
  exact ⟨o, ends_either.mpr (Or.inl ho), hfinal⟩

/-- The condition of a loop may come out false at once. -/
theorem Finishes.whileLoop
    (hc : c.Finishes inBody) :
    (whileLoop c b).Finishes inBody := by
  obtain ⟨o, ho, hfinal⟩ := hc
  by_cases hnormal : o = .normal
  · subst hnormal
    exact ⟨.normal, ends_whileLoop.mpr (Or.inl ⟨rfl, ho⟩), hfinal⟩
  · exact ⟨o, ends_whileLoop.mpr (Or.inr (Or.inl ⟨ho, hnormal⟩)), hfinal⟩

/-- If the body of a loop does not end the loop, the condition is evaluated after
the first round. -/
theorem Finishes.doWhileLoop
    (hb : b.Finishes true)
    (hc : c.Finishes inBody) :
    (doWhileLoop b c).Finishes inBody := by
  have hcondition : b.GoesOn → (Behaviour.doWhileLoop b c).Finishes inBody := by
    intro hgoesOn
    obtain ⟨o, ho, hfinal⟩ := hc
    by_cases hnormal : o = .normal
    · subst hnormal
      exact ⟨.normal, ends_doWhileLoop.mpr (Or.inl ⟨rfl, Or.inr ⟨hgoesOn, ho⟩⟩), hfinal⟩
    · exact ⟨o, ends_doWhileLoop.mpr (Or.inr (Or.inr ⟨hgoesOn, ho, hnormal⟩)), hfinal⟩
  obtain ⟨o, ho, hfinal⟩ := hb
  cases o with
  | normal => exact hcondition ⟨.normal, ho, trivial⟩
  | continued => exact hcondition ⟨.continued, ho, trivial⟩
  | broken => exact ⟨.normal, ends_doWhileLoop.mpr (Or.inl ⟨rfl, Or.inl ho⟩), trivial⟩
  | returned =>
      exact ⟨.returned, ends_doWhileLoop.mpr (Or.inr (Or.inl ⟨ho, trivial⟩)), trivial⟩
  | unfinished => exact hfinal.elim

end Behaviour

namespace Expr

open Behaviour

mutual

/-- Some run of an expression ends. -/
theorem finishes_behaviour (inBody : Bool) (e : Expr) :
    (e.behaviour inBody).Finishes inBody := by
  match e with
  | constant .. | name .. | lambda .. | block _ [] | ret _ none | localVariable _ _ _ _ none =>
      exact finishes_step _ trivial
  | breakLoop _ | continueLoop _ =>
      cases inBody with
      | true => exact finishes_step _ rfl
      | false => exact finishes_step _ trivial
  | dot _ value _ | ret _ (some value) | localVariable _ _ _ _ (some value) =>
      exact (finishes_behaviour inBody value).andThen (finishes_step _ trivial)
  | block _ (first :: rest) =>
      exact (finishes_behaviour inBody first).andThen (finishes_behaviourAll inBody rest)
  | cond _ condition thenBranch none =>
      exact (finishes_behaviour inBody condition).andThen
        (finishes_behaviour inBody thenBranch).either
  | cond _ condition thenBranch (some _) =>
      exact (finishes_behaviour inBody condition).andThen
        (finishes_behaviour inBody thenBranch).either
  | whileLoop _ condition _ =>
      exact (finishes_behaviour inBody condition).whileLoop.andThen (finishes_step _ trivial)
  | doWhileLoop _ body condition =>
      exact ((finishes_behaviour true body).doWhileLoop
        (finishes_behaviour inBody condition)).andThen (finishes_step _ trivial)
  | binary _ operator left right =>
      have hleft := finishes_behaviour inBody left
      simp only [behaviour]
      split
      · exact hleft.andThen (finishes_skip.either.andThen (finishes_step _ trivial))
      · exact hleft.andThen
          ((finishes_behaviour inBody right).andThen (finishes_step _ trivial))
  | assign _ target value =>
      exact (finishes_receiverBehaviour inBody target).andThen
        ((finishes_behaviour inBody value).andThen (finishes_step _ trivial))
  | call _ _ arguments =>
      exact (finishes_behaviourAll inBody arguments).andThen (finishes_step _ trivial)

theorem finishes_behaviourAll (inBody : Bool) (es : List Expr) :
    (behaviourAll inBody es).Finishes inBody := by
  match es with
  | [] => exact finishes_skip
  | e :: rest =>
      exact (finishes_behaviour inBody e).andThen (finishes_behaviourAll inBody rest)

theorem finishes_receiverBehaviour (inBody : Bool) (e : Expr) :
    (receiverBehaviour inBody e).Finishes inBody := by
  match e with
  | dot _ receiver _ => exact finishes_behaviour inBody receiver
  | constant .. | name .. | lambda .. | breakLoop _ | continueLoop _ | block .. | cond ..
  | whileLoop .. | doWhileLoop .. | ret .. | binary .. | assign .. | call ..
  | localVariable .. => exact finishes_skip

end

/-- Some run of a body ends normally or returns. -/
theorem ends_normal_or_ends_returned (body : Expr) :
    (body.behaviour false).Ends .normal ∨ (body.behaviour false).Ends .returned := by
  obtain ⟨o, ho, hfinal⟩ := finishes_behaviour false body
  cases o with
  | normal => exact Or.inl ho
  | returned => exact Or.inr ho
  | broken | continued => cases hfinal
  | unfinished => exact hfinal.elim

end Expr

namespace FlowGraph

/-- The exit of the graph of a body can be reached. -/
theorem leads_exit_ofBody (subroutine : Nat) (body : Expr) :
    (ofBody subroutine body).Leads (ofBody subroutine body).entry
      (ofBody subroutine body).exit := by
  obtain ⟨live, -, hleads⟩ := exists_live_ofBody subroutine body
  rw [exit_ofBody]
  exact (hleads _).mpr (Or.inr (Or.inr ⟨rfl, body.ends_normal_or_ends_returned⟩))

end FlowGraph

/-! ## Some last step is performed -/

/-- The value of a subroutine can come from a step of the kind, or end there. -/
def StepKind.isLast : StepKind → Bool
  | .read | .readUnit | .write | .returnUnit | .unsupported => true
  | .returnValue | .leave => false

namespace Behaviour

variable {a b c : Behaviour} {o : Ending} {xs ys : List Step}

/-- If some run ends so, then some run performs one of the steps, which may be a
last one. -/
def Passes (b : Behaviour) (o : Ending) (steps : List Step) : Prop :=
  b.Ends o → ∃ s ∈ steps, s.kind.isLast = true ∧ b.Performs s

theorem passes_step
    {s : Step}
    (hs : s.kind.isLast = true) :
    (step s o).Passes o [s] :=
  fun _ => ⟨s, List.mem_cons_self, hs, performs_step.mpr rfl⟩

theorem passes_step_of_ne
    (s : Step) {o' : Ending} {steps : List Step}
    (hne : o ≠ o')
    (hunfinished : o ≠ .unfinished) :
    (step s o').Passes o steps := by
  intro h
  rcases ends_step.mp h with h | h
  · exact absurd h hunfinished
  · exact absurd h hne

theorem Passes.mono
    (h : a.Passes o xs)
    (hsub : xs ⊆ ys) :
    a.Passes o ys := by
  intro hends
  obtain ⟨s, hs, hlast, hperforms⟩ := h hends
  exact ⟨s, hsub hs, hlast, hperforms⟩

/-- A behaviour that ends as one of two parts does, and performs what that part performs, passes the
last steps of the two. -/
theorem Passes.of_parts
    {oa ob : Ending}
    (ha : a.Passes oa xs)
    (hb : b.Passes ob ys)
    (hparts : c.Ends o → (a.Ends oa ∧ ∀ s, a.Performs s → c.Performs s) ∨
      b.Ends ob ∧ ∀ s, b.Performs s → c.Performs s) :
    c.Passes o (xs ++ ys) := by
  intro h
  rcases hparts h with ⟨hends, hperforms⟩ | ⟨hends, hperforms⟩
  · obtain ⟨s, hs, hlast, hstep⟩ := ha hends
    exact ⟨s, List.mem_append_left _ hs, hlast, hperforms s hstep⟩
  · obtain ⟨s, hs, hlast, hstep⟩ := hb hends
    exact ⟨s, List.mem_append_right _ hs, hlast, hperforms s hstep⟩

/-- The last steps of a sequence that ends normally are those of its second part. -/
theorem Passes.last
    (hb : b.Passes .normal ys) :
    (a.andThen b).Passes .normal ys := by
  intro h
  rcases ends_andThen.mp h with ⟨-, hne⟩ | ⟨ha, hends⟩
  · exact absurd rfl hne
  · obtain ⟨s, hs, hlast, hperforms⟩ := hb hends
    exact ⟨s, hs, hlast, performs_andThen.mpr (Or.inr ⟨ha, hperforms⟩)⟩

theorem Passes.andThen
    (ha : a.Passes .returned xs)
    (hb : b.Passes .returned ys) :
    (a.andThen b).Passes .returned (xs ++ ys) := by
  refine ha.of_parts hb fun h => ?_
  rcases ends_andThen.mp h with ⟨hends, -⟩ | ⟨hnormal, hends⟩
  · exact Or.inl ⟨hends, fun s hs => performs_andThen.mpr (Or.inl hs)⟩
  · exact Or.inr ⟨hends, fun s hs => performs_andThen.mpr (Or.inr ⟨hnormal, hs⟩)⟩

theorem Passes.either
    (ha : a.Passes o xs)
    (hb : b.Passes o ys) :
    (a.either b).Passes o (xs ++ ys) := by
  refine ha.of_parts hb fun h => ?_
  rcases ends_either.mp h with hends | hends
  · exact Or.inl ⟨hends, fun s hs => performs_either.mpr (Or.inl hs)⟩
  · exact Or.inr ⟨hends, fun s hs => performs_either.mpr (Or.inr hs)⟩

theorem Passes.whileLoop
    (hc : c.Passes .returned xs)
    (hb : b.Passes .returned ys) :
    (whileLoop c b).Passes .returned (xs ++ ys) := by
  refine hc.of_parts hb fun h => ?_
  rcases ends_whileLoop.mp h with ⟨heq, -⟩ | ⟨hends, -⟩ | ⟨hnormal, hends, -⟩
  · cases heq
  · exact Or.inl ⟨hends, fun s hs => performs_whileLoop.mpr (Or.inl hs)⟩
  · exact Or.inr ⟨hends, fun s hs => performs_whileLoop.mpr (Or.inr ⟨hnormal, hs⟩)⟩

theorem Passes.doWhileLoop
    (hb : b.Passes .returned xs)
    (hc : c.Passes .returned ys) :
    (doWhileLoop b c).Passes .returned (xs ++ ys) := by
  refine hb.of_parts hc fun h => ?_
  rcases ends_doWhileLoop.mp h with ⟨heq, -⟩ | ⟨hends, -⟩ | ⟨hgoesOn, hends, -⟩
  · cases heq
  · exact Or.inl ⟨hends, fun s hs => performs_doWhileLoop.mpr (Or.inl hs)⟩
  · exact Or.inr ⟨hends, fun s hs => performs_doWhileLoop.mpr (Or.inr ⟨hgoesOn, hs⟩)⟩

theorem passes_skip
    {steps : List Step} :
    skip.Passes .returned steps := by
  intro h
  rcases ends_skip.mp h with h | h
  · cases h
  · cases h

/-- One step after a part whose runs may return. -/
theorem Passes.concat
    (ha : a.Passes .returned xs)
    (s : Step) :
    (a.andThen (step s .normal)).Passes .returned xs := by
  have hstep : (step s .normal).Passes .returned [] := passes_step_of_ne s (by decide) (by decide)
  exact (ha.andThen hstep).mono (by simp)

/-- After the value of a `return` the body is done. -/
theorem Passes.returnValue
    (hfinals : a.Passes .returned xs)
    (htails : a.Passes .normal ys)
    (s : Step) :
    (a.andThen (step s .returned)).Passes .returned (xs ++ ys) := by
  refine hfinals.of_parts htails fun h => ?_
  rcases ends_andThen.mp h with ⟨hends, -⟩ | ⟨hends, -⟩
  · exact Or.inl ⟨hends, fun s hs => performs_andThen.mpr (Or.inl hs)⟩
  · exact Or.inr ⟨hends, fun s hs => performs_andThen.mpr (Or.inl hs)⟩

end Behaviour

namespace Expr

open Behaviour

mutual

/-- An expression that ends normally performs one of its last steps. -/
theorem passes_tails (inBody : Bool) (e : Expr) :
    (e.behaviour inBody).Passes .normal (e.tails inBody) := by
  match e with
  | constant .. | name .. | lambda .. | localVariable _ _ _ _ none => exact passes_step rfl
  | breakLoop _ | continueLoop _ =>
      cases inBody with
      | true => exact passes_step_of_ne _ (by decide) (by decide)
      | false => exact passes_step rfl
  | ret _ none => exact passes_step_of_ne _ (by decide) (by decide)
  | ret _ (some value) => exact (passes_step_of_ne _ (by decide) (by decide)).last
  | dot .. | call .. | whileLoop .. | doWhileLoop .. | localVariable _ _ _ _ (some _) =>
      exact (passes_step rfl).last
  | binary .. => exact (passes_step rfl).last.last
  | assign .. => exact (passes_step rfl).last.last
  | block id statements =>
      cases statements with
      | nil => exact passes_step rfl
      | cons first rest => exact passes_blockTails inBody id (first :: rest) (by simp)
  | cond _ _ thenBranch none =>
      exact ((passes_tails inBody thenBranch).either (passes_step rfl)).last
  | cond _ _ thenBranch (some elseBranch) =>
      exact ((passes_tails inBody thenBranch).either (passes_tails inBody elseBranch)).last

theorem passes_blockTails
    (inBody : Bool) (id : Nat) (es : List Expr)
    (hne : es ≠ []) :
    (behaviourAll inBody es).Passes .normal (blockTails inBody id es) := by
  match es with
  | [] => exact absurd rfl hne
  | [last] =>
      have hlast := passes_tails inBody last
      intro h
      rcases ends_andThen.mp h with ⟨-, hne⟩ | ⟨hends, -⟩
      · exact absurd rfl hne
      · obtain ⟨s, hs, hkind, hperforms⟩ := hlast hends
        exact ⟨s, hs, hkind, performs_andThen.mpr (Or.inl hperforms)⟩
  | _ :: second :: rest =>
      exact (passes_blockTails inBody id (second :: rest) (by simp)).last

end

mutual

/-- An expression that ends with a `return` performs one of the steps before it. -/
theorem passes_finals (inBody : Bool) (e : Expr) :
    (e.behaviour inBody).Passes .returned (e.finals inBody) := by
  match e with
  | constant .. | name .. | lambda .. | block _ [] | localVariable _ _ _ _ none =>
      exact passes_step_of_ne _ (by decide) (by decide)
  | breakLoop _ | continueLoop _ =>
      cases inBody with
      | true => exact passes_step_of_ne _ (by decide) (by decide)
      | false => exact passes_step_of_ne _ (by decide) (by decide)
  | ret _ none => exact passes_step rfl
  | ret _ (some value) =>
      exact (passes_finals inBody value).returnValue (passes_tails inBody value) _
  | dot _ value _ | localVariable _ _ _ _ (some value) =>
      exact (passes_finals inBody value).concat _
  | block _ (first :: rest) =>
      exact (passes_finals inBody first).andThen (passes_finalsAll inBody rest)
  | cond id condition thenBranch none =>
      have hunit : (step ⟨.readUnit, id⟩ .normal).Passes .returned [] :=
        passes_step_of_ne _ (by decide) (by decide)
      have hbranches := (passes_finals inBody thenBranch).either hunit
      rw [List.append_nil] at hbranches
      exact (passes_finals inBody condition).andThen hbranches
  | cond _ condition thenBranch (some elseBranch) =>
      have hbranches := (passes_finals inBody thenBranch).either (passes_finals inBody elseBranch)
      have hcond := (passes_finals inBody condition).andThen hbranches
      rwa [← List.append_assoc] at hcond
  | whileLoop _ condition body =>
      exact ((passes_finals inBody condition).whileLoop (passes_finals true body)).concat _
  | doWhileLoop _ body condition =>
      exact ((passes_finals true body).doWhileLoop (passes_finals inBody condition)).concat _
  | binary _ operator left right =>
      have hleft := passes_finals inBody left
      have hright := passes_finals inBody right
      simp only [behaviour]
      split
      · have hskip : skip.Passes .returned [] := passes_skip
        exact hleft.andThen ((hskip.either hright).concat _)
      · exact hleft.andThen (hright.concat _)
  | assign _ target value =>
      exact (passes_receiverFinals inBody target).andThen ((passes_finals inBody value).concat _)
  | call _ _ arguments => exact (passes_finalsAll inBody arguments).concat _

theorem passes_finalsAll (inBody : Bool) (es : List Expr) :
    (behaviourAll inBody es).Passes .returned (finalsAll inBody es) := by
  match es with
  | [] => exact passes_skip
  | e :: rest => exact (passes_finals inBody e).andThen (passes_finalsAll inBody rest)

theorem passes_receiverFinals (inBody : Bool) (e : Expr) :
    (receiverBehaviour inBody e).Passes .returned (receiverFinals inBody e) := by
  match e with
  | dot _ receiver _ => exact passes_finals inBody receiver
  | constant .. | name .. | lambda .. | breakLoop _ | continueLoop _ | block .. | cond ..
  | whileLoop .. | doWhileLoop .. | ret .. | binary .. | assign .. | call ..
  | localVariable .. => exact passes_skip

end

/-- Every body has a return point. -/
theorem exists_isReturnPoint (body : Expr) :
    ∃ s, s.kind.isLast = true ∧ body.IsReturnPoint s := by
  rcases body.ends_normal_or_ends_returned with h | h
  · obtain ⟨s, hs, hlast, hperforms⟩ := passes_tails false body h
    exact ⟨s, hlast, Or.inl hs, hperforms⟩
  · obtain ⟨s, hs, hlast, hperforms⟩ := passes_finals false body h
    exact ⟨s, hlast, Or.inr hs, hperforms⟩

end Expr

end DeclAnalysis
