import DeclAnalysis.Proofs.Flow.Execution
import DeclAnalysis.Proofs.Tree.Children

/-!
# What an expression evaluates

An expression evaluates some of the expressions inside it, and performs at most one step of its
own. The steps of an expression are those of what it evaluates, each with the expression that it
belongs to; and if all nodes differ, whatever happens inside a sub-expression happens because the
sub-expression is evaluated.
-/

namespace DeclAnalysis

namespace Expr

variable {inBody inner : Bool} {e x : Expr} {o : Bool × Expr} {s : Step}

/-- What is evaluated of the target of an assignment. -/
def receiver? : Expr → Option Expr
  | dot _ receiver _ => some receiver
  | _ => none

/-- The expressions that an expression evaluates itself, each with whether it is in the body of
a loop. Of the target of an assignment only the receiver is evaluated, and of a lambda
nothing. -/
def operands (inBody : Bool) : Expr → List (Bool × Expr)
  | constant .. | name .. | breakLoop .. | continueLoop .. | ret _ none
  | localVariable _ _ _ _ none | lambda .. => []
  | dot _ operand _ | ret _ (some operand) | localVariable _ _ _ _ (some operand) =>
    [(inBody, operand)]
  | block _ operands | call _ _ operands => operands.map (inBody, ·)
  | cond _ condition thenBranch elseBranch =>
    (condition :: thenBranch :: elseBranch.toList).map (inBody, ·)
  | whileLoop _ condition body => [(inBody, condition), (true, body)]
  | doWhileLoop _ body condition => [(true, body), (inBody, condition)]
  | binary _ _ left right => [(inBody, left), (inBody, right)]
  | assign _ target value => (target.receiver?.toList ++ [value]).map (inBody, ·)

/-- The step that an expression performs itself, after what it evaluates. -/
def ownStep? (inBody : Bool) : Expr → Option Step
  | constant id _ | name id _ | dot id _ _ | binary id _ _ _ | call id _ _ => some ⟨.read, id⟩
  | block id [] | cond id _ _ none | whileLoop id _ _ | doWhileLoop id _ _ =>
    some ⟨.readUnit, id⟩
  | block _ (_ :: _) | cond _ _ _ (some _) => none
  | breakLoop id | continueLoop id => some ⟨if inBody then .leave else .unsupported, id⟩
  | ret id none => some ⟨.returnUnit, id⟩
  | ret id (some _) => some ⟨.returnValue, id⟩
  | assign id _ _ | localVariable id _ _ _ _ => some ⟨.write, id⟩
  | lambda id _ _ => some ⟨.unsupported, id⟩

theorem element_of_ownStep? (h : e.ownStep? inBody = some s) :
    s.element = e.id := by
  match e with
  | block _ (_ :: _) | cond _ _ _ (some _) => cases h
  | constant .. | name .. | dot .. | block _ [] | cond _ _ _ none | whileLoop ..
  | doWhileLoop .. | breakLoop _ | continueLoop _ | ret _ none | ret _ (some _) | binary ..
  | assign .. | call .. | localVariable .. | lambda .. =>
      obtain rfl := Option.some.inj h
      rfl

/-! ## Steps -/

theorem stepsAll_eq_flatMap (inBody : Bool) (es : List Expr) :
    stepsAll inBody es = es.flatMap (steps inBody) := by
  induction es with
  | nil => rfl
  | cons e rest ih => rw [stepsAll, ih, List.flatMap_cons]

theorem receiverSteps_eq_flatMap (inBody : Bool) (e : Expr) :
    receiverSteps inBody e = e.receiver?.toList.flatMap (steps inBody) := by
  cases e <;> simp [receiverSteps, receiver?]

/-- The steps of an expression are those of what it evaluates, and then its own. -/
theorem steps_eq_operands (inBody : Bool) (e : Expr) :
    e.steps inBody =
      (e.operands inBody).flatMap (fun o => o.2.steps o.1) ++ (e.ownStep? inBody).toList := by
  match e with
  | block _ [] => rfl
  | block _ (_ :: _) | call .. | assign .. =>
      simp [steps, operands, ownStep?, stepsAll_eq_flatMap, receiverSteps_eq_flatMap,
        List.flatMap_map]
  | constant .. | name .. | dot .. | cond _ _ _ none | cond _ _ _ (some _) | whileLoop ..
  | doWhileLoop .. | breakLoop _ | continueLoop _ | ret _ none | ret _ (some _) | binary ..
  | localVariable _ _ _ _ none | localVariable _ _ _ _ (some _) | lambda .. =>
      simp [steps, operands, ownStep?]

theorem mem_steps_cases :
    s ∈ e.steps inBody ↔
      (∃ o ∈ e.operands inBody, s ∈ o.2.steps o.1) ∨ e.ownStep? inBody = some s := by
  rw [steps_eq_operands, List.mem_append, List.mem_flatMap, Option.mem_toList]

theorem exists_performs_of_performs_behaviourAll
    {es : List Expr}
    (h : (behaviourAll inBody es).Performs s) :
    ∃ e ∈ es, (e.behaviour inBody).Performs s := by
  induction es with
  | nil => exact absurd h Behaviour.not_performs_skip
  | cons e rest ih =>
      rcases Behaviour.performs_andThen.mp h with h | ⟨-, h⟩
      · exact ⟨e, List.mem_cons_self, h⟩
      · obtain ⟨e', he', h⟩ := ih h
        exact ⟨e', List.mem_cons_of_mem _ he', h⟩

/-- A run of an expression performs steps of what the expression evaluates, and its own. -/
theorem performs_cases (h : (e.behaviour inBody).Performs s) :
    (∃ o ∈ e.operands inBody, (o.2.behaviour o.1).Performs s) ∨
      e.ownStep? inBody = some s := by
  have hown : ∀ {own : Step} {ending : Ending}, (Behaviour.step own ending).Performs s →
      some own = some s := fun h => congrArg some (Behaviour.performs_step.mp h).symm
  match e with
  | constant .. | name .. | lambda .. | ret _ none | localVariable _ _ _ _ none | block _ [] =>
      exact Or.inr (hown h)
  | breakLoop _ | continueLoop _ =>
      cases inBody <;> exact Or.inr (hown h)
  | dot .. | ret _ (some _) | localVariable _ _ _ _ (some _) =>
      rcases Behaviour.performs_andThen.mp h with h | ⟨-, h⟩
      · exact Or.inl ⟨_, List.mem_cons_self, h⟩
      · exact Or.inr (hown h)
  | block _ (first :: rest) =>
      have hall : (behaviourAll inBody (first :: rest)).Performs s := h
      obtain ⟨e, he, h⟩ := exists_performs_of_performs_behaviourAll hall
      exact Or.inl ⟨_, List.mem_map_of_mem he, h⟩
  | call _ _ arguments =>
      rcases Behaviour.performs_andThen.mp h with h | ⟨-, h⟩
      · obtain ⟨e, he, h⟩ := exists_performs_of_performs_behaviourAll h
        exact Or.inl ⟨_, List.mem_map_of_mem he, h⟩
      · exact Or.inr (hown h)
  | cond _ _ _ none =>
      rcases Behaviour.performs_andThen.mp h with h | ⟨-, h⟩
      · exact Or.inl ⟨_, List.mem_cons_self, h⟩
      · rcases Behaviour.performs_either.mp h with h | h
        · exact Or.inl ⟨_, List.mem_cons_of_mem _ List.mem_cons_self, h⟩
        · exact Or.inr (hown h)
  | cond _ _ _ (some _) =>
      rcases Behaviour.performs_andThen.mp h with h | ⟨-, h⟩
      · exact Or.inl ⟨_, List.mem_cons_self, h⟩
      · rcases Behaviour.performs_either.mp h with h | h
        · exact Or.inl ⟨_, List.mem_cons_of_mem _ List.mem_cons_self, h⟩
        · exact Or.inl ⟨_, List.mem_cons_of_mem _ (List.mem_cons_of_mem _ List.mem_cons_self), h⟩
  | whileLoop .. =>
      rcases Behaviour.performs_andThen.mp h with h | ⟨-, h⟩
      · rcases Behaviour.performs_whileLoop.mp h with h | ⟨-, h⟩
        · exact Or.inl ⟨_, List.mem_cons_self, h⟩
        · exact Or.inl ⟨_, List.mem_cons_of_mem _ List.mem_cons_self, h⟩
      · exact Or.inr (hown h)
  | doWhileLoop .. =>
      rcases Behaviour.performs_andThen.mp h with h | ⟨-, h⟩
      · rcases Behaviour.performs_doWhileLoop.mp h with h | ⟨-, h⟩
        · exact Or.inl ⟨_, List.mem_cons_self, h⟩
        · exact Or.inl ⟨_, List.mem_cons_of_mem _ List.mem_cons_self, h⟩
      · exact Or.inr (hown h)
  | binary _ operator _ right =>
      rcases Behaviour.performs_andThen.mp h with h | ⟨-, h⟩
      · exact Or.inl ⟨_, List.mem_cons_self, h⟩
      rcases Behaviour.performs_andThen.mp h with h | ⟨-, h⟩
      · have hright : (right.behaviour inBody).Performs s := by
          split at h
          · exact (Behaviour.performs_either.mp h).resolve_left Behaviour.not_performs_skip
          · exact h
        exact Or.inl ⟨_, List.mem_cons_of_mem _ List.mem_cons_self, hright⟩
      · exact Or.inr (hown h)
  | assign id target value =>
      rcases Behaviour.performs_andThen.mp h with h | ⟨-, h⟩
      · cases target with
        | dot _ receiver _ => exact Or.inl ⟨_, List.mem_cons_self, h⟩
        | _ => exact absurd h Behaviour.not_performs_skip
      rcases Behaviour.performs_andThen.mp h with h | ⟨-, h⟩
      · have hvalue : (inBody, value) ∈ (assign id target value).operands inBody :=
          List.mem_map_of_mem (List.mem_append_right _ List.mem_cons_self)
        exact Or.inl ⟨_, hvalue, h⟩
      · exact Or.inr (hown h)

/-! ## Sub-expressions -/

/-- What is evaluated is a child, or the receiver of a child. -/
theorem mem_children_of_mem_operands (ho : o ∈ e.operands inBody) :
    o.2 ∈ e.children ∨ ∃ target ∈ e.children, target.receiver? = some o.2 := by
  match e with
  | constant .. | name .. | breakLoop _ | continueLoop _ | ret _ none
  | localVariable _ _ _ _ none | lambda .. => cases ho
  | dot .. | ret _ (some _) | localVariable _ _ _ _ (some _) | whileLoop .. | doWhileLoop ..
  | binary .. =>
      left
      simp only [operands, List.mem_cons, List.not_mem_nil, or_false] at ho
      simp only [children]
      grind
  | block .. | call .. | cond .. =>
      obtain ⟨e', he', rfl⟩ := List.mem_map.mp ho
      exact Or.inl he'
  | assign _ target value =>
      obtain ⟨e', he', rfl⟩ := List.mem_map.mp ho
      rcases List.mem_append.mp he' with he' | he'
      · exact Or.inr ⟨target, List.mem_cons_self, Option.mem_toList.mp he'⟩
      · exact Or.inl (List.mem_cons_of_mem _ he')

theorem mem_children_of_receiver? {r : Expr} (h : e.receiver? = some r) :
    r ∈ e.children := by
  cases e with
  | dot _ receiver _ =>
      obtain rfl := Option.some.inj h
      exact List.mem_cons_self
  | _ => cases h

theorem nodeCount_lt_of_mem_operands (ho : o ∈ e.operands inBody) :
    o.2.nodeCount < e.nodeCount := by
  rcases mem_children_of_mem_operands ho with hchild | ⟨target, htarget, hreceiver⟩
  · exact nodeCount_lt_of_mem_children hchild
  · have hlt := nodeCount_lt_of_mem_children (mem_children_of_receiver? hreceiver)
    have hlt' := nodeCount_lt_of_mem_children htarget
    omega

/-- What holds of every expression of which it holds of all that the expression evaluates holds
of all expressions. -/
theorem induction_operands
    {p : Bool → Expr → Prop}
    (h : ∀ inBody e, (∀ o ∈ e.operands inBody, p o.1 o.2) → p inBody e)
    (inBody : Bool) (e : Expr) :
    p inBody e :=
  h inBody e fun o _ho => induction_operands h o.1 o.2
termination_by e.nodeCount
decreasing_by exact nodeCount_lt_of_mem_operands _ho

theorem mem_subexpressions_of_mem_operands (ho : o ∈ e.operands inBody) :
    o.2 ∈ e.subexpressions := by
  rcases mem_children_of_mem_operands ho with hchild | ⟨target, htarget, hreceiver⟩
  · exact mem_subexpressions_iff.mpr (Or.inr ⟨_, hchild, o.2.self_mem_subexpressions⟩)
  · have hinner := mem_children_of_receiver? hreceiver
    refine mem_subexpressions_iff.mpr (Or.inr ⟨target, htarget, ?_⟩)
    exact mem_subexpressions_iff.mpr (Or.inr ⟨_, hinner, o.2.self_mem_subexpressions⟩)

/-! ## Evaluation inside of evaluations -/

/-- To evaluate an expression is to evaluate a sub-expression in the course of it. -/
inductive Evaluates : Expr → Bool → Expr → Bool → Prop
  | self (e : Expr) (inBody : Bool) : Evaluates e inBody e inBody
  | operand {e x : Expr} {inBody inner : Bool} {o : Bool × Expr}
      (ho : o ∈ e.operands inBody) (h : Evaluates o.2 o.1 x inner) : Evaluates e inBody x inner

theorem Evaluates.mem_subexpressions (h : e.Evaluates inBody x inner) :
    x ∈ e.subexpressions := by
  induction h with
  | self e => exact e.self_mem_subexpressions
  | operand ho _ ih => exact mem_subexpressions_trans ih (mem_subexpressions_of_mem_operands ho)

theorem Evaluates.trans
    {y : Expr} {innermost : Bool} (h : e.Evaluates inBody x inner)
    (h' : x.Evaluates inner y innermost) :
    e.Evaluates inBody y innermost := by
  induction h with
  | self => exact h'
  | operand ho _ ih => exact .operand ho (ih h')

theorem Evaluates.steps_subset (h : e.Evaluates inBody x inner) :
    x.steps inner ⊆ e.steps inBody := by
  induction h with
  | self => exact List.Subset.refl _
  | operand ho _ ih =>
      intro s hs
      exact mem_steps_cases.mpr (Or.inl ⟨_, ho, ih hs⟩)

/-- The steps of an expression are those that the expressions evaluated perform themselves. -/
theorem mem_steps_iff :
    s ∈ e.steps inBody ↔
      ∃ x inner, e.Evaluates inBody x inner ∧ x.ownStep? inner = some s := by
  constructor
  · induction inBody, e using induction_operands with
    | h inBody e ih =>
        intro hs
        rcases mem_steps_cases.mp hs with ⟨o, ho, hs⟩ | hown
        · obtain ⟨x, inner, hx, hown⟩ := ih o ho hs
          exact ⟨x, inner, .operand ho hx, hown⟩
        · exact ⟨e, inBody, .self e inBody, hown⟩
  · rintro ⟨x, inner, hx, hown⟩
    exact hx.steps_subset (mem_steps_cases.mpr (Or.inr hown))

/-- What some run performs is a step. -/
theorem mem_steps_of_performs (h : (e.behaviour inBody).Performs s) :
    s ∈ e.steps inBody := by
  induction inBody, e using induction_operands with
  | h inBody e ih =>
      rcases performs_cases h with ⟨o, ho, h⟩ | hown
      · exact mem_steps_cases.mpr (Or.inl ⟨o, ho, ih o ho h⟩)
      · exact mem_steps_cases.mpr (Or.inr hown)

/-- The element of a step is a sub-expression. -/
theorem exists_subexpression_of_mem_steps (hs : s ∈ e.steps inBody) :
    ∃ sub ∈ e.subexpressions, sub.id = s.element := by
  obtain ⟨x, inner, hx, hown⟩ := mem_steps_iff.mp hs
  exact ⟨x, hx.mem_subexpressions, (element_of_ownStep? hown).symm⟩

theorem element_mem_nodes_of_mem_steps (hs : s ∈ e.steps inBody) :
    s.element ∈ e.nodes := by
  obtain ⟨sub, hsub, hid⟩ := exists_subexpression_of_mem_steps hs
  rw [← hid]
  exact nodes_subset_of_mem_subexpressions hsub sub.id_mem_nodes

/-! ## Evaluation where all nodes differ -/

section Nodup

variable (hnodes : e.nodes.Nodup)

include hnodes

/-- What has a node in common with something that is evaluated lies in it, unless it is the
target of an assignment. -/
theorem mem_subexpressions_operand
    (ho : o ∈ e.operands inBody) {node : Nat} (hnode : node ∈ o.2.nodes)
    (hx : x ∈ e.subexpressions) (hnodex : node ∈ x.nodes) (hne : x ≠ e)
    (hplain : x.receiver? = none) :
    x ∈ o.2.subexpressions := by
  rcases mem_children_of_mem_operands ho with hchild | ⟨target, htarget, hreceiver⟩
  · exact mem_subexpressions_child hnodes hchild hnode hx hnodex hne
  · have hinner := mem_children_of_receiver? hreceiver
    have hmem : node ∈ target.nodes :=
      List.mem_of_mem_tail (nodes_child_subset hinner hnode)
    have hxtarget := mem_subexpressions_child hnodes htarget hmem hx hnodex hne
    refine mem_subexpressions_child (nodup_nodes_child hnodes htarget) hinner hnode hxtarget
      hnodex ?_
    rintro rfl
    rw [hplain] at hreceiver
    cases hreceiver

/-- The own step of an expression does not lie in anything inside. -/
theorem eq_of_ownStep?_of_mem_nodes
    (hown : e.ownStep? inBody = some s) (hx : x ∈ e.subexpressions)
    (hmem : s.element ∈ x.nodes) :
    x = e := by
  rcases mem_subexpressions_iff.mp hx with rfl | ⟨c, hc, hxc⟩
  · rfl
  · rw [element_of_ownStep? hown] at hmem
    exact absurd (nodes_subset_of_mem_subexpressions hxc hmem) (id_not_mem_nodes_child hnodes hc)

/-- If there is a step inside of a sub-expression, the sub-expression is evaluated. -/
theorem exists_evaluates_of_mem_steps
    (hs : s ∈ e.steps inBody) (hx : x ∈ e.subexpressions) (hmem : s.element ∈ x.nodes)
    (hplain : x.receiver? = none) :
    ∃ inner, e.Evaluates inBody x inner := by
  induction inBody, e using induction_operands with
  | h inBody e ih =>
      by_cases hne : x = e
      · rw [hne]
        exact ⟨inBody, .self e inBody⟩
      rcases mem_steps_cases.mp hs with ⟨o, ho, hs⟩ | hown
      · have hx' := mem_subexpressions_operand hnodes ho (element_mem_nodes_of_mem_steps hs) hx
          hmem hne hplain
        have hnodes' := nodup_nodes_of_mem_subexpressions hnodes
          (mem_subexpressions_of_mem_operands ho)
        obtain ⟨inner, hinner⟩ := ih o ho hnodes' hs hx'
        exact ⟨inner, .operand ho hinner⟩
      · exact absurd (eq_of_ownStep?_of_mem_nodes hnodes hown hx hmem) hne

/-- What is performed inside of a sub-expression is performed by the sub-expression. -/
theorem exists_performs_of_performs
    (h : (e.behaviour inBody).Performs s) (hx : x ∈ e.subexpressions)
    (hmem : s.element ∈ x.nodes) (hplain : x.receiver? = none) :
    ∃ inner, (x.behaviour inner).Performs s := by
  induction inBody, e using induction_operands with
  | h inBody e ih =>
      by_cases hne : x = e
      · rw [hne]
        exact ⟨inBody, h⟩
      rcases performs_cases h with ⟨o, ho, h⟩ | hown
      · have hx' := mem_subexpressions_operand hnodes ho
          (element_mem_nodes_of_mem_steps (mem_steps_of_performs h)) hx hmem hne hplain
        exact ih o ho (nodup_nodes_of_mem_subexpressions hnodes
          (mem_subexpressions_of_mem_operands ho)) h hx'
      · exact absurd (eq_of_ownStep?_of_mem_nodes hnodes hown hx hmem) hne

end Nodup

end Expr

end DeclAnalysis
