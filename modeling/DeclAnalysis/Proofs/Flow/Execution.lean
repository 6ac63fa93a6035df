import DeclAnalysis.Flow.Lowering
import DeclAnalysis.Tree.Expr

/-!
# Structural execution

How a body runs, read off its syntax alone. Sub-expressions run from left to
right, every condition may come out either way, a lambda is one step, and of the
target of an assignment only the receiver of a member access is evaluated. A
`return` ends the body; a `break` or a `continue` concerns the innermost loop
whose body it is in, and outside every loop body it is one step like any other.
The condition of a loop does not belong to its body.

A run is given by the steps that it performs and by how it ends. It may also be
looked at before it has ended, which covers the runs that never do. The
behaviours of the parts are put together by a few operations, and each operation
comes with the answers to two questions: how its runs can end, and which steps
they can perform.
-/

namespace DeclAnalysis

/-- What is done with an element in a step. -/
inductive StepKind where
  | read
  | readUnit
  | write
  | returnValue
  | returnUnit
  /-- A `break` or a `continue`. -/
  | leave
  | unsupported
deriving DecidableEq, Repr

namespace StepKind

/-- After a step of the kind a run goes on with what comes next. -/
def isPlain : StepKind → Bool
  | read | readUnit | write | unsupported => true
  | returnValue | returnUnit | leave => false

end StepKind

/-- A step of a run: one element is performed. -/
structure Step where
  kind : StepKind
  element : Nat
deriving DecidableEq, Repr

/-- How a run ends. -/
inductive Ending where
  | normal
  /-- The loop around is to be left. -/
  | broken
  /-- The loop around is to go on with its condition. -/
  | continued
  /-- The body is done. -/
  | returned
  /-- The run has not ended yet. -/
  | unfinished
deriving DecidableEq, Repr

namespace Ending

/-- After a body that ends so, its loop goes on. -/
def goesOn : Ending → Prop
  | normal | continued => True
  | _ => False

/-- A body that ends so ends its loop likewise. -/
def endsLoop : Ending → Prop
  | returned | unfinished => True
  | _ => False

end Ending

/-- A set of runs, each given by its steps and its outcome. -/
structure Behaviour where
  Runs : List Step → Ending → Prop
  /-- Every run can be looked at before its first step. -/
  unfinished : Runs [] .unfinished

namespace Behaviour

variable {a b c : Behaviour} {s s' : Step} {o o' : Ending}

/-- Some run ends with the outcome. -/
def Ends (b : Behaviour) (o : Ending) : Prop := ∃ steps, b.Runs steps o

/-- Some run performs the step. -/
def Performs (b : Behaviour) (s : Step) : Prop := ∃ steps o, b.Runs steps o ∧ s ∈ steps

/-! ### Single steps and sequences -/

/-- Performs one step and ends with the outcome. -/
def step (s : Step) (o : Ending) : Behaviour where
  Runs steps outcome := (steps = [] ∧ outcome = .unfinished) ∨ (steps = [s] ∧ outcome = o)
  unfinished := Or.inl ⟨rfl, rfl⟩

/-- Does nothing. -/
def skip : Behaviour where
  Runs steps outcome := steps = [] ∧ (outcome = .normal ∨ outcome = .unfinished)
  unfinished := ⟨rfl, Or.inr rfl⟩

/-- Does one thing and then, if it ends normally, another. -/
def andThen (a b : Behaviour) : Behaviour where
  Runs steps outcome :=
    (a.Runs steps outcome ∧ outcome ≠ .normal) ∨
      ∃ xs ys, a.Runs xs .normal ∧ b.Runs ys outcome ∧ steps = xs ++ ys
  unfinished := Or.inl ⟨a.unfinished, by simp⟩

/-- Does one of two things. -/
def either (a b : Behaviour) : Behaviour where
  Runs steps outcome := a.Runs steps outcome ∨ b.Runs steps outcome
  unfinished := Or.inl a.unfinished

@[simp] theorem ends_step : (step s o).Ends o' ↔ o' = .unfinished ∨ o' = o := by
  simp [Ends, step, exists_or]

@[simp] theorem performs_step : (step s o).Performs s' ↔ s' = s := by
  constructor
  · rintro ⟨steps, o', ⟨rfl, -⟩ | ⟨rfl, -⟩, hs⟩
    · simp at hs
    · simpa using hs
  · rintro rfl
    exact ⟨[s'], o, Or.inr ⟨rfl, rfl⟩, by simp⟩

@[simp] theorem ends_skip : skip.Ends o ↔ o = .normal ∨ o = .unfinished := by
  simp [Ends, skip]

@[simp] theorem not_performs_skip : ¬skip.Performs s := by
  simp [Performs, skip]

@[simp] theorem ends_andThen :
    (a.andThen b).Ends o ↔ (a.Ends o ∧ o ≠ .normal) ∨ (a.Ends .normal ∧ b.Ends o) := by
  constructor
  · rintro ⟨steps, ⟨ha, ho⟩ | ⟨xs, ys, ha, hb, -⟩⟩
    · exact Or.inl ⟨⟨steps, ha⟩, ho⟩
    · exact Or.inr ⟨⟨xs, ha⟩, ys, hb⟩
  · rintro (⟨⟨steps, ha⟩, ho⟩ | ⟨⟨xs, ha⟩, ys, hb⟩)
    · exact ⟨steps, Or.inl ⟨ha, ho⟩⟩
    · exact ⟨xs ++ ys, Or.inr ⟨xs, ys, ha, hb, rfl⟩⟩

@[simp] theorem performs_andThen :
    (a.andThen b).Performs s ↔ a.Performs s ∨ (a.Ends .normal ∧ b.Performs s) := by
  constructor
  · rintro ⟨steps, o, ⟨ha, -⟩ | ⟨xs, ys, ha, hb, rfl⟩, hs⟩
    · exact Or.inl ⟨steps, o, ha, hs⟩
    · rcases List.mem_append.mp hs with hs | hs
      · exact Or.inl ⟨xs, .normal, ha, hs⟩
      · exact Or.inr ⟨⟨xs, ha⟩, ys, o, hb, hs⟩
  · rintro (⟨xs, o, ha, hs⟩ | ⟨⟨xs, ha⟩, ys, o, hb, hs⟩)
    · by_cases ho : o = .normal
      · subst ho
        exact ⟨xs ++ [], .unfinished, Or.inr ⟨xs, [], ha, b.unfinished, rfl⟩, by simpa⟩
      · exact ⟨xs, o, Or.inl ⟨ha, ho⟩, hs⟩
    · exact ⟨xs ++ ys, o, Or.inr ⟨xs, ys, ha, hb, rfl⟩, List.mem_append_right _ hs⟩

@[simp] theorem ends_either : (a.either b).Ends o ↔ a.Ends o ∨ b.Ends o := by
  simp [Ends, either, exists_or]

@[simp] theorem performs_either :
    (a.either b).Performs s ↔ a.Performs s ∨ b.Performs s := by
  simp [Performs, either, or_and_right, exists_or]

/-! ### Loops -/

/-- The runs of a loop that evaluates its condition before every round. -/
inductive WhileRuns (condition body : Behaviour) : List Step → Ending → Prop where
  /-- The condition comes out false. -/
  | exit {xs : List Step} (hc : condition.Runs xs .normal) :
      WhileRuns condition body xs .normal
  /-- The condition does not end normally. -/
  | condition {xs : List Step} {o : Ending} (hc : condition.Runs xs o) (ho : o ≠ .normal) :
      WhileRuns condition body xs o
  /-- The body leaves the loop. -/
  | broken {xs ys : List Step} (hc : condition.Runs xs .normal) (hb : body.Runs ys .broken) :
      WhileRuns condition body (xs ++ ys) .normal
  /-- The body leaves more than the loop. -/
  | body {xs ys : List Step} {o : Ending} (hc : condition.Runs xs .normal)
      (hb : body.Runs ys o) (ho : o.endsLoop) : WhileRuns condition body (xs ++ ys) o
  /-- The loop goes on after a round. -/
  | again {xs ys zs : List Step} {o o' : Ending} (hc : condition.Runs xs .normal)
      (hb : body.Runs ys o) (ho : o.goesOn) (rest : WhileRuns condition body zs o') :
      WhileRuns condition body (xs ++ (ys ++ zs)) o'

/-- Runs a body as long as a condition comes out true. -/
def whileLoop (condition body : Behaviour) : Behaviour where
  Runs := WhileRuns condition body
  unfinished := .condition condition.unfinished (by simp)

theorem ends_whileLoop :
    (whileLoop c b).Ends o ↔
      (o = .normal ∧ c.Ends .normal) ∨ (c.Ends o ∧ o ≠ .normal) ∨
        (c.Ends .normal ∧ b.Ends o ∧ o.endsLoop) := by
  constructor
  · rintro ⟨steps, h⟩
    induction h with
    | exit hc => exact Or.inl ⟨rfl, _, hc⟩
    | condition hc ho => exact Or.inr (Or.inl ⟨⟨_, hc⟩, ho⟩)
    | broken hc hb => exact Or.inl ⟨rfl, _, hc⟩
    | body hc hb ho => exact Or.inr (Or.inr ⟨⟨_, hc⟩, ⟨_, hb⟩, ho⟩)
    | again hc hb ho rest ih => exact ih
  · rintro (⟨rfl, xs, hc⟩ | ⟨⟨xs, hc⟩, ho⟩ | ⟨⟨xs, hc⟩, ⟨ys, hb⟩, ho⟩)
    · exact ⟨xs, .exit hc⟩
    · exact ⟨xs, .condition hc ho⟩
    · exact ⟨xs ++ ys, .body hc hb ho⟩

theorem performs_whileLoop :
    (whileLoop c b).Performs s ↔ c.Performs s ∨ (c.Ends .normal ∧ b.Performs s) := by
  constructor
  · rintro ⟨steps, o, h, hs⟩
    induction h with
    | exit hc => exact Or.inl ⟨_, _, hc, hs⟩
    | condition hc ho => exact Or.inl ⟨_, _, hc, hs⟩
    | broken hc hb | body hc hb ho =>
        rcases List.mem_append.mp hs with hs | hs
        · exact Or.inl ⟨_, _, hc, hs⟩
        · exact Or.inr ⟨⟨_, hc⟩, _, _, hb, hs⟩
    | again hc hb ho rest ih =>
        rcases List.mem_append.mp hs with hs | hs
        · exact Or.inl ⟨_, _, hc, hs⟩
        · rcases List.mem_append.mp hs with hs | hs
          · exact Or.inr ⟨⟨_, hc⟩, _, _, hb, hs⟩
          · exact ih hs
  · rintro (⟨xs, o, hc, hs⟩ | ⟨⟨xs, hc⟩, ys, o, hb, hs⟩)
    · by_cases ho : o = .normal
      · subst ho
        exact ⟨xs, .normal, .exit hc, hs⟩
      · exact ⟨xs, o, .condition hc ho, hs⟩
    · cases o with
      | normal | continued =>
          exact ⟨xs ++ (ys ++ xs), .normal, .again hc hb trivial (.exit hc), by simp [hs]⟩
      | broken => exact ⟨xs ++ ys, .normal, .broken hc hb, by simp [hs]⟩
      | returned | unfinished => exact ⟨xs ++ ys, _, .body hc hb trivial, by simp [hs]⟩

/-- The runs of a loop that evaluates its condition after every round. -/
inductive DoWhileRuns (body condition : Behaviour) : List Step → Ending → Prop where
  /-- The body leaves the loop. -/
  | broken {xs : List Step} (hb : body.Runs xs .broken) : DoWhileRuns body condition xs .normal
  /-- The body leaves more than the loop. -/
  | body {xs : List Step} {o : Ending} (hb : body.Runs xs o) (ho : o.endsLoop) :
      DoWhileRuns body condition xs o
  /-- The condition comes out false. -/
  | exit {xs ys : List Step} {o : Ending} (hb : body.Runs xs o) (ho : o.goesOn)
      (hc : condition.Runs ys .normal) : DoWhileRuns body condition (xs ++ ys) .normal
  /-- The condition does not end normally. -/
  | condition {xs ys : List Step} {o o' : Ending} (hb : body.Runs xs o) (ho : o.goesOn)
      (hc : condition.Runs ys o') (ho' : o' ≠ .normal) :
      DoWhileRuns body condition (xs ++ ys) o'
  /-- The loop goes on after a round. -/
  | again {xs ys zs : List Step} {o o' : Ending} (hb : body.Runs xs o) (ho : o.goesOn)
      (hc : condition.Runs ys .normal) (rest : DoWhileRuns body condition zs o') :
      DoWhileRuns body condition (xs ++ (ys ++ zs)) o'

/-- Runs a body until a condition comes out false. -/
def doWhileLoop (body condition : Behaviour) : Behaviour where
  Runs := DoWhileRuns body condition
  unfinished := .body body.unfinished trivial

/-- Some run of a body ends so that its loop goes on. -/
def GoesOn (b : Behaviour) : Prop := ∃ o, b.Ends o ∧ o.goesOn

theorem ends_doWhileLoop :
    (doWhileLoop b c).Ends o ↔
      (o = .normal ∧ (b.Ends .broken ∨ (b.GoesOn ∧ c.Ends .normal))) ∨
        (b.Ends o ∧ o.endsLoop) ∨ (b.GoesOn ∧ c.Ends o ∧ o ≠ .normal) := by
  constructor
  · rintro ⟨steps, h⟩
    induction h with
    | broken hb => exact Or.inl ⟨rfl, Or.inl ⟨_, hb⟩⟩
    | body hb ho => exact Or.inr (Or.inl ⟨⟨_, hb⟩, ho⟩)
    | exit hb ho hc => exact Or.inl ⟨rfl, Or.inr ⟨⟨_, ⟨_, hb⟩, ho⟩, _, hc⟩⟩
    | condition hb ho hc ho' => exact Or.inr (Or.inr ⟨⟨_, ⟨_, hb⟩, ho⟩, ⟨_, hc⟩, ho'⟩)
    | again hb ho hc rest ih => exact ih
  · rintro (⟨rfl, ⟨xs, hb⟩ | ⟨⟨_, ⟨xs, hb⟩, ho⟩, ys, hc⟩⟩ | ⟨⟨xs, hb⟩, ho⟩ |
      ⟨⟨_, ⟨xs, hb⟩, ho⟩, ⟨ys, hc⟩, ho'⟩)
    · exact ⟨xs, .broken hb⟩
    · exact ⟨xs ++ ys, .exit hb ho hc⟩
    · exact ⟨xs, .body hb ho⟩
    · exact ⟨xs ++ ys, .condition hb ho hc ho'⟩

theorem performs_doWhileLoop :
    (doWhileLoop b c).Performs s ↔ b.Performs s ∨ (b.GoesOn ∧ c.Performs s) := by
  constructor
  · rintro ⟨steps, o, h, hs⟩
    induction h with
    | broken hb => exact Or.inl ⟨_, _, hb, hs⟩
    | body hb ho => exact Or.inl ⟨_, _, hb, hs⟩
    | exit hb ho hc | condition hb ho hc ho' =>
        rcases List.mem_append.mp hs with hs | hs
        · exact Or.inl ⟨_, _, hb, hs⟩
        · exact Or.inr ⟨⟨_, ⟨_, hb⟩, ho⟩, _, _, hc, hs⟩
    | again hb ho hc rest ih =>
        rcases List.mem_append.mp hs with hs | hs
        · exact Or.inl ⟨_, _, hb, hs⟩
        · rcases List.mem_append.mp hs with hs | hs
          · exact Or.inr ⟨⟨_, ⟨_, hb⟩, ho⟩, _, _, hc, hs⟩
          · exact ih hs
  · rintro (⟨xs, o, hb, hs⟩ | ⟨⟨_, ⟨xs, hb⟩, ho⟩, ys, o, hc, hs⟩)
    · cases o with
      | normal | continued =>
          exact ⟨xs ++ [], .unfinished, .condition hb trivial c.unfinished (by simp), by simpa⟩
      | broken => exact ⟨xs, .normal, .broken hb, hs⟩
      | returned | unfinished => exact ⟨xs, _, .body hb trivial, hs⟩
    · by_cases ho' : o = .normal
      · subst ho'
        exact ⟨xs ++ ys, .normal, .exit hb ho hc, List.mem_append_right _ hs⟩
      · exact ⟨xs ++ ys, o, .condition hb ho hc ho', List.mem_append_right _ hs⟩

end Behaviour

namespace Expr

open Behaviour in
mutual

/-- How an expression runs; `inBody` says whether it is in the body of a loop. -/
def behaviour (inBody : Bool) : Expr → Behaviour
  | constant id _ | name id _ => step ⟨.read, id⟩ .normal
  | dot id receiver _ => (receiver.behaviour inBody).andThen (step ⟨.read, id⟩ .normal)
  | block id [] => step ⟨.readUnit, id⟩ .normal
  | block _ (first :: rest) => (first.behaviour inBody).andThen (behaviourAll inBody rest)
  | cond id condition thenBranch none =>
    (condition.behaviour inBody).andThen
      ((thenBranch.behaviour inBody).either (step ⟨.readUnit, id⟩ .normal))
  | cond _ condition thenBranch (some elseBranch) =>
    (condition.behaviour inBody).andThen
      ((thenBranch.behaviour inBody).either (elseBranch.behaviour inBody))
  | whileLoop id condition body =>
    (Behaviour.whileLoop (condition.behaviour inBody) (body.behaviour true)).andThen
      (step ⟨.readUnit, id⟩ .normal)
  | doWhileLoop id body condition =>
    (Behaviour.doWhileLoop (body.behaviour true) (condition.behaviour inBody)).andThen
      (step ⟨.readUnit, id⟩ .normal)
  | breakLoop id =>
    if inBody then step ⟨.leave, id⟩ .broken else step ⟨.unsupported, id⟩ .normal
  | continueLoop id =>
    if inBody then step ⟨.leave, id⟩ .continued else step ⟨.unsupported, id⟩ .normal
  | ret id none => step ⟨.returnUnit, id⟩ .returned
  | ret id (some value) =>
    (value.behaviour inBody).andThen (step ⟨.returnValue, id⟩ .returned)
  | binary id operator left right =>
    (left.behaviour inBody).andThen
      ((if operator.isShortCircuit then skip.either (right.behaviour inBody)
        else right.behaviour inBody).andThen (step ⟨.read, id⟩ .normal))
  | assign id target value =>
    (receiverBehaviour inBody target).andThen
      ((value.behaviour inBody).andThen (step ⟨.write, id⟩ .normal))
  | call id _ arguments => (behaviourAll inBody arguments).andThen (step ⟨.read, id⟩ .normal)
  | localVariable id _ _ _ none => step ⟨.write, id⟩ .normal
  | localVariable id _ _ _ (some initializer) =>
    (initializer.behaviour inBody).andThen (step ⟨.write, id⟩ .normal)
  | lambda id _ _ => step ⟨.unsupported, id⟩ .normal

/-- How expressions run one after the other. -/
def behaviourAll (inBody : Bool) : List Expr → Behaviour
  | [] => skip
  | e :: rest => (e.behaviour inBody).andThen (behaviourAll inBody rest)

/-- How the target of an assignment is evaluated. -/
def receiverBehaviour (inBody : Bool) : Expr → Behaviour
  | dot _ receiver _ => receiver.behaviour inBody
  | _ => skip

end

mutual

/-- The steps of an expression, whether or not a run performs them, in the order
in which they would be performed. -/
def steps (inBody : Bool) : Expr → List Step
  | constant id _ | name id _ => [⟨.read, id⟩]
  | dot id receiver _ => receiver.steps inBody ++ [⟨.read, id⟩]
  | block id [] => [⟨.readUnit, id⟩]
  | block _ (first :: rest) => first.steps inBody ++ stepsAll inBody rest
  | cond id condition thenBranch none =>
    condition.steps inBody ++ thenBranch.steps inBody ++ [⟨.readUnit, id⟩]
  | cond _ condition thenBranch (some elseBranch) =>
    condition.steps inBody ++ thenBranch.steps inBody ++ elseBranch.steps inBody
  | whileLoop id condition body =>
    condition.steps inBody ++ body.steps true ++ [⟨.readUnit, id⟩]
  | doWhileLoop id body condition =>
    body.steps true ++ condition.steps inBody ++ [⟨.readUnit, id⟩]
  | breakLoop id | continueLoop id =>
    [⟨if inBody then .leave else .unsupported, id⟩]
  | ret id none => [⟨.returnUnit, id⟩]
  | ret id (some value) => value.steps inBody ++ [⟨.returnValue, id⟩]
  | binary id _ left right => left.steps inBody ++ right.steps inBody ++ [⟨.read, id⟩]
  | assign id target value =>
    receiverSteps inBody target ++ value.steps inBody ++ [⟨.write, id⟩]
  | call id _ arguments => stepsAll inBody arguments ++ [⟨.read, id⟩]
  | localVariable id _ _ _ none => [⟨.write, id⟩]
  | localVariable id _ _ _ (some initializer) => initializer.steps inBody ++ [⟨.write, id⟩]
  | lambda id _ _ => [⟨.unsupported, id⟩]

/-- The steps of expressions that run one after the other. -/
def stepsAll (inBody : Bool) : List Expr → List Step
  | [] => []
  | e :: rest => e.steps inBody ++ stepsAll inBody rest

/-- The steps in which the target of an assignment is evaluated. -/
def receiverSteps (inBody : Bool) : Expr → List Step
  | dot _ receiver _ => receiver.steps inBody
  | _ => []

end

end Expr

end DeclAnalysis
