import DeclAnalysis.Tree.Expr

/-!
# Lowering of expressions

A body is lowered to a sequence of instructions. Most of them stand for the step
in which one expression is performed, and carry the node of that expression.

The instructions of an expression form one contiguous run. How many there are
does not depend on where the expression stands, so the position of every target
is known before anything is lowered: it follows from the position of the run and
from the lengths of its parts.

Of the target of an assignment only the receiver of a member access is
evaluated, and a lambda is one opaque step, like a `break` or `continue` outside
every loop body.
-/

namespace DeclAnalysis

/-- When a jump is taken. -/
inductive JumpKind where
  | unconditional
  | ifTrue
  | ifFalse
deriving DecidableEq, Repr, Inhabited

/-- An instruction. A jump names the position of its target. -/
inductive Instruction where
  /-- The start of the subroutine of a node. -/
  | enter (subroutine : Nat)
  /-- The end of the subroutine of a node. -/
  | exit (subroutine : Nat)
  | read (element : Nat)
  /-- The element is done and has the unit value. -/
  | readUnit (element : Nat)
  | write (element : Nat)
  | returnValue (element : Nat)
  | returnUnit (element : Nat)
  /-- A jump; those that stand for a `break` or a `continue` carry its node. -/
  | jump (kind : JumpKind) (target : Nat) (element : Option Nat)
  /-- An element that takes part in the flow as one opaque step. -/
  | unsupported (element : Nat)
deriving DecidableEq, Repr, Inhabited

namespace Instruction

/-- The expression that the instruction stands for. -/
def element? : Instruction → Option Nat
  | enter _ | exit _ => none
  | read e | readUnit e | write e | returnValue e | returnUnit e | unsupported e => some e
  | jump _ _ e => e

end Instruction

/-- The targets of the innermost loop whose body is being lowered. -/
structure LoopTargets where
  /-- Where a `continue` goes. -/
  onContinue : Nat
  /-- Where a `break` goes. -/
  onBreak : Nat
deriving DecidableEq, Repr, Inhabited

namespace Expr

mutual

/-- The number of instructions of an expression. -/
def span : Expr → Nat
  | constant .. | name .. | breakLoop .. | continueLoop .. | lambda .. | ret _ none
  | localVariable _ _ _ _ none => 1
  | dot _ receiver _ => receiver.span + 1
  | block _ [] => 1
  | block _ (first :: rest) => first.span + spanOf rest
  | cond _ condition thenBranch none => condition.span + 1 + thenBranch.span + 1 + 1
  | cond _ condition thenBranch (some elseBranch) =>
    condition.span + 1 + thenBranch.span + 1 + elseBranch.span
  | whileLoop _ condition body => condition.span + 1 + body.span + 1 + 1
  | doWhileLoop _ body condition => body.span + condition.span + 1 + 1
  | ret _ (some value) => value.span + 1
  | binary _ operator left right =>
    if operator.isShortCircuit then left.span + 1 + right.span + 1
    else left.span + right.span + 1
  | assign _ target value => receiverSpan target + value.span + 1
  | call _ _ arguments => spanOf arguments + 1
  | localVariable _ _ _ _ (some initializer) => initializer.span + 1

/-- The number of instructions of a list of expressions. -/
def spanOf : List Expr → Nat
  | [] => 0
  | e :: rest => e.span + spanOf rest

/-- The number of instructions that evaluate the receiver of an assignment
target. -/
def receiverSpan : Expr → Nat
  | dot _ receiver _ => receiver.span
  | _ => 0

end

/-- The jump that skips the right operand of a short-circuit operator. -/
def skipKind (operator : BinaryOperator) : JumpKind :=
  if operator = .and then .ifFalse else .ifTrue

mutual

/-- The instructions of an expression whose first instruction is at position
`start`; `loop` holds the targets of the innermost loop whose body the
expression is in. -/
def lower (loop : Option LoopTargets) (start : Nat) : Expr → List Instruction
  | constant id _ | name id _ => [.read id]
  | dot id receiver _ => receiver.lower loop start ++ [.read id]
  | block id [] => [.readUnit id]
  | block _ (first :: rest) => first.lower loop start ++ lowerAll loop (start + first.span) rest
  | cond id condition thenBranch none =>
    let thenStart := start + condition.span + 1
    let elseStart := thenStart + thenBranch.span + 1
    condition.lower loop start ++ [.jump .ifFalse elseStart none]
      ++ thenBranch.lower loop thenStart ++ [.jump .unconditional (elseStart + 1) none]
      ++ [.readUnit id]
  | cond _ condition thenBranch (some elseBranch) =>
    let thenStart := start + condition.span + 1
    let elseStart := thenStart + thenBranch.span + 1
    condition.lower loop start ++ [.jump .ifFalse elseStart none]
      ++ thenBranch.lower loop thenStart
      ++ [.jump .unconditional (elseStart + elseBranch.span) none]
      ++ elseBranch.lower loop elseStart
  | whileLoop id condition body =>
    let bodyStart := start + condition.span + 1
    let after := bodyStart + body.span + 1
    condition.lower loop start ++ [.jump .ifFalse after none]
      ++ body.lower (some ⟨start, after⟩) bodyStart ++ [.jump .unconditional start none]
      ++ [.readUnit id]
  | doWhileLoop id body condition =>
    let check := start + body.span
    let after := check + condition.span + 1
    body.lower (some ⟨check, after⟩) start ++ condition.lower loop check
      ++ [.jump .ifTrue start none] ++ [.readUnit id]
  | breakLoop id =>
    match loop with
    | some targets => [.jump .unconditional targets.onBreak (some id)]
    | none => [.unsupported id]
  | continueLoop id =>
    match loop with
    | some targets => [.jump .unconditional targets.onContinue (some id)]
    | none => [.unsupported id]
  | ret id none => [.returnUnit id]
  | ret id (some value) => value.lower loop start ++ [.returnValue id]
  | binary id operator left right =>
    if operator.isShortCircuit then
      let rightStart := start + left.span + 1
      left.lower loop start ++ [.jump (skipKind operator) (rightStart + right.span) none]
        ++ right.lower loop rightStart ++ [.read id]
    else left.lower loop start ++ right.lower loop (start + left.span) ++ [.read id]
  | assign id target value =>
    lowerReceiver loop start target
      ++ value.lower loop (start + receiverSpan target) ++ [.write id]
  | call id _ arguments => lowerAll loop start arguments ++ [.read id]
  | localVariable id _ _ _ none => [.write id]
  | localVariable id _ _ _ (some initializer) => initializer.lower loop start ++ [.write id]
  | lambda id _ _ => [.unsupported id]

/-- The instructions of expressions that are evaluated one after the other. -/
def lowerAll (loop : Option LoopTargets) (start : Nat) : List Expr → List Instruction
  | [] => []
  | e :: rest => e.lower loop start ++ lowerAll loop (start + e.span) rest

/-- The instructions that evaluate the receiver of an assignment target. -/
def lowerReceiver (loop : Option LoopTargets) (start : Nat) : Expr → List Instruction
  | dot _ receiver _ => receiver.lower loop start
  | _ => []

end

end Expr

end DeclAnalysis
