import DeclAnalysis.Fault
import DeclAnalysis.Flow.Graph

/-!
# Emitting code with labels

The code of a subroutine can be emitted in one pass over its body. The target of
a jump is a label then, which is created when a jump is about to need it and
bound as soon as the position it stands for is reached. When the body is done
the exit is appended and the edges are entered, instruction by instruction; that
a label stands for no position is a fault.
-/

namespace DeclAnalysis

/-- Replaces the label that a jump goes to by a position. -/
def Instruction.relabel (position : Nat → Nat) : Instruction → Instruction
  | jump kind label element => jump kind (position label) element
  | i => i

/-- Code that is being emitted. The targets of its jumps are labels. -/
structure Code where
  subroutine : Nat
  instructions : Array Instruction
  /-- The positions that the labels stand for, as far as they are bound. -/
  labels : Array (Option Nat)
deriving DecidableEq, Repr, Inhabited

namespace Code

/-- The code of a subroutine before anything of its body is emitted. -/
def start (subroutine : Nat) : Code := ⟨subroutine, #[.enter subroutine], #[]⟩

/-- The number of instructions, which is the position of the next one. -/
def size (c : Code) : Nat := c.instructions.size

/-- Emits an instruction. -/
def push (c : Code) (i : Instruction) : Code := { c with instructions := c.instructions.push i }

/-- The next label to be created. -/
def nextLabel (c : Code) : Nat := c.labels.size

/-- Creates a label. -/
def createLabel (c : Code) : Code := { c with labels := c.labels.push none }

/-- Binds a label to the position of the next instruction. -/
def bindLabel (c : Code) (label : Nat) : Code :=
  { c with labels := c.labels.setIfInBounds label (some c.size) }

/-- The position that a label is bound to. -/
def label? (c : Code) (label : Nat) : Option Nat := (c.labels[label]?).join

end Code

namespace Expr

mutual

/-- Emits the instructions of an expression. The labels of the loops whose bodies
the expression is in are given, those of the innermost loop first. -/
def emit (loops : List LoopTargets) (c : Code) : Expr → Code
  | constant id _ | name id _ => c.push (.read id)
  | dot id receiver _ => (receiver.emit loops c).push (.read id)
  | block id [] => c.push (.readUnit id)
  | block _ (first :: rest) => emitAll loops (first.emit loops c) rest
  | cond id condition thenBranch none =>
    let c := condition.emit loops c
    let elseLabel := c.nextLabel
    let c := thenBranch.emit loops (c.createLabel.push (.jump .ifFalse elseLabel none))
    let endLabel := c.nextLabel
    let c := c.createLabel.push (.jump .unconditional endLabel none)
    ((c.bindLabel elseLabel).push (.readUnit id)).bindLabel endLabel
  | cond _ condition thenBranch (some elseBranch) =>
    let c := condition.emit loops c
    let elseLabel := c.nextLabel
    let c := thenBranch.emit loops (c.createLabel.push (.jump .ifFalse elseLabel none))
    let endLabel := c.nextLabel
    let c := c.createLabel.push (.jump .unconditional endLabel none)
    (elseBranch.emit loops (c.bindLabel elseLabel)).bindLabel endLabel
  | whileLoop id condition body =>
    let head := c.nextLabel
    let c := c.createLabel
    let exit := c.nextLabel
    let c := condition.emit loops (c.createLabel.bindLabel head)
    let c := body.emit (⟨head, exit⟩ :: loops) (c.push (.jump .ifFalse exit none))
    ((c.push (.jump .unconditional head none)).bindLabel exit).push (.readUnit id)
  | doWhileLoop id body condition =>
    let start := c.nextLabel
    let c := c.createLabel
    let check := c.nextLabel
    let c := c.createLabel
    let exit := c.nextLabel
    let c := body.emit (⟨check, exit⟩ :: loops) (c.createLabel.bindLabel start)
    let c := condition.emit loops (c.bindLabel check)
    ((c.push (.jump .ifTrue start none)).bindLabel exit).push (.readUnit id)
  | breakLoop id =>
    match loops with
    | targets :: _ => c.push (.jump .unconditional targets.onBreak (some id))
    | [] => c.push (.unsupported id)
  | continueLoop id =>
    match loops with
    | targets :: _ => c.push (.jump .unconditional targets.onContinue (some id))
    | [] => c.push (.unsupported id)
  | ret id none => c.push (.returnUnit id)
  | ret id (some value) => (value.emit loops c).push (.returnValue id)
  | binary id operator left right =>
    if operator.isShortCircuit then
      let c := left.emit loops c
      let endLabel := c.nextLabel
      let c := right.emit loops (c.createLabel.push (.jump (skipKind operator) endLabel none))
      (c.bindLabel endLabel).push (.read id)
    else (right.emit loops (left.emit loops c)).push (.read id)
  | assign id target value => (value.emit loops (emitReceiver loops c target)).push (.write id)
  | call id _ arguments => (emitAll loops c arguments).push (.read id)
  | localVariable id _ _ _ none => c.push (.write id)
  | localVariable id _ _ _ (some initializer) => (initializer.emit loops c).push (.write id)
  | lambda id _ _ => c.push (.unsupported id)

/-- Emits the instructions of expressions that are evaluated one after the
other. -/
def emitAll (loops : List LoopTargets) (c : Code) : List Expr → Code
  | [] => c
  | e :: rest => emitAll loops (e.emit loops c) rest

/-- Emits the instructions that evaluate the receiver of an assignment target. -/
def emitReceiver (loops : List LoopTargets) (c : Code) : Expr → Code
  | dot _ receiver _ => receiver.emit loops c
  | _ => c

end

end Expr

namespace Code

/-- All the instructions of a subroutine. -/
def ofBody (subroutine : Nat) (body : Expr) : Code :=
  (body.emit [] (start subroutine)).push (.exit subroutine)

/-- The position that a label stands for. Nothing jumps to the entry, so its
position can stand for that of a label that is not bound. -/
def position (c : Code) (label : Nat) : Nat := (c.label? label).getD 0

/-- The graph of the code, in which the targets of jumps are positions. -/
def graph (c : Code) : FlowGraph := ⟨c.subroutine, c.instructions.map (.relabel c.position)⟩

end Code

/-- The edges between instructions, stored at both of their ends. -/
structure Edges where
  next : Array (List Nat)
  previous : Array (List Nat)
deriving DecidableEq, Repr, Inhabited

namespace Edges

/-- The positions to which edges go from a position. -/
def successors (edges : Edges) (position : Nat) : List Nat := edges.next.getD position []

/-- The positions from which edges go to a position. -/
def predecessors (edges : Edges) (position : Nat) : List Nat := edges.previous.getD position []

/-- There are no edges between so many instructions. -/
def none (size : Nat) : Edges := ⟨.replicate size [], .replicate size []⟩

/-- Puts a position at the end of a list that does not contain it yet. -/
def enter (position : Nat) (positions : List Nat) : List Nat :=
  if position ∈ positions then positions else positions ++ [position]

/-- Stores an edge. -/
def add (edges : Edges) (source target : Nat) : Edges where
  next := edges.next.modify source (enter target)
  previous := edges.previous.modify target (enter source)

/-- Stores the edges to several targets. -/
def addAll (edges : Edges) (source : Nat) (targets : List Nat) : Edges :=
  targets.foldl (fun edges target => edges.add source target) edges

end Edges

namespace Code

/-- The position that a jump to a label goes to. -/
def resolve (c : Code) (label : Nat) : Except Fault Nat :=
  match c.label? label with
  | some position =>
    if position < c.size then .ok position else .error (.at_ c.subroutine (.labelUnbound label))
  | none => .error (.at_ c.subroutine (.labelUnbound label))

/-- The positions to which the edges of an instruction go, the target of a jump
first. -/
def targets (c : Code) (position : Nat) : Except Fault (List Nat) :=
  let following := if position + 1 < c.size then [position + 1] else []
  match c.instructions[position]? with
  | none | some (.exit _) => .ok []
  | some (.returnValue _) | some (.returnUnit _) => .ok [c.size - 1]
  | some (.jump .unconditional label _) => do
    let target ← c.resolve label
    return [target]
  | some (.jump _ label _) => do
    let target ← c.resolve label
    return target :: following
  | some _ => .ok following

/-- Stores the edges of one instruction. -/
def linkNext (c : Code) (edges : Edges) (source : Nat) : Except Fault Edges := do
  return edges.addAll source (← c.targets source)

/-- The edges between the instructions of finished code. -/
def link (c : Code) : Except Fault Edges :=
  (List.range c.size).foldlM c.linkNext (Edges.none c.size)

end Code

/-- The finished code of a subroutine: its entry first and its exit last, with the
edges between the instructions. -/
structure Pseudocode where
  code : Code
  edges : Edges
deriving DecidableEq, Repr, Inhabited

/-- Builds the code of a body under the node of its subroutine. -/
def Pseudocode.build (subroutine : Nat) (body : Expr) : Except Fault Pseudocode := do
  let code := Code.ofBody subroutine body
  let edges ← code.link
  return ⟨code, edges⟩

end DeclAnalysis
