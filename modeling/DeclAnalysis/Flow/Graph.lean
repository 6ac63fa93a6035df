import DeclAnalysis.Flow.Lowering
import DeclAnalysis.Reachability

/-!
# Flow graphs

The graph of a body consists of an entry, the instructions of the body and an
exit. Its edges follow from the instructions: a return goes to the exit, a jump
to its target, and everything but a return and an unconditional jump falls
through to the next instruction.
-/

namespace DeclAnalysis

/-- The instructions of one subroutine, its entry first and its exit last. -/
structure FlowGraph where
  subroutine : Nat
  instructions : Array Instruction
deriving DecidableEq, Repr, Inhabited

namespace FlowGraph

/-- The graph of a body under the node of its subroutine. -/
def ofBody (subroutine : Nat) (body : Expr) : FlowGraph :=
  ⟨subroutine, (.enter subroutine :: (body.lower none 1 ++ [.exit subroutine])).toArray⟩

/-- The number of instructions. -/
def size (g : FlowGraph) : Nat := g.instructions.size

/-- The position of the entry. -/
def entry (_ : FlowGraph) : Nat := 0

/-- The position of the exit. -/
def exit (g : FlowGraph) : Nat := g.size - 1

/-- The positions that may follow a position, the target of a jump first. -/
def next (g : FlowGraph) (position : Nat) : List Nat :=
  let following := position + 1
  match g.instructions[position]? with
  | none | some (.exit _) => []
  | some (.returnValue _) | some (.returnUnit _) => [g.exit]
  | some (.jump .unconditional target _) => [target]
  | some (.jump _ target _) =>
    if target = following then [following] else [target, following]
  | some _ => [following]

/-- The positions that a position may follow, in ascending order. -/
def previous (g : FlowGraph) (position : Nat) : List Nat :=
  (List.range g.size).filter fun source => position ∈ g.next source

/-- The elements that instructions carry, in the order of the instructions. -/
def elements (g : FlowGraph) : List Nat := g.instructions.toList.filterMap Instruction.element?

/-- The position of the first instruction that carries an element. -/
def representative? (g : FlowGraph) (element : Nat) : Option Nat :=
  g.instructions.findIdx? (·.element? = some element)

/-- The positions that can be reached from a position. -/
def reachableFrom (g : FlowGraph) (start : Nat) : Marks :=
  (Marks.none g.size).collect g.next start

/-- The positions that can be reached from the entry. -/
def reachable (g : FlowGraph) : Marks := g.reachableFrom g.entry

end FlowGraph

end DeclAnalysis
