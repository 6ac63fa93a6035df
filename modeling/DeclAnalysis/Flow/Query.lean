import DeclAnalysis.Fault
import DeclAnalysis.Flow.Graph

/-!
# Questions about the flow of a body

Where the value of a subroutine comes from, which of its expressions can never
run, and which can run only after a given one.
-/

namespace DeclAnalysis

/-- Where the value of a subroutine comes from. -/
structure ReturnedInformation where
  /-- The elements whose value flows into the exit. -/
  expressions : List Nat := []
  /-- The elements after which the subroutine is done without a value. -/
  unitReturning : List Nat := []
  /-- The opaque elements after which the subroutine is done. -/
  unsupported : List Nat := []
deriving DecidableEq, Repr, Inhabited

namespace ReturnedInformation

/-- Takes note of an instruction after which the subroutine may be done. -/
def add (info : ReturnedInformation) : Instruction → ReturnedInformation
  | .read e | .readUnit e => { info with expressions := info.expressions ++ [e] }
  | .write e | .returnUnit e | .enter e =>
    { info with unitReturning := info.unitReturning ++ [e] }
  | .unsupported e => { info with unsupported := info.unsupported ++ [e] }
  | .jump .. | .returnValue _ | .exit _ => info

end ReturnedInformation

namespace Instruction

/-- The instruction has no value of its own, so the value with which it is left
is the one with which it is entered. -/
def passesOn : Instruction → Bool
  | jump .. | returnValue _ => true
  | _ => false

end Instruction

namespace FlowGraph

/-- The reachable sources of the edges into a position. -/
def sources (g : FlowGraph) (reachable : Marks) (position : Nat) : List Nat :=
  (g.previous position).filter reachable.has

/-- The instruction at a position passes on the value with which it is entered. -/
def passesOn (g : FlowGraph) (position : Nat) : Bool :=
  (g.instructions[position]?).any Instruction.passesOn

/-- Walks back from the pending positions to where values come from. -/
def walkBack (g : FlowGraph) (reachable : Marks) :
    Nat → List Nat → Marks → ReturnedInformation → ReturnedInformation
  | 0, _, _, info => info
  | _ + 1, [], _, info => info
  | steps + 1, position :: pending, visited, info =>
    if visited.has position then walkBack g reachable steps pending visited info
    else
      let sources := g.sources reachable position
      walkBack g reachable steps
        ((sources.filter g.passesOn).reverse ++ pending)
        (visited.insert position)
        ((sources.filterMap (g.instructions[·]?)).foldl ReturnedInformation.add info)

/-- Where the value of the subroutine comes from. Every edge is walked at most
once, and there are at most two for each instruction. -/
def returned (g : FlowGraph) : ReturnedInformation :=
  g.walkBack g.reachable (2 * g.size + 2) [g.exit] (Marks.none g.size) {}

/-- The elements of instructions that cannot be reached. The unit value of an
element is no step that could be missed. -/
def unreachable (g : FlowGraph) : List Nat :=
  let reachable := g.reachable
  (List.range g.size).filterMap fun position =>
    if reachable.has position then none
    else
      match g.instructions[position]? with
      | some (.readUnit _) | none => none
      | some instruction => instruction.element?

/-- The elements of instructions that can be reached, but not without passing
the given position. -/
def dominated (g : FlowGraph) (dominator : Nat) : List Nat :=
  let all := g.reachable
  let others := ((Marks.none g.size).insert dominator).collect g.next g.entry
  (List.range g.size).filterMap fun position =>
    if all.has position && !others.has position then
      (g.instructions[position]?).bind Instruction.element?
    else none

end FlowGraph

/-- Graphs by the node of their subroutine. -/
structure FlowData where
  graphs : List FlowGraph := []
deriving DecidableEq, Repr, Inhabited

namespace FlowData

/-- Puts a graph into a list in place of the one of the same subroutine. -/
def replace (g : FlowGraph) : List FlowGraph → List FlowGraph
  | [] => [g]
  | other :: rest =>
    if other.subroutine = g.subroutine then g :: rest else other :: replace g rest

/-- Adds the graph of a body, in place of an older one for the same node. -/
def add (data : FlowData) (subroutine : Nat) (body : Expr) : FlowData :=
  ⟨replace (.ofBody subroutine body) data.graphs⟩

/-- The graph of one body alone. -/
def ofBody (subroutine : Nat) (body : Expr) : FlowData := ({} : FlowData).add subroutine body

/-- The graph of a subroutine. -/
def graph? (data : FlowData) (subroutine : Nat) : Option FlowGraph :=
  data.graphs.find? (·.subroutine = subroutine)

/-- The first graph in which an instruction carries the element, with the
position of that instruction. -/
def locate? (data : FlowData) (element : Nat) : Option (FlowGraph × Nat) :=
  data.graphs.findSome? fun g => (g.representative? element).map (g, ·)

end FlowData

/-- Where answers about flow come from. -/
inductive FlowInformation where
  /-- Nothing is known, and every question has an empty answer. -/
  | empty
  /-- There is no flow, and asking about a subroutine is a fault. -/
  | forbidden
  /-- The graphs of some bodies are known. -/
  | data (data : FlowData)
deriving DecidableEq, Repr, Inhabited

namespace FlowInformation

/-- The graph of a subroutine; nothing where every answer is empty. -/
def graph (flow : FlowInformation) (subroutine : Nat) : Except Fault (Option FlowGraph) :=
  match flow with
  | empty => .ok none
  | forbidden => .error (.at_ subroutine .flowForbidden)
  | data d =>
    match d.graph? subroutine with
    | some g => .ok (some g)
    | none => .error (.at_ subroutine .noGraph)

/-- Where the value of a subroutine comes from. -/
def returned (flow : FlowInformation) (subroutine : Nat) :
    Except Fault ReturnedInformation := do
  return ((← flow.graph subroutine).map FlowGraph.returned).getD {}

/-- The elements of a subroutine that can never run. -/
def unreachable (flow : FlowInformation) (subroutine : Nat) : Except Fault (List Nat) := do
  return ((← flow.graph subroutine).map FlowGraph.unreachable).getD []

/-- The elements that can run only after the given one. -/
def dominated (flow : FlowInformation) (element : Nat) : List Nat :=
  match flow with
  | empty | forbidden => []
  | data d =>
    match d.locate? element with
    | some (g, position) => g.dominated position
    | none => []

end FlowInformation

end DeclAnalysis
