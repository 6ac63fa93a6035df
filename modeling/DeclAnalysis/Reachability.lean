/-!
# Reachability in finite graphs

The positions of a graph are the numbers below its size. Reachability is
computed by marking them. Positions that are marked at the start act as walls:
the search neither passes through them nor looks behind them, and positions
outside the graph count as marked. The search has two forms, one with a list of
positions still to be looked at and one that descends recursively.

Both forms recurse over a bound on the number of steps. A step that goes on
marks a position that was unmarked, so the number of positions is bound enough.
-/

namespace DeclAnalysis

/-- Marks on the positions of a graph. -/
structure Marks where
  bits : Array Bool
deriving DecidableEq, Repr, Inhabited

namespace Marks

/-- No position of `size` is marked. -/
def none (size : Nat) : Marks := ⟨Array.replicate size false⟩

/-- The position is marked or lies outside. -/
def has (m : Marks) (position : Nat) : Bool := m.bits.getD position true

/-- Marks a position. -/
def insert (m : Marks) (position : Nat) : Marks := ⟨m.bits.setIfInBounds position true⟩

/-- Marks several positions. -/
def insertAll (m : Marks) (positions : List Nat) : Marks := positions.foldl insert m

/-- The marked positions in ascending order. -/
def toList (m : Marks) : List Nat := (List.range m.bits.size).filter m.has

/-- The positions of a list that are unmarked, each once, and the marks with
them. -/
def takeFresh (m : Marks) (positions : List Nat) : List Nat × Marks :=
  positions.foldl
    (fun (fresh, m) p => if m.has p then (fresh, m) else (p :: fresh, m.insert p)) ([], m)

/-- Marks everything that can be reached from the pending positions, which are
marked already. -/
def spread (next : Nat → List Nat) : Nat → List Nat → Marks → Marks
  | 0, _, m => m
  | _ + 1, [], m => m
  | steps + 1, position :: pending, m =>
    let (fresh, m) := m.takeFresh (next position)
    spread next steps (fresh ++ pending) m

/-- Marks what can be reached from `start`, which is itself unmarked or else a
wall. -/
def collect (next : Nat → List Nat) (start : Nat) (m : Marks) : Marks :=
  if m.has start then m else spread next (m.bits.size + 1) [start] (m.insert start)

/-- Marks what can be reached from a position, descending at most `depth` deep. -/
def descend (next : Nat → List Nat) : Nat → Nat → Marks → Marks
  | 0, _, m => m
  | depth + 1, position, m =>
    if m.has position then m
    else (next position).foldl (fun m p => descend next depth p m) (m.insert position)

/-- Marks what can be reached from `start` by recursive descent. -/
def collectRecursively (next : Nat → List Nat) (start : Nat) (m : Marks) : Marks :=
  descend next (m.bits.size + 1) start m

end Marks

end DeclAnalysis
