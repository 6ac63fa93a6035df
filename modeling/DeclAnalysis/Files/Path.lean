import DeclAnalysis.Text.Parts

/-!
# Paths

A path is a text whose parts are set apart by slashes; one that begins with a
slash starts at the root. Empty parts and parts that consist of a single dot
lead nowhere, except for a dot at the very beginning, and are passed over.
-/

namespace DeclAnalysis

namespace Path

/-- The path starts at the root. -/
def isAbsolute (path : String) : Bool := path.toList.head? = some '/'

/-- The path that leads on from another one, unless it is absolute itself. -/
def join (base path : String) : String :=
  if isAbsolute path then path
  else
    match base.toList.getLast? with
    | none => path
    | some '/' => base ++ path
    | some _ => base ++ "/" ++ path

/-- The part leads nowhere. -/
def isIdle (part : String) : Bool := part = "" || part = "."

/-- The parts of a path, the last one first, without those at its end that lead
nowhere. The first part of the path always stays. -/
def trimmed : List String → List String
  | [] => []
  | [first] => [first]
  | part :: rest => if isIdle part then trimmed rest else part :: rest

/-- The parts of a path, the last one first, as far as they lead somewhere. -/
def steps (path : String) : List String := trimmed (Text.parts '/' path).reverse

/-- The path with the given parts, the last one first. -/
def ofSteps (steps : List String) : String :=
  if steps = [""] then "/" else String.intercalate "/" steps.reverse

/-- The path without its last part; the root and the empty path have none. -/
def parent? (path : String) : Option String :=
  match steps path with
  | [] => none
  | [first] => if first = "" then none else some ""
  | _ :: rest => some (ofSteps (trimmed rest))

/-- The name at the end of a path. -/
def fileName? (path : String) : Option String :=
  match steps path with
  | [] => none
  | [first] => if isIdle first || first = ".." then none else some first
  | last :: _ => if last = ".." then none else some last

/-- The path itself, its parent, the parent of that, and so on, at most so many. -/
def chain : Nat → String → List String
  | 0, _ => []
  | count + 1, path =>
    path ::
      match parent? path with
      | none => []
      | some above => chain count above

/-- The path itself, its parent, the parent of that, and so on. Every one is
shorter than the one before. -/
def upwards (path : String) : List String := chain (path.length + 1) path

end Path

end DeclAnalysis
