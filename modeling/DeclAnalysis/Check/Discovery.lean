import DeclAnalysis.Files.Access

/-!
# Finding trees

Declaration trees are the files with a certain suffix. Below a directory they
are looked for everywhere but in hidden directories and in those whose name is
excluded; hidden files are passed over, too.
-/

namespace DeclAnalysis

namespace Discovery

/-- The suffix of the files that hold declaration trees. -/
def treeSuffix : String := ".keel.json"

/-- The name is that of a declaration tree: there is something before the
suffix. -/
def isTreeName (name : String) : Bool :=
  let suffix := treeSuffix.toList.reverse
  let letters := name.toList.reverse
  suffix.length < letters.length && letters.take suffix.length = suffix

/-- The name is a hidden one. -/
def isHidden (name : String) : Bool := name.toList.head? = some '.'

mutual

/-- The declaration trees among the entries of a directory, each by the names
that lead to it. -/
def treesAmong (exclude : List String) : List (String × Listing) → List (List String)
  | [] => []
  | (name, entry) :: rest =>
    (if isHidden name then [] else treesAt exclude name entry) ++ treesAmong exclude rest

/-- The declaration trees under a name that is not hidden. -/
def treesAt (exclude : List String) (name : String) : Listing → List (List String)
  | .file => if isTreeName name then [[name]] else []
  | .directory entries =>
    if exclude.contains name then [] else (treesAmong exclude entries).map (name :: ·)

end

/-- One list of names comes before another, or is the same. -/
def precedes : List String → List String → Bool
  | [], _ => true
  | _ :: _, [] => false
  | a :: as, b :: bs => a < b || (a = b && precedes as bs)

/-- The declaration trees in a directory, sorted by the names that lead to them. -/
def trees (exclude : List String) : Listing → List (List String)
  | .file => []
  | .directory entries => (treesAmong exclude entries).mergeSort precedes

/-- The paths of the declaration trees at a path, if there is anything. A file
that is named itself is taken even if it is hidden. -/
def find? {m : Type → Type} [Monad m] (files : Files m) (exclude : List String) (path : String) :
    m (Option (List String)) := do
  match ← files.kind? path with
  | none => return none
  | some .file =>
    return some (if ((Path.fileName? path).map isTreeName).getD false then [path] else [])
  | some .directory =>
    let listing ← files.listing path
    return some ((trees exclude listing).map fun names => names.foldl Path.join path)

end Discovery

end DeclAnalysis
