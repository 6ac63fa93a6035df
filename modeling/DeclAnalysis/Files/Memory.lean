import DeclAnalysis.Files.Access

/-!
# Files in memory

Files held in memory form a tree of directories. Paths are followed through it
part by part, and every part but the last must be a directory.
-/

namespace DeclAnalysis

/-- A tree of files. -/
inductive FileTree where
  /-- A file and its text; there is none if the bytes of the file are not text. -/
  | file (text : Option String)
  | directory (entries : List (String × FileTree))
deriving Repr, Inhabited

namespace FileTree

/-- What the tree is. -/
def kind : FileTree → FileKind
  | file _ => .file
  | directory _ => .directory

/-- The tree of a name in a directory. -/
def child? (name : String) : FileTree → Option FileTree
  | file _ => none
  | directory entries => entries.lookup name

/-- The tree at the end of a list of names. -/
def at? (tree : FileTree) (names : List String) : Option FileTree :=
  names.foldlM (fun t name => t.child? name) tree

mutual

/-- The names in a tree. -/
def listing : FileTree → Listing
  | file _ => .file
  | directory entries => .directory (listings entries)

/-- The names in the trees of a directory. -/
def listings : List (String × FileTree) → List (String × Listing)
  | [] => []
  | (name, tree) :: rest => (name, listing tree) :: listings rest

end

/-- Replaces the tree of a name, or adds the name at the end. -/
def setEntry (name : String) (tree : FileTree) :
    List (String × FileTree) → List (String × FileTree)
  | [] => [(name, tree)]
  | (other, old) :: rest =>
    if other = name then (name, tree) :: rest else (other, old) :: setEntry name tree rest

/-- Puts a tree at the end of a list of names. Missing directories on the way
are made, and a file on the way makes room for one. An empty directory leaves a
directory that is there already as it is. -/
def insert (tree : FileTree) : List String → FileTree → FileTree
  | [], old =>
    match tree, old with
    | directory [], directory _ => old
    | _, _ => tree
  | name :: rest, old =>
    let entries :=
      match old with
      | directory entries => entries
      | file _ => []
    directory <|
      setEntry name (tree.insert rest ((entries.lookup name).getD (directory []))) entries

end FileTree

/-- Files in memory, and the names that lead to the directory from which
relative paths start. -/
structure Memory where
  tree : FileTree
  directory : List String := []
deriving Repr, Inhabited

namespace Memory

/-- Follows one part of a path from a place. -/
def step? (m : Memory) (place : List String) (part : String) : Option (List String) := do
  let here ← m.tree.at? place
  match here.kind with
  | .file => none
  | .directory =>
    if Path.isIdle part then return place
    else if part = ".." then return place.dropLast
    else
      let _ ← here.child? part
      return place ++ [part]

/-- The names that lead to where a path leads. -/
def place? (m : Memory) (path : String) : Option (List String) :=
  if path = "" then none
  else
    (Text.parts '/' path).foldlM m.step? (if Path.isAbsolute path then [] else m.directory)

/-- Puts a tree at a path that leads downwards. -/
def put (m : Memory) (path : String) (tree : FileTree) : Memory :=
  let names := (Text.parts '/' path).filter (!Path.isIdle ·)
  { m with tree := FileTree.insert tree (m.directory ++ names) m.tree }

/-- Goes to the directory at a path, if there is one. -/
def enter (m : Memory) (path : String) : Memory :=
  { m with directory := (m.place? path).getD m.directory }

/-- What a path leads to. -/
def find? (m : Memory) (path : String) : Option FileTree := (m.place? path).bind m.tree.at?

/-- The text of the file to which a path leads. -/
def read (m : Memory) (path : String) : Except String String :=
  match m.find? path with
  | none => .error Files.notFound
  | some (.directory _) => .error Files.isDirectory
  | some (.file none) => .error Files.notText
  | some (.file (some text)) => .ok text

/-- Writes a file. The directory in which it lies must exist. -/
def write (m : Memory) (path text : String) : Except String Memory :=
  match m.find? path with
  | some (.directory _) => .error Files.isDirectory
  | _ =>
    match Path.fileName? path, (Path.parent? path).map fun p => if p = "" then "." else p with
    | some name, some above =>
      match m.place? above with
      | none => .error Files.notFound
      | some place =>
        match m.tree.at? place with
        | some (.directory _) =>
          .ok { m with tree := FileTree.insert (.file (some text)) (place ++ [name]) m.tree }
        | _ => .error Files.notDirectory
    | _, _ => .error Files.notFound

/-- Access to files in memory. -/
def files : Files (StateM Memory) where
  kind? path := return ((← get).find? path).map FileTree.kind
  read path := return (← get).read path
  listing path := return (((← get).find? path).map FileTree.listing).getD .file
  write path text := do
    match (← get).write path text with
    | .ok changed =>
      set changed
      return .ok ()
    | .error reason => return .error reason
  workingDirectory := return "/" ++ String.intercalate "/" (← get).directory

end Memory

end DeclAnalysis
