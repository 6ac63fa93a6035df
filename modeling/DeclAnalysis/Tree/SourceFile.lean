import DeclAnalysis.Tree.Label
import DeclAnalysis.Tree.Numbering

/-!
# Source files

A source file is a name and a list of declarations. `SourceFile.ofDeclarations`
is the only way in which the analysis obtains one, so the nodes of every file
that it sees are numbered.
-/

namespace DeclAnalysis

/-- A file of declarations. -/
structure SourceFile where
  name : String
  declarations : List Declaration
deriving Repr, Inhabited

namespace SourceFile

/-- The file of the given declarations, its nodes numbered from 1 on. -/
def ofDeclarations (name : String) (declarations : List Declaration) : SourceFile :=
  ⟨name, Declaration.numberAll 1 declarations⟩

/-- The labels of all nodes, in the order of their numbers. -/
def labels (file : SourceFile) : List String := Declaration.labelsOf file.declarations

/-- The number of nodes of the file. -/
def nodeCount (file : SourceFile) : Nat := Declaration.nodeCountOf file.declarations

/-- The label of a node. -/
def label? (file : SourceFile) : Nat → Option String
  | 0 => none
  | n + 1 => file.labels[n]?

end SourceFile

end DeclAnalysis
