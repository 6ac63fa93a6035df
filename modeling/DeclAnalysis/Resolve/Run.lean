import DeclAnalysis.Resolve.Body
import DeclAnalysis.Resolve.Collect
import DeclAnalysis.Resolve.Register
import DeclAnalysis.Tree.SourceFile

/-!
# The analysis of a file

The passes over a file in their order: classes and namespaces are collected, the
supertypes of the classes are resolved, signatures are registered, classes are
finalized, and bodies are resolved.
-/

namespace DeclAnalysis

namespace Pass

open Analysis

/-- The scope in which the declarations of a file stand. -/
def toplevel : Nat := 1

/-- The state before the first pass: the scope of the file is in place. -/
def initialState : PassState :=
  let scopes := (Model.initial.scopes.create .toplevel (some Model.root) none).2
  { model := { Model.initial with scopes } }

/-- Resolves the supertypes of all collected classes. -/
def resolveClasses : Pass Unit := do
  let tables ← tables
  tables.classes.toList.forM fun (head, descriptor) => do
    let scope ← ofExcept (tables.declaringScope head.id)
    resolveClass scope head descriptor

/-- Finalizes all classes and gives back how many were open. -/
def finalizeClasses : Pass Nat :=
  modifyGet fun (s : Session) =>
    let (count, descriptors) := s.model.descriptors.finalizeClasses
    (count, { s with model.descriptors := descriptors })

/-- All passes over the declarations of a file. -/
def allPasses (options : AnalysisOptions) (declarations : List Declaration) : Pass Unit := do
  collectAll options toplevel declarations
  resolveClasses
  registerAll toplevel declarations
  let _ ← finalizeClasses
  resolveBodies options

end Pass

/-- What an analysis leads to: the session as the passes left it, and the fault
that stopped them, if any. -/
structure Outcome where
  fault : Option Fault
  session : Session
deriving Inhabited

namespace SourceFile

/-- Runs all passes over a file. -/
def analyze (file : SourceFile) (options : AnalysisOptions) : Outcome :=
  let (result, state) := (ExceptT.run (Pass.allPasses options file.declarations)).run Pass.initialState
  match result with
  | .ok () => ⟨none, state.toSession⟩
  | .error fault => ⟨some fault, state.toSession⟩

end SourceFile

end DeclAnalysis
