import DeclAnalysis.Resolve.Run

/-!
# Reports

An engine analyses files with fixed settings. Its report of a file names the
file and describes the node of every diagnostic, and gives every diagnostic the
severity that is configured for its code.
-/

namespace DeclAnalysis

/-- Severities for some codes, in the order in which they were given. -/
abbrev SeverityOverrides := List (DiagnosticCode × Severity)

namespace SeverityOverrides

/-- The severity for a code: the one given last, or else the default at hand. -/
def severity (overrides : SeverityOverrides) (code : DiagnosticCode) (default : Severity) :
    Severity :=
  overrides.foldl (fun s (c, t) => if c = code then t else s) default

/-- The diagnostic with the severity for its code. -/
def apply (overrides : SeverityOverrides) (d : Diagnostic) : Diagnostic :=
  { d with severity := overrides.severity d.code d.severity }

end SeverityOverrides

/-- A diagnostic with the file and the description of the node that it is about. -/
structure FileDiagnostic where
  file : String
  label : String
  diagnostic : Diagnostic
deriving DecidableEq, Repr, Inhabited

namespace FileDiagnostic

/-- How grave the diagnostic is. -/
def severity (d : FileDiagnostic) : Severity := d.diagnostic.severity

end FileDiagnostic

/-- What the analysis of a file has brought to light. If a fault stopped it, the
diagnostics are those that were reported before. -/
structure Report where
  file : String
  diagnostics : List FileDiagnostic
  fault : Option Fault
deriving DecidableEq, Repr, Inhabited

namespace Report

/-- The number of diagnostics of a severity. -/
def count (r : Report) (severity : Severity) : Nat :=
  r.diagnostics.countP (·.severity = severity)

/-- There is an error among the diagnostics, or the analysis was stopped. -/
def hasErrors (r : Report) : Bool := r.fault.isSome || 0 < r.count .error

end Report

/-- The settings with which files are analysed. -/
structure Engine where
  options : AnalysisOptions := {}
  overrides : SeverityOverrides := []
deriving DecidableEq, Repr, Inhabited

namespace Engine

/-- The description of a node: its label, given the labels of all nodes of its
file, or else its number. -/
def describe (labels : Array String) (node : Nat) : String :=
  match node with
  | 0 => Fault.nodeText 0
  | n + 1 => labels.getD n (Fault.nodeText (n + 1))

/-- Analyses a file. -/
def analyze (engine : Engine) (file : SourceFile) : Report :=
  let outcome := file.analyze engine.options
  let labels := file.labels.toArray
  { file := file.name
    fault := outcome.fault
    diagnostics := outcome.session.diagnostics.toList.map fun d =>
      { file := file.name
        label := describe labels d.node
        diagnostic := engine.overrides.apply d } }

end Engine

end DeclAnalysis
