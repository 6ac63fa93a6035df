import DeclAnalysis.Report
import DeclAnalysis.Tree.Interchange

/-!
# Checking files

The files of a project are analysed one by one. A file that is not a tree, or
whose analysis is stopped by a fault, counts as a failure; the diagnostics
reported before the fault are kept. Diagnostics below a wanted severity are
left out.
-/

namespace DeclAnalysis

namespace Severity

/-- How grave the severity is, as a number. -/
def rank : Severity → Nat
  | error => 4
  | warning => 3
  | info => 2
  | hint => 1

end Severity

namespace TextFault

/-- The wording of a fault. -/
def message : TextFault → String
  | flaw .ended => "unexpected end of the text"
  | flaw .malformed => "malformed text"
  | shape error => error.message

end TextFault

/-- A file that could not be analysed to the end. -/
structure FileFailure where
  file : String
  message : String
deriving DecidableEq, Repr, Inhabited

/-- What has been found out about a list of files. -/
structure CheckOutcome where
  fileCount : Nat
  diagnostics : List FileDiagnostic
  failures : List FileFailure
deriving DecidableEq, Repr, Inhabited

namespace CheckOutcome

/-- What is found out about one file, whose text may be unreadable for a reason. -/
def ofFile (engine : Engine) (file : String) (content : Except String String) :
    List FileDiagnostic × Option FileFailure :=
  match content with
  | .error reason => ([], some ⟨file, "failed to read file: " ++ reason⟩)
  | .ok text =>
    match SourceFile.ofText file text with
    | .error fault => ([], some ⟨file, "not a declaration tree: " ++ fault.message⟩)
    | .ok source =>
      let report := engine.analyze source
      (report.diagnostics,
        report.fault.map fun fault => ⟨file, "analysis aborted: " ++ fault.message⟩)

/-- What is found out about a list of files. Of the diagnostics, those at least
as grave as `least` are kept. -/
def ofFiles (engine : Engine) (least : Severity) (files : List (String × Except String String)) :
    CheckOutcome :=
  let results := files.map fun (file, content) => ofFile engine file content
  { fileCount := files.length
    diagnostics := results.flatMap fun (diagnostics, _) =>
      diagnostics.filter fun d => least.rank ≤ d.severity.rank
    failures := results.filterMap fun (_, failure) => failure }

/-- The number of diagnostics of a severity. -/
def count (o : CheckOutcome) (severity : Severity) : Nat :=
  o.diagnostics.countP (·.severity = severity)

/-- The number of errors, failures included. -/
def errorCount (o : CheckOutcome) : Nat := o.count .error + o.failures.length

/-- There is nothing to be shown. -/
def isClean (o : CheckOutcome) : Bool := o.diagnostics.isEmpty && o.failures.isEmpty

/-- The files are not in order: there are errors, or warnings where these count
as well. -/
def fails (o : CheckOutcome) (failOnWarnings : Bool) : Bool :=
  0 < o.errorCount || (failOnWarnings && 0 < o.count .warning)

end CheckOutcome

end DeclAnalysis
