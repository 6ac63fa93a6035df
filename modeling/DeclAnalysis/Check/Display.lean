import DeclAnalysis.Check.Outcome
import DeclAnalysis.Json.Printer
import DeclAnalysis.Terminal.Style

/-!
# Showing what a check has found out

The outcome of a check is shown in one of three forms: in paragraphs with hints
for a reader, one line for each problem, or as a JSON document. Failures come
before diagnostics, except in the document.
-/

namespace DeclAnalysis

/-- The name and version of the program. -/
structure Program where
  name : String
  version : String
deriving DecidableEq, Repr, Inhabited

/-- The program of this library. -/
def program : Program := ⟨"keel", "0.1.0"⟩

namespace CheckOutcome

open Terminal

/-- A number of things, in words. -/
def counted (n : Nat) (thing : String) : String :=
  toString n ++ " " ++ thing ++ (if n = 1 then "" else "s")

/-! ### Paragraphs -/

/-- The paragraph about a failure. -/
def failureParagraph (styled : Bool) (f : FileFailure) : String :=
  severityText styled .error ++ ": " ++ f.message ++ "\n  "
    ++ paint styled [.blue] "-->" ++ " " ++ f.file ++ "\n"

/-- The paragraph about a diagnostic. -/
def diagnosticParagraph (styled : Bool) (d : FileDiagnostic) : String :=
  let code := d.diagnostic.code.id
  severityText styled d.severity ++ "[" ++ paint styled [.dimmed] code ++ "]: "
    ++ d.diagnostic.message ++ "\n  "
    ++ paint styled [.blue] "-->" ++ " " ++ d.file ++ ": " ++ d.label ++ " "
    ++ paint styled [.dimmed] ("(" ++ Fault.nodeText d.diagnostic.node ++ ")") ++ "\n   "
    ++ paint styled [.blue] "=" ++ " " ++ paint styled [.green] "note:"
    ++ " run \x60" ++ program.name ++ " explain " ++ code ++ "\x60 for details\n"

/-- The last paragraph, with the number of problems. -/
def summary (styled : Bool) (o : CheckOutcome) : String :=
  let total := o.diagnostics.length + o.failures.length
  "\nFound " ++ paint styled [.bold] (toString total)
    ++ (if total = 1 then " problem (" else " problems (")
    ++ paint styled [.red] (counted o.errorCount "error") ++ ", "
    ++ paint styled [.yellow] (counted (o.count .warning) "warning") ++ ")\n"

/-- The outcome in paragraphs. -/
def pretty (styled : Bool) (o : CheckOutcome) : String :=
  String.join (o.failures.map (failureParagraph styled))
    ++ String.join (o.diagnostics.map (diagnosticParagraph styled))
    ++ (if o.isClean then "" else summary styled o)

/-! ### Lines -/

/-- The line about a failure. -/
def failureLine (styled : Bool) (f : FileFailure) : String :=
  f.file ++ ": " ++ severityText styled .error ++ ": " ++ f.message ++ "\n"

/-- The line about a diagnostic. -/
def diagnosticLine (styled : Bool) (d : FileDiagnostic) : String :=
  d.file ++ ": " ++ d.label ++ ": " ++ severityText styled d.severity ++ " ["
    ++ paint styled [.dimmed] d.diagnostic.code.id ++ "]: " ++ d.diagnostic.message ++ "\n"

/-- The outcome in lines. -/
def lines (styled : Bool) (o : CheckOutcome) : String :=
  String.join (o.failures.map (failureLine styled))
    ++ String.join (o.diagnostics.map (diagnosticLine styled))
    ++ (if o.isClean then ""
      else
        "\nFound " ++ toString o.errorCount ++ " error(s) and " ++ toString (o.count .warning)
          ++ " warning(s)\n")

/-! ### A document -/

/-- A natural number as a JSON value. -/
def natural (n : Nat) : Json := .number (.integer n)

/-- A diagnostic as a JSON value. -/
def diagnosticDocument (d : FileDiagnostic) : Json :=
  let code := d.diagnostic.code.metadata
  .object [
    ("code", .string code.id),
    ("name", .string code.name),
    ("severity", .string d.severity.name),
    ("message", .string d.diagnostic.message),
    ("location", .object [
      ("file", .string d.file),
      ("node", natural d.diagnostic.node),
      ("label", .string d.label)])]

/-- A failure as a JSON value. -/
def failureDocument (f : FileFailure) : Json :=
  .object [("file", .string f.file), ("message", .string f.message)]

/-- The files with a diagnostic or a failure, each once. -/
def filesWithIssues (o : CheckOutcome) : List String :=
  (o.diagnostics.map FileDiagnostic.file ++ o.failures.map FileFailure.file).eraseDups

/-- The outcome of a check of `path` as a JSON value. -/
def document (workingDirectory path : String) (o : CheckOutcome) : Json :=
  .object [
    ("version", .string "1.0"),
    ("metadata", .object [
      (program.name ++ "_version", .string program.version),
      ("working_directory", .string workingDirectory),
      ("analyzed_path", .string path)]),
    ("summary", .object [
      ("total_files", natural o.fileCount),
      ("files_with_issues", natural o.filesWithIssues.length),
      ("failed_files", natural o.failures.length),
      ("total_diagnostics", natural o.diagnostics.length),
      ("by_severity", .object (Severity.all.map fun s => (s.name, natural (o.count s))))]),
    ("diagnostics", .array (o.diagnostics.map diagnosticDocument)),
    ("failures", .array (o.failures.map failureDocument))]

end CheckOutcome

end DeclAnalysis
