import DeclAnalysis.Command.Response
import DeclAnalysis.Config.Search
import DeclAnalysis.Terminal.Style

/-!
# The setup of a project

A new project gets a file with settings, most of them commented out.
-/

namespace DeclAnalysis

namespace Settings

open Terminal

/-- The lines of a new file with settings. -/
def templateLines : List String := [
  "# Keel configuration file",
  "",
  "# Directories skipped when looking for *.keel.json declaration trees",
  "# exclude = [\"build\", \"fixtures\"]",
  "",
  "[analysis]",
  "# Report statements no control-flow path can reach (K002)",
  "report_unreachable = true",
  "",
  "# Name given to namespaces declared without one",
  "# default_namespace = \"<no name provided>\"",
  "",
  "# Override diagnostic severity, by id or name",
  "[analysis.severity]",
  "# K002 = \"error\"",
  "# semantic-error = \"warning\""]

/-- The text of a new file with settings. -/
def template : String := String.join (templateLines.map (· ++ "\n"))

/-- Sets up the settings of a project. Those that exist are only replaced if
that is asked for. -/
def setUp {m : Type → Type} [Monad m] (files : Files m) (wish : StyleWish) (force : Bool) :
    m Response := do
  if (← files.kind? fileName).isSome && !force then
    return .failure
      ("Config file '" ++ fileName ++ "' already exists. Use --force to overwrite.")
  match ← files.write fileName template with
  | .error reason => return .failure reason
  | .ok () =>
    return {
      output :=
        paint wish.styled [.bold, .green] "✓" ++ " Created "
          ++ paint wish.styled [.cyan] fileName ++ " configuration file\n" }

end Settings

end DeclAnalysis
