import DeclAnalysis.Check.Discovery
import DeclAnalysis.Check.Display
import DeclAnalysis.Command.Command
import DeclAnalysis.Command.Response
import DeclAnalysis.Config.Search

/-!
# The check of a project

The declaration trees at a path are checked with the settings that apply there.
The check fails if an error, or a warning where these count as well, is among
the diagnostics that are shown.
-/

namespace DeclAnalysis

namespace CheckRequest

open Terminal

/-- Text is styled; both the option and the wish against styles prevail. -/
def styled (r : CheckRequest) (wish : StyleWish) : Bool :=
  !r.noColor && !wish.declined && wish.styled

/-- The least severity that is shown, if there is one of the given name. -/
def least? (r : CheckRequest) : Option Severity :=
  match r.severity with
  | none => some .hint
  | some name => Severity.ofName? name

/-- The outcome in the wanted form; there are paragraphs for an unknown one. -/
def display (r : CheckRequest) (styled : Bool) (workingDirectory : String) (o : CheckOutcome) :
    String :=
  match r.format with
  | "json" => (o.document workingDirectory r.path).pretty ++ "\n"
  | "text" => o.lines styled
  | _ => o.pretty styled

/-- The warnings about the settings. -/
def warningLines (styled : Bool) (warnings : List String) : String :=
  String.join <| warnings.map fun w => paint styled [.bold, .yellow] "warning:" ++ " " ++ w ++ "\n"

/-- The response to a check whose files have been read. -/
def respond (r : CheckRequest) (styled : Bool) (workingDirectory : String) (settings : Settings)
    (least : Severity) (files : List (String × Except String String)) : Response :=
  if files.isEmpty then
    { output := "No declaration trees (" ++ Discovery.treeSuffix ++ ") found.\n" }
  else
    let outcome := CheckOutcome.ofFiles settings.engine least files
    { status := if outcome.fails r.failOnWarnings then 1 else 0
      output := r.display styled workingDirectory outcome }

/-- Carries out a check. -/
def run {m : Type → Type} [Monad m] (files : Files m) (wish : StyleWish) (r : CheckRequest) :
    m Response := do
  let styled := r.styled wish
  let loaded ← Settings.loadOrDefault files r.path
  let warnings := warningLines styled loaded.warnings
  match ← Discovery.find? files loaded.settings.exclude r.path, r.least? with
  | none, _ => return (Response.failure ("Path does not exist: " ++ r.path)).after warnings
  | some _, none =>
    let name := r.severity.getD ""
    let valid := String.intercalate ", " (Severity.all.map Severity.name)
    return (Response.failure
      ("Invalid severity '" ++ name ++ "'. Valid values: " ++ valid)).after warnings
  | some paths, some least =>
    let contents ← paths.mapM fun path => return (path, ← files.read path)
    let workingDirectory ← files.workingDirectory
    return (r.respond styled workingDirectory loaded.settings least contents).after warnings

end CheckRequest

end DeclAnalysis
