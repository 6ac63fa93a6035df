import DeclAnalysis.Command.Response
import DeclAnalysis.Config.Search
import DeclAnalysis.Terminal.Style

/-!
# The explanation of a code

A diagnostic code is explained by what there is to know about it. Its severity
is mentioned twice if the settings of the project change it.
-/

namespace DeclAnalysis

namespace DiagnosticCode

open Terminal

/-- The name of a severity, coloured. -/
def colouredSeverity (styled : Bool) (severity : Severity) : String :=
  paint styled [severityStyle severity] severity.name

/-- A line of an explanation. -/
def topic (styled : Bool) (name content : String) : String :=
  "  " ++ paint styled [.cyan] name ++ ":" ++ content ++ "\n"

/-- The explanation of a code that has some severity in the settings. -/
def explanation (styled : Bool) (code : DiagnosticCode) (configured : Severity) : String :=
  let m := code.metadata
  "\n" ++ paint styled [.bold] ("Diagnostic " ++ m.id) ++ "\n\n"
    ++ topic styled "Name" (" " ++ m.name)
    ++ topic styled "Description" (" " ++ m.description)
    ++ topic styled "Default severity" (" " ++ colouredSeverity styled m.severity)
    ++ (if configured = m.severity then ""
      else topic styled "Configured severity" (" " ++ colouredSeverity styled configured))
    ++ "\n" ++ topic styled "Example" ""
    ++ String.join ((Text.parts '\n' m.sample).map fun line => "    " ++ line ++ "\n")
    ++ "\n"

/-- What is said about a text that is no code. -/
def unknownText (styled : Bool) (text : String) : String :=
  paint styled [.bold, .red] "error:" ++ " Unknown diagnostic code '" ++ text
    ++ "'\n\nAvailable codes:\n"
    ++ String.join (all.map fun code => "  " ++ code.id ++ " (" ++ code.metadata.name ++ ")\n")

/-- Explains the code of a text. -/
def explain {m : Type → Type} [Monad m] (files : Files m) (wish : StyleWish) (text : String) :
    m Response := do
  match ofText? text with
  | none => return { status := 1, errors := unknownText wish.styled text }
  | some code =>
    let loaded ← Settings.loadOrDefault files (← files.workingDirectory)
    let configured := loaded.settings.overrides.severity code code.defaultSeverity
    return { output := explanation wish.styled code configured }

end DiagnosticCode

end DeclAnalysis
