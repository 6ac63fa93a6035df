import DeclAnalysis.Command.Check
import DeclAnalysis.Command.Explain
import DeclAnalysis.Command.Init

/-!
# Carrying out command lines
-/

namespace DeclAnalysis

namespace Invocation

/-- How the program is used. -/
def usage : String :=
  "Usage: " ++ program.name ++ " [OPTIONS] <COMMAND>\n\n"
    ++ "Commands:\n"
    ++ "  check <PATH>    Analyze declaration trees for semantic errors\n"
    ++ "  init            Initialize Keel configuration in current directory\n"
    ++ "  explain <CODE>  Show detailed explanation for a diagnostic code\n"

/-- Carries out what a command line asks for. A command line that makes no sense
ends with the status 2. -/
def run {m : Type → Type} [Monad m] (files : Files m) (wish : Terminal.StyleWish) :
    Invocation → m Response
  | command (.check request) => request.run files wish
  | command (.explain text) => DiagnosticCode.explain files wish text
  | command (.init force) => Settings.setUp files wish force
  | help => return { output := usage }
  | version => return { output := program.name ++ " " ++ program.version ++ "\n" }
  | misuse => return { status := 2, errors := "error: unexpected arguments\n\n" ++ usage }

end Invocation

end DeclAnalysis
