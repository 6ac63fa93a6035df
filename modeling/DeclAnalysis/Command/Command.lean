import DeclAnalysis.Command.Arguments

/-!
# Commands

There are three commands: to check declaration trees, to explain a diagnostic
code, and to set up the settings of a project.
-/

namespace DeclAnalysis

/-- What is to be checked, and how. -/
structure CheckRequest where
  path : String
  format : String := "pretty"
  failOnWarnings : Bool := false
  /-- The name of the least severity that is shown. -/
  severity : Option String := none
  noColor : Bool := false
deriving DecidableEq, Repr, Inhabited

/-- A command. -/
inductive Command where
  | check (request : CheckRequest)
  | explain (code : String)
  | init (force : Bool)
deriving DecidableEq, Repr, Inhabited

/-- What a command line asks for. -/
inductive Invocation where
  | command (command : Command)
  | help
  | version
  | misuse
deriving DecidableEq, Repr, Inhabited

namespace Command

open CommandLine

/-- The options of every command. -/
def generalOptions : List OptionForm := [
  { name := .help, long := "help", short := some 'h' },
  { name := .logLevel, long := "log-level", hasValue := true
    values := ["trace", "debug", "info", "warn", "error"] },
  { name := .logJson, long := "log-json" }]

/-- The options in front of a command. -/
def frontGrammar : Grammar :=
  { operands := 0
    options := { name := .version, long := "version", short := some 'V' } :: generalOptions }

/-- The words of a check. -/
def checkGrammar : Grammar :=
  { operands := 1
    options := generalOptions ++ [
      { name := .format, long := "format", short := some 'f', hasValue := true },
      { name := .failOnWarnings, long := "fail-on-warnings" },
      { name := .severity, long := "severity", hasValue := true },
      { name := .noColor, long := "no-color" }] }

/-- The words of an explanation. -/
def explainGrammar : Grammar :=
  { operands := 1, emptyOperands := true, options := generalOptions }

/-- The words of a setup. -/
def initGrammar : Grammar :=
  { operands := 0
    options := generalOptions ++ [{ name := .force, long := "force", short := some 'f' }] }

/-- The check that words ask for. -/
def checkOf? (m : Matches) : Option Command :=
  m.operands.head?.map fun path =>
    .check {
      path
      format := (m.value? .format).getD "pretty"
      failOnWarnings := m.has .failOnWarnings
      severity := m.value? .severity
      noColor := m.has .noColor }

/-- The explanation that words ask for. -/
def explainOf? (m : Matches) : Option Command := m.operands.head?.map .explain

/-- The setup that words ask for. -/
def initOf? (m : Matches) : Option Command := some (.init (m.has .force))

/-- The names of the commands. -/
def names : List String := ["check", "init", "explain"]

end Command

namespace Invocation

open CommandLine Command

/-- What becomes of a command line that is not read to its end. -/
def ofStop : Stop → Invocation
  | .misuse => misuse
  | .help => help
  | .version => version

/-- What the words of a command ask for. -/
def ofMatches (read : Matches → Option Command) : Except Stop Matches → Invocation
  | .ok m => ((read m).map command).getD misuse
  | .error stop => ofStop stop

/-- What a request for help asks for; it may name a command. -/
def ofHelp : List String → Invocation
  | [] => help
  | [name] => if name = "help" || names.contains name then help else misuse
  | _ => misuse

/-- What a command line asks for. -/
def ofArguments (words : List String) : Invocation :=
  match readOptions frontGrammar {} words with
  | .error stop => ofStop stop
  | .ok (_, []) => misuse
  | .ok (_, "check" :: rest) => ofMatches checkOf? (readAll checkGrammar rest)
  | .ok (_, "explain" :: rest) => ofMatches explainOf? (readAll explainGrammar rest)
  | .ok (_, "init" :: rest) => ofMatches initOf? (readAll initGrammar rest)
  | .ok (_, "help" :: rest) => ofHelp rest
  | .ok _ => misuse

end Invocation

end DeclAnalysis
