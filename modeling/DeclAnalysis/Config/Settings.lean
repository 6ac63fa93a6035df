import DeclAnalysis.Report
import DeclAnalysis.Toml.Value
import DeclAnalysis.Toml.Reader

/-!
# Settings

The settings of a project are a table with the directories that are not looked
into and a table `analysis` with the settings of the analysis, severities for
some codes among them. Every setting may be left out. A setting of the wrong
shape is refused; one that does not exist is only worth a warning.
-/

namespace DeclAnalysis

/-- The settings of a project. -/
structure Settings where
  /-- The names of directories that are not looked into. -/
  exclude : List String := []
  options : AnalysisOptions := {}
  /-- Severities under ids and names of codes, as they are written. -/
  severity : List (String × Severity) := []
deriving DecidableEq, Repr, Inhabited

namespace Settings

/-- The severities for the codes that exist. -/
def overrides (s : Settings) : SeverityOverrides :=
  s.severity.filterMap fun (key, severity) =>
    (DiagnosticCode.ofText? key).map fun code => (code, severity)

/-- The engine that follows the settings. -/
def engine (s : Settings) : Engine := { options := s.options, overrides := s.overrides }

end Settings

/-- Why a table does not hold settings. -/
inductive SettingFault where
  | wrongType (found : Toml) (expected : String)
  | unknownSeverity (name : String)
  /-- A severity is given as a table without any entry. -/
  | noEntry
  /-- A severity is given as a table with several entries. -/
  | manyEntries
  | severityExpected
  | emptyTableExpected
  | emptyArrayExpected
  | tableExpected (found : Toml)
deriving Repr, Inhabited

namespace SettingFault

/-- The severities that exist, for a message. -/
def severityNames : String :=
  String.intercalate ", " (Severity.all.map fun s => "\x60" ++ s.name ++ "\x60")

/-- The wording of a fault. -/
def message : SettingFault → String
  | wrongType found expected => "invalid type: " ++ found.foundText ++ ", expected " ++ expected
  | unknownSeverity name =>
    "unknown variant \x60" ++ name ++ "\x60, expected one of " ++ severityNames
  | noEntry => "wanted exactly 1 element, found 0 elements"
  | manyEntries => "wanted exactly 1 element, more than 1 element"
  | severityExpected => "wanted string or table"
  | emptyTableExpected => "expected empty table"
  | emptyArrayExpected => "expected empty array"
  | tableExpected found => "expected table, found " ++ found.typeName

end SettingFault

namespace Settings

/-- The outcome of reading a setting. -/
abbrev Result := Except SettingFault

/-- Reads a truth value. -/
def readBool : Toml → Result Bool
  | .boolean b => .ok b
  | other => .error (.wrongType other "a boolean")

/-- Reads a text. -/
def readString : Toml → Result String
  | .string s => .ok s
  | other => .error (.wrongType other "a string")

/-- Reads a list of texts. -/
def readStrings : Toml → Result (List String)
  | .array items | .tables items => items.mapM readString
  | other => .error (.wrongType other "a sequence")

/-- The severity of a name. -/
def namedSeverity (name : String) : Result Severity :=
  match Severity.ofName? name with
  | some severity => .ok severity
  | none => .error (.unknownSeverity name)

/-- Nothing may follow the name of a severity that is given as a table. -/
def readNothing : Toml → Result Unit
  | .table _ fields => if fields.isEmpty then .ok () else .error .emptyTableExpected
  | .array items => if items.isEmpty then .ok () else .error .emptyTableExpected
  | .tables items => if items.isEmpty then .ok () else .error .emptyArrayExpected
  | other => .error (.tableExpected other)

/-- Reads a severity: its name, or a table in which the name is the only key. -/
def readSeverity : Toml → Result Severity
  | .string name => namedSeverity name
  | .table _ [] => .error .noEntry
  | .table _ [(name, content)] => do
    let severity ← namedSeverity name
    readNothing content
    return severity
  | .table .. => .error .manyEntries
  | _ => .error .severityExpected

/-- Reads a table of severities. A date counts as a table whose one entry is the
text of the date, which names no severity. -/
def readSeverities : Toml → Result (List (String × Severity))
  | .table _ fields => fields.mapM fun (key, value) => return (key, ← readSeverity value)
  | .datetime d => .error (.unknownSeverity d.text)
  | other => .error (.wrongType other "a map")

/-- Reads one of the settings of the analysis; keys that it does not have are
passed over. -/
def readAnalysisField (s : Settings) (key : String) (value : Toml) : Result Settings := do
  match key with
  | "report_unreachable" => return { s with options.reportUnreachable := ← readBool value }
  | "default_namespace" => return { s with options.defaultNamespace := ← readString value }
  | "severity" => return { s with severity := ← readSeverities value }
  | _ => return s

/-- The keys of the settings of the analysis. -/
def analysisKeys : List String := ["report_unreachable", "default_namespace", "severity"]

/-- Reads the settings of the analysis. An array holds their values in order. A
date counts as a table without any of the keys. -/
def readAnalysis (s : Settings) : Toml → Result Settings
  | .table _ fields => fields.foldlM (fun s (key, value) => s.readAnalysisField key value) s
  | .array items | .tables items =>
    (analysisKeys.zip items).foldlM (fun s (key, value) => s.readAnalysisField key value) s
  | .datetime _ => .ok s
  | other => .error (.wrongType other "struct AnalysisConfig")

/-- The keys of the settings. -/
def keys : List String := ["exclude", "analysis"]

/-- Reads one of the settings; keys that do not exist are passed over. -/
def readField (s : Settings) (key : String) (value : Toml) : Result Settings := do
  match key with
  | "exclude" => return { s with exclude := ← readStrings value }
  | "analysis" => s.readAnalysis value
  | _ => return s

/-- The settings in a table, whose keys are read in their order. -/
def ofToml (fields : Toml.Fields) : Result Settings :=
  fields.foldlM (fun s (key, value) => s.readField key value) {}

/-- The keys of a table for which a test fails, sorted. -/
def strangeKeys (isKnown : String → Bool) (fields : Toml.Fields) : List String :=
  ((fields.map (·.1)).filter (!isKnown ·)).mergeSort (· ≤ ·)

/-- Warnings about the keys in a table of settings that mean nothing. There are
none if the tables that stand for dates are in disorder. -/
def warnings (fields : Toml.Fields) : List String :=
  let analysis := ((fields.lookup "analysis").bind Toml.ownFields?).getD []
  let severity := ((analysis.lookup "severity").bind Toml.ownFields?).getD []
  let about (what : String) (key : String) : String := what ++ ": '" ++ key ++ "'"
  if Toml.fieldDatesHold fields then
    (strangeKeys keys.contains fields).map (about "Unknown config option")
      ++ (strangeKeys analysisKeys.contains analysis).map
        (about "Unknown config option in [analysis]")
      ++ (strangeKeys (fun key => (DiagnosticCode.ofText? key).isSome) severity).map
        (about "Unknown diagnostic code in [analysis.severity]")
  else []

end Settings

end DeclAnalysis
