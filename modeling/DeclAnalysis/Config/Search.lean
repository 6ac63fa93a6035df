import DeclAnalysis.Config.Settings
import DeclAnalysis.Files.Access

/-!
# The settings of a project

The settings of a project lie in a file of a fixed name. It is looked for in the
directory where work starts, in the one around it, and so on; the first one
found counts.
-/

namespace DeclAnalysis

namespace Settings

/-- The name of the file with the settings. -/
def fileName : String := "keel.toml"

/-- Why settings cannot be loaded from a file. -/
inductive LoadFault where
  | unreadable (reason : String)
  /-- The text of the file is not TOML, or holds neither settings nor dates where
  it should. -/
  | malformed
  | setting (fault : SettingFault)
deriving Repr, Inhabited

namespace LoadFault

/-- The wording of a fault of the file at a path. -/
def message (path : String) : LoadFault → String
  | unreadable reason => "Failed to read config file '" ++ path ++ "': " ++ reason
  | malformed => "Invalid TOML in '" ++ path ++ "': malformed document"
  | setting fault => "Invalid TOML in '" ++ path ++ "': " ++ fault.message

end LoadFault

/-- Settings together with the warnings that they give rise to. -/
structure Loaded where
  settings : Settings := {}
  warnings : List String := []
deriving DecidableEq, Repr, Inhabited

/-- The settings that a text holds. -/
def ofText (text : String) : Except LoadFault Loaded :=
  match Toml.ofText? text with
  | none => .error .malformed
  | some fields =>
    match ofToml fields with
    | .ok settings => .ok ⟨settings, warnings fields⟩
    | .error fault =>
      .error (if Toml.fieldDatesHold fields then .setting fault else .malformed)

/-- The paths at which settings are looked for, in their order. -/
def candidates (start : String) : List String :=
  (Path.upwards start).map (Path.join · fileName)

section Access

variable {m : Type → Type} [Monad m] (files : Files m)

/-- The first of several paths at which there is something. -/
def firstExisting? : List String → m (Option String)
  | [] => return none
  | path :: rest => do
    match ← files.kind? path with
    | some _ => return some path
    | none => firstExisting? rest

/-- The path of the settings for work that starts at a path. -/
def find? (start : String) : m (Option String) := firstExisting? files (candidates start)

/-- Loads the settings from the file at a path. -/
def load (path : String) : m (Except LoadFault Loaded) := do
  match ← files.read path with
  | .error reason => return .error (.unreadable reason)
  | .ok text => return ofText text

/-- The settings for work that starts at a path. Without a file that holds
settings there are none, and nothing is said about it. -/
def loadOrDefault (start : String) : m Loaded := do
  match ← find? files start with
  | none => return {}
  | some path =>
    match ← load files path with
    | .ok loaded => return loaded
    | .error _ => return {}

end Access

end Settings

end DeclAnalysis
