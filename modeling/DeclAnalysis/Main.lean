import DeclAnalysis.Command.Run

/-!
# The program

The program gives its commands access to the files of the machine, prints their
response and ends with its status.
-/

namespace DeclAnalysis

namespace Machine

/-- The reason that an error of the machine gives. -/
def reasonOf : IO.Error → String
  | .noFileOrDirectory _ code details
  | .permissionDenied _ code details
  | .inappropriateType _ code details
  | .invalidArgument _ code details
  | .resourceExhausted _ code details
  | .noSuchThing _ code details
  | .alreadyExists _ code details => details ++ " (os error " ++ toString code ++ ")"
  | error => toString error

/-- What stands at a path; links are followed. Whatever is neither a file nor a
directory counts as a directory without entries. -/
def kind? (path : String) : IO (Option FileKind) := do
  try
    match (← (System.mkFilePath [path]).metadata).type with
    | .file => return some .file
    | _ => return some .directory
  catch _ => return none

/-- The text of a file. -/
def read (path : String) : IO (Except String String) := do
  try
    let bytes ← IO.FS.readBinFile path
    match String.fromUTF8? bytes with
    | some text => return .ok text
    | none => return .error Files.notText
  catch error => return .error (reasonOf error)

/-- Writes a file. -/
def write (path text : String) : IO (Except String Unit) := do
  try
    IO.FS.writeFile path text
    return .ok ()
  catch error => return .error (reasonOf error)

/-- Everything below a directory. Links are not followed, and directories that
cannot be read count as empty. -/
partial def listing (path : String) : IO Listing := do
  let entries ← try (System.mkFilePath [path]).readDir catch _ => pure #[]
  let listed ← entries.toList.filterMapM fun entry => do
    let below := Path.join path entry.fileName
    let type ← try pure (← (System.mkFilePath [below]).symlinkMetadata).type catch _ => pure .other
    match type with
    | .file => return some (entry.fileName, Listing.file)
    | .dir => return some (entry.fileName, ← listing below)
    | _ => return none
  return .directory listed

/-- Access to the files of the machine. -/
def files : Files IO where
  kind? := kind?
  read := read
  listing := listing
  write := write
  workingDirectory := return (← IO.currentDir).toString

/-- A variable of the environment is set to something other than zero, or else to
the default. -/
def isOn (name : String) (default : Bool) : IO Bool := do
  match ← IO.getEnv name with
  | some value => return value ≠ "0"
  | none => return default

/-- Whether styled text is wanted, according to the environment. -/
def styleWish : IO Terminal.StyleWish := do
  let terminal ← (← IO.getStdout).isTty
  return {
    forced := ← isOn "CLICOLOR_FORCE" false
    declined := (← IO.getEnv "NO_COLOR").isSome
    capable := (← isOn "CLICOLOR" true) && terminal }

end Machine

end DeclAnalysis

open DeclAnalysis in
/-- Runs the program. -/
def main (arguments : List String) : IO UInt32 := do
  let wish ← Machine.styleWish
  let response ← (Invocation.ofArguments arguments).run Machine.files wish
  (← IO.getStderr).putStr response.errors
  (← IO.getStdout).putStr response.output
  return response.status.toUInt32
