import DeclAnalysis.Files.Path

/-!
# Access to files

What a command needs to know of the files around it, and may do to them, is
given to it as a value. The same command thus runs on the files of a machine
and on files that are held in memory.
-/

namespace DeclAnalysis

/-- What may stand at a path. -/
inductive FileKind where
  | file
  | directory
deriving DecidableEq, Repr, Inhabited

/-- The names below a directory. Anything but files and directories is left
out. -/
inductive Listing where
  | file
  | directory (entries : List (String × Listing))
deriving Repr, Inhabited

/-- Access to files. Where reading or writing fails, the reason is a text. -/
structure Files (m : Type → Type) where
  /-- What stands at a path. -/
  kind? : String → m (Option FileKind)
  /-- The text of the file at a path. -/
  read : String → m (Except String String)
  /-- Everything below the directory at a path. -/
  listing : String → m Listing
  /-- Replaces the text of the file at a path, which need not exist. -/
  write : String → String → m (Except String Unit)
  /-- The absolute path from which relative ones start. -/
  workingDirectory : m String

namespace Files

/-- The reason for which bytes cannot be read as text. -/
def notText : String := "stream did not contain valid UTF-8"

/-- The reason for which a directory cannot be read or written as a file. -/
def isDirectory : String := "Is a directory (os error 21)"

/-- The reason for which something that does not exist cannot be read. -/
def notFound : String := "No such file or directory (os error 2)"

/-- The reason for which nothing lies below a file. -/
def notDirectory : String := "Not a directory (os error 20)"

end Files

end DeclAnalysis
