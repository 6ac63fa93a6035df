/-!
# Responses

A command ends with a status and two texts: what it has to say, and what it has
to say about errors.
-/

namespace DeclAnalysis

/-- What a command leaves behind for the one who gave it. -/
structure Response where
  status : Nat := 0
  output : String := ""
  errors : String := ""
deriving DecidableEq, Repr, Inhabited

namespace Response

/-- The command has failed for a reason. -/
def failure (reason : String) : Response := { status := 1, errors := "Error: " ++ reason ++ "\n" }

/-- The response with something said about errors before. -/
def after (errors : String) (r : Response) : Response := { r with errors := errors ++ r.errors }

end Response

end DeclAnalysis
