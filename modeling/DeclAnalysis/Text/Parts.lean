/-!
# Parts of a text

A text is cut into parts at every occurrence of a separating character.
-/

namespace DeclAnalysis

namespace Text

/-- The parts of a text between separators; `part` holds the characters of the
first part that have been passed, the last one first. -/
def partsFrom (separator : Char) (part : List Char) : List Char → List String
  | [] => [String.ofList part.reverse]
  | c :: rest =>
    if c = separator then String.ofList part.reverse :: partsFrom separator [] rest
    else partsFrom separator (c :: part) rest

/-- The parts of a text between separators; there is always at least one. -/
def parts (separator : Char) (text : String) : List String :=
  partsFrom separator [] text.toList

end Text

end DeclAnalysis
