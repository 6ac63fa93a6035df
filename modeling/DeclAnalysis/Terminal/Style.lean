import DeclAnalysis.Diagnostic

/-!
# Styled text

Text for a terminal may be emphasised and coloured by escape sequences: the
styles are switched on before the text and off again after it. Where styles are
not wanted the text stays plain.
-/

namespace DeclAnalysis

namespace Terminal

/-- A style of text. -/
inductive Style where
  | bold
  | dimmed
  | red
  | green
  | yellow
  | blue
  | cyan
deriving DecidableEq, Repr, Inhabited

/-- The number of a style in an escape sequence. -/
def Style.code : Style → Nat
  | .bold => 1
  | .dimmed => 2
  | .red => 31
  | .green => 32
  | .yellow => 33
  | .blue => 34
  | .cyan => 36

/-- What decides whether text is styled. -/
structure StyleWish where
  /-- Styles are demanded. -/
  forced : Bool
  /-- Styles are declined. -/
  declined : Bool
  /-- The output is a terminal that can show styles. -/
  capable : Bool
deriving DecidableEq, Repr, Inhabited

/-- Text is styled if that is demanded, or else if it is not declined and can be
shown. -/
def StyleWish.styled (w : StyleWish) : Bool := w.forced || (!w.declined && w.capable)

/-- A text in some styles, if text is styled at all. -/
def paint (styled : Bool) (styles : List Style) (text : String) : String :=
  if styled then
    let codes := String.intercalate ";" (styles.map fun s => toString s.code)
    "\x1b[" ++ codes ++ "m" ++ text ++ "\x1b[0m"
  else text

/-- The colour of a severity. -/
def severityStyle : Severity → Style
  | .error => .red
  | .warning => .yellow
  | .info => .blue
  | .hint => .cyan

/-- The name of a severity, emphasised. -/
def severityText (styled : Bool) (severity : Severity) : String :=
  paint styled [.bold, severityStyle severity] severity.name

end Terminal

end DeclAnalysis
