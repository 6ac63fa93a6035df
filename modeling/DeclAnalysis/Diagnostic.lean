import DeclAnalysis.Semantic.Ty

/-!
# Diagnostics

A problem of the analysed program is reported as a diagnostic: a code that says
what kind of problem it is, the node where it lies, a message and a severity.
-/

namespace DeclAnalysis

/-- How grave a diagnostic is. -/
inductive Severity where
  | error
  | warning
  | info
  | hint
deriving DecidableEq, Repr, Inhabited

namespace Severity

/-- The name of the severity. -/
def name : Severity → String
  | error => "error"
  | warning => "warning"
  | info => "info"
  | hint => "hint"

/-- All severities, the gravest first. -/
def all : List Severity := [error, warning, info, hint]

/-- The severity of a name. -/
def ofName? (name : String) : Option Severity := all.find? (·.name = name)

end Severity

/-- The kinds of problems. -/
inductive DiagnosticCode where
  | typeMismatch
  | unreachableCode
  | misplacedConstructor
  | unsupportedConstruct
  | initializerNotAllowed
  | missingReturnTypeAndBody
  | constructorParametersRequired
  | backingFieldMisuse
  | unresolvedReference
  | semanticError
deriving DecidableEq, Repr, Inhabited

namespace DiagnosticCode

/-- What there is to know about a code. -/
structure Metadata where
  id : String
  name : String
  description : String
  severity : Severity
  /-- A piece of program that has the problem. -/
  sample : String
deriving DecidableEq, Repr

/-- All codes, in the order of their ids. -/
def all : List DiagnosticCode :=
  [typeMismatch, unreachableCode, misplacedConstructor, unsupportedConstruct,
    initializerNotAllowed, missingReturnTypeAndBody, constructorParametersRequired,
    backingFieldMisuse, unresolvedReference, semanticError]

/-- What there is to know about each code. -/
def metadata : DiagnosticCode → Metadata
  | typeMismatch => {
      id := "K001"
      name := "type-mismatch"
      description :=
        "An expression's type is not compatible with the type expected at its position."
      severity := .error
      sample := "fun answer(): Int = \"forty-two\"" }
  | unreachableCode => {
      id := "K002"
      name := "unreachable-code"
      description := "Code that no control-flow path from the start of its body can reach."
      severity := .warning
      sample := "fun f(): Int \x7b return 1; 2 \x7d" }
  | misplacedConstructor => {
      id := "K003"
      name := "misplaced-constructor"
      description := "A secondary constructor declared outside of a class body."
      severity := .error
      sample := "namespace app \x7b this(x: Int) \x7b\x7d \x7d" }
  | unsupportedConstruct => {
      id := "K004"
      name := "unsupported-construct"
      description :=
        "A construct the analyzer recognizes but does not support, such as class objects or "
          ++ "lambdas inside flow-checked bodies."
      severity := .error
      sample := "class A \x7b class object \x7b \x7d \x7d" }
  | initializerNotAllowed => {
      id := "K005"
      name := "initializer-not-allowed"
      description := "A read-only property with an initializer but no backing field to store it."
      severity := .error
      sample := "val x: Int = 1 get() = 2" }
  | missingReturnTypeAndBody => {
      id := "K006"
      name := "missing-return-type-and-body"
      description :=
        "A function with neither a declared return type nor a body to infer one from."
      severity := .error
      sample := "fun f()" }
  | constructorParametersRequired => {
      id := "K007"
      name := "constructor-parameters-required"
      description :=
        "A supertype is named without constructor arguments where a constructor call is "
          ++ "required."
      severity := .error
      sample := "class B(x: Int) : A" }
  | backingFieldMisuse => {
      id := "K008"
      name := "backing-field-misuse"
      description :=
        "A \x60$name\x60 backing-field access to a property that has no backing field."
      severity := .error
      sample := "val x: Int get() = 1; this() \x7b $x = 2 \x7d" }
  | unresolvedReference => {
      id := "K009"
      name := "unresolved-reference"
      description := "A name or type reference that does not resolve in any enclosing scope."
      severity := .error
      sample := "fun f(): Missing = unknown" }
  | semanticError => {
      id := "K010"
      name := "semantic-error"
      description :=
        "Other semantic errors: invalid delegation, call arguments that match no signature, "
          ++ "reassigned values."
      severity := .error
      sample := "class A(x: Int) \x7b constructor() : A by x \x7d" }

/-- The short identifier of the code. -/
def id (code : DiagnosticCode) : String := code.metadata.id

/-- The severity that the code has unless it is configured otherwise. -/
def defaultSeverity (code : DiagnosticCode) : Severity := code.metadata.severity

/-- Equality of texts up to the case of the letters from A to Z. -/
def sameLetters (s t : String) : Bool :=
  s.toList.map Char.toLower = t.toList.map Char.toLower

/-- The code of an id, in any case of letters, or of a name. -/
def ofText? (text : String) : Option DiagnosticCode :=
  all.find? fun code => sameLetters code.id text || code.metadata.name = text

/-- What a message says about a text that is no code. -/
def unknownMessage (text : String) : String := "unknown diagnostic code '" ++ text ++ "'"

end DiagnosticCode

/-- A problem of the analysed program. -/
structure Diagnostic where
  code : DiagnosticCode
  severity : Severity
  message : String
  node : Nat
deriving DecidableEq, Repr, Inhabited

namespace Diagnostic

/-- A diagnostic with the default severity of its code. -/
def ofCode (code : DiagnosticCode) (node : Nat) (message : String) : Diagnostic :=
  ⟨code, code.defaultSeverity, message, node⟩

/-- The diagnostic of an expression whose type is not the expected one. -/
def mismatch (node : Nat) (expected actual : Ty) : Diagnostic :=
  ofCode .typeMismatch node
    ("Type mismatch: inferred type is " ++ actual.text ++ " but " ++ expected.text
      ++ " was expected")

/-- The diagnostic of an element after which a subroutine is done without a
known value. -/
def unsupportedElement (node : Nat) : Diagnostic :=
  ofCode .unsupportedConstruct node "Unsupported by control-flow builder"

end Diagnostic

end DeclAnalysis
