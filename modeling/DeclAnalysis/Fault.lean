/-!
# Faults

A problem of the analysed program is a diagnostic and never stops the analysis.
A fault does: the tree uses a construct that is not handled, or the passes meet
a state that they should have excluded. The causes are listed here together
with their wording.
-/

namespace DeclAnalysis

/-- A construct that is recognised but not handled. -/
inductive Construct where
  | typedef
  | extension
  | importFromRoot
  | singleNameImport
deriving DecidableEq, Repr, Inhabited

/-- How a message calls the construct. -/
def Construct.text : Construct → String
  | typedef => "typedef"
  | extension => "extension"
  | importFromRoot => "import from the root namespace"
  | singleNameImport => "single-name import"

/-- An expectation of the passes that does not hold. -/
inductive Broken where
  /-- Nothing was emitted at the position that the label stands for. -/
  | labelUnbound (label : Nat)
  | noGraph
  | flowForbidden
  | noDeclaringScope
  | namespaceNotCollected
  | classNotCollected
  | namespaceExpected
  | classExpected
  | propertyExpected
  | constructorWithoutClass
  | thisCallInClass
  | returnTypeUnset
  | returnTypeNotYetSet
  /-- The named descriptor takes no parameters. -/
  | noSignature (name : String)
  /-- The named descriptor has no return type. -/
  | notAFunction (name : String)
  /-- The named descriptor is of another kind than a class. -/
  | notAClass (name kind : String)
  /-- The named class may no longer be changed. -/
  | finalized (name : String)
deriving DecidableEq, Repr, Inhabited

/-- What a message says about the expectation. -/
def Broken.text : Broken → String
  | labelUnbound label => "label " ++ toString label ++ " was never bound"
  | noGraph => "no pseudocode for subroutine"
  | flowForbidden => "flow information requested where none is available"
  | noDeclaringScope => "declaration has no declaring scope"
  | namespaceNotCollected => "namespace was not collected"
  | classNotCollected => "class was not collected"
  | namespaceExpected => "namespace descriptor expected"
  | classExpected => "class descriptor expected"
  | propertyExpected => "property descriptor expected"
  | constructorWithoutClass => "constructor without a class"
  | thisCallInClass => "this-call in a class delegation list"
  | returnTypeUnset => "return type unset after body resolution"
  | returnTypeNotYetSet => "return type checked before it was set"
  | noSignature name => "\x60" ++ name ++ "\x60 has no function signature"
  | notAFunction name => "\x60" ++ name ++ "\x60 is not a function"
  | notAClass name kind => "\x60" ++ name ++ "\x60 is a " ++ kind ++ ", not a class"
  | finalized name => "class \x60" ++ name ++ "\x60 modified after finalization"

/-- Why an analysis was given up. -/
inductive Fault where
  | internal (node : Option Nat) (broken : Broken)
  | notImplemented (node : Nat) (construct : Construct)
deriving DecidableEq, Repr, Inhabited

namespace Fault

/-- A broken expectation about a node. -/
abbrev at_ (node : Nat) (broken : Broken) : Fault := internal (some node) broken

/-- The node that the fault is about. -/
def node? : Fault → Option Nat
  | internal node _ => node
  | notImplemented node _ => some node

/-- How a message calls a node. -/
def nodeText (node : Nat) : String := "#" ++ toString node

/-- The wording of the fault. -/
def message : Fault → String
  | internal none broken => "internal error: " ++ broken.text
  | internal (some node) broken =>
    "internal error at node " ++ nodeText node ++ ": " ++ broken.text
  | notImplemented node construct =>
    "not implemented: " ++ construct.text ++ " (node " ++ nodeText node ++ ")"

end Fault

end DeclAnalysis
