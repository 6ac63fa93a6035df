import DeclAnalysis.Diagnostic
import DeclAnalysis.Semantic.Model
import DeclAnalysis.Semantic.Trace

/-!
# Sessions

Typing reads and extends three things: the model, the trace and the list of
diagnostics. Together they form a session. Typing itself never fails; whatever
is wrong with a program becomes a diagnostic and an error type.
-/

namespace DeclAnalysis

/-- The state of an analysis. -/
structure Session where
  model : Model := .initial
  recorder : Recorder := {}
  /-- What has been reported so far, in the order of the reports. -/
  diagnostics : Array Diagnostic := #[]
deriving Inhabited

/-- A computation on a session that cannot fail. -/
abbrev Analysis := StateM Session

/-- A computation on a session that may stop with a fault; the session is then
left as it is. -/
abbrev FaultyAnalysis := ExceptT Fault Analysis

namespace Session

/-- The trace of the session. -/
def trace (s : Session) : Trace := s.recorder.trace

/-- The scopes of the session. -/
def scopes (s : Session) : ScopeTree := s.model.scopes

/-- The descriptors of the session. -/
def descriptors (s : Session) : DescriptorTable := s.model.descriptors

end Session

namespace Analysis

/-- Reports a diagnostic. -/
def report (d : Diagnostic) : Analysis Unit :=
  modify fun s => { s with diagnostics := s.diagnostics.push d }

/-- Reports a problem with the default severity of its code. -/
def reportCode (code : DiagnosticCode) (node : Nat) (message : String) : Analysis Unit :=
  report (.ofCode code node message)

/-- Reports that an expression does not have the expected type. -/
def reportMismatch (node : Nat) (expected actual : Ty) : Analysis Unit :=
  report (.mismatch node expected actual)

/-- Changes the recorder. -/
def onRecorder (f : Recorder → Recorder) : Analysis Unit :=
  modify fun s => { s with recorder := f s.recorder }

/-- Records what a node declares. -/
def recordDeclaration (node descriptor : Nat) : Analysis Unit :=
  onRecorder (·.recordDeclaration node descriptor)

/-- Records what a node refers to. -/
def recordReference (node : Nat) (kind : ReferenceKind) (descriptor : Nat) : Analysis Unit :=
  onRecorder (·.recordReference node kind descriptor)

/-- Records the type of an expression. -/
def recordExpressionType (node : Nat) (type : Ty) : Analysis Unit :=
  onRecorder (·.recordExpressionType node type)

/-- Records what a type reference denotes. -/
def recordTypeReference (node : Nat) (type : Ty) : Analysis Unit :=
  onRecorder (·.recordTypeReference node type)

/-- Records that a property has a backing field. -/
def recordBackingField (property : Nat) : Analysis Unit :=
  onRecorder (·.recordBackingField property)

/-- Changes the scopes. -/
def onScopes (f : ScopeTree → ScopeTree) : Analysis Unit :=
  modify fun s => { s with model.scopes := f s.model.scopes }

/-- Changes the descriptors. -/
def onDescriptors (f : DescriptorTable → DescriptorTable) : Analysis Unit :=
  modify fun s => { s with model.descriptors := f s.model.descriptors }

/-- Adds a scope and gives back its index. -/
def createScope (kind : ScopeKind) (parent owner : Option Nat) : Analysis Nat :=
  modifyGet fun s =>
    let (id, scopes) := s.model.scopes.create kind parent owner
    (id, { s with model.scopes := scopes })

/-- Adds a write-through scope and gives back its index. -/
def createWriteThrough (outer target : Nat) : Analysis Nat :=
  modifyGet fun s =>
    let (id, scopes) := s.model.scopes.createWriteThrough outer target
    (id, { s with model.scopes := scopes })

/-- Adds a descriptor and gives back its index. -/
def createDescriptor (name : String) (container : Option Nat) (kind : DescriptorKind) :
    Analysis Nat :=
  modifyGet fun s =>
    let (id, descriptors) := s.model.descriptors.create name container kind
    (id, { s with model.descriptors := descriptors })

/-- Changes the descriptors in a way that may be refused. -/
def tryDescriptors (f : DescriptorTable → Except Fault DescriptorTable) :
    FaultyAnalysis Unit := do
  match f (← get).model.descriptors with
  | .ok descriptors => onDescriptors fun _ => descriptors
  | .error fault => throw fault

/-- Adds the scope of the body of a function or constructor and gives back its
index. -/
def functionInnerScope (outer function : Nat) : FaultyAnalysis Nat := do
  match (← get).model.functionInnerScope outer function with
  | .ok (scope, model) =>
    modify fun s => { s with model }
    return scope
  | .error fault => throw fault

/-- Runs a computation under the eyes of an observer and gives back the nodes
that it noted. The observer is taken away also if the computation stops. -/
def observed (o : Observer) (run : FaultyAnalysis Unit) : FaultyAnalysis (List Nat) :=
  ExceptT.mk do
    onRecorder (·.watch o)
    let outcome ← run.run
    let noted ← modifyGet fun s =>
      let (noted, recorder) := s.recorder.unwatch
      (noted, { s with recorder })
    return outcome.map fun _ => noted

end Analysis

end DeclAnalysis
