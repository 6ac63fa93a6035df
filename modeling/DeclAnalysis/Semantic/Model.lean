import DeclAnalysis.Semantic.Scope
import DeclAnalysis.Semantic.Descriptor

/-!
# The semantic model

The scopes and descriptors of one analysis. The first scope is the root.
-/

namespace DeclAnalysis

/-- The scopes and descriptors of one analysis. -/
structure Model where
  scopes : ScopeTree
  descriptors : DescriptorTable
deriving Inhabited

namespace Model

/-- The index of the root scope. -/
def root : Nat := 0

/-- The model in which there is nothing but the root scope. -/
def initial : Model := ⟨(ScopeTree.create {} .root none none).2, {}⟩

/-- Binds parameters by their names. -/
def bindParameters (m : Model) (scope : Nat) (parameters : List Nat) : Model :=
  { m with
    scopes := parameters.foldl
      (fun t p => t.addVariable scope (m.descriptors.name p) p) m.scopes }

/-- Adds the scope of the body of a function or constructor, in which its
parameters are bound. -/
def functionInnerScope (m : Model) (outer function : Nat) : Except Fault (Nat × Model) :=
  match m.descriptors.signature? function with
  | none => .error (.internal none (.noSignature (m.descriptors.name function)))
  | some s =>
    let (scope, scopes) := m.scopes.create .function (some outer) (some function)
    .ok (scope, { m with scopes }.bindParameters scope s.parameters)

/-- The nearest class around a scope. -/
def containingClass? (m : Model) (scope : Nat) : Option Nat :=
  (m.scopes.ancestors scope).filterMap (fun id => (m.scopes.get id).owner)
    |>.find? fun id => (m.descriptors.classData? id).isSome

end Model

end DeclAnalysis
