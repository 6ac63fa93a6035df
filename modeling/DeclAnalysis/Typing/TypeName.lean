import DeclAnalysis.Text.Parts
import DeclAnalysis.Typing.Session
import DeclAnalysis.Tree.Expr

/-!
# Type names

A simple type name denotes the nearest class of that name, or else a built-in
type. A dotted name begins with the nearest namespace of its first part and
leads through nested namespaces to a class.
-/

namespace DeclAnalysis

namespace Model

/-- The class at the end of a path of nested namespaces below a namespace. -/
def classBelow? (m : Model) (ns : Nat) : List String → Option Nat
  | [] => none
  | [simple] => do m.scopes.memberClassifier? (← m.descriptors.namespaceMembers? ns) simple
  | segment :: rest => do
    let inner ← m.scopes.memberNamespace? (← m.descriptors.namespaceMembers? ns) segment
    m.classBelow? inner rest

/-- The type of a name in a scope. -/
def lookupType? (m : Model) (scope : Nat) (name : String) : Option Ty :=
  match Text.parts '.' name with
  | first :: second :: rest => do
    let ns ← m.scopes.namespace? scope first
    let c ← m.classBelow? ns (second :: rest)
    return m.descriptors.classType c
  | _ => (m.scopes.classifier? scope name).map m.descriptors.classType <|> Ty.builtin? name

end Model

namespace Analysis

/-- The type that a type reference denotes, which is recorded. A reference that
has been resolved before keeps its type, so a name that denotes nothing is
reported once. -/
def resolveTypeRef (scope : Nat) (ref : TypeRef) : Analysis Ty := do
  let s ← get
  match s.trace.typeReference? ref.id with
  | some type => return type
  | none =>
    let type ←
      match s.model.lookupType? scope ref.name with
      | some type => pure type
      | none => do
        let message := "Unresolved type: " ++ ref.name
        reportCode .unresolvedReference ref.id message
        pure (Ty.error message)
    recordTypeReference ref.id type
    return type

end Analysis

end DeclAnalysis
