import DeclAnalysis.Resolve.Tables
import DeclAnalysis.Typing.Infer

/-!
# Collecting classes and namespaces

The first pass makes all classes and namespaces known, so that the names of
types can be resolved later wherever they are declared. A namespace may be
declared in several parts; the parts share one descriptor. Import directives
take effect at once, and so see only what has been collected before them.
-/

namespace DeclAnalysis

namespace Pass

open Analysis

/-- Makes a class known in a scope and gives back the scope of its members. -/
def collectClass (scope : Nat) (head : ClassHead) : Pass Nat := do
  let name := head.name.getD noNameProvided
  let container := (← session).scopes.containingDeclaration? scope
  let members ← createScope .classScope (some scope) none
  let descriptor ←
    createDescriptor name container
      (.classKind false { memberScope := members, declaringScope := scope })
  onScopes fun t => (t.setOwner members descriptor).addClassifier scope name descriptor
  recordDeclaration head.id descriptor
  onTables (·.addClass head descriptor scope)
  return members

/-- Makes a new namespace known in a scope and gives back its descriptor. -/
def declareNamespace (scope : Nat) (name : String) (node : Nat) : Pass Nat := do
  let container := (← session).scopes.containingDeclaration? scope
  let members ← createScope .namespaceScope none none
  let descriptor ← createDescriptor name container (.namespaceKind members)
  onScopes fun t => (t.setOwner members descriptor).addNamespace scope name descriptor
  recordDeclaration node descriptor
  return descriptor

/-- Makes the members of what an expression denotes visible in a scope. -/
def importMembers (scope : Nat) (imported : Expr) : Pass Unit := do
  match ← (infer scope imported : Analysis (Option Ty)) with
  | none => return
  | some type =>
    match (← session).descriptors.memberScope? type with
    | some members => onScopes (·.importScope scope members)
    | none =>
      if !type.isError then
        reportCode .semanticError imported.id
          ("Cannot import members of '" ++ type.text ++ "'")

/-- Applies an import directive. Only the import of all members of something
that is visible is handled. -/
def applyImport (scope : Nat) (i : ImportDirective) : Pass Unit := do
  if i.absoluteInRoot then throw (.notImplemented i.id .importFromRoot)
  if !i.allUnder then throw (.notImplemented i.id .singleNameImport)
  match i.imported with
  | none => return
  | some imported => importMembers scope imported

/-- Finds or declares a namespace and gives back the scope of the contents of the
declaration at hand: it looks up names through `scope` and keeps its bindings
among the members of the namespace. -/
def collectNamespace (options : AnalysisOptions) (scope : Nat) (head : NamespaceHead) :
    Pass Nat := do
  let name := head.name.getD options.defaultNamespace
  let descriptor ←
    match (← session).scopes.memberNamespace? scope name with
    | some known => pure known
    | none => declareNamespace scope name head.id
  match (← session).descriptors.namespaceMembers? descriptor with
  | none => throw (.at_ head.id .namespaceExpected)
  | some members =>
    let inner ← createWriteThrough scope members
    onTables fun t => { t with namespaceScopes := t.namespaceScopes.insert head.id inner }
    head.imports.forM (applyImport inner)
    return inner

mutual

/-- Makes known what a declaration declares. A class object is transparent: its
members belong to what is around it. -/
def collect (options : AnalysisOptions) (scope : Nat) : Declaration → Pass Unit
  | .classDecl head members => do
    let inner ← collectClass scope head
    collectAll options inner members
  | .namespaceDecl head members => do
    let inner ← collectNamespace options scope head
    collectAll options inner members
  | .typedefDecl id _ => throw (.notImplemented id .typedef)
  | .extensionDecl id _ => throw (.notImplemented id .extension)
  | .classObject _ members => collectAll options scope members
  | .functionDecl _ | .propertyDecl _ | .constructorDecl _ => return

/-- Makes known what several declarations declare. -/
def collectAll (options : AnalysisOptions) (scope : Nat) : List Declaration → Pass Unit
  | [] => return
  | d :: rest => do
    collect options scope d
    collectAll options scope rest

end

end Pass

end DeclAnalysis
