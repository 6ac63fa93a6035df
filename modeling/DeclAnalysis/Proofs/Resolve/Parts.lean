import DeclAnalysis.Resolve.Run

/-!
# Parts of the passes

Several steps of the passes end in the same way whichever way they begin. These ends have names of
their own here, so that what holds of them is stated and proved once for all beginnings.
-/

namespace DeclAnalysis

/-- Sets the type of what a setter takes, if it is still open. -/
def DescriptorTable.fillSetterValue
    (t : DescriptorTable) (setter : Option Nat) (type : Ty) : DescriptorTable :=
  match setter.bind t.setterValue? with
  | none => t
  | some v => t.editVariable v fun v => { v with type := v.type <|> some type }

namespace Analysis

/-- Gives a getter its return type, if that is known, and records what its node declares. -/
def declareGetter (getter : Accessor) (function : Nat) (type : Option Ty) : FaultyAnalysis Nat := do
  if let some type := type then setReturnType function type
  recordDeclaration getter.id function
  return function

/-- Resolves the body of a function whose return type is known. -/
def checkFunctionBody
    (options : AnalysisOptions) (node : Nat) (body : Option Expr) (function scope : Nat) :
    FaultyAnalysis Unit := do
  match body with
  | none => return
  | some body =>
    let flow := FlowInformation.data (.ofBody node body)
    let inner ← functionInnerScope scope function
    checkReturnType flow inner node (some body) function
    reportUnreachable options flow node body

/-- Resolves the setter of a property that has one. -/
def resolveSetterBody
    (options : AnalysisOptions) (decl : PropertyDecl) (data : PropertyData) (scope : Nat) :
    FaultyAnalysis Unit := do
  if let (some accessor, some setter) := (decl.setter, data.setter) then
    resolveFunctionBody options accessor.id accessor.body setter scope

/-- Reports the initializer of a property that may not be changed and cannot store it. -/
def judgeInitializer (decl : PropertyDecl) (property : Nat) : Analysis Unit := do
  if let some initializer := decl.initializer then
    if !decl.mutable && !(← get).trace.hasBackingField property then
      reportCode .initializerNotAllowed initializer.id initializerNotAllowed

/-- Settles the backing field of a property after its bodies have been resolved. -/
def concludeField (decl : PropertyDecl) (property : Nat) : Analysis Unit := do
  if !hasAccessorBody decl then recordBackingField property
  if let some initializer := decl.initializer then
    if !decl.mutable && !(← get).trace.hasBackingField property then
      reportCode .initializerNotAllowed initializer.id initializerNotAllowed

/-- Resolves the accessors of a property and settles it, whether or not it has an initializer. -/
def finishProperty
    (options : AnalysisOptions) (scope : Nat) (decl : PropertyDecl) (property : Nat)
    (data : PropertyData) : FaultyAnalysis Unit := do
  let accessorScope ← createScope .accessor (some scope) none
  onScopes (·.addField accessorScope decl.name property)
  let _ ← observed (.tracker property) (resolveAccessors options decl property data accessorScope)
  concludeProperty decl property

end Analysis

namespace Pass

open Analysis

/-- Opens the scope of the contents of a namespace declaration and applies its imports. -/
def openContents (scope : Nat) (head : NamespaceHead) (descriptor : Nat) : Pass Nat := do
  match (← session).descriptors.namespaceMembers? descriptor with
  | none => throw (.at_ head.id .namespaceExpected)
  | some members =>
    let inner ← createWriteThrough scope members
    onTables fun t => { t with namespaceScopes := t.namespaceScopes.insert head.id inner }
    head.imports.forM (applyImport inner)
    return inner

/-- An import directive stops the pass, has no effect or imports what it names. -/
theorem applyImport_cases
    {p : Pass Unit → Prop} (scope : Nat) (i : ImportDirective)
    (hthrow : ∀ fault, p (throw fault)) (hpure : p (pure ()))
    (himport : ∀ imported, i.imported = some imported → p (importMembers scope imported)) :
    p (applyImport scope i) := by
  unfold applyImport
  dsimp only
  split
  · exact hthrow _
  · split
    · exact hthrow _
    · split
      · exact hpure
      · rename_i imported himported
        exact himport imported himported

end Pass

end DeclAnalysis
