import DeclAnalysis.Proofs.Resolve.Completion

/-!
# Types are written once

No operation of an analysis replaces a type that is known, whatever the state in which it
starts and whether it stops with a fault or not. Together with the completeness of what an
analysis leaves behind, every type is thus written exactly once.
-/

namespace DeclAnalysis

open Session (Proceeds)

/-- No known type is replaced. -/
def PassState.WritesOnce (s s' : PassState) : Prop := s.descriptors.WritesOnce s'.descriptors

instance : IsPreorder PassState PassState.WritesOnce where
  refl s := .refl s.descriptors
  trans _ _ _ := .trans

namespace Pass

open Analysis
open PassState (Advances WritesOnce)

/-- The operations that an analysis is made of, as far as they change descriptors: the passes,
what they do about one declaration, and what the last pass does about the parts of a
declaration. -/
inductive Operation (options : AnalysisOptions) : {α : Type} → Pass α → Prop
  | allPasses (ds : List Declaration) : Operation options (allPasses options ds)
  -- classes and namespaces
  | collectAll (scope : Nat) (ds : List Declaration) :
      Operation options (collectAll options scope ds)
  | collect (scope : Nat) (d : Declaration) : Operation options (collect options scope d)
  | applyImport (scope : Nat) (i : ImportDirective) : Operation options (applyImport scope i)
  -- supertypes
  | resolveClasses : Operation options resolveClasses
  | resolveClass (scope : Nat) (head : ClassHead) (descriptor : Nat) :
      Operation options (liftM (resolveClass scope head descriptor))
  -- signatures
  | registerAll (scope : Nat) (ds : List Declaration) :
      Operation options (registerAll scope ds)
  | register (scope : Nat) (d : Declaration) : Operation options (register scope d)
  | registerClass (head : ClassHead) : Operation options (registerClass head)
  | resolvePrimaryConstructor (classId : Nat) (head : ClassHead) :
      Operation options (liftM (resolvePrimaryConstructor classId head))
  | resolveConstructor (scope classId : Nat) (decl : ConstructorDecl) :
      Operation options (liftM (resolveConstructor scope classId decl))
  | resolveFunction (scope : Nat) (container : Option Nat) (decl : FunctionDecl) :
      Operation options (liftM (resolveFunction scope container decl))
  | resolveGetter (scope property : Nat) (name : String) (type : Option Ty) (getter : Accessor) :
      Operation options (liftM (resolveGetter scope property name type getter))
  | resolveSetter (scope property : Nat) (name : String) (type : Option Ty) (setter : Accessor) :
      Operation options (liftM (resolveSetter scope property name type setter))
  | resolveProperty (scope : Nat) (container : Option Nat) (decl : PropertyDecl) :
      Operation options (liftM (resolveProperty scope container decl))
  | finalizeClasses : Operation options finalizeClasses
  -- bodies
  | resolveBodies : Operation options (resolveBodies options)
  | resolveDelegations (head : ClassHead) (descriptor : Nat) :
      Operation options (liftM (resolveDelegations head descriptor))
  | resolvePropertyBodies (scope : Nat) (decl : PropertyDecl) (property : Nat) :
      Operation options (liftM (resolvePropertyBodies options scope decl property))
  | resolveInitializer (scope property : Nat) (setter : Option Nat) (initializer : Expr) :
      Operation options (liftM (resolveInitializer scope property setter initializer))
  | resolveAccessors (decl : PropertyDecl) (property : Nat) (data : PropertyData) (scope : Nat) :
      Operation options (liftM (resolveAccessors options decl property data scope))
  | concludeProperty (decl : PropertyDecl) (property : Nat) :
      Operation options (liftM (concludeProperty decl property))
  | fillPropertyType (property : Nat) (type : Ty) :
      Operation options (liftM (onDescriptors (·.fillPropertyType property type)))
  | resolveFunctionLike (f : FunctionLike) (descriptor : Nat) :
      Operation options (resolveFunctionLike options f descriptor)
  | resolveFunctionBody (node : Nat) (body : Option Expr) (function scope : Nat) :
      Operation options (liftM (resolveFunctionBody options node body function scope))
  | resolveConstructorBody (properties : Nat → List Nat) (scope : Nat) (decl : ConstructorDecl)
      (constructor : Nat) :
      Operation options
        (liftM (resolveConstructorBody options properties scope decl constructor))

variable {α : Type} {options : AnalysisOptions}

theorem KeepsAwaited.writesOnce {x : Pass α} (h : KeepsAwaited x) : KeepsOr WritesOnce x :=
  h.keepsOr.mono fun _ _ h => h.writesOnce

theorem writesOnce_of_advances
    {nodes : List Nat} {x : Pass α} (h : KeepsOr (Advances nodes) x) : KeepsOr WritesOnce x :=
  h.mono fun _ _ h => h.proceeds.fills.writesOnce

theorem writesOnce_of_proceeds {nodes : List Nat} {x : FaultyAnalysis α}
    (h : KeepsOr (Proceeds nodes) x) : KeepsOr WritesOnce (liftM x : Pass α) :=
  writesOnce_of_advances (keepsOr_faultyAnalysis h)

theorem writesOnce_of_enlarges {x : FaultyAnalysis α}
    (h : ∀ s, AfterOk x s fun _ s' => s.descriptors.Enlarges s'.descriptors) :
    KeepsOr WritesOnce (liftM x : Pass α) := by
  refine KeepsOr.of_afterOr fun s => afterOr_faultyAnalysis.mpr ?_
  exact AfterOr.mono (h s.toSession) (fun _ _ h => h.writesOnce) fun _ _ => False.elim

theorem keepsOr_finalizeClasses : KeepsOr WritesOnce finalizeClasses :=
  .of_afterOk fun s => .finalizeClasses s.model.descriptors

theorem keepsOr_resolveBodies : KeepsOr WritesOnce (resolveBodies options) :=
  KeepsOr.of_afterOr fun s => AfterOr.mono (afterOr_resolveBodies_settles options s)
    (fun _ _ h => h.1.fills.writesOnce) fun _ _ h => h.fills.writesOnce

theorem keepsOr_allPasses (ds : List Declaration) :
    KeepsOr WritesOnce (allPasses options ds) := by
  refine (keepsAwaited_collectAll options toplevel ds).writesOnce.bind fun _ => ?_
  refine keepsAwaited_resolveClasses.writesOnce.bind fun _ => ?_
  refine (keepsAwaited_registerAll toplevel ds).writesOnce.bind fun _ => ?_
  exact keepsOr_finalizeClasses.bind fun _ => keepsOr_resolveBodies

/-- No operation replaces a type that is known. -/
theorem writesOnce_of_operation {x : Pass α} (h : Operation options x) :
    KeepsOr WritesOnce x := by
  cases h with
  | allPasses ds => exact keepsOr_allPasses ds
  | collectAll scope ds => exact (keepsAwaited_collectAll options scope ds).writesOnce
  | collect scope d => exact (keepsAwaited_collect options scope d).writesOnce
  | applyImport scope i => exact (keepsAwaited_applyImport scope i).writesOnce
  | resolveClasses => exact keepsAwaited_resolveClasses.writesOnce
  | resolveClass scope head descriptor =>
      exact (keepsAwaited_resolveClass scope head descriptor).writesOnce
  | registerAll scope ds => exact (keepsAwaited_registerAll scope ds).writesOnce
  | register scope d => exact (keepsAwaited_register scope d).writesOnce
  | registerClass head => exact (keepsAwaited_registerClass head).writesOnce
  | resolvePrimaryConstructor classId head =>
      exact (keepsAwaited_faultyAnalysis
        (afterOr_resolvePrimaryConstructor_adds classId head)).writesOnce
  | resolveConstructor scope classId decl =>
      exact writesOnce_of_enlarges fun s =>
        (afterOk_resolveConstructor_adds scope classId decl s).mono fun _ _ h => h.enlarges
  | resolveFunction scope container decl =>
      exact writesOnce_of_enlarges fun s =>
        (afterOk_resolveFunction_adds scope container decl s).mono fun _ _ h => h.enlarges
  | resolveGetter scope property name type getter =>
      exact writesOnce_of_enlarges fun s =>
        (afterOk_resolveGetter_adds scope property name type getter s).mono
          fun _ _ h => h.1.enlarges
  | resolveSetter scope property name type setter =>
      refine writesOnce_of_enlarges fun s => ?_
      refine (afterOk_resolveSetter_adds scope property name type setter s).mono fun _ _ h => ?_
      obtain ⟨v, -, -, hadds⟩ := h
      exact hadds.enlarges
  | resolveProperty scope container decl =>
      exact writesOnce_of_enlarges fun s =>
        (afterOk_resolveProperty_adds scope container decl s).mono fun _ _ h => h.1.enlarges
  | finalizeClasses => exact keepsOr_finalizeClasses
  | resolveBodies => exact keepsOr_resolveBodies
  | resolveDelegations head descriptor =>
      have hkeeps : KeepsOr (Proceeds head.nodes) (resolveDelegations head descriptor) :=
        keepsOr_resolveDelegations (List.tail_subset head.nodes) descriptor
      exact writesOnce_of_proceeds hkeeps
  | resolvePropertyBodies scope decl property =>
      exact writesOnce_of_proceeds
        (keepsOr_resolvePropertyBodies options (List.tail_subset decl.nodes) scope property)
  | resolveInitializer scope property setter initializer =>
      exact writesOnce_of_proceeds
        (.lift (keeps_resolveInitializer (List.Subset.refl initializer.nodes) ..))
  | resolveAccessors decl property data scope =>
      exact writesOnce_of_proceeds
        (keepsOr_resolveAccessors options (List.tail_subset decl.nodes) property data scope)
  | concludeProperty decl property =>
      have hkeeps : Keeps (Proceeds []) (concludeProperty decl property) :=
        keeps_concludeProperty decl property
      exact writesOnce_of_proceeds (.lift hkeeps)
  | fillPropertyType property type =>
      have hkeeps : Keeps (Proceeds []) (onDescriptors (·.fillPropertyType property type)) :=
        keeps_fillPropertyType property type
      exact writesOnce_of_proceeds (.lift hkeeps)
  | resolveFunctionLike f descriptor =>
      exact writesOnce_of_advances
        (keepsOr_resolveFunctionLike options (List.tail_subset f.nodes) descriptor)
  | resolveFunctionBody node body function scope =>
      exact writesOnce_of_proceeds
        (keepsOr_resolveFunctionBody options node (List.Subset.refl _) function scope)
  | resolveConstructorBody properties scope decl constructor =>
      have hkeeps : KeepsOr (Proceeds decl.nodes)
          (resolveConstructorBody options properties scope decl constructor) :=
        keepsOr_resolveConstructorBody options properties (List.tail_subset decl.nodes) ..
      exact writesOnce_of_proceeds hkeeps

end Pass

namespace SourceFile

/-- A class with a property, and a function, none of which declares a type. -/
def untyped : SourceFile :=
  ofDeclarations "untyped"
    [.classDecl { name := some "C" }
      [.propertyDecl {
        name := "x"
        mutable := true
        initializer := some (.constant 0 (.int 1))
        setter := some {} }],
     .functionDecl { name := "f", body := some (.constant 0 (.bool true)) }]

end SourceFile

end DeclAnalysis
