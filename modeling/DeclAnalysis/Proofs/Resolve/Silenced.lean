import DeclAnalysis.Proofs.Resolve.Mismatches
import DeclAnalysis.Proofs.Typing.Silenced

/-!
# Silencing unreachable code

Unreachable code is reported if an option says so. The option is read only where it is reported, so
two analyses of a file that differ in it find out the same, stop with the same fault if with any,
and report the same apart from what one of them says about unreachable code.
-/

namespace DeclAnalysis

namespace Analysis

open Session (silenced)

/-! ## Delegation lists and types of properties -/

theorem discreetOr_resolveDelegation
    (members : Nat) (hasPrimary : Bool) (specifier : DelegationSpecifier) :
    DiscreetOr (resolveDelegation members hasPrimary specifier) := by
  unfold resolveDelegation
  split
  · refine (discreet_infer ..).lift.bind fun type => ?_
    cases type with
    | none => exact .pure _
    | some actual =>
        refine (discreet_resolveTypeRef ..).lift.bind fun supertype => ?_
        refine .get_bind (fun s => ?_) fun _ => rfl
        split
        · exact (discreet_reportMismatch ..).lift
        · exact .pure _
  · exact (discreet_checkConstructorCall ..).lift
  · split
    · exact Discreet.lift (discreet_reportCode (by decide) ..)
    · exact .pure _
  · exact .throw _
  · exact .pure _
  · exact .pure _

theorem discreetOr_resolveDelegations (head : ClassHead) (descriptor : Nat) :
    DiscreetOr (resolveDelegations head descriptor) := by
  refine .get_bind (fun s => ?_) fun _ => rfl
  split
  · exact .throw _
  · exact MirrorsOr.forM _ fun specifier _ => discreetOr_resolveDelegation ..

theorem discreet_resolveInitializer
    (scope property : Nat) (setter : Option Nat) (initializer : Expr) :
    Discreet (resolveInitializer scope property setter initializer) := by
  refine (discreet_infer scope initializer).bind fun inferred => ?_
  refine .get_bind (fun s => ?_) fun _ => rfl
  refine (discreet_expectKnownType ..).bind fun _ => ?_
  cases inferred with
  | none => exact .pure _
  | some actual => exact discreet_onDescriptors _

theorem discreet_concludeField (decl : PropertyDecl) (property : Nat) :
    Discreet (concludeField decl property) := by
  have hinitializer : Discreet (judgeInitializer decl property) := by
    unfold judgeInitializer
    split
    · refine .get_bind (fun s => ?_) fun _ => rfl
      split
      · exact discreet_reportCode (by decide) ..
      · exact .pure _
    · exact .pure _
  unfold concludeField
  dsimp only
  split
  · exact (discreet_onRecorder (·.recordBackingField property)).bind fun _ => hinitializer
  · exact hinitializer

theorem discreet_concludeProperty (decl : PropertyDecl) (property : Nat) :
    Discreet (concludeProperty decl property) := by
  refine .get_bind (fun s => ?_) fun _ => rfl
  dsimp only
  split
  · refine Discreet.bind (discreet_reportCode (by decide) ..) fun _ => ?_
    exact (discreet_onDescriptors _).bind fun _ => discreet_concludeField decl property
  · exact discreet_concludeField decl property

theorem discreet_resolveConstructorInitializer
    (scope classId : Nat) (specifier : DelegationSpecifier) :
    Discreet (resolveConstructorInitializer scope classId specifier) := by
  unfold resolveConstructorInitializer
  split
  · exact discreet_checkConstructorCall ..
  · exact .pure _
  · exact .get_bind (fun s => discreet_checkClassConstructorCall ..) fun _ => rfl
  · exact discreet_reportCode (by decide) ..
  · exact discreet_reportCode (by decide) ..

/-! ## Bodies -/

section

variable {on off : AnalysisOptions} (hon : on.reportUnreachable = true)
  (hoff : off.reportUnreachable = false)

include hon hoff

/-- What is reported about unreachable code is left out when the session is silenced. -/
theorem mirrorsOr_reportUnreachable (flow : FlowInformation) (node : Nat) (body : Expr) :
    MirrorsOr silenced (reportUnreachable on flow node body)
      (reportUnreachable off flow node body) := by
  unfold reportUnreachable
  rw [hon, hoff]
  split
  · exact .throw _
  · refine MirrorsOr.forM_nothing _ fun element => MirrorsOr.lift (y := pure PUnit.unit) ?_
    exact ⟨fun s => congrArg (Prod.mk PUnit.unit) (s.silenced_push_unreachable rfl).symm⟩

theorem mirrorsOr_resolveFunctionBody
    (node : Nat) (body : Option Expr) (function scope : Nat) :
    MirrorsOr silenced (resolveFunctionBody on node body function scope)
      (resolveFunctionBody off node body function scope) := by
  refine MirrorsOr.get_bind fun s => ?_
  rw [Session.descriptors_silenced]
  cases body with
  | none =>
      dsimp only
      split
      · exact DiscreetOr.bind (discreet_reportCode (by decide) ..).lift fun _ =>
          discreetOr_tryDescriptors _
      · exact .pure _
  | some body =>
      refine MirrorsOr.bind (discreetOr_functionInnerScope ..) fun inner => ?_
      dsimp only
      split
      · exact MirrorsOr.bind (discreetOr_checkReturnType ..) fun _ =>
          mirrorsOr_reportUnreachable hon hoff ..
      · refine MirrorsOr.bind (discreetOr_inferReturnType ..) fun inferred => ?_
        exact MirrorsOr.bind (discreetOr_tryDescriptors _) fun _ =>
          mirrorsOr_reportUnreachable hon hoff ..

theorem mirrorsOr_resolveAccessors
    (decl : PropertyDecl) (property : Nat) (data : PropertyData) (scope : Nat) :
    MirrorsOr silenced (resolveAccessors on decl property data scope)
      (resolveAccessors off decl property data scope) := by
  have hsetter : MirrorsOr silenced (resolveSetterBody on decl data scope)
      (resolveSetterBody off decl data scope) := by
    unfold resolveSetterBody
    split
    · exact mirrorsOr_resolveFunctionBody hon hoff ..
    · exact .pure _
  unfold resolveAccessors
  dsimp only
  split
  · refine MirrorsOr.bind (mirrorsOr_resolveFunctionBody hon hoff ..) fun _ => ?_
    refine MirrorsOr.get_bind fun s => ?_
    rw [Session.descriptors_silenced]
    split
    · exact MirrorsOr.bind (discreet_onDescriptors _).lift fun _ => hsetter
    · exact hsetter
  · exact hsetter

theorem mirrorsOr_resolvePropertyBodies (scope : Nat) (decl : PropertyDecl) (property : Nat) :
    MirrorsOr silenced (resolvePropertyBodies on scope decl property)
      (resolvePropertyBodies off scope decl property) := by
  refine MirrorsOr.get_bind fun s => ?_
  rw [Session.descriptors_silenced]
  split
  · exact .throw _
  rename_i data _
  have hrest : MirrorsOr silenced (finishProperty on scope decl property data)
      (finishProperty off scope decl property data) := by
    refine MirrorsOr.bind (discreet_createScope ..).lift fun accessorScope => ?_
    refine MirrorsOr.bind (discreet_onScopes _).lift fun _ => ?_
    refine MirrorsOr.bind (mirrorsOr_observed _ ?_) fun _ => ?_
    · exact mirrorsOr_resolveAccessors hon hoff ..
    · exact (discreet_concludeProperty decl property).lift
  dsimp only
  split
  · exact MirrorsOr.bind (discreet_resolveInitializer ..).lift fun _ => hrest
  · exact hrest

theorem mirrorsOr_resolveConstructorParts (scope classId : Nat) (decl : ConstructorDecl) :
    MirrorsOr silenced (resolveConstructorParts on scope classId decl)
      (resolveConstructorParts off scope classId decl) := by
  refine MirrorsOr.bind (MirrorsOr.forM _ fun specifier _ => ?_) fun _ => ?_
  · exact (discreet_resolveConstructorInitializer scope classId specifier).lift
  · split
    · exact MirrorsOr.bind (discreet_infer ..).lift fun _ =>
        mirrorsOr_reportUnreachable hon hoff ..
    · exact .pure _

theorem mirrorsOr_resolveConstructorBody
    (properties : Nat → List Nat) (scope : Nat) (decl : ConstructorDecl) (constructor : Nat) :
    MirrorsOr silenced (resolveConstructorBody on properties scope decl constructor)
      (resolveConstructorBody off properties scope decl constructor) := by
  refine MirrorsOr.get_bind fun s => ?_
  rw [Session.descriptors_silenced]
  split
  · exact .throw _
  · refine MirrorsOr.bind (discreet_createScope ..).lift fun fieldScope => ?_
    refine MirrorsOr.get_bind fun s => ?_
    rw [Session.descriptors_silenced]
    refine MirrorsOr.bind (discreet_onScopes _).lift fun _ => ?_
    refine MirrorsOr.bind (discreetOr_functionInnerScope ..) fun inner => ?_
    refine MirrorsOr.bind (mirrorsOr_observed _ ?_) fun violations => ?_
    · exact mirrorsOr_resolveConstructorParts hon hoff ..
    · exact MirrorsOr.forM _ fun node _ =>
        Discreet.lift (discreet_reportCode (by decide) ..)

end

end Analysis

/-! ## Passes -/

/-- The state without what has been reported about unreachable code. -/
def PassState.silenced (s : PassState) : PassState :=
  { s with toSession := s.toSession.silenced }

@[simp] theorem PassState.toSession_silenced (s : PassState) :
    s.silenced.toSession = s.toSession.silenced := rfl

@[simp] theorem PassState.tables_silenced (s : PassState) : s.silenced.tables = s.tables := rfl

namespace Pass

open Analysis
open PassState (silenced)

variable {α β : Type}

theorem mirrorsOr_faultyAnalysis
    {x y : FaultyAnalysis α} (h : MirrorsOr Session.silenced x y) :
    MirrorsOr silenced (liftM x : Pass α) (liftM y) := by
  have hlift : ∀ (x : FaultyAnalysis α) (s : PassState), (liftM x : Pass α).run.run s =
      ((x.run.run s.toSession).1, { s with toSession := (x.run.run s.toSession).2 }) :=
    fun _ _ => rfl
  refine ⟨fun s => ?_⟩
  rw [hlift, hlift, PassState.toSession_silenced, h.run_eq]
  rfl

theorem mirrorsOr_ofExcept (e : Except Fault α) : MirrorsOr silenced (ofExcept e) (ofExcept e) := by
  cases e with
  | ok a => exact .pure a
  | error fault => exact .throw fault

theorem mirrorsOr_tables : MirrorsOr silenced tables tables := ⟨fun _ => rfl⟩

/-- What has been reported is not looked at. -/
theorem mirrorsOr_session_bind
    {f : Session → Pass β} (hf : ∀ s, MirrorsOr silenced (f s) (f s))
    (hsame : ∀ s : Session, f s.silenced = f s) :
    MirrorsOr silenced (session >>= f) (session >>= f) :=
  ⟨fun s => (congrArg (fun x : Pass β => x.run.run s.silenced) (hsame s.toSession)).trans
    ((hf s.toSession).run_eq s)⟩

section

variable {on off : AnalysisOptions} (hon : on.reportUnreachable = true)
  (hoff : off.reportUnreachable = false)

include hon hoff

theorem mirrorsOr_resolveFunctionLike (f : FunctionLike) (descriptor : Nat) :
    MirrorsOr silenced (resolveFunctionLike on f descriptor)
      (resolveFunctionLike off f descriptor) := by
  refine mirrorsOr_tables.bind fun tables => (mirrorsOr_ofExcept _).bind fun scope => ?_
  have hrequire : MirrorsOr silenced (do
      if ((← session).descriptors.returnType? descriptor).isNone then
        throw (.at_ f.id .returnTypeUnset) : Pass Unit) (do
      if ((← session).descriptors.returnType? descriptor).isNone then
        throw (.at_ f.id .returnTypeUnset)) := by
    refine mirrorsOr_session_bind (fun s => ?_) fun _ => rfl
    split
    · exact .throw _
    · exact .pure _
  cases f with
  | function decl =>
      exact (mirrorsOr_faultyAnalysis (mirrorsOr_resolveFunctionBody hon hoff ..)).bind
        fun _ => hrequire
  | constructor decl =>
      exact (mirrorsOr_faultyAnalysis (mirrorsOr_resolveConstructorBody hon hoff ..)).bind
        fun _ => hrequire

/-- The last pass does the same apart from what it reports about unreachable code. -/
theorem mirrorsOr_resolveBodies :
    MirrorsOr silenced (resolveBodies on) (resolveBodies off) := by
  refine mirrorsOr_tables.bind fun tables => ?_
  refine MirrorsOr.bind (MirrorsOr.forM _ fun entry _ => ?_) fun _ => ?_
  · exact mirrorsOr_faultyAnalysis (discreetOr_resolveDelegations entry.1 entry.2)
  refine MirrorsOr.bind (MirrorsOr.forM _ fun entry _ => ?_) fun _ => ?_
  · exact (mirrorsOr_ofExcept _).bind fun scope =>
      mirrorsOr_faultyAnalysis (mirrorsOr_resolvePropertyBodies hon hoff ..)
  · exact MirrorsOr.forM _ fun entry _ => mirrorsOr_resolveFunctionLike hon hoff ..

end

/-! ## Analyses -/

theorem collectNamespace_congr
    {options options' : AnalysisOptions}
    (h : options.defaultNamespace = options'.defaultNamespace) :
    collectNamespace options = collectNamespace options' := by
  unfold collectNamespace
  rw [h]

mutual

/-- Of the options only the name of nameless namespaces plays a role in the first pass. -/
theorem collect_congr
    {options options' : AnalysisOptions}
    (h : options.defaultNamespace = options'.defaultNamespace) (scope : Nat) (d : Declaration) :
    collect options scope d = collect options' scope d := by
  match d with
  | .classDecl head members =>
      rw [collect, collect]
      exact congrArg _ (funext fun inner => collectAll_congr h inner members)
  | .namespaceDecl head members =>
      rw [collect, collect, collectNamespace_congr h]
      exact congrArg _ (funext fun inner => collectAll_congr h inner members)
  | .classObject _ members =>
      rw [collect, collect]
      exact collectAll_congr h scope members
  | .typedefDecl .. | .extensionDecl .. | .functionDecl _ | .propertyDecl _ | .constructorDecl _ =>
      rw [collect, collect]

theorem collectAll_congr
    {options options' : AnalysisOptions}
    (h : options.defaultNamespace = options'.defaultNamespace) (scope : Nat)
    (ds : List Declaration) : collectAll options scope ds = collectAll options' scope ds := by
  match ds with
  | [] => rw [collectAll, collectAll]
  | d :: rest => rw [collectAll, collectAll, collect_congr h scope d, collectAll_congr h scope rest]

end

theorem declarationPasses_congr
    {options options' : AnalysisOptions}
    (h : options.defaultNamespace = options'.defaultNamespace) (ds : List Declaration) :
    declarationPasses options ds = declarationPasses options' ds := by
  unfold declarationPasses
  rw [collectAll_congr h]

/-- Nothing is said about unreachable code before the last pass. -/
theorem silenced_declarationPasses
    (options : AnalysisOptions) {ds : List Declaration} (hds : (Declaration.nodesOf ds).Nodup) :
    AfterAny (declarationPasses options ds) initialState fun s => s.silenced = s := by
  refine AfterAny.mono (afterAny_declarationPasses_remarks options ds hds) fun s hs => ?_
  have hfilter : s.diagnostics.filter (fun d => d.code ≠ .unreachableCode) = s.diagnostics := by
    refine Array.filter_eq_self.mpr fun d hd => decide_eq_true ?_
    intro hcode
    exact (hs d (Array.mem_toList_iff.mpr hd) (.inr hcode)).1 hcode
  exact congrArg (fun ds => { s with diagnostics := ds }) hfilter

/-- All passes do the same apart from what they report about unreachable code. -/
theorem run_allPasses_silenced
    (on off : AnalysisOptions) (hon : on.reportUnreachable = true)
    (hoff : off.reportUnreachable = false) (h : on.defaultNamespace = off.defaultNamespace)
    {ds : List Declaration} (hds : (Declaration.nodesOf ds).Nodup) :
    (allPasses off ds).run.run initialState =
      (((allPasses on ds).run.run initialState).1,
        ((allPasses on ds).run.run initialState).2.silenced) := by
  rw [allPasses_eq, allPasses_eq, ← declarationPasses_congr h ds]
  rw [ExceptT.run_bind, ExceptT.run_bind, StateT.run_bind, StateT.run_bind]
  have hsilenced := (silenced_declarationPasses on hds).snd_run
  generalize (declarationPasses on ds).run.run initialState = outcome at hsilenced ⊢
  obtain ⟨fault | _, s⟩ := outcome
  · exact congrArg (Prod.mk _) hsilenced.symm
  · have hrun := (mirrorsOr_resolveBodies hon hoff).run_eq s
    rw [hsilenced] at hrun
    exact hrun

end Pass

namespace SourceFile

/-- Silencing unreachable code changes nothing else. Two analyses of a file that differ in whether
unreachable code is reported stop with the same fault, if with any, and arrive at the same model and
the same trace; the diagnostics of the one are those of the other, in their order, without those of
unreachable code. -/
theorem analyze_silenced {file : SourceFile} (hfile : file.Obtained) (options : AnalysisOptions) :
    let on := file.analyze { options with reportUnreachable := true }
    let off := file.analyze { options with reportUnreachable := false }
    off.fault = on.fault ∧ off.session.model = on.session.model ∧
      off.session.recorder = on.session.recorder ∧
        off.session.diagnostics.toList =
          on.session.diagnostics.toList.filter fun d => d.code ≠ .unreachableCode := by
  obtain ⟨name, ds, rfl⟩ := hfile.exists_eq_ofDeclarations
  intro on off
  have hnodes : (Declaration.nodesOf (ofDeclarations name ds).declarations).Nodup :=
    (pairwise_nodes_ofDeclarations name ds).imp Nat.ne_of_lt
  have hrun := Pass.run_allPasses_silenced { options with reportUnreachable := true }
    { options with reportUnreachable := false } rfl rfl rfl hnodes
  have hoff : off = ⟨on.fault, on.session.silenced⟩ := by
    unfold on off analyze
    rw [hrun]
    generalize (Pass.allPasses _ _).run.run Pass.initialState = outcome
    obtain ⟨fault | _, s⟩ := outcome
    · rfl
    · rfl
  rw [hoff]
  exact ⟨rfl, rfl, rfl, Array.toList_filter⟩

/-- A function that goes on after it has returned, and one that returns the wrong type. -/
def chatty : SourceFile :=
  ofDeclarations "chatty"
    [.functionDecl {
      name := "f"
      returnType := some { name := "Int" }
      body := some (.block 0 [.ret 0 (some (.constant 0 (.int 1))), .name 0 "x"]) },
     .functionDecl {
      name := "g"
      returnType := some { name := "Int" }
      body := some (.block 0 [.ret 0 (some (.constant 0 (.bool true)))]) }]

set_option maxRecDepth 20000 in
/-- The second of three reports is about unreachable code, and it alone is left out. -/
theorem analyze_silenced_chatty :
    let on := chatty.analyze { reportUnreachable := true }
    let off := chatty.analyze { reportUnreachable := false }
    on.session.diagnostics.toList.map Diagnostic.content =
        [(.unresolvedReference, 6, "Unresolved reference: x"),
         (.unreachableCode, 6, "Unreachable code"),
         (.typeMismatch, 11, "Type mismatch: inferred type is Boolean but Int was expected")] ∧
      chatty.Obtained ∧ off.fault = on.fault ∧ off.session.model = on.session.model ∧
        off.session.recorder = on.session.recorder ∧
          off.session.diagnostics.toList =
            on.session.diagnostics.toList.filter fun d => d.code ≠ .unreachableCode := by
  intro on off
  have hobtained : chatty.Obtained := .ofDeclarations ..
  exact ⟨by decide +kernel, hobtained, analyze_silenced hobtained {}⟩

end SourceFile

end DeclAnalysis
