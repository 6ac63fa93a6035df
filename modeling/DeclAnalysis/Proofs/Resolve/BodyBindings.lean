import DeclAnalysis.Proofs.Resolve.Located
import DeclAnalysis.Proofs.Resolve.Outcome
import DeclAnalysis.Proofs.Resolve.SurveyedPasses

/-!
# What bodies bind

Resolving bodies leaves the symbols alone that have been registered before, with one exception.
The initializer of a property and the delegation list of a class have no scope of their own:
what they declare outside of blocks is bound in the scope that the property stands in, or in that
of the members of the class, and may take the place of what has been registered there.
-/

namespace DeclAnalysis

namespace PassState

/-- The scopes of the first state keep their bindings, apart from variables that may be leaked. -/
structure SparesSymbols (s s' : PassState) : Prop where
  classifiers_eq : ∀ scope, scope < s.scopes.size →
    (s'.scopes.bindings scope).classifiers = (s.scopes.bindings scope).classifiers
  namespaces_eq : ∀ scope, scope < s.scopes.size →
    (s'.scopes.bindings scope).namespaces = (s.scopes.bindings scope).namespaces
  functions_eq : ∀ scope, scope < s.scopes.size →
    (s'.scopes.bindings scope).functions = (s.scopes.bindings scope).functions
  fields_eq : ∀ scope, scope < s.scopes.size →
    (s'.scopes.bindings scope).fields = (s.scopes.bindings scope).fields
  values_eq : ∀ scope, scope < s.scopes.size → ∀ name,
    ¬s.MayLeak (s.scopes.storage scope) name →
      (s'.scopes.bindings scope).values[name]? = (s.scopes.bindings scope).values[name]?

variable {s s' : PassState}

/-- A frame that allows what may be leaked spares the symbols. -/
theorem SparesSymbols.of_within
    {fr : Session.Frame} (h : fr.Within s.toSession s'.toSession) (hformed : s.model.Formed)
    (hbound : fr.bound = s.scopes.size) (hmay : ∀ {id name}, fr.mayBind id name → s.MayLeak id name) :
    s.SparesSymbols s' := by
  have hstorage : ∀ scope, s'.scopes.storage scope = s.scopes.storage scope := h.storage_eq hformed
  have hlt : ∀ {scope}, scope < s.scopes.size → s.scopes.storage scope < fr.bound := by
    intro scope hscope
    rw [hbound]
    exact hformed.ordered.storage_lt hscope
  have hbindings : ∀ scope,
      s'.scopes.bindings scope = (s'.scopes.get (s.scopes.storage scope)).bindings :=
    fun scope => congrArg (fun id => (s'.scopes.get id).bindings) (hstorage scope)
  refine ⟨fun scope _ => ?_, fun scope _ => ?_, fun scope hscope => ?_, fun scope hscope => ?_,
    fun scope hscope name hname => ?_⟩
  · rw [hbindings]
    exact h.nests.classifiers_eq _
  · rw [hbindings]
    exact h.nests.namespaces_eq _
  · rw [hbindings]
    exact h.spares.functions_eq _ (hlt hscope)
  · rw [hbindings]
    exact h.spares.fields_eq _ (hlt hscope)
  · rw [hbindings]
    exact h.spares.values_eq _ (hlt hscope) name fun hmayBind => hname (hmay hmayBind)

end PassState

namespace Pass

open PassState (SparesSymbols)

/-- The passes before bodies are resolved. -/
def declarationPasses (options : AnalysisOptions) (declarations : List Declaration) :
    Pass Unit := do
  collectAll options toplevel declarations
  resolveClasses
  registerAll toplevel declarations
  let _ ← finalizeClasses

theorem allPasses_eq (options : AnalysisOptions) (ds : List Declaration) :
    allPasses options ds = (do
      declarationPasses options ds
      resolveBodies options) := by
  simp only [allPasses, declarationPasses, bind_assoc, pure_bind]

/-- The survey in which every name may denote any type. -/
def anyType : Space → String → Ty → Prop := fun _ _ _ => True

/-- Where names of types may denote anything, it is enough that all scopes exist. -/
theorem surveyed_of_located
    {s : PassState} (hs : s.Located) (options : AnalysisOptions) {ds : List Declaration}
    (hclasses : s.tables.classes.toList.map Prod.fst =
      (Declaration.nestedIn ds).filterMap Declaration.classHead?)
    (hfunctions : s.tables.functions = #[]) (hproperties : s.tables.properties = #[]) :
    s.Surveyed (Layout.ofFile options ds) anyType := by
  have hsees : ∀ {space scope}, scope < s.scopes.size → s.Sees anyType space scope :=
    fun hscope => ⟨hs.model.formed, hscope, fun _ => trivial⟩
  have hmembers : ∀ {descriptor data}, s.descriptors.classData? descriptor = some data →
      data.memberScope < s.scopes.size := fun hdata =>
    hs.model.members_lt (DescriptorTable.memberScope?_of_classData? hdata)
  refine ⟨fun _ _ hdata => hsees (hmembers hdata), fun _ hscope => hsees (hs.namespace_lt hscope),
    fun _ hscope => hsees (hs.declaring_lt hscope), fun entry hentry => ?_, fun entry hentry => ?_,
    fun entry hentry => ?_⟩
  · have hhead : entry.1 ∈ s.tables.classes.toList.map Prod.fst := List.mem_map_of_mem hentry
    rw [hclasses] at hhead
    obtain ⟨d, hd, hclass⟩ := List.mem_filterMap.mp hhead
    rw [← Declaration.map_snd_placedIn options []] at hd
    obtain ⟨⟨space, d'⟩, hplaced, rfl⟩ := List.mem_map.mp hd
    cases d' with
    | classDecl head members =>
        obtain rfl := Option.some.inj hclass
        exact ⟨space, members, hplaced, fun data hdata => hsees (hmembers hdata)⟩
    | _ => cases hclass
  · rw [hfunctions] at hentry
    cases hentry
  · rw [hproperties] at hentry
    cases hentry

theorem afterOr_collectAll_surveyed
    (options : AnalysisOptions) {ds : List Declaration} (hds : (Declaration.nodesOf ds).Nodup) :
    AfterOr (collectAll options toplevel ds) initialState
      (fun _ s => s.Surveyed (Layout.ofFile options ds) anyType ∧ s.Sees anyType [] toplevel)
      fun _ _ => True := by
  have hcollect := stopsAtFirst_collectAll options toplevel ds initialState
    consistent_initialState namespacesBound_initialState hds
  refine AfterOr.relax (AfterOr.of_keepsOr (keepsLocated_collectAll options toplevel ds) hcollect)
    fun _ s h => ?_
  have hstays := h.1 hasScope_toplevel
  have hlocated : s.Located := hstays.located hasScope_toplevel.located
  refine ⟨surveyed_of_located hlocated options h.2.2.classes hstays.functions_eq
    hstays.properties_eq, hlocated.model.formed, ?_, fun _ => trivial⟩
  exact hasScope_toplevel.lt_size.trans_le hstays.size_le

/-- Resolving bodies spares the symbols that have been registered before. -/
theorem afterOr_declarationPasses_sparesSymbols
    (options : AnalysisOptions) {ds : List Declaration} (hds : (Declaration.nodesOf ds).Nodup) :
    AfterOr (declarationPasses options ds) initialState
      (fun _ s => AfterAny (resolveBodies options) s s.SparesSymbols) fun _ _ => True := by
  let l := Layout.ofFile options ds
  have hl : l.Distinct := Layout.distinct_ofFile options hds
  refine AfterOr.bind (afterOr_collectAll_surveyed options hds) fun _ s₁ h₁ => ?_
  have hregistered := afterOr_registered_within hl h₁.1 h₁.2 (List.Subset.refl _)
  refine AfterOr.relax hregistered fun _ s₂ h₂ => ?_
  have hsurveyed := h₂.1.surveyed h₁.1
  have hformed := h₂.1.within.formed h₁.2.formed
  have hbodies := afterAny_resolveBodies_within options hl hsurveyed h₂.2 hformed
    (Nat.le_refl s₂.scopes.size) fun {id name} (hleak : s₂.MayLeak id name) => Or.inr hleak
  exact AfterAny.mono hbodies fun s₃ h₃ => .of_within h₃.within hformed rfl id

end Pass

namespace SourceFile

open Pass (declarationPasses initialState resolveBodies toplevel)

/-- If the passes before it succeed, resolving bodies leaves the bindings of all scopes alone
that exist by then, whether or not a fault stops it. The only exception are variables that the
initializer of a property or the delegation list of a class declares outside of blocks. -/
theorem sparesSymbols_resolveBodies
    (name : String) (ds : List Declaration) (options : AnalysisOptions) {s : PassState}
    (h : (declarationPasses options (ofDeclarations name ds).declarations).run.run initialState =
      (.ok (), s)) :
    s.SparesSymbols ((resolveBodies options).run.run s).2 := by
  have hspares := Pass.afterOr_declarationPasses_sparesSymbols options
    ((pairwise_nodes_ofDeclarations name ds).imp Nat.ne_of_lt)
  exact (hspares.of_run_eq h).snd_run

/-- A property of which the initializer declares a variable. -/
def leaking : SourceFile :=
  ofDeclarations "leaking"
    [.propertyDecl {
      name := "p"
      initializer := some (.localVariable 0 "x" true none (some (.constant 0 (.int 1)))) }]

/-- The state in which resolving the bodies of that file begins. -/
def leakingDeclared : PassState :=
  ((declarationPasses {} leaking.declarations).run.run initialState).2

set_option maxRecDepth 20000 in
/-- A scope that exists before bodies are resolved need not keep its bindings: the variable is
bound next to the property. -/
theorem binds_leaking :
    toplevel < leakingDeclared.scopes.size ∧
      (leakingDeclared.scopes.bindings toplevel).values["x"]? = none ∧
        (((resolveBodies {}).run.run leakingDeclared).2.scopes.bindings toplevel).values["x"]? =
          some 1 := by
  decide +kernel

set_option maxRecDepth 20000 in
theorem sparesSymbols_leaking :
    (declarationPasses {} leaking.declarations).run.run initialState = (.ok (), leakingDeclared) ∧
      leakingDeclared.SparesSymbols ((resolveBodies {}).run.run leakingDeclared).2 := by
  have hdeclared : (declarationPasses {} leaking.declarations).run.run initialState =
      (.ok (), leakingDeclared) := by
    refine Prod.ext ?_ rfl
    rfl
  exact ⟨hdeclared, sparesSymbols_resolveBodies _ _ {} hdeclared⟩

end SourceFile

end DeclAnalysis
