import DeclAnalysis.Proofs.Resolve.Awaited
import DeclAnalysis.Proofs.Resolve.Faults
import DeclAnalysis.Proofs.Resolve.LastPass

/-!
# Nothing is left open

An analysis that is not stopped by a fault leaves no descriptor incomplete: every class is
finalized, every function, accessor and constructor has a return type, and every property,
parameter and local variable has a type.
-/

namespace DeclAnalysis

open Session (Proceeds Types)

namespace Analysis

variable {s : Session} {property : Nat}

/-! ### What the bodies of a property settle -/

/-- At the latest when its bodies have been resolved, a property has a type. -/
theorem after_concludeProperty
    (h : (s.descriptors.propertyData? property).isSome) (decl : PropertyDecl) :
    After (concludeProperty decl property) s fun _ s' =>
      (s'.descriptors.valueType? property).isSome := by
  have hkeeps : ∀ {x : Analysis Unit} {s₁ : Session}, Keeps (Types []) x →
      (s₁.descriptors.valueType? property).isSome →
      After x s₁ fun _ s₂ => (s₂.descriptors.valueType? property).isSome :=
    fun hx h₁ => (hx.after _).mono fun _ _ h₂ => h₂.proceeds.fills.isSome_valueType? h₁
  refine after_bind.mpr (after_get.mpr ?_)
  dsimp only
  split
  · have hreport : Keeps (Types []) (reportCode .semanticError decl.id untypedProperty) :=
      keeps_reportCode (by decide) ..
    refine After.bind (hreport.after s) fun _ s₁ h₁ => ?_
    obtain ⟨data, hdata⟩ := Option.isSome_iff_exists.mp h
    obtain ⟨data', hdata', -⟩ := h₁.proceeds.fills.propertyData? hdata
    have hfilled := DescriptorTable.isSome_valueType?_fillPropertyType
      (Option.isSome_of_eq_some hdata') (.error untypedProperty)
    exact After.bind (after_onDescriptors.mpr hfilled) fun _ _ h₂ =>
      hkeeps (keeps_concludeField decl property) h₂
  · rename_i hknown
    exact hkeeps (keeps_concludeField decl property)
      (by simpa [Option.isSome_iff_ne_none] using hknown)

/-- The getter of a property has a return type when the accessors have been resolved. -/
theorem afterOr_resolveAccessors
    {g : Nat} {data : PropertyData} {decl : PropertyDecl} (hdecl : decl.getter.isSome)
    (hgetter : data.getter = some g) (hsignature : (s.descriptors.signature? g).isSome)
    (options : AnalysisOptions) (property scope : Nat) :
    AfterOr (resolveAccessors options decl property data scope) s
      (fun _ s' => (s'.descriptors.returnType? g).isSome) fun _ _ => True := by
  obtain ⟨accessor, haccessor⟩ := Option.isSome_iff_exists.mp hdecl
  have hkeeps : ∀ {x : FaultyAnalysis Unit} {s₁ : Session}, KeepsOr (Proceeds decl.nodes) x →
      (s₁.descriptors.returnType? g).isSome →
      AfterOr x s₁ (fun _ s₂ => (s₂.descriptors.returnType? g).isSome) fun _ _ => True :=
    fun hx h₁ => AfterOr.relax (hx.afterOr _) fun _ _ h₂ => h₂.fills.isSome_returnType? h₁
  have hsetter : decl.setter.toList.flatMap Accessor.nodes ⊆ decl.nodes :=
    List.Subset.trans (List.subset_append_right ..) (List.subset_cons_self ..)
  have hset := keepsOr_resolveSetter options hsetter data scope
  unfold resolveAccessors
  rw [haccessor, hgetter]
  dsimp only
  refine AfterOr.bind (afterOk_resolveFunctionBody hsignature ..).afterOr fun _ s₁ h₁ => ?_
  refine afterOr_bind.mpr (afterOr_get.mpr ?_)
  split
  · exact hkeeps ((KeepsOr.lift (keeps_fillPropertyType ..)).bind fun _ => hset) h₁
  · exact hkeeps hset h₁

/-- When the bodies of a property have been resolved, the property has a type and its getter
a return type. -/
theorem afterOr_resolvePropertyBodies
    {data : PropertyData} (hdata : s.descriptors.propertyData? property = some data)
    (options : AnalysisOptions) (scope : Nat) (decl : PropertyDecl) :
    AfterOr (resolvePropertyBodies options scope decl property) s
      (fun _ s' => (s'.descriptors.valueType? property).isSome ∧
        ∀ g, decl.getter.isSome → data.getter = some g → (s.descriptors.signature? g).isSome →
          (s'.descriptors.returnType? g).isSome) fun _ _ => True := by
  have hrest : ∀ s₁, Proceeds decl.nodes s s₁ →
      AfterOr (finishProperty options scope decl property data) s₁
        (fun _ s' => (s'.descriptors.valueType? property).isSome ∧
          ∀ g, decl.getter.isSome → data.getter = some g → (s.descriptors.signature? g).isSome →
            (s'.descriptors.returnType? g).isSome) fun _ _ => True := by
    intro s₁ h₁
    have hcreate : Keeps (Proceeds decl.nodes) (createScope .accessor (some scope) none) :=
      keeps_createScope ..
    refine AfterOr.bind (AfterOr.lift (hcreate.after s₁)) fun accessorScope s₂ h₂ => ?_
    have hfield : Keeps (Proceeds decl.nodes)
        (onScopes (·.addField accessorScope decl.name property)) := keeps_addField ..
    refine AfterOr.bind (AfterOr.lift (hfield.after s₂)) fun _ s₃ h₃ => ?_
    have hproceeds := h₁.trans (h₂.trans h₃)
    have hgetter : AfterOr (observed (.tracker property)
        (resolveAccessors options decl property data accessorScope)) s₃ (fun _ s' =>
          ∀ g, decl.getter.isSome → data.getter = some g → (s.descriptors.signature? g).isSome →
            (s'.descriptors.returnType? g).isSome) fun _ _ => True := by
      refine AfterOr.forall fun g => AfterOr.forall fun hdecl => AfterOr.forall fun hg =>
        AfterOr.forall fun hsignature => ?_
      refine AfterOr.observed (afterOr_resolveAccessors hdecl hg ?_ options property accessorScope)
      exact hproceeds.follows.evolves.isSome_signature? hsignature
    have hkeeps := keepsOr_observed (.tracker property)
      (keepsOr_resolveAccessors options (List.tail_subset decl.nodes) property data accessorScope)
    refine AfterOr.bind (AfterOr.forget (AfterOr.of_keepsOr hkeeps hgetter)) fun _ s₄ h₄ => ?_
    obtain ⟨data', hdata', -⟩ := (hproceeds.trans h₄.1).fills.propertyData? hdata
    have hconclude : Keeps (Proceeds decl.nodes) (concludeProperty decl property) :=
      keeps_concludeProperty decl property
    have hvalue := after_concludeProperty (Option.isSome_of_eq_some hdata') decl
    refine AfterOr.lift (After.mono (After.and hvalue (hconclude.after s₄)) fun _ s₅ h₅ => ?_)
    refine ⟨h₅.1, fun g hdecl hg hsignature => ?_⟩
    exact h₅.2.fills.isSome_returnType? (h₄.2 g hdecl hg hsignature)
  refine afterOr_bind.mpr (afterOr_get.mpr ?_)
  rw [hdata]
  dsimp only
  split
  · rename_i initializer heq
    have hsub : initializer.nodes ⊆ decl.nodes := by
      intro node hnode
      have hmem : node ∈ Expr.optionalNodes decl.initializer := heq ▸ hnode
      simp [PropertyDecl.nodes, hmem]
    have hinitializer := keeps_resolveInitializer hsub scope property data.setter
    refine AfterOr.bind (AfterOr.lift (hinitializer.after s)) fun _ s₁ h₁ => ?_
    exact hrest s₁ h₁
  · exact hrest s (.refl _ s)

end Analysis

/-! ### What the bodies settle -/

namespace PassState

/-- Nothing has been entered in the tables, and at most types have been filled in. -/
structure Settles (s s' : PassState) : Prop where
  fills : s.descriptors.Fills s'.descriptors
  fillsTogether : s.descriptors.FillsTogether s'.descriptors
  tables_eq : s'.tables = s.tables

theorem Settles.trans {s s' s'' : PassState} (h : s.Settles s') (h' : s'.Settles s'') :
    s.Settles s'' :=
  ⟨h.fills.trans h'.fills, h.fillsTogether.trans h'.fillsTogether h.fills h'.fills,
    h'.tables_eq.trans h.tables_eq⟩

instance : IsPreorder PassState Settles where
  refl _ := ⟨.refl _, .of_valueType?_eq fun _ _ => rfl, rfl⟩
  trans _ _ _ := .trans

variable {s s' : PassState}

theorem Advances.settles {nodes : List Nat} (h : s.Advances nodes s') : s.Settles s' :=
  ⟨h.proceeds.fills, h.proceeds.fillsTogether, h.tables_eq⟩

theorem Settles.complete {d : Nat} (h : s.Settles s') (hd : s.descriptors.Complete d) :
    s'.descriptors.Complete d :=
  ⟨(h.fills.kind d (DescriptorTable.lt_size_of_complete hd)).complete hd.kind⟩

end PassState

namespace Pass

open Analysis
open PassState (Advances Settles)

variable {s : PassState}

theorem keepsOr_settles {α : Type} {nodes : List Nat} {x : Pass α}
    (h : KeepsOr (Advances nodes) x) : KeepsOr Settles x :=
  h.mono fun _ _ h => h.settles

/-- A function or constructor whose body has been resolved has a return type. -/
theorem afterOr_resolveFunctionLike
    (options : AnalysisOptions) (f : FunctionLike) (descriptor : Nat) (s : PassState) :
    AfterOr (resolveFunctionLike options f descriptor) s
      (fun _ s' => s'.descriptors.Complete descriptor) fun _ _ => True := by
  have hconclude : ∀ s₁, AfterOr (do
      if ((← session).descriptors.returnType? descriptor).isNone then
        throw (.at_ f.id .returnTypeUnset) : Pass Unit) s₁
      (fun _ s' => s'.descriptors.Complete descriptor) fun _ _ => True := by
    intro s₁
    refine afterOr_bind.mpr (afterOr_session.mpr ?_)
    split
    · trivial
    · rename_i hknown
      have hsome : (s₁.descriptors.returnType? descriptor).isSome := by
        simpa [Option.isSome_iff_ne_none] using hknown
      exact DescriptorTable.complete_of_returnType? hsome
  refine afterOr_bind.mpr (afterOr_tables.mpr ?_)
  refine AfterOr.bind (AfterOr.trivial _ s) fun scope s₁ _ => ?_
  cases f with
  | function decl => exact AfterOr.bind (AfterOr.trivial _ s₁) fun _ s₂ _ => hconclude s₂
  | constructor decl => exact AfterOr.bind (AfterOr.trivial _ s₁) fun _ s₂ _ => hconclude s₂

/-- What was open about a property has been settled when its bodies have been resolved. -/
theorem afterOr_resolvePropertyBodies_settles
    {s₀ : PassState} (hs : s₀.Settles s) (options : AnalysisOptions) (scope : Nat)
    (decl : PropertyDecl) (property : Nat) :
    AfterOr (liftM (resolvePropertyBodies options scope decl property) : Pass Unit) s
      (fun _ s' => s.Settles s' ∧
        ∀ d, OpenThrough s₀.descriptors decl property d → s'.descriptors.Complete d)
      fun _ s' => s.Settles s' := by
  have hkeeps : KeepsOr Settles (liftM (resolvePropertyBodies options scope decl property) :
      Pass Unit) :=
    keepsOr_settles (keepsOr_faultyAnalysis
      (keepsOr_resolvePropertyBodies options (List.tail_subset decl.nodes) ..))
  have hopen : AfterOr (liftM (resolvePropertyBodies options scope decl property) : Pass Unit) s
      (fun _ s' => s.Settles s' →
        ∀ d, OpenThrough s₀.descriptors decl property d → s'.descriptors.Complete d)
      fun _ _ => True := by
    refine afterOr_faultyAnalysis.mpr ?_
    cases hdata : s.descriptors.propertyData? property with
    | none =>
        refine afterOr_bind.mpr (afterOr_get.mpr ?_)
        rw [hdata]
        trivial
    | some data =>
        refine AfterOr.relax (afterOr_resolvePropertyBodies hdata options scope decl)
          fun _ s' h hsettles d hd => ?_
        cases hd with
        | itself => exact DescriptorTable.complete_of_valueType? h.1
        | getter hdecl hdata₀ hgetter hfunction =>
            obtain ⟨data', hdata', hgetter', -⟩ := hs.fills.propertyData? hdata₀
            obtain rfl : data = data' := Option.some.inj (hdata.symm.trans hdata')
            obtain ⟨signature, hsignature⟩ := Option.isSome_iff_exists.mp hfunction
            obtain ⟨signature', hsignature', -⟩ := hs.fills.signature? hsignature
            exact DescriptorTable.complete_of_returnType? (h.2 d hdecl (hgetter'.trans hgetter)
              (Option.isSome_of_eq_some hsignature'))
        | value htakes hnone =>
            have htogether := (hs.trans hsettles).fillsTogether property d htakes hnone h.1
            exact DescriptorTable.complete_of_valueType? htogether
  exact AfterOr.mono (AfterOr.of_keepsOr hkeeps hopen) (fun _ _ h => ⟨h.1, h.2 h.1⟩)
    fun _ _ h => h.1

/-- Everything that the tables hold is settled by the last pass. -/
theorem afterOr_resolveBodies_settles (options : AnalysisOptions) (s : PassState) :
    AfterOr (resolveBodies options) s
      (fun _ s' => s.Settles s' ∧ ∀ d, s.Awaits d → s'.descriptors.Complete d)
      fun _ s' => s.Settles s' := by
  have hdelegations : KeepsOr Settles (s.tables.classes.toList.forM fun entry =>
      (liftM (resolveDelegations entry.1 entry.2) : Pass Unit)) :=
    KeepsOr.forM _ fun entry _ => keepsOr_settles (keepsOr_faultyAnalysis
      (keepsOr_resolveDelegations (List.tail_subset entry.1.nodes) entry.2))
  have hproperties : ∀ s₁, s.Settles s₁ → AfterOr
      (s.tables.properties.toList.forM fun entry => do
        let scope ← ofExcept (s.tables.declaringScope entry.1.id)
        resolvePropertyBodies options scope entry.1 entry.2) s₁
      (fun _ s' => s₁.Settles s' ∧ ∀ entry ∈ s.tables.properties.toList,
        ∀ d, OpenThrough s.descriptors entry.1 entry.2 d → s'.descriptors.Complete d)
      fun _ s' => s₁.Settles s' := by
    intro s₁ h₁
    refine AfterOr.forM_each _ (fun entry _ s₂ h₂ => ?_) fun entry s₂ s₃ h hsettled d hd => ?_
    · have hscope : KeepsOr (Advances []) (ofExcept (s.tables.declaringScope entry.1.id)) :=
        keepsOr_ofExcept _
      refine AfterOr.bind ((keepsOr_settles hscope).afterOr s₂) fun scope s₃ h₃ => ?_
      have hsettles := afterOr_resolvePropertyBodies_settles (h₁.trans (h₂.trans h₃)) options
        scope entry.1 entry.2
      exact AfterOr.mono hsettles (fun _ _ h => ⟨h₃.trans h.1, h.2⟩) fun _ _ h => h₃.trans h
    · exact h.complete (hsettled d hd)
  have hfunctions : ∀ s₁, AfterOr
      (s.tables.functions.toList.forM fun entry => resolveFunctionLike options entry.1 entry.2) s₁
      (fun _ s' => s₁.Settles s' ∧ ∀ entry ∈ s.tables.functions.toList,
        s'.descriptors.Complete entry.2)
      fun _ s' => s₁.Settles s' := by
    intro s₁
    refine AfterOr.forM_each _ (fun entry _ s₂ _ => ?_) fun entry s₂ s₃ h hsettled => ?_
    · have hkeeps := keepsOr_settles
        (keepsOr_resolveFunctionLike options (List.tail_subset entry.1.nodes) entry.2)
      have hcomplete := afterOr_resolveFunctionLike options entry.1 entry.2 s₂
      exact AfterOr.mono (AfterOr.of_keepsOr hkeeps hcomplete) (fun _ _ h => h) fun _ _ h => h.1
    · exact h.complete hsettled
  refine afterOr_bind.mpr (afterOr_tables.mpr ?_)
  refine AfterOr.bind (hdelegations.afterOr s) fun _ s₁ h₁ => ?_
  refine AfterOr.bind (AfterOr.mono (hproperties s₁ h₁) (fun _ _ h => h) fun _ _ h => h₁.trans h)
    fun _ s₂ h₂ => ?_
  have h₁₂ := h₁.trans h₂.1
  refine AfterOr.mono (hfunctions s₂) (fun _ s₃ h₃ => ?_) fun _ _ h => h₁₂.trans h
  refine ⟨h₁₂.trans h₃.1, fun d hd => ?_⟩
  cases hd with
  | function hentry => exact h₃.2 _ hentry
  | property hentry hopen => exact h₃.1.complete (h₂.2 _ hentry d hopen)

/-! ### All passes -/

theorem openThrough_finalizeClasses
    {t : DescriptorTable} {decl : PropertyDecl} {property d : Nat}
    (h : OpenThrough t decl property d) : OpenThrough t.finalizeClasses.2 decl property d := by
  cases h with
  | itself => exact .itself
  | getter hdecl hdata hgetter hfunction =>
      refine .getter hdecl ((t.propertyData?_finalizeClasses property).trans hdata) hgetter ?_
      exact (congrArg Option.isSome (t.signature?_finalizeClasses d)).trans hfunction
  | value htakes hopen =>
      exact .value htakes.finalizeClasses ((t.valueType?_finalizeClasses property).trans hopen)

/-- Once classes are finalized, whatever is incomplete waits for a body. -/
theorem afterOk_finalizeClasses_awaits (h : s.OpenAwaited) :
    AfterOk finalizeClasses s fun _ s' => ∀ d, d < s'.descriptors.size →
      s'.descriptors.Complete d ∨ s'.Awaits d := by
  let t := s.model.descriptors
  let s' : PassState := { s with model.descriptors := t.finalizeClasses.2 }
  change ∀ d, d < t.finalizeClasses.2.size → t.finalizeClasses.2.Complete d ∨ s'.Awaits d
  intro d hd
  rw [t.size_finalizeClasses] at hd
  rcases h.awaits d hd with hcomplete | hclass | hawaits
  · exact .inl (t.complete_finalizeClasses hcomplete)
  · exact .inl (t.complete_finalizeClasses_of_classData? hclass)
  · refine .inr ?_
    cases hawaits with
    | function hentry => exact .function hentry
    | property hentry hopen => exact .property hentry (openThrough_finalizeClasses hopen)

theorem openAwaited_initialState : initialState.OpenAwaited :=
  ⟨fun d hd => absurd hd (Nat.not_lt_zero d), fun _ hentry => absurd hentry List.not_mem_nil,
    fun _ hentry => absurd hentry List.not_mem_nil⟩

/-- Unless they stop with a fault, the passes leave nothing open. -/
theorem afterOr_allPasses_complete (options : AnalysisOptions) (ds : List Declaration) :
    AfterOr (allPasses options ds) initialState
      (fun _ s' => ∀ d, d < s'.descriptors.size → s'.descriptors.Complete d)
      fun _ _ => True := by
  refine AfterOr.bind ((keepsAwaited_collectAll options toplevel ds).preserves
    openAwaited_initialState) fun _ s₁ h₁ => ?_
  refine AfterOr.bind (keepsAwaited_resolveClasses.preserves h₁) fun _ s₂ h₂ => ?_
  refine AfterOr.bind ((keepsAwaited_registerAll toplevel ds).preserves h₂) fun _ s₃ h₃ => ?_
  refine AfterOr.bind (afterOk_finalizeClasses_awaits h₃).afterOr fun _ s₄ h₄ => ?_
  refine AfterOr.relax (afterOr_resolveBodies_settles options s₄) fun _ s₅ h₅ d hd => ?_
  by_cases hlt : d < s₄.descriptors.size
  · rcases h₄ d hlt with hcomplete | hawaits
    · exact h₅.1.complete hcomplete
    · exact h₅.2 d hawaits
  · exact h₅.1.fills.added d (Nat.le_of_not_lt hlt) hd

end Pass

end DeclAnalysis
