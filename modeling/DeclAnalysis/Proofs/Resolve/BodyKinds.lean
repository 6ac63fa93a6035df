import DeclAnalysis.Proofs.Resolve.Kinds

/-!
# Resolving bodies keeps sessions well-kinded

Bodies are resolved in scopes below the one in which they are declared. The types that are found
out for functions and properties are those of expressions, and return types are set for functions
only, never for constructors.
-/

namespace DeclAnalysis

namespace Analysis

variable {s : Session}

/-! ## Constructor calls and delegation lists -/

section

variable (hs : s.WellKinded)

include hs

theorem afterMaturing_checkClassConstructorCall
    {scope : Nat} (hscope : scope < s.scopes.size) (classId : Nat) (classType : Ty) (node : Nat)
    (arguments : List Expr) :
    AfterMaturing (checkClassConstructorCall scope classId classType node arguments) s
      fun _ _ => True :=
  (afterMaturing_inferArguments hs hscope arguments).bind fun _ _ hs₁ _ _ =>
    afterMaturing_matchConstructor hs₁ ..

theorem afterMaturing_checkConstructorCall
    {scope : Nat} (hscope : scope < s.scopes.size) (ref : TypeRef) (node : Nat)
    (arguments : List Expr) :
    AfterMaturing (checkConstructorCall scope ref node arguments) s fun _ _ => True := by
  refine (afterMaturing_resolveTypeRef hs scope ref).bind fun type s₁ hs₁ h₁ _ => ?_
  split
  · exact afterMaturing_checkClassConstructorCall hs₁ (h₁.scope hscope) ..
  · refine (afterMaturing_inferArguments hs₁ (h₁.scope hscope) arguments).bind
      fun _ s₂ hs₂ _ _ => ?_
    split
    · exact (afterMaturing_reportCode hs₂ _ _ _).mono fun _ _ _ _ _ => trivial
    · exact .pure hs₂ trivial

theorem afterMaturingOr_resolveDelegation
    {members : Nat} (hmembers : members < s.scopes.size) (hasPrimary : Bool)
    (specifier : DelegationSpecifier) :
    AfterMaturingOr (resolveDelegation members hasPrimary specifier) s fun _ _ => True := by
  unfold resolveDelegation
  split
  · rename_i id ref delegate
    refine (afterMaturing_infer hs hmembers delegate).lift.bind fun type s₁ hs₁ _ _ => ?_
    cases type with
    | none => exact .pure hs₁ trivial
    | some actual =>
        refine (afterMaturing_resolveTypeRef hs₁ members ref).lift.bind
          fun supertype s₂ hs₂ _ _ => ?_
        refine .get_bind ?_
        split
        · exact ((afterMaturing_reportMismatch hs₂ ..).mono fun _ _ _ _ _ => trivial).lift
        · exact .pure hs₂ trivial
  · exact (afterMaturing_checkConstructorCall hs hmembers ..).lift
  · split
    · exact ((afterMaturing_reportCode hs _ _ _).mono fun _ _ _ _ _ => trivial).lift
    · exact .pure hs trivial
  · exact .throw hs _
  · exact .pure hs trivial
  · exact .pure hs trivial

theorem afterMaturingOr_resolveDelegations (head : ClassHead) (descriptor : Nat) :
    AfterMaturingOr (resolveDelegations head descriptor) s fun _ _ => True := by
  refine .get_bind ?_
  split
  · exact .throw hs _
  · rename_i data hdata
    have hid := DescriptorTable.lt_size_of_classData? (Option.isSome_of_eq_some hdata)
    have hmembers := (hs.descriptors.classData hid hdata).memberScope_lt
    exact .forM _ hs fun specifier _ s₁ hs₁ h₁ =>
      afterMaturingOr_resolveDelegation hs₁ (h₁.scope hmembers) ..

/-! ## Functions and accessors -/

theorem afterMaturingOr_reportUnreachable
    (options : AnalysisOptions) (flow : FlowInformation) (node : Nat) (body : Expr) :
    AfterMaturingOr (reportUnreachable options flow node body) s fun _ _ => True := by
  unfold reportUnreachable
  split
  · exact .throw hs _
  · split
    · exact .forM _ hs fun element _ s₁ hs₁ _ =>
        ((afterMaturing_reportCode hs₁ _ _ _).mono fun _ _ _ _ _ => trivial).lift
    · exact .pure hs trivial

theorem afterMaturingOr_returnPoints (flow : FlowInformation) (node : Nat) :
    AfterMaturingOr (returnPoints flow node) s fun _ _ => True := by
  unfold returnPoints
  split
  · rename_i info _
    have hreports : AfterMaturingOr (info.unsupported.forM fun element =>
        (report (.unsupportedElement element) : FaultyAnalysis Unit)) s fun _ _ => True :=
      .forM _ hs fun element _ s₁ hs₁ _ =>
        ((afterMaturing_report hs₁ _).mono fun _ _ _ _ _ => trivial).lift
    exact hreports.bind fun _ _ hs₁ _ _ => .pure hs₁ trivial
  · exact .throw hs _

theorem afterMaturingOr_checkReturnType
    (flow : FlowInformation) {scope : Nat} (hscope : scope < s.scopes.size) (node : Nat)
    (body : Option Expr) (function : Nat) :
    AfterMaturingOr (checkReturnType flow scope node body function) s fun _ _ => True := by
  refine .get_bind ?_
  split
  · exact .throw hs _
  · rename_i expected _
    cases body with
    | none => exact .pure hs trivial
    | some body =>
        refine (afterMaturing_infer hs hscope body).lift.bind fun _ s₁ hs₁ _ _ => ?_
        refine (afterMaturingOr_returnPoints hs₁ flow node).bind fun points s₂ hs₂ _ _ => ?_
        refine (AfterMaturingOr.forM _ hs₂ fun element _ s₃ hs₃ _ => ?_).bind
          fun _ s₃ hs₃ _ _ => ?_
        · exact .get_bind (afterMaturing_expectKnownType hs₃ ..).lift
        · refine .get_bind ?_
          split
          · exact .forM _ hs₃ fun element _ s₄ hs₄ _ =>
              ((afterMaturing_reportMismatch hs₄ ..).mono fun _ _ _ _ _ => trivial).lift
          · exact .pure hs₃ trivial

omit hs in
theorem wellKindedType_joinAll
    {t : DescriptorTable} {types : List Ty} (h : ∀ type ∈ types, type.WellKinded t) :
    WellKindedType t (joinAll t types) := by
  have hfold : ∀ (rest : List Ty) (first : Ty), first.WellKinded t →
      (∀ type ∈ rest, type.WellKinded t) → (rest.foldl t.join first).WellKinded t := by
    intro rest
    induction rest with
    | nil => exact fun _ hfirst _ => hfirst
    | cons type rest ih =>
        intro first hfirst hrest
        exact ih _ (DescriptorTable.wellKinded_join hfirst (hrest type List.mem_cons_self))
          fun type' htype' => hrest type' (List.mem_cons_of_mem type htype')
  cases types with
  | nil => exact wellKindedType_none
  | cons first rest =>
      exact wellKindedType_some (hfold rest first (h first List.mem_cons_self)
        fun type htype => h type (List.mem_cons_of_mem first htype))

theorem afterMaturingOr_inferReturnType
    (flow : FlowInformation) {scope : Nat} (hscope : scope < s.scopes.size) (node : Nat)
    (body : Option Expr) :
    AfterMaturingOr (inferReturnType flow scope node body) s fun type s' =>
      WellKindedType s'.descriptors type := by
  unfold inferReturnType
  split
  · exact .pure hs wellKindedType_none
  · rename_i body
    refine (afterMaturing_infer hs hscope body).lift.bind fun _ s₁ hs₁ _ _ => ?_
    refine (afterMaturingOr_returnPoints hs₁ flow node).bind fun points s₂ hs₂ _ _ => ?_
    refine .get_bind (.pure hs₂ (wellKindedType_joinAll fun type htype => ?_))
    rcases List.mem_append.mp htype with hmem | hmem
    · obtain ⟨node, -, hnode⟩ := List.mem_filterMap.mp hmem
      exact hs₂.trace.expressionTypes hnode
    · split at hmem
      · cases hmem
      · rw [List.mem_singleton.mp hmem]
        trivial

theorem afterMaturingOr_resolveFunctionBody
    (options : AnalysisOptions) (node : Nat) (body : Option Expr) {role : FunctionRole}
    {function : Nat} (hfunction : s.descriptors.Has (.functionSort role) function) {scope : Nat}
    (hscope : scope < s.scopes.size) :
    AfterMaturingOr (resolveFunctionBody options node body function scope) s fun _ _ => True := by
  have hset : ∀ {s₁ : Session}, s₁.WellKinded → s.Matures s₁ → ∀ {type : Ty},
      type.WellKinded s₁.descriptors →
        AfterMaturingOr (setReturnType function type) s₁ fun _ _ => True := by
    intro s₁ hs₁ h₁ type htype
    refine (afterMaturingOr_setReturnType hs₁ function htype fun hconstructor => ?_).mono
      fun _ _ _ _ _ => trivial
    have hsort := hconstructor.sort_eq.symm.trans (h₁.has hfunction).sort_eq
    cases hsort
  refine .get_bind ?_
  dsimp only
  split
  · split
    · refine (afterMaturing_reportCode hs _ _ _).lift.bind fun _ s₁ hs₁ h₁ _ => ?_
      exact hset hs₁ h₁ trivial
    · exact .pure hs trivial
  · rename_i body
    refine (afterMaturingOr_functionInnerScope hs hscope function).bind
      fun inner s₁ hs₁ h₁ hinner => ?_
    have hunreachable : ∀ {s₂ : Session}, s₂.WellKinded → AfterMaturingOr
        (reportUnreachable options (.data (.ofBody node body)) node body) s₂ fun _ _ => True :=
      fun hs₂ => afterMaturingOr_reportUnreachable hs₂ ..
    split
    · exact (afterMaturingOr_checkReturnType hs₁ _ hinner.1 node (some body) function).bind
        fun _ _ hs₂ _ _ => hunreachable hs₂
    · refine (afterMaturingOr_inferReturnType hs₁ _ hinner.1 node (some body)).bind
        fun inferred s₂ hs₂ h₂ hinferred => ?_
      have htype : (inferred.getD (.error "Unable to infer body type")).WellKinded
          s₂.descriptors := by
        cases inferred with
        | none => trivial
        | some type => exact hinferred type rfl
      exact (hset hs₂ (h₁.trans h₂) htype).bind fun _ _ hs₃ _ _ => hunreachable hs₃

/-! ## Properties -/

theorem afterMaturing_fillPropertyType
    (property : Nat) {type : Ty} (htype : type.WellKinded s.descriptors) :
    AfterMaturing (onDescriptors (·.fillPropertyType property type)) s fun _ _ => True :=
  (afterMaturing_onDescriptors hs (hs.descriptors.fillPropertyType property htype)).mono
    fun _ _ _ _ _ => trivial

theorem afterMaturing_resolveInitializer
    {scope : Nat} (hscope : scope < s.scopes.size) (property : Nat) (setter : Option Nat)
    (initializer : Expr) :
    AfterMaturing (resolveInitializer scope property setter initializer) s fun _ _ => True := by
  refine (afterMaturing_infer hs hscope initializer).bind fun inferred s₁ hs₁ _ hinferred => ?_
  refine .get_bind ?_
  refine (afterMaturing_expectKnownType hs₁ ..).bind fun _ s₂ hs₂ h₂ _ => ?_
  cases inferred with
  | none => exact .pure hs₂ trivial
  | some actual =>
      exact afterMaturing_fillPropertyType hs₂ property (h₂.type (hinferred actual rfl))

theorem afterMaturingOr_resolveAccessors
    (options : AnalysisOptions) (decl : PropertyDecl) {property : Nat} {data : PropertyData}
    (hdata : data.WellKinded s.descriptors property) {scope : Nat}
    (hscope : scope < s.scopes.size) :
    AfterMaturingOr (resolveAccessors options decl property data scope) s fun _ _ => True := by
  have hsetter : ∀ {s₁ : Session}, s₁.WellKinded → s.Matures s₁ →
      AfterMaturingOr (resolveSetterBody options decl data scope) s₁ fun _ _ => True := by
    intro s₁ hs₁ h₁
    unfold resolveSetterBody
    split
    · rename_i accessor setter heq
      obtain ⟨-, hf⟩ := Prod.mk.inj heq
      exact afterMaturingOr_resolveFunctionBody hs₁ options accessor.id accessor.body
        (h₁.has (hdata.setter setter hf).toHas) (h₁.scope hscope)
    · exact .pure hs₁ trivial
  unfold resolveAccessors
  dsimp only
  split
  · rename_i accessor getter heq
    obtain ⟨-, hf⟩ := Prod.mk.inj heq
    refine (afterMaturingOr_resolveFunctionBody hs options accessor.id accessor.body
      (hdata.getter getter hf).toHas hscope).bind fun _ s₁ hs₁ h₁ _ => ?_
    refine .get_bind ?_
    split
    · rename_i type htype
      refine (afterMaturing_fillPropertyType hs₁ property
        (hs₁.descriptors.returnType? getter type htype)).lift.bind fun _ s₂ hs₂ h₂ _ => ?_
      exact hsetter hs₂ (h₁.trans h₂)
    · exact hsetter hs₁ h₁
  · exact hsetter hs (.refl s)

theorem afterMaturing_concludeProperty
    (decl : PropertyDecl) {property : Nat} (hproperty : s.descriptors.Has .propertySort property) :
    AfterMaturing (concludeProperty decl property) s fun _ _ => True := by
  have hinitializer : ∀ {s₁ : Session}, s₁.WellKinded →
      AfterMaturing (judgeInitializer decl property) s₁ fun _ _ => True := by
    intro s₁ hs₁
    unfold judgeInitializer
    split
    · refine .get_bind ?_
      split
      · exact (afterMaturing_reportCode hs₁ _ _ _).mono fun _ _ _ _ _ => trivial
      · exact .pure hs₁ trivial
    · exact .pure hs₁ trivial
  have hfield : ∀ {s₁ : Session}, s₁.WellKinded → s.Matures s₁ →
      AfterMaturing (concludeField decl property) s₁ fun _ _ => True := by
    intro s₁ hs₁ h₁
    unfold concludeField
    dsimp only
    split
    · exact (afterMaturing_recordBackingField hs₁ (h₁.has hproperty)).bind
        fun _ _ hs₂ _ _ => hinitializer hs₂
    · exact hinitializer hs₁
  unfold concludeProperty
  refine .get_bind ?_
  dsimp only
  split
  · refine (afterMaturing_reportCode hs _ _ _).bind fun _ s₁ hs₁ h₁ _ => ?_
    refine (afterMaturing_fillPropertyType hs₁ property
      (show (Ty.error untypedProperty).WellKinded _ from trivial)).bind fun _ s₂ hs₂ h₂ _ => ?_
    exact hfield hs₂ (h₁.trans h₂)
  · exact hfield hs (.refl s)

theorem afterMaturingOr_resolvePropertyBodies
    (options : AnalysisOptions) {scope : Nat} (hscope : scope < s.scopes.size)
    {decl : PropertyDecl} {property : Nat}
    (hproperty : s.descriptors.Names .propertySort decl.name property) :
    AfterMaturingOr (resolvePropertyBodies options scope decl property) s fun _ _ => True := by
  refine .get_bind ?_
  split
  · exact .throw hs _
  · rename_i data hdata
    have hdata' := (hs.descriptors property hproperty.lt_size).propertyKind data
      (DescriptorTable.kind_of_propertyData? hdata)
    have hrest : ∀ {s₁ : Session}, s₁.WellKinded → s.Matures s₁ →
        AfterMaturingOr (finishProperty options scope decl property data) s₁ fun _ _ => True := by
      intro s₁ hs₁ h₁
      refine (afterMaturing_createScope hs₁ .accessor (some scope) none (fun p hp => ?_)
        fun c hc => absurd hc (Option.not_mem_none c)).lift.bind fun accessorScope s₂ hs₂ h₂ hscope₂ => ?_
      · obtain rfl := Option.mem_some.mp hp
        exact h₁.scope hscope
      have hproperty₂ := h₂.descriptors.names (h₁.descriptors.names hproperty)
      refine (afterMaturing_onScopes hs₂ (hs₂.scopes.addField accessorScope hproperty₂)
        (ScopeTree.size_bind ..).ge).lift.bind fun _ s₃ hs₃ h₃ _ => ?_
      have hproperty₃ := h₃.descriptors.names hproperty₂
      refine (afterMaturingOr_observed hs₃ (o := .tracker property) hproperty₃.lt_size
        fun s₄ hs₄ hmodel => ?_).bind fun _ s₄ hs₄ h₄ _ => ?_
      · refine afterMaturingOr_resolveAccessors hs₄ options decl ?_ ?_
        · rw [Session.descriptors, hmodel]
          exact hdata'.of_matures (h₁.trans (h₂.trans h₃)).descriptors
        · rw [Session.scopes, hmodel]
          exact h₃.scope hscope₂.1
      · exact (afterMaturing_concludeProperty hs₄ decl (h₄.has hproperty₃.toHas)).lift
    dsimp only
    split
    · exact (afterMaturing_resolveInitializer hs hscope property data.setter _).lift.bind
        fun _ s₁ hs₁ h₁ _ => hrest hs₁ h₁
    · exact hrest hs (.refl s)

/-! ## Constructors -/

theorem afterMaturing_resolveConstructorInitializer
    {scope : Nat} (hscope : scope < s.scopes.size) (classId : Nat)
    (specifier : DelegationSpecifier) :
    AfterMaturing (resolveConstructorInitializer scope classId specifier) s fun _ _ => True := by
  unfold resolveConstructorInitializer
  split
  · exact afterMaturing_checkConstructorCall hs hscope ..
  · exact .pure hs trivial
  · exact .get_bind (afterMaturing_checkClassConstructorCall hs hscope ..)
  · exact (afterMaturing_reportCode hs _ _ _).mono fun _ _ _ _ _ => trivial
  · exact (afterMaturing_reportCode hs _ _ _).mono fun _ _ _ _ _ => trivial

theorem afterMaturingOr_resolveConstructorParts
    (options : AnalysisOptions) {scope : Nat} (hscope : scope < s.scopes.size) (classId : Nat)
    (decl : ConstructorDecl) :
    AfterMaturingOr (resolveConstructorParts options scope classId decl) s fun _ _ => True := by
  refine (AfterMaturingOr.forM _ hs fun specifier _ s₁ hs₁ h₁ =>
    (afterMaturing_resolveConstructorInitializer hs₁ (h₁.scope hscope) classId specifier).lift).bind
      fun _ s₁ hs₁ h₁ _ => ?_
  split
  · rename_i body _
    refine (afterMaturing_infer hs₁ (h₁.scope hscope) body).lift.bind fun _ s₂ hs₂ _ _ => ?_
    exact afterMaturingOr_reportUnreachable hs₂ ..
  · exact .pure hs₁ trivial

/-- Making fields known, one after the other, adds no scopes. -/
theorem afterMaturing_addFields
    (scope : Nat) {properties : List Nat}
    (hproperties : ∀ p ∈ properties, s.descriptors.Has .propertySort p) :
    AfterMaturing (onScopes fun scopes =>
      properties.foldl (fun tree p => tree.addField scope (s.descriptors.name p) p) scopes) s
      fun _ s' => s'.descriptors = s.descriptors := by
  have hfold : ∀ (ps : List Nat) (tree : ScopeTree), tree.WellKinded s.descriptors →
      (∀ p ∈ ps, s.descriptors.Has .propertySort p) →
        (ps.foldl (fun tree p => tree.addField scope (s.descriptors.name p) p) tree).WellKinded
            s.descriptors ∧
          (ps.foldl (fun tree p => tree.addField scope (s.descriptors.name p) p) tree).size =
            tree.size := by
    intro ps
    induction ps with
    | nil => exact fun tree htree _ => ⟨htree, rfl⟩
    | cons p ps ih =>
        intro tree htree hps
        obtain ⟨hwell, heq⟩ := ih _
          (htree.addField scope ⟨hps p List.mem_cons_self, rfl⟩) fun p' hp' =>
            hps p' (List.mem_cons_of_mem p hp')
        exact ⟨hwell, heq.trans (ScopeTree.size_bind ..)⟩
  obtain ⟨hwell, heq⟩ := hfold properties s.scopes hs.scopes hproperties
  exact afterMaturing_onScopes hs hwell heq.ge

theorem afterMaturingOr_resolveConstructorBody
    (options : AnalysisOptions) {properties : Nat → List Nat}
    (hproperties : ∀ c, ∀ p ∈ properties c, s.descriptors.Has .propertySort p) {scope : Nat}
    (hscope : scope < s.scopes.size) (decl : ConstructorDecl) (constructor : Nat) :
    AfterMaturingOr (resolveConstructorBody options properties scope decl constructor) s
      fun _ _ => True := by
  refine .get_bind ?_
  split
  · exact .throw hs _
  · rename_i classId _
    refine (afterMaturing_createScope hs .constructor (some scope) none (fun p hp => ?_)
      fun c hc => absurd hc (Option.not_mem_none c)).lift.bind fun fieldScope s₁ hs₁ h₁ hfieldScope => ?_
    · obtain rfl := Option.mem_some.mp hp
      exact hscope
    refine .get_bind ?_
    refine (afterMaturing_addFields hs₁ fieldScope fun p hp =>
      h₁.has (hproperties classId p hp)).lift.bind fun _ s₂ hs₂ h₂ _ => ?_
    refine (afterMaturingOr_functionInnerScope hs₂ (h₂.scope hfieldScope.1) constructor).bind
      fun inner s₃ hs₃ _ hinner => ?_
    have hparts : AfterMaturingOr (observed (.guard [])
        (resolveConstructorParts options inner classId decl)) s₃ fun _ _ => True := by
      refine afterMaturingOr_observed hs₃ (o := .guard []) trivial fun s₄ hs₄ hmodel => ?_
      refine afterMaturingOr_resolveConstructorParts hs₄ options ?_ classId decl
      rw [Session.scopes, hmodel]
      exact hinner.1
    refine hparts.bind fun violations s₄ hs₄ _ _ => ?_
    exact .forM _ hs₄ fun node _ s₅ hs₅ _ =>
      ((afterMaturing_reportCode hs₅ _ _ _).mono fun _ _ _ _ _ => trivial).lift

end

end Analysis

end DeclAnalysis
