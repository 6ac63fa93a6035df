import DeclAnalysis.Proofs.Resolve.Completion
import DeclAnalysis.Proofs.Resolve.Recordings

/-!
# The type of a property

The type of a property that is declared without one comes from its initializer or else from its
getter, and if neither has one, an error type is filled in. Whatever is filled in is filled in for
the accessors that are declared without types as well, so that these stay in accord with the
property at every step in which its bodies are resolved.
-/

namespace DeclAnalysis

open Session (AllowsTyping Proceeds Types)

namespace Session

variable {nodes : List Nat} {t : DescriptorTable} {kept : Nat → Prop} {s s' : Session}

/-! ## Descriptors that are left alone -/

/-- The second session comes from the first one by changes that at most fill in types, and some of
the descriptors of `t` are left as they are, provided that no more has happened since then. -/
structure Leaves (nodes : List Nat) (t : DescriptorTable) (kept : Nat → Prop) (s s' : Session) :
    Prop where
  proceeds : Proceeds nodes s s'
  get_eq : t.Fills s.descriptors → ∀ {d}, d < t.size → kept d →
    s'.descriptors.get d = s.descriptors.get d

instance (nodes : List Nat) (t : DescriptorTable) (kept : Nat → Prop) :
    AllowsTyping nodes (Leaves nodes t kept) where
  refl s := ⟨.refl nodes s, fun _ _ _ _ => rfl⟩
  trans s s₁ s₂ h₁ h₂ := by
    constructor
    · exact h₁.proceeds.trans h₂.proceeds
    · intro hfills d hd hkept
      exact (h₂.get_eq (hfills.trans h₁.proceeds.fills) hd hkept).trans (h₁.get_eq hfills hd hkept)
  of_types h :=
    ⟨h.proceeds, fun hfills d hd _ => h.extends_.get_eq d (hd.trans_le hfills.size_le)⟩

/-! ## The type that a property gets -/

/-- The type that has been found for the initializer of a property. -/
def initializerType? (s : Session) (decl : PropertyDecl) : Option Ty :=
  decl.initializer.bind fun e => s.trace.expressionType? e.id

/-- A property is in accord with its accessors. Its type is what was found of it before the
accessors were resolved or, if nothing was, that of the getter; if there is none either, that has
been reported. -/
structure TypesProperty
    (s : Session) (decl : PropertyDecl) (property : Nat) (found : Option Ty) : Prop where
  accords : s.descriptors.Accords decl property
  getterType?_isSome : decl.getter.isSome → (s.descriptors.getterType? property).isSome
  valueType?_eq : s.descriptors.valueType? property =
    some ((found <|> s.descriptors.getterType? property).getD (.error Analysis.untypedProperty))
  reported : (found <|> s.descriptors.getterType? property) = none →
    Diagnostic.ofCode .semanticError decl.id Analysis.untypedProperty ∈ s.diagnostics.toList

/-- It is enough that the parts of the property are left alone. -/
theorem TypesProperty.of_get_eq
    {decl : PropertyDecl} {property : Nat} {found : Option Ty}
    (h : s.TypesProperty decl property found) (hretains : s.descriptors.Retains s'.descriptors)
    (hget : ∀ {d}, s.descriptors.Shares property d →
      s'.descriptors.get d = s.descriptors.get d)
    (hreports : s.diagnostics.toList <+: s'.diagnostics.toList) :
    s'.TypesProperty decl property found := by
  have hgetter := h.accords.toOwns.getterType?_eq hretains hget
  constructor
  · exact h.accords.of_get_eq hretains hget
  · rw [hgetter]
    exact h.getterType?_isSome
  · rw [hgetter, DescriptorTable.valueType?_congr (hget .itself)]
    exact h.valueType?_eq
  · rw [hgetter]
    intro hnone
    exact hreports.subset (h.reported hnone)

end Session

namespace DescriptorTable

variable {t t' : DescriptorTable} {decl : PropertyDecl} {property : Nat}

theorem Accords.of_extends (h : t.Accords decl property) (hextends : t.Extends t') :
    t'.Accords decl property :=
  h.of_get_eq hextends.fills.retains fun hd => hextends.get_eq _ (h.partOf hd).lt_size

theorem Extends.valueType?_eq (h : t.Extends t') (hproperty : t.Has .propertySort property) :
    t'.valueType? property = t.valueType? property :=
  valueType?_congr (h.get_eq property hproperty.lt_size)

/-- What the body of a getter turns out to return is filled in for the property. If the getter
is declared without a type, the property has the same type or none. -/
theorem Accords.fill_returnType
    {function : Nat} {type : Ty} (h : t.Accords decl property) (hfills : t.Fills t')
    (hget : ∀ {d}, t.Shares property d → d ≠ function → t'.get d = t.get d)
    (hgetter : t.getter? property = some function) (hreturn : t'.returnType? function = some type) :
    (t'.fillPropertyType property type).Accords decl property ∧
      (t'.fillPropertyType property type).valueType? property =
        (t.valueType? property <|> some type) ∧
      (t'.fillPropertyType property type).returnType? function = some type := by
  have hretains := hfills.retains
  have howns := h.toOwns.of_retains hretains
  have hgetter' : t'.getter? property = some function :=
    (hretains.getter?_eq h.itself).trans hgetter
  have hne : property ≠ function := by
    rintro rfl
    exact h.toOwns.getter_ne_itself hgetter
  have hvalue : t'.valueType? property = t.valueType? property :=
    valueType?_congr (hget .itself hne)
  have hfilled := (Fills.fillPropertyType t' property type).retains
  have htype : (t'.fillPropertyType property type).valueType? property =
      (t.valueType? property <|> some type) := by
    rw [howns.valueType?_fillPropertyType, hvalue]
  have hknown : (t'.fillPropertyType property type).returnType? function = some type := by
    rw [howns.returnType?_fillPropertyType type hgetter', hreturn]
    rfl
  refine ⟨⟨howns.of_retains hfilled, ?_, ?_, ?_, ?_⟩, htype, hknown⟩
  · rw [hfilled.getter?_eq howns.itself, hgetter', ← h.getter?_isSome, hgetter]
  · rw [hfilled.setter?_eq howns.itself, hretains.setter?_eq h.itself]
    exact h.setter?_isSome
  · intro a ha himplied g hg
    rw [hfilled.getter?_eq howns.itself, hgetter'] at hg
    obtain rfl := Option.mem_some.mp hg
    have hagree := h.returnType?_eq a ha himplied function hgetter
    rw [htype, hknown]
    cases hbefore : t.valueType? property with
    | none => rfl
    | some known =>
        -- The return type was known before, so that the body did not change it.
        rw [hbefore] at hagree
        exact hreturn.symm.trans (hfills.returnType?_eq hagree)
  · intro a ha himplied v hv
    rw [howns.setterParameter?_eq hfilled] at hv
    have hv₀ := hv
    rw [h.toOwns.setterParameter?_eq hretains] at hv₀
    have hne : v ≠ function := by
      rintro rfl
      exact h.toOwns.parameter_ne_getter hgetter hv₀
    rw [howns.valueType?_fillPropertyType_parameter type hv, htype,
      valueType?_congr (hget (.parameter hv₀) hne)]
    exact congrArg (· <|> some type) (h.parameterType?_eq a ha himplied v hv₀)

end DescriptorTable

namespace Analysis

open Session (Leaves)

variable {nodes : List Nat} {t : DescriptorTable} {kept : Nat → Prop} {s : Session}
  {decl : PropertyDecl} {property : Nat}

/-! ## What may be filled in -/

/-- Setting a return type changes nothing but the function. -/
theorem allowsReturnTypeOf_leaves {function : Nat} (hkept : ¬ kept function) :
    AllowsReturnTypeOf (Leaves nodes t kept) function := by
  intro s hopen type
  have hget : AfterAny (setReturnType function type) s fun s' => ∀ {d}, d ≠ function →
      s'.descriptors.get d = s.descriptors.get d := by
    simp only [setReturnType, tryDescriptors, afterOr_bind, afterOr_get,
      DescriptorTable.setReturnType]
    cases s.model.descriptors.signature? function with
    | none => exact fun _ => rfl
    | some signature => exact fun hd => DescriptorTable.get_editSignature_of_ne hd _
  have hproceeds : AfterAny (setReturnType function type) s (Proceeds nodes s) :=
    afterOr_setReturnType hopen type
  have hboth : AfterAny (setReturnType function type) s fun s' => Proceeds nodes s s' ∧
      ∀ {d}, d ≠ function → s'.descriptors.get d = s.descriptors.get d :=
    hproceeds.and hget
  apply hboth.mono
  intro s' h
  constructor
  · exact h.1
  · intro _ d _ hd
    apply h.2
    rintro rfl
    exact hkept hd

/-- Filling in the type of one property leaves the parts of all others alone. -/
theorem allowsTypeOf_leaves {other : Nat} (howns : t.Owns other) (hne : property ≠ other) :
    AllowsTypeOf (Leaves nodes t (t.PartOf property)) other := by
  intro type
  refine ⟨fun s => ⟨.fillPropertyType other type, ?_⟩⟩
  intro hfills d _ hd
  apply (howns.of_retains hfills.retains).get_fillPropertyType_of_not_partOf
  intro hother
  exact hne ((hfills.retains.partOf hd).unique hother)

/-! ## The initializer -/

/-- The type that is found for an expression is recorded, and if none is found, none is. -/
theorem after_infer_type
    {scope : Nat} {named : String → List Nat} (hoffers : s.model.Offers scope named) {e : Expr}
    (hdistinct : e.nodes.Nodup) (hvacant : ∀ {slot : Slot}, slot.node ∈ e.nodes → s.Vacant slot) :
    After (infer scope e) s fun type s' =>
      Types e.nodes s s' ∧ s'.trace.expressionType? e.id = type := by
  have hslots : ((Expr.recordingsOf named [e]).map Recording.slot).Nodup := by
    apply List.nodup_iff_count_le_one.mpr
    intro slot
    refine (Expr.count_recordingsOf_le named slot [e]).trans ?_
    rw [Expr.nodesOf, Expr.nodesOf, List.append_nil]
    exact List.nodup_iff_count_le_one.mp hdistinct slot.node
  have hempty : ∀ x ∈ Expr.recordingsOf named [e], s.Vacant x.slot := by
    intro x hx
    apply hvacant
    have hcount := Expr.count_recordingsOf_le named x.slot [e]
    rw [Expr.nodesOf, Expr.nodesOf, List.append_nil] at hcount
    exact List.count_pos_iff.mp ((List.count_pos_iff.mpr (List.mem_map_of_mem hx)).trans_le hcount)
  have htypes : Keeps (Types e.nodes) (infer scope e) := keeps_infer scope e (List.Subset.refl _)
  refine After.mono ((htypes.after s).and (typesIn_infer named scope e s hoffers))
    fun type s' h => ⟨h.1, ?_⟩
  exact (List.cons.inj (h.2.types_eq hslots hempty)).1

theorem after_resolveInitializer_accords
    (h : s.descriptors.Accords decl property) {scope : Nat} {named : String → List Nat}
    (hoffers : s.model.Offers scope named) {e : Expr} (hdistinct : e.nodes.Nodup)
    (hvacant : ∀ {slot : Slot}, slot.node ∈ e.nodes → s.Vacant slot) (setter : Option Nat) :
    After (resolveInitializer scope property setter e) s fun _ s' =>
      s'.descriptors.Accords decl property ∧ s'.descriptors.valueType? property =
        (s.descriptors.valueType? property <|> s'.trace.expressionType? e.id) := by
  refine After.bind (after_infer_type hoffers hdistinct hvacant) fun inferred s₁ h₁ => ?_
  refine after_bind.mpr (after_get.mpr ?_)
  have hexpect : ∀ expected, After (expectKnownType e.id expected inferred) s₁ fun _ s₂ =>
      Types [e.id] s₁ s₂ ∧ s₂.trace.expressionType? e.id = s₁.trace.expressionType? e.id := by
    intro expected
    have htypes : Keeps (Types [e.id]) (expectKnownType e.id expected inferred) :=
      keeps_expectKnownType (List.mem_singleton_self e.id) ..
    refine After.mono ((htypes.after s₁).and ((enters_expectKnownType e.id expected
      inferred).after s₁)) fun _ s₂ h₂ => ⟨h₂.1, ?_⟩
    have hsame : s₁.SameSlot s₂ (.type e.id) := h₂.2.same List.not_mem_nil
    exact hsame
  refine After.bind (hexpect _) fun _ s₂ h₂ => ?_
  have hextends := h₁.1.extends_.trans h₂.1.extends_
  have haccords := h.of_extends hextends
  have htype := hextends.valueType?_eq h.itself
  have hrecorded := h₂.2.trans h₁.2
  cases inferred with
  | none =>
      refine after_pure.mpr ⟨haccords, ?_⟩
      rw [hrecorded, htype]
      simp
  | some type =>
      refine after_onDescriptors.mpr ⟨haccords.fillPropertyType type, ?_⟩
      refine Eq.trans (haccords.toOwns.valueType?_fillPropertyType type) ?_
      rw [htype]
      exact congrArg (s.descriptors.valueType? property <|> ·) hrecorded.symm

/-! ## The accessors -/

/-- The accessors have been resolved. The property has the return type of its getter unless it had
a type before. -/
structure AccessorsTyped (decl : PropertyDecl) (property : Nat) (known : Option Ty)
    (t : DescriptorTable) : Prop where
  accords : t.Accords decl property
  getterType?_isSome : decl.getter.isSome → (t.getterType? property).isSome
  valueType?_eq : t.valueType? property = (known <|> t.getterType? property)

theorem AccessorsTyped.of_get_eq
    {known : Option Ty} {t' : DescriptorTable} (h : AccessorsTyped decl property known t)
    (hretains : t.Retains t') (hget : ∀ {d}, t.Shares property d → t'.get d = t.get d) :
    AccessorsTyped decl property known t' := by
  have hreturn := h.accords.toOwns.getterType?_eq hretains hget
  constructor
  · exact h.accords.of_get_eq hretains hget
  · rw [hreturn]
    exact h.getterType?_isSome
  · rw [hreturn, DescriptorTable.valueType?_congr (hget .itself)]
    exact h.valueType?_eq

/-- A property that has no type has no getter either, so that none gets its type. -/
theorem AccessorsTyped.getterType?_fillPropertyType
    {known : Option Ty} (h : AccessorsTyped decl property known t)
    (hopen : t.valueType? property = none) (type : Ty) :
    (t.fillPropertyType property type).getterType? property = t.getterType? property := by
  have hretains := (DescriptorTable.Fills.fillPropertyType t property type).retains
  have hgetter : t.getter? property = none := by
    have hvalue := h.valueType?_eq
    rw [hopen] at hvalue
    rw [Option.orElse_eq_orElse, Option.orElse_eq_or, eq_comm, Option.or_eq_none_iff] at hvalue
    obtain ⟨-, hnone⟩ := hvalue
    rw [← Option.isNone_iff_eq_none, ← Option.isSome_eq_false_iff, h.accords.getter?_isSome,
      Bool.eq_false_iff]
    intro hsome
    have hknown := h.getterType?_isSome hsome
    rw [hnone] at hknown
    cases hknown
  unfold DescriptorTable.getterType?
  rw [hretains.getter?_eq h.accords.itself, hgetter, Option.bind_none, Option.bind_none]

/-- The body of a setter has no part in this. -/
theorem afterOr_resolveSetterBody_typed
    {known : Option Ty} (h : AccessorsTyped decl property known s.descriptors) {data : PropertyData}
    (hsetter : s.descriptors.setter? property = data.setter) (options : AnalysisOptions)
    (scope : Nat) :
    AfterOr (resolveSetterBody options decl data scope) s
      (fun _ s' => AccessorsTyped decl property known s'.descriptors) fun _ _ => True := by
  have hset : ∀ {f}, data.setter = some f → AllowsReturnTypeOf
      (Leaves decl.nodes s.descriptors (s.descriptors.PartOf property)) f := by
    intro f hf
    apply allowsReturnTypeOf_leaves
    intro hpart
    cases hpart.role_eq (h.accords.setter (hsetter.trans hf)).1.toHas
  have hnodes : decl.setter.toList.flatMap Accessor.nodes ⊆ decl.nodes :=
    List.Subset.trans (List.subset_append_right ..) (List.subset_cons_self ..)
  have hkeeps := keepsOr_resolveSetter_of hset options hnodes scope
  refine AfterOr.relax (hkeeps.afterOr s) fun _ s' h' => ?_
  exact h.of_get_eq h'.proceeds.fills.retains fun hd =>
    h'.get_eq (.refl _) (h.accords.partOf hd).lt_size (h.accords.partOf hd)

theorem afterOr_resolveAccessors_typed
    (h : s.descriptors.Accords decl property) {data : PropertyData}
    (hgetter : s.descriptors.getter? property = data.getter)
    (hsetter : s.descriptors.setter? property = data.setter) (options : AnalysisOptions)
    (scope : Nat) :
    AfterOr (resolveAccessors options decl property data scope) s
      (fun _ s' => AccessorsTyped decl property (s.descriptors.valueType? property)
        s'.descriptors) fun _ _ => True := by
  unfold resolveAccessors
  cases haccessor : decl.getter with
  | none =>
      refine afterOr_resolveSetterBody_typed ⟨h, ?_, ?_⟩ hsetter options scope
      · rw [haccessor]
        nofun
      · rw [h.getterType?_eq_none haccessor]
        simp
  | some accessor =>
      obtain ⟨function, hfunction⟩ : ∃ g, s.descriptors.getter? property = some g := by
        rw [← Option.isSome_iff_exists, h.getter?_isSome, haccessor]
        rfl
      rw [← hgetter, hfunction]
      dsimp only
      -- Until the return type is filled in for the property, only the getter changes.
      let kept : Nat → Prop := fun d => s.descriptors.PartOf property d ∧ d ≠ function
      have hset : AllowsReturnTypeOf (Leaves decl.nodes s.descriptors kept) function :=
        allowsReturnTypeOf_leaves fun hkept => hkept.2 rfl
      have hnodes : decl.getter.toList.flatMap Accessor.nodes ⊆ decl.nodes := by
        apply List.Subset.trans _ (List.subset_cons_self ..)
        apply List.subset_append_of_subset_left
        exact List.subset_append_right ..
      have hkeeps := keepsOr_resolveFunctionBody_of hset options accessor.id
        (accessor_body_subset hnodes haccessor) scope
      have hsignature := (h.getter hfunction).isSome_signature?
      have hbody := AfterOk.of_keepsOr hkeeps
        (afterOk_resolveFunctionBody hsignature options accessor.id accessor.body scope)
      refine AfterOr.bind hbody.afterOr fun _ s₁ h₁ => ?_
      refine afterOr_bind.mpr (afterOr_get.mpr ?_)
      obtain ⟨type, htype⟩ := Option.isSome_iff_exists.mp h₁.2
      rw [htype]
      have hfill : After (onDescriptors (·.fillPropertyType property type)) s₁ fun _ s₂ =>
          AccessorsTyped decl property (s.descriptors.valueType? property) s₂.descriptors ∧
            s₂.descriptors.setter? property = data.setter := by
        refine after_onDescriptors.mpr ?_
        obtain ⟨haccords, hvalue, hreturn⟩ := h.fill_returnType h₁.1.proceeds.fills
          (fun hd hne => h₁.1.get_eq (.refl _) (h.partOf hd).lt_size ⟨h.partOf hd, hne⟩) hfunction
          htype
        have hretains := (h₁.1.proceeds.fills.trans (.fillPropertyType _ property type)).retains
        have hknown : (s₁.descriptors.fillPropertyType property type).getterType? property =
            some type := by
          refine Eq.trans (congrArg (Option.bind · _) (hretains.getter?_eq h.itself)) ?_
          rw [hfunction]
          exact hreturn
        refine ⟨⟨haccords, fun _ => Option.isSome_of_eq_some hknown, ?_⟩, ?_⟩
        · exact hvalue.trans (congrArg (s.descriptors.valueType? property <|> ·) hknown.symm)
        · exact (hretains.setter?_eq h.itself).trans hsetter
      refine AfterOr.bind (AfterOr.lift hfill) fun _ s₂ h₂ => ?_
      exact afterOr_resolveSetterBody_typed h₂.1 h₂.2 options scope

/-! ## The end of a property -/

/-- If no type has been found, that is reported, and an error type is filled in. -/
theorem after_concludeProperty_typed
    {found : Option Ty} (h : AccessorsTyped decl property found s.descriptors) :
    After (concludeProperty decl property) s fun _ s' => s'.TypesProperty decl property found := by
  have hfield : ∀ {s₁ : Session}, s₁.TypesProperty decl property found →
      After (concludeField decl property) s₁ fun _ s₂ => s₂.TypesProperty decl property found := by
    intro s₁ h₁
    have htypes : Keeps (Types []) (concludeField decl property) := keeps_concludeField ..
    refine After.mono (htypes.after s₁) fun _ s₂ h₂ => ?_
    exact h₁.of_get_eq h₂.extends_.fills.retains
      (fun hd => h₂.extends_.get_eq _ (h₁.accords.partOf hd).lt_size) h₂.follows.diagnostics_prefix
  refine after_bind.mpr (after_get.mpr ?_)
  dsimp only
  cases hvalue : s.descriptors.valueType? property with
  | some type =>
      have htype := h.valueType?_eq
      rw [hvalue] at htype
      refine hfield ⟨h.accords, h.getterType?_isSome, ?_, ?_⟩
      · rw [hvalue, ← htype]
        rfl
      · rw [← htype]
        nofun
  | none =>
      have hreport : After (reportCode .semanticError decl.id untypedProperty) s fun _ s₁ =>
          s₁.descriptors = s.descriptors ∧
            .ofCode .semanticError decl.id untypedProperty ∈ s₁.diagnostics.toList := by
        refine ⟨rfl, ?_⟩
        change _ ∈ (s.diagnostics.push _).toList
        rw [Array.toList_push]
        exact List.mem_append_right _ List.mem_cons_self
      refine After.bind hreport fun _ s₁ h₁ => ?_
      have haccessors : AccessorsTyped decl property found s₁.descriptors := by
        rw [h₁.1]
        exact h
      have hopen : s₁.descriptors.valueType? property = none := by
        rw [h₁.1]
        exact hvalue
      have hgetter := haccessors.getterType?_fillPropertyType hopen (.error untypedProperty)
      have htype := haccessors.valueType?_eq
      rw [hopen] at htype
      have hfill : After (onDescriptors (·.fillPropertyType property (.error untypedProperty))) s₁
          fun _ s₂ => s₂.TypesProperty decl property found := by
        refine after_onDescriptors.mpr
          ⟨haccessors.accords.fillPropertyType _, fun hsome => ?_, ?_, fun _ => h₁.2⟩
        · exact (congrArg Option.isSome hgetter).trans (haccessors.getterType?_isSome hsome)
        · refine (haccessors.accords.toOwns.valueType?_fillPropertyType _).trans ?_
          refine Eq.trans ?_ (congrArg (fun o => some ((found <|> o).getD _)) hgetter.symm)
          rw [hopen, ← htype]
          rfl
      exact After.bind hfill fun _ s₂ h₂ => hfield h₂

/-! ## A property -/

theorem afterOr_finishProperty_typed
    (h : s.descriptors.Accords decl property) {data : PropertyData}
    (hgetter : s.descriptors.getter? property = data.getter)
    (hsetter : s.descriptors.setter? property = data.setter) (options : AnalysisOptions)
    (scope : Nat) :
    AfterOr (finishProperty options scope decl property data) s
      (fun _ s' => s'.TypesProperty decl property (s.descriptors.valueType? property))
      fun _ _ => True := by
  have hcreate : After (createScope .accessor (some scope) none) s
      fun _ s₁ => s₁.descriptors = s.descriptors := rfl
  refine AfterOr.bind (AfterOr.lift hcreate) fun accessorScope s₁ h₁ => ?_
  have hfield : After (onScopes (·.addField accessorScope decl.name property)) s₁
      fun _ s₂ => s₂.descriptors = s.descriptors := h₁
  refine AfterOr.bind (AfterOr.lift hfield) fun _ s₂ h₂ => ?_
  rw [← h₂] at h hgetter hsetter ⊢
  let watched : Session := { s₂ with recorder := s₂.recorder.watch (.tracker property) }
  have haccessors : AfterOr (observed (.tracker property)
      (resolveAccessors options decl property data accessorScope)) s₂ (fun _ s' =>
        AccessorsTyped decl property (s₂.descriptors.valueType? property) s'.descriptors)
      fun _ _ => True :=
    AfterOr.observed
      (afterOr_resolveAccessors_typed (s := watched) h hgetter hsetter options accessorScope)
  refine AfterOr.bind haccessors fun _ s₃ h₃ => ?_
  exact AfterOr.lift (after_concludeProperty_typed h₃)

/-- Before the accessors are resolved, what is found of the type is that of the declaration or, if
it has none, that of the initializer. -/
theorem afterOr_resolvePropertyBodies_typed
    (h : s.descriptors.Accords decl property) {scope : Nat} {named : String → List Nat}
    (hoffers : s.model.Offers scope named) (hdistinct : decl.nodes.Nodup)
    (hvacant : ∀ {slot : Slot}, slot.node ∈ decl.nodes → s.Vacant slot)
    (options : AnalysisOptions) :
    AfterOr (resolvePropertyBodies options scope decl property) s
      (fun _ s' => s'.TypesProperty decl property
        (s.descriptors.valueType? property <|> s'.initializerType? decl)) fun _ _ => True := by
  obtain ⟨data, hdata⟩ :=
    Option.isSome_iff_exists.mp (DescriptorTable.has_propertySort_iff.mp h.itself)
  have hgetter : s.descriptors.getter? property = data.getter := by
    unfold DescriptorTable.getter?
    rw [hdata, Option.bind_some]
  have hsetter : s.descriptors.setter? property = data.setter := by
    unfold DescriptorTable.setter?
    rw [hdata, Option.bind_some]
  refine afterOr_bind.mpr (afterOr_get.mpr ?_)
  rw [hdata]
  dsimp only
  cases hinitializer : decl.initializer with
  | none =>
      have hnone : ∀ s' : Session, s'.initializerType? decl = none := by
        intro s'
        unfold Session.initializerType?
        rw [hinitializer, Option.bind_none]
      refine AfterOr.mono (afterOr_finishProperty_typed h hgetter hsetter options scope)
        (fun _ s' h' => ?_) fun _ _ h' => h'
      rw [hnone]
      simpa using h'
  | some e =>
      have hsome : ∀ s' : Session, s'.initializerType? decl = s'.trace.expressionType? e.id := by
        intro s'
        unfold Session.initializerType?
        rw [hinitializer, Option.bind_some]
      -- The nodes of the initializer are apart from those of the accessors.
      let accessorNodes := decl.getter.toList.flatMap Accessor.nodes ++
        decl.setter.toList.flatMap Accessor.nodes
      have hnodes : (e.nodes ++ accessorNodes).Sublist decl.nodes := by
        refine List.Sublist.trans ?_ (List.sublist_cons_self decl.id _)
        rw [hinitializer, ← List.append_assoc]
        exact ((List.sublist_append_right _ _).append_right _).append_right _
      have hapart := hnodes.nodup hdistinct
      have hinit : After (resolveInitializer scope property data.setter e) s fun _ s₁ =>
          Proceeds decl.nodes s s₁ ∧ s₁.descriptors.Accords decl property ∧
            s₁.descriptors.valueType? property =
              (s.descriptors.valueType? property <|> s₁.trace.expressionType? e.id) := by
        have hsub : e.nodes ⊆ decl.nodes := fun node hnode =>
          hnodes.subset (List.mem_append_left _ hnode)
        have hkeeps : Keeps (Proceeds decl.nodes) _ :=
          keeps_resolveInitializer hsub scope property data.setter
        exact (hkeeps.after s).and (after_resolveInitializer_accords h hoffers
          (List.nodup_append.mp hapart).1 (fun hslot => hvacant (hsub hslot)) data.setter)
      refine AfterOr.bind (AfterOr.lift hinit) fun _ s₁ h₁ => ?_
      have hretains := h₁.1.fills.retains
      have hkeeps : KeepsOr (Proceeds accessorNodes)
          (finishProperty options scope decl property data) :=
        keepsOr_finishProperty_of (keeps_fillPropertyType property)
          (fun _ => allowsReturnTypeOf_proceeds _ _) options (List.subset_append_left ..)
          (List.subset_append_right ..) scope
      have hfinish := AfterOr.of_keepsOr hkeeps (afterOr_finishProperty_typed h₁.2.1
        ((hretains.getter?_eq h.itself).trans hgetter)
        ((hretains.setter?_eq h.itself).trans hsetter) options scope)
      refine AfterOr.relax hfinish fun _ s₂ h₂ => ?_
      have hnode : e.id ∉ accessorNodes := fun hmem =>
        List.disjoint_of_nodup_append hapart e.id_mem_nodes hmem
      rw [hsome, h₂.1.follows.expressionType?_eq hnode, ← h₁.2.2]
      exact h₂.2

end Analysis

end DeclAnalysis
