import DeclAnalysis.Resolve.Body
import DeclAnalysis.Proofs.Resolve.Parts
import DeclAnalysis.Proofs.Semantic.Evolution

/-!
# Filling in the type of a property

The type of a property is shared by its getter and by the parameter of its setter. All of
them that are still open are filled in at once, and nothing that is known is replaced.
-/

namespace DeclAnalysis

namespace DescriptorTable

variable {t t' : DescriptorTable}

/-- A change of a signature leaves the types of values alone. -/
theorem valueType?_editSignature (t : DescriptorTable) (id id' : Nat) (f : Signature → Signature) :
    (t.editSignature id f).valueType? id' = t.valueType? id' := by
  unfold valueType? editSignature
  rcases t.kind_modifyKind_cases id id' _ with heq | ⟨-, heq⟩
  · rw [heq]
  · rw [heq]
    cases (t.get id').kind <;> rfl

theorem valueType?_editProperty_of_ne (t : DescriptorTable) {id id' : Nat} (h : id' ≠ id)
    (f : PropertyData → PropertyData) :
    (t.editProperty id f).valueType? id' = t.valueType? id' := by
  unfold valueType? editProperty
  rw [t.get_modifyKind_of_ne h]

/-- A change of a variable leaves the types of properties alone. -/
theorem valueType?_editVariable (t : DescriptorTable) {id' : Nat}
    (h : (t.propertyData? id').isSome) (id : Nat) (f : VariableData → VariableData) :
    (t.editVariable id f).valueType? id' = t.valueType? id' := by
  unfold valueType? editVariable
  unfold propertyData? at h
  rcases t.kind_modifyKind_cases id id' _ with heq | ⟨-, heq⟩
  · rw [heq]
  · rw [heq]
    cases hkind : (t.get id').kind with
    | variableKind data => simp [hkind] at h
    | _ => rfl

/-- What each of the three steps keeps is kept when the type of a property is filled in. -/
theorem fillPropertyType_steps
    {p : DescriptorTable → Prop} {property : Nat} {type : Ty} (h : p t)
    (hproperty : ∀ t, p t →
      p (t.editProperty property fun data => { data with type := data.type <|> some type }))
    (hgetter : ∀ t g, p t →
      p (t.editSignature g fun s => { s with returnType := s.returnType <|> some type }))
    (hvalue : ∀ t v, p t →
      p (t.editVariable v fun v => { v with type := v.type <|> some type })) :
    p (t.fillPropertyType property type) := by
  unfold fillPropertyType
  cases t.propertyData? property with
  | none => exact h
  | some data =>
      have h₁ := hproperty t h
      dsimp only
      cases data.getter with
      | none =>
          cases data.setter.bind _ with
          | none => exact h₁
          | some v => exact hvalue _ v h₁
      | some g =>
          have h₂ := hgetter _ g h₁
          cases data.setter.bind _ with
          | none => exact h₂
          | some v => exact hvalue _ v h₂

theorem Fills.fillPropertyType (t : DescriptorTable) (property : Nat) (type : Ty) :
    t.Fills (t.fillPropertyType property type) :=
  fillPropertyType_steps (Fills.refl t) (fun t₁ h => h.trans (.fillPropertyData t₁ property type))
    (fun t₁ g h => h.trans (.fillReturnType t₁ g type))
    fun t₁ v h => h.trans (.fillVariableData t₁ v type)

/-- Other properties are not concerned. -/
theorem valueType?_fillPropertyType_of_ne {property id : Nat} (hne : id ≠ property)
    (h : (t.propertyData? id).isSome) (type : Ty) :
    (t.fillPropertyType property type).valueType? id = t.valueType? id := by
  have hstep : ∀ {t₁ t₂ : DescriptorTable}, t₁.Fills t₂ →
      t₂.valueType? id = t₁.valueType? id →
      (t₁.propertyData? id).isSome ∧ t₁.valueType? id = t.valueType? id →
      (t₂.propertyData? id).isSome ∧ t₂.valueType? id = t.valueType? id := by
    rintro t₁ t₂ hfills heq ⟨hdata, htype⟩
    obtain ⟨data, hdata⟩ := Option.isSome_iff_exists.mp hdata
    obtain ⟨data', hdata', -⟩ := hfills.propertyData? hdata
    exact ⟨by rw [hdata']; rfl, heq.trans htype⟩
  have hkept : ((t.fillPropertyType property type).propertyData? id).isSome ∧
      (t.fillPropertyType property type).valueType? id = t.valueType? id :=
    fillPropertyType_steps
    (p := fun t₁ => (t₁.propertyData? id).isSome ∧ t₁.valueType? id = t.valueType? id)
    ⟨h, rfl⟩
    (fun t₁ h₁ => hstep (.fillPropertyData t₁ property type)
      (t₁.valueType?_editProperty_of_ne hne _) h₁)
    (fun t₁ g h₁ => hstep (.fillReturnType t₁ g type) (t₁.valueType?_editSignature g id _) h₁)
    fun t₁ v h₁ => hstep (.fillVariableData t₁ v type) (t₁.valueType?_editVariable h₁.1 v _) h₁
  exact hkept.2

/-! ## What is known afterwards -/

theorem isSome_orElse_some {α : Type} (o : Option α) (a : α) : (o <|> some a).isSome := by
  cases o <;> rfl

theorem isSome_valueType?_editProperty {id : Nat} {data : PropertyData}
    (h : t.propertyData? id = some data) (type : Ty) :
    ((t.editProperty id fun p => { p with type := p.type <|> some type }).valueType? id).isSome := by
  unfold valueType?
  rw [kind_editProperty_self h]
  exact isSome_orElse_some ..

theorem isSome_valueType?_editVariable {id : Nat} {data : VariableData} (hid : id < t.size)
    (h : (t.get id).kind = .variableKind data) (type : Ty) :
    ((t.editVariable id fun v => { v with type := v.type <|> some type }).valueType? id).isSome := by
  unfold editVariable valueType?
  rw [t.get_modifyKind_self hid, h]
  exact isSome_orElse_some ..

/-- The type of the property is known. -/
theorem isSome_valueType?_fillPropertyType {property : Nat}
    (h : (t.propertyData? property).isSome) (type : Ty) :
    ((t.fillPropertyType property type).valueType? property).isSome := by
  obtain ⟨data, hdata⟩ := Option.isSome_iff_exists.mp h
  have hfirst := isSome_valueType?_editProperty hdata type
  unfold fillPropertyType
  rw [hdata]
  dsimp only
  have hvalue : ∀ t₁ : DescriptorTable, (t₁.valueType? property).isSome →
      ((t₁.fillSetterValue data.setter type).valueType? property).isSome := by
    intro t₁ h₁
    unfold fillSetterValue
    split
    · exact h₁
    · exact (Fills.fillVariableData t₁ _ type).isSome_valueType? h₁
  cases data.getter with
  | none => exact hvalue _ hfirst
  | some g => exact hvalue _ ((Fills.fillReturnType _ g type).isSome_valueType? hfirst)

/-- So is that of the parameter of its setter. -/
theorem isSome_valueType?_fillPropertyType_setter {property v : Nat}
    (h : t.SetterTakes property v) (type : Ty) :
    ((t.fillPropertyType property type).valueType? v).isSome := by
  obtain ⟨data, function, s, hdata, hsetter, hs, hhead⟩ := h.setter
  unfold fillPropertyType
  rw [hdata]
  dsimp only
  have hvalue : ∀ t₁ : DescriptorTable, t.Fills t₁ →
      ((t₁.fillSetterValue data.setter type).valueType? v).isSome := by
    intro t₁ h₁
    have hv := h₁.setterTakes h
    obtain ⟨s₁, hs₁, hparameters, -⟩ := h₁.signature? hs
    obtain ⟨variable_, hkind⟩ := hv.kind
    have hvalue : data.setter.bind t₁.setterValue? = some v := by
      rw [hsetter]
      unfold setterValue?
      rw [Option.bind_some, hs₁, Option.bind_some, hparameters]
      exact hhead
    unfold fillSetterValue
    rw [hvalue]
    exact isSome_valueType?_editVariable hv.lt_size hkind type
  have hfirst := Fills.fillPropertyData t property type
  cases data.getter with
  | none => exact hvalue _ hfirst
  | some g => exact hvalue _ (hfirst.trans (.fillReturnType _ g type))

theorem FillsTogether.fillPropertyType (t : DescriptorTable) (property : Nat) (type : Ty) :
    t.FillsTogether (t.fillPropertyType property type) := by
  intro p v hv hnone hsome
  by_cases hp : p = property
  · subst hp
    exact isSome_valueType?_fillPropertyType_setter hv type
  · obtain ⟨data, _, _, hdata, _⟩ := hv.setter
    rw [valueType?_fillPropertyType_of_ne hp (by rw [hdata]; rfl), hnone] at hsome
    cases hsome

end DescriptorTable

end DeclAnalysis
