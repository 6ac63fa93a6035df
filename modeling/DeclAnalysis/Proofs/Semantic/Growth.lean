import DeclAnalysis.Proofs.Semantic.Evolution

/-!
# How tables of descriptors grow

Up to the resolution of bodies, descriptors are added and what exists stays as it is,
except that classes are given their supertypes and constructors. What has been added is
complete, apart from descriptors that are named.
-/

namespace DeclAnalysis

namespace DescriptorKind

/-- A class may change as long as it is open; anything else stays as it is. -/
inductive Stays : DescriptorKind → DescriptorKind → Prop
  | refl (kind : DescriptorKind) : Stays kind kind
  | classKind {finalized : Bool} {data data' : ClassData} :
      Stays (.classKind finalized data) (.classKind finalized data')

theorem Stays.trans {a b c : DescriptorKind} (hab : a.Stays b) (hbc : b.Stays c) : a.Stays c := by
  cases hab with
  | refl => exact hbc
  | classKind =>
      cases hbc with
      | refl | classKind => exact .classKind

theorem Stays.complete {a b : DescriptorKind} (h : a.Stays b) (ha : a.Complete) :
    b.Complete := by
  cases h with
  | refl | classKind => exact ha

end DescriptorKind

namespace DescriptorTable

/-- Descriptors have been added, all of them complete except for some. -/
structure Grows (except : Nat → Prop) (t t' : DescriptorTable) : Prop where
  size_le : t.size ≤ t'.size
  container_eq : ∀ id, id < t.size → (t'.get id).container = (t.get id).container
  kind : ∀ id, id < t.size → (t.get id).kind.Stays (t'.get id).kind
  added : ∀ id, t.size ≤ id → id < t'.size → t'.Complete id ∨ except id

/-- Descriptors have been added, whether complete or not. -/
abbrev Enlarges (t t' : DescriptorTable) : Prop := Grows (fun _ => True) t t'

variable {t t' t'' : DescriptorTable} {except except' : Nat → Prop} {id : Nat}

theorem Grows.refl (except : Nat → Prop) (t : DescriptorTable) : Grows except t t :=
  ⟨Nat.le_refl _, fun _ _ => rfl, fun _ _ => .refl _,
    fun _ hle hlt => absurd hlt (Nat.not_lt.mpr hle)⟩

theorem Grows.trans (h : Grows except t t') (h' : Grows except t' t'') : Grows except t t'' where
  size_le := h.size_le.trans h'.size_le
  container_eq id hid :=
    (h'.container_eq id (hid.trans_le h.size_le)).trans (h.container_eq id hid)
  kind id hid := (h.kind id hid).trans (h'.kind id (hid.trans_le h.size_le))
  added id hle hlt := by
    by_cases hid : id < t'.size
    · exact (h.added id hle hid).imp_left fun h => ⟨(h'.kind id hid).complete h.kind⟩
    · exact h'.added id (Nat.le_of_not_lt hid) hlt

theorem Grows.mono (h : Grows except t t') (himp : ∀ id, except id → except' id) :
    Grows except' t t' :=
  ⟨h.size_le, h.container_eq, h.kind, fun id hle hlt => (h.added id hle hlt).imp_right (himp id)⟩

theorem Grows.enlarges (h : Grows except t t') : Enlarges t t' :=
  h.mono fun _ _ => trivial

theorem Extends.grows (h : t.Extends t') : Grows except t t' where
  size_le := h.size_le
  container_eq id hid := congrArg Descriptor.container (h.get_eq id hid)
  kind id hid := by
    rw [h.get_eq id hid]
    exact .refl _
  added id hle hlt := .inl (h.added id hle hlt)

/-- A descriptor that is added may be the exception. -/
theorem Grows.create (t : DescriptorTable) (name : String) (container : Option Nat)
    {kind : DescriptorKind} (hkind : kind.Complete ∨ except t.size) :
    Grows except t (t.create name container kind).2 where
  size_le := by simp [size_create]
  container_eq id hid := by rw [t.get_create_of_ne _ _ _ hid.ne]
  kind id hid := by
    rw [t.get_create_of_ne _ _ _ hid.ne]
    exact .refl _
  added id hle hlt := by
    rw [size_create] at hlt
    obtain rfl : id = t.size := Nat.le_antisymm (Nat.le_of_lt_succ hlt) hle
    refine hkind.imp_left fun hcomplete => ⟨?_⟩
    rw [get_create_size]
    exact hcomplete

/-- A descriptor that has just been added may be changed. -/
theorem Grows.modifyKind (h : Grows except t t') (hid : t.size ≤ id)
    {f : DescriptorKind → DescriptorKind} (hf : ∀ kind : DescriptorKind, kind.Complete →
      (f kind).Complete) :
    Grows except t (t'.modifyKind id f) where
  size_le := by
    rw [size_modifyKind]
    exact h.size_le
  container_eq id' hid' := by
    rw [get_modifyKind_of_ne _ (hid'.trans_le hid).ne]
    exact h.container_eq id' hid'
  kind id' hid' := by
    rw [get_modifyKind_of_ne _ (hid'.trans_le hid).ne]
    exact h.kind id' hid'
  added id' hle hlt := by
    rw [size_modifyKind] at hlt
    rcases h.added id' hle hlt with hcomplete | hexcept
    · refine .inl ⟨?_⟩
      rcases t'.kind_modifyKind_cases id id' f with heq | ⟨-, heq⟩
      · rw [heq]
        exact hcomplete.kind
      · rw [heq]
        exact hf _ hcomplete.kind
    · exact .inr hexcept

theorem Grows.editSignature (h : Grows except t t') (hid : t.size ≤ id)
    {f : Signature → Signature} (hf : ∀ s, s.returnType.isSome → (f s).returnType.isSome) :
    Grows except t (t'.editSignature id f) := by
  refine h.modifyKind hid fun kind hkind => ?_
  cases kind with
  | functionKind s | constructorKind s => exact hf s hkind
  | _ => exact hkind

theorem Grows.editProperty (h : Grows except t t') (hid : t.size ≤ id)
    {f : PropertyData → PropertyData} (hf : ∀ data, data.type.isSome → (f data).type.isSome) :
    Grows except t (t'.editProperty id f) := by
  refine h.modifyKind hid fun kind hkind => ?_
  cases kind with
  | propertyKind data => exact hf data hkind
  | _ => exact hkind

/-- What has been completed is no exception any more. -/
theorem Grows.of_complete (h : Grows (fun d => d = id ∨ except d) t t') (hid : t'.Complete id) :
    Grows except t t' where
  size_le := h.size_le
  container_eq := h.container_eq
  kind := h.kind
  added id' hle hlt := by
    rcases h.added id' hle hlt with hcomplete | rfl | hexcept
    · exact .inl hcomplete
    · exact .inl hid
    · exact .inr hexcept

/-- Classes that are open may be changed. -/
theorem Grows.editClass {f : ClassData → ClassData} (h : t.editClass id f = .ok t') :
    Grows except t t' := by
  unfold DescriptorTable.editClass at h
  split at h
  · rename_i data hkind
    obtain rfl := Except.ok.inj h
    refine ⟨(size_modifyKind ..).ge, fun id' hid' => ?_, fun id' hid' => ?_, fun id' hle hlt => ?_⟩
    · exact t.container_get_modifyKind ..
    · rcases t.kind_modifyKind_cases id id' _ with heq | ⟨rfl, heq⟩
      · rw [heq]
        exact .refl _
      · rw [heq, hkind]
        exact .classKind
    · rw [size_modifyKind] at hlt
      exact absurd hlt (Nat.not_lt.mpr hle)
  · cases h
  · cases h

/-! ## What stays as it is -/

theorem complete_of_returnType? (h : (t.returnType? id).isSome) : t.Complete id := by
  unfold returnType? signature? at h
  refine ⟨?_⟩
  cases hkind : (t.get id).kind with
  | functionKind s | constructorKind s =>
      rw [hkind] at h
      exact h
  | _ =>
      rw [hkind] at h
      cases h

theorem complete_of_valueType? (h : (t.valueType? id).isSome) : t.Complete id := by
  unfold valueType? at h
  refine ⟨?_⟩
  cases hkind : (t.get id).kind with
  | propertyKind data | variableKind data =>
      rw [hkind] at h
      exact h
  | _ =>
      rw [hkind] at h
      cases h

/-- What is complete exists. -/
theorem lt_size_of_complete (h : t.Complete id) : id < t.size := by
  by_contra hid
  have hid' : t.entries.size ≤ id := Nat.le_of_not_lt hid
  have hkind := h.kind
  simp [DescriptorKind.Complete, get, hid'] at hkind

section

variable (h : Grows except t t') (hid : id < t.size)

include h hid

theorem Grows.valueType?_eq : t'.valueType? id = t.valueType? id := by
  have hkind := h.kind id hid
  unfold DescriptorTable.valueType?
  generalize (t.get id).kind = a at hkind
  generalize (t'.get id).kind = b at hkind
  cases hkind with
  | refl | classKind => rfl

theorem Grows.signature?_eq : t'.signature? id = t.signature? id := by
  have hkind := h.kind id hid
  unfold DescriptorTable.signature?
  generalize (t.get id).kind = a at hkind
  generalize (t'.get id).kind = b at hkind
  cases hkind with
  | refl | classKind => rfl

theorem Grows.propertyData?_eq : t'.propertyData? id = t.propertyData? id := by
  have hkind := h.kind id hid
  unfold DescriptorTable.propertyData?
  generalize (t.get id).kind = a at hkind
  generalize (t'.get id).kind = b at hkind
  cases hkind with
  | refl | classKind => rfl

end

theorem Grows.variableKind {data : VariableData} (h : Grows except t t') (hid : id < t.size)
    (hkind : (t.get id).kind = .variableKind data) : (t'.get id).kind = .variableKind data := by
  have hstays := h.kind id hid
  rw [hkind] at hstays
  generalize (t'.get id).kind = b at hstays ⊢
  cases hstays with
  | refl => rfl

theorem Grows.setterTakes {property v : Nat} (h : Grows except t t')
    (hv : t.SetterTakes property v) : t'.SetterTakes property v := by
  obtain ⟨data, hdata⟩ := hv.kind
  obtain ⟨property', function, s, hproperty, hsetter, hs, hhead⟩ := hv.setter
  have hproperty' := h.propertyData?_eq (lt_size_of_propertyData? (by rw [hproperty]; rfl))
  have hs' := h.signature?_eq (lt_size_of_signature? (by rw [hs]; rfl))
  refine ⟨hv.lt_size.trans_le h.size_le, ⟨data, h.variableKind hv.lt_size hdata⟩, ?_⟩
  exact ⟨property', function, s, hproperty'.trans hproperty, hsetter, hs'.trans hs, hhead⟩

/-! ## Types are written once -/

/-- No type of a variable, parameter or property and no return type that is known is
replaced. -/
structure WritesOnce (t t' : DescriptorTable) : Prop where
  valueType : ∀ id type, t.valueType? id = some type → t'.valueType? id = some type
  returnType : ∀ id type, t.returnType? id = some type → t'.returnType? id = some type

theorem WritesOnce.refl (t : DescriptorTable) : t.WritesOnce t :=
  ⟨fun _ _ h => h, fun _ _ h => h⟩

theorem WritesOnce.trans (h : t.WritesOnce t') (h' : t'.WritesOnce t'') : t.WritesOnce t'' :=
  ⟨fun id type htype => h'.valueType id type (h.valueType id type htype),
    fun id type htype => h'.returnType id type (h.returnType id type htype)⟩

theorem Fills.writesOnce (h : t.Fills t') : t.WritesOnce t' :=
  ⟨fun _ _ htype => h.valueType?_eq htype, fun _ _ htype => h.returnType?_eq htype⟩

theorem Grows.writesOnce (h : Grows except t t') : t.WritesOnce t' := by
  refine ⟨fun id type htype => ?_, fun id type htype => ?_⟩
  · rw [h.valueType?_eq (lt_size_of_valueType? htype)]
    exact htype
  · have hid := lt_size_of_returnType? (by rw [htype]; rfl)
    unfold DescriptorTable.returnType? at htype ⊢
    rw [h.signature?_eq hid]
    exact htype

end DescriptorTable

/-!
## Finalized classes

Finalizing the classes of a table makes every class complete and leaves everything else as
it is.
-/

namespace DescriptorTable

theorem get_finalizeClasses (t : DescriptorTable) (id : Nat) :
    t.finalizeClasses.2.get id = finalized (t.get id) := by
  unfold finalizeClasses get
  rw [Array.getD_eq_getD_getElem?, Array.getD_eq_getD_getElem?, Array.getElem?_map]
  cases t.entries[id]? with
  | none => rfl
  | some d => rfl

theorem size_finalizeClasses (t : DescriptorTable) : t.finalizeClasses.2.size = t.size :=
  Array.size_map

theorem container_finalized (d : Descriptor) : (finalized d).container = d.container := by
  unfold finalized
  split
  · rfl
  · rfl

/-- Finalizing changes no more than whether a class may be changed. -/
theorem kind_finalized (d : Descriptor) :
    (finalized d).kind = match d.kind with
      | .classKind _ data => .classKind true data
      | kind => kind := by
  unfold finalized
  cases h : d.kind with
  | classKind finalized data => rfl
  | _ => exact h

section

variable (t : DescriptorTable) (id : Nat)

theorem classData?_finalizeClasses : t.finalizeClasses.2.classData? id = t.classData? id := by
  unfold classData?
  rw [get_finalizeClasses, kind_finalized]
  cases (t.get id).kind <;> rfl

theorem signature?_finalizeClasses : t.finalizeClasses.2.signature? id = t.signature? id := by
  unfold signature?
  rw [get_finalizeClasses, kind_finalized]
  cases (t.get id).kind <;> rfl

theorem propertyData?_finalizeClasses :
    t.finalizeClasses.2.propertyData? id = t.propertyData? id := by
  unfold propertyData?
  rw [get_finalizeClasses, kind_finalized]
  cases (t.get id).kind <;> rfl

theorem valueType?_finalizeClasses : t.finalizeClasses.2.valueType? id = t.valueType? id := by
  unfold valueType?
  rw [get_finalizeClasses, kind_finalized]
  cases (t.get id).kind <;> rfl

theorem returnType?_finalizeClasses : t.finalizeClasses.2.returnType? id = t.returnType? id := by
  unfold returnType?
  rw [signature?_finalizeClasses]

theorem hasAccessor_finalizeClasses (function : Nat) :
    (t.finalizeClasses.2.get id).kind.HasAccessor function ↔
      (t.get id).kind.HasAccessor function := by
  rw [get_finalizeClasses, kind_finalized]
  cases (t.get id).kind <;> rfl

variable {t id}

theorem complete_finalizeClasses (h : t.Complete id) : t.finalizeClasses.2.Complete id := by
  have hcomplete := h.kind
  refine ⟨?_⟩
  rw [get_finalizeClasses, kind_finalized]
  cases hkind : (t.get id).kind with
  | classKind => rfl
  | _ => rwa [hkind] at hcomplete

/-- A class is complete as soon as it is finalized. -/
theorem complete_finalizeClasses_of_classData? (h : (t.classData? id).isSome) :
    t.finalizeClasses.2.Complete id := by
  obtain ⟨data, hdata⟩ := Option.isSome_iff_exists.mp h
  obtain ⟨finalized, hkind⟩ := kind_of_classData? hdata
  refine ⟨?_⟩
  rw [get_finalizeClasses, kind_finalized, hkind]
  rfl

theorem SetterTakes.finalizeClasses {v : Nat} (h : t.SetterTakes id v) :
    t.finalizeClasses.2.SetterTakes id v := by
  obtain ⟨data, hkind⟩ := h.kind
  obtain ⟨property, function, s, hproperty, hsetter, hs, hhead⟩ := h.setter
  refine ⟨h.lt_size.trans_eq t.size_finalizeClasses.symm, ⟨data, ?_⟩, ?_⟩
  · rw [get_finalizeClasses, kind_finalized, hkind]
  · exact ⟨property, function, s, (t.propertyData?_finalizeClasses id).trans hproperty, hsetter,
      (t.signature?_finalizeClasses function).trans hs, hhead⟩

theorem WritesOnce.finalizeClasses (t : DescriptorTable) : t.WritesOnce t.finalizeClasses.2 :=
  ⟨fun id _ h => (t.valueType?_finalizeClasses id).trans h,
    fun id _ h => (t.returnType?_finalizeClasses id).trans h⟩

end

end DescriptorTable

end DeclAnalysis
