import Mathlib.Order.Nat
import DeclAnalysis.Semantic.Descriptor
import DeclAnalysis.Semantic.Scope

/-!
# How descriptors evolve

Descriptors are only ever added, and one that exists changes in few ways: it stays of
its kind, and what has become known about it stays known.
-/

namespace DeclAnalysis

namespace DescriptorKind

/-- How what a descriptor stands for may change. -/
inductive Evolves : DescriptorKind → DescriptorKind → Prop
  | namespaceKind {members : Nat} : Evolves (.namespaceKind members) (.namespaceKind members)
  | classKind {finalized : Bool} {data data' : ClassData}
      (hmembers : data'.memberScope = data.memberScope) :
      Evolves (.classKind finalized data) (.classKind finalized data')
  | constructorKind {s s' : Signature} (hreturn : s.returnType.isSome → s'.returnType.isSome) :
      Evolves (.constructorKind s) (.constructorKind s')
  | functionKind {s s' : Signature} (hreturn : s.returnType.isSome → s'.returnType.isSome) :
      Evolves (.functionKind s) (.functionKind s')
  | propertyKind {data data' : PropertyData} (htype : data.type.isSome → data'.type.isSome) :
      Evolves (.propertyKind data) (.propertyKind data')
  | variableKind {data data' : VariableData} (htype : data.type.isSome → data'.type.isSome) :
      Evolves (.variableKind data) (.variableKind data')

theorem Evolves.refl (kind : DescriptorKind) : kind.Evolves kind := by
  cases kind with
  | namespaceKind => exact .namespaceKind
  | classKind => exact .classKind rfl
  | constructorKind => exact .constructorKind id
  | functionKind => exact .functionKind id
  | propertyKind => exact .propertyKind id
  | variableKind => exact .variableKind id

theorem Evolves.trans {a b c : DescriptorKind} (hab : a.Evolves b) (hbc : b.Evolves c) :
    a.Evolves c := by
  cases hab with
  | namespaceKind => exact hbc
  | classKind h =>
      cases hbc with
      | classKind h' => exact .classKind (h'.trans h)
  | constructorKind h =>
      cases hbc with
      | constructorKind h' => exact .constructorKind (h' ∘ h)
  | functionKind h =>
      cases hbc with
      | functionKind h' => exact .functionKind (h' ∘ h)
  | propertyKind h =>
      cases hbc with
      | propertyKind h' => exact .propertyKind (h' ∘ h)
  | variableKind h =>
      cases hbc with
      | variableKind h' => exact .variableKind (h' ∘ h)

/-- Nothing is open any more: a class is finalized, and the type of anything else is known. -/
def Complete : DescriptorKind → Prop
  | .namespaceKind _ => True
  | .classKind finalized _ => finalized = true
  | .constructorKind s | .functionKind s => s.returnType.isSome
  | .propertyKind data => data.type.isSome
  | .variableKind data => data.type.isSome

/-- A class, if it is one, may still be changed. -/
def Unfinalized : DescriptorKind → Prop
  | .classKind finalized _ => finalized = false
  | _ => True

theorem Evolves.unfinalized {a b : DescriptorKind} (h : a.Evolves b) (ha : a.Unfinalized) :
    b.Unfinalized := by
  cases h with
  | classKind => exact ha
  | _ => trivial

/-- The function is an accessor of a property. -/
def HasAccessor : DescriptorKind → Nat → Prop
  | .propertyKind data, function => data.getter = some function ∨ data.setter = some function
  | _, _ => False

/-- A descriptor may be added: a class is open, and a property has no accessors yet. -/
structure IsNew (kind : DescriptorKind) : Prop where
  unfinalized : kind.Unfinalized
  not_hasAccessor : ∀ function, ¬kind.HasAccessor function

theorem IsNew.variableKind (data : VariableData) : (DescriptorKind.variableKind data).IsNew :=
  ⟨trivial, fun _ => False.elim⟩

theorem IsNew.functionKind (s : Signature) : (DescriptorKind.functionKind s).IsNew :=
  ⟨trivial, fun _ => False.elim⟩

theorem IsNew.constructorKind (s : Signature) : (DescriptorKind.constructorKind s).IsNew :=
  ⟨trivial, fun _ => False.elim⟩

theorem IsNew.namespaceKind (members : Nat) : (DescriptorKind.namespaceKind members).IsNew :=
  ⟨trivial, fun _ => False.elim⟩

theorem IsNew.classKind (data : ClassData) : (DescriptorKind.classKind false data).IsNew :=
  ⟨rfl, fun _ => False.elim⟩

theorem IsNew.propertyKind (mutable : Bool) (type : Option Ty) :
    (DescriptorKind.propertyKind { mutable, type }).IsNew := by
  refine ⟨trivial, fun function h => ?_⟩
  rcases h with h | h
  · cases h
  · cases h

end DescriptorKind

namespace DescriptorTable

variable (t : DescriptorTable) (name : String) (container : Option Nat) (kind : DescriptorKind)

theorem size_create : (t.create name container kind).2.size = t.size + 1 :=
  Array.size_push _

theorem get_create_size : (t.create name container kind).2.get t.size =
    { name, container, kind } := by
  simp [create, get, size]

theorem get_create_of_ne {id : Nat} (hid : id ≠ t.size) :
    (t.create name container kind).2.get id = t.get id := by
  have hid' : id ≠ t.entries.size := hid
  simp [create, get, Array.getElem?_push, hid']

@[simp] theorem size_modifyKind (id : Nat) (f : DescriptorKind → DescriptorKind) :
    (t.modifyKind id f).size = t.size :=
  Array.size_modify

theorem get_modifyKind_self {id : Nat} (hid : id < t.size)
    (f : DescriptorKind → DescriptorKind) :
    (t.modifyKind id f).get id = { t.get id with kind := f (t.get id).kind } := by
  have hid' : id < t.entries.size := hid
  simp [modifyKind, get, hid', Array.getElem_modify]

theorem get_modifyKind_of_ne {id id' : Nat} (h : id' ≠ id)
    (f : DescriptorKind → DescriptorKind) : (t.modifyKind id f).get id' = t.get id' := by
  simp [modifyKind, get, Array.getElem?_modify, h.symm]

theorem get_modifyKind_of_size_le {id : Nat} (hid : t.size ≤ id)
    (f : DescriptorKind → DescriptorKind) (id' : Nat) :
    (t.modifyKind id f).get id' = t.get id' := by
  by_cases h : id' = id
  · subst h
    have hid' : t.entries.size ≤ id' := hid
    simp [modifyKind, get, hid']
  · exact t.get_modifyKind_of_ne h f

/-- A descriptor is what it was, or it is the one that is changed. -/
theorem get_modifyKind_cases (id id' : Nat) (f : DescriptorKind → DescriptorKind) :
    (t.modifyKind id f).get id' = t.get id' ∨
      id' = id ∧ (t.modifyKind id f).get id' = { t.get id' with kind := f (t.get id').kind } := by
  by_cases heq : id' = id
  · subst heq
    by_cases hid : id' < t.size
    · exact .inr ⟨rfl, t.get_modifyKind_self hid f⟩
    · exact .inl (t.get_modifyKind_of_size_le (Nat.le_of_not_lt hid) f id')
  · exact .inl (t.get_modifyKind_of_ne heq f)

theorem kind_modifyKind_cases (id id' : Nat) (f : DescriptorKind → DescriptorKind) :
    ((t.modifyKind id f).get id').kind = (t.get id').kind ∨
      id' = id ∧ ((t.modifyKind id f).get id').kind = f (t.get id').kind :=
  (t.get_modifyKind_cases id id' f).imp (congrArg Descriptor.kind)
    (And.imp_right (congrArg Descriptor.kind))

@[simp] theorem name_get_modifyKind (id id' : Nat) (f : DescriptorKind → DescriptorKind) :
    ((t.modifyKind id f).get id').name = (t.get id').name := by
  rcases t.get_modifyKind_cases id id' f with heq | ⟨-, heq⟩ <;> rw [heq]

@[simp] theorem container_get_modifyKind (id id' : Nat) (f : DescriptorKind → DescriptorKind) :
    ((t.modifyKind id f).get id').container = (t.get id').container := by
  rcases t.get_modifyKind_cases id id' f with heq | ⟨-, heq⟩ <;> rw [heq]

/-- Only what the descriptor stands for at the moment matters for a change. -/
theorem modifyKind_eq (id : Nat) (f : DescriptorKind → DescriptorKind) :
    t.modifyKind id f = t.modifyKind id fun _ => f (t.get id).kind := by
  unfold modifyKind
  congr 1
  apply Array.ext
  · simp
  · intro i hi hi'
    rw [Array.getElem_modify, Array.getElem_modify]
    by_cases h : id = i
    · subst h
      have hlt : id < t.entries.size := by simpa using hi
      simp [get, hlt]
    · simp [h]

/-- A descriptor that stands for something else than a variable exists. -/
theorem lt_size_of_kind {id : Nat} (h : ∀ data, (t.get id).kind ≠ .variableKind data) :
    id < t.size := by
  by_contra hid
  have hid' : t.entries.size ≤ id := Nat.le_of_not_lt hid
  exact h ⟨none, false⟩ (by simp [get, hid'])

variable {t}

theorem lt_size_of_classData? {id : Nat} (h : (t.classData? id).isSome) : id < t.size := by
  refine t.lt_size_of_kind fun data hkind => ?_
  simp [classData?, hkind] at h

theorem lt_size_of_signature? {id : Nat} (h : (t.signature? id).isSome) : id < t.size := by
  refine t.lt_size_of_kind fun data hkind => ?_
  simp [signature?, hkind] at h

theorem lt_size_of_propertyData? {id : Nat} (h : (t.propertyData? id).isSome) :
    id < t.size := by
  refine t.lt_size_of_kind fun data hkind => ?_
  simp [propertyData?, hkind] at h

theorem lt_size_of_namespaceMembers? {id : Nat} (h : (t.namespaceMembers? id).isSome) :
    id < t.size := by
  refine t.lt_size_of_kind fun data hkind => ?_
  simp [namespaceMembers?, hkind] at h

theorem kind_of_classData? {id : Nat} {data : ClassData} (h : t.classData? id = some data) :
    ∃ finalized, (t.get id).kind = .classKind finalized data := by
  unfold classData? at h
  generalize (t.get id).kind = kind at h
  cases kind with
  | classKind finalized data' => exact ⟨finalized, by rw [Option.some.inj h]⟩
  | _ => cases h

theorem classData?_of_kind
    {id : Nat} {finalized : Bool} {data : ClassData}
    (h : (t.get id).kind = .classKind finalized data) : t.classData? id = some data := by
  unfold classData?
  rw [h]

theorem kind_of_propertyData? {id : Nat} {data : PropertyData}
    (h : t.propertyData? id = some data) : (t.get id).kind = .propertyKind data := by
  unfold propertyData? at h
  generalize (t.get id).kind = kind at h
  cases kind with
  | propertyKind data' => rw [Option.some.inj h]
  | _ => cases h

theorem propertyData?_of_kind {id : Nat} {data : PropertyData}
    (h : (t.get id).kind = .propertyKind data) : t.propertyData? id = some data := by
  unfold propertyData?
  rw [h]

theorem lt_size_of_returnType? {id : Nat} (h : (t.returnType? id).isSome) : id < t.size := by
  refine lt_size_of_signature? ?_
  unfold returnType? at h
  cases hs : t.signature? id with
  | none => simp [hs] at h
  | some s => rfl

@[simp] theorem size_editSignature (id : Nat) (f : Signature → Signature) :
    (t.editSignature id f).size = t.size :=
  t.size_modifyKind ..

theorem get_editSignature_of_ne {id id' : Nat} (h : id' ≠ id) (f : Signature → Signature) :
    (t.editSignature id f).get id' = t.get id' :=
  t.get_modifyKind_of_ne h _

theorem signature?_editSignature_self
    {id : Nat} {s : Signature} (h : t.signature? id = some s) (f : Signature → Signature) :
    (t.editSignature id f).signature? id = some (f s) := by
  have hid : id < t.size := lt_size_of_signature? (by simp [h])
  unfold editSignature
  unfold signature? at h ⊢
  rw [t.get_modifyKind_self hid]
  generalize (t.get id).kind = kind at h
  cases kind with
  | constructorKind s' | functionKind s' =>
      obtain rfl := Option.some.inj h
      rfl
  | _ => cases h

@[simp] theorem size_editProperty (t : DescriptorTable) (id : Nat)
    (f : PropertyData → PropertyData) : (t.editProperty id f).size = t.size :=
  t.size_modifyKind ..

theorem get_editProperty_of_ne (t : DescriptorTable) {id id' : Nat} (h : id' ≠ id)
    (f : PropertyData → PropertyData) : (t.editProperty id f).get id' = t.get id' :=
  t.get_modifyKind_of_ne h _

theorem kind_editProperty_self
    {id : Nat} {data : PropertyData} (h : t.propertyData? id = some data)
    (f : PropertyData → PropertyData) :
    ((t.editProperty id f).get id).kind = .propertyKind (f data) := by
  have hid : id < t.size := lt_size_of_propertyData? (by simp [h])
  unfold editProperty
  rw [t.get_modifyKind_self hid, kind_of_propertyData? h]

/-! ## From one table to a later one -/

/-- How a table may change. -/
structure Evolves (t t' : DescriptorTable) : Prop where
  size_le : t.size ≤ t'.size
  container_eq : ∀ id, id < t.size → (t'.get id).container = (t.get id).container
  kind : ∀ id, id < t.size → (t.get id).kind.Evolves (t'.get id).kind

namespace Evolves

variable {t' t'' : DescriptorTable}

theorem refl (t : DescriptorTable) : t.Evolves t :=
  ⟨Nat.le_refl _, fun _ _ => rfl, fun _ _ => DescriptorKind.Evolves.refl _⟩

theorem trans (h : t.Evolves t') (h' : t'.Evolves t'') : t.Evolves t'' where
  size_le := h.size_le.trans h'.size_le
  container_eq id hid :=
    (h'.container_eq id (hid.trans_le h.size_le)).trans (h.container_eq id hid)
  kind id hid := (h.kind id hid).trans (h'.kind id (hid.trans_le h.size_le))

/-- Adding a descriptor changes no other. -/
theorem create (t : DescriptorTable) (name : String) (container : Option Nat)
    (kind : DescriptorKind) : t.Evolves (t.create name container kind).2 where
  size_le := by simp [size_create]
  container_eq id hid := by rw [t.get_create_of_ne _ _ _ hid.ne]
  kind id hid := by
    rw [t.get_create_of_ne _ _ _ hid.ne]
    exact DescriptorKind.Evolves.refl _

/-- Changing one descriptor changes no other. -/
theorem modifyKind {id : Nat} {kind : DescriptorKind} (h : (t.get id).kind.Evolves kind) :
    t.Evolves (t.modifyKind id fun _ => kind) where
  size_le := (t.size_modifyKind ..).ge
  container_eq id' _ := t.container_get_modifyKind ..
  kind id' _ := by
    rcases t.kind_modifyKind_cases id id' fun _ => kind with heq | ⟨rfl, heq⟩
    · rw [heq]
      exact DescriptorKind.Evolves.refl _
    · rw [heq]
      exact h

variable (h : t.Evolves t')

include h

theorem classData? {id : Nat} {data : ClassData} (hdata : t.classData? id = some data) :
    ∃ data', t'.classData? id = some data' ∧ data'.memberScope = data.memberScope := by
  have hid : id < t.size := lt_size_of_classData? (by simp [hdata])
  have hkind := h.kind id hid
  unfold DescriptorTable.classData? at hdata ⊢
  generalize (t.get id).kind = a at hdata hkind
  generalize (t'.get id).kind = b at hkind ⊢
  cases hkind with
  | classKind hmembers =>
      obtain rfl := Option.some.inj hdata
      exact ⟨_, rfl, hmembers⟩
  | _ => cases hdata

theorem isSome_classData? {id : Nat} (hdata : (t.classData? id).isSome) :
    (t'.classData? id).isSome := by
  obtain ⟨data, hdata⟩ := Option.isSome_iff_exists.mp hdata
  obtain ⟨data', hdata', -⟩ := h.classData? hdata
  rw [hdata']
  rfl

theorem namespaceMembers? {id members : Nat} (hns : t.namespaceMembers? id = some members) :
    t'.namespaceMembers? id = some members := by
  have hid : id < t.size := lt_size_of_namespaceMembers? (by simp [hns])
  have hkind := h.kind id hid
  unfold DescriptorTable.namespaceMembers? at hns ⊢
  generalize (t.get id).kind = a at hns hkind
  generalize (t'.get id).kind = b at hkind ⊢
  cases hkind with
  | namespaceKind => exact hns
  | _ => cases hns

theorem isSome_signature? {id : Nat} (hs : (t.signature? id).isSome) :
    (t'.signature? id).isSome := by
  have hkind := h.kind id (lt_size_of_signature? hs)
  unfold DescriptorTable.signature? at hs ⊢
  generalize (t.get id).kind = a at hs hkind
  generalize (t'.get id).kind = b at hkind ⊢
  cases hkind with
  | constructorKind | functionKind => rfl
  | _ => cases hs

theorem isSome_returnType? {id : Nat} (hs : (t.returnType? id).isSome) :
    (t'.returnType? id).isSome := by
  have hkind := h.kind id (lt_size_of_returnType? hs)
  unfold DescriptorTable.returnType? DescriptorTable.signature? at hs ⊢
  generalize (t.get id).kind = a at hs hkind
  generalize (t'.get id).kind = b at hkind ⊢
  cases hkind with
  | constructorKind hreturn | functionKind hreturn => exact hreturn hs
  | _ => cases hs

theorem isSome_propertyData? {id : Nat} (hdata : (t.propertyData? id).isSome) :
    (t'.propertyData? id).isSome := by
  have hkind := h.kind id (lt_size_of_propertyData? hdata)
  unfold DescriptorTable.propertyData? at hdata ⊢
  generalize (t.get id).kind = a at hdata hkind
  generalize (t'.get id).kind = b at hkind ⊢
  cases hkind with
  | propertyKind => rfl
  | _ => cases hdata

end Evolves

end DescriptorTable

/-! ## Types that are filled in

While bodies are resolved, what exists changes even less: types that were open are filled
in. -/

namespace DescriptorKind

/-- How what a descriptor stands for may change once it has been declared. A type is filled
in only where there is none. -/
inductive Fills : DescriptorKind → DescriptorKind → Prop
  | refl (kind : DescriptorKind) : Fills kind kind
  | constructorKind {s : Signature} (hopen : s.returnType = none) (type : Ty) :
      Fills (.constructorKind s) (.constructorKind { s with returnType := some type })
  | functionKind {s : Signature} (hopen : s.returnType = none) (type : Ty) :
      Fills (.functionKind s) (.functionKind { s with returnType := some type })
  | propertyKind {data : PropertyData} (hopen : data.type = none) (type : Ty) :
      Fills (.propertyKind data) (.propertyKind { data with type := some type })
  | variableKind {data : VariableData} (hopen : data.type = none) (type : Ty) :
      Fills (.variableKind data) (.variableKind { data with type := some type })

theorem Fills.trans {a b c : DescriptorKind} (hab : a.Fills b) (hbc : b.Fills c) :
    a.Fills c := by
  cases hab with
  | refl => exact hbc
  | constructorKind hopen type =>
      cases hbc with
      | refl => exact .constructorKind hopen type
      | constructorKind hopen' => cases hopen'
  | functionKind hopen type =>
      cases hbc with
      | refl => exact .functionKind hopen type
      | functionKind hopen' => cases hopen'
  | propertyKind hopen type =>
      cases hbc with
      | refl => exact .propertyKind hopen type
      | propertyKind hopen' => cases hopen'
  | variableKind hopen type =>
      cases hbc with
      | refl => exact .variableKind hopen type
      | variableKind hopen' => cases hopen'

theorem Fills.complete {a b : DescriptorKind} (h : a.Fills b) (ha : a.Complete) : b.Complete := by
  cases h with
  | refl => exact ha
  | constructorKind | functionKind | propertyKind | variableKind => rfl

end DescriptorKind

namespace DescriptorTable

variable {t t' t'' : DescriptorTable} {id : Nat}

/-- Nothing is open about the descriptor any more. -/
structure Complete (t : DescriptorTable) (id : Nat) : Prop where
  kind : (t.get id).kind.Complete

theorem Complete.of_get_eq {t t' : DescriptorTable} {id : Nat} (h : t.Complete id)
    (hget : t'.get id = t.get id) : t'.Complete id :=
  ⟨hget ▸ h.kind⟩

/-- Complete descriptors have been added, and all others are as they were. -/
structure Extends (t t' : DescriptorTable) : Prop where
  size_le : t.size ≤ t'.size
  get_eq : ∀ id, id < t.size → t'.get id = t.get id
  added : ∀ id, t.size ≤ id → id < t'.size → t'.Complete id

theorem Extends.refl (t : DescriptorTable) : t.Extends t :=
  ⟨Nat.le_refl _, fun _ _ => rfl, fun _ hle hlt => absurd hlt (Nat.not_lt.mpr hle)⟩

theorem Extends.trans (h : t.Extends t') (h' : t'.Extends t'') : t.Extends t'' where
  size_le := h.size_le.trans h'.size_le
  get_eq id hid := (h'.get_eq id (hid.trans_le h.size_le)).trans (h.get_eq id hid)
  added id hle hlt := by
    by_cases hid : id < t'.size
    · exact (h.added id hle hid).of_get_eq (h'.get_eq id hid)
    · exact h'.added id (Nat.le_of_not_lt hid) hlt

theorem Extends.create (t : DescriptorTable) (name : String) (container : Option Nat)
    {kind : DescriptorKind} (hkind : kind.Complete) :
    t.Extends (t.create name container kind).2 where
  size_le := by simp [size_create]
  get_eq id hid := t.get_create_of_ne _ _ _ hid.ne
  added id hle hlt := by
    rw [size_create] at hlt
    obtain rfl : id = t.size := Nat.le_antisymm (Nat.le_of_lt_succ hlt) hle
    refine ⟨?_⟩
    rw [get_create_size]
    exact hkind

/-- Complete descriptors have been added, and types that were open have been filled in. -/
structure Fills (t t' : DescriptorTable) : Prop where
  size_le : t.size ≤ t'.size
  container_eq : ∀ id, id < t.size → (t'.get id).container = (t.get id).container
  kind : ∀ id, id < t.size → (t.get id).kind.Fills (t'.get id).kind
  added : ∀ id, t.size ≤ id → id < t'.size → t'.Complete id

theorem Extends.fills (h : t.Extends t') : t.Fills t' where
  size_le := h.size_le
  container_eq id hid := congrArg Descriptor.container (h.get_eq id hid)
  kind id hid := by
    rw [h.get_eq id hid]
    exact .refl _
  added := h.added

theorem Fills.refl (t : DescriptorTable) : t.Fills t :=
  (Extends.refl t).fills

theorem Fills.trans (h : t.Fills t') (h' : t'.Fills t'') : t.Fills t'' where
  size_le := h.size_le.trans h'.size_le
  container_eq id hid :=
    (h'.container_eq id (hid.trans_le h.size_le)).trans (h.container_eq id hid)
  kind id hid := (h.kind id hid).trans (h'.kind id (hid.trans_le h.size_le))
  added id hle hlt := by
    by_cases hid : id < t'.size
    · exact ⟨(h'.kind id hid).complete (h.added id hle hid).kind⟩
    · exact h'.added id (Nat.le_of_not_lt hid) hlt

theorem Fills.modifyKind
    {f : DescriptorKind → DescriptorKind} (h : (t.get id).kind.Fills (f (t.get id).kind)) :
    t.Fills (t.modifyKind id f) where
  size_le := (t.size_modifyKind ..).ge
  container_eq id' _ := t.container_get_modifyKind ..
  kind id' _ := by
    rcases t.kind_modifyKind_cases id id' f with heq | ⟨rfl, heq⟩
    · rw [heq]
      exact .refl _
    · rw [heq]
      exact h
  added id' hle hlt := by
    rw [size_modifyKind] at hlt
    exact absurd hlt (Nat.not_lt.mpr hle)

/-- A change of a signature that at most fills in the return type. -/
theorem Fills.editSignature
    {f : Signature → Signature}
    (hf : ∀ s, t.signature? id = some s →
      f s = s ∨ s.returnType = none ∧ ∃ type, f s = { s with returnType := some type }) :
    t.Fills (t.editSignature id f) := by
  refine Fills.modifyKind ?_
  unfold signature? at hf
  cases h : (t.get id).kind with
  | functionKind s =>
      rw [h] at hf
      rcases hf s rfl with heq | ⟨hopen, type, heq⟩
      · simp only [heq]
        exact .refl _
      · simp only [heq]
        exact .functionKind hopen type
  | constructorKind s =>
      rw [h] at hf
      rcases hf s rfl with heq | ⟨hopen, type, heq⟩
      · simp only [heq]
        exact .refl _
      · simp only [heq]
        exact .constructorKind hopen type
  | _ => exact .refl _

/-- A change of a property that at most fills in the type. -/
theorem Fills.editProperty
    {f : PropertyData → PropertyData}
    (hf : ∀ data,
      f data = data ∨ data.type = none ∧ ∃ type, f data = { data with type := some type }) :
    t.Fills (t.editProperty id f) := by
  refine Fills.modifyKind ?_
  cases (t.get id).kind with
  | propertyKind data =>
      rcases hf data with heq | ⟨hopen, type, heq⟩
      · simp only [heq]
        exact .refl _
      · simp only [heq]
        exact .propertyKind hopen type
  | _ => exact .refl _

/-- A change of a variable that at most fills in the type. -/
theorem Fills.editVariable
    {f : VariableData → VariableData}
    (hf : ∀ data,
      f data = data ∨ data.type = none ∧ ∃ type, f data = { data with type := some type }) :
    t.Fills (t.editVariable id f) := by
  refine Fills.modifyKind ?_
  cases (t.get id).kind with
  | variableKind data =>
      rcases hf data with heq | ⟨hopen, type, heq⟩
      · simp only [heq]
        exact .refl _
      · simp only [heq]
        exact .variableKind hopen type
  | _ => exact .refl _

/-- A return type that is open is filled in. -/
theorem Fills.fillReturnType (t : DescriptorTable) (id : Nat) (type : Ty) :
    t.Fills (t.editSignature id fun s => { s with returnType := s.returnType <|> some type }) := by
  refine .editSignature fun s _ => ?_
  obtain ⟨role, parameters, returnType⟩ := s
  cases returnType with
  | none => exact .inr ⟨rfl, type, rfl⟩
  | some known => exact .inl rfl

/-- The type of a property that is open is filled in. -/
theorem Fills.fillPropertyData (t : DescriptorTable) (id : Nat) (type : Ty) :
    t.Fills (t.editProperty id fun p => { p with type := p.type <|> some type }) := by
  refine .editProperty fun data => ?_
  obtain ⟨mutable, known, getter, setter⟩ := data
  cases known with
  | none => exact .inr ⟨rfl, type, rfl⟩
  | some known => exact .inl rfl

/-- The type of a variable that is open is filled in. -/
theorem Fills.fillVariableData (t : DescriptorTable) (id : Nat) (type : Ty) :
    t.Fills (t.editVariable id fun v => { v with type := v.type <|> some type }) := by
  refine .editVariable fun data => ?_
  obtain ⟨known, mutable⟩ := data
  cases known with
  | none => exact .inr ⟨rfl, type, rfl⟩
  | some known => exact .inl rfl

theorem lt_size_of_valueType? {type : Ty} (h : t.valueType? id = some type) : id < t.size := by
  by_contra hid
  have hid' : t.entries.size ≤ id := Nat.le_of_not_lt hid
  simp [valueType?, get, hid'] at h

/-- A type that is known is never replaced. -/
theorem Fills.valueType?_eq {type : Ty} (h : t.Fills t') (htype : t.valueType? id = some type) :
    t'.valueType? id = some type := by
  have hkind := h.kind id (lt_size_of_valueType? htype)
  unfold valueType? at htype ⊢
  generalize (t.get id).kind = a at htype hkind
  generalize (t'.get id).kind = b at hkind ⊢
  cases hkind with
  | refl => exact htype
  | propertyKind hopen | variableKind hopen => cases hopen.symm.trans htype
  | _ => cases htype

/-- Neither is a return type. -/
theorem Fills.returnType?_eq {type : Ty} (h : t.Fills t') (htype : t.returnType? id = some type) :
    t'.returnType? id = some type := by
  have hkind := h.kind id (lt_size_of_returnType? (by rw [htype]; rfl))
  unfold returnType? signature? at htype ⊢
  generalize (t.get id).kind = a at htype hkind
  generalize (t'.get id).kind = b at hkind ⊢
  cases hkind with
  | refl => exact htype
  | constructorKind hopen | functionKind hopen => cases hopen.symm.trans htype
  | _ => cases htype

theorem Fills.isSome_valueType? (h : t.Fills t') (htype : (t.valueType? id).isSome) :
    (t'.valueType? id).isSome := by
  obtain ⟨type, htype⟩ := Option.isSome_iff_exists.mp htype
  rw [h.valueType?_eq htype]
  rfl

theorem Fills.isSome_returnType? (h : t.Fills t') (htype : (t.returnType? id).isSome) :
    (t'.returnType? id).isSome := by
  obtain ⟨type, htype⟩ := Option.isSome_iff_exists.mp htype
  rw [h.returnType?_eq htype]
  rfl

/-- The parameters of a function stay the same. -/
theorem Fills.signature? {s : Signature} (h : t.Fills t') (hs : t.signature? id = some s) :
    ∃ s', t'.signature? id = some s' ∧ s'.parameters = s.parameters ∧
      (s.returnType.isSome → s'.returnType.isSome) := by
  have hkind := h.kind id (lt_size_of_signature? (by rw [hs]; rfl))
  unfold DescriptorTable.signature? at hs ⊢
  generalize (t.get id).kind = a at hs hkind
  generalize (t'.get id).kind = b at hkind ⊢
  cases hkind with
  | refl => exact ⟨s, hs, rfl, fun h => h⟩
  | constructorKind | functionKind =>
      obtain rfl := Option.some.inj hs
      exact ⟨_, rfl, rfl, fun _ => rfl⟩
  | _ => cases hs

/-- The accessors of a property stay the same. -/
theorem Fills.propertyData? {data : PropertyData} (h : t.Fills t')
    (hdata : t.propertyData? id = some data) :
    ∃ data', t'.propertyData? id = some data' ∧ data'.getter = data.getter ∧
      data'.setter = data.setter ∧ (data.type.isSome → data'.type.isSome) := by
  have hkind := h.kind id (lt_size_of_propertyData? (by rw [hdata]; rfl))
  unfold DescriptorTable.propertyData? at hdata ⊢
  generalize (t.get id).kind = a at hdata hkind
  generalize (t'.get id).kind = b at hkind ⊢
  cases hkind with
  | refl => exact ⟨data, hdata, rfl, rfl, fun h => h⟩
  | propertyKind =>
      obtain rfl := Option.some.inj hdata
      exact ⟨_, rfl, rfl, rfl, fun _ => rfl⟩
  | _ => cases hdata

/-- Variables stay variables. -/
theorem Fills.variableKind {data : VariableData} (h : t.Fills t') (hid : id < t.size)
    (hkind : (t.get id).kind = .variableKind data) :
    ∃ data', (t'.get id).kind = .variableKind data' := by
  have hfills := h.kind id hid
  rw [hkind] at hfills
  generalize (t'.get id).kind = b at hfills ⊢
  cases hfills with
  | refl | variableKind => exact ⟨_, rfl⟩

/-! ### Properties with a setter -/

/-- The variable is the parameter of the setter of the property. -/
structure SetterTakes (t : DescriptorTable) (property v : Nat) : Prop where
  lt_size : v < t.size
  kind : ∃ data, (t.get v).kind = .variableKind data
  setter : ∃ data function s, t.propertyData? property = some data ∧
    data.setter = some function ∧ t.signature? function = some s ∧ s.parameters.head? = some v

theorem Fills.setterTakes {property v : Nat} (h : t.Fills t') (hv : t.SetterTakes property v) :
    t'.SetterTakes property v := by
  obtain ⟨data, hdata⟩ := hv.kind
  obtain ⟨property', function, s, hproperty, hsetter, hs, hhead⟩ := hv.setter
  obtain ⟨property'', hproperty'', -, hsetter'', -⟩ := h.propertyData? hproperty
  obtain ⟨s', hs', hparameters, -⟩ := h.signature? hs
  refine ⟨hv.lt_size.trans_le h.size_le, h.variableKind hv.lt_size hdata, ?_⟩
  exact ⟨property'', function, s', hproperty'', hsetter''.trans hsetter, hs', hparameters ▸ hhead⟩

/-- The type of a property is filled in only together with that of the parameter of its
setter. -/
def FillsTogether (t t' : DescriptorTable) : Prop :=
  ∀ property v, t.SetterTakes property v → t.valueType? property = none →
    (t'.valueType? property).isSome → (t'.valueType? v).isSome

theorem FillsTogether.of_valueType?_eq
    (h : ∀ property, (t.propertyData? property).isSome →
      t'.valueType? property = t.valueType? property) :
    t.FillsTogether t' := by
  intro property v hv hnone hsome
  obtain ⟨data, _, _, hdata, _⟩ := hv.setter
  rw [h property (by rw [hdata]; rfl), hnone] at hsome
  cases hsome

theorem Extends.fillsTogether (h : t.Extends t') : t.FillsTogether t' :=
  .of_valueType?_eq fun property hproperty => by
    unfold valueType?
    rw [h.get_eq property (lt_size_of_propertyData? hproperty)]

theorem FillsTogether.trans (h : t.FillsTogether t') (h' : t'.FillsTogether t'')
    (hfills : t.Fills t') (hfills' : t'.Fills t'') : t.FillsTogether t'' := by
  intro property v hv hnone hsome
  cases hmiddle : t'.valueType? property with
  | none => exact h' property v (hfills.setterTakes hv) hmiddle hsome
  | some type =>
      have hv' : (t'.valueType? v).isSome := h property v hv hnone (by rw [hmiddle]; rfl)
      exact hfills'.isSome_valueType? hv'

end DescriptorTable

end DeclAnalysis
