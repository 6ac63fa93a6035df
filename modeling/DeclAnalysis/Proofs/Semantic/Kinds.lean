import DeclAnalysis.Proofs.Semantic.Filling
import DeclAnalysis.Proofs.Semantic.Growth

/-!
# Descriptors of the right kind

Descriptors are referred to by plain numbers. What keeps this sound is that a descriptor has its
sort, its name and its container from the beginning and keeps them: a reference that is right when
it is stored stays right while the table matures. The descriptors of a table are well-kinded if
all that is stored in them is right in this sense.
-/

namespace DeclAnalysis

/-- What sort of thing a descriptor stands for. -/
inductive DescriptorSort where
  | namespaceSort
  | classSort
  | constructorSort
  | functionSort (role : FunctionRole)
  | propertySort
  | variableSort
deriving DecidableEq

/-- The sort of what a descriptor stands for. -/
def DescriptorKind.sort : DescriptorKind → DescriptorSort
  | namespaceKind _ => .namespaceSort
  | classKind .. => .classSort
  | constructorKind _ => .constructorSort
  | functionKind s => .functionSort s.role
  | propertyKind _ => .propertySort
  | variableKind _ => .variableSort

namespace DescriptorTable

/-! ## References to descriptors -/

/-- The descriptor exists and is of the sort. -/
structure Has (t : DescriptorTable) (sort : DescriptorSort) (id : Nat) : Prop where
  lt_size : id < t.size
  sort_eq : (t.get id).kind.sort = sort

/-- The descriptor exists, is of the sort and bears the name. -/
structure Names (t : DescriptorTable) (sort : DescriptorSort) (name : String) (id : Nat) : Prop
    extends t.Has sort id where
  name_eq : t.name id = name

/-- The descriptor is a variable or property of the name. -/
def NamesValue (t : DescriptorTable) (name : String) (id : Nat) : Prop :=
  t.Names .variableSort name id ∨ t.Names .propertySort name id

/-- The parameters of a function or constructor. -/
def parametersOf (t : DescriptorTable) (id : Nat) : List Nat :=
  ((t.signature? id).map Signature.parameters).getD []

/-- The constructor belongs to the class and gives back its instances. -/
structure IsConstructorOf (t : DescriptorTable) (classId id : Nat) : Prop
    extends t.Has .constructorSort id where
  container_eq : (t.get id).container = some classId
  returnType_eq : t.returnType? id = some (t.classType classId)

/-- The function is an accessor that belongs to the property. -/
structure IsAccessorOf (t : DescriptorTable) (role : FunctionRole) (property id : Nat) : Prop
    extends t.Has (.functionSort role) id where
  container_eq : (t.get id).container = some property

variable {t t' t'' : DescriptorTable} {id : Nat}

theorem has_classSort_iff : t.Has .classSort id ↔ (t.classData? id).isSome := by
  refine ⟨fun h => ?_, fun h => ⟨lt_size_of_classData? h, ?_⟩⟩
  · have hsort := h.sort_eq
    unfold classData?
    cases hkind : (t.get id).kind with
    | classKind finalized data => rfl
    | _ => simp [hkind, DescriptorKind.sort] at hsort
  · obtain ⟨data, hdata⟩ := Option.isSome_iff_exists.mp h
    obtain ⟨finalized, hkind⟩ := kind_of_classData? hdata
    rw [hkind]
    rfl

theorem Has.isSome_signature? {role : FunctionRole} (h : t.Has (.functionSort role) id) :
    (t.signature? id).isSome := by
  have hsort := h.sort_eq
  unfold signature?
  cases hkind : (t.get id).kind with
  | functionKind s => rfl
  | constructorKind s => rfl
  | _ => simp [hkind, DescriptorKind.sort] at hsort

/-! ## Maturing -/

/-- How a table matures: descriptors stay of their sort and keep their names and containers, the
return types of constructors stay, and so does the one parameter of a setter. -/
structure Matures (t t' : DescriptorTable) : Prop where
  size_le : t.size ≤ t'.size
  name_eq : ∀ id, id < t.size → t'.name id = t.name id
  container_eq : ∀ id, id < t.size → (t'.get id).container = (t.get id).container
  sort_eq : ∀ id, id < t.size → (t'.get id).kind.sort = (t.get id).kind.sort
  returnType_eq : ∀ id type, t.Has .constructorSort id → t.returnType? id = some type →
    t'.returnType? id = some type
  arity_eq : ∀ id, t.Has (.functionSort .setter) id → (t.parametersOf id).length = 1 →
    (t'.parametersOf id).length = 1

theorem Matures.refl (t : DescriptorTable) : t.Matures t where
  size_le := Nat.le_refl _
  name_eq _ _ := rfl
  container_eq _ _ := rfl
  sort_eq _ _ := rfl
  returnType_eq _ _ _ h := h
  arity_eq _ _ h := h

section

variable (h : t.Matures t')

include h

theorem Matures.has {sort : DescriptorSort} (hid : t.Has sort id) : t'.Has sort id where
  lt_size := hid.lt_size.trans_le h.size_le
  sort_eq := (h.sort_eq id hid.lt_size).trans hid.sort_eq

theorem Matures.names {sort : DescriptorSort} {name : String} (hid : t.Names sort name id) :
    t'.Names sort name id where
  toHas := h.has hid.toHas
  name_eq := (h.name_eq id hid.lt_size).trans hid.name_eq

theorem Matures.namesValue {name : String} (hid : t.NamesValue name id) :
    t'.NamesValue name id :=
  hid.imp h.names h.names

theorem Matures.classType_eq (hid : id < t.size) : t'.classType id = t.classType id := by
  unfold classType
  rw [h.name_eq id hid]

theorem Matures.isConstructorOf
    {classId : Nat} (hclass : classId < t.size) (hid : t.IsConstructorOf classId id) :
    t'.IsConstructorOf classId id where
  toHas := h.has hid.toHas
  container_eq := (h.container_eq id hid.lt_size).trans hid.container_eq
  returnType_eq := by
    rw [h.classType_eq hclass]
    exact h.returnType_eq id _ hid.toHas hid.returnType_eq

theorem Matures.isAccessorOf
    {role : FunctionRole} {property : Nat} (hid : t.IsAccessorOf role property id) :
    t'.IsAccessorOf role property id where
  toHas := h.has hid.toHas
  container_eq := (h.container_eq id hid.lt_size).trans hid.container_eq

theorem Matures.trans (h' : t'.Matures t'') : t.Matures t'' where
  size_le := h.size_le.trans h'.size_le
  name_eq id hid := (h'.name_eq id (hid.trans_le h.size_le)).trans (h.name_eq id hid)
  container_eq id hid :=
    (h'.container_eq id (hid.trans_le h.size_le)).trans (h.container_eq id hid)
  sort_eq id hid := (h'.sort_eq id (hid.trans_le h.size_le)).trans (h.sort_eq id hid)
  returnType_eq id type hid htype :=
    h'.returnType_eq id type (h.has hid) (h.returnType_eq id type hid htype)
  arity_eq id hid harity := h'.arity_eq id (h.has hid) (h.arity_eq id hid harity)

end

end DescriptorTable

/-! ## What is stored in a descriptor -/

/-- A class or namespace type stands for a descriptor of that sort and name. -/
def Ty.WellKinded (t : DescriptorTable) : Ty → Prop
  | classType id name => t.Names .classSort name id
  | namespaceType id name => t.Names .namespaceSort name id
  | _ => True

/-- The type, if there is one, is well-kinded. -/
def WellKindedType (t : DescriptorTable) (type : Option Ty) : Prop := ∀ a ∈ type, a.WellKinded t

/-- The scopes of a class exist, its supertypes are well-kinded, and its constructors are
constructors of the class, the primary one being among them. -/
structure ClassData.WellKinded (t : DescriptorTable) (scopes id : Nat) (data : ClassData) :
    Prop where
  memberScope_lt : data.memberScope < scopes
  declaringScope_lt : data.declaringScope < scopes
  supertypes : ∀ type ∈ data.supertypes, type.WellKinded t
  constructors : ∀ c ∈ data.constructors, t.IsConstructorOf id c
  primaryConstructor_mem : ∀ c ∈ data.primaryConstructor, c ∈ data.constructors

/-- The parameters of a function are variables, and its return type is well-kinded. -/
structure Signature.WellKinded (t : DescriptorTable) (s : Signature) : Prop where
  parameters : ∀ p ∈ s.parameters, t.Has .variableSort p
  returnType : WellKindedType t s.returnType

/-- The type of a property is well-kinded, and its accessors belong to it. A setter has one
parameter. -/
structure PropertyData.WellKinded (t : DescriptorTable) (id : Nat) (data : PropertyData) :
    Prop where
  type : WellKindedType t data.type
  getter : ∀ f ∈ data.getter, t.IsAccessorOf .getter id f
  setter : ∀ f ∈ data.setter, t.IsAccessorOf .setter id f
  arity : ∀ f ∈ data.setter, (t.parametersOf f).length = 1

/-- What is stored in a descriptor of the number `id` is right. A constructor belongs to a class,
of which it can give back nothing but instances, and an accessor to a property. -/
structure Descriptor.WellKinded (t : DescriptorTable) (scopes id : Nat) (d : Descriptor) :
    Prop where
  container_lt : ∀ c ∈ d.container, c < t.size
  namespaceKind : ∀ members, d.kind = .namespaceKind members → members < scopes
  classKind : ∀ finalized data, d.kind = .classKind finalized data → data.WellKinded t scopes id
  constructorKind : ∀ s, d.kind = .constructorKind s → s.WellKinded t ∧
    ∃ classId, d.container = some classId ∧ t.Has .classSort classId ∧
      ∀ type ∈ s.returnType, type = t.classType classId
  functionKind : ∀ s, d.kind = .functionKind s → s.WellKinded t ∧
    (s.role ≠ .plain → ∃ property, d.container = some property ∧ t.Has .propertySort property)
  propertyKind : ∀ data, d.kind = .propertyKind data → data.WellKinded t id
  variableKind : ∀ data, d.kind = .variableKind data → WellKindedType t data.type

/-- What is stored in the descriptors is right. -/
def DescriptorTable.WellKinded (t : DescriptorTable) (scopes : Nat) : Prop :=
  ∀ id, id < t.size → (t.get id).WellKinded t scopes id

namespace Descriptor

variable {t : DescriptorTable} {scopes id : Nat} {name : String} {container : Option Nat}
  (hcontainer : ∀ c ∈ container, c < t.size)

include hcontainer

theorem wellKinded_namespaceKind {members : Nat} (h : members < scopes) :
    WellKinded t scopes id ⟨name, container, .namespaceKind members⟩ := by
  refine ⟨hcontainer, ?_, nofun, nofun, nofun, nofun, nofun⟩
  rintro _ ⟨⟩
  exact h

theorem wellKinded_classKind
    {finalized : Bool} {data : ClassData} (h : data.WellKinded t scopes id) :
    WellKinded t scopes id ⟨name, container, .classKind finalized data⟩ := by
  refine ⟨hcontainer, nofun, ?_, nofun, nofun, nofun, nofun⟩
  rintro _ _ ⟨⟩
  exact h

theorem wellKinded_constructorKind
    {s : Signature} (hs : s.WellKinded t) {classId : Nat} (hclass : container = some classId)
    (hhas : t.Has .classSort classId)
    (hreturn : ∀ type ∈ s.returnType, type = t.classType classId) :
    WellKinded t scopes id ⟨name, container, .constructorKind s⟩ := by
  refine ⟨hcontainer, nofun, nofun, ?_, nofun, nofun, nofun⟩
  rintro _ ⟨⟩
  exact ⟨hs, classId, hclass, hhas, hreturn⟩

theorem wellKinded_functionKind
    {s : Signature} (hs : s.WellKinded t)
    (haccessor : s.role ≠ .plain →
      ∃ property, container = some property ∧ t.Has .propertySort property) :
    WellKinded t scopes id ⟨name, container, .functionKind s⟩ := by
  refine ⟨hcontainer, nofun, nofun, nofun, ?_, nofun, nofun⟩
  rintro _ ⟨⟩
  exact ⟨hs, haccessor⟩

theorem wellKinded_propertyKind {data : PropertyData} (h : data.WellKinded t id) :
    WellKinded t scopes id ⟨name, container, .propertyKind data⟩ := by
  refine ⟨hcontainer, nofun, nofun, nofun, nofun, ?_, nofun⟩
  rintro _ ⟨⟩
  exact h

theorem wellKinded_variableKind {data : VariableData} (h : WellKindedType t data.type) :
    WellKinded t scopes id ⟨name, container, .variableKind data⟩ := by
  refine ⟨hcontainer, nofun, nofun, nofun, nofun, nofun, ?_⟩
  rintro _ ⟨⟩
  exact h

end Descriptor

section

variable {t t' : DescriptorTable} {scopes scopes' id : Nat}

theorem wellKindedType_none : WellKindedType t none := nofun

theorem wellKindedType_some {type : Ty} (h : type.WellKinded t) :
    WellKindedType t (some type) := by
  intro a ha
  obtain rfl := Option.mem_some.mp ha
  exact h

theorem WellKindedType.orElse
    {type type' : Option Ty} (h : WellKindedType t type) (h' : WellKindedType t type') :
    WellKindedType t (type <|> type') := by
  cases type with
  | none => exact h'
  | some type => exact h

/-! ### What is right stays right -/

section

variable (h : t.Matures t')

include h

theorem Ty.WellKinded.of_matures {type : Ty} (htype : type.WellKinded t) : type.WellKinded t' := by
  cases type with
  | classType _ _ => exact h.names htype
  | namespaceType _ _ => exact h.names htype
  | _ => trivial

theorem WellKindedType.of_matures {type : Option Ty} (htype : WellKindedType t type) :
    WellKindedType t' type :=
  fun a ha => (htype a ha).of_matures h

theorem Signature.WellKinded.of_matures {s : Signature} (hs : s.WellKinded t) : s.WellKinded t' where
  parameters p hp := h.has (hs.parameters p hp)
  returnType := hs.returnType.of_matures h

theorem PropertyData.WellKinded.of_matures {data : PropertyData} (hdata : data.WellKinded t id) :
    data.WellKinded t' id where
  type := hdata.type.of_matures h
  getter f hf := h.isAccessorOf (hdata.getter f hf)
  setter f hf := h.isAccessorOf (hdata.setter f hf)
  arity f hf := h.arity_eq f (hdata.setter f hf).toHas (hdata.arity f hf)

variable (hscopes : scopes ≤ scopes')

include hscopes

theorem ClassData.WellKinded.of_matures
    {data : ClassData} (hid : id < t.size) (hdata : data.WellKinded t scopes id) :
    data.WellKinded t' scopes' id where
  memberScope_lt := hdata.memberScope_lt.trans_le hscopes
  declaringScope_lt := hdata.declaringScope_lt.trans_le hscopes
  supertypes type htype := (hdata.supertypes type htype).of_matures h
  constructors c hc := h.isConstructorOf hid (hdata.constructors c hc)
  primaryConstructor_mem := hdata.primaryConstructor_mem

theorem Descriptor.WellKinded.of_matures
    {d : Descriptor} (hid : id < t.size) (hd : d.WellKinded t scopes id) :
    d.WellKinded t' scopes' id where
  container_lt c hc := (hd.container_lt c hc).trans_le h.size_le
  namespaceKind members hkind := (hd.namespaceKind members hkind).trans_le hscopes
  classKind finalized data hkind := (hd.classKind finalized data hkind).of_matures h hscopes hid
  constructorKind s hkind := by
    obtain ⟨hs, classId, hcontainer, hclass, htype⟩ := hd.constructorKind s hkind
    refine ⟨hs.of_matures h, classId, hcontainer, h.has hclass, fun type hs => ?_⟩
    rw [htype type hs, h.classType_eq hclass.lt_size]
  functionKind s hkind := by
    obtain ⟨hs, hrole⟩ := hd.functionKind s hkind
    refine ⟨hs.of_matures h, fun hne => ?_⟩
    obtain ⟨property, hcontainer, hproperty⟩ := hrole hne
    exact ⟨property, hcontainer, h.has hproperty⟩
  propertyKind data hkind := (hd.propertyKind data hkind).of_matures h
  variableKind data hkind := (hd.variableKind data hkind).of_matures h

/-- While a table matures it stays well-kinded as long as whatever is stored anew is right. -/
theorem DescriptorTable.WellKinded.of_matures
    (ht : t.WellKinded scopes)
    (hnew : ∀ id, id < t'.size → id < t.size ∧ t'.get id = t.get id ∨
      (t'.get id).WellKinded t' scopes' id) :
    t'.WellKinded scopes' := by
  intro id hid
  rcases hnew id hid with ⟨hlt, heq⟩ | hd
  · rw [heq]
    exact (ht id hlt).of_matures h hscopes hlt
  · exact hd

end

end

namespace DescriptorTable

variable {t t' : DescriptorTable} {scopes id : Nat}

/-! ## Adding and changing descriptors -/

theorem Matures.of_get_eq
    (hsize : t.size ≤ t'.size) (hget : ∀ id, id < t.size → t'.get id = t.get id) :
    t.Matures t' where
  size_le := hsize
  name_eq id hid := by
    unfold name
    rw [hget id hid]
  container_eq id hid := by rw [hget id hid]
  sort_eq id hid := by rw [hget id hid]
  returnType_eq id type hid htype := by
    unfold returnType? signature? at htype ⊢
    rw [hget id hid.lt_size]
    exact htype
  arity_eq id hid harity := by
    unfold parametersOf signature? at harity ⊢
    rw [hget id hid.lt_size]
    exact harity

theorem Matures.create (t : DescriptorTable) (name : String) (container : Option Nat)
    (kind : DescriptorKind) : t.Matures (t.create name container kind).2 :=
  .of_get_eq (by simp [size_create]) fun id hid => t.get_create_of_ne _ _ _ hid.ne

theorem WellKinded.create
    (ht : t.WellKinded scopes) {name : String} {container : Option Nat} {kind : DescriptorKind}
    (hnew : Descriptor.WellKinded (t.create name container kind).2 scopes t.size
      { name, container, kind }) :
    (t.create name container kind).2.WellKinded scopes := by
  refine ht.of_matures (.create t name container kind) (Nat.le_refl _) fun id hid => ?_
  by_cases heq : id = t.size
  · rw [heq, get_create_size]
    exact .inr hnew
  · rw [size_create] at hid
    exact .inl ⟨by omega, t.get_create_of_ne _ _ _ heq⟩

/-- The change of one descriptor. -/
theorem WellKinded.modifyKind
    (ht : t.WellKinded scopes) {f : DescriptorKind → DescriptorKind}
    (hmatures : t.Matures (t.modifyKind id f))
    (hnew : ∀ d, t.get id = d → d.WellKinded t scopes id →
      d.WellKinded (t.modifyKind id f) scopes id →
        Descriptor.WellKinded (t.modifyKind id f) scopes id { d with kind := f d.kind }) :
    (t.modifyKind id f).WellKinded scopes := by
  refine ht.of_matures hmatures (Nat.le_refl _) fun id' hid' => ?_
  rw [size_modifyKind] at hid'
  by_cases heq : id' = id
  · subst heq
    rw [t.get_modifyKind_self hid']
    exact .inr (hnew _ rfl (ht id' hid') ((ht id' hid').of_matures hmatures (Nat.le_refl _) hid'))
  · exact .inl ⟨hid', t.get_modifyKind_of_ne heq f⟩

theorem Matures.modifyKind
    {f : DescriptorKind → DescriptorKind} (hsort : (f (t.get id).kind).sort = (t.get id).kind.sort)
    (hreturn : ∀ s type, (t.get id).kind = .constructorKind s → s.returnType = some type →
      ∃ s', f (.constructorKind s) = .constructorKind s' ∧ s'.returnType = some type)
    (harity : ∀ s, (t.get id).kind = .functionKind s → s.role = .setter →
      s.parameters.length = 1 →
        ∃ s', f (.functionKind s) = .functionKind s' ∧ s'.parameters.length = 1) :
    t.Matures (t.modifyKind id f) := by
  refine ⟨(t.size_modifyKind id f).ge, ?_, ?_, ?_, ?_, ?_⟩
  · exact fun id' _ => t.name_get_modifyKind ..
  · exact fun id' _ => t.container_get_modifyKind ..
  · intro id' hid'
    rcases t.kind_modifyKind_cases id id' f with heq | ⟨rfl, heq⟩
    · rw [heq]
    · rw [heq, hsort]
  · intro id' type hid' htype
    unfold returnType? signature? at htype ⊢
    rcases t.kind_modifyKind_cases id id' f with heq | ⟨rfl, heq⟩
    · rw [heq]
      exact htype
    · rw [heq]
      have hsort' := hid'.sort_eq
      cases hkind : (t.get id').kind with
      | constructorKind s =>
          rw [hkind] at htype
          obtain ⟨s', hs', htype'⟩ := hreturn s type hkind htype
          simp only [hs']
          exact htype'
      | _ => simp [hkind, DescriptorKind.sort] at hsort'
  · intro id' hid' hone
    unfold parametersOf signature? at hone ⊢
    rcases t.kind_modifyKind_cases id id' f with heq | ⟨rfl, heq⟩
    · rw [heq]
      exact hone
    · rw [heq]
      have hsort' := hid'.sort_eq
      cases hkind : (t.get id').kind with
      | functionKind s =>
          rw [hkind] at hone hsort'
          obtain ⟨s', hs', hone'⟩ := harity s hkind (by simpa [DescriptorKind.sort] using hsort') hone
          simp only [hs']
          exact hone'
      | _ => simp [hkind, DescriptorKind.sort] at hsort'

/-- The change of a signature. The parameters of a setter with one parameter stay, and a
constructor gives back nothing but instances of its class. -/
theorem WellKinded.editSignature
    (ht : t.WellKinded scopes) (id : Nat) {f : Signature → Signature} (hrole : ∀ s, (f s).role = s.role)
    (harity : ∀ s, t.Has (.functionSort .setter) id → t.signature? id = some s →
      s.parameters.length = 1 → (f s).parameters.length = 1)
    (hreturn : ∀ s classId, t.Has .constructorSort id → (t.get id).container = some classId →
      (f s).returnType = s.returnType ∨ (f s).returnType = some (t.classType classId))
    (hf : ∀ s, t.signature? id = some s → s.WellKinded t → (f s).WellKinded t) :
    t.Matures (t.editSignature id f) ∧ (t.editSignature id f).WellKinded scopes := by
  have hmatures : t.Matures (t.editSignature id f) := by
    refine .modifyKind ?_ (fun s type hkind htype => ⟨f s, rfl, ?_⟩)
      fun s hkind hsetter hone => ⟨f s, rfl, ?_⟩
    · cases (t.get id).kind with
      | functionKind s => simp [DescriptorKind.sort, hrole]
      | _ => rfl
    · have hid : id < t.size := t.lt_size_of_kind (by simp [hkind])
      have hhas : t.Has .constructorSort id := ⟨hid, by rw [hkind]; rfl⟩
      obtain ⟨-, classId, hcontainer, -, hown⟩ := (ht id hid).constructorKind s hkind
      rcases hreturn s classId hhas hcontainer with hsame | hset
      · rw [hsame, htype]
      · rw [hset, hown type htype]
    · have hhas : t.Has (.functionSort .setter) id :=
        ⟨t.lt_size_of_kind (by simp [hkind]), by rw [hkind, ← hsetter]; rfl⟩
      exact harity s hhas (by simp [signature?, hkind]) hone
  refine ⟨hmatures, ht.modifyKind hmatures ?_⟩
  rintro ⟨name, container, kind⟩ hget hd hd'
  have hkind : (t.get id).kind = kind := by rw [hget]
  cases kind with
  | functionKind s =>
      obtain ⟨hs, hrole'⟩ := hd.functionKind s rfl
      refine Descriptor.wellKinded_functionKind hd'.container_lt
        ((hf s (by simp [signature?, hkind]) hs).of_matures hmatures) ?_
      rw [hrole]
      exact (hd'.functionKind s rfl).2
  | constructorKind s =>
      obtain ⟨hs, classId, hcontainer, hclass, hown⟩ := hd.constructorKind s rfl
      refine Descriptor.wellKinded_constructorKind hd'.container_lt
        ((hf s (by simp [signature?, hkind]) hs).of_matures hmatures) hcontainer
        (hmatures.has hclass) fun type htype => ?_
      have hhas : t.Has .constructorSort id :=
        ⟨t.lt_size_of_kind (by simp [hkind]), by rw [hkind]; rfl⟩
      have hclassType := hmatures.classType_eq hclass.lt_size
      rcases hreturn s classId hhas (by rw [hget]; exact hcontainer) with hsame | hset
      · exact (hown type (hsame ▸ htype)).trans hclassType.symm
      · rw [hset] at htype
        exact (Option.mem_some.mp htype).symm.trans hclassType.symm
  | _ => exact hd'

/-- The change of a property. -/
theorem WellKinded.editProperty
    (ht : t.WellKinded scopes) (id : Nat) {f : PropertyData → PropertyData}
    (hf : ∀ data, t.propertyData? id = some data → data.WellKinded t id →
      (f data).WellKinded t id) :
    t.Matures (t.editProperty id f) ∧ (t.editProperty id f).WellKinded scopes := by
  have hmatures : t.Matures (t.editProperty id f) := by
    refine .modifyKind ?_ (fun s type _ htype => ⟨s, rfl, htype⟩) fun s _ _ hone => ⟨s, rfl, hone⟩
    cases (t.get id).kind with
    | _ => rfl
  refine ⟨hmatures, ht.modifyKind hmatures ?_⟩
  rintro ⟨name, container, kind⟩ hget hd hd'
  have hkind : (t.get id).kind = kind := by rw [hget]
  cases kind with
  | propertyKind data =>
      exact Descriptor.wellKinded_propertyKind hd'.container_lt
        ((hf data (by simp [propertyData?, hkind]) (hd.propertyKind data rfl)).of_matures
          hmatures)
  | _ => exact hd'

/-- The change of a variable. -/
theorem WellKinded.editVariable
    (ht : t.WellKinded scopes) (id : Nat) {f : VariableData → VariableData}
    (hf : ∀ data, WellKindedType t data.type → WellKindedType t (f data).type) :
    t.Matures (t.editVariable id f) ∧ (t.editVariable id f).WellKinded scopes := by
  have hmatures : t.Matures (t.editVariable id f) := by
    refine .modifyKind ?_ (fun s type _ htype => ⟨s, rfl, htype⟩) fun s _ _ hone => ⟨s, rfl, hone⟩
    cases (t.get id).kind with
    | _ => rfl
  refine ⟨hmatures, ht.modifyKind hmatures ?_⟩
  rintro ⟨name, container, kind⟩ - hd hd'
  cases kind with
  | variableKind data =>
      exact Descriptor.wellKinded_variableKind hd'.container_lt
        ((hf data (hd.variableKind data rfl)).of_matures hmatures)
  | _ => exact hd'

/-- The change of a class that is open. -/
theorem Matures.editClass {f : ClassData → ClassData} (ht' : t.editClass id f = .ok t') :
    t.Matures t' := by
  unfold DescriptorTable.editClass at ht'
  split at ht'
  · rename_i data hkind
    obtain rfl := Except.ok.inj ht'
    refine .modifyKind ?_ (fun s type hs _ => ?_) fun s hs _ _ => ?_
    · rw [hkind]
      rfl
    · rw [hkind] at hs
      cases hs
    · rw [hkind] at hs
      cases hs
  · cases ht'
  · cases ht'

theorem WellKinded.editClass
    (ht : t.WellKinded scopes) {f : ClassData → ClassData}
    (hf : ∀ data, data.WellKinded t scopes id → (f data).WellKinded t scopes id)
    (ht' : t.editClass id f = .ok t') :
    t.Matures t' ∧ t'.WellKinded scopes := by
  have hmatures : t.Matures t' := .editClass ht'
  refine ⟨hmatures, ?_⟩
  unfold DescriptorTable.editClass at ht'
  split at ht'
  · rename_i data hkind
    obtain rfl := Except.ok.inj ht'
    refine ht.modifyKind hmatures fun d hget hd hd' => ?_
    have hid : id < t.size := t.lt_size_of_kind (by simp [hkind])
    have hdata := hd.classKind false data (by rw [← hget, hkind])
    exact Descriptor.wellKinded_classKind hd'.container_lt
      ((hf data hdata).of_matures hmatures (Nat.le_refl _) hid)
  · cases ht'
  · cases ht'

theorem WellKinded.setSupertypes
    (ht : t.WellKinded scopes) {supertypes : List Ty}
    (hsupertypes : ∀ type ∈ supertypes, type.WellKinded t)
    (ht' : t.setSupertypes id supertypes = .ok t') : t.Matures t' ∧ t'.WellKinded scopes :=
  ht.editClass (f := fun data => { data with supertypes })
    (fun _ hdata => ⟨hdata.memberScope_lt, hdata.declaringScope_lt, hsupertypes,
      hdata.constructors, hdata.primaryConstructor_mem⟩) ht'

theorem WellKinded.addConstructor
    (ht : t.WellKinded scopes) {c : Nat} (hc : t.IsConstructorOf id c)
    (ht' : t.addConstructor id c = .ok t') : t.Matures t' ∧ t'.WellKinded scopes := by
  refine ht.editClass (f := fun data => { data with constructors := data.constructors ++ [c] })
    (fun data hdata => ⟨hdata.memberScope_lt, hdata.declaringScope_lt, hdata.supertypes, ?_,
      fun c' hc' => ?_⟩) ht'
  · exact List.forall_mem_append.mpr ⟨hdata.constructors, List.forall_mem_singleton.mpr hc⟩
  · exact List.mem_append_left _ (hdata.primaryConstructor_mem c' hc')

theorem WellKinded.setPrimaryConstructor
    (ht : t.WellKinded scopes) {c : Nat} (hc : t.IsConstructorOf id c)
    (ht' : t.setPrimaryConstructor id c = .ok t') : t.Matures t' ∧ t'.WellKinded scopes := by
  refine ht.editClass
    (f := fun data =>
      { data with primaryConstructor := some c, constructors := data.constructors ++ [c] })
    (fun data hdata => ⟨hdata.memberScope_lt, hdata.declaringScope_lt, hdata.supertypes, ?_,
      fun c' hc' => ?_⟩) ht'
  · exact List.forall_mem_append.mpr ⟨hdata.constructors, List.forall_mem_singleton.mpr hc⟩
  · obtain rfl := Option.mem_some.mp hc'
    exact List.mem_append_right _ (List.mem_singleton_self _)

/-- A function that is no constructor may give back anything. -/
theorem WellKinded.setReturnType
    (ht : t.WellKinded scopes) {type : Ty} (htype : type.WellKinded t)
    (hclass : t.Has .constructorSort id → ∀ classId, (t.get id).container = some classId →
      type = t.classType classId)
    (ht' : t.setReturnType id type = .ok t') : t.Matures t' ∧ t'.WellKinded scopes := by
  unfold DescriptorTable.setReturnType at ht'
  split at ht'
  · obtain rfl := Except.ok.inj ht'
    refine ht.editSignature id (fun _ => rfl) (fun s _ _ hone => hone)
      (fun s classId hid hcontainer => .inr ?_) fun s _ hs =>
        ⟨hs.parameters, wellKindedType_some htype⟩
    rw [hclass hid classId hcontainer]
  · cases ht'

theorem WellKinded.fillPropertyType
    (ht : t.WellKinded scopes) (property : Nat) {type : Ty} (htype : type.WellKinded t) :
    t.Matures (t.fillPropertyType property type) ∧
      (t.fillPropertyType property type).WellKinded scopes := by
  unfold DescriptorTable.fillPropertyType
  split
  · exact ⟨.refl t, ht⟩
  · rename_i data hdata
    have hfill := ht.editProperty property
      (f := fun p => { p with type := p.type <|> some type }) fun data _ hwell =>
        { hwell with type := hwell.type.orElse (wellKindedType_some htype) }
    have hwell := (ht property (lt_size_of_propertyData? (by simp [hdata]))).propertyKind data
      (kind_of_propertyData? hdata)
    -- Getters are no constructors, so any type may be filled in.
    have hgetter : ∀ {t₁ : DescriptorTable}, t.Matures t₁ ∧ t₁.WellKinded scopes →
        ∀ g ∈ data.getter,
          t.Matures (t₁.editSignature g fun s =>
            { s with returnType := s.returnType <|> some type }) ∧
          (t₁.editSignature g fun s =>
            { s with returnType := s.returnType <|> some type }).WellKinded scopes := by
      rintro t₁ ⟨h₁, ht₁⟩ g hg
      have hsort := (h₁.has (hwell.getter g hg).toHas).sort_eq
      have hedit := ht₁.editSignature g
        (f := fun s => { s with returnType := s.returnType <|> some type }) (fun _ => rfl)
        (fun s _ _ hone => hone)
        (fun s classId hid _ => by rw [hid.sort_eq] at hsort; cases hsort)
        fun s _ hs => ⟨hs.parameters,
          hs.returnType.orElse (wellKindedType_some (htype.of_matures h₁))⟩
      exact ⟨h₁.trans hedit.1, hedit.2⟩
    have hvalue : ∀ {t₁ : DescriptorTable}, t.Matures t₁ ∧ t₁.WellKinded scopes → ∀ v,
        t.Matures (t₁.editVariable v fun v => { v with type := v.type <|> some type }) ∧
          (t₁.editVariable v fun v => { v with type := v.type <|> some type }).WellKinded
            scopes := by
      rintro t₁ ⟨h₁, ht₁⟩ v
      have hedit := ht₁.editVariable v
        (f := fun v => { v with type := v.type <|> some type }) fun data hdata =>
          hdata.orElse (wellKindedType_some (htype.of_matures h₁))
      exact ⟨h₁.trans hedit.1, hedit.2⟩
    have hboth : ∀ {t₁ : DescriptorTable}, t.Matures t₁ ∧ t₁.WellKinded scopes →
        t.Matures (t₁.fillSetterValue data.setter type) ∧
          (t₁.fillSetterValue data.setter type).WellKinded scopes := by
      intro t₁ h₁
      unfold fillSetterValue
      cases data.setter.bind t₁.setterValue? with
      | none => exact h₁
      | some v => exact hvalue h₁ v
    cases hg : data.getter with
    | none => exact hboth hfill
    | some g => exact hboth (hgetter hfill g hg)

theorem WellKinded.finalizeClasses (ht : t.WellKinded scopes) :
    t.Matures t.finalizeClasses.2 ∧ t.finalizeClasses.2.WellKinded scopes := by
  have hmatures : t.Matures t.finalizeClasses.2 := by
    refine ⟨t.size_finalizeClasses.ge, fun id _ => ?_, fun id _ => ?_, fun id _ => ?_,
      fun id type _ htype => ?_, fun id _ hone => ?_⟩
    · unfold name
      rw [get_finalizeClasses]
      unfold finalized
      split
      · rfl
      · rfl
    · rw [get_finalizeClasses, container_finalized]
    · rw [get_finalizeClasses, kind_finalized]
      cases (t.get id).kind with
      | _ => rfl
    · unfold returnType? at htype ⊢
      rw [signature?_finalizeClasses]
      exact htype
    · unfold parametersOf at hone ⊢
      rw [signature?_finalizeClasses]
      exact hone
  refine ⟨hmatures, ht.of_matures hmatures (Nat.le_refl _) fun id hid => .inr ?_⟩
  rw [size_finalizeClasses] at hid
  have hd := (ht id hid).of_matures hmatures (Nat.le_refl _) hid
  rw [get_finalizeClasses]
  unfold finalized
  split
  · rename_i data hkind
    exact Descriptor.wellKinded_classKind hd.container_lt (hd.classKind _ data hkind)
  · exact hd

/-! ## What is read from a descriptor -/

section

variable (ht : t.WellKinded scopes)

include ht

theorem WellKinded.classData (hid : id < t.size) {data : ClassData}
    (hdata : t.classData? id = some data) : data.WellKinded t scopes id := by
  obtain ⟨finalized, hkind⟩ := kind_of_classData? hdata
  exact (ht id hid).classKind finalized data hkind

theorem WellKinded.signature {s : Signature} (hs : t.signature? id = some s) :
    s.WellKinded t := by
  have hid : id < t.size := lt_size_of_signature? (by simp [hs])
  unfold DescriptorTable.signature? at hs
  split at hs
  · rename_i s' hkind
    obtain rfl := Option.some.inj hs
    exact ((ht id hid).functionKind s' hkind).1
  · rename_i s' hkind
    obtain rfl := Option.some.inj hs
    exact ((ht id hid).constructorKind s' hkind).1
  · cases hs

theorem WellKinded.valueType? (id : Nat) : WellKindedType t (t.valueType? id) := by
  intro type htype
  have hid : id < t.size := lt_size_of_valueType? htype
  unfold DescriptorTable.valueType? at htype
  split at htype
  · rename_i data hkind
    exact (ht id hid).variableKind data hkind type htype
  · rename_i data hkind
    exact ((ht id hid).propertyKind data hkind).type type htype
  · cases htype

theorem WellKinded.returnType? (id : Nat) : WellKindedType t (t.returnType? id) := by
  intro type htype
  obtain ⟨s, hs, htype⟩ := Option.bind_eq_some_iff.mp htype
  exact (ht.signature hs).returnType type htype

theorem WellKinded.parameterTypes (id : Nat) :
    ∀ type ∈ t.parameterTypes id, type.WellKinded t := by
  unfold DescriptorTable.parameterTypes
  split
  · intro type htype
    obtain ⟨p, -, rfl⟩ := List.mem_map.mp htype
    cases hp : t.valueType? p with
    | none => exact trivial
    | some type => exact ht.valueType? p type hp
  · exact fun _ htype => nomatch htype

theorem WellKinded.memberScope?_lt {type : Ty} {members : Nat}
    (h : t.memberScope? type = some members) : members < scopes := by
  unfold memberScope? at h
  obtain ⟨id, -, h⟩ := Option.bind_eq_some_iff.mp h
  cases hns : t.namespaceMembers? id with
  | some ns =>
      rw [hns] at h
      obtain rfl := Option.some.inj h
      have hid : id < t.size := lt_size_of_namespaceMembers? (by simp [hns])
      unfold namespaceMembers? at hns
      split at hns
      · rename_i ns' hkind
        obtain rfl := Option.some.inj hns
        exact (ht id hid).namespaceKind _ hkind
      · cases hns
  | none =>
      rw [hns] at h
      obtain ⟨data, hdata, rfl⟩ := Option.map_eq_some_iff.mp h
      exact (ht.classData (lt_size_of_classData? (by simp [hdata])) hdata).memberScope_lt

theorem WellKinded.namespaceMembers?_lt {members : Nat}
    (h : t.namespaceMembers? id = some members) : members < scopes := by
  have hmembers : t.memberScope? (.namespaceType id "") = some members := by
    simp [memberScope?, Ty.descriptor?, h]
  exact ht.memberScope?_lt hmembers

end

theorem Has.wellKinded_classType (h : t.Has .classSort id) : (t.classType id).WellKinded t :=
  ⟨h, rfl⟩

theorem Has.wellKinded_namespaceType (h : t.Has .namespaceSort id) :
    (t.namespaceType id).WellKinded t :=
  ⟨h, rfl⟩

theorem wellKinded_join {a b : Ty} (ha : a.WellKinded t) (hb : b.WellKinded t) :
    (t.join a b).WellKinded t := by
  unfold join
  split
  · exact hb
  · split
    · exact ha
    · trivial

end DescriptorTable

end DeclAnalysis
