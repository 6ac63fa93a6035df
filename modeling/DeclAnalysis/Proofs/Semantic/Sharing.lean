import DeclAnalysis.Proofs.Semantic.ParameterTypes

/-!
# What a property shares its type with

The getter of a property and the parameter of its setter get the type of the property unless they
are declared with types of their own. The three of them belong to no other property, so that
whatever is filled in for one property leaves the types of all others alone.
-/

namespace DeclAnalysis

namespace DescriptorTable

variable {t t' : DescriptorTable} {property d : Nat}

/-! ## Accessors -/

/-- The getter of a property. -/
def getter? (t : DescriptorTable) (property : Nat) : Option Nat :=
  (t.propertyData? property).bind PropertyData.getter

/-- The return type of the getter of a property. -/
def getterType? (t : DescriptorTable) (property : Nat) : Option Ty :=
  (t.getter? property).bind t.returnType?

/-- The setter of a property. -/
def setter? (t : DescriptorTable) (property : Nat) : Option Nat :=
  (t.propertyData? property).bind PropertyData.setter

/-- The parameter of the setter of a property. -/
def setterParameter? (t : DescriptorTable) (property : Nat) : Option Nat :=
  (t.setter? property).bind t.setterValue?

/-- The descriptor is a property, the getter that it refers to, or what its setter takes. -/
inductive Shares (t : DescriptorTable) (property : Nat) : Nat → Prop
  | itself : Shares t property property
  | getter {function : Nat} (hgetter : t.getter? property = some function) :
      Shares t property function
  | parameter {v : Nat} (hv : t.setterParameter? property = some v) : Shares t property v

/-- The descriptor is a property, or a getter or the parameter of a setter that is declared in the
property. -/
inductive PartOf (t : DescriptorTable) (property : Nat) : Nat → Prop
  | itself (hproperty : t.Has .propertySort property) : PartOf t property property
  | getter {function : Nat} (hgetter : t.IsAccessorOf .getter property function) :
      PartOf t property function
  | parameter {function v : Nat} (hsetter : t.IsAccessorOf .setter property function)
      (hv : t.Has .variableSort v) (hcontainer : (t.get v).container = some function) :
      PartOf t property v

theorem Has.sort_unique {sort sort' : DescriptorSort} (h : t.Has sort d) (h' : t.Has sort' d) :
    sort = sort' :=
  h.sort_eq.symm.trans h'.sort_eq

theorem PartOf.lt_size (h : t.PartOf property d) : d < t.size := by
  cases h with
  | itself hproperty => exact hproperty.lt_size
  | getter hgetter => exact hgetter.lt_size
  | parameter _ hv _ => exact hv.lt_size

/-- No two properties have a part in common: what is contained in a property tells it. -/
theorem PartOf.unique {property' : Nat} (h : t.PartOf property d) (h' : t.PartOf property' d) :
    property = property' := by
  cases h with
  | itself hproperty =>
      cases h' with
      | itself => rfl
      | getter hgetter => cases hproperty.sort_unique hgetter.toHas
      | parameter _ hv => cases hproperty.sort_unique hv
  | getter hgetter =>
      cases h' with
      | itself hproperty => cases hproperty.sort_unique hgetter.toHas
      | getter hgetter' =>
          exact Option.some.inj (hgetter.container_eq.symm.trans hgetter'.container_eq)
      | parameter _ hv => cases hv.sort_unique hgetter.toHas
  | parameter hsetter hv hcontainer =>
      cases h' with
      | itself hproperty => cases hproperty.sort_unique hv
      | getter hgetter => cases hv.sort_unique hgetter.toHas
      | parameter hsetter' _ hcontainer' =>
          obtain rfl := Option.some.inj (hcontainer.symm.trans hcontainer')
          exact Option.some.inj (hsetter.container_eq.symm.trans hsetter'.container_eq)

/-- The only functions among the parts are getters. -/
theorem PartOf.role_eq {role : FunctionRole} (h : t.PartOf property d)
    (hd : t.Has (.functionSort role) d) : role = .getter := by
  cases h with
  | itself hproperty => cases hproperty.sort_unique hd
  | getter hgetter =>
      cases hgetter.sort_unique hd
      rfl
  | parameter _ hv => cases hv.sort_unique hd

/-- The accessors that a property refers to belong to it, and what its setter takes belongs to the
setter. -/
structure Owns (t : DescriptorTable) (property : Nat) : Prop where
  itself : t.Has .propertySort property
  getter : ∀ {function : Nat}, t.getter? property = some function →
    t.IsAccessorOf .getter property function
  setter : ∀ {function : Nat}, t.setter? property = some function →
    t.IsAccessorOf .setter property function ∧
      ∃ v, t.setterValue? function = some v ∧ t.Has .variableSort v ∧
        (t.get v).container = some function

theorem Owns.has_parameter (h : t.Owns property) {v : Nat}
    (hv : t.setterParameter? property = some v) : t.Has .variableSort v := by
  obtain ⟨function, hfunction, hvalue⟩ := Option.bind_eq_some_iff.mp hv
  obtain ⟨-, v', hvalue', hhas, -⟩ := h.setter hfunction
  obtain rfl := Option.some.inj (hvalue.symm.trans hvalue')
  exact hhas

/-- What a property shares its type with belongs to it. -/
theorem Owns.partOf (h : t.Owns property) (hd : t.Shares property d) : t.PartOf property d := by
  cases hd with
  | itself => exact .itself h.itself
  | getter hgetter => exact .getter (h.getter hgetter)
  | parameter hv =>
      obtain ⟨function, hfunction, hvalue⟩ := Option.bind_eq_some_iff.mp hv
      obtain ⟨hsetter, v', hvalue', hhas, hcontainer⟩ := h.setter hfunction
      obtain rfl := Option.some.inj (hvalue.symm.trans hvalue')
      exact .parameter hsetter hhas hcontainer

/-- No accessor of another property is a part. -/
theorem Owns.accessor_not_partOf {other function : Nat} (h : t.Owns other) (hne : property ≠ other)
    (hfunction : t.getter? other = some function ∨ t.setter? other = some function) :
    ¬ t.PartOf property function := by
  intro hpart
  rcases hfunction with hgetter | hsetter
  · exact hne (hpart.unique (h.partOf (.getter hgetter)))
  · cases hpart.role_eq (h.setter hsetter).1.toHas

theorem has_propertySort_iff : t.Has .propertySort d ↔ (t.propertyData? d).isSome := by
  constructor
  · intro h
    have hsort := h.sort_eq
    unfold propertyData?
    generalize (t.get d).kind = kind at hsort ⊢
    cases kind with
    | propertyKind data => rfl
    | functionKind | constructorKind | namespaceKind | classKind | variableKind => cases hsort
  · intro h
    obtain ⟨data, hdata⟩ := Option.isSome_iff_exists.mp h
    exact ⟨lt_size_of_propertyData? h, congrArg DescriptorKind.sort (kind_of_propertyData? hdata)⟩

/-! ## What a table retains -/

/-- Descriptors stay of their sorts and in their containers, properties keep their accessors and
functions their parameters. -/
structure Retains (t t' : DescriptorTable) : Prop where
  has : ∀ {sort : DescriptorSort} {id : Nat}, t.Has sort id → t'.Has sort id
  container_eq : ∀ {id : Nat}, id < t.size → (t'.get id).container = (t.get id).container
  accessors_eq : ∀ {id : Nat} {data : PropertyData}, t.propertyData? id = some data →
    ∃ data', t'.propertyData? id = some data' ∧ data'.getter = data.getter ∧
      data'.setter = data.setter
  parameters_eq : ∀ {id : Nat} {s : Signature}, t.signature? id = some s →
    ∃ s', t'.signature? id = some s' ∧ s'.parameters = s.parameters

theorem Has.of_sort_eq {sort : DescriptorSort} (h : t.Has sort d) (hsize : t.size ≤ t'.size)
    (hsort : (t'.get d).kind.sort = (t.get d).kind.sort) : t'.Has sort d :=
  ⟨h.lt_size.trans_le hsize, hsort.trans h.sort_eq⟩

theorem Fills.retains (h : t.Fills t') : t.Retains t' where
  has {sort id} hid := by
    apply hid.of_sort_eq h.size_le
    have hkind := h.kind id hid.lt_size
    generalize (t.get id).kind = a at hkind
    generalize (t'.get id).kind = b at hkind ⊢
    cases hkind with
    | refl | constructorKind | functionKind | propertyKind | variableKind => rfl
  container_eq hid := h.container_eq _ hid
  accessors_eq hdata := by
    obtain ⟨data', hdata', hgetter, hsetter, -⟩ := h.propertyData? hdata
    exact ⟨data', hdata', hgetter, hsetter⟩
  parameters_eq hs := by
    obtain ⟨s', hs', hparameters, -⟩ := h.signature? hs
    exact ⟨s', hs', hparameters⟩

theorem Grows.retains {except : Nat → Prop} (h : t.Grows except t') : t.Retains t' where
  has {sort id} hid := by
    apply hid.of_sort_eq h.size_le
    have hkind := h.kind id hid.lt_size
    generalize (t.get id).kind = a at hkind
    generalize (t'.get id).kind = b at hkind ⊢
    cases hkind with
    | refl | classKind => rfl
  container_eq hid := h.container_eq _ hid
  accessors_eq {id data} hdata := by
    have hid := lt_size_of_propertyData? (Option.isSome_of_eq_some hdata)
    exact ⟨data, (h.propertyData?_eq hid).trans hdata, rfl, rfl⟩
  parameters_eq {id s} hs := by
    have hid := lt_size_of_signature? (Option.isSome_of_eq_some hs)
    exact ⟨s, (h.signature?_eq hid).trans hs, rfl⟩

theorem Retains.finalizeClasses (t : DescriptorTable) : t.Retains t.finalizeClasses.2 where
  has {sort id} hid := by
    apply hid.of_sort_eq t.size_finalizeClasses.ge
    rw [get_finalizeClasses, kind_finalized]
    cases (t.get id).kind <;> rfl
  container_eq {id} _ := by rw [get_finalizeClasses, container_finalized]
  accessors_eq {id data} hdata :=
    ⟨data, (t.propertyData?_finalizeClasses id).trans hdata, rfl, rfl⟩
  parameters_eq {id s} hs := ⟨s, (t.signature?_finalizeClasses id).trans hs, rfl⟩

section

variable (h : t.Retains t')

include h

theorem Retains.isAccessorOf {role : FunctionRole} {function : Nat}
    (hf : t.IsAccessorOf role property function) : t'.IsAccessorOf role property function where
  toHas := h.has hf.toHas
  container_eq := (h.container_eq hf.lt_size).trans hf.container_eq

theorem Retains.partOf (hd : t.PartOf property d) : t'.PartOf property d := by
  cases hd with
  | itself hproperty => exact .itself (h.has hproperty)
  | getter hgetter => exact .getter (h.isAccessorOf hgetter)
  | parameter hsetter hv hcontainer =>
      apply PartOf.parameter (h.isAccessorOf hsetter) (h.has hv)
      exact (h.container_eq hv.lt_size).trans hcontainer

theorem Retains.setterValue?_eq {function : Nat} (hf : (t.signature? function).isSome) :
    t'.setterValue? function = t.setterValue? function := by
  obtain ⟨s, hs⟩ := Option.isSome_iff_exists.mp hf
  obtain ⟨s', hs', hparameters⟩ := h.parameters_eq hs
  unfold setterValue?
  rw [hs, hs', Option.bind_some, Option.bind_some, hparameters]

variable (hproperty : t.Has .propertySort property)

include hproperty

theorem Retains.getter?_eq : t'.getter? property = t.getter? property := by
  obtain ⟨data, hdata⟩ := Option.isSome_iff_exists.mp (has_propertySort_iff.mp hproperty)
  obtain ⟨data', hdata', hgetter, -⟩ := h.accessors_eq hdata
  unfold getter?
  rw [hdata, hdata', Option.bind_some, Option.bind_some, hgetter]

theorem Retains.setter?_eq : t'.setter? property = t.setter? property := by
  obtain ⟨data, hdata⟩ := Option.isSome_iff_exists.mp (has_propertySort_iff.mp hproperty)
  obtain ⟨data', hdata', -, hsetter⟩ := h.accessors_eq hdata
  unfold setter?
  rw [hdata, hdata', Option.bind_some, Option.bind_some, hsetter]

end

section

variable (howns : t.Owns property) (h : t.Retains t')

include howns h

theorem Owns.setterParameter?_eq :
    t'.setterParameter? property = t.setterParameter? property := by
  unfold setterParameter?
  rw [h.setter?_eq howns.itself]
  cases hsetter : t.setter? property with
  | none => rfl
  | some function => exact h.setterValue?_eq (howns.setter hsetter).1.isSome_signature?

theorem Owns.shares_iff : t'.Shares property d ↔ t.Shares property d := by
  constructor
  · intro hd
    cases hd with
    | itself => exact .itself
    | getter hgetter => exact .getter (h.getter?_eq howns.itself ▸ hgetter)
    | parameter hv => exact .parameter (howns.setterParameter?_eq h ▸ hv)
  · intro hd
    cases hd with
    | itself => exact .itself
    | getter hgetter => exact .getter ((h.getter?_eq howns.itself).trans hgetter)
    | parameter hv => exact .parameter ((howns.setterParameter?_eq h).trans hv)

theorem Owns.of_retains : t'.Owns property where
  itself := h.has howns.itself
  getter hgetter := by
    rw [h.getter?_eq howns.itself] at hgetter
    exact h.isAccessorOf (howns.getter hgetter)
  setter {function} hsetter := by
    rw [h.setter?_eq howns.itself] at hsetter
    obtain ⟨hfunction, v, hvalue, hhas, hcontainer⟩ := howns.setter hsetter
    refine ⟨h.isAccessorOf hfunction, v, ?_, h.has hhas, ?_⟩
    · exact (h.setterValue?_eq hfunction.isSome_signature?).trans hvalue
    · exact (h.container_eq hhas.lt_size).trans hcontainer

end

/-! ## Filling in the type -/

/-- Sets the return type of a function, if there is one and its return type is still open. -/
def fillReturnType (t : DescriptorTable) (function : Option Nat) (type : Ty) : DescriptorTable :=
  match function with
  | none => t
  | some g => t.editSignature g fun s => { s with returnType := s.returnType <|> some type }

/-- Sets the type of a variable, if there is one and its type is still open. -/
def fillValueType (t : DescriptorTable) (variable_ : Option Nat) (type : Ty) : DescriptorTable :=
  match variable_ with
  | none => t
  | some v => t.editVariable v fun v => { v with type := v.type <|> some type }

theorem get_fillReturnType_of_ne (t : DescriptorTable) {function : Option Nat}
    (hd : function ≠ some d) (type : Ty) : (t.fillReturnType function type).get d = t.get d := by
  cases function with
  | none => rfl
  | some g => exact t.get_editSignature_of_ne (fun heq => hd (congrArg some heq.symm)) _

theorem get_fillValueType_of_ne (t : DescriptorTable) {variable_ : Option Nat}
    (hd : variable_ ≠ some d) (type : Ty) : (t.fillValueType variable_ type).get d = t.get d := by
  cases variable_ with
  | none => rfl
  | some v => exact t.get_modifyKind_of_ne (fun heq => hd (congrArg some heq.symm)) _

theorem valueType?_congr (h : t'.get d = t.get d) : t'.valueType? d = t.valueType? d := by
  rw [valueType?_eq, valueType?_eq, h]

theorem returnType?_congr (h : t'.get d = t.get d) : t'.returnType? d = t.returnType? d := by
  unfold returnType?
  rw [signature?_eq, signature?_eq, h]

theorem valueType?_editProperty_self (hd : t.Has .propertySort d) (type : Ty) :
    (t.editProperty d fun p => { p with type := p.type <|> some type }).valueType? d =
      (t.valueType? d <|> some type) := by
  obtain ⟨data, hdata⟩ := Option.isSome_iff_exists.mp (has_propertySort_iff.mp hd)
  rw [valueType?_eq, valueType?_eq, kind_editProperty_self hdata, kind_of_propertyData? hdata]
  rfl

theorem returnType?_fillReturnType {role : FunctionRole} (hd : t.Has (.functionSort role) d)
    (type : Ty) :
    (t.fillReturnType (some d) type).returnType? d = (t.returnType? d <|> some type) := by
  obtain ⟨s, hs⟩ := Option.isSome_iff_exists.mp hd.isSome_signature?
  unfold returnType? fillReturnType
  rw [signature?_editSignature_self hs, hs, Option.bind_some, Option.bind_some]

theorem valueType?_fillValueType (hd : t.Has .variableSort d) (type : Ty) :
    (t.fillValueType (some d) type).valueType? d = (t.valueType? d <|> some type) := by
  obtain ⟨data, hdata⟩ : ∃ data, (t.get d).kind = .variableKind data := by
    have hsort := hd.sort_eq
    generalize (t.get d).kind = kind at hsort ⊢
    cases kind with
    | variableKind data => exact ⟨data, rfl⟩
    | functionKind | constructorKind | namespaceKind | classKind | propertyKind => cases hsort
  have hkind : ((t.fillValueType (some d) type).get d).kind =
      .variableKind { data with type := data.type <|> some type } := by
    refine (congrArg Descriptor.kind (t.get_modifyKind_self hd.lt_size _)).trans ?_
    rw [hdata]
  rw [valueType?_eq, valueType?_eq, hkind, hdata]
  rfl

section

variable (h : t.Owns property) (type : Ty)

include h

/-- One type is filled in for the property, its getter and the parameter of its setter. -/
theorem Owns.fillPropertyType_eq : t.fillPropertyType property type =
    ((t.editProperty property fun p => { p with type := p.type <|> some type }).fillReturnType
      (t.getter? property) type).fillValueType (t.setterParameter? property) type := by
  obtain ⟨data, hdata⟩ := Option.isSome_iff_exists.mp (has_propertySort_iff.mp h.itself)
  let first := t.editProperty property fun p => { p with type := p.type <|> some type }
  have hfirst : t.Fills first := .fillPropertyData t property type
  have hsecond : t.Fills (first.fillReturnType data.getter type) := by
    cases data.getter with
    | none => exact hfirst
    | some g => exact hfirst.trans (.fillReturnType first g type)
  have hvalue : data.setter.bind (first.fillReturnType data.getter type).setterValue? =
      t.setterParameter? property := by
    rw [← h.setterParameter?_eq hsecond.retains]
    unfold setterParameter?
    rw [hsecond.retains.setter?_eq h.itself]
    unfold setter?
    rw [hdata, Option.bind_some]
  have hgetter : t.getter? property = data.getter := by
    unfold getter?
    rw [hdata, Option.bind_some]
  rw [hgetter, ← hvalue]
  unfold fillPropertyType
  rw [hdata]
  rfl

theorem Owns.getter_ne_itself : t.getter? property ≠ some property := fun heq => by
  cases (h.getter heq).toHas.sort_unique h.itself

theorem Owns.parameter_ne_itself : t.setterParameter? property ≠ some property := fun heq => by
  cases (h.has_parameter heq).sort_unique h.itself

theorem Owns.parameter_ne_getter {function : Nat} (hgetter : t.getter? property = some function) :
    t.setterParameter? property ≠ some function := fun heq => by
  cases (h.has_parameter heq).sort_unique (h.getter hgetter).toHas

theorem Owns.get_fillPropertyType_of_not_partOf (hd : ¬ t.PartOf property d) :
    (t.fillPropertyType property type).get d = t.get d := by
  rw [h.fillPropertyType_eq, get_fillValueType_of_ne, get_fillReturnType_of_ne,
    get_editProperty_of_ne]
  · rintro rfl
    exact hd (.itself h.itself)
  · exact fun heq => hd (h.partOf (.getter heq))
  · exact fun heq => hd (h.partOf (.parameter heq))

theorem Owns.valueType?_fillPropertyType :
    (t.fillPropertyType property type).valueType? property =
      (t.valueType? property <|> some type) := by
  rw [h.fillPropertyType_eq, valueType?_congr (get_fillValueType_of_ne _ h.parameter_ne_itself _),
    valueType?_congr (get_fillReturnType_of_ne _ h.getter_ne_itself _)]
  exact valueType?_editProperty_self h.itself type

theorem Owns.returnType?_fillPropertyType
    {function : Nat} (hgetter : t.getter? property = some function) :
    (t.fillPropertyType property type).returnType? function =
      (t.returnType? function <|> some type) := by
  have hne : function ≠ property := by
    rintro rfl
    exact h.getter_ne_itself hgetter
  have hfirst := t.get_editProperty_of_ne hne fun p => { p with type := p.type <|> some type }
  rw [h.fillPropertyType_eq,
    returnType?_congr (get_fillValueType_of_ne _ (h.parameter_ne_getter hgetter) _), hgetter]
  rw [← returnType?_congr hfirst]
  apply returnType?_fillReturnType
  exact (Fills.fillPropertyData t property type).retains.has (h.getter hgetter).toHas

theorem Owns.valueType?_fillPropertyType_parameter
    {v : Nat} (hv : t.setterParameter? property = some v) :
    (t.fillPropertyType property type).valueType? v = (t.valueType? v <|> some type) := by
  have hne : v ≠ property := by
    rintro rfl
    exact h.parameter_ne_itself hv
  have hfirst := t.get_editProperty_of_ne hne fun p => { p with type := p.type <|> some type }
  have hgetter : t.getter? property ≠ some v := fun heq => h.parameter_ne_getter heq hv
  have hsecond := (get_fillReturnType_of_ne _ hgetter type).trans hfirst
  rw [h.fillPropertyType_eq, hv, ← valueType?_congr hsecond]
  apply valueType?_fillValueType
  have hhas := h.has_parameter hv
  apply hhas.of_sort_eq
  · cases t.getter? property with
    | none => exact (size_editProperty ..).ge
    | some g => exact ((size_editSignature ..).trans (size_editProperty ..)).ge
  · rw [hsecond]

end

/-- The getter keeps its return type as long as it is left alone. -/
theorem Owns.getterType?_eq (h : t.Owns property) (hretains : t.Retains t')
    (hget : ∀ {d}, t.Shares property d → t'.get d = t.get d) :
    t'.getterType? property = t.getterType? property := by
  unfold getterType?
  rw [hretains.getter?_eq h.itself]
  cases hgetter : t.getter? property with
  | none => rfl
  | some function => exact returnType?_congr (hget (.getter hgetter))

/-! ## One type -/

/-- A property has the accessors that it is declared with, and those that are declared without a
type have the type of the property. -/
structure Accords (t : DescriptorTable) (decl : PropertyDecl) (property : Nat) : Prop
    extends t.Owns property where
  getter?_isSome : (t.getter? property).isSome = decl.getter.isSome
  setter?_isSome : (t.setter? property).isSome = decl.setter.isSome
  returnType?_eq : ∀ a ∈ decl.getter, a.returnType = none →
    ∀ g ∈ t.getter? property, t.returnType? g = t.valueType? property
  parameterType?_eq : ∀ a ∈ decl.setter, a.parameter.bind Parameter.typeRef = none →
    ∀ v ∈ t.setterParameter? property, t.valueType? v = t.valueType? property

section

variable {decl : PropertyDecl} (h : t.Accords decl property)

include h

theorem Accords.getterType?_eq_none (hnone : decl.getter = none) :
    t.getterType? property = none := by
  have hgetter := h.getter?_isSome
  rw [hnone, Option.isSome_none, Option.isSome_eq_false_iff, Option.isNone_iff_eq_none] at hgetter
  unfold getterType?
  rw [hgetter, Option.bind_none]

/-- It is enough that the parts keep their types. -/
theorem Accords.of_retains (hretains : t.Retains t')
    (htype : t'.valueType? property = t.valueType? property)
    (hgetter : ∀ g ∈ t.getter? property, t'.returnType? g = t.returnType? g)
    (hparameter : ∀ v ∈ t.setterParameter? property, t'.valueType? v = t.valueType? v) :
    t'.Accords decl property where
  toOwns := h.toOwns.of_retains hretains
  getter?_isSome := by
    rw [hretains.getter?_eq h.itself]
    exact h.getter?_isSome
  setter?_isSome := by
    rw [hretains.setter?_eq h.itself]
    exact h.setter?_isSome
  returnType?_eq a ha himplied g hg := by
    rw [hretains.getter?_eq h.itself] at hg
    rw [hgetter g hg, htype]
    exact h.returnType?_eq a ha himplied g hg
  parameterType?_eq a ha himplied v hv := by
    rw [h.toOwns.setterParameter?_eq hretains] at hv
    rw [hparameter v hv, htype]
    exact h.parameterType?_eq a ha himplied v hv

theorem Accords.of_get_eq (hretains : t.Retains t')
    (hget : ∀ {d}, t.Shares property d → t'.get d = t.get d) : t'.Accords decl property := by
  apply h.of_retains hretains
  · exact valueType?_congr (hget .itself)
  · intro g hg
    exact returnType?_congr (hget (.getter hg))
  · intro v hv
    exact valueType?_congr (hget (.parameter hv))

/-- The same type is filled in wherever it is open. -/
theorem Accords.fillPropertyType (type : Ty) :
    (t.fillPropertyType property type).Accords decl property := by
  have hretains := (Fills.fillPropertyType t property type).retains
  have howns := h.toOwns
  refine ⟨howns.of_retains hretains, ?_, ?_, ?_, ?_⟩
  · rw [hretains.getter?_eq h.itself]
    exact h.getter?_isSome
  · rw [hretains.setter?_eq h.itself]
    exact h.setter?_isSome
  · intro a ha himplied g hg
    rw [hretains.getter?_eq h.itself] at hg
    rw [howns.returnType?_fillPropertyType type hg, howns.valueType?_fillPropertyType type,
      h.returnType?_eq a ha himplied g hg]
  · intro a ha himplied v hv
    rw [howns.setterParameter?_eq hretains] at hv
    rw [howns.valueType?_fillPropertyType_parameter type hv, howns.valueType?_fillPropertyType type,
      h.parameterType?_eq a ha himplied v hv]

end

/-! ## Before bodies are resolved -/

/-- What is known of a property once its signature has been resolved. Its type is open unless it is
declared, and the accessors agree with it unless they are declared with types. -/
structure DeclaredWith (t : DescriptorTable) (decl : PropertyDecl) (property : Nat) : Prop where
  valueType?_eq_none : decl.typeRef = none → t.valueType? property = none
  getter : ∀ g ∈ t.getter? property, (t.signature? g).isSome ∧
    ∀ a ∈ decl.getter, a.returnType = none → t.returnType? g = t.valueType? property
  setter : ∀ function ∈ t.setter? property, ∃ v, v < t.size ∧ t.setterValue? function = some v ∧
    (t.get v).container = some function ∧
      ∀ a ∈ decl.setter, a.parameter.bind Parameter.typeRef = none →
        t.valueType? v = t.valueType? property

theorem isSome_signature?_of_setterValue?
    {function v : Nat} (h : t.setterValue? function = some v) :
    (t.signature? function).isSome := by
  obtain ⟨s, hs, -⟩ := Option.bind_eq_some_iff.mp h
  exact Option.isSome_of_eq_some hs

section

variable {decl : PropertyDecl}

theorem DeclaredWith.of_retains (h : t.DeclaredWith decl property)
    (hproperty : t.Has .propertySort property) (hretains : t.Retains t')
    (hsize : t.size ≤ t'.size)
    (hvalue : ∀ {id}, id < t.size → t'.valueType? id = t.valueType? id)
    (hreturn : ∀ {id}, id < t.size → t'.returnType? id = t.returnType? id) :
    t'.DeclaredWith decl property where
  valueType?_eq_none hnone := (hvalue hproperty.lt_size).trans (h.valueType?_eq_none hnone)
  getter g hg := by
    rw [hretains.getter?_eq hproperty] at hg
    obtain ⟨hsignature, himplied⟩ := h.getter g hg
    obtain ⟨s, hs⟩ := Option.isSome_iff_exists.mp hsignature
    obtain ⟨s', hs', -⟩ := hretains.parameters_eq hs
    refine ⟨Option.isSome_of_eq_some hs', fun a ha hnone => ?_⟩
    rw [hreturn (lt_size_of_signature? hsignature), hvalue hproperty.lt_size]
    exact himplied a ha hnone
  setter function hfunction := by
    rw [hretains.setter?_eq hproperty] at hfunction
    obtain ⟨v, hlt, hv, hcontainer, himplied⟩ := h.setter function hfunction
    refine ⟨v, hlt.trans_le hsize, ?_, (hretains.container_eq hlt).trans hcontainer, ?_⟩
    · exact (hretains.setterValue?_eq (isSome_signature?_of_setterValue? hv)).trans hv
    · intro a ha hnone
      rw [hvalue hlt, hvalue hproperty.lt_size]
      exact himplied a ha hnone

theorem DeclaredWith.of_grows {except : Nat → Prop} (h : t.DeclaredWith decl property)
    (hproperty : t.Has .propertySort property) (hgrows : t.Grows except t') :
    t'.DeclaredWith decl property := by
  apply h.of_retains hproperty hgrows.retains hgrows.size_le
  · exact hgrows.valueType?_eq
  · intro id hid
    unfold returnType?
    rw [hgrows.signature?_eq hid]

theorem DeclaredWith.finalizeClasses (h : t.DeclaredWith decl property)
    (hproperty : t.Has .propertySort property) :
    t.finalizeClasses.2.DeclaredWith decl property := by
  apply h.of_retains hproperty (.finalizeClasses t) t.size_finalizeClasses.ge
  · intro id _
    exact t.valueType?_finalizeClasses id
  · intro id _
    exact t.returnType?_finalizeClasses id

/-- From then on a property accords with its accessors. -/
theorem DeclaredWith.accords {scopes : Nat} (h : t.DeclaredWith decl property)
    (ht : t.WellKinded scopes) (hproperty : t.Has .propertySort property)
    (hgetter : (t.getter? property).isSome = decl.getter.isSome)
    (hsetter : (t.setter? property).isSome = decl.setter.isSome) : t.Accords decl property := by
  obtain ⟨data, hdata⟩ := Option.isSome_iff_exists.mp (has_propertySort_iff.mp hproperty)
  have hkinded := (ht property hproperty.lt_size).propertyKind data (kind_of_propertyData? hdata)
  refine ⟨⟨hproperty, fun {g} hg => ?_, fun {function} hfunction => ?_⟩, hgetter, hsetter,
    fun a ha hnone g hg => (h.getter g hg).2 a ha hnone, fun a ha hnone v hv => ?_⟩
  · unfold getter? at hg
    rw [hdata, Option.bind_some] at hg
    exact hkinded.getter g hg
  · obtain ⟨v, -, hv, hcontainer, -⟩ := h.setter function hfunction
    obtain ⟨s, hs, hhead⟩ := Option.bind_eq_some_iff.mp hv
    have hhas := (ht.signature hs).parameters v (List.mem_of_head? hhead)
    unfold setter? at hfunction
    rw [hdata, Option.bind_some] at hfunction
    exact ⟨hkinded.setter function hfunction, v, hv, hhas, hcontainer⟩
  · obtain ⟨function, hfunction, hvalue⟩ := Option.bind_eq_some_iff.mp hv
    obtain ⟨v', -, hv', -, himplied⟩ := h.setter function hfunction
    obtain rfl := Option.some.inj (hvalue.symm.trans hv')
    exact himplied a ha hnone

end

end DescriptorTable

end DeclAnalysis
