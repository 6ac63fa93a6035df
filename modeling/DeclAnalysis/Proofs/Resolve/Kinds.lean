import DeclAnalysis.Resolve.Body
import DeclAnalysis.Proofs.Resolve.Parts
import DeclAnalysis.Proofs.Typing.Kinds

/-!
# Resolving keeps sessions well-kinded

Signatures are created with containers of the right sort, and bodies are resolved in scopes that
exist. Accessors are attached to their property only when they are complete, and constructors to
their class only when they give back its instances.
-/

namespace DeclAnalysis

namespace DescriptorTable

variable {t t' : DescriptorTable} {id : Nat}

theorem returnType?_of_setReturnType {type : Ty} (h : t.setReturnType id type = .ok t') :
    t'.returnType? id = some type := by
  unfold setReturnType at h
  split at h
  · rename_i s hs
    obtain rfl := Except.ok.inj h
    unfold returnType?
    rw [signature?_editSignature_self hs]
    rfl
  · cases h

/-- A new descriptor is of the sort of what it stands for. -/
theorem names_create (t : DescriptorTable) (name : String) (container : Option Nat)
    (kind : DescriptorKind) : (t.create name container kind).2.Names kind.sort name t.size where
  lt_size := by
    rw [size_create]
    exact Nat.lt_succ_self _
  sort_eq := by rw [get_create_size]
  name_eq := by
    unfold DescriptorTable.name
    rw [get_create_size]

end DescriptorTable

namespace Analysis

variable {s : Session}

/-! ## Supertypes and parameters -/

section

variable (hs : s.WellKinded)

include hs

theorem afterMaturing_supertypeOf
    (ref : TypeRef) {type : Ty} (htype : type.WellKinded s.descriptors) :
    AfterMaturing (supertypeOf ref type) s fun type s' => type.WellKinded s'.descriptors := by
  unfold supertypeOf
  split
  · exact .pure hs htype
  · exact .pure hs htype
  · exact .pure hs htype
  · exact (afterMaturing_reportCode hs _ _ _).bind fun _ _ hs₁ _ _ => .pure hs₁ trivial

theorem afterMaturing_resolveSupertypes (scope : Nat) (head : ClassHead) :
    AfterMaturing (resolveSupertypes scope head) s fun types s' =>
      ∀ type ∈ types, type.WellKinded s'.descriptors := by
  refine (AfterMaturing.mapM (q := fun type s' => type.WellKinded s'.descriptors) _ hs
    (fun ref _ s₁ hs₁ _ => ?_) fun type s₁ s₂ h htype => h.type htype).bind
      fun types s₁ hs₁ _ htypes => .pure hs₁ ?_
  · exact (afterMaturing_resolveTypeRef hs₁ scope ref).bind fun type s₂ hs₂ _ htype =>
      afterMaturing_supertypeOf hs₂ ref htype.1
  · split
    · intro type htype
      obtain rfl := List.mem_singleton.mp htype
      trivial
    · exact htypes

theorem afterMaturingOr_resolveClass (scope : Nat) (head : ClassHead) (descriptor : Nat) :
    AfterMaturingOr (resolveClass scope head descriptor) s fun _ _ => True := by
  refine (afterMaturing_resolveSupertypes hs scope head).lift.bind fun types s₁ hs₁ _ htypes => ?_
  refine (afterMaturingOr_tryDescriptors hs₁ fun t ht => ?_).mono fun _ _ _ _ _ => trivial
  exact hs₁.descriptors.setSupertypes htypes ht

theorem afterMaturing_parameterType (scope : Nat) (p : Parameter) :
    AfterMaturing (parameterType scope p) s fun type s' => type.WellKinded s'.descriptors := by
  unfold parameterType
  split
  · exact (afterMaturing_resolveTypeRef hs ..).mono fun _ _ _ _ h => h.1
  · exact (afterMaturing_reportCode hs _ _ _).bind fun _ _ hs₁ _ _ => .pure hs₁ trivial

theorem afterMaturing_resolveParameter
    (scope : Nat) {function : Nat} (hfunction : function < s.descriptors.size) (p : Parameter) :
    AfterMaturing (resolveParameter scope function p) s fun id s' =>
      s'.descriptors.Has .variableSort id := by
  refine (afterMaturing_parameterType hs scope p).bind fun type s₁ hs₁ h₁ htype => ?_
  refine (afterMaturing_createVariable hs₁ (fun c hc => ?_) (wellKindedType_some htype)).bind
    fun d s₂ hs₂ _ hd => ?_
  · obtain rfl := Option.mem_some.mp hc
    exact h₁.descriptor hfunction
  · refine (afterMaturing_recordDeclaration hs₂ p.id hd.2.lt_size).bind fun _ s₃ hs₃ h₃ _ => ?_
    exact .pure hs₃ (h₃.has hd.2.toHas)

end

/-! ## Functions and constructors -/

/-- What a function or constructor of a role is before anything is known about it. -/
def newSubroutine (role : FunctionRole) : DescriptorKind :=
  if role.isConstructor then .constructorKind { role } else .functionKind { role }

/-- The container of a constructor is a class, that of an accessor is a property. -/
structure Contains (t : DescriptorTable) (container : Option Nat) (role : FunctionRole) : Prop where
  lt_size : ∀ c ∈ container, c < t.size
  ofConstructor : role.isConstructor = true →
    ∃ classId, container = some classId ∧ t.Has .classSort classId
  ofAccessor : role = .getter ∨ role = .setter →
    ∃ property, container = some property ∧ t.Has .propertySort property

theorem Contains.wellKinded
    {t : DescriptorTable} {container : Option Nat} {role : FunctionRole}
    (h : Contains t container role) (name : String) (scopes id : Nat) :
    Descriptor.WellKinded t scopes id { name, container, kind := newSubroutine role } := by
  have hsignature : Signature.WellKinded t { role } := ⟨nofun, wellKindedType_none⟩
  unfold newSubroutine
  cases hrole : role.isConstructor with
  | true =>
      rw [if_pos rfl]
      obtain ⟨classId, hcontainer, hclass⟩ := h.ofConstructor hrole
      refine Descriptor.wellKinded_constructorKind h.lt_size hsignature hcontainer hclass ?_
      exact fun type htype => absurd htype (Option.not_mem_none type)
  | false =>
      rw [if_neg Bool.false_ne_true]
      refine Descriptor.wellKinded_functionKind h.lt_size hsignature fun hne => h.ofAccessor ?_
      cases role with
      | plain => exact absurd rfl hne
      | getter => exact .inl rfl
      | setter => exact .inr rfl
      | primaryConstructor | secondaryConstructor => cases hrole

theorem Contains.of_matures
    {t t' : DescriptorTable} {container : Option Nat} {role : FunctionRole}
    (h : Contains t container role) (hmatures : t.Matures t') : Contains t' container role where
  lt_size c hc := (h.lt_size c hc).trans_le hmatures.size_le
  ofConstructor hrole := by
    obtain ⟨classId, hcontainer, hclass⟩ := h.ofConstructor hrole
    exact ⟨classId, hcontainer, hmatures.has hclass⟩
  ofAccessor hrole := by
    obtain ⟨property, hcontainer, hproperty⟩ := h.ofAccessor hrole
    exact ⟨property, hcontainer, hmatures.has hproperty⟩

theorem contains_plain
    {t : DescriptorTable} {container : Option Nat} (h : ∀ c ∈ container, c < t.size) :
    Contains t container .plain :=
  ⟨h, nofun, nofun⟩

theorem contains_constructor
    {t : DescriptorTable} {classId : Nat} {role : FunctionRole} (h : t.Has .classSort classId)
    (hrole : role.isConstructor = true) : Contains t (some classId) role := by
  refine ⟨fun c hc => ?_, fun _ => ⟨classId, rfl, h⟩, ?_⟩
  · obtain rfl := Option.mem_some.mp hc
    exact h.lt_size
  · rintro (rfl | rfl)
    · cases hrole
    · cases hrole

theorem contains_accessor
    {t : DescriptorTable} {property : Nat} {role : FunctionRole}
    (h : t.Has .propertySort property) (hrole : role.isConstructor = false) :
    Contains t (some property) role := by
  refine ⟨fun c hc => ?_, fun hc => ?_, fun _ => ⟨property, rfl, h⟩⟩
  · obtain rfl := Option.mem_some.mp hc
    exact h.lt_size
  · rw [hrole] at hc
    cases hc

/-- The descriptor is a function or constructor as it was declared. -/
structure IsSubroutine
    (t : DescriptorTable) (role : FunctionRole) (name : String) (container : Option Nat) (id : Nat) :
    Prop extends t.Names (newSubroutine role).sort name id where
  container_eq : (t.get id).container = container

theorem IsSubroutine.of_matures
    {t t' : DescriptorTable} {role : FunctionRole} {name : String} {container : Option Nat} {id : Nat}
    (h : IsSubroutine t role name container id) (hmatures : t.Matures t') :
    IsSubroutine t' role name container id :=
  ⟨hmatures.names h.toNames, (hmatures.container_eq id h.lt_size).trans h.container_eq⟩

theorem isSubroutine_create
    (t : DescriptorTable) (role : FunctionRole) (name : String) (container : Option Nat) :
    IsSubroutine (t.create name container (newSubroutine role)).2 role name container t.size :=
  ⟨t.names_create .., by rw [DescriptorTable.get_create_size]⟩

/-- Only setters are of the sort of a setter. -/
theorem sort_newSubroutine_ne {role : FunctionRole} (h : role ≠ .setter) :
    (newSubroutine role).sort ≠ .functionSort .setter := by
  unfold newSubroutine
  cases role.isConstructor with
  | true => exact nofun
  | false => exact fun heq => h (DescriptorSort.functionSort.inj heq)

theorem signature?_create_newSubroutine
    (t : DescriptorTable) (name : String) (container : Option Nat) (role : FunctionRole) :
    (t.create name container (newSubroutine role)).2.signature? t.size = some { role } := by
  unfold DescriptorTable.signature? newSubroutine
  rw [DescriptorTable.get_create_size]
  cases role.isConstructor with
  | true => rfl
  | false => rfl

section

variable (hs : s.WellKinded)

include hs

theorem afterMaturing_createSubroutine
    {role : FunctionRole} {name : String} {container : Option Nat}
    (hcontains : Contains s.descriptors container role) :
    AfterMaturing (createDescriptor name container (newSubroutine role)) s fun id s' =>
      IsSubroutine s'.descriptors role name container id ∧
        s'.descriptors.signature? id = some { role } := by
  have hmatures := DescriptorTable.Matures.create s.descriptors name container (newSubroutine role)
  refine (afterMaturing_createDescriptor hs
    ((hcontains.of_matures hmatures).wellKinded name _ _)).mono ?_
  rintro id s' - - ⟨rfl, heq⟩
  rw [heq]
  exact ⟨isSubroutine_create .., signature?_create_newSubroutine ..⟩

/-- The parameters of anything but a setter are declared with it. -/
theorem afterMaturing_resolveSignature
    (scope : Nat) (role : FunctionRole) (hrole : role ≠ .setter) (name : String)
    {container : Option Nat} (hcontains : Contains s.descriptors container role)
    (parameters : List Parameter) :
    AfterMaturing (resolveSignature scope role name container parameters) s fun id s' =>
      IsSubroutine s'.descriptors role name container id := by
  refine (afterMaturing_createSubroutine hs hcontains).bind fun d s₁ hs₁ _ hd => ?_
  refine (AfterMaturing.mapM (q := fun p s' => s'.descriptors.Has .variableSort p) _ hs₁
    (fun p _ s₂ hs₂ h₂ => afterMaturing_resolveParameter hs₂ scope (h₂.descriptor hd.1.lt_size) p)
    fun _ _ _ h hp => h.has hp).bind fun ps s₂ hs₂ h₂ hps => ?_
  have hd₂ := hd.1.of_matures h₂.descriptors
  have hsort : ¬s₂.descriptors.Has (.functionSort .setter) d := fun hsetter =>
    sort_newSubroutine_ne hrole (hd₂.sort_eq.symm.trans hsetter.sort_eq)
  refine (afterMaturing_onDescriptors hs₂ (hs₂.descriptors.editSignature d
    (f := fun sig => { sig with parameters := ps }) (fun _ => rfl)
    (fun _ hsetter => absurd hsetter hsort) (fun _ _ _ _ => .inl rfl)
    fun _ _ hwell => ⟨hps, hwell.returnType⟩)).bind fun _ s₃ hs₃ h₃ _ => ?_
  exact .pure hs₃ (hd₂.of_matures h₃.descriptors)

/-- An accessor has no parameters to begin with. -/
theorem afterMaturing_resolveSignature_nil
    (scope : Nat) (role : FunctionRole) (name : String)
    {container : Option Nat} (hcontains : Contains s.descriptors container role) :
    AfterMaturing (resolveSignature scope role name container []) s fun id s' =>
      IsSubroutine s'.descriptors role name container id ∧
        s'.descriptors.signature? id = some { role } := by
  refine (afterMaturing_createSubroutine hs hcontains).bind fun d s₁ hs₁ _ hd => ?_
  refine AfterMaturing.bind (q := fun ps s' => ps = [] ∧ s₁ = s') (.pure hs₁ ⟨rfl, rfl⟩) ?_
  rintro _ _ - - ⟨rfl, rfl⟩
  have hnone : ∀ sig, s₁.descriptors.signature? d = some sig → sig = { role } := fun sig hsig =>
    Option.some.inj (hsig.symm.trans hd.2)
  refine (afterMaturing_onDescriptors hs₁ (hs₁.descriptors.editSignature d
    (f := fun sig => { sig with parameters := [] }) (fun _ => rfl) (fun sig _ hsig hone => ?_)
    (fun _ _ _ _ => .inl rfl) fun _ _ hwell => ⟨nofun, hwell.returnType⟩)).bind
      fun _ s₂ hs₂ h₂ heq => .pure hs₂ ⟨hd.1.of_matures h₂.descriptors, ?_⟩
  · rw [hnone sig hsig] at hone
    cases hone
  · rw [heq, DescriptorTable.signature?_editSignature_self hd.2]

/-- A function that is no constructor may give back anything; a constructor gives back instances
of its class. -/
theorem afterMaturingOr_setReturnType
    (function : Nat) {type : Ty} (htype : type.WellKinded s.descriptors)
    (hclass : s.descriptors.Has .constructorSort function → ∀ classId,
      (s.descriptors.get function).container = some classId →
        type = s.descriptors.classType classId) :
    AfterMaturingOr (setReturnType function type) s fun _ s' =>
      s'.descriptors.returnType? function = some type := by
  refine (afterMaturingOr_tryDescriptors hs fun t ht => ?_).mono fun _ _ _ _ h => ?_
  · exact hs.descriptors.setReturnType htype hclass ht
  · exact DescriptorTable.returnType?_of_setReturnType h

/-- The constructor of a class that has been declared gives back instances of the class. -/
theorem afterMaturingOr_setConstructorType
    {role : FunctionRole} {name : String} {classId id : Nat}
    (hclass : s.descriptors.Has .classSort classId) (hrole : role.isConstructor = true)
    (hid : IsSubroutine s.descriptors role name (some classId) id) :
    AfterMaturingOr (setReturnType id (s.descriptors.classType classId)) s fun _ s' =>
      s'.descriptors.IsConstructorOf classId id := by
  refine (afterMaturingOr_setReturnType hs id hclass.wellKinded_classType
    fun _ classId' hcontainer => ?_).mono fun _ s' _ h hreturn => ?_
  · obtain rfl := Option.some.inj (hid.container_eq.symm.trans hcontainer)
    rfl
  · have hid' := hid.of_matures h.descriptors
    have hsort : (newSubroutine role).sort = .constructorSort := by
      unfold newSubroutine
      rw [if_pos hrole]
      rfl
    refine ⟨⟨hid'.lt_size, hid'.sort_eq.trans hsort⟩, hid'.container_eq, ?_⟩
    rw [hreturn, h.descriptors.classType_eq hclass.lt_size]

/-! ## Primary and secondary constructors -/

/-- A property that is created with a type of the right kind and without accessors. -/
theorem afterMaturing_createProperty
    {name : String} {container : Option Nat} {mutable : Bool} {type : Option Ty}
    (hcontainer : ∀ c ∈ container, c < s.descriptors.size)
    (htype : WellKindedType s.descriptors type) :
    AfterMaturing (createDescriptor name container (.propertyKind { mutable, type })) s
      fun id s' => s'.descriptors.Names .propertySort name id := by
  have hmatures := DescriptorTable.Matures.create s.descriptors name container
    (.propertyKind { mutable, type })
  have hnew : Descriptor.WellKinded
      (s.descriptors.create name container (.propertyKind { mutable, type })).2 s.scopes.size
      s.descriptors.size { name, container, kind := .propertyKind { mutable, type } } := by
    refine Descriptor.wellKinded_propertyKind (fun c hc => ?_)
      ⟨htype.of_matures hmatures, nofun, nofun, nofun⟩
    exact (hcontainer c hc).trans_le hmatures.size_le
  refine (afterMaturing_createDescriptor hs hnew).mono ?_
  rintro id s' - - ⟨rfl, heq⟩
  rw [heq]
  exact s.descriptors.names_create ..

theorem afterMaturing_declareParameterProperty
    {classId : Nat} (hclass : classId < s.descriptors.size) (p : Parameter) {type : Ty}
    (htype : type.WellKinded s.descriptors) :
    AfterMaturing (declareParameterProperty classId p type) s fun property s' =>
      s'.descriptors.Names .propertySort property.1 property.2 := by
  refine (afterMaturing_createProperty hs (fun c hc => ?_) (wellKindedType_some htype)).bind
    fun d s₁ hs₁ _ hd => ?_
  · obtain rfl := Option.mem_some.mp hc
    exact hclass
  · refine (afterMaturing_recordDeclaration hs₁ p.id hd.lt_size).bind fun _ s₂ hs₂ h₂ _ => ?_
    exact .pure hs₂ (h₂.descriptors.names hd)

theorem afterMaturingOr_resolvePrimaryConstructor
    {classId : Nat} (hclass : s.descriptors.Has .classSort classId) (head : ClassHead) :
    AfterMaturingOr (resolvePrimaryConstructor classId head) s fun result s' =>
      (∀ c ∈ result.1, s'.descriptors.IsConstructorOf classId c) ∧
        ∀ property ∈ result.2, s'.descriptors.Names .propertySort property.1 property.2 := by
  unfold resolvePrimaryConstructor
  split
  · exact .pure hs ⟨nofun, nofun⟩
  · rename_i parameters _
    refine .get_bind ?_
    split
    · exact .throw hs _
    · rename_i data _
      refine (afterMaturing_resolveSignature hs data.memberScope .primaryConstructor nofun constructorName
        (contains_constructor hclass rfl) parameters).lift.bind fun c s₁ hs₁ h₁ hc => ?_
      have hclass₁ := h₁.has hclass
      refine .get_bind ?_
      refine (afterMaturingOr_setConstructorType hs₁ hclass₁ rfl hc).bind
        fun _ s₂ hs₂ h₂ hc₂ => ?_
      have hclass₂ := h₂.has hclass₁
      refine .get_bind ?_
      have hproperties : AfterMaturingOr
          ((parameters.zip (s₂.descriptors.parameterTypes c)).mapM fun x =>
            (declareParameterProperty classId x.1 x.2 : FaultyAnalysis (String × Nat))) s₂
          fun properties s' => ∀ property ∈ properties,
            s'.descriptors.Names .propertySort property.1 property.2 := by
        refine AfterMaturingOr.mapM_lift _ hs₂ (fun x hx s₃ hs₃ h₃ => ?_) fun _ _ _ h hnames =>
          h.descriptors.names hnames
        refine afterMaturing_declareParameterProperty hs₃ (h₃.descriptor hclass₂.lt_size) x.1 ?_
        exact h₃.type (hs₂.descriptors.parameterTypes c x.2 (List.of_mem_zip hx).2)
      refine hproperties.bind fun properties s₃ hs₃ h₃ hnames => ?_
      refine .pure hs₃ ⟨fun c' hc' => ?_, hnames⟩
      obtain rfl := Option.mem_some.mp hc'
      exact h₃.descriptors.isConstructorOf hclass₂.lt_size hc₂

theorem afterMaturingOr_resolveConstructor
    (scope : Nat) {classId : Nat} (hclass : s.descriptors.Has .classSort classId)
    (decl : ConstructorDecl) :
    AfterMaturingOr (resolveConstructor scope classId decl) s fun c s' =>
      s'.descriptors.IsConstructorOf classId c := by
  refine (afterMaturing_resolveSignature hs scope .secondaryConstructor nofun constructorName
    (contains_constructor hclass rfl) decl.parameters).lift.bind fun c s₁ hs₁ h₁ hc => ?_
  have hclass₁ := h₁.has hclass
  refine .get_bind ?_
  refine (afterMaturingOr_setConstructorType hs₁ hclass₁ rfl hc).bind fun _ s₂ hs₂ h₂ hc₂ => ?_
  refine (afterMaturing_recordDeclaration hs₂ decl.id hc₂.lt_size).lift.bind
    fun _ s₃ hs₃ h₃ _ => ?_
  exact .pure hs₃ (h₃.descriptors.isConstructorOf (h₂.has hclass₁).lt_size hc₂)

/-! ## Functions -/

theorem afterMaturingOr_resolveFunction
    (scope : Nat) {container : Option Nat} (hcontainer : ∀ c ∈ container, c < s.descriptors.size)
    (decl : FunctionDecl) :
    AfterMaturingOr (resolveFunction scope container decl) s fun f s' =>
      s'.descriptors.Names (.functionSort .plain) decl.name f := by
  refine (afterMaturing_resolveSignature hs scope .plain nofun decl.name (contains_plain hcontainer)
    decl.parameters).lift.bind fun f s₁ hs₁ _ hf => ?_
  have hrest : ∀ {s₂ : Session}, s₂.WellKinded →
      s₂.descriptors.Names (.functionSort .plain) decl.name f → AfterMaturingOr (do
        recordDeclaration decl.id f
        return f : FaultyAnalysis Nat) s₂ fun f s' =>
          s'.descriptors.Names (.functionSort .plain) decl.name f := by
    intro s₂ hs₂ hf₂
    refine (afterMaturing_recordDeclaration hs₂ decl.id hf₂.lt_size).lift.bind
      fun _ s₃ hs₃ h₃ _ => ?_
    exact .pure hs₃ (h₃.descriptors.names hf₂)
  dsimp only
  split
  · rename_i ref _
    refine (afterMaturing_resolveTypeRef hs₁ scope ref).lift.bind fun type s₂ hs₂ h₂ htype => ?_
    have hf₂ := h₂.descriptors.names hf.toNames
    refine (afterMaturingOr_setReturnType hs₂ f htype.1 fun hconstructor => ?_).bind
      fun _ s₃ hs₃ h₃ _ => hrest hs₃ (h₃.descriptors.names hf₂)
    exact absurd (hconstructor.sort_eq.symm.trans hf₂.sort_eq) (by decide)
  · exact hrest hs₁ hf.toNames

/-! ## Properties and accessors -/

theorem afterMaturingOr_resolveGetter
    (scope : Nat) {property : Nat} (hproperty : s.descriptors.Has .propertySort property)
    (name : String) {propertyType : Option Ty} (htype : WellKindedType s.descriptors propertyType)
    (getter : Accessor) :
    AfterMaturingOr (resolveGetter scope property name propertyType getter) s fun f s' =>
      s'.descriptors.IsAccessorOf .getter property f := by
  refine (afterMaturing_resolveSignature hs scope .getter nofun _ (contains_accessor hproperty rfl)
    []).lift.bind fun f s₁ hs₁ h₁ hf => ?_
  have hf₁ : s₁.descriptors.IsAccessorOf .getter property f :=
    ⟨⟨hf.lt_size, hf.sort_eq⟩, hf.container_eq⟩
  have hrest : ∀ {s₂ : Session}, s₂.WellKinded →
      s₂.descriptors.IsAccessorOf .getter property f → AfterMaturingOr (do
        recordDeclaration getter.id f
        return f : FaultyAnalysis Nat) s₂ fun f s' =>
          s'.descriptors.IsAccessorOf .getter property f := by
    intro s₂ hs₂ hf₂
    refine (afterMaturing_recordDeclaration hs₂ getter.id hf₂.lt_size).lift.bind
      fun _ s₃ hs₃ h₃ _ => ?_
    exact .pure hs₃ (h₃.descriptors.isAccessorOf hf₂)
  have hset : ∀ {s₂ : Session} {type : Option Ty}, s₂.WellKinded →
      s₂.descriptors.IsAccessorOf .getter property f → WellKindedType s₂.descriptors type →
        AfterMaturingOr (declareGetter getter f type) s₂ fun f s' =>
            s'.descriptors.IsAccessorOf .getter property f := by
    intro s₂ type hs₂ hf₂ htype₂
    cases type with
    | none => exact hrest hs₂ hf₂
    | some type =>
        refine (afterMaturingOr_setReturnType hs₂ f (htype₂ type rfl) fun hconstructor => ?_).bind
          fun _ s₃ hs₃ h₃ _ => hrest hs₃ (h₃.descriptors.isAccessorOf hf₂)
        exact absurd (hconstructor.sort_eq.symm.trans hf₂.sort_eq) (by decide)
  dsimp only
  split
  · rename_i ref _
    exact (afterMaturing_resolveTypeRef hs₁ scope ref).lift.bind fun type s₂ hs₂ h₂ htype₂ =>
      hset hs₂ (h₂.descriptors.isAccessorOf hf₁) (wellKindedType_some htype₂.1)
  · exact hset hs₁ hf₁ (h₁.optionalType htype)

/-- The type of the parameter of a setter is found without any change to the model. -/
theorem afterMaturing_setterParameterType
    (scope : Nat) {propertyType : Option Ty} (htype : WellKindedType s.descriptors propertyType)
    (parameter : Option Parameter) :
    AfterMaturing (setterParameterType scope propertyType parameter) s fun type s' =>
      WellKindedType s'.descriptors type ∧ s'.model = s.model := by
  unfold setterParameterType
  split
  · exact .map ((afterMaturing_resolveTypeRef hs ..).mono fun _ _ _ _ h =>
      ⟨wellKindedType_some h.1, h.2⟩)
  · exact .pure hs ⟨htype, rfl⟩

theorem afterMaturingOr_resolveSetter
    (scope : Nat) {property : Nat} (hproperty : s.descriptors.Has .propertySort property)
    (name : String) {propertyType : Option Ty} (htype : WellKindedType s.descriptors propertyType)
    (setter : Accessor) :
    AfterMaturingOr (resolveSetter scope property name propertyType setter) s fun f s' =>
      s'.descriptors.IsAccessorOf .setter property f ∧
        (s'.descriptors.parametersOf f).length = 1 := by
  refine (afterMaturing_resolveSignature_nil hs scope .setter _
    (contains_accessor hproperty rfl)).lift.bind fun f s₁ hs₁ h₁ hf => ?_
  have hf₁ : s₁.descriptors.IsAccessorOf .setter property f :=
    ⟨⟨hf.1.lt_size, hf.1.sort_eq⟩, hf.1.container_eq⟩
  refine (afterMaturing_setterParameterType hs₁ scope (h₁.optionalType htype)
    setter.parameter).lift.bind fun type s₂ hs₂ h₂ htype₂ => ?_
  have hf₂ := h₂.descriptors.isAccessorOf hf₁
  refine (afterMaturing_createVariable hs₂ (fun c hc => ?_) htype₂.1).lift.bind
    fun value s₃ hs₃ h₃ hvalue => ?_
  · obtain rfl := Option.mem_some.mp hc
    exact hf₂.lt_size
  have hf₃ := h₃.descriptors.isAccessorOf hf₂
  -- Until now the setter has no parameters: only its parameter has been created.
  have hsignature : s₃.descriptors.signature? f = some { role := .setter } := by
    have hsignature₂ : s₂.descriptors.signature? f = some { role := .setter } := by
      rw [Session.descriptors, htype₂.2]
      exact hf.2
    unfold DescriptorTable.signature? at hsignature₂ ⊢
    rw [hvalue.1.2, DescriptorTable.get_create_of_ne _ _ _ _ hf₂.lt_size.ne]
    exact hsignature₂
  have hrest : ∀ {s₄ : Session}, s₄.WellKinded → s₄.descriptors = s₃.descriptors →
      AfterMaturingOr (do
        onDescriptors (·.editSignature f fun s => { s with parameters := s.parameters ++ [value] })
        setReturnType f .unit
        recordDeclaration setter.id f
        return f : FaultyAnalysis Nat) s₄ fun f s' =>
          s'.descriptors.IsAccessorOf .setter property f ∧
            (s'.descriptors.parametersOf f).length = 1 := by
    intro s₄ hs₄ heq
    rw [← heq] at hf₃ hsignature hvalue
    have hnone : ∀ sig, s₄.descriptors.signature? f = some sig → sig = { role := .setter } :=
      fun sig hsig => Option.some.inj (hsig.symm.trans hsignature)
    refine (afterMaturing_onDescriptors hs₄ (hs₄.descriptors.editSignature f
      (f := fun s => { s with parameters := s.parameters ++ [value] }) (fun _ => rfl)
      (fun sig _ hsig hone => ?_) (fun _ _ _ _ => .inl rfl)
      fun sig hsig hwell => ⟨fun p hp => ?_, hwell.returnType⟩)).lift.bind
        fun _ s₅ hs₅ h₅ hedit => ?_
    · rw [hnone sig hsig] at hone
      cases hone
    · rcases List.mem_append.mp hp with hmem | hmem
      · exact hwell.parameters p hmem
      · rw [List.mem_singleton.mp hmem]
        exact hvalue.2.toHas
    have hf₅ := h₅.descriptors.isAccessorOf hf₃
    have harity : (s₅.descriptors.parametersOf f).length = 1 := by
      unfold DescriptorTable.parametersOf
      rw [hedit, DescriptorTable.signature?_editSignature_self hsignature]
      rfl
    refine (afterMaturingOr_setReturnType hs₅ f (show Ty.unit.WellKinded _ from trivial)
      fun hconstructor => ?_).bind fun _ s₆ hs₆ h₆ _ => ?_
    · exact absurd (hconstructor.sort_eq.symm.trans hf₅.sort_eq) (by decide)
    have hf₆ := h₆.descriptors.isAccessorOf hf₅
    refine (afterMaturing_recordDeclaration hs₆ setter.id hf₆.lt_size).lift.bind
      fun _ s₇ hs₇ h₇ _ => ?_
    refine .pure hs₇ ⟨h₇.descriptors.isAccessorOf hf₆, ?_⟩
    exact h₇.descriptors.arity_eq f hf₆.toHas (h₆.descriptors.arity_eq f hf₅.toHas harity)
  dsimp only
  split
  · rename_i p _
    refine (afterMaturing_recordDeclaration hs₃ p.id hvalue.2.lt_size).lift.bind
      fun _ s₄ hs₄ _ hmodel => ?_
    exact hrest hs₄ (congrArg Model.descriptors hmodel)
  · exact hrest hs₃ rfl

/-- A property is declared with its accessors, which are attached to it at last. -/
theorem afterMaturingOr_resolveProperty
    (scope : Nat) {container : Option Nat} (hcontainer : ∀ c ∈ container, c < s.descriptors.size)
    (decl : PropertyDecl) :
    AfterMaturingOr (resolveProperty scope container decl) s fun property s' =>
      s'.descriptors.Names .propertySort decl.name property := by
  have hdeclared : AfterMaturingOr (decl.typeRef.mapM fun ref =>
      (resolveTypeRef scope ref : FaultyAnalysis Ty)) s fun type s' =>
        WellKindedType s'.descriptors type := by
    cases decl.typeRef with
    | none => exact .pure hs wellKindedType_none
    | some ref =>
        refine (afterMaturing_resolveTypeRef hs scope ref).lift.bind fun type s₁ hs₁ _ htype => ?_
        exact .pure hs₁ (wellKindedType_some htype.1)
  refine hdeclared.bind fun type s₁ hs₁ h₁ htype => ?_
  refine (afterMaturing_createProperty hs₁ (fun c hc => h₁.descriptor (hcontainer c hc))
    htype).lift.bind fun property s₂ hs₂ h₂ hproperty => ?_
  refine (afterMaturing_recordDeclaration hs₂ decl.id hproperty.lt_size).lift.bind
    fun _ s₃ hs₃ h₃ _ => ?_
  have hproperty₃ := h₃.descriptors.names hproperty
  have htype₃ := h₃.optionalType (h₂.optionalType htype)
  have hgetter : AfterMaturingOr (decl.getter.mapM (resolveGetter scope property decl.name type))
      s₃ fun getter s' => ∀ f ∈ getter, s'.descriptors.IsAccessorOf .getter property f := by
    cases decl.getter with
    | none => exact .pure hs₃ fun f hf => absurd hf (Option.not_mem_none f)
    | some getter =>
        refine (afterMaturingOr_resolveGetter hs₃ scope hproperty₃.toHas decl.name htype₃
          getter).bind fun f s₄ hs₄ _ hf => .pure hs₄ fun f' hf' => ?_
        obtain rfl := Option.mem_some.mp hf'
        exact hf
  refine hgetter.bind fun getter s₄ hs₄ h₄ hgetter => ?_
  have hproperty₄ := h₄.descriptors.names hproperty₃
  have hsetter : AfterMaturingOr (decl.setter.mapM (resolveSetter scope property decl.name type))
      s₄ fun setter s' => ∀ f ∈ setter, s'.descriptors.IsAccessorOf .setter property f ∧
        (s'.descriptors.parametersOf f).length = 1 := by
    cases decl.setter with
    | none => exact .pure hs₄ fun f hf => absurd hf (Option.not_mem_none f)
    | some setter =>
        refine (afterMaturingOr_resolveSetter hs₄ scope hproperty₄.toHas decl.name
          (h₄.optionalType htype₃) setter).bind fun f s₅ hs₅ _ hf => .pure hs₅ fun f' hf' => ?_
        obtain rfl := Option.mem_some.mp hf'
        exact hf
  refine hsetter.bind fun setter s₅ hs₅ h₅ hsetter => ?_
  have hproperty₅ := h₅.descriptors.names hproperty₄
  refine (afterMaturing_onDescriptors hs₅ (hs₅.descriptors.editProperty property
    (f := fun p => { p with getter, setter }) fun data _ hdata => ⟨hdata.type,
      fun f hf => h₅.descriptors.isAccessorOf (hgetter f hf), fun f hf => (hsetter f hf).1,
      fun f hf => (hsetter f hf).2⟩)).lift.bind fun _ s₆ hs₆ h₆ _ => ?_
  exact .pure hs₆ (h₆.descriptors.names hproperty₅)

end

end Analysis

end DeclAnalysis
