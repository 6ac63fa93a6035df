import DeclAnalysis.Proofs.Resolve.Signature
import DeclAnalysis.Proofs.Semantic.Sharing

/-!
# What resolving signatures leaves open

Resolving the signature of a declaration adds descriptors and replaces none. Of those that
are added, at most the function itself is incomplete, or the property itself with its
getter and, if the type of the property is open, the parameter of its setter.
-/

namespace DeclAnalysis

namespace Session

/-- Descriptors have been added, all of them complete except for some. -/
def Adds (except : Nat → Prop) (s s' : Session) : Prop :=
  s.descriptors.Grows except s'.descriptors

instance (except : Nat → Prop) : IsPreorder Session (Adds except) where
  refl s := .refl except s.descriptors
  trans _ _ _ := .trans

theorem Types.adds {nodes : List Nat} {s s' : Session} (h : Types nodes s s')
    (except : Nat → Prop) : Adds except s s' :=
  h.extends_.grows

end Session

open Session (Adds Types)

namespace Analysis

variable {s s₁ : Session} {except : Nat → Prop}

/-! ### Signatures -/

/-- A new function without a return type; other additions may be exceptions, too. -/
structure NewFunction (except : Nat → Prop) (s : Session) (function : Nat) (signature : Signature)
    (s' : Session) : Prop where
  adds : Adds (fun d => d = function ∨ except d) s s'
  size_le : s.descriptors.size ≤ function
  signature? : s'.descriptors.signature? function = some signature
  returnType : signature.returnType = none

section

variable {function : Nat} {signature : Signature}

theorem NewFunction.lt_size (h : NewFunction except s function signature s₁) :
    function < s₁.descriptors.size :=
  DescriptorTable.lt_size_of_signature? (by rw [h.signature?]; rfl)

/-- What is added later does not concern a new function. -/
theorem NewFunction.of_adds
    {except' : Nat → Prop} {s' : Session} (h : NewFunction except s function signature s₁)
    (hadds : Adds except' s₁ s') (hexcept : ∀ d, except d → except' d) :
    NewFunction except' s function signature s' where
  adds := (h.adds.mono fun d => Or.imp_right (hexcept d)).trans (hadds.mono fun _ => .inr)
  size_le := h.size_le
  signature? := (hadds.signature?_eq h.lt_size).trans h.signature?
  returnType := h.returnType

theorem NewFunction.of_types
    {nodes : List Nat} {s' : Session} (h : NewFunction except s function signature s₁)
    (htypes : Types nodes s₁ s') : NewFunction except s function signature s' :=
  h.of_adds (htypes.adds except) fun _ => id

/-- The parameters of a new function are attached to it. -/
theorem NewFunction.editSignature
    (h : NewFunction except s function signature s₁) {f : Signature → Signature}
    (hf : ∀ s, (f s).returnType = s.returnType) :
    NewFunction except s function (f signature)
      { s₁ with model.descriptors := s₁.model.descriptors.editSignature function f } where
  adds := h.adds.editSignature h.size_le fun s hs => by rwa [hf s]
  size_le := h.size_le
  signature? := DescriptorTable.signature?_editSignature_self h.signature? f
  returnType := (hf signature).trans h.returnType

/-- The return type of a new function is set once. -/
theorem afterOk_setReturnType_newFunction
    (h : NewFunction except s function signature s₁) (type : Ty) :
    AfterOk (setReturnType function type) s₁ fun _ s' =>
      Adds except s s' ∧ s'.descriptors =
        s₁.descriptors.editSignature function fun s => { s with returnType := some type } := by
  have hset : s₁.model.descriptors.setReturnType function type =
      .ok (s₁.model.descriptors.editSignature function fun s =>
        { s with returnType := some type }) := by
    have hsignature := h.signature?
    unfold Session.descriptors at hsignature
    unfold DescriptorTable.setReturnType
    rw [hsignature]
  simp only [setReturnType, tryDescriptors, afterOr_bind, afterOr_get, hset, onDescriptors]
  have hedited := DescriptorTable.signature?_editSignature_self h.signature? fun s =>
    { s with returnType := some type }
  refine ⟨?_, rfl⟩
  have hgrows := h.adds.editSignature h.size_le (f := fun s => { s with returnType := some type })
    fun _ _ => rfl
  exact hgrows.of_complete (DescriptorTable.complete_of_returnType?
    (by unfold DescriptorTable.returnType?; rw [hedited]; rfl))

end

/-- A function gets as many parameters as are declared. -/
theorem after_resolveSignature_newFunction
    (except : Nat → Prop) (scope : Nat) (role : FunctionRole) (name : String)
    (container : Option Nat) (parameters : List Parameter) (s : Session) :
    After (resolveSignature scope role name container parameters) s fun function s' =>
      ∃ signature, NewFunction except s function signature s' ∧
        signature.parameters.length = parameters.length := by
  have hcreate : After (createDescriptor name container (newFunction role)) s fun function s' =>
      NewFunction except s function { role } s' := by
    have hget := s.model.descriptors.get_create_size name container (newFunction role)
    have hsignature : (s.model.descriptors.create name container (newFunction role)).2.signature?
        s.model.descriptors.size = some { role } := by
      unfold DescriptorTable.signature?
      rw [hget]
      unfold newFunction
      cases role <;> rfl
    exact ⟨.create _ _ _ (.inr (.inl rfl)), Nat.le_refl _, hsignature, rfl⟩
  refine hcreate.bind fun function s₁ h₁ => ?_
  have hmap : Keeps (Types _) (parameters.mapM (resolveParameter scope function)) :=
    keeps_resolveParameters (List.Subset.refl _) scope function
  refine ((hmap.after s₁).and (After.mapM_length parameters s₁)).bind fun descriptors s₂ h₂ => ?_
  have hedit := (h₁.of_types h₂.1).editSignature
    (f := fun s => { s with parameters := descriptors }) fun _ => rfl
  exact ⟨_, hedit, h₂.2⟩

theorem keeps_recordDeclaration_adds (except : Nat → Prop) (node descriptor : Nat) :
    Keeps (Adds except) (recordDeclaration node descriptor) :=
  ⟨fun s => .refl except s.descriptors⟩

/-! ### Constructors and functions -/

theorem keeps_declareParameterProperty_adds (classId : Nat) (p : Parameter) (type : Ty) :
    Keeps (Adds fun _ => False) (declareParameterProperty classId p type) := by
  have hcreate : Keeps (Adds fun _ => False) (createDescriptor p.name (some classId)
      (.propertyKind { mutable := p.mutable, type := some type })) :=
    ⟨fun s => .create _ _ _ (.inl rfl)⟩
  refine hcreate.bind fun property => ?_
  exact (keeps_recordDeclaration_adds ..).bind fun _ => Keeps.pure _

/-- A primary constructor is added with everything that belongs to it. -/
theorem afterOr_resolvePrimaryConstructor_adds (classId : Nat) (head : ClassHead) (s : Session) :
    AfterAny (resolvePrimaryConstructor classId head) s (Adds (fun _ => False) s) := by
  unfold resolvePrimaryConstructor
  cases head.primaryConstructor with
  | none => exact .refl _ _
  | some parameters =>
      refine afterOr_bind.mpr (afterOr_get.mpr ?_)
      split
      · exact .refl _ _
      · refine AfterOr.bind (AfterOr.lift (after_resolveSignature_newFunction (fun _ => False) ..))
          fun constructor s₁ h₁ => ?_
        obtain ⟨signature, hnew, -⟩ := h₁
        refine afterOr_bind.mpr (afterOr_get.mpr ?_)
        have hset := afterOk_setReturnType_newFunction hnew (s₁.descriptors.classType classId)
        refine AfterOr.bind hset.afterOr fun _ s₂ h₂ => ?_
        refine afterOr_bind.mpr (afterOr_get.mpr ?_)
        have hproperties : AfterOk _ s₂ fun _ s' => Adds (fun _ => False) s₂ s' :=
          AfterOk.mapM_lift (parameters.zip (s₂.descriptors.parameterTypes constructor))
            (f := fun p => declareParameterProperty classId p.1 p.2)
            fun p _ => keeps_declareParameterProperty_adds classId p.1 p.2
        refine AfterOr.bind hproperties.afterOr fun properties s₃ h₃ => ?_
        exact h₂.1.trans h₃

theorem afterOk_resolveConstructor_adds
    (scope classId : Nat) (decl : ConstructorDecl) (s : Session) :
    AfterOk (resolveConstructor scope classId decl) s fun _ s' => Adds (fun _ => False) s s' := by
  refine AfterOr.bind (AfterOr.lift (after_resolveSignature_newFunction (fun _ => False) ..))
    fun constructor s₁ h₁ => ?_
  obtain ⟨signature, hnew, -⟩ := h₁
  refine afterOr_bind.mpr (afterOr_get.mpr ?_)
  have hset := afterOk_setReturnType_newFunction hnew (s₁.descriptors.classType classId)
  refine AfterOr.bind hset fun _ s₂ h₂ => ?_
  exact h₂.1

/-- Of a function, the return type may be open. -/
theorem afterOk_resolveFunction_adds
    (scope : Nat) (container : Option Nat) (decl : FunctionDecl) (s : Session) :
    AfterOk (resolveFunction scope container decl) s fun function s' =>
      Adds (· = function) s s' := by
  refine AfterOr.bind (AfterOr.lift (after_resolveSignature_newFunction (fun _ => False) ..))
    fun function s₁ h₁ => ?_
  obtain ⟨signature, hnew, -⟩ := h₁
  cases decl.returnType with
  | none => exact hnew.adds.mono fun _ h => h.resolve_right id
  | some ref =>
      have hresolve : Keeps (Types [ref.id]) (resolveTypeRef scope ref) :=
        keeps_resolveTypeRef List.mem_cons_self scope
      refine AfterOr.bind (AfterOr.lift (hresolve.after s₁)) fun type s₂ h₂ => ?_
      have hset := afterOk_setReturnType_newFunction (hnew.of_types h₂) type
      refine AfterOr.bind hset fun _ s₃ h₃ => ?_
      exact h₃.1.mono fun _ => False.elim

/-! ### Properties -/

/-- Of a getter, the return type may be open. -/
theorem afterOk_resolveGetter_adds
    (scope property : Nat) (name : String) (propertyType : Option Ty) (getter : Accessor)
    (s : Session) :
    AfterOk (resolveGetter scope property name propertyType getter) s fun function s' =>
      Adds (· = function) s s' ∧ (s'.descriptors.signature? function).isSome ∧
        (getter.returnType = none → s'.descriptors.returnType? function = propertyType) := by
  refine AfterOr.bind (AfterOr.lift (after_resolveSignature_newFunction (fun _ => False) ..))
    fun function s₁ h₁ => ?_
  obtain ⟨signature, hnew, -⟩ := h₁
  have hconclude : ∀ (type : Option Ty) s₂, NewFunction (fun _ => False) s function signature s₂ →
      AfterOk (declareGetter getter function type) s₂ fun function s' =>
          Adds (· = function) s s' ∧ (s'.descriptors.signature? function).isSome ∧
            s'.descriptors.returnType? function = type := by
    intro type s₂ h₂
    cases type with
    | none =>
        refine ⟨h₂.adds.mono fun _ h => h.resolve_right id, Option.isSome_of_eq_some h₂.signature?,
          ?_⟩
        change s₂.descriptors.returnType? function = none
        unfold DescriptorTable.returnType?
        rw [h₂.signature?]
        exact h₂.returnType
    | some type =>
        have hset := afterOk_setReturnType_newFunction h₂ type
        refine AfterOr.bind hset fun _ s₃ h₃ => ?_
        have hsignature := DescriptorTable.signature?_editSignature_self h₂.signature? fun s =>
          { s with returnType := some type }
        have hset' := (congrArg (·.signature? function) h₃.2).trans hsignature
        refine ⟨h₃.1.mono fun _ => False.elim, Option.isSome_of_eq_some hset', ?_⟩
        change s₃.descriptors.returnType? function = some type
        unfold DescriptorTable.returnType?
        rw [hset']
        rfl
  cases getter.returnType with
  | none =>
      refine AfterOk.mono (hconclude propertyType s₁ hnew) fun _ _ h => ?_
      exact ⟨h.1, h.2.1, fun _ => h.2.2⟩
  | some ref =>
      have hresolve : Keeps (Types [ref.id]) (resolveTypeRef scope ref) :=
        keeps_resolveTypeRef List.mem_cons_self scope
      refine afterOr_bind.mpr (afterOr_map.mpr (AfterOr.lift ?_))
      refine After.mono (hresolve.after s₁) fun type s₂ h₂ => ?_
      refine AfterOk.mono (hconclude (some type) s₂ (hnew.of_types h₂)) fun _ _ h => ?_
      exact ⟨h.1, h.2.1, nofun⟩

theorem after_setterParameterType
    (scope : Nat) (propertyType : Option Ty) (parameter : Option Parameter) (s : Session) :
    After (setterParameterType scope propertyType parameter) s fun type _ =>
      (type = none → propertyType = none) ∧
        (parameter.bind Parameter.typeRef = none → type = propertyType) := by
  unfold setterParameterType
  split
  · rename_i ref href
    refine after_map.mpr ?_
    constructor
    · exact nofun
    · intro hnone
      rw [href] at hnone
      cases hnone
  · exact ⟨id, fun _ => rfl⟩

/-- The function is a setter that takes the variable. -/
structure IsSetter (t : DescriptorTable) (function v : Nat) : Prop where
  lt_size : v < t.size
  kind : ∃ data, (t.get v).kind = .variableKind data
  container_eq : (t.get v).container = some function
  signature? : ∃ signature, t.signature? function = some signature ∧
    signature.parameters.head? = some v

/-- Of a setter, what it takes may be open if the property is. -/
theorem afterOk_resolveSetter_adds
    (scope property : Nat) (name : String) (propertyType : Option Ty) (setter : Accessor)
    (s : Session) :
    AfterOk (resolveSetter scope property name propertyType setter) s fun function s' =>
      ∃ v, IsSetter s'.descriptors function v ∧
        (setter.parameter.bind Parameter.typeRef = none →
          s'.descriptors.valueType? v = propertyType) ∧
        Adds (fun d => d = v ∧ propertyType = none) s s' := by
  refine AfterOr.bind (AfterOr.lift (after_resolveSignature_newFunction (fun _ => False) ..))
    fun function s₁ h₁ => ?_
  obtain ⟨signature, hnew, hparameters⟩ := h₁
  have hresolve : Keeps (Types _) (setterParameterType scope propertyType setter.parameter) :=
    keeps_setterParameterType (List.Subset.refl _) scope propertyType
  have htype := (hresolve.after s₁).and
    (after_setterParameterType scope propertyType setter.parameter s₁)
  refine AfterOr.bind (AfterOr.lift htype) fun type s₂ h₂ => ?_
  have hnew₂ := hnew.of_types h₂.1
  let open_ : Nat → Prop := fun d => d = s₂.descriptors.size ∧ propertyType = none
  have hcreate : After (createDescriptor
      ((setter.parameter.map Parameter.name).getD defaultSetterParameter) (some function)
      (.variableKind ⟨type, false⟩)) s₂ fun v s' =>
        v = s₂.descriptors.size ∧ NewFunction open_ s function signature s' ∧
          v < s'.descriptors.size ∧ s'.descriptors.get v =
            ⟨(setter.parameter.map Parameter.name).getD defaultSetterParameter, some function,
              .variableKind ⟨type, false⟩⟩ := by
    refine ⟨rfl, hnew₂.of_adds (.create _ _ _ ?_) fun _ => False.elim, ?_, ?_⟩
    · cases type with
      | none => exact .inr ⟨rfl, h₂.2.1 rfl⟩
      | some type => exact .inl rfl
    · exact (Nat.lt_succ_self _).trans_eq (DescriptorTable.size_create ..).symm
    · exact s₂.model.descriptors.get_create_size _ _ _
  refine AfterOr.bind (AfterOr.lift hcreate) fun v s₃ h₃ => ?_
  obtain ⟨rfl, hnew₃, hlt, hget₃⟩ := h₃
  have hne : s₂.descriptors.size ≠ function := hnew₂.lt_size.ne'
  have hconclude : ∀ s₄ : Session, s₄.descriptors = s₃.descriptors → AfterOk (do
      onDescriptors (·.editSignature function fun s =>
        { s with parameters := s.parameters ++ [s₂.descriptors.size] })
      setReturnType function .unit
      recordDeclaration setter.id function
      return function : FaultyAnalysis Nat) s₄ fun function s' =>
        ∃ v, IsSetter s'.descriptors function v ∧
          (setter.parameter.bind Parameter.typeRef = none →
            s'.descriptors.valueType? v = propertyType) ∧
          Adds (fun d => d = v ∧ propertyType = none) s s' := by
    intro s₄ h₄
    have hnew₄ : NewFunction open_ s function signature s₄ := by
      refine ⟨?_, hnew₃.size_le, ?_, hnew₃.returnType⟩
      · unfold Adds
        rw [h₄]
        exact hnew₃.adds
      · rw [h₄]
        exact hnew₃.signature?
    have hedit := hnew₄.editSignature
      (f := fun s => { s with parameters := s.parameters ++ [s₂.descriptors.size] }) fun _ => rfl
    refine afterOr_bind.mpr (AfterOr.lift (after_onDescriptors.mpr ?_))
    refine AfterOr.bind (afterOk_setReturnType_newFunction hedit .unit) fun _ s₅ h₅ => ?_
    have hget₅ : s₅.descriptors.get s₂.descriptors.size =
        ⟨(setter.parameter.map Parameter.name).getD defaultSetterParameter, some function,
          .variableKind ⟨type, false⟩⟩ := by
      rw [h₅.2, DescriptorTable.get_editSignature_of_ne hne]
      refine Eq.trans ?_ hget₃
      rw [← h₄]
      exact DescriptorTable.get_editSignature_of_ne hne _
    have hsetter : IsSetter s₅.descriptors function s₂.descriptors.size := by
      refine ⟨?_, ⟨⟨type, false⟩, ?_⟩, ?_, ?_⟩
      · rw [h₅.2, DescriptorTable.size_editSignature]
        refine hlt.trans_eq ((DescriptorTable.size_editSignature ..).trans ?_).symm
        exact congrArg DescriptorTable.size h₄
      · rw [hget₅]
      · rw [hget₅]
      · rw [h₅.2]
        refine ⟨_, DescriptorTable.signature?_editSignature_self hedit.signature? _, ?_⟩
        rw [List.eq_nil_of_length_eq_zero hparameters]
        rfl
    refine ⟨_, hsetter, fun himplied => ?_, h₅.1⟩
    change s₅.descriptors.valueType? s₂.descriptors.size = propertyType
    rw [DescriptorTable.valueType?_eq, hget₅]
    exact h₂.2.2 himplied
  cases hparameter : setter.parameter with
  | none =>
      rw [hparameter] at hconclude
      exact hconclude s₃ rfl
  | some p =>
      rw [hparameter] at hconclude
      exact hconclude _ rfl

theorem afterOk_mapM_getter_adds
    (scope property : Nat) (name : String) (propertyType : Option Ty) (getter : Option Accessor)
    (s : Session) :
    AfterOk (getter.mapM (resolveGetter scope property name propertyType)) s fun function s' =>
      Adds (function = some ·) s s' ∧ function.isSome = getter.isSome ∧
        ∀ f, function = some f → (s'.descriptors.signature? f).isSome ∧
          ∀ a ∈ getter, a.returnType = none → s'.descriptors.returnType? f = propertyType := by
  cases getter with
  | none => exact ⟨.refl _ _, rfl, fun f h => nomatch h⟩
  | some a =>
      refine afterOr_map.mpr (AfterOk.mono (afterOk_resolveGetter_adds ..) fun function s' h => ?_)
      refine ⟨h.1.mono fun d hd => congrArg some hd.symm, rfl, ?_⟩
      rintro f ⟨⟩
      refine ⟨h.2.1, ?_⟩
      rintro _ ⟨⟩
      exact h.2.2

theorem afterOk_mapM_setter_adds
    (scope property : Nat) (name : String) (propertyType : Option Ty) (setter : Option Accessor)
    (s : Session) :
    AfterOk (setter.mapM (resolveSetter scope property name propertyType)) s fun function s' =>
      Adds (fun v => (∃ f, function = some f ∧ IsSetter s'.descriptors f v) ∧
        propertyType = none) s s' ∧ function.isSome = setter.isSome ∧
        ∀ f, function = some f → ∃ v, IsSetter s'.descriptors f v ∧
          ∀ a ∈ setter, a.parameter.bind Parameter.typeRef = none →
            s'.descriptors.valueType? v = propertyType := by
  cases setter with
  | none => exact ⟨.refl _ _, rfl, fun f h => nomatch h⟩
  | some a =>
      refine afterOr_map.mpr (AfterOk.mono (afterOk_resolveSetter_adds ..) fun function s' h => ?_)
      obtain ⟨v, hsetter, himplied, hadds⟩ := h
      refine ⟨hadds.mono ?_, rfl, ?_⟩
      · rintro _ ⟨rfl, hopen⟩
        exact ⟨⟨function, rfl, hsetter⟩, hopen⟩
      · rintro f ⟨⟩
        refine ⟨v, hsetter, ?_⟩
        rintro _ ⟨⟩
        exact himplied

/-- What may be open about a property: the property itself, its getter, and what its setter
takes. -/
inductive OpenThrough (t : DescriptorTable) (decl : PropertyDecl) (property : Nat) : Nat → Prop
  | itself : OpenThrough t decl property property
  | getter {data : PropertyData} {function : Nat} (hdecl : decl.getter.isSome)
      (hdata : t.propertyData? property = some data) (hgetter : data.getter = some function)
      (hfunction : (t.signature? function).isSome) :
      OpenThrough t decl property function
  | value {v : Nat} (htakes : t.SetterTakes property v) (hopen : t.valueType? property = none) :
      OpenThrough t decl property v

/-- The descriptor of a property has the accessors that the property is declared with. -/
def HasAccessorsOf (t : DescriptorTable) (decl : PropertyDecl) (property : Nat) : Prop :=
  ∃ data, t.propertyData? property = some data ∧ data.getter.isSome = decl.getter.isSome ∧
    data.setter.isSome = decl.setter.isSome

section

variable {t : DescriptorTable} {property : Nat} {data : PropertyData}

/-- An edited property leaves the functions alone. -/
theorem get_editProperty_of_signature?
    (hdata : t.propertyData? property = some data) (f : PropertyData → PropertyData)
    {function : Nat} (h : (t.signature? function).isSome) :
    (t.editProperty property f).get function = t.get function := by
  apply DescriptorTable.get_editProperty_of_ne
  rintro rfl
  rw [DescriptorTable.signature?_eq, DescriptorTable.kind_of_propertyData? hdata] at h
  cases h

theorem signature?_editProperty
    (hdata : t.propertyData? property = some data) (f : PropertyData → PropertyData)
    {function : Nat} (h : (t.signature? function).isSome) :
    (t.editProperty property f).signature? function = t.signature? function := by
  rw [DescriptorTable.signature?_eq, DescriptorTable.signature?_eq,
    get_editProperty_of_signature? hdata f h]

/-- An edited property leaves what a setter takes alone. -/
theorem IsSetter.get_editProperty
    {function v : Nat} (h : IsSetter t function v)
    (hdata : t.propertyData? property = some data) (f : PropertyData → PropertyData) :
    (t.editProperty property f).get v = t.get v := by
  obtain ⟨value, hvalue⟩ := h.kind
  apply DescriptorTable.get_editProperty_of_ne
  rintro rfl
  rw [DescriptorTable.kind_of_propertyData? hdata] at hvalue
  cases hvalue

theorem IsSetter.editProperty
    {function v : Nat} (h : IsSetter t function v)
    (hdata : t.propertyData? property = some data) (f : PropertyData → PropertyData) :
    IsSetter (t.editProperty property f) function v := by
  have hget := h.get_editProperty hdata f
  obtain ⟨signature, hsome, hhead⟩ := h.signature?
  refine ⟨?_, ?_, ?_, ⟨signature, ?_, hhead⟩⟩
  · rw [DescriptorTable.size_editProperty]
    exact h.lt_size
  · rw [hget]
    exact h.kind
  · rw [hget]
    exact h.container_eq
  · exact (signature?_editProperty hdata f (Option.isSome_of_eq_some hsome)).trans hsome

end

/-- The functions are the accessors that a property is declared with. They have its type where they
are declared without types of their own. -/
structure AccessorsOf
    (t : DescriptorTable) (decl : PropertyDecl) (type : Option Ty) (getter setter : Option Nat) :
    Prop where
  getter_isSome : getter.isSome = decl.getter.isSome
  setter_isSome : setter.isSome = decl.setter.isSome
  getter : ∀ g, getter = some g → (t.signature? g).isSome ∧
    ∀ a ∈ decl.getter, a.returnType = none → t.returnType? g = type
  setter : ∀ f, setter = some f → ∃ v, IsSetter t f v ∧
    ∀ a ∈ decl.setter, a.parameter.bind Parameter.typeRef = none → t.valueType? v = type

namespace AccessorsOf

variable {t : DescriptorTable} {decl : PropertyDecl} {type : Option Ty} {property : Nat}
  {data : PropertyData}

/-- A property is neither a function nor what a setter takes, so that it may be edited. -/
theorem editProperty
    {getter setter : Option Nat} (h : AccessorsOf t decl type getter setter)
    (hdata : t.propertyData? property = some data) (f : PropertyData → PropertyData) :
    AccessorsOf (t.editProperty property f) decl type getter setter := by
  refine ⟨h.getter_isSome, h.setter_isSome, fun g hg => ?_, fun function hf => ?_⟩
  · obtain ⟨hsome, himplied⟩ := h.getter g hg
    rw [signature?_editProperty hdata f hsome,
      DescriptorTable.returnType?_congr (get_editProperty_of_signature? hdata f hsome)]
    exact ⟨hsome, himplied⟩
  · obtain ⟨v, hsetter, himplied⟩ := h.setter function hf
    refine ⟨v, hsetter.editProperty hdata f, ?_⟩
    rw [DescriptorTable.valueType?_congr (hsetter.get_editProperty hdata f)]
    exact himplied

section

variable (h : AccessorsOf t decl data.type data.getter data.setter)
  (hdata : t.propertyData? property = some data)

include h hdata

theorem hasAccessorsOf : HasAccessorsOf t decl property :=
  ⟨data, hdata, h.getter_isSome, h.setter_isSome⟩

omit h in
theorem valueType?_eq : t.valueType? property = data.type := by
  rw [DescriptorTable.valueType?_eq, DescriptorTable.kind_of_propertyData? hdata]
  rfl

/-- Nothing but the property, its getter and what its setter takes may be open. -/
theorem openThrough {d : Nat} (hd : d = property ∨ data.getter = some d ∨
    (∃ f, data.setter = some f ∧ IsSetter t f d) ∧ data.type = none) :
    OpenThrough t decl property d := by
  rcases hd with rfl | hgetter | ⟨⟨function, hsetter, hvalue⟩, hopen⟩
  · exact .itself
  · apply OpenThrough.getter _ hdata hgetter (h.getter d hgetter).1
    rw [← h.getter_isSome, hgetter]
    rfl
  · obtain ⟨hlt, hkind, -, signature, hsignature, hhead⟩ := hvalue
    refine .value ⟨hlt, hkind, data, function, signature, hdata, hsetter, hsignature, hhead⟩ ?_
    exact (valueType?_eq hdata).trans hopen

theorem declaredWith (huntyped : decl.typeRef = none → data.type = none) :
    t.DeclaredWith decl property := by
  have htype := valueType?_eq hdata
  refine ⟨fun hnone => htype.trans (huntyped hnone), fun g hg => ?_, fun function hf => ?_⟩
  · unfold DescriptorTable.getter? at hg
    rw [hdata] at hg
    obtain ⟨hsignature, himplied⟩ := h.getter g hg
    exact ⟨hsignature, fun a ha hnone => (himplied a ha hnone).trans htype.symm⟩
  · unfold DescriptorTable.setter? at hf
    rw [hdata] at hf
    obtain ⟨v, hsetter, himplied⟩ := h.setter function hf
    obtain ⟨signature, hsignature, hhead⟩ := hsetter.signature?
    refine ⟨v, hsetter.lt_size, ?_, hsetter.container_eq, fun a ha hnone => ?_⟩
    · exact Option.bind_eq_some_iff.mpr ⟨signature, hsignature, hhead⟩
    · exact (himplied a ha hnone).trans htype.symm

end

end AccessorsOf

/-- A type that is not declared is not known. -/
theorem afterOk_mapM_typeRef_types (scope : Nat) (typeRef : Option TypeRef) (s : Session) :
    AfterOk (typeRef.mapM fun ref => (resolveTypeRef scope ref : FaultyAnalysis Ty)) s
      fun type s' => (typeRef = none → type = none) ∧ Types (typeRefNodes typeRef) s s' := by
  have hresolve : AfterOk
      (typeRef.mapM fun ref => (resolveTypeRef scope ref : FaultyAnalysis Ty)) s
        fun _ => Types (typeRefNodes typeRef) s :=
    AfterOk.optionMapM_lift _ fun ref href =>
      keeps_resolveTypeRef (typeRef_mem_of_subset (List.Subset.refl _) ref href) scope
  cases typeRef with
  | none => exact ⟨fun _ => rfl, .refl _ s⟩
  | some ref => exact AfterOk.mono hresolve fun _ _ h => ⟨nofun, h⟩

theorem afterOk_resolveProperty_adds
    (scope : Nat) (container : Option Nat) (decl : PropertyDecl) (s : Session) :
    AfterOk (resolveProperty scope container decl) s fun property s' =>
      Adds (OpenThrough s'.descriptors decl property) s s' ∧
        HasAccessorsOf s'.descriptors decl property ∧
          s'.descriptors.DeclaredWith decl property := by
  refine AfterOr.bind (afterOk_mapM_typeRef_types scope decl.typeRef s)
    fun type s₁ ⟨huntyped, h₁⟩ => ?_
  have hcreate : After (createDescriptor decl.name container
      (.propertyKind { mutable := decl.mutable, type })) s₁ fun property s' =>
        Adds (· = property) s s' ∧ s.descriptors.size ≤ property ∧
          s'.descriptors.propertyData? property = some { mutable := decl.mutable, type } := by
    have hget := s₁.model.descriptors.get_create_size decl.name container
      (.propertyKind { mutable := decl.mutable, type })
    have hdata : (s₁.model.descriptors.create decl.name container
        (.propertyKind { mutable := decl.mutable, type })).2.propertyData?
          s₁.model.descriptors.size = some { mutable := decl.mutable, type } :=
      DescriptorTable.propertyData?_of_kind (congrArg Descriptor.kind hget)
    exact ⟨(h₁.adds _).trans (.create _ _ _ (.inr rfl)), h₁.extends_.size_le, hdata⟩
  refine AfterOr.bind (AfterOr.lift hcreate) fun property s₂ h₂ => ?_
  obtain ⟨hadds₂, hle, hdata₂⟩ := h₂
  have hlt₂ := DescriptorTable.lt_size_of_propertyData? (by rw [hdata₂]; rfl)
  refine AfterOr.bind (AfterOr.lift ((keeps_recordDeclaration_adds (fun _ => False) ..).after s₂))
    fun _ s₃ h₃ => ?_
  refine AfterOr.bind (afterOk_mapM_getter_adds ..) fun getter s₄ h₄ => ?_
  refine AfterOr.bind (afterOk_mapM_setter_adds ..) fun setter s₅ h₅ => ?_
  have hlt₃ := hlt₂.trans_le h₃.size_le
  have hlt₄ := hlt₃.trans_le h₄.1.size_le
  have hdata₅ : s₅.descriptors.propertyData? property =
      some { mutable := decl.mutable, type } := by
    rw [h₅.1.propertyData?_eq hlt₄, h₄.1.propertyData?_eq hlt₃, h₃.propertyData?_eq hlt₂, hdata₂]
  have haccessors : AccessorsOf s₅.descriptors decl type getter setter := by
    refine ⟨h₄.2.1, h₅.2.1, fun g hg => ?_, h₅.2.2⟩
    obtain ⟨hsignature, himplied⟩ := h₄.2.2 g hg
    have hsame := h₅.1.signature?_eq (DescriptorTable.lt_size_of_signature? hsignature)
    unfold DescriptorTable.returnType? at himplied ⊢
    rw [hsame]
    exact ⟨hsignature, himplied⟩
  let added : Nat → Prop := fun d => d = property ∨ getter = some d ∨
    (∃ f, setter = some f ∧ IsSetter s₅.descriptors f d) ∧ type = none
  have hgrows : Adds added s s₅ := by
    have h₁₂ : Adds added s s₂ := hadds₂.mono fun _ h => .inl h
    have h₂₃ : Adds added s₂ s₃ := h₃.mono fun _ => False.elim
    have h₃₄ : Adds added s₃ s₄ := h₄.1.mono fun _ h => .inr (.inl h)
    have h₄₅ : Adds added s₄ s₅ := h₅.1.mono fun _ h => .inr (.inr h)
    exact ((h₁₂.trans h₂₃).trans h₃₄).trans h₄₅
  refine afterOr_bind.mpr (AfterOr.lift (after_onDescriptors.mpr (afterOr_pure.mpr ?_)))
  have hdata₆ : (s₅.descriptors.editProperty property fun p =>
      { p with getter, setter }).propertyData? property =
        some { mutable := decl.mutable, type, getter, setter } :=
    DescriptorTable.propertyData?_of_kind (DescriptorTable.kind_editProperty_self hdata₅ _)
  have haccessors₆ := haccessors.editProperty hdata₅ fun p => { p with getter, setter }
  have hadds₆ := hgrows.editProperty hle (f := fun p => { p with getter, setter }) fun _ h => h
  refine ⟨DescriptorTable.Grows.mono hadds₆ fun d hd => haccessors₆.openThrough hdata₆ ?_,
    haccessors₆.hasAccessorsOf hdata₆, haccessors₆.declaredWith hdata₆ huntyped⟩
  rcases hd with hitself | hgetter | ⟨⟨function, hsetter, htakes⟩, hopen⟩
  · exact .inl hitself
  · exact .inr (.inl hgetter)
  · exact .inr (.inr ⟨⟨function, hsetter, htakes.editProperty hdata₅ _⟩, hopen⟩)

end Analysis

end DeclAnalysis
