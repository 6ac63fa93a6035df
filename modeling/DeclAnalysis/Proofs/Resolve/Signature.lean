import DeclAnalysis.Resolve.Body
import DeclAnalysis.Proofs.Resolve.Parts
import DeclAnalysis.Proofs.Typing.Follows

/-!
# What resolving signatures does to a session

Signatures are resolved without a fault; the session follows the one before, and the
descriptors of what has been declared stand for functions and properties.
-/

namespace DeclAnalysis

theorem DelegationSpecifier.typeRef_mem_nodes
    {specifier : DelegationSpecifier} {ref : TypeRef} (h : specifier.typeRef? = some ref) :
    ref.id ∈ specifier.nodes := by
  cases specifier with
  | byExpression id typeRef delegate =>
      obtain rfl := Option.some.inj h
      simp [nodes]
  | superCall id typeRef arguments =>
      obtain rfl : typeRef = some ref := h
      simp [nodes, typeRefNodes]
  | superClass id typeRef =>
      obtain rfl := Option.some.inj h
      simp [nodes]
  | thisCall id arguments => cases h

namespace Session

/-- The descriptor is a function or constructor in the given container. -/
structure IsFunction (s : Session) (function : Nat) (container : Option Nat) : Prop where
  isSome_signature? : (s.descriptors.signature? function).isSome
  container_eq : (s.descriptors.get function).container = container

theorem IsFunction.of_follows
    {nodes : List Nat} {s s' : Session} {function : Nat} {container : Option Nat}
    (h : s.IsFunction function container) (hfollows : Follows nodes s s') :
    s'.IsFunction function container where
  isSome_signature? := hfollows.evolves.isSome_signature? h.isSome_signature?
  container_eq := by
    have hlt := DescriptorTable.lt_size_of_signature? h.isSome_signature?
    rw [hfollows.evolves.container_eq function hlt]
    exact h.container_eq

end Session

namespace Analysis

open Session (Follows AllowsTyping)

variable {nodes : List Nat} {s : Session}

/-! ### Supertypes -/

section

variable {R : Session → Session → Prop} [hR : AllowsTyping nodes R]

include hR

theorem keeps_supertypeOf (ref : TypeRef) (type : Ty) :
    Keeps R (supertypeOf ref type) := by
  unfold supertypeOf
  split
  · exact Keeps.pure _
  · exact Keeps.pure _
  · exact Keeps.pure _
  · exact (keeps_reportCode (by decide) ..).bind fun _ => Keeps.pure _

theorem keeps_resolveSupertypes
    {head : ClassHead}
    (hhead : head.delegationSpecifiers.flatMap DelegationSpecifier.nodes ⊆ nodes) (scope : Nat) :
    Keeps R (resolveSupertypes scope head) := by
  refine (Keeps.mapM _ fun ref href => ?_).bind fun supertypes => Keeps.pure _
  obtain ⟨specifier, hspecifier, htypeRef⟩ := List.mem_filterMap.mp href
  have hmem : ref.id ∈ nodes :=
    hhead (List.mem_flatMap.mpr
      ⟨specifier, hspecifier, DelegationSpecifier.typeRef_mem_nodes htypeRef⟩)
  exact (keeps_resolveTypeRef hmem scope).bind fun type => keeps_supertypeOf ref type

end

/-- Changing an open class leaves the scope of its members alone. -/
theorem follows_editClass
    {id : Nat} {f : ClassData → ClassData} (hf : ∀ data, (f data).memberScope = data.memberScope)
    {t : DescriptorTable} (h : s.model.descriptors.editClass id f = .ok t) :
    Follows nodes s { s with model.descriptors := t } := by
  unfold DescriptorTable.editClass at h
  split at h
  · rename_i data hkind
    obtain rfl := Except.ok.inj h
    refine .single (.changeKind ?_ fun _ => False.elim)
    rw [Session.descriptors, hkind]
    exact .classKind (hf data)
  · cases h
  · cases h

theorem keepsOr_editClass
    (id : Nat) {f : ClassData → ClassData}
    (hf : ∀ data, (f data).memberScope = data.memberScope) :
    KeepsOr (Follows nodes) (tryDescriptors (·.editClass id f)) :=
  keepsOr_tryDescriptors fun _ _ h => follows_editClass hf h

/-! ### Signatures -/

section

variable {R : Session → Session → Prop} [hR : AllowsTyping nodes R]

include hR

theorem keeps_parameterType
    {p : Parameter} (hp : p.nodes ⊆ nodes) (scope : Nat) :
    Keeps R (parameterType scope p) := by
  unfold parameterType
  obtain ⟨-, htypeRef⟩ := List.cons_subset.mp hp
  split
  · rename_i ref href
    exact keeps_resolveTypeRef (typeRef_mem_of_subset htypeRef ref href) scope
  · exact (keeps_reportCode (by decide) ..).bind fun _ => Keeps.pure _

theorem keeps_resolveParameter
    {p : Parameter} (hp : p.nodes ⊆ nodes) (scope function : Nat) :
    Keeps R (resolveParameter scope function p) := by
  refine (keeps_parameterType hp scope).bind fun type => ?_
  refine (keeps_createVariable ..).bind fun descriptor => ?_
  refine (keeps_recordDeclaration (hp ?_) descriptor).bind fun _ => Keeps.pure _
  exact List.mem_cons_self

/-- Only variables are added while parameters are resolved. -/
theorem keeps_resolveParameters
    {parameters : List Parameter} (hparameters : parameterNodes parameters ⊆ nodes)
    (scope function : Nat) :
    Keeps R (parameters.mapM (resolveParameter scope function)) := by
  refine Keeps.mapM parameters fun p hp => keeps_resolveParameter ?_ scope function
  exact fun node hnode => hparameters (List.mem_flatMap.mpr ⟨p, hp, hnode⟩)

end

theorem keeps_editSignature
    (id : Nat) {f : Signature → Signature}
    (hf : ∀ s, s.returnType.isSome → (f s).returnType.isSome) :
    Keeps (Follows nodes) (onDescriptors (·.editSignature id f)) :=
  ⟨fun _ => .editSignature id hf⟩

/-- What a newly declared function or constructor stands for. -/
def newFunction (role : FunctionRole) : DescriptorKind :=
  if role.isConstructor then .constructorKind { role } else .functionKind { role }

theorem isNew_newFunction (role : FunctionRole) : (newFunction role).IsNew := by
  unfold newFunction
  split
  · exact .constructorKind _
  · exact .functionKind _

theorem isSome_signature?_of_newFunction
    {t : DescriptorTable} {id : Nat} {role : FunctionRole}
    (h : (t.get id).kind = newFunction role) :
    (t.signature? id).isSome := by
  unfold newFunction at h
  unfold DescriptorTable.signature?
  split at h
  · rw [h]
    rfl
  · rw [h]
    rfl

/-- A declared function or constructor is one, and it lies in the given container. -/
theorem after_resolveSignature
    {parameters : List Parameter} (hparameters : parameterNodes parameters ⊆ nodes)
    (scope : Nat) (role : FunctionRole) (name : String) (container : Option Nat) :
    After (resolveSignature scope role name container parameters) s fun function s' =>
      Follows nodes s s' ∧ s'.IsFunction function container := by
  have hcreate : After (createDescriptor name container (newFunction role)) s fun function s' =>
      Follows nodes s s' ∧ s'.IsFunction function container := by
    refine (after_createDescriptor nodes name container (isNew_newFunction role)).mono ?_
    rintro function s' ⟨hfollows, hget⟩
    refine ⟨hfollows, ?_, ?_⟩
    · exact isSome_signature?_of_newFunction (congrArg Descriptor.kind hget)
    · exact congrArg Descriptor.container hget
  refine hcreate.bind fun function s₁ h₁ => ?_
  have hmap : Keeps (Follows nodes) (parameters.mapM (resolveParameter scope function)) :=
    keeps_resolveParameters hparameters scope function
  refine (hmap.after s₁).bind fun descriptors s₂ h₂ => ?_
  have hedit : Follows nodes s₂ _ := .editSignature function
    (f := fun s => { s with parameters := descriptors }) fun _ h => h
  have hfollows := h₂.trans hedit
  exact ⟨h₁.1.trans hfollows, h₁.2.of_follows hfollows⟩

/-- The return type of what is a function or constructor can be set, and is then known. -/
theorem afterOk_setReturnType
    (nodes : List Nat) {function : Nat} (h : (s.descriptors.signature? function).isSome) (type : Ty) :
    AfterOk (setReturnType function type) s fun _ s' =>
      Follows nodes s s' ∧ (s'.descriptors.returnType? function).isSome := by
  obtain ⟨signature, hsignature⟩ := Option.isSome_iff_exists.mp h
  have hset : s.model.descriptors.setReturnType function type =
      .ok (s.model.descriptors.editSignature function fun s =>
        { s with returnType := some type }) := by
    unfold DescriptorTable.setReturnType
    unfold Session.descriptors at hsignature
    rw [hsignature]
  simp only [setReturnType, tryDescriptors, afterOr_bind, afterOr_get, hset, onDescriptors]
  refine ⟨.editSignature function fun s _ => rfl, ?_⟩
  have hedited := DescriptorTable.signature?_editSignature_self hsignature fun s =>
    { s with returnType := some type }
  exact (congrArg (fun o => (o.bind Signature.returnType).isSome) hedited).trans rfl

/-! ### Constructors and functions -/

theorem keeps_declareParameterProperty
    {p : Parameter} (hp : p.id ∈ nodes) (classId : Nat) (type : Ty) :
    Keeps (Follows nodes) (declareParameterProperty classId p type) := by
  refine (keeps_createDescriptor _ _ (.propertyKind ..)).bind fun property => ?_
  exact (keeps_recordDeclaration hp property).bind fun _ => Keeps.pure _

/-- The primary constructor of what is a class is resolved without a fault. -/
theorem afterOk_resolvePrimaryConstructor
    {head : ClassHead} (hhead : head.nodes ⊆ nodes) {classId : Nat}
    (hclass : (s.descriptors.classData? classId).isSome) :
    AfterOk (resolvePrimaryConstructor classId head) s fun _ s' => Follows nodes s s' := by
  unfold resolvePrimaryConstructor
  obtain ⟨-, hhead⟩ := List.cons_subset.mp hhead
  obtain ⟨hparameters, -⟩ := List.append_subset.mp hhead
  cases hprimary : head.primaryConstructor with
  | none => exact .refl nodes s
  | some parameters =>
      rw [hprimary] at hparameters
      obtain ⟨data, hdata⟩ := Option.isSome_iff_exists.mp hclass
      refine afterOr_bind.mpr (afterOr_get.mpr ?_)
      rw [hdata]
      dsimp only
      refine AfterOr.bind (AfterOr.lift (after_resolveSignature hparameters ..))
        fun constructor s₁ h₁ => ?_
      refine afterOr_bind.mpr (afterOr_get.mpr ?_)
      refine AfterOr.bind (afterOk_setReturnType nodes h₁.2.isSome_signature? _) fun _ s₂ h₂ => ?_
      refine afterOr_bind.mpr (afterOr_get.mpr ?_)
      have hdeclare : ∀ p type, (p, type) ∈ parameters.zip
          (s₂.descriptors.parameterTypes constructor) →
            Keeps (Follows nodes) (declareParameterProperty classId p type) := by
        intro p type hp
        have hmem : p ∈ parameters := (List.of_mem_zip hp).1
        exact keeps_declareParameterProperty
          (hparameters (List.mem_flatMap.mpr ⟨p, hmem, List.mem_cons_self⟩)) classId type
      refine AfterOr.bind (AfterOk.mapM_lift _ fun p hp => hdeclare p.1 p.2 hp)
        fun properties s₃ h₃ => ?_
      exact h₁.1.trans (h₂.1.trans h₃)

/-- A secondary constructor is resolved without a fault; its return type is known. -/
theorem afterOk_resolveConstructor
    {decl : ConstructorDecl} (hdecl : decl.nodes ⊆ nodes) (scope classId : Nat) :
    AfterOk (resolveConstructor scope classId decl) s fun constructor s' =>
      Follows nodes s s' ∧ s'.IsFunction constructor (some classId) ∧
        (s'.descriptors.returnType? constructor).isSome := by
  obtain ⟨hid, hparts⟩ := List.cons_subset.mp hdecl
  simp only [List.append_subset] at hparts
  refine AfterOr.bind (AfterOr.lift (after_resolveSignature hparts.1.1 ..))
    fun constructor s₁ h₁ => ?_
  refine afterOr_bind.mpr (afterOr_get.mpr ?_)
  refine AfterOr.bind (afterOk_setReturnType nodes h₁.2.isSome_signature? _) fun _ s₂ h₂ => ?_
  refine AfterOr.bind (AfterOr.lift
    ((keeps_recordDeclaration (R := Follows nodes) hid constructor).after s₂)) fun _ s₃ h₃ => ?_
  exact ⟨h₁.1.trans (h₂.1.trans h₃), h₁.2.of_follows (h₂.1.trans h₃),
    h₃.evolves.isSome_returnType? h₂.2⟩

/-- A function is resolved without a fault. -/
theorem afterOk_resolveFunction
    {decl : FunctionDecl} (hdecl : decl.nodes ⊆ nodes) (scope : Nat)
    (container : Option Nat) :
    AfterOk (resolveFunction scope container decl) s fun function s' =>
      Follows nodes s s' ∧ s'.IsFunction function container := by
  obtain ⟨hid, hparts⟩ := List.cons_subset.mp hdecl
  simp only [List.append_subset] at hparts
  obtain ⟨⟨hparameters, hreturn⟩, -⟩ := hparts
  refine AfterOr.bind (AfterOr.lift (after_resolveSignature hparameters ..))
    fun function s₁ h₁ => ?_
  have hrecord : ∀ s₂, Follows nodes s₁ s₂ →
      AfterOk (do recordDeclaration decl.id function; return function : FaultyAnalysis Nat) s₂
          fun function s' => Follows nodes s s' ∧ s'.IsFunction function container := by
    intro s₂ h₂
    refine AfterOr.bind (AfterOr.lift
      ((keeps_recordDeclaration (R := Follows nodes) hid function).after s₂)) fun _ s₃ h₃ => ?_
    exact ⟨h₁.1.trans (h₂.trans h₃), h₁.2.of_follows (h₂.trans h₃)⟩
  cases href : decl.returnType with
  | none => exact hrecord s₁ (.refl nodes s₁)
  | some ref =>
      rw [href] at hreturn
      have hmem : ref.id ∈ nodes := hreturn List.mem_cons_self
      refine AfterOr.bind (AfterOr.lift ((keeps_resolveTypeRef (R := Follows nodes) hmem scope).after s₁))
        fun type s₂ h₂ => ?_
      have hsignature := h₂.evolves.isSome_signature? h₁.2.isSome_signature?
      refine AfterOr.bind (afterOk_setReturnType nodes hsignature type) fun _ s₃ h₃ => ?_
      exact hrecord s₃ (h₂.trans h₃.1)

/-! ### Properties -/

/-- A getter is resolved without a fault. -/
theorem afterOk_resolveGetter
    {getter : Accessor} (hgetter : getter.nodes ⊆ nodes) (scope property : Nat) (name : String)
    (propertyType : Option Ty) :
    AfterOk (resolveGetter scope property name propertyType getter) s fun function s' =>
      Follows nodes s s' ∧ (s'.descriptors.signature? function).isSome := by
  obtain ⟨hid, hparts⟩ := List.cons_subset.mp hgetter
  simp only [List.append_subset] at hparts
  have hnone : parameterNodes [] ⊆ nodes := List.nil_subset nodes
  refine AfterOr.bind (AfterOr.lift (after_resolveSignature hnone ..)) fun function s₁ h₁ => ?_
  have hset : ∀ type s₂, Follows nodes s₁ s₂ →
      AfterOk (declareGetter getter function type) s₂
          fun function s' => Follows nodes s s' ∧ (s'.descriptors.signature? function).isSome := by
    intro type s₂ h₂
    have hrecord : ∀ s₃, Follows nodes s₁ s₃ →
        AfterOk (do recordDeclaration getter.id function; return function : FaultyAnalysis Nat)
          s₃ fun function s' =>
            Follows nodes s s' ∧ (s'.descriptors.signature? function).isSome := by
      intro s₃ h₃
      refine AfterOr.bind (AfterOr.lift
        ((keeps_recordDeclaration (R := Follows nodes) hid function).after s₃)) fun _ s₄ h₄ => ?_
      have hsignature := h₁.2.of_follows (h₃.trans h₄)
      exact ⟨h₁.1.trans (h₃.trans h₄), hsignature.isSome_signature?⟩
    cases type with
    | none => exact hrecord s₂ h₂
    | some type =>
        have hsignature := (h₁.2.of_follows h₂).isSome_signature?
        refine AfterOr.bind (afterOk_setReturnType nodes hsignature type) fun _ s₃ h₃ => ?_
        exact hrecord s₃ (h₂.trans h₃.1)
  cases href : getter.returnType with
  | none => exact hset propertyType s₁ (.refl nodes s₁)
  | some ref =>
      have hmem : ref.id ∈ nodes := typeRef_mem_of_subset hparts.1.2 ref href
      refine afterOr_bind.mpr (afterOr_map.mpr (AfterOr.lift ?_))
      exact After.mono ((keeps_resolveTypeRef hmem scope).after s₁) fun type s₂ h₂ =>
        hset (some type) s₂ h₂

theorem keeps_setterParameterType
    {R : Session → Session → Prop} [AllowsTyping nodes R]
    {parameter : Option Parameter} (hparameter : parameterNodes parameter.toList ⊆ nodes)
    (scope : Nat) (propertyType : Option Ty) :
    Keeps R (setterParameterType scope propertyType parameter) := by
  unfold setterParameterType
  split
  · rename_i ref href
    obtain ⟨p, rfl, htypeRef⟩ := Option.bind_eq_some_iff.mp href
    have hp : p.nodes ⊆ nodes := fun node hnode =>
      hparameter (List.mem_flatMap.mpr ⟨p, List.mem_cons_self, hnode⟩)
    have hmem := typeRef_mem_of_subset (List.cons_subset.mp hp).2 ref htypeRef
    exact (keeps_resolveTypeRef hmem scope).map some
  · exact Keeps.pure _

/-- A setter is resolved without a fault. -/
theorem afterOk_resolveSetter
    {setter : Accessor} (hsetter : setter.nodes ⊆ nodes) (scope property : Nat) (name : String)
    (propertyType : Option Ty) :
    AfterOk (resolveSetter scope property name propertyType setter) s fun function s' =>
      Follows nodes s s' ∧ (s'.descriptors.signature? function).isSome := by
  obtain ⟨hid, hparts⟩ := List.cons_subset.mp hsetter
  simp only [List.append_subset] at hparts
  have hnone : parameterNodes [] ⊆ nodes := List.nil_subset nodes
  refine AfterOr.bind (AfterOr.lift (after_resolveSignature hnone ..)) fun function s₁ h₁ => ?_
  refine AfterOr.bind (AfterOr.lift
    ((keeps_setterParameterType (R := Follows nodes) hparts.1.1 scope propertyType).after s₁)) fun type s₂ h₂ => ?_
  have hcreate : Keeps (Follows nodes) (createDescriptor _ (some function) _) :=
    keeps_createDescriptor ((setter.parameter.map Parameter.name).getD defaultSetterParameter)
      (some function) (.variableKind ⟨type, false⟩)
  refine AfterOr.bind (AfterOr.lift (hcreate.after s₂)) fun value s₃ h₃ => ?_
  have hconclude : ∀ s₄, Follows nodes s₁ s₄ →
      AfterOk (do
        onDescriptors (·.editSignature function fun s =>
          { s with parameters := s.parameters ++ [value] })
        setReturnType function .unit
        recordDeclaration setter.id function
        return function : FaultyAnalysis Nat) s₄
          fun function s' => Follows nodes s s' ∧ (s'.descriptors.signature? function).isSome := by
    intro s₄ h₄
    have hedit : Keeps (Follows nodes) (onDescriptors (·.editSignature function fun s =>
        { s with parameters := s.parameters ++ [value] })) :=
      keeps_editSignature function fun _ h => h
    refine AfterOr.bind (AfterOr.lift (hedit.after s₄)) fun _ s₅ h₅ => ?_
    have hsignature := (h₁.2.of_follows (h₄.trans h₅)).isSome_signature?
    refine AfterOr.bind (afterOk_setReturnType nodes hsignature _) fun _ s₆ h₆ => ?_
    refine AfterOr.bind (AfterOr.lift
      ((keeps_recordDeclaration (R := Follows nodes) hid function).after s₆)) fun _ s₇ h₇ => ?_
    have hfollows : Follows nodes s₁ s₇ := h₄.trans (h₅.trans (h₆.1.trans h₇))
    exact ⟨h₁.1.trans hfollows, (h₁.2.of_follows hfollows).isSome_signature?⟩
  cases hp : setter.parameter with
  | none => exact hconclude s₃ (h₂.trans h₃)
  | some p =>
      have hmem : p.id ∈ nodes := by
        refine hparts.1.1 ?_
        rw [hp]
        exact List.mem_cons_self
      refine AfterOr.bind (AfterOr.lift
        ((keeps_recordDeclaration (R := Follows nodes) hmem value).after s₃)) fun _ s₄ h₄ => ?_
      exact hconclude s₄ (h₂.trans (h₃.trans h₄))

/-- An accessor that a property may have is resolved without a fault. -/
theorem afterOk_mapM_accessor
    {resolve : Accessor → FaultyAnalysis Nat} {accessor : Option Accessor}
    (h : ∀ a, accessor = some a → AfterOk (resolve a) s fun function s' =>
      Follows nodes s s' ∧ (s'.descriptors.signature? function).isSome) :
    AfterOk (accessor.mapM resolve) s fun functions s' => Follows nodes s s' ∧
      ∀ function, functions = some function → (s'.descriptors.signature? function).isSome := by
  cases accessor with
  | none => exact ⟨.refl nodes s, fun function h => nomatch h⟩
  | some a =>
      refine afterOr_map.mpr (AfterOk.mono (h a rfl) ?_)
      rintro function s' ⟨hfollows, hsignature⟩
      refine ⟨hfollows, fun function' h => ?_⟩
      obtain rfl := Option.some.inj h
      exact hsignature

/-- A property is resolved without a fault. -/
theorem afterOk_resolveProperty
    {decl : PropertyDecl} (hdecl : decl.nodes ⊆ nodes) (scope : Nat) (container : Option Nat) :
    AfterOk (resolveProperty scope container decl) s fun property s' =>
      Follows nodes s s' ∧ (s'.descriptors.propertyData? property).isSome := by
  obtain ⟨hid, hparts⟩ := List.cons_subset.mp hdecl
  simp only [List.append_subset] at hparts
  obtain ⟨⟨⟨htypeRef, -⟩, hgetter⟩, hsetter⟩ := hparts
  have haccessor : ∀ {o : Option Accessor}, o.toList.flatMap Accessor.nodes ⊆ nodes →
      ∀ a, o = some a → a.nodes ⊆ nodes := by
    rintro o ho a rfl node hnode
    exact ho (List.mem_flatMap.mpr ⟨a, List.mem_cons_self, hnode⟩)
  have htype : AfterOk
      (decl.typeRef.mapM fun ref => (resolveTypeRef scope ref : FaultyAnalysis Ty)) s
        fun _ => Follows nodes s :=
    AfterOk.optionMapM_lift _ fun ref href =>
      keeps_resolveTypeRef (typeRef_mem_of_subset htypeRef ref href) scope
  refine AfterOr.bind htype fun type s₁ h₁ => ?_
  have hcreate : After (createDescriptor decl.name container
      (.propertyKind { mutable := decl.mutable, type })) s₁ fun property s' =>
        Follows nodes s₁ s' ∧ (s'.descriptors.propertyData? property).isSome := by
    refine (after_createDescriptor nodes decl.name container (.propertyKind ..)).mono ?_
    rintro property s' ⟨hfollows, hget⟩
    refine ⟨hfollows, ?_⟩
    exact Option.isSome_of_eq_some
      (DescriptorTable.propertyData?_of_kind (congrArg Descriptor.kind hget))
  refine AfterOr.bind (AfterOr.lift hcreate) fun property s₂ h₂ => ?_
  refine AfterOr.bind (AfterOr.lift
    ((keeps_recordDeclaration (R := Follows nodes) hid property).after s₂)) fun _ s₃ h₃ => ?_
  refine AfterOr.bind (afterOk_mapM_accessor fun a ha =>
    afterOk_resolveGetter (haccessor hgetter a ha) ..) fun getter s₄ h₄ => ?_
  refine AfterOr.bind (afterOk_mapM_accessor fun a ha =>
    afterOk_resolveSetter (haccessor hsetter a ha) ..) fun setter s₅ h₅ => ?_
  have hedit : Follows nodes s₅
      { s₅ with
        model.descriptors := s₅.model.descriptors.editProperty property fun p =>
          { p with getter, setter } } := by
    refine .editProperty property (fun _ h => h) fun data function h => .inr ?_
    rcases h with h | h
    · exact h₅.1.evolves.isSome_signature? (h₄.2 function h)
    · exact h₅.2 function h
  have hfollows := h₃.trans (h₄.1.trans (h₅.1.trans hedit))
  exact ⟨h₁.trans (h₂.1.trans hfollows), hfollows.evolves.isSome_propertyData? h₂.2⟩

end Analysis

end DeclAnalysis
