import DeclAnalysis.Proofs.Resolve.SignatureFrame
import DeclAnalysis.Proofs.Semantic.ParameterTypes
import DeclAnalysis.Proofs.Session.Answers
import DeclAnalysis.Proofs.Session.Recordings

/-!
# What resolving signatures does not touch

Resolving supertypes and signatures reports problems, records what nodes declare and which types
references denote, and adds and changes descriptors. It neither types expressions nor looks at
their nodes.
-/

namespace DeclAnalysis

namespace Session

/-- No backing field is known anywhere, and nobody watches. -/
structure Quiet (s : Session) : Prop where
  fieldless : s.scopes.Fieldless
  unwatched : s.recorder.observers = []

/-- Nothing has been recorded in other slots than those of some nodes. Descriptors have been added
and changed as declarations demand it. -/
structure Spares (heads : List Nat) (s s' : Session) : Prop where
  same : ∀ {slot : Slot}, slot.node ∉ heads → SameSlot s s' slot
  declares : s.descriptors.Declares s'.descriptors

/-- Moreover nothing has been reported about backing fields. -/
structure SparesReports (heads nodes : List Nat) (s s' : Session) : Prop
    extends Spares heads s s' where
  quiet : s.Quiet → s'.Quiet
  fieldReports_eq : s.Quiet → s'.fieldReports nodes = s.fieldReports nodes

/-- Nor has any been recorded. -/
structure SparesBodies (heads nodes : List Nat) (s s' : Session) : Prop
    extends SparesReports heads nodes s s' where
  hasBackingField_eq : s.Quiet → ∀ p, s'.trace.hasBackingField p = s.trace.hasBackingField p

variable {heads nodes : List Nat} {s s' s'' : Session}

namespace Spares

theorem of_slots
    (hsame : ∀ slot, SameSlot s s' slot) (hdeclares : s.descriptors.Declares s'.descriptors) :
    Spares heads s s' :=
  ⟨fun {slot} _ => hsame slot, hdeclares⟩

instance (heads : List Nat) : IsPreorder Session (Spares heads) where
  refl s := of_slots (SameSlot.refl s) (.refl _)
  trans _ _ _ h h' := ⟨fun hslot => (h.same hslot).trans (h'.same hslot),
    h.declares.trans h'.declares⟩

end Spares

instance (heads nodes : List Nat) : IsPreorder Session (SparesReports heads nodes) where
  refl s := ⟨refl_of (Spares heads) s, id, fun _ => rfl⟩
  trans _ _ _ h h' := ⟨trans_of (Spares heads) h.toSpares h'.toSpares,
    fun hs => h'.quiet (h.quiet hs),
    fun hs => (h'.fieldReports_eq (h.quiet hs)).trans (h.fieldReports_eq hs)⟩

namespace SparesBodies

/-- References to backing fields are reported, if at all, at the given nodes. -/
theorem of_answers
    (hspares : Spares heads s s') {accesses : List FieldAccess}
    (haccesses : ∀ a ∈ accesses, a.node ∈ nodes)
    (hanswers : s.scopes.Fieldless → Answers .nowhere nodes accesses s s') :
    SparesBodies heads nodes s s' where
  toSpares := hspares
  quiet hs := by
    have h := hanswers hs.fieldless
    have hfieldless : ScopeTree.View.nowhere.holds 0 s'.scopes := h.holds hs.fieldless
    exact ⟨hfieldless, (h.unwatched hs.unwatched).1⟩
  fieldReports_eq hs := by
    have hmissing : ScopeTree.View.nowhere.missing nodes accesses = [] := by
      refine List.map_eq_nil_iff.mpr (List.filter_eq_nil_iff.mpr fun a ha => ?_)
      simp [haccesses a ha]
    rw [(hanswers hs.fieldless).fieldReports_eq, hmissing, List.append_nil]
  hasBackingField_eq hs := ((hanswers hs.fieldless).unwatched hs.unwatched).2

theorem of_slots
    (hsame : ∀ slot, SameSlot s s' slot) (hdeclares : s.descriptors.Declares s'.descriptors)
    (hanswers : Answers .nowhere nodes [] s s') : SparesBodies heads nodes s s' :=
  of_answers (.of_slots hsame hdeclares) (fun _ ha => absurd ha List.not_mem_nil) fun _ => hanswers

theorem refl (heads nodes : List Nat) (s : Session) : SparesBodies heads nodes s s :=
  of_slots (SameSlot.refl s) (.refl _) (.refl .nowhere nodes s)

theorem trans (h : SparesBodies heads nodes s s') (h' : SparesBodies heads nodes s' s'') :
    SparesBodies heads nodes s s'' where
  toSparesReports := trans_of (SparesReports heads nodes) h.toSparesReports h'.toSparesReports
  hasBackingField_eq hs p :=
    (h'.hasBackingField_eq (h.quiet hs) p).trans (h.hasBackingField_eq hs p)

instance (heads nodes : List Nat) : IsPreorder Session (SparesBodies heads nodes) where
  refl := .refl heads nodes
  trans _ _ _ := .trans

theorem of_descriptors {t : DescriptorTable} (h : s.descriptors.Declares t) :
    SparesBodies heads nodes s { s with model.descriptors := t } :=
  of_slots (fun slot => by cases slot <;> rfl) h (.of_descriptors t)

/-- Scopes may change, as long as no name of a field is bound. -/
theorem of_scopes {t : ScopeTree} (h : s.scopes.Fieldless → t.Fieldless) :
    SparesBodies heads nodes s { s with model.scopes := t } :=
  of_slots (fun slot => by cases slot <;> rfl) (.refl _) (.of_scopes h)

end SparesBodies

end Session

namespace Analysis

open Session (SparesBodies)

variable {heads nodes : List Nat}

/-! ### Elementary steps -/

theorem sparesBodies_report
    {code : DiagnosticCode}
    (h : code ≠ .initializerNotAllowed ∧ code ≠ .backingFieldMisuse ∧ code ≠ .unresolvedReference)
    (node : Nat) (message : String) :
    Keeps (SparesBodies heads nodes) (reportCode code node message) := by
  refine ⟨fun s => .of_slots (fun slot => ?_) (.refl _) ?_⟩
  · cases slot <;> rfl
  · exact (answers_reportCode h node message).after s

theorem sparesBodies_recordDeclaration {node : Nat} (hnode : node ∈ nodes) (descriptor : Nat) :
    Keeps (SparesBodies heads nodes) (recordDeclaration node descriptor) := by
  refine ⟨fun s => .of_slots (fun slot => ?_) (.refl _) ?_⟩
  · cases slot <;> rfl
  · exact (answers_recordDeclaration hnode descriptor).after s

theorem sparesBodies_setReturnType (function : Nat) (type : Ty) :
    KeepsOr (SparesBodies heads nodes) (setReturnType function type) :=
  keepsOr_tryDescriptors fun _ _ ht => .of_descriptors (.setReturnType ht)

theorem sparesBodies_editClass (id : Nat) (f : ClassData → ClassData) :
    KeepsOr (SparesBodies heads nodes) (tryDescriptors (·.editClass id f)) :=
  keepsOr_tryDescriptors fun _ _ ht => .of_descriptors (.editClass ht)

theorem sparesBodies_createProperty
    (name : String) (container : Option Nat) (data : PropertyData) :
    Keeps (SparesBodies heads nodes) (createDescriptor name container (.propertyKind data)) :=
  ⟨fun s => .of_descriptors (.create s.descriptors name container fun s hs => by cases hs)⟩

/-! ### Types -/

theorem sparesBodies_resolveTypeRef {ref : TypeRef} (href : ref.id ∈ nodes) (scope : Nat) :
    Keeps (SparesBodies heads nodes) (resolveTypeRef scope ref) := by
  refine Keeps.get_bind fun s => ?_
  split
  · exact Keeps.pure _
  · have hrecord : ∀ type, Keeps (SparesBodies heads nodes) (do
        recordTypeReference ref.id type
        return type) := by
      intro type
      refine Keeps.bind ⟨fun s => .of_slots (fun slot => ?_) (.refl _) ?_⟩
        fun _ => Keeps.pure _
      · cases slot <;> rfl
      · exact (answers_recordTypeReference ref.id type).after s
    have hreport : ∀ message, Keeps (SparesBodies heads nodes)
        (reportCode .unresolvedReference ref.id message) := by
      refine fun message => ⟨fun s => .of_slots (fun slot => ?_) (.refl _) ?_⟩
      · cases slot <;> rfl
      · exact (answers_reportUnresolved href message).after s
    split
    · exact hrecord _
    · exact (hreport _).bind fun _ => hrecord _

theorem sparesBodies_resolveClass
    {head : ClassHead} (hnodes : head.supertypeRefs.map TypeRef.id ⊆ nodes)
    (scope descriptor : Nat) :
    KeepsOr (SparesBodies heads nodes) (resolveClass scope head descriptor) := by
  have hsupertype : ∀ (ref : TypeRef) (type : Ty),
      Keeps (SparesBodies heads nodes) (supertypeOf ref type) := by
    intro ref type
    unfold supertypeOf
    split
    · exact Keeps.pure _
    · exact Keeps.pure _
    · exact Keeps.pure _
    · exact (sparesBodies_report (by decide) ..).bind fun _ => Keeps.pure _
  have hsupertypes : Keeps (SparesBodies heads nodes) (resolveSupertypes scope head) := by
    refine (Keeps.mapM _ fun ref href => ?_).bind fun supertypes => Keeps.pure _
    have hmem : ref.id ∈ nodes := hnodes (List.mem_map_of_mem href)
    exact (sparesBodies_resolveTypeRef hmem scope).bind fun type => hsupertype ref type
  exact (KeepsOr.lift hsupertypes).bind fun supertypes => sparesBodies_editClass ..

/-! ### Functions and constructors -/

/-- The type of a parameter is known when it is declared. -/
theorem after_resolveParameter_spares
    {p : Parameter} (hnodes : p.nodes ⊆ nodes) (scope function : Nat) (s : Session) :
    After (resolveParameter scope function p) s fun descriptor s' =>
      SparesBodies heads nodes s s' ∧ (s'.descriptors.valueType? descriptor).isSome := by
  obtain ⟨hid, htypeRef⟩ := List.cons_subset.mp hnodes
  have htype : Keeps (SparesBodies heads nodes) (parameterType scope p) := by
    unfold parameterType
    split
    · rename_i ref href
      rw [href] at htypeRef
      exact sparesBodies_resolveTypeRef (htypeRef List.mem_cons_self) scope
    · exact (sparesBodies_report (by decide) ..).bind fun _ => Keeps.pure _
  refine After.bind (htype.after s) fun type s₁ h₁ => ?_
  have hcreate : After (createDescriptor p.name (some function)
      (.variableKind ⟨some type, false⟩)) s₁ fun descriptor s₂ =>
        SparesBodies heads nodes s₁ s₂ ∧ (s₂.descriptors.valueType? descriptor).isSome := by
    refine ⟨.of_descriptors (.create _ _ _ fun s hs => by cases hs), ?_⟩
    have hget := s₁.model.descriptors.get_create_size p.name (some function)
      (.variableKind ⟨some type, false⟩)
    rw [DescriptorTable.valueType?_eq]
    exact congrArg (fun d => d.kind.valueType?.isSome) hget
  refine After.bind hcreate fun descriptor s₂ h₂ => ?_
  have hrecord : SparesBodies heads nodes s₂ _ :=
    (sparesBodies_recordDeclaration hid descriptor).after s₂
  exact ⟨(h₁.trans h₂.1).trans hrecord, h₂.2⟩

/-- A function or constructor gets its parameters when all of them have types. -/
theorem after_resolveSignature_spares
    {parameters : List Parameter} (hparameters : parameterNodes parameters ⊆ nodes)
    (scope : Nat) (role : FunctionRole) (name : String) (container : Option Nat) (s : Session) :
    After (resolveSignature scope role name container parameters) s fun function s' =>
      SparesBodies heads nodes s s' ∧ (s'.descriptors.signature? function).isSome ∧
        (s'.descriptors.get function).kind.sort =
          if role.isConstructor then .constructorSort else .functionSort role := by
  let kind : DescriptorKind :=
    if role.isConstructor then .constructorKind { role } else .functionKind { role }
  have hkind : kind.signature? = some { role } := by
    unfold kind
    split <;> rfl
  have hsort : kind.sort = if role.isConstructor then .constructorSort else .functionSort role := by
    unfold kind
    split <;> rfl
  have hcreate : After (createDescriptor name container kind) s fun function s₁ =>
      SparesBodies heads nodes s s₁ ∧ s₁.descriptors.signature? function = some { role } ∧
        (s₁.descriptors.get function).kind.sort = kind.sort := by
    have hget := s.model.descriptors.get_create_size name container kind
    refine ⟨.of_descriptors (.create _ _ _ fun s hs => ?_), ?_,
      congrArg (fun d => d.kind.sort) hget⟩
    · rw [hkind] at hs
      obtain rfl := Option.some.inj hs
      rfl
    · rw [DescriptorTable.signature?_eq]
      exact (congrArg (fun d => d.kind.signature?) hget).trans hkind
  refine After.bind hcreate fun function s₁ h₁ => ?_
  have hmap : After (parameters.mapM (resolveParameter scope function)) s₁ fun ids s₂ =>
      SparesBodies heads nodes s₁ s₂ ∧ ∀ p ∈ ids, (s₂.descriptors.valueType? p).isSome := by
    clear hcreate h₁
    induction parameters generalizing s₁ with
    | nil => exact ⟨.refl heads nodes s₁, fun p hp => absurd hp List.not_mem_nil⟩
    | cons p rest ih =>
        obtain ⟨hp, hrest⟩ := List.append_subset.mp hparameters
        rw [List.mapM_cons]
        have hfirst : After (resolveParameter scope function p) s₁ fun id s₂ =>
            SparesBodies heads nodes s₁ s₂ ∧ (s₂.descriptors.valueType? id).isSome :=
          after_resolveParameter_spares hp scope function s₁
        refine After.bind hfirst fun id s₂ h₂ => After.bind (ih hrest s₂) fun ids s₃ h₃ => ?_
        refine ⟨h₂.1.trans h₃.1, fun q hq => ?_⟩
        rcases List.mem_cons.mp hq with rfl | hq
        · exact h₃.1.declares.known h₂.2
        · exact h₃.2 q hq
  refine After.bind hmap fun ids s₂ h₂ => ?_
  have hdeclares := h₂.1.declares.sort_eq (Option.isSome_of_eq_some h₁.2.1)
  have hedit : SparesBodies heads nodes s₂ _ :=
    .of_descriptors (.editSignature s₂.descriptors function
      (f := fun s => { s with parameters := ids }) (fun _ => rfl) fun _ _ _ => h₂.2)
  have hedited := hedit.declares.sort_eq hdeclares.1
  refine ⟨(h₁.1.trans h₂.1).trans hedit, hedited.1, hedited.2.trans ?_⟩
  exact hdeclares.2.trans (h₁.2.2.trans hsort)

theorem sparesBodies_resolveSignature
    {parameters : List Parameter} (hparameters : parameterNodes parameters ⊆ nodes)
    (scope : Nat) (role : FunctionRole) (name : String) (container : Option Nat) :
    Keeps (SparesBodies heads nodes) (resolveSignature scope role name container parameters) :=
  ⟨fun s => (after_resolveSignature_spares hparameters scope role name container s).1⟩

theorem sparesBodies_resolvePrimaryConstructor
    {head : ClassHead} (hparameters : parameterNodes (head.primaryConstructor.getD []) ⊆ nodes)
    (classId : Nat) :
    KeepsOr (SparesBodies heads nodes) (resolvePrimaryConstructor classId head) := by
  unfold resolvePrimaryConstructor
  cases hprimary : head.primaryConstructor with
  | none => exact KeepsOr.pure _
  | some parameters =>
      rw [hprimary] at hparameters
      refine KeepsOr.get_bind fun s => ?_
      split
      · exact KeepsOr.throw _
      · refine (KeepsOr.lift (sparesBodies_resolveSignature hparameters ..)).bind fun c => ?_
        refine KeepsOr.get_bind fun s => (sparesBodies_setReturnType ..).bind fun _ => ?_
        refine KeepsOr.get_bind fun s => ?_
        refine (KeepsOr.mapM _ fun p hp => KeepsOr.lift ?_).bind fun _ => KeepsOr.pure _
        have hmem : p.1 ∈ parameters := (List.of_mem_zip hp).1
        have hid : p.1.id ∈ nodes := parameterNodes_subset hparameters hmem List.mem_cons_self
        refine (sparesBodies_createProperty ..).bind fun property => ?_
        exact (sparesBodies_recordDeclaration hid property).bind fun _ => Keeps.pure _

theorem sparesBodies_resolveConstructor
    {decl : ConstructorDecl} (hnodes : (Declaration.constructorDecl decl).signatureNodes ⊆ nodes)
    (scope classId : Nat) :
    KeepsOr (SparesBodies heads nodes) (resolveConstructor scope classId decl) := by
  obtain ⟨hid, hparameters⟩ := List.cons_subset.mp hnodes
  refine (KeepsOr.lift (sparesBodies_resolveSignature hparameters ..)).bind fun c => ?_
  refine KeepsOr.get_bind fun s => (sparesBodies_setReturnType ..).bind fun _ => ?_
  exact (KeepsOr.lift (sparesBodies_recordDeclaration hid c)).bind fun _ => KeepsOr.pure _

theorem sparesBodies_resolveFunction
    {decl : FunctionDecl} (hnodes : (Declaration.functionDecl decl).signatureNodes ⊆ nodes)
    (scope : Nat) (container : Option Nat) :
    KeepsOr (SparesBodies heads nodes) (resolveFunction scope container decl) := by
  obtain ⟨hid, hparts⟩ := List.cons_subset.mp hnodes
  obtain ⟨hparameters, htype⟩ := List.append_subset.mp hparts
  refine (KeepsOr.lift (sparesBodies_resolveSignature hparameters ..)).bind fun function => ?_
  have hrecord : KeepsOr (SparesBodies heads nodes)
      (do recordDeclaration decl.id function; return function) :=
    (KeepsOr.lift (sparesBodies_recordDeclaration hid function)).bind fun _ => KeepsOr.pure _
  split
  · rename_i ref href
    rw [href] at htype
    refine (KeepsOr.lift (sparesBodies_resolveTypeRef (htype List.mem_cons_self) scope)).bind
      fun type => ?_
    exact (sparesBodies_setReturnType ..).bind fun _ => hrecord
  · exact hrecord

/-! ### Properties -/

theorem sparesBodies_resolveGetter
    {getter : Accessor} (hnodes : getter.signatureNodes ⊆ nodes) (scope property : Nat)
    (name : String) (type : Option Ty) :
    KeepsOr (SparesBodies heads nodes) (resolveGetter scope property name type getter) := by
  obtain ⟨hid, hparts⟩ := List.cons_subset.mp hnodes
  obtain ⟨-, hreturnType⟩ := List.append_subset.mp hparts
  have hnone : parameterNodes [] ⊆ nodes := List.nil_subset _
  refine (KeepsOr.lift (sparesBodies_resolveSignature hnone ..)).bind fun function => ?_
  have hconclude : ∀ type,
      KeepsOr (SparesBodies heads nodes) (declareGetter getter function type) := by
    intro type
    have hrecord : KeepsOr (SparesBodies heads nodes)
        (do recordDeclaration getter.id function; return function) :=
      (KeepsOr.lift (sparesBodies_recordDeclaration hid function)).bind fun _ => KeepsOr.pure _
    unfold declareGetter
    cases type with
    | none => exact hrecord
    | some type => exact (sparesBodies_setReturnType ..).bind fun _ => hrecord
  cases href : getter.returnType with
  | none => exact hconclude type
  | some ref =>
      rw [href] at hreturnType
      have hresolve : Keeps (SparesBodies heads nodes) (resolveTypeRef scope ref) :=
        sparesBodies_resolveTypeRef (hreturnType List.mem_cons_self) scope
      exact (KeepsOr.lift (hresolve.map some)).bind hconclude

theorem sparesBodies_resolveSetter
    {setter : Accessor} (hnodes : setter.signatureNodes ⊆ nodes) (scope property : Nat)
    (name : String) (type : Option Ty) :
    KeepsOr (SparesBodies heads nodes) (resolveSetter scope property name type setter) := by
  obtain ⟨hid, hparts⟩ := List.cons_subset.mp hnodes
  obtain ⟨hparameter, -⟩ := List.append_subset.mp hparts
  have hnone : parameterNodes [] ⊆ nodes := List.nil_subset _
  have htype : Keeps (SparesBodies heads nodes)
      (setterParameterType scope type setter.parameter) := by
    unfold setterParameterType
    split
    · rename_i ref href
      obtain ⟨p, hp, href⟩ := Option.bind_eq_some_iff.mp href
      rw [hp] at hparameter
      have hmem : ref.id ∈ p.nodes := by
        unfold Parameter.nodes
        rw [href]
        exact List.mem_cons_of_mem _ List.mem_cons_self
      exact (sparesBodies_resolveTypeRef (hparameter (List.mem_append_left _ hmem)) scope).map some
    · exact Keeps.pure _
  refine KeepsOr.of_afterOr fun s => ?_
  have hcreated : After (resolveSignature scope .setter ("<set-" ++ name ++ ">") (some property) [])
      s fun function s' => SparesBodies heads nodes s s' ∧
        (s'.descriptors.signature? function).isSome ∧
          (s'.descriptors.get function).kind.sort = .functionSort .setter :=
    after_resolveSignature_spares hnone ..
  refine AfterOr.bind (AfterOr.lift hcreated) fun function s₁ h₁ => ?_
  obtain ⟨h₁, hsignature, hsort⟩ := h₁
  refine AfterOr.bind (AfterOr.lift (htype.after s₁)) fun type s₂ h₂ => ?_
  have hcreate : After (createDescriptor
      ((setter.parameter.map Parameter.name).getD defaultSetterParameter) (some function)
      (.variableKind ⟨type, false⟩)) s₂ fun _ => SparesBodies heads nodes s₂ :=
    .of_descriptors (.create _ _ _ fun s hs => by cases hs)
  refine AfterOr.bind (AfterOr.lift hcreate) fun value s₃ h₃ => ?_
  have hkept := (h₁.trans h₂).trans h₃
  -- What a setter takes may be attached before its type is known.
  have hrest : ∀ s₄, SparesBodies heads nodes s₃ s₄ → AfterAny (do
      onDescriptors (·.editSignature function fun s =>
        { s with parameters := s.parameters ++ [value] })
      setReturnType function .unit
      recordDeclaration setter.id function
      return function : FaultyAnalysis Nat) s₄ (SparesBodies heads nodes s) := by
    intro s₄ h₄
    have hdeclares := ((h₂.trans h₃).trans h₄).declares
    have hsort₄ := (hdeclares.sort_eq hsignature).2.trans hsort
    have hedit : SparesBodies heads nodes s₄ _ :=
      .of_descriptors (.editSignature s₄.descriptors function
        (f := fun s => { s with parameters := s.parameters ++ [value] }) (fun _ => rfl)
        fun _ hplain => absurd hsort₄ hplain)
    refine afterOr_bind.mpr (AfterOr.lift ?_)
    have hdone : KeepsOr (SparesBodies heads nodes) (do
        setReturnType function .unit
        recordDeclaration setter.id function
        return function : FaultyAnalysis Nat) :=
      (sparesBodies_setReturnType ..).bind fun _ =>
        (KeepsOr.lift (sparesBodies_recordDeclaration hid function)).bind fun _ => KeepsOr.pure _
    exact AfterAny.mono (hdone.afterOr _) fun s₅ h₅ => ((hkept.trans h₄).trans hedit).trans h₅
  split
  · rename_i p hp
    rw [hp] at hparameter
    have hmem : p.id ∈ nodes := hparameter (List.mem_append_left _ List.mem_cons_self)
    refine AfterOr.bind (AfterOr.lift ((sparesBodies_recordDeclaration hmem value).after s₃))
      fun _ s₄ h₄ => hrest s₄ h₄
  · exact hrest s₃ (.refl heads nodes s₃)

theorem sparesBodies_resolveProperty
    {decl : PropertyDecl} (hnodes : (Declaration.propertyDecl decl).signatureNodes ⊆ nodes)
    (scope : Nat) (container : Option Nat) :
    KeepsOr (SparesBodies heads nodes) (resolveProperty scope container decl) := by
  obtain ⟨hid, hparts⟩ := List.cons_subset.mp hnodes
  obtain ⟨htypeRef, haccessors⟩ := List.append_subset.mp hparts
  have haccessor : ∀ a ∈ decl.getter.toList ++ decl.setter.toList, a.signatureNodes ⊆ nodes :=
    fun a ha node hnode => haccessors (List.mem_flatMap.mpr ⟨a, ha, hnode⟩)
  have htype : KeepsOr (SparesBodies heads nodes) (decl.typeRef.mapM fun ref =>
      (resolveTypeRef scope ref : FaultyAnalysis Ty)) := by
    refine KeepsOr.optionMapM _ fun ref href => KeepsOr.lift ?_
    rw [Option.mem_def.mp href] at htypeRef
    exact sparesBodies_resolveTypeRef (htypeRef List.mem_cons_self) scope
  refine htype.bind fun type => ?_
  refine (KeepsOr.lift (sparesBodies_createProperty ..)).bind fun property => ?_
  refine (KeepsOr.lift (sparesBodies_recordDeclaration hid property)).bind fun _ => ?_
  refine (KeepsOr.optionMapM _ fun a ha => ?_).bind fun getter => ?_
  · refine sparesBodies_resolveGetter (haccessor a ?_) ..
    exact List.mem_append_left _ (Option.mem_toList.mpr ha)
  refine (KeepsOr.optionMapM _ fun a ha => ?_).bind fun setter => ?_
  · refine sparesBodies_resolveSetter (haccessor a ?_) ..
    exact List.mem_append_right _ (Option.mem_toList.mpr ha)
  have hedit : Keeps (SparesBodies heads nodes)
      (onDescriptors (·.editProperty property fun p => { p with getter, setter })) :=
    ⟨fun s => .of_descriptors (.editProperty s.descriptors property fun _ => rfl)⟩
  exact (KeepsOr.lift hedit).bind fun _ => KeepsOr.pure _

end Analysis

end DeclAnalysis
