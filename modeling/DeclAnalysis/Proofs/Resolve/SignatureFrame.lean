import DeclAnalysis.Proofs.Resolve.Signature
import DeclAnalysis.Proofs.Semantic.Hierarchy
import DeclAnalysis.Proofs.Semantic.Widening
import DeclAnalysis.Proofs.Session.Frame
import DeclAnalysis.Proofs.Tree.Spaces

/-!
# Signatures within a frame

Resolving supertypes and signatures declares no types: it stays within every frame that
admits the type references where they stand, whether or not a fault stops it.

Neither typing nor resolving a signature makes a function known, attaches anything to a class
or reports a misplaced constructor: only the registration of declarations does. Resolving a
signature moreover leaves all scopes as they are.
-/

namespace DeclAnalysis

/-- The supertypes that a class names are inner nodes of the class. -/
theorem ClassHead.supertypeRefs_subset (head : ClassHead) :
    head.supertypeRefs.map TypeRef.id ⊆ head.nodes.tail := by
  intro node hnode
  obtain ⟨ref, href, rfl⟩ := List.mem_map.mp hnode
  obtain ⟨specifier, hspecifier, htypeRef⟩ := List.mem_filterMap.mp href
  refine List.mem_append_right _ ?_
  exact List.mem_flatMap.mpr
    ⟨specifier, hspecifier, DelegationSpecifier.typeRef_mem_nodes htypeRef⟩

theorem parameterTypeRefs_subset
    {parameters : List Parameter} {p : Parameter} {refs : List TypeRef}
    (hrefs : parameterTypeRefs parameters ⊆ refs) (hp : p ∈ parameters) :
    p.typeRef.toList ⊆ refs :=
  fun _ href => hrefs (List.mem_flatMap.mpr ⟨p, hp, href⟩)

theorem parameterNodes_subset
    {parameters : List Parameter} {p : Parameter} {nodes : List Nat}
    (hnodes : parameterNodes parameters ⊆ nodes) (hp : p ∈ parameters) : p.nodes ⊆ nodes :=
  fun _ hnode => hnodes (List.mem_flatMap.mpr ⟨p, hp, hnode⟩)

namespace Session

/-- A relation that holds between the sessions before and after a change of descriptors in which
at most the supertypes of classes are touched. -/
class AllowsDescriptors (R : Session → Session → Prop) : Prop extends IsPreorder Session R where
  of_descriptors : ∀ {s : Session} {t : DescriptorTable}, s.descriptors.SameClasses t →
    R s { s with model.descriptors := t }

/-- A relation that holds between the sessions before and after a change of descriptors in which
no class is touched. -/
class AllowsFilling (R : Session → Session → Prop) : Prop extends IsPreorder Session R where
  of_filling : ∀ {s : Session} {t : DescriptorTable}, s.descriptors.SameClassData t →
    R s { s with model.descriptors := t }

instance {R : Session → Session → Prop} [AllowsDescriptors R] : AllowsFilling R where
  of_filling h := AllowsDescriptors.of_descriptors h.toSameClasses

instance (fr : Frame) : AllowsDescriptors fr.Within where
  of_descriptors h := .of_descriptors h.toSameTypes

end Session

namespace Analysis

open Session (AllowsDescriptors AllowsEntries AllowsFilling Frame Ground)
open Session.Frame (Within)

theorem keepsWithin_editClass
    {fr : Frame} (id : Nat) {f : ClassData → ClassData}
    (hf : ∀ data, (f data).memberScope = data.memberScope) :
    KeepsOr fr.Within (tryDescriptors (·.editClass id f)) :=
  keepsOr_tryDescriptors fun _ _ h => .of_descriptors (.editClass hf h)

variable {R : Session → Session → Prop}

/-! ### Descriptors -/

section

variable [hR : AllowsFilling R]

include hR

/-- A descriptor is added that stands for no type. -/
theorem keepsTypes_createDescriptor
    (name : String) (container : Option Nat) {kind : DescriptorKind}
    (htypes : kind.memberScope? = none) :
    Keeps R (createDescriptor name container kind) :=
  ⟨fun s => AllowsFilling.of_filling (.create s.descriptors name container htypes)⟩

theorem keepsTypes_editSignature (id : Nat) (f : Signature → Signature) :
    Keeps R (onDescriptors (·.editSignature id f)) :=
  ⟨fun s => AllowsFilling.of_filling (.editSignature s.descriptors id f)⟩

theorem keepsTypes_editProperty (id : Nat) (f : PropertyData → PropertyData) :
    Keeps R (onDescriptors (·.editProperty id f)) :=
  ⟨fun s => AllowsFilling.of_filling (.editProperty s.descriptors id f)⟩

theorem keepsTypes_fillPropertyType (property : Nat) (type : Ty) :
    Keeps R (onDescriptors (·.fillPropertyType property type)) :=
  ⟨fun s => AllowsFilling.of_filling (.fillPropertyType s.descriptors property type)⟩

theorem keepsTypes_setReturnType (function : Nat) (type : Ty) :
    KeepsOr R (setReturnType function type) := by
  refine keepsOr_tryDescriptors fun s t h => ?_
  unfold DescriptorTable.setReturnType at h
  split at h
  · obtain rfl := Except.ok.inj h
    exact AllowsFilling.of_filling (.editSignature ..)
  · cases h

omit hR in
theorem keepsTypes_setSupertypes
    [AllowsDescriptors R] (descriptor : Nat) (supertypes : List Ty) :
    KeepsOr R (tryDescriptors (·.setSupertypes descriptor supertypes)) :=
  keepsOr_tryDescriptors fun _ _ h => AllowsDescriptors.of_descriptors (.setSupertypes h)

end

/-! ### Supertypes -/

theorem keepsNotes_supertypeOf
    {nodes : List Nat} [AllowsEntries nodes R] (ref : TypeRef) (type : Ty) :
    Keeps R (supertypeOf ref type) := by
  unfold supertypeOf
  split
  · exact Keeps.pure _
  · exact Keeps.pure _
  · exact Keeps.pure _
  · exact (keeps_reportOther (by decide) ..).bind fun _ => Keeps.pure _

variable {g : Ground} {nodes : List Nat} {locals : List String} {refs : List TypeRef}
  [hR : g.Resolves nodes R] [hD : AllowsDescriptors R]

include hR hD

theorem keepsFrom_resolveClass
    {head : ClassHead} (hnodes : head.supertypeRefs.map TypeRef.id ⊆ nodes)
    (hrefs : head.supertypeRefs ⊆ refs) (scope descriptor : Nat) :
    KeepsOr (From (g.admits locals refs scope) R)
      (resolveClass scope head descriptor) := by
  refine KeepsOr.bind (KeepsOr.lift ?_) fun supertypes =>
    KeepsOr.from (keepsTypes_setSupertypes descriptor supertypes)
  refine (Keeps.mapM _ fun ref href => ?_).bind fun supertypes => Keeps.pure _
  have hmem : ref.id ∈ nodes := hnodes (List.mem_map_of_mem href)
  exact (keepsFrom_resolveTypeRef (hrefs href) hmem scope).bind fun type =>
    (keepsNotes_supertypeOf ref type).from

/-! ### Signatures -/

omit hD in
theorem keepsFrom_parameterType
    {p : Parameter} (hnodes : p.nodes ⊆ nodes) (hrefs : p.typeRef.toList ⊆ refs) (scope : Nat) :
    Keeps (From (g.admits locals refs scope) R) (parameterType scope p) := by
  unfold parameterType
  obtain ⟨-, hnodes⟩ := List.cons_subset.mp hnodes
  split
  · rename_i ref href
    rw [href] at hrefs
    exact keepsFrom_resolveTypeRef (hrefs List.mem_cons_self)
      (typeRef_mem_of_subset hnodes ref href) scope
  · exact (keeps_reportOther (by decide) ..).bind fun _ => Keeps.pure _

theorem keepsFrom_resolveParameter
    {p : Parameter} (hnodes : p.nodes ⊆ nodes) (hrefs : p.typeRef.toList ⊆ refs)
    (scope function : Nat) :
    Keeps (From (g.admits locals refs scope) R)
      (resolveParameter scope function p) := by
  have hid : p.id ∈ nodes := hnodes List.mem_cons_self
  refine (keepsFrom_parameterType hnodes hrefs scope).bind fun type => ?_
  refine Keeps.bind (keepsTypes_createDescriptor _ _ rfl).from
    fun descriptor => ?_
  exact (keeps_recordDeclaration hid descriptor).bind fun _ => Keeps.pure _

theorem keepsFrom_resolveSignature
    {parameters : List Parameter} (hnodes : parameterNodes parameters ⊆ nodes)
    (hrefs : parameterTypeRefs parameters ⊆ refs) (scope : Nat) (role : FunctionRole)
    (name : String) (container : Option Nat) :
    Keeps (From (g.admits locals refs scope) R)
      (resolveSignature scope role name container parameters) := by
  have hcreate : Keeps R (createDescriptor name container (newFunction role)) := by
    refine keepsTypes_createDescriptor name container ?_
    unfold newFunction
    split <;> rfl
  refine Keeps.bind hcreate.from fun function => ?_
  refine (Keeps.mapM _ fun p hp => keepsFrom_resolveParameter (parameterNodes_subset hnodes hp)
    (parameterTypeRefs_subset hrefs hp) scope function).bind fun descriptors => ?_
  have hedit : Keeps R (onDescriptors (·.editSignature function fun s =>
      { s with parameters := descriptors })) := keepsTypes_editSignature function _
  exact Keeps.bind hedit.from fun _ => Keeps.pure _

/-! ### Constructors and functions -/

omit hR in
theorem keepsTypes_declareParameterProperty
    [AllowsEntries nodes R] {p : Parameter} (hp : p.id ∈ nodes) (classId : Nat) (type : Ty) :
    Keeps R (declareParameterProperty classId p type) := by
  refine (keepsTypes_createDescriptor _ _ rfl).bind fun property => ?_
  exact (keeps_recordDeclaration hp property).bind fun _ => Keeps.pure _

/-- The primary constructor is resolved in the scope of the members of its class. -/
theorem keepsFrom_resolvePrimaryConstructor
    {head : ClassHead} (hnodes : parameterNodes (head.primaryConstructor.getD []) ⊆ nodes)
    (hrefs : parameterTypeRefs (head.primaryConstructor.getD []) ⊆ refs) (classId : Nat) :
    KeepsOr (From (fun s => ∀ data, s.descriptors.classData? classId = some data →
      g.admits locals refs data.memberScope s) R)
      (resolvePrimaryConstructor classId head) := by
  refine KeepsOr.of_afterOr fun s => ?_
  unfold resolvePrimaryConstructor
  cases hprimary : head.primaryConstructor with
  | none => exact fun _ => refl_of R s
  | some parameters =>
      rw [hprimary] at hnodes hrefs
      refine afterOr_bind.mpr (afterOr_get.mpr ?_)
      split
      · exact fun _ => refl_of R s
      rename_i data hdata
      have hrest : KeepsOr (From (g.admits locals refs data.memberScope) R) (do
          let constructor ← resolveSignature data.memberScope .primaryConstructor constructorName
            (some classId) parameters
          setReturnType constructor ((← get).descriptors.classType classId)
          let types := (← get).descriptors.parameterTypes constructor
          let properties ←
            (parameters.zip types).mapM fun entry =>
              declareParameterProperty classId entry.1 entry.2
          return (some constructor, properties) :
            FaultyAnalysis (Option Nat × List (String × Nat))) := by
        refine KeepsOr.bind (KeepsOr.lift (keepsFrom_resolveSignature hnodes hrefs ..))
          fun constructor => ?_
        refine KeepsOr.get_bind fun s₁ => ?_
        refine KeepsOr.bind (keepsTypes_setReturnType ..).from fun _ => ?_
        refine KeepsOr.get_bind fun s₂ => ?_
        refine KeepsOr.bind (KeepsOr.mapM _ fun entry hentry => ?_) fun _ => KeepsOr.pure _
        have hp : entry.1 ∈ parameters := (List.of_mem_zip hentry).1
        have hid : entry.1.id ∈ nodes := parameterNodes_subset hnodes hp List.mem_cons_self
        exact KeepsOr.from (KeepsOr.lift (keepsTypes_declareParameterProperty hid classId _))
      exact AfterAny.mono (hrest.afterOr s) fun _ h hs => h (hs data hdata)

theorem keepsFrom_resolveConstructor
    {decl : ConstructorDecl} (hnodes : decl.nodes ⊆ nodes) (hrefs : decl.typeRefs ⊆ refs)
    (scope classId : Nat) :
    KeepsOr (From (g.admits locals refs scope) R)
      (resolveConstructor scope classId decl) := by
  obtain ⟨hid, hparts⟩ := List.cons_subset.mp hnodes
  simp only [List.append_subset] at hparts
  simp only [ConstructorDecl.typeRefs, List.append_subset] at hrefs
  refine KeepsOr.bind (KeepsOr.lift (keepsFrom_resolveSignature hparts.1.1 hrefs.1.1 ..))
    fun constructor => ?_
  refine KeepsOr.get_bind fun s => ?_
  refine KeepsOr.bind (keepsTypes_setReturnType ..).from fun _ => ?_
  exact KeepsOr.bind (KeepsOr.lift (keeps_recordDeclaration hid constructor)) fun _ =>
    KeepsOr.pure _

theorem keepsFrom_resolveFunction
    {decl : FunctionDecl} (hnodes : decl.nodes ⊆ nodes) (hrefs : decl.typeRefs ⊆ refs)
    (scope : Nat) (container : Option Nat) :
    KeepsOr (From (g.admits locals refs scope) R)
      (resolveFunction scope container decl) := by
  obtain ⟨hid, hparts⟩ := List.cons_subset.mp hnodes
  simp only [List.append_subset] at hparts
  simp only [FunctionDecl.typeRefs, List.append_subset] at hrefs
  refine KeepsOr.bind (KeepsOr.lift (keepsFrom_resolveSignature hparts.1.1 hrefs.1.1 ..))
    fun function => ?_
  have hrecord : KeepsOr (From (g.admits locals refs scope) R) (do
      recordDeclaration decl.id function
      return function : FaultyAnalysis Nat) :=
    KeepsOr.bind (KeepsOr.lift (keeps_recordDeclaration hid function)) fun _ => KeepsOr.pure _
  dsimp only
  split
  · rename_i ref href
    rw [href] at hparts hrefs
    refine KeepsOr.bind (KeepsOr.lift (keepsFrom_resolveTypeRef (hrefs.1.2 List.mem_cons_self)
      (hparts.1.2 List.mem_cons_self) scope)) fun type => ?_
    exact KeepsOr.bind (keepsTypes_setReturnType ..).from fun _ => hrecord
  · exact hrecord

/-! ### Properties -/

theorem keepsFrom_resolveGetter
    {getter : Accessor} (hnodes : getter.nodes ⊆ nodes) (hrefs : getter.typeRefs ⊆ refs)
    (scope property : Nat) (name : String) (propertyType : Option Ty) :
    KeepsOr (From (g.admits locals refs scope) R)
      (resolveGetter scope property name propertyType getter) := by
  obtain ⟨hid, hparts⟩ := List.cons_subset.mp hnodes
  simp only [List.append_subset] at hparts
  simp only [Accessor.typeRefs, List.append_subset] at hrefs
  refine KeepsOr.bind (KeepsOr.lift (keepsFrom_resolveSignature (List.nil_subset _)
    (List.nil_subset _) ..)) fun function => ?_
  have hset : ∀ type : Option Ty,
      KeepsOr (From (g.admits locals refs scope) R) (declareGetter getter function type) := by
    intro type
    unfold declareGetter
    have hrecord : KeepsOr (From (g.admits locals refs scope) R) (do
        recordDeclaration getter.id function
        return function : FaultyAnalysis Nat) :=
      KeepsOr.bind (KeepsOr.lift (keeps_recordDeclaration hid function)) fun _ => KeepsOr.pure _
    cases type with
    | none => exact hrecord
    | some type => exact KeepsOr.bind (keepsTypes_setReturnType ..).from fun _ => hrecord
  cases href : getter.returnType with
  | none => exact hset propertyType
  | some ref =>
      rw [href] at hparts hrefs
      have hresolve : Keeps (From (g.admits locals refs scope) R)
          (resolveTypeRef scope ref) :=
        keepsFrom_resolveTypeRef (hrefs.1.2 List.mem_cons_self) (hparts.1.2 List.mem_cons_self) _
      exact KeepsOr.bind (KeepsOr.map some (KeepsOr.lift hresolve)) fun type => hset type

omit hD in
theorem keepsFrom_setterParameterType
    {parameter : Option Parameter} (hnodes : parameterNodes parameter.toList ⊆ nodes)
    (hrefs : parameterTypeRefs parameter.toList ⊆ refs) (scope : Nat) (propertyType : Option Ty) :
    Keeps (From (g.admits locals refs scope) R)
      (setterParameterType scope propertyType parameter) := by
  unfold setterParameterType
  split
  · rename_i ref href
    obtain ⟨p, rfl, htypeRef⟩ := Option.bind_eq_some_iff.mp href
    have hp : p ∈ (some p).toList := List.mem_cons_self
    have hpnodes := (List.cons_subset.mp (parameterNodes_subset hnodes hp)).2
    have hprefs := parameterTypeRefs_subset hrefs hp
    rw [htypeRef] at hprefs
    exact (keepsFrom_resolveTypeRef (hprefs List.mem_cons_self)
      (typeRef_mem_of_subset hpnodes ref htypeRef) scope).map some
  · exact Keeps.pure _

theorem keepsFrom_resolveSetter
    {setter : Accessor} (hnodes : setter.nodes ⊆ nodes) (hrefs : setter.typeRefs ⊆ refs)
    (scope property : Nat) (name : String) (propertyType : Option Ty) :
    KeepsOr (From (g.admits locals refs scope) R)
      (resolveSetter scope property name propertyType setter) := by
  obtain ⟨hid, hparts⟩ := List.cons_subset.mp hnodes
  simp only [List.append_subset] at hparts
  simp only [Accessor.typeRefs, List.append_subset] at hrefs
  refine KeepsOr.bind (KeepsOr.lift (keepsFrom_resolveSignature (List.nil_subset _)
    (List.nil_subset _) ..)) fun function => ?_
  refine KeepsOr.bind (KeepsOr.lift (keepsFrom_setterParameterType hparts.1.1 hrefs.1.1 ..))
    fun type => ?_
  refine KeepsOr.bind (KeepsOr.from (KeepsOr.lift
    (keepsTypes_createDescriptor _ _ rfl))) fun value => ?_
  have hconclude : KeepsOr (From (g.admits locals refs scope) R) (do
      onDescriptors (·.editSignature function fun s =>
        { s with parameters := s.parameters ++ [value] })
      setReturnType function .unit
      recordDeclaration setter.id function
      return function : FaultyAnalysis Nat) := by
    refine KeepsOr.bind (KeepsOr.from (KeepsOr.lift
      (keepsTypes_editSignature function _))) fun _ => ?_
    refine KeepsOr.bind (keepsTypes_setReturnType ..).from fun _ => ?_
    exact KeepsOr.bind (KeepsOr.lift (keeps_recordDeclaration hid function)) fun _ =>
      KeepsOr.pure _
  dsimp only
  split
  · rename_i p hp
    have hmem : p.id ∈ nodes := by
      refine parameterNodes_subset hparts.1.1 ?_ List.mem_cons_self
      rw [hp]
      exact List.mem_cons_self
    exact KeepsOr.bind (KeepsOr.lift (keeps_recordDeclaration hmem value)) fun _ => hconclude
  · exact hconclude

theorem keepsFrom_resolveProperty
    {decl : PropertyDecl} (hnodes : decl.nodes ⊆ nodes) (hrefs : decl.typeRefs ⊆ refs)
    (scope : Nat) (container : Option Nat) :
    KeepsOr (From (g.admits locals refs scope) R)
      (resolveProperty scope container decl) := by
  obtain ⟨hid, hparts⟩ := List.cons_subset.mp hnodes
  simp only [List.append_subset] at hparts
  simp only [PropertyDecl.typeRefs, List.append_subset] at hrefs
  refine KeepsOr.bind (KeepsOr.optionMapM _ fun ref href => KeepsOr.lift ?_) fun type => ?_
  · have hmem : ref ∈ decl.typeRef.toList := Option.mem_toList.mpr href
    exact keepsFrom_resolveTypeRef (hrefs.1.1.1 hmem)
      (hparts.1.1.1 (List.mem_map_of_mem hmem)) scope
  refine KeepsOr.bind (KeepsOr.from (KeepsOr.lift
    (keepsTypes_createDescriptor _ _ rfl))) fun property => ?_
  refine KeepsOr.bind (KeepsOr.lift (keeps_recordDeclaration hid property)) fun _ => ?_
  refine KeepsOr.bind (KeepsOr.optionMapM _ fun getter hgetter => ?_) fun getter => ?_
  · have hmem := Option.mem_toList.mpr hgetter
    refine keepsFrom_resolveGetter (fun node h => ?_) (fun ref h => ?_) ..
    · exact hparts.1.2 (List.mem_flatMap.mpr ⟨getter, hmem, h⟩)
    · exact hrefs.1.2 (List.mem_flatMap.mpr ⟨getter, hmem, h⟩)
  refine KeepsOr.bind (KeepsOr.optionMapM _ fun setter hsetter => ?_) fun setter => ?_
  · have hmem := Option.mem_toList.mpr hsetter
    refine keepsFrom_resolveSetter (fun node h => ?_) (fun ref h => ?_) ..
    · exact hparts.2 (List.mem_flatMap.mpr ⟨setter, hmem, h⟩)
    · exact hrefs.2 (List.mem_flatMap.mpr ⟨setter, hmem, h⟩)
  exact KeepsOr.bind (KeepsOr.from (KeepsOr.lift (keepsTypes_editProperty property _))) fun _ =>
    KeepsOr.pure _

end Analysis

/-! ## What is reserved for registration -/

namespace Session

/-- The second session comes from the first one without any step of registration. Something
may have been recorded to be declared by the given nodes. -/
structure Reserves (nodes : List Nat) (s s' : Session) : Prop where
  declaration?_eq : ∀ {node}, node ∉ nodes →
    s'.trace.declaration? node = s.trace.declaration? node
  widens : s.scopes.Widens s'.scopes
  functions_eq : ∀ id, (s'.scopes.get id).bindings.functions = (s.scopes.get id).bindings.functions
  sameClasses : s.descriptors.SameClasses s'.descriptors
  misplaced_eq : s'.misplaced = s.misplaced

/-- The second session comes from the first one by resolving signatures. No expression is
remarked upon. -/
structure Signs (nodes : List Nat) (s s' : Session) : Prop where
  declaration?_eq : ∀ {node}, node ∉ nodes →
    s'.trace.declaration? node = s.trace.declaration? node
  scopes_eq : s'.scopes = s.scopes
  sameClasses : s.descriptors.SameClasses s'.descriptors
  misplaced_eq : s'.misplaced = s.misplaced
  reports_eq : ∀ {code : DiagnosticCode}, code.IsRemark → s'.reports code = s.reports code

variable {nodes : List Nat} {s s' : Session}

namespace Reserves

instance (nodes : List Nat) : IsPreorder Session (Reserves nodes) where
  refl _ := ⟨fun _ => rfl, .refl _, fun _ => rfl, .refl _, rfl⟩
  trans _ _ _ h h' := ⟨fun hnode => (h'.declaration?_eq hnode).trans (h.declaration?_eq hnode),
    h.widens.trans h'.widens, fun id => (h'.functions_eq id).trans (h.functions_eq id),
    h.sameClasses.trans h'.sameClasses, h'.misplaced_eq.trans h.misplaced_eq⟩

theorem of_notes (h : Notes nodes s s') : Reserves nodes s s' := by
  have hscopes : s'.scopes = s.scopes := congrArg Model.scopes h.model_eq
  have hdescriptors : s'.descriptors = s.descriptors := congrArg Model.descriptors h.model_eq
  refine ⟨fun hnode => h.types.follows.declaration?_eq hnode, ?_, fun id => ?_, ?_, h.misplaced_eq⟩
  · rw [hscopes]
    exact .refl _
  · rw [hscopes]
  · rw [hdescriptors]
    exact .refl _

/-- Scopes are added or changed, but no functions are bound. -/
theorem of_scopes
    {t : ScopeTree} (hwidens : s.scopes.Widens t)
    (hfunctions : ∀ id, (t.get id).bindings.functions = (s.scopes.get id).bindings.functions) :
    Reserves nodes s { s with model.scopes := t } :=
  ⟨fun _ => rfl, hwidens, hfunctions, .refl _, rfl⟩

/-- Other names than those of functions are bound. -/
theorem bind
    (s : Session) (scope : Nat) {f : Bindings → Bindings}
    (hf : ∀ b, (f b).functions = b.functions) :
    Reserves nodes s { s with model.scopes := s.model.scopes.bind scope f } := by
  refine of_scopes (.bind s.scopes scope f) fun id => ?_
  exact s.scopes.apply_get_modify (fun s => s.bindings.functions)
    (fun s => { s with bindings := f s.bindings }) (fun s => hf s.bindings) _ id

theorem createScope (s : Session) (kind : ScopeKind) (parent owner : Option Nat) :
    Reserves nodes s { s with model.scopes := (s.model.scopes.create kind parent owner).2 } :=
  of_scopes (.create s.scopes kind parent owner) fun id =>
    congrArg Bindings.functions (s.scopes.bindings_get_create kind parent owner id)

end Reserves

/-- A type reference is resolved, or reported as one that cannot be. -/
theorem signs_resolveTypeRef (nodes : List Nat) (s : Session) (scope : Nat) (ref : TypeRef) :
    After (Analysis.resolveTypeRef scope ref) s fun _ => Signs nodes s := by
  refine after_bind.mpr (after_get.mpr ?_)
  cases s.trace.typeReference? ref.id with
  | some type => exact ⟨fun _ => rfl, rfl, .refl _, rfl, fun _ => rfl⟩
  | none =>
      cases s.model.lookupType? scope ref.name with
      | some type => exact ⟨fun _ => rfl, rfl, .refl _, rfl, fun _ => rfl⟩
      | none =>
          have hremark : ¬DiagnosticCode.unresolvedReference.IsRemark := by decide
          refine ⟨fun _ => rfl, rfl, .refl _, ?_,
            s.reports_push_of_not_isRemark (d := .unresolvedType ref.id ref.name) hremark⟩
          refine (s.misplaced_push (.unresolvedType ref.id ref.name)).trans ?_
          rw [if_neg nofun, List.append_nil]

theorem Signs.reserves (h : Signs nodes s s') : Reserves nodes s s' := by
  refine ⟨h.declaration?_eq, ?_, fun id => ?_, h.sameClasses, h.misplaced_eq⟩
  · rw [h.scopes_eq]
    exact .refl _
  · rw [h.scopes_eq]

instance (nodes : List Nat) : AllowsNotes nodes (Reserves nodes) where
  of_notes := .of_notes

instance (nodes : List Nat) : AllowsRemarks .typeMismatch nodes (Reserves nodes) where
  of_remark {s node} _ message := by
    refine ⟨fun _ => rfl, .refl _, fun _ => rfl, .refl _, ?_⟩
    refine (s.misplaced_push (.ofCode .typeMismatch node message)).trans ?_
    rw [if_neg nofun, List.append_nil]

instance (nodes : List Nat) : Ground.free.Allows nodes (Reserves nodes) where
  stable_admits _ _ := trivial
  stable_fresh _ _ := trivial
  admits_of_fresh _ _ := trivial
  createVariable name container _ _ := ⟨fun s =>
    ⟨fun _ => rfl, .refl _, fun _ => rfl, .create s.descriptors name container rfl, rfl⟩⟩
  resolveTypeRef {_ _ scope s ref} _ _ _ :=
    (signs_resolveTypeRef nodes s scope ref).mono fun _ _ h => h.reserves
  createScope {_ _ scope s} _ kind owner := ⟨.createScope s kind (some scope) owner, trivial⟩
  addVariable {_ _ _ s} _ _ _ _ := Reserves.bind s _ fun _ => rfl
  bind {_ _ s _} _ _ _ hfunctions := Reserves.bind s _ hfunctions

instance (nodes : List Nat) : IsPreorder Session (Signs nodes) where
  refl _ := ⟨fun _ => rfl, rfl, .refl _, rfl, fun _ => rfl⟩
  trans _ _ _ h h' := ⟨fun hnode => (h'.declaration?_eq hnode).trans (h.declaration?_eq hnode),
    h'.scopes_eq.trans h.scopes_eq, h.sameClasses.trans h'.sameClasses,
    h'.misplaced_eq.trans h.misplaced_eq,
    fun hcode => (h'.reports_eq hcode).trans (h.reports_eq hcode)⟩

instance (nodes : List Nat) : AllowsNotes nodes (Signs nodes) where
  of_notes {s s'} h := by
    have hdescriptors : s'.descriptors = s.descriptors := congrArg Model.descriptors h.model_eq
    refine ⟨fun hnode => h.types.follows.declaration?_eq hnode, congrArg Model.scopes h.model_eq,
      ?_, h.misplaced_eq, h.reports_eq⟩
    rw [hdescriptors]
    exact .refl _

instance (nodes : List Nat) : Ground.free.Resolves nodes (Signs nodes) where
  stable_admits _ _ := trivial
  resolveTypeRef {_ _ scope s ref} _ _ _ := signs_resolveTypeRef nodes s scope ref

instance (nodes : List Nat) : AllowsDescriptors (Signs nodes) where
  of_descriptors h := ⟨fun _ => rfl, rfl, h, rfl, fun _ => rfl⟩

end Session

end DeclAnalysis
