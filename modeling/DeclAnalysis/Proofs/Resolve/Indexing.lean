import DeclAnalysis.Proofs.Resolve.Threshold
import DeclAnalysis.Proofs.Tree.PropertySites

/-!
# Properties and their classes

Registering makes a new descriptor for every property and enters it among those of the class that
it stands in. The parameters of a class come before its members, and they alone get backing fields
at once. So the tables list the properties of a class in the order of the tree.
-/

namespace DeclAnalysis

namespace Declaration

variable {p : List (Option Declaration × Declaration)} {q : Option Declaration × Declaration}

theorem signatureNodes_subset_ownNodes (d : Declaration) : d.signatureNodes ⊆ d.ownNodes := by
  intro node hnode
  have hcount := count_parts_le node d
  have hpos := List.count_pos_iff.mpr hnode
  exact List.count_pos_iff.mp (by omega)

theorem sitesAmong_append_singleton
    {node : Nat} (h : ∀ head ∈ q.2.classHead?, head.id = node → p.filterMap (propertyOf? node) = []) :
    sitesAmong (p ++ [q]) node = sitesAmong p node ++ sitesAmong [q] node := by
  unfold sitesAmong
  simp only [List.filterMap_append, List.filter_append, List.flatMap_append, List.map_append]
  cases hclass : q.2.classHead? with
  | none => simp [hclass]
  | some head =>
      by_cases hnode : head.id = node
      · simp [h head hclass hnode]
      · simp [hclass, hnode]

end Declaration

namespace Tables

theorem propertiesOf_indexProperty (t : Tables) (container property d : Nat) :
    (t.indexProperty container property).propertiesOf d =
      t.propertiesOf d ++ if container = d then [property] else [] := by
  unfold propertiesOf indexProperty
  dsimp only
  rw [Std.TreeMap.getD_insert]
  by_cases hd : container = d
  · simp [hd]
  · simp [hd]

theorem propertiesOf_addProperty
    (t : Tables) (decl : PropertyDecl) (property scope : Nat) (container : Option Nat) (d : Nat) :
    (t.addProperty decl property scope container).propertiesOf d =
      t.propertiesOf d ++ if container = some d then [property] else [] := by
  cases container with
  | none => exact (List.append_nil _).symm
  | some c =>
      refine (propertiesOf_indexProperty _ c property d).trans ?_
      simp only [Option.some.injEq]
      rfl

end Tables

/-- A node declares what has been recorded for it last. -/
theorem Trace.declaration?_recordDeclaration (t : Trace) (node descriptor node' : Nat) :
    (t.recordDeclaration node descriptor).declaration? node' =
      if node = node' then some descriptor else t.declaration? node' := by
  unfold Trace.declaration? Trace.recordDeclaration
  rw [Std.TreeMap.getElem?_insert]
  simp only [Nat.compare_eq_eq]

/-- The properties that have been recorded for the nodes. -/
def Session.declared (s : Session) (sites : List PropertySite) : List (Option Nat) :=
  sites.map fun x => s.trace.declaration? x.node

namespace Analysis

variable {s : Session}

/-! ## New properties -/

/-- For each node a property of the name has been recorded, which is new and is no other one's. -/
structure DeclaresEach
    (s : Session) (sites : List PropertySite) (properties : List (String × Nat)) (s' : Session) :
    Prop where
  entries_eq : sites.map (fun x => (x.name, s'.trace.declaration? x.node)) =
    properties.map (Prod.map id some)
  fresh : ∀ property ∈ properties, s.descriptors.size ≤ property.2
  distinct : (properties.map Prod.snd).Nodup

namespace DeclaresEach

variable {sites : List PropertySite} {properties : List (String × Nat)} {s' : Session}
  (h : DeclaresEach s sites properties s')

include h

theorem declared_eq : s'.declared sites = (properties.map Prod.snd).map some := by
  have heq := congrArg (List.map Prod.snd) h.entries_eq
  rw [List.map_map, List.map_map] at heq
  rw [List.map_map]
  exact heq

theorem exists_mem {x : PropertySite} (hx : x ∈ sites) :
    ∃ property, (x.name, property) ∈ properties ∧ s'.trace.declaration? x.node = some property := by
  have hmem := List.mem_map_of_mem (f := fun x => (x.name, s'.trace.declaration? x.node)) hx
  rw [h.entries_eq] at hmem
  obtain ⟨property, hproperty, heq⟩ := List.mem_map.mp hmem
  obtain ⟨hname, hdeclared⟩ := Prod.mk.inj heq
  exact ⟨property.2, hname ▸ hproperty, hdeclared.symm⟩

end DeclaresEach

theorem afterOr_declareParameterProperties
    (classId : Nat) (entries : List (Parameter × Ty))
    (hnodup : (entries.map fun e => e.1.id).Nodup) (s : Session) :
    AfterOr (entries.mapM fun e =>
        (declareParameterProperty classId e.1 e.2 : FaultyAnalysis (String × Nat))) s
      (fun properties s' =>
        DeclaresEach s (entries.map fun e => ⟨e.1.id, e.1.name, true⟩) properties s' ∧
          ∀ node ∉ entries.map fun e => e.1.id,
            s'.trace.declaration? node = s.trace.declaration? node) fun _ _ => True := by
  induction entries generalizing s with
  | nil => exact ⟨⟨rfl, nofun, List.nodup_nil⟩, fun _ _ => rfl⟩
  | cons e rest ih =>
      obtain ⟨hid, hrest⟩ := List.nodup_cons.mp hnodup
      have hfirst : After (declareParameterProperty classId e.1 e.2) s fun property s₁ =>
          property = (e.1.name, s.descriptors.size) ∧
            s₁.descriptors.size = s.descriptors.size + 1 ∧
              s₁.trace.declaration? e.1.id = some s.descriptors.size ∧
                ∀ node, node ≠ e.1.id →
                  s₁.trace.declaration? node = s.trace.declaration? node := by
        have hmap := s.trace.declaration?_recordDeclaration e.1.id s.descriptors.size
        refine ⟨rfl, Array.size_push _, (hmap e.1.id).trans (if_pos rfl), fun node hne => ?_⟩
        exact (hmap node).trans (if_neg hne.symm)
      rw [List.mapM_cons]
      refine AfterOr.bind (AfterOr.lift hfirst) fun property s₁ h₁ => ?_
      obtain ⟨rfl, hsize, hdeclared, hother⟩ := h₁
      refine AfterOr.bind (ih hrest s₁) fun properties s₂ hs₂ => ?_
      obtain ⟨h₂, hkept⟩ := hs₂
      refine afterOr_pure.mpr ⟨⟨?_, fun property hproperty => ?_, ?_⟩, fun node hnode => ?_⟩
      · have hdeclared₂ := (hkept e.1.id hid).trans hdeclared
        exact List.cons_eq_cons.mpr ⟨Prod.ext rfl hdeclared₂, h₂.entries_eq⟩
      · rcases List.mem_cons.mp hproperty with rfl | hproperty
        · exact Nat.le_refl _
        · have hle := h₂.fresh property hproperty
          omega
      · refine List.nodup_cons.mpr ⟨fun hmem => ?_, h₂.distinct⟩
        obtain ⟨property, hproperty, heq⟩ := List.mem_map.mp hmem
        have hle := h₂.fresh property hproperty
        omega
      · rw [List.map_cons, List.mem_cons, not_or] at hnode
        rw [hkept node hnode.2, hother node hnode.1]

/-- The parameters of a primary constructor declare properties. -/
theorem afterOr_resolvePrimaryConstructor_declares
    (classId : Nat) {head : ClassHead}
    (hnodup : ((head.primaryConstructor.getD []).map Parameter.id).Nodup) (s : Session) :
    AfterOr (resolvePrimaryConstructor classId head) s
      (fun resolved s' => DeclaresEach s head.sites resolved.2 s') fun _ _ => True := by
  unfold resolvePrimaryConstructor ClassHead.sites
  cases hprimary : head.primaryConstructor with
  | none => exact ⟨rfl, nofun, List.nodup_nil⟩
  | some parameters =>
      rw [hprimary] at hnodup
      refine afterOr_bind.mpr (afterOr_get.mpr ?_)
      split
      · trivial
      refine AfterOr.bind (AfterOr.lift (after_resolveSignature_newFunction (fun _ => False) ..))
        fun constructor s₁ h₁ => ?_
      obtain ⟨signature, hnew, hlength⟩ := h₁
      refine afterOr_bind.mpr (afterOr_get.mpr ?_)
      have hset := afterOk_setReturnType_newFunction hnew (s₁.descriptors.classType classId)
      refine AfterOr.bind hset.afterOr fun _ s₂ h₂ => ?_
      refine afterOr_bind.mpr (afterOr_get.mpr ?_)
      have htypes : (s₂.descriptors.parameterTypes constructor).length = parameters.length := by
        have hsignature := DescriptorTable.signature?_editSignature_self hnew.signature?
          fun s => { s with returnType := some (s₁.descriptors.classType classId) }
        rw [← h₂.2] at hsignature
        unfold DescriptorTable.parameterTypes
        rw [hsignature]
        exact (List.length_map _).trans hlength
      have hzip : (parameters.zip (s₂.descriptors.parameterTypes constructor)).map Prod.fst =
          parameters := List.map_fst_zip htypes.ge
      have hids : ((parameters.zip (s₂.descriptors.parameterTypes constructor)).map
          fun e => e.1.id) = parameters.map Parameter.id := by
        rw [← hzip, List.map_map, hzip]
        rfl
      have hproperties := afterOr_declareParameterProperties classId
        (parameters.zip (s₂.descriptors.parameterTypes constructor)) (hids ▸ hnodup) s₂
      refine AfterOr.bind hproperties fun properties s₃ hs₃ => ?_
      have h₃ := hs₃.1
      have hsites : ((parameters.zip (s₂.descriptors.parameterTypes constructor)).map
          fun e => (⟨e.1.id, e.1.name, true⟩ : PropertySite)) =
            parameters.map fun p => ⟨p.id, p.name, true⟩ := by
        rw [← hzip, List.map_map, hzip]
        rfl
      rw [hsites] at h₃
      exact ⟨h₃.entries_eq, fun property hproperty =>
        h₂.1.size_le.trans (h₃.fresh property hproperty), h₃.distinct⟩

/-- A declared property is new. -/
theorem afterOr_resolveProperty_fresh
    (scope : Nat) (container : Option Nat) (decl : PropertyDecl) (s : Session) :
    AfterOr (resolveProperty scope container decl) s
      (fun property _ => s.descriptors.size ≤ property) fun _ _ => True := by
  have htype : AfterOk
      (decl.typeRef.mapM fun ref => (resolveTypeRef scope ref : FaultyAnalysis Ty)) s
        fun _ => Session.Types (typeRefNodes decl.typeRef) s :=
    AfterOk.optionMapM_lift _ fun ref href =>
      keeps_resolveTypeRef (typeRef_mem_of_subset (List.Subset.refl _) ref href) scope
  refine AfterOr.bind htype.afterOr fun type s₁ h₁ => ?_
  have hcreate : After (createDescriptor decl.name container
      (.propertyKind { mutable := decl.mutable, type })) s₁ fun property _ =>
        s.descriptors.size ≤ property := (h₁.adds fun _ => False).size_le
  refine AfterOr.bind (AfterOr.lift hcreate) fun property s₂ h₂ => ?_
  refine AfterOr.bind (AfterOr.trivial _ s₂) fun _ s₃ _ => ?_
  refine AfterOr.bind (AfterOr.trivial _ s₃) fun getter s₄ _ => ?_
  refine AfterOr.bind (AfterOr.trivial _ s₄) fun setter s₅ _ => ?_
  exact AfterOr.bind (AfterOr.trivial _ s₅) fun _ s₆ _ => h₂

end Analysis

namespace PassState

open Declaration (propertyOf? sitesAmong)

variable {P p : List (Option Declaration × Declaration)} {q : Option Declaration × Declaration}
  {s₀ s s' : PassState} {around : Option Declaration} {scope : Nat} {nodes : List Nat}

/-! ## One declaration -/

/-- What registering a declaration, given with what is around it, does about properties: they are
new, they are entered for the class that they belong to, and parameters get backing fields. -/
structure Indexes (q : Option Declaration × Declaration) (s s' : PassState) : Prop where
  kinded : s'.WellKinded
  matures : s.descriptors.Matures s'.descriptors
  quiet : s'.toSession.Quiet
  named : ∀ x ∈ q.2.sites, ∃ property, s'.trace.declaration? x.node = some property ∧
    s'.descriptors.Names .propertySort x.name property ∧ s.descriptors.size ≤ property
  distinct : (s'.declared q.2.sites).Nodup
  propertiesOf_eq : ∀ {head : ClassHead} {d : Nat}, (head, d) ∈ s.tables.classes.toList →
    (s'.tables.propertiesOf d).map some =
      (s.tables.propertiesOf d).map some ++ s'.declared (sitesAmong [q] head.id)
  hasBackingField_iff : ∀ property, s'.trace.hasBackingField property ↔
    s.trace.hasBackingField property ∨ some property ∈ s'.declared q.2.parameterSites

/-- A declaration that has nothing to do with properties. -/
theorem Indexes.of_sparesBodies
    {heads : List Nat} (hkinded : s'.WellKinded) (hmatures : s.descriptors.Matures s'.descriptors)
    (hquiet : s.toSession.Quiet) (h : SparesBodies heads nodes s s') (hq : q.2.sites = []) :
    Indexes q s s' where
  kinded := hkinded
  matures := hmatures
  quiet := h.session.quiet hquiet
  named := by
    rw [hq]
    nofun
  distinct := by
    rw [hq]
    exact List.nodup_nil
  propertiesOf_eq {head d} _ := by
    have hnone : sitesAmong [q] head.id = [] := by
      refine List.eq_nil_of_subset_nil (List.Subset.trans (Declaration.sitesAmong_subset _) ?_)
      rw [List.flatMap_singleton, hq]
      exact List.Subset.refl _
    unfold Tables.propertiesOf
    rw [h.propertiesByContainer_eq, hnone]
    exact (List.append_nil _).symm
  hasBackingField_iff property := by
    rw [h.session.hasBackingField_eq hquiet, (List.append_eq_nil_iff.mp hq).1]
    simp [Session.declared]

theorem KeepsPlaces.lt_size
    (h₀ : Ready P s₀) (h : KeepsPlaces nodes s₀ s) (hscope : s₀.Houses around scope) :
    scope < s.scopes.size := by
  rw [h.places.size_eq]
  exact h₀.owned.houses_lt hscope

/-- What belongs to a class stands in it. -/
theorem KeepsPlaces.containingDeclaration?_eq_some_iff
    (h₀ : Ready P s₀) (h : KeepsPlaces nodes s₀ s) (hscope : s₀.Houses around scope)
    (haround : ∀ e ∈ around, e ∈ P.map Prod.snd) {head : ClassHead} {d : Nat}
    (hd : (head, d) ∈ s₀.tables.classes.toList) :
    s.scopes.containingDeclaration? scope = some d ↔
      (around.bind Declaration.classHead?).map ClassHead.id = some head.id := by
  cases hclass : around.bind Declaration.classHead? with
  | some head' =>
      obtain ⟨members, rfl⟩ := Declaration.exists_classDecl_of_classHead? hclass
      obtain ⟨q, hq, hself⟩ := List.mem_map.mp (haround _ rfl)
      obtain ⟨d', hd', howning⟩ := h.owningClass?_eq_some h₀.owned hscope
      have hentry := h₀.mem_classes hq hself hd'
      rw [(Option.filter_eq_some_iff.mp howning).1, Option.map_some]
      constructor
      · intro heq
        obtain rfl := Option.some.inj heq
        rw [h₀.head_eq hentry hd]
      · intro heq
        rw [Option.some.inj heq, h₀.declaration?_eq hd] at hd'
        exact hd'.symm
  | none =>
      have hother : ∀ head members, around ≠ some (.classDecl head members) := by
        rintro head' members rfl
        cases hclass
      have hnone := h.owningClass?_eq_none h₀.owned hscope hother
      refine ⟨fun heq => ?_, nofun⟩
      -- The scope does not belong to any class, but the descriptor is that of one.
      have hisSome := h₀.owned.classes_isSome d (List.mem_map_of_mem (f := Prod.snd) hd)
      obtain ⟨data, hdata⟩ := Option.isSome_iff_exists.mp hisSome
      obtain ⟨data', hdata', -⟩ := h.types.classData? hdata
      refine absurd (Option.isSome_of_eq_some hdata') ?_
      exact Option.filter_eq_none_iff.mp hnone d heq

/-- What has been registered about properties, of declarations that are given with what is around
each. -/
structure Indexed (p : List (Option Declaration × Declaration)) (s : PassState) : Prop where
  named : ∀ x ∈ p.flatMap fun q => q.2.sites, ∃ property,
    s.trace.declaration? x.node = some property ∧
      s.descriptors.Names .propertySort x.name property
  distinct : (s.declared (p.flatMap fun q => q.2.sites)).Nodup
  propertiesOf_eq : ∀ {head : ClassHead} {d : Nat}, (head, d) ∈ s.tables.classes.toList →
    (s.tables.propertiesOf d).map some = s.declared (sitesAmong p head.id)
  hasBackingField_iff : ∀ property, s.trace.hasBackingField property ↔
    some property ∈ s.declared (p.flatMap fun q => q.2.parameterSites)

/-- What stands in a class comes after the class itself. -/
theorem filterMap_propertyOf?_eq_nil
    (hfresh : ∀ q' ∈ p, q'.2.id ∉ q.2.ownNodes) (hclosed : ∀ q ∈ p, ∀ e ∈ q.1, e ∈ p.map Prod.snd)
    {head : ClassHead} (hclass : q.2.classHead? = some head) :
    p.filterMap (propertyOf? head.id) = [] := by
  obtain ⟨members, hself⟩ := Declaration.exists_members_of_classHead? hclass
  refine List.filterMap_eq_nil_iff.mpr fun q' hq' => ?_
  refine Option.eq_none_iff_forall_ne_some.mpr fun decl hdecl => ?_
  obtain ⟨-, head', haround, hid⟩ := Declaration.exists_of_propertyOf? hdecl
  obtain ⟨members', heq⟩ := Declaration.exists_classDecl_of_classHead? haround
  obtain ⟨q'', hq'', hself'⟩ := List.mem_map.mp (hclosed q' hq' _ heq)
  have hmem := hfresh q'' hq''
  rw [hself', hself] at hmem
  exact hmem (List.mem_cons.mpr (.inl hid))

/-- One more declaration is registered, after what is around it. -/
theorem Indexed.step
    (hfresh : ∀ q' ∈ p, ∀ node ∈ q'.2.ownNodes, node ∉ q.2.ownNodes)
    (hclosed : ∀ q ∈ p, ∀ e ∈ q.1, e ∈ p.map Prod.snd) (hkeeps : KeepsPlaces q.2.innerNodes s s')
    (h : Indexed p s) (hindexes : Indexes q s s') : Indexed (p ++ [q]) s' := by
  have hsame : ∀ x ∈ p.flatMap fun q => q.2.sites,
      s'.trace.declaration? x.node = s.trace.declaration? x.node := by
    intro x hx
    obtain ⟨q', hq', hx⟩ := List.mem_flatMap.mp hx
    refine hkeeps.declaration?_eq fun hmem => hfresh q' hq' x.node ?_ (q.2.innerNodes_subset hmem)
    exact q'.2.signatureNodes_subset_ownNodes (Declaration.node_mem_signatureNodes hx)
  have hdeclared : ∀ {sites : List PropertySite}, sites ⊆ p.flatMap (fun q => q.2.sites) →
      s'.declared sites = s.declared sites := fun hsub =>
    List.map_congr_left fun x hx => hsame x (hsub hx)
  refine ⟨fun x hx => ?_, ?_, fun {head d} hd => ?_, fun property => ?_⟩
  · rw [List.flatMap_append, List.flatMap_singleton] at hx
    rcases List.mem_append.mp hx with hx | hx
    · obtain ⟨property, hnode, hnames⟩ := h.named x hx
      exact ⟨property, (hsame x hx).trans hnode, hindexes.matures.names hnames⟩
    · obtain ⟨property, hnode, hnames, -⟩ := hindexes.named x hx
      exact ⟨property, hnode, hnames⟩
  · rw [List.flatMap_append, List.flatMap_singleton]
    unfold Session.declared
    rw [List.map_append]
    refine List.nodup_append.mpr ⟨?_, hindexes.distinct, ?_⟩
    · have hdistinct := h.distinct
      rw [← hdeclared (List.Subset.refl _)] at hdistinct
      exact hdistinct
    · -- The properties that were there before are below the new ones.
      intro o ho o' ho' heq
      obtain ⟨x, hx, rfl⟩ := List.mem_map.mp ho
      obtain ⟨x', hx', rfl⟩ := List.mem_map.mp ho'
      obtain ⟨property, hnode, hnames⟩ := h.named x hx
      obtain ⟨property', hnode', -, hnew⟩ := hindexes.named x' hx'
      rw [hsame x hx, hnode, hnode'] at heq
      have hlt := hnames.lt_size
      have := Option.some.inj heq
      omega
  · rw [hkeeps.classes_eq] at hd
    have hfirst : ∀ head' ∈ q.2.classHead?, head'.id = head.id →
        p.filterMap (propertyOf? head.id) = [] := by
      intro head' hclass hid
      rw [← hid]
      exact filterMap_propertyOf?_eq_nil (fun q' hq' => hfresh q' hq' _ q'.2.id_mem_ownNodes)
        hclosed hclass
    rw [hindexes.propertiesOf_eq hd, h.propertiesOf_eq hd,
      Declaration.sitesAmong_append_singleton hfirst]
    unfold Session.declared
    rw [List.map_append]
    congr 1
    exact (hdeclared (Declaration.sitesAmong_subset _)).symm
  · have hparameters : (p.flatMap fun q => q.2.parameterSites) ⊆ p.flatMap fun q => q.2.sites := by
      intro x hx
      obtain ⟨q', hq', hx⟩ := List.mem_flatMap.mp hx
      exact Declaration.sites_subset hq' (List.mem_append_left _ hx)
    rw [hindexes.hasBackingField_iff, h.hasBackingField_iff, List.flatMap_append,
      List.flatMap_singleton, ← hdeclared hparameters]
    unfold Session.declared
    rw [List.map_append, List.mem_append]

/-- Properties have been entered for a class, and they have got backing fields. -/
structure Stores (classId : Nat) (properties : List Nat) (s s' : PassState) : Prop where
  trace_eq : ∀ node, s'.trace.declaration? node = s.trace.declaration? node
  descriptors_eq : s'.descriptors = s.descriptors
  quiet : s.toSession.Quiet → s'.toSession.Quiet
  propertiesOf_eq : ∀ d, s'.tables.propertiesOf d =
    s.tables.propertiesOf d ++ if classId = d then properties else []
  hasBackingField_iff : ∀ property, s'.trace.hasBackingField property ↔
    s.trace.hasBackingField property ∨ property ∈ properties

instance (classId : Nat) : Appends (Stores classId) where
  refl s := by
    refine ⟨fun _ => rfl, rfl, id, fun d => ?_, fun _ => by simp⟩
    rw [ite_self, List.append_nil]
  append {xs ys s s' s''} h h' := by
    refine ⟨fun node => (h'.trace_eq node).trans (h.trace_eq node),
      h'.descriptors_eq.trans h.descriptors_eq, fun hs => h'.quiet (h.quiet hs), fun d => ?_,
      fun property => ?_⟩
    · rw [h'.propertiesOf_eq, h.propertiesOf_eq, List.append_assoc]
      by_cases hd : classId = d
      · rw [if_pos hd, if_pos hd, if_pos hd]
      · rw [if_neg hd, if_neg hd, if_neg hd, List.append_nil]
    · rw [h'.hasBackingField_iff, h.hasBackingField_iff, List.mem_append, or_assoc]

end PassState

namespace Pass

open Analysis
open PassState (Enters Indexes KeepsPlaces Ready Registers SparesBodies Stores)

variable {P : List (Option Declaration × Declaration)} {s₀ s : PassState}
  {around : Option Declaration} {scope : Nat}

theorem storesOr_registerParameterProperty (members classId : Nat) (property : String × Nat) :
    LogsOr (Stores classId) [property.2] (registerParameterProperty members classId property) := by
  intro s
  refine afterOr_bind.mpr (afterOr_analysis.mpr (after_onScopes.mpr ?_))
  refine afterOr_bind.mpr (afterOr_analysis.mpr (after_onRecorder.mpr (afterOr_onTables.mpr ?_)))
  refine ⟨fun _ => rfl, rfl, fun h => ⟨h.fieldless.of_fields_eq fun id => ?_, h.unwatched⟩,
    fun d => s.tables.propertiesOf_indexProperty .., fun p => ?_⟩
  · exact s.scopes.fields_get_addVariable members property.1 property.2 id
  · rw [List.mem_singleton]
    change (s.trace.recordBackingField property.2).hasBackingField p = true ↔ _
    rw [Trace.hasBackingField_recordBackingField]
    simp

section

variable (hkinded : s.WellKinded) (hquiet : s.toSession.Quiet)

include hquiet

theorem afterOr_indexes_of_sparesBodies
    {heads nodes : List Nat} {q : Option Declaration × Declaration} {x : Pass Unit}
    (hmatures : AfterMaturing x s fun _ _ => True) (hspares : KeepsOr (SparesBodies heads nodes) x)
    (hq : q.2.sites = []) : AfterOr x s (fun _ => Indexes q s) fun _ _ => True := by
  refine AfterOr.relax (AfterOr.of_keepsOr hspares hmatures) fun _ s' h => ?_
  exact .of_sparesBodies h.2.1 h.2.2.1.descriptors hquiet h.1 hq

include hkinded

/-- A declared property belongs to the class that it stands in, if it stands in one. -/
theorem afterOr_registerProperty_indexes
    (h₀ : Ready P s₀) (hkeeps : KeepsPlaces (P.flatMap fun q => q.2.innerNodes) s₀ s)
    (hscope : s₀.Houses around scope) (haround : ∀ e ∈ around, e ∈ P.map Prod.snd)
    {decl : PropertyDecl} (hdecl : decl.nodes.Nodup) :
    AfterOr (registerProperty scope decl) s
      (fun _ => Indexes (around, .propertyDecl decl) s) fun _ _ => True := by
  have hclasses : s.tables.classes = s₀.tables.classes := hkeeps.classes_eq
  have hlt := hkeeps.lt_size h₀ hscope
  let container := s.scopes.containingDeclaration? scope
  have hcontainer : ∀ c ∈ container, c < s.descriptors.size := fun c hc =>
    hkinded.session.scopes.containingDeclaration?_lt (Option.mem_def.mp hc)
  have hspares : KeepsOr (Session.SparesBodies []
      (Declaration.propertyDecl decl).signatureNodes) (resolveProperty scope container decl) :=
    sparesBodies_resolveProperty (List.Subset.refl _) scope container
  have hresolve := (afterOr_resolveProperty_declares scope container hdecl (s := s.toSession)).and
    (AfterOr.of_keepsOr hspares ((afterOr_resolveProperty_fresh scope container decl s.toSession).and
      (afterMaturingOr_resolveProperty hkinded.session scope hcontainer decl)))
  have hindexes : AfterOr (registerProperty scope decl) s (fun _ s' => s'.WellKinded →
      s.descriptors.Matures s'.descriptors → Indexes (around, .propertyDecl decl) s s')
      fun _ _ => True := by
    refine afterOr_bind.mpr (afterOr_session.mpr ?_)
    refine AfterOr.bind (AfterOr.faultyAnalysis (AfterOr.forget hresolve)) fun property s₁ h₁ => ?_
    obtain ⟨⟨⟨-, hdeclared⟩, hsession, hfresh, -, -, hnames⟩, htables⟩ := h₁
    refine afterOr_bind.mpr (afterOr_analysis.mpr (after_onScopes.mpr (afterOr_onTables.mpr ?_)))
    intro hkinded' hmatures
    have hquiet₁ := hsession.quiet hquiet
    refine ⟨hkinded', hmatures, ⟨hquiet₁.fieldless.of_fields_eq fun id => ?_, hquiet₁.unwatched⟩,
      fun x hx => ?_, List.nodup_singleton _, fun {head d} hd => ?_, fun p => ?_⟩
    · exact s₁.scopes.fields_get_addVariable scope decl.name property id
    · obtain rfl := List.mem_singleton.mp hx
      exact ⟨property, hdeclared, hnames, hfresh⟩
    · rw [hclasses] at hd
      have hadd := s₁.tables.propertiesOf_addProperty decl property scope container d
      have hclass := hkeeps.containingDeclaration?_eq_some_iff h₀ hscope haround hd
      refine (congrArg (List.map some) hadd).trans ?_
      rw [List.map_append, htables]
      congr 1
      rw [Declaration.sitesAmong_property]
      by_cases hcontained : container = some d
      · rw [if_pos hcontained, if_pos (hclass.mp hcontained)]
        exact congrArg (fun o => [o]) hdeclared.symm
      · rw [if_neg hcontained, if_neg fun h => hcontained (hclass.mpr h)]
        rfl
    · have hsame := hsession.hasBackingField_eq hquiet p
      change s₁.trace.hasBackingField p ↔ _
      rw [hsame]
      exact (or_iff_left List.not_mem_nil).symm
  exact AfterOr.relax ((afterMaturing_registerProperty hkinded hlt decl).and hindexes)
    fun _ _ h => h.2 h.1.1 h.1.2.1.descriptors

/-- The parameters of a class declare properties of it, which get backing fields. -/
theorem afterOr_registerClass_indexes
    (h₀ : Ready P s₀) (hkeeps : KeepsPlaces (P.flatMap fun q => q.2.innerNodes) s₀ s)
    {head : ClassHead} {members : List Declaration} (hq : (around, .classDecl head members) ∈ P) :
    AfterOr (registerClass head) s
      (fun _ => Indexes (around, .classDecl head members) s) fun _ _ => True := by
  obtain ⟨d, hd⟩ := h₀.exists_mem_classes hq rfl
  have hclasses : s.tables.classes = s₀.tables.classes := hkeeps.classes_eq
  have hdeclared := hkeeps.declaration?_of_mem_classes h₀ hq hd
  have hparameters : ((head.primaryConstructor.getD []).map Parameter.id).Nodup :=
    Declaration.nodup_parameterIds ((List.nodup_flatMap.mp h₀.distinct).1 _ hq)
  have hindexes : AfterOr (registerClass head) s (fun _ s' => s'.WellKinded →
      s.descriptors.Matures s'.descriptors → Indexes (around, .classDecl head members) s s')
      fun _ _ => True := by
    refine afterOr_bind.mpr (afterOr_session.mpr ?_)
    rw [hdeclared]
    refine afterOr_bind.mpr (afterOr_session.mpr ?_)
    split
    · trivial
    rename_i data hdata
    have hclass : s.descriptors.Has .classSort d :=
      DescriptorTable.has_classSort_iff.mpr (Option.isSome_of_eq_some hdata)
    have hspares : KeepsOr (Session.SparesBodies [] (parameterNodes
        (head.primaryConstructor.getD []))) (resolvePrimaryConstructor d head) :=
      sparesBodies_resolvePrimaryConstructor (List.Subset.refl _) d
    have hresolve := (afterOr_resolvePrimaryConstructor_declares d hparameters s.toSession).and
      (AfterOr.of_keepsOr hspares
        (afterMaturingOr_resolvePrimaryConstructor hkinded.session hclass head))
    refine AfterOr.bind (AfterOr.faultyAnalysis (AfterOr.forget hresolve)) fun resolved s₁ h₁ => ?_
    obtain ⟨constructor, properties⟩ := resolved
    obtain ⟨⟨hdeclares, hsession, -, -, -, hnames⟩, htables⟩ := h₁
    have hstore := LogsOr.forM properties fun property _ =>
      storesOr_registerParameterProperty data.memberScope d property
    rw [← List.map_eq_flatMap] at hstore
    refine AfterOr.bind (hstore s₁) fun _ s₂ h₂ => ?_
    -- What is left is to attach the primary constructor, if there is one.
    have hconclude : ∀ s' : PassState, s₂.descriptors.Matures s'.descriptors →
        s'.scopes = s₂.scopes → s'.recorder = s₂.recorder → s'.tables = s₂.tables →
          s'.WellKinded → s.descriptors.Matures s'.descriptors →
            Indexes (around, .classDecl head members) s s' := by
      intro s' hlast hscopes hrecorder htables' hkinded' hmatures
      have hsites : (Declaration.classDecl head members).sites = head.sites :=
        Declaration.sites_of_classHead? rfl
      have hheadSites : (Declaration.classDecl head members).parameterSites = head.sites :=
        List.flatMap_singleton ..
      have hdeclaration : ∀ node, s'.trace.declaration? node = s₁.trace.declaration? node := by
        intro node
        rw [← h₂.trace_eq]
        exact congrArg (fun r : Recorder => r.trace.declaration? node) hrecorder
      have hlisted : s'.declared head.sites = (properties.map Prod.snd).map some := by
        rw [← hdeclares.declared_eq]
        exact List.map_congr_left fun x _ => hdeclaration x.node
      have hquiet₂ := h₂.quiet (hsession.quiet hquiet)
      refine ⟨hkinded', hmatures, ⟨?_, ?_⟩, fun x hx => ?_, ?_, fun {head' d'} hd' => ?_,
        fun property => ?_⟩
      · rw [hscopes]
        exact hquiet₂.fieldless
      · rw [hrecorder]
        exact hquiet₂.unwatched
      · rw [hsites] at hx
        obtain ⟨property, hproperty, hnode⟩ := hdeclares.exists_mem hx
        refine ⟨property, (hdeclaration x.node).trans hnode, ?_, hdeclares.fresh _ hproperty⟩
        apply hlast.names
        rw [h₂.descriptors_eq]
        exact hnames _ hproperty
      · rw [hsites, hlisted]
        exact hdeclares.distinct.map (Option.some_injective _)
      · rw [hclasses] at hd'
        rw [htables', h₂.propertiesOf_eq, htables, Declaration.sitesAmong_class, List.map_append]
        congr 1
        by_cases hsame : d = d'
        · subst hsame
          obtain rfl := h₀.head_eq hd hd'
          rw [if_pos rfl, if_pos rfl, hlisted]
        · rw [if_neg hsame, if_neg]
          · rfl
          · intro hid
            have hdeclared' := h₀.declaration?_eq hd'
            rw [← hid, h₀.declaration?_eq hd] at hdeclared'
            exact hsame (Option.some.inj hdeclared')
      · have hstored : s'.trace.hasBackingField property = s₂.trace.hasBackingField property :=
          congrArg (fun r : Recorder => r.trace.hasBackingField property) hrecorder
        rw [hstored, h₂.hasBackingField_iff, hsession.hasBackingField_eq hquiet, hheadSites,
          hlisted]
        refine or_congr_right ⟨List.mem_map_of_mem, fun hmem => ?_⟩
        obtain ⟨property', hproperty', heq⟩ := List.mem_map.mp hmem
        exact Option.some.inj heq ▸ hproperty'
    cases constructor with
    | none => exact hconclude s₂ (.refl _) rfl rfl rfl
    | some constructor =>
        refine afterOr_bind.mpr (afterOr_faultyAnalysis.mpr (afterOr_tryDescriptors fun t ht => ?_))
        exact hconclude _ (.editClass ht) rfl rfl rfl
  exact AfterOr.relax ((afterMaturing_registerClass hkinded head).and hindexes)
    fun _ _ h => h.2 h.1.1 h.1.2.1.descriptors

end

/-! ## Everything is registered -/

/-- Each declaration is entered, and its properties are registered. -/
theorem steps_indexed (h₀ : Ready P s₀) :
    Steps P s₀
      (fun p s => Registers P s₀ p s ∧ s.WellKinded ∧ s.toSession.Quiet ∧ s.Indexed p)
      (fun q s s' => Enters s₀ q s s' ∧ Indexes q s s') where
  keeps h := h.1.keeps
  step hnext h heffect := by
    obtain ⟨hregisters, -, -, hindexed⟩ := h
    obtain ⟨henters, hindexes⟩ := heffect
    refine ⟨hregisters.step h₀ hnext.comes hnext.around_mem henters, hindexes.kinded,
      hindexes.quiet, ?_⟩
    exact hindexed.step (h₀.not_mem_ownNodes hnext.comes) hregisters.closed henters.keeps hindexes
  namespaceDecl {p s around head members} hnext h := by
    have hspares : SparesBodies [] [] s s := refl_of (SparesBodies [] []) s
    exact ⟨(steps_registers h₀).namespaceDecl hnext h.1,
      .of_sparesBodies h.2.1 (.refl _) h.2.2.1 hspares rfl⟩
  unsupported {p s around d} hnext hd h node message := by
    have hsites : d.sites = [] := by cases hd <;> rfl
    have hspares : KeepsOr (SparesBodies [] [])
        (liftM (reportCode .unsupportedConstruct node message) : Pass Unit) :=
      sparesBodies_analysis (sparesBodies_report (by decide) ..)
    have hmatures := Task.afterMaturing_reportInPass h.2.1 .unsupportedConstruct node message
    have hindexes := afterOr_indexes_of_sparesBodies (q := (around, d)) h.2.2.1 hmatures hspares
      hsites
    exact AfterOr.relax (((steps_registers h₀).unsupported hnext hd h.1 node message).and hindexes)
      fun _ _ h => h
  classDecl {p s around head members} hnext h := by
    have hmem := hnext.comes.subset (List.mem_append_right _ List.mem_cons_self)
    have hindexes := afterOr_registerClass_indexes h.2.1 h.2.2.1 h₀ h.1.keeps hmem
    exact AfterOr.relax (((steps_registers h₀).classDecl hnext h.1).and hindexes)
      fun _ _ h => ⟨⟨h.1.1, h.2⟩, h.1.2⟩
  functionDecl {p s around scope decl} hnext hscope h := by
    have hspares : KeepsOr (SparesBodies [] _) (registerFunction scope decl) :=
      sparesBodies_registerFunction (List.Subset.refl _) scope
    have hmatures := afterMaturing_registerFunction h.2.1 (h.1.keeps.lt_size h₀ hscope) decl
    have hindexes := afterOr_indexes_of_sparesBodies (q := (around, .functionDecl decl)) h.2.2.1
      hmatures hspares rfl
    exact AfterOr.relax (((steps_registers h₀).functionDecl hnext hscope h.1).and hindexes)
      fun _ _ h => h
  propertyDecl {p s around scope decl} hnext hscope h := by
    have hmem : (around, .propertyDecl decl) ∈ P :=
      hnext.comes.subset (List.mem_append_right _ List.mem_cons_self)
    have haround : ∀ e ∈ around, e ∈ P.map Prod.snd := fun e he =>
      (((List.prefix_append ..).trans hnext.comes).map Prod.snd).subset (hnext.around_mem e he)
    have hindexes := afterOr_registerProperty_indexes h.2.1 h.2.2.1 h₀ h.1.keeps hscope haround
      ((List.nodup_flatMap.mp h₀.distinct).1 _ hmem)
    exact AfterOr.relax (((steps_registers h₀).propertyDecl hnext hscope h.1).and hindexes)
      fun _ _ h => h
  constructorDecl {p s around scope decl} hnext hscope h := by
    have hspares : KeepsOr (SparesBodies [] _) (registerConstructor scope decl) :=
      sparesBodies_registerConstructor (List.Subset.refl _) scope
    have hmatures := afterMaturing_registerConstructor h.2.1 (h.1.keeps.lt_size h₀ hscope) decl
    have hindexes := afterOr_indexes_of_sparesBodies (q := (around, .constructorDecl decl)) h.2.2.1
      hmatures hspares rfl
    exact AfterOr.relax (((steps_registers h₀).constructorDecl hnext hscope h.1).and hindexes)
      fun _ _ h => h

/-- Before the last pass begins, all properties have been registered. -/
theorem afterOr_declarationPasses_indexed
    (options : AnalysisOptions) {ds : List Declaration} (hds : (Declaration.nodesOf ds).Nodup) :
    AfterOr (declarationPasses options ds) initialState
      (fun _ s => s.Indexed (Declaration.enclosedIn none ds)) fun _ _ => True := by
  refine AfterOr.relax (AfterOr.run_eq _ _) fun _ s hrun => ?_
  obtain ⟨_, s₁, hcollect, hrun⟩ := exists_run_of_bind hrun
  obtain ⟨_, s₂, hresolve, hrun⟩ := exists_run_of_bind hrun
  obtain ⟨_, s₃, hregister, hrun⟩ := exists_run_of_bind hrun
  have houtside {p : Declaration → Prop} : ∀ e ∈ (none : Option Declaration), p e :=
    fun e he => absurd he (Option.not_mem_none e)
  have hcollects := (afterOr_collectAll_collects options none toplevel ds initialState
    owned_initialState .file houtside hds).of_run_eq hcollect
  have hready := ((afterOr_resolveClasses_ready hds hcollects).of_run_eq hresolve).1
  have hspares := ((afterOr_bind.mp (afterOr_resolveClasses_sparesBodies options hds)).of_run_eq
    hcollect).of_run_eq hresolve
  have hperforms : Config.Performs options (ds.map (.collect toplevel) ++ [.resolveClasses])
      (do collectAll options toplevel ds; resolveClasses) :=
    (Config.performs_collectAll toplevel ds).append Config.performs_resolveClasses
  have hagenda : ds.map (.collect toplevel) ++ [.resolveClasses] ++
      (ds.map (.register toplevel) ++ [.finalizeClasses, .resolveBodies]) = Task.agenda ds := by
    simp only [Task.agenda, List.append_assoc, List.cons_append, List.nil_append]
  have hkinded : s₂.WellKinded := ((afterOr_bind.mp
    (afterOr_performs_wellKinded hperforms hagenda)).of_run_eq hcollect).of_run_eq hresolve
  have hindexed : s₂.Indexed [] := by
    refine ⟨fun _ hx => absurd hx List.not_mem_nil, List.nodup_nil, fun {head d} _ => ?_,
      fun property => ?_⟩
    · unfold Tables.propertiesOf
      rw [hspares.propertiesByContainer_eq]
      exact congrArg (List.map some) Std.TreeMap.getD_emptyc
    · rw [hspares.session.hasBackingField_eq quiet_initialState]
      simp [Session.declared, Trace.hasBackingField, Session.trace, initialState]
  have hsteps := (steps_indexed hready).afterOr_registerAll none toplevel ds [] s₂
    (List.prefix_refl _) houtside .file
    ⟨.refl hready, hkinded, hspares.session.quiet quiet_initialState, hindexed⟩
  obtain ⟨-, hkinded₃, -, hindexed₃⟩ := hsteps.of_run_eq hregister
  have hfinal : s = { s₃ with model.descriptors := s₃.model.descriptors.finalizeClasses.2 } :=
    (congrArg Prod.snd hrun).symm
  subst hfinal
  have hmatures := hkinded₃.session.descriptors.finalizeClasses.1
  refine ⟨fun x hx => ?_, hindexed₃.distinct, hindexed₃.propertiesOf_eq,
    hindexed₃.hasBackingField_iff⟩
  obtain ⟨property, hnode, hnames⟩ := hindexed₃.named x hx
  exact ⟨property, hnode, hmatures.names hnames⟩

end Pass

end DeclAnalysis
