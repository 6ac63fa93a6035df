import DeclAnalysis.Proofs.Resolve.Calls
import DeclAnalysis.Proofs.Resolve.FieldReports
import DeclAnalysis.Proofs.Resolve.PropertyTypes

/-!
# One type for a property and its accessors

The last pass resolves each property once. What it resolves besides, before and afterwards, looks
at other nodes and leaves the property, its getter and the parameter of its setter alone. So these
are found in the end as they were left when the property was resolved: a getter and a parameter
that are declared without types have the type of the property.
-/

namespace DeclAnalysis

open Session (Leaves)

/-- The nodes of several declarations, without certain ones. -/
def nodesApart (P : List (Option Declaration × Declaration)) (nodes : List Nat) : List Nat :=
  (P.flatMap fun q => q.2.ownNodes).filter (· ∉ nodes)

theorem ownNodes_subset_nodesApart
    {P : List (Option Declaration × Declaration)} {q q' : Option Declaration × Declaration}
    (hdistinct : (P.flatMap fun q => q.2.ownNodes).Nodup) (hq : q ∈ P) (hq' : q' ∈ P)
    (hne : q' ≠ q) : q'.2.ownNodes ⊆ nodesApart P q.2.ownNodes := by
  intro node hnode
  apply List.mem_filter.mpr
  constructor
  · exact List.mem_flatMap.mpr ⟨q', hq', hnode⟩
  · apply decide_eq_true
    intro hown
    exact hne (Declaration.eq_of_mem_ownNodes (f := Prod.snd) hdistinct hq' hq hnode hown)

theorem not_mem_nodesApart {P : List (Option Declaration × Declaration)} {nodes : List Nat}
    {node : Nat} (hnode : node ∈ nodes) : node ∉ nodesApart P nodes := by
  intro hmem
  exact of_decide_eq_true (List.mem_filter.mp hmem).2 hnode

namespace PassState

variable {inner nodes : List Nat} {s₀ s s' s'' : PassState} {decl : PropertyDecl} {property : Nat}

/-- The last pass has got to the second state and has left the parts of a property alone since the
first one. -/
structure PassesBy
    (inner nodes : List Nat) (s₀ : PassState) (property : Nat) (s s' : PassState) : Prop where
  reached : ReachedFrom inner s₀ s'
  leaves : Leaves nodes s₀.descriptors (s₀.descriptors.PartOf property) s.toSession s'.toSession

theorem PassesBy.refl (s₀ : PassState) : PassesBy inner nodes s₀ property s₀ s₀ where
  reached := ⟨[], Appends.refl s₀⟩
  leaves := refl_of (Leaves nodes s₀.descriptors _) s₀.toSession

theorem PassesBy.trans (h : PassesBy inner nodes s₀ property s s')
    (h' : PassesBy inner nodes s₀ property s' s'') : PassesBy inner nodes s₀ property s s'' where
  reached := h'.reached
  leaves := trans_of (Leaves nodes s₀.descriptors _) h.leaves h'.leaves

/-- What a property shares its type with is among what is left alone. -/
theorem PassesBy.get_eq
    (h : PassesBy inner nodes s₀ property s s') (hreached : ReachedFrom inner s₀ s)
    (howns : s₀.descriptors.Owns property) {d : Nat} (hd : s.descriptors.Shares property d) :
    s'.descriptors.get d = s.descriptors.get d := by
  have hpart := howns.partOf ((howns.shares_iff hreached.fills.retains).mp hd)
  exact h.leaves.get_eq hreached.fills hpart.lt_size hpart

/-- The property has been resolved. -/
structure HasTyped
    (inner : List Nat) (s₀ : PassState) (decl : PropertyDecl) (property : Nat) (s : PassState) :
    Prop where
  reached : ReachedFrom inner s₀ s
  typed : ∃ found, s.TypesProperty decl property found ∧
    (decl.typeRef = none → found = s.initializerType? decl)

/-- A property that has been resolved stays so while the last pass passes by. -/
theorem HasTyped.of_passesBy
    (h : HasTyped inner s₀ decl property s) (howns : s₀.descriptors.Owns property)
    (hinitializer : ∀ e ∈ decl.initializer, e.id ∉ nodes)
    (hpasses : PassesBy inner nodes s₀ property s s') : HasTyped inner s₀ decl property s' := by
  obtain ⟨found, htyped, hfound⟩ := h.typed
  have hproceeds := hpasses.leaves.proceeds
  have hsame : s'.initializerType? decl = s.initializerType? decl := by
    unfold Session.initializerType?
    cases he : decl.initializer with
    | none => rfl
    | some e => exact hproceeds.follows.expressionType?_eq (hinitializer e he)
  refine ⟨hpasses.reached, found, ?_, ?_⟩
  · exact htyped.of_get_eq hproceeds.fills.retains (fun hd => hpasses.get_eq h.reached howns hd)
      hproceeds.follows.diagnostics_prefix
  · intro hnone
    exact (hfound hnone).trans hsame.symm

end PassState

namespace Pass

open Analysis
open PassState (HasTyped Indexed PassesBy Poised ReachedFrom)

variable {P : List (Option Declaration × Declaration)} {q : Option Declaration × Declaration}
  {options : AnalysisOptions} {inner nodes : List Nat} {s₀ s : PassState} {decl : PropertyDecl}
  {property : Nat}

/-! ## Steps that pass a property by -/

theorem afterOr_passesBy
    {x : Pass Unit} {xs : List Recording} (hjournals : JournalsOr inner s₀ xs x)
    (hleaves : AfterAny x s (InvImage
      (Leaves nodes s₀.descriptors (s₀.descriptors.PartOf property)) PassState.toSession s))
    (hreached : ReachedFrom inner s₀ s) :
    AfterOr x s (fun _ => PassesBy inner nodes s₀ property s) fun _ _ => True := by
  refine AfterOr.relax ((hjournals s).and hleaves) fun _ s' h => ?_
  obtain ⟨ys, hys⟩ := hreached
  exact ⟨⟨ys ++ xs, Appends.append hys (h.1 ⟨ys, hys⟩)⟩, h.2⟩

variable (hs : s₀.Poised P)

include hs

/-- A property that is listed is in accord with its accessors before the last pass. -/
theorem accords_of_mem_properties (hentry : (decl, property) ∈ s₀.tables.properties.toList) :
    s₀.descriptors.Accords decl property := by
  have hproperty := (hs.kinded.tables.properties _ hentry).toHas
  obtain ⟨data, hdata, hgetter, hsetter⟩ := hs.listed.accessors _ hentry
  refine (hs.listed.declared _ hentry).accords hs.kinded.session.descriptors hproperty ?_ ?_
  · unfold DescriptorTable.getter?
    rw [hdata, Option.bind_some, hgetter]
  · unfold DescriptorTable.setter?
    rw [hdata, Option.bind_some, hsetter]

/-- Different properties have different descriptors. -/
theorem property_ne_of_mem_properties
    (hi : s₀.Indexed P) (hentry : (decl, property) ∈ s₀.tables.properties.toList)
    {other : PropertyDecl × Nat} (hother : other ∈ s₀.tables.properties.toList)
    (hne : other.1.id ≠ decl.id) : property ≠ other.2 := by
  intro heq
  have hnodup := (List.nodup_append.mp (hi.nodup_properties hs.listed)).2.1.of_map
  obtain rfl := List.inj_on_of_nodup_map hnodup hentry hother heq
  exact hne rfl

section

variable (hdistinct : (P.flatMap fun q => q.2.ownNodes).Nodup)
  (hinner : P.flatMap (fun q => q.2.ownNodes.tail) ⊆ inner) (hq : q ∈ P)
  (hself : q.2 = .propertyDecl decl)

include hdistinct hinner hq hself

/-- The delegation list of a class is apart from all properties. -/
theorem afterOr_class_passesBy
    {entry : ClassHead × Nat} (hentry : entry ∈ s₀.tables.classes.toList)
    (hreached : ReachedFrom inner s₀ s) :
    AfterOr (liftM (resolveDelegations entry.1 entry.2) : Pass Unit) s
      (fun _ => PassesBy inner (nodesApart P q.2.ownNodes) s₀ property s) fun _ _ => True := by
  obtain ⟨hhead, -⟩ := Session.declaration?_of_mem_listed hs.listed.classes_eq hentry
  obtain ⟨q', hq', hclass⟩ := List.mem_filterMap.mp hhead
  have hne : q' ≠ q := by
    rintro rfl
    rw [hself] at hclass
    cases hclass
  have hapart := ownNodes_subset_nodesApart hdistinct hq hq' hne
  have hown : q'.2.ownNodes.tail ⊆ inner := fun node hnode =>
    hinner (List.mem_flatMap.mpr ⟨q', hq', hnode⟩)
  obtain ⟨members, hhead⟩ := Declaration.exists_members_of_classHead? hclass
  rw [hhead] at hapart hown
  refine afterOr_passesBy (journalsOr_class hs hentry hown) ?_ hreached
  refine afterOr_faultyAnalysis.mpr ?_
  have hkeeps : KeepsOr (Leaves (nodesApart P q.2.ownNodes) s₀.descriptors
      (s₀.descriptors.PartOf property)) (resolveDelegations entry.1 entry.2) :=
    keepsOr_resolveDelegations (List.Subset.trans (List.tail_subset _) hapart) entry.2
  exact hkeeps.afterOr s.toSession

/-- No property has a part in common with another one. -/
theorem afterOr_property_passesBy
    {other : PropertyDecl × Nat} (hother : other ∈ s₀.tables.properties.toList)
    (hne : other.1.id ≠ decl.id) (hproperty : property ≠ other.2)
    (hreached : ReachedFrom inner s₀ s) :
    AfterOr (do
      let scope ← ofExcept (s₀.tables.declaringScope other.1.id)
      resolvePropertyBodies options scope other.1 other.2 : Pass Unit) s
      (fun _ => PassesBy inner (nodesApart P q.2.ownNodes) s₀ property s) fun _ _ => True := by
  obtain ⟨hdecl, -⟩ := Session.declaration?_of_mem_listed hs.listed.properties_eq hother
  obtain ⟨q', hq', hself'⟩ := List.mem_filterMap.mp hdecl
  replace hself' := Declaration.eq_of_property? hself'
  have hdiffer : q' ≠ q := by
    rintro rfl
    rw [hself'] at hself
    exact hne (congrArg PropertyDecl.id (Declaration.propertyDecl.inj hself))
  have hapart := ownNodes_subset_nodesApart hdistinct hq hq' hdiffer
  have hown : q'.2.ownNodes.tail ⊆ inner := fun node hnode =>
    hinner (List.mem_flatMap.mpr ⟨q', hq', hnode⟩)
  rw [hself'] at hapart hown
  have howns := (accords_of_mem_properties hs hother).toOwns
  refine afterOr_passesBy (journalsOr_property hs hother hown) ?_ hreached
  cases hscope : s₀.tables.declaringScope other.1.id with
  | error fault => exact afterOr_bind.mpr (afterOr_throw.mpr (refl_of (InvImage _ _) s))
  | ok scope =>
      refine afterOr_bind.mpr (afterOr_pure.mpr (afterOr_faultyAnalysis.mpr ?_))
      refine afterAny_resolvePropertyBodies_of (allowsTypeOf_leaves howns hproperty) ?_ options
        (List.Subset.trans (List.tail_subset _) hapart) scope
      intro data hdata f hf
      have hretains := hreached.fills.retains
      apply allowsReturnTypeOf_leaves
      apply howns.accessor_not_partOf hproperty
      rw [← hretains.getter?_eq howns.itself, ← hretains.setter?_eq howns.itself]
      unfold DescriptorTable.getter? DescriptorTable.setter?
      rw [hdata]
      exact hf

/-- Neither functions nor constructors are parts of properties. -/
theorem afterOr_function_passesBy
    {entry : FunctionLike × Nat} (hentry : entry ∈ s₀.tables.functions.toList)
    (hreached : ReachedFrom inner s₀ s) :
    AfterOr (resolveFunctionLike options entry.1 entry.2) s
      (fun _ => PassesBy inner (nodesApart P q.2.ownNodes) s₀ property s) fun _ _ => True := by
  obtain ⟨hf, -⟩ := Session.declaration?_of_mem_listed hs.listed.functions_eq hentry
  obtain ⟨q', hq', hfunction⟩ := List.mem_filterMap.mp hf
  have hdiffer : q' ≠ q := by
    rintro rfl
    rw [Declaration.functionLike?, hself] at hfunction
    cases hfunction
  have hapart := ownNodes_subset_nodesApart hdistinct hq hq' hdiffer
  have hown : q'.2.ownNodes.tail ⊆ inner := fun node hnode =>
    hinner (List.mem_flatMap.mpr ⟨q', hq', hnode⟩)
  rw [← Declaration.nodes_of_functionLike? hfunction] at hapart hown
  have hkinded := hs.kinded.tables.functions entry hentry
  obtain ⟨f, descriptor⟩ := entry
  refine afterOr_passesBy (journalsOr_function hs hentry hown) ?_ hreached
  let R := Leaves (nodesApart P q.2.ownNodes) s₀.descriptors (s₀.descriptors.PartOf property)
  have hlift : ∀ {x : FaultyAnalysis Unit}, KeepsOr R x →
      KeepsOr (InvImage R PassState.toSession) (liftM x : Pass Unit) := by
    intro x hx
    apply KeepsOr.of_afterOr
    intro s
    exact afterOr_faultyAnalysis.mpr (hx.afterOr s.toSession)
  have hkeeps : KeepsOr (InvImage R PassState.toSession)
      (resolveFunctionLike options f descriptor) := by
    apply keepsOr_resolveFunctionLike_of
    · intro decl hf scope
      subst hf
      have hset : AllowsReturnTypeOf R descriptor := by
        apply allowsReturnTypeOf_leaves
        intro hpart
        cases hpart.role_eq hkinded.toHas
      have hbody : Expr.optionalNodes decl.body ⊆ nodesApart P q.2.ownNodes := by
        intro node hnode
        exact hapart (List.mem_cons_of_mem _ (List.mem_append_right _ hnode))
      exact hlift (keepsOr_resolveFunctionBody_of hset options decl.id hbody scope)
    · intro decl hf properties scope
      subst hf
      have htail := List.Subset.trans (List.tail_subset _) hapart
      exact hlift (keepsOr_resolveConstructorBody options properties htail scope descriptor)
  exact hkeeps.afterOr s

/-! ## The step that resolves the property -/

variable (hentry : (decl, property) ∈ s₀.tables.properties.toList)

include hentry

/-- When a property is resolved, nothing has happened yet at its nodes or to its parts. -/
theorem afterOr_property_typed
    (h : PassesBy inner (nodesApart P q.2.ownNodes) s₀ property s₀ s) :
    AfterOr (do
      let scope ← ofExcept (s₀.tables.declaringScope decl.id)
      resolvePropertyBodies options scope decl property : Pass Unit) s
      (fun _ => HasTyped inner s₀ decl property) fun _ _ => True := by
  have hown : q.2.ownNodes.tail ⊆ inner := fun node hnode =>
    hinner (List.mem_flatMap.mpr ⟨q, hq, hnode⟩)
  have hnodup := (List.nodup_flatMap.mp hdistinct).1 q hq
  have hvacant : ∀ {slot : Slot}, slot.node ∈ q.2.ownNodes → s.Vacant slot := by
    intro slot hslot
    have hsame := h.leaves.proceeds.follows.sameSlot (not_mem_nodesApart hslot)
    refine hsame.vacant (hs.vacant (Declaration.not_mem_importNodesIn hdistinct hq ?_ hslot))
    rw [hself]
    rfl
  have hbefore := accords_of_mem_properties hs hentry
  have hget : ∀ {d}, s₀.descriptors.Shares property d →
      s.descriptors.get d = s₀.descriptors.get d :=
    fun hd => h.get_eq ⟨[], Appends.refl s₀⟩ hbefore.toOwns hd
  have haccords := hbefore.of_get_eq h.reached.fills.retains hget
  rw [hself] at hown hnodup hvacant
  have htyped : AfterOr (do
      let scope ← ofExcept (s₀.tables.declaringScope decl.id)
      resolvePropertyBodies options scope decl property : Pass Unit) s
      (fun _ s' => s'.TypesProperty decl property
        (s.descriptors.valueType? property <|> s'.initializerType? decl)) fun _ _ => True := by
    cases hscope : s₀.tables.declaringScope decl.id with
    | error fault => exact afterOr_bind.mpr (afterOr_throw.mpr trivial)
    | ok scope =>
        refine afterOr_bind.mpr (afterOr_pure.mpr (afterOr_faultyAnalysis.mpr ?_))
        obtain ⟨ys, hys⟩ := h.reached
        have hoffers := hys.records.offers (hs.offers (hs.kinded.tables.declaringScope_lt hscope))
        exact afterOr_resolvePropertyBodies_typed haccords hoffers hnodup hvacant options
  refine AfterOr.relax ((journalsOr_property hs hentry hown s).and htyped) fun _ s' h' => ?_
  obtain ⟨ys, hys⟩ := h.reached
  refine ⟨⟨_, Appends.append hys (h'.1 ⟨ys, hys⟩)⟩, _, h'.2, ?_⟩
  intro hnone
  have hopen : s.descriptors.valueType? property = none :=
    (DescriptorTable.valueType?_congr (hget .itself)).trans
      ((hs.listed.declared _ hentry).valueType?_eq_none hnone)
  rw [hopen]
  rfl

omit hdistinct hinner hq in
theorem hasTyped_of_passesBy
    {s' : PassState} (h : HasTyped inner s₀ decl property s)
    (hpasses : PassesBy inner (nodesApart P q.2.ownNodes) s₀ property s s') :
    HasTyped inner s₀ decl property s' := by
  apply h.of_passesBy (accords_of_mem_properties hs hentry).toOwns _ hpasses
  intro e he
  have hmem : e.id ∈ Expr.optionalNodes decl.initializer := by
    rw [he]
    exact e.id_mem_nodes
  apply not_mem_nodesApart
  rw [hself]
  simp [Declaration.ownNodes, PropertyDecl.nodes, hmem]

/-! ## The last pass -/

variable (hi : s₀.Indexed P)

include hi

/-- Among the properties each one is resolved once. -/
theorem afterOr_properties_typed
    (h : PassesBy inner (nodesApart P q.2.ownNodes) s₀ property s₀ s) :
    AfterOr (s₀.tables.properties.toList.forM fun entry => do
      let scope ← ofExcept (s₀.tables.declaringScope entry.1.id)
      resolvePropertyBodies options scope entry.1 entry.2 : Pass Unit) s
      (fun _ => HasTyped inner s₀ decl property) fun _ _ => True := by
  have hother : ∀ other ∈ s₀.tables.properties.toList, other.1.id ≠ decl.id → ∀ s,
      ReachedFrom inner s₀ s → AfterOr (do
        let scope ← ofExcept (s₀.tables.declaringScope other.1.id)
        resolvePropertyBodies options scope other.1 other.2 : Pass Unit) s
        (fun _ => PassesBy inner (nodesApart P q.2.ownNodes) s₀ property s) fun _ _ => True := by
    intro other hother hne s hreached
    have hproperty := property_ne_of_mem_properties hs hi hentry hother hne
    exact afterOr_property_passesBy hs hdistinct hinner hq hself hother hne hproperty hreached
  apply AfterOr.forM_at (hs.listed.nodup_property_keys hdistinct) hentry _ _ _ h
  · intro other hmem hne s h
    exact (hother other hmem hne s h.reached).imp fun _ _ h' => h.trans h'
  · intro s h
    exact afterOr_property_typed hs hdistinct hinner hq hself hentry h
  · intro other hmem hne s h
    exact (hother other hmem hne s h.reached).imp
      fun _ _ h' => hasTyped_of_passesBy hs hself hentry h h'

/-- Before and after that the last pass passes the property by. -/
theorem afterOr_resolveBodies_typed :
    AfterOr (resolveBodies options) s₀ (fun _ => HasTyped inner s₀ decl property)
      fun _ _ => True := by
  have hclasses : AfterOr (s₀.tables.classes.toList.forM fun entry =>
      (resolveDelegations entry.1 entry.2 : FaultyAnalysis Unit) : Pass Unit) s₀
      (fun _ => PassesBy inner (nodesApart P q.2.ownNodes) s₀ property s₀) fun _ _ => True := by
    refine AfterOr.forM _ (fun entry hclass s h => ?_) (.refl s₀)
    exact (afterOr_class_passesBy hs hdistinct hinner hq hself hclass h.reached).imp
      fun _ _ h' => h.trans h'
  refine afterOr_bind.mpr (afterOr_tables.mpr ?_)
  refine AfterOr.bind hclasses fun _ s₁ h₁ => ?_
  refine AfterOr.bind (afterOr_properties_typed hs hdistinct hinner hq hself hentry hi h₁)
    fun _ s₂ h₂ => AfterOr.forM _ (fun entry hfunction s h => ?_) h₂
  exact (afterOr_function_passesBy hs hdistinct hinner hq hself hfunction h.reached).imp
    fun _ _ h' => hasTyped_of_passesBy hs hself hentry h h'

end

end Pass

/-! ## Files -/

namespace SourceFile

open Declaration (nestedIn)

/-- The only place at the node of a property is the one where no type has been found. -/
theorem place_eq_of_node_eq
    {name : String} {ds : List Declaration} {decl : PropertyDecl}
    (hdecl : .propertyDecl decl ∈ nestedIn (ofDeclarations name ds).declarations) {p : Place}
    (hp : p ∈ (nestedIn (ofDeclarations name ds).declarations).flatMap Declaration.places)
    (hnode : p.node = decl.id) : p = .semantic decl.id 'T' := by
  have hdistinct : ((nestedIn (ofDeclarations name ds).declarations).flatMap
      Declaration.ownNodes).Nodup := by
    rw [Declaration.flatMap_ownNodes_nestedIn]
    exact (pairwise_nodes_ofDeclarations name ds).imp Nat.ne_of_lt
  have hnodup := (List.nodup_flatMap.mp hdistinct).1
  obtain ⟨d, hd, hp⟩ := List.mem_flatMap.mp hp
  have hown : decl.id ∈ d.ownNodes :=
    hnode ▸ (Declaration.spread_places (hnodup d hd)).node_mem p hp
  obtain rfl := Declaration.eq_of_mem_ownNodes (f := fun d => d) hdistinct hd hdecl hown
    List.mem_cons_self
  rw [Declaration.places_propertyDecl] at hp
  exact PropertyDecl.eq_of_mem_places (hnodup _ hdecl) hp hnode

/-- No two reports under this code are about a property. -/
theorem Obtained.eq_of_semanticError
    {file : SourceFile} (hfile : file.Obtained) (options : AnalysisOptions) {decl : PropertyDecl}
    (hdecl : .propertyDecl decl ∈ nestedIn file.declarations) {d d' : Diagnostic}
    (hd : d ∈ (file.analyze options).session.reportsAt .semanticError decl.id)
    (hd' : d' ∈ (file.analyze options).session.reportsAt .semanticError decl.id) : d = d' := by
  obtain ⟨name, ds, rfl⟩ := hfile.exists_eq_ofDeclarations
  have hposts := posts_analyze name ds options
  obtain ⟨hmem, hcode, hnode⟩ := Session.mem_reportsAt_iff.mp hd
  obtain ⟨hmem', hcode', hnode'⟩ := Session.mem_reportsAt_iff.mp hd'
  have hother : ∀ {d : Diagnostic}, d.code = .semanticError → d.code ≠ .unresolvedReference := by
    intro d hcode
    rw [hcode]
    decide
  have hplace := place_eq_of_node_eq hdecl (hposts.place_mem rfl hmem (hother hcode)) hnode
  have hplace' := place_eq_of_node_eq hdecl (hposts.place_mem rfl hmem' (hother hcode')) hnode'
  have hnodup := (spread_places_ofDeclarations name ds).nodup
  exact hposts.eq_of_place_eq rfl hmem (hother hcode) hnodup hmem' (hplace.trans hplace'.symm)

end SourceFile

/-- How a property gets its type that is declared without one: from its initializer, from its
getter if nothing is found for the initializer, and otherwise from a report that there is none. -/
inductive Session.FindsType
    (s : Session) (decl : PropertyDecl) (property : Nat) (type : Ty) : Prop
  | initializer {e : Expr} (he : decl.initializer = some e)
      (htype : s.trace.expressionType? e.id = some type)
  | getter {accessor : Accessor} {function : Nat} (hnone : s.initializerType? decl = none)
      (haccessor : decl.getter = some accessor)
      (hgetter : s.descriptors.getter? property = some function)
      (htype : s.descriptors.returnType? function = some type)
  | untyped (hnone : s.initializerType? decl = none) (hgetter : decl.getter = none)
      (htype : type = .error Analysis.untypedProperty)
      (hreports : s.reportsAt .semanticError decl.id =
        [.ofCode .semanticError decl.id Analysis.untypedProperty])

theorem Session.TypesProperty.findsType
    {s : Session} {decl : PropertyDecl} {property : Nat}
    (h : s.TypesProperty decl property (s.initializerType? decl))
    (hnodup : s.diagnostics.toList.Nodup)
    (hunique : ∀ {d d'}, d ∈ s.reportsAt .semanticError decl.id →
      d' ∈ s.reportsAt .semanticError decl.id → d = d') {type : Ty}
    (htype : s.descriptors.valueType? property = some type) : s.FindsType decl property type := by
  have heq := h.valueType?_eq
  rw [htype] at heq
  cases hinitializer : s.initializerType? decl with
  | some found =>
      rw [hinitializer] at heq
      obtain ⟨e, he, hfound⟩ := Option.bind_eq_some_iff.mp hinitializer
      obtain rfl : type = found := Option.some.inj heq
      exact .initializer he hfound
  | none =>
      rw [hinitializer] at heq
      have hreported := h.reported
      rw [hinitializer] at hreported
      cases hgetter : decl.getter with
      | some accessor =>
          have hsome := h.getterType?_isSome (hgetter ▸ rfl)
          obtain ⟨known, hknown⟩ := Option.isSome_iff_exists.mp hsome
          rw [hknown] at heq
          obtain ⟨function, hfunction, hreturn⟩ := Option.bind_eq_some_iff.mp hknown
          obtain rfl : type = known := Option.some.inj heq
          exact .getter hinitializer hgetter hfunction hreturn
      | none =>
          rw [h.accords.getterType?_eq_none hgetter] at heq hreported
          have hmem : Diagnostic.ofCode .semanticError decl.id Analysis.untypedProperty ∈
              s.reportsAt .semanticError decl.id :=
            Session.mem_reportsAt_iff.mpr ⟨hreported rfl, rfl, rfl⟩
          apply FindsType.untyped hinitializer hgetter (Option.some.inj heq)
          have honly := Session.reportsAt_eq_ite (p := True) hnodup fun d' => by
            constructor
            · intro hd'
              exact ⟨trivial, hunique hd' hmem⟩
            · rintro ⟨-, rfl⟩
              exact hmem
          exact honly.trans (if_pos trivial)

namespace SourceFile

open Declaration (nestedIn)

/-- However a file is obtained, an analysis that ends without a fault gives every property a type
and brings its accessors in accord with it. -/
theorem Obtained.typesProperty
    {file : SourceFile} (hfile : file.Obtained) (options : AnalysisOptions) {s : PassState}
    (hrun : (Pass.allPasses options file.declarations).run.run Pass.initialState = (.ok (), s))
    {decl : PropertyDecl} (hdecl : .propertyDecl decl ∈ nestedIn file.declarations) :
    ∃ property found, s.trace.declaration? decl.id = some property ∧
      s.TypesProperty decl property found ∧
        (decl.typeRef = none → found = s.initializerType? decl) := by
  obtain ⟨name, ds, rfl⟩ := hfile.exists_eq_ofDeclarations
  have hnodes : (Declaration.nodesOf (SourceFile.ofDeclarations name ds).declarations).Nodup :=
    (pairwise_nodes_ofDeclarations name ds).imp Nat.ne_of_lt
  have hdistinct := nodup_ownNodes_ofDeclarations name ds
  rw [Pass.allPasses_eq] at hrun
  obtain ⟨_, s₀, hbefore, hlast⟩ := exists_run_of_bind hrun
  have hs₀ := (Pass.afterOr_declarationPasses_poised options hnodes).of_run_eq hbefore
  have hi := (Pass.afterOr_declarationPasses_indexed options hnodes).of_run_eq hbefore
  rw [← Declaration.map_snd_enclosedIn none] at hdecl
  obtain ⟨q, hq, hself⟩ := List.mem_map.mp hdecl
  have hproperty : q.2.property? = some decl := by
    rw [hself]
    rfl
  obtain ⟨property, hentry⟩ := Session.exists_mem_listed hs₀.listed.properties_eq
    (List.mem_filterMap.mpr ⟨q, hq, hproperty⟩)
  obtain ⟨-, hdeclared⟩ := Session.declaration?_of_mem_listed hs₀.listed.properties_eq hentry
  have htyped := (Pass.afterOr_resolveBodies_typed hs₀ hdistinct (List.Subset.refl _) hq hself
    hentry hi).of_run_eq hlast
  obtain ⟨found, htypes, hfound⟩ := htyped.typed
  refine ⟨property, found, ?_, htypes, hfound⟩
  obtain ⟨xs, hxs⟩ := htyped.reached
  have hnode := Declaration.id_not_mem_tails hdistinct hq
  rw [hself] at hnode
  exact (hxs.advances.proceeds.follows.declaration?_eq hnode).trans hdeclared

/-- A property and its accessors agree on the type. When an analysis ends without a fault, every
property declaration declares a property that has a type. A getter that is declared without a type
returns that type, and the parameter of a setter that is declared without one has it. If the
property is declared without a type itself, it has that of its initializer or, if none is found,
that of its getter; if there is no getter either, it has an error type, which is reported once. -/
theorem accessors_share_type
    {file : SourceFile} (hfile : file.Obtained) (options : AnalysisOptions) {s : PassState}
    (hrun : (Pass.allPasses options file.declarations).run.run Pass.initialState = (.ok (), s))
    {decl : PropertyDecl} (hdecl : .propertyDecl decl ∈ nestedIn file.declarations) :
    ∃ property type, s.trace.declaration? decl.id = some property ∧
      s.descriptors.valueType? property = some type ∧
        (∀ accessor, decl.getter = some accessor → accessor.returnType = none →
          ∃ function, s.descriptors.getter? property = some function ∧
            s.descriptors.returnType? function = some type) ∧
          (∀ accessor, decl.setter = some accessor →
            accessor.parameter.bind Parameter.typeRef = none →
              ∃ v, s.descriptors.setterParameter? property = some v ∧
                s.descriptors.valueType? v = some type) ∧
            (decl.typeRef = none → s.FindsType decl property type) := by
  obtain ⟨property, found, hdeclared, htypes, hfound⟩ := hfile.typesProperty options hrun hdecl
  have haccords := htypes.accords
  obtain ⟨type, htype⟩ : ∃ type, s.descriptors.valueType? property = some type :=
    ⟨_, htypes.valueType?_eq⟩
  refine ⟨property, type, hdeclared, htype, ?_, ?_, ?_⟩
  · intro accessor haccessor hnone
    obtain ⟨function, hfunction⟩ : ∃ g, s.descriptors.getter? property = some g := by
      rw [← Option.isSome_iff_exists, haccords.getter?_isSome, haccessor]
      rfl
    refine ⟨function, hfunction, ?_⟩
    exact (haccords.returnType?_eq accessor haccessor hnone function hfunction).trans htype
  · intro accessor haccessor hnone
    obtain ⟨function, hfunction⟩ : ∃ g, s.descriptors.setter? property = some g := by
      rw [← Option.isSome_iff_exists, haccords.setter?_isSome, haccessor]
      rfl
    obtain ⟨-, v, hv, -⟩ := haccords.setter hfunction
    have hparameter : s.descriptors.setterParameter? property = some v :=
      Option.bind_eq_some_iff.mpr ⟨function, hfunction, hv⟩
    refine ⟨v, hparameter, ?_⟩
    exact (haccords.parameterType?_eq accessor haccessor hnone v hparameter).trans htype
  · intro hnone
    rw [hfound hnone] at htypes
    apply htypes.findsType (hfile.concluded options hrun).nodup _ htype
    intro d d' hd hd'
    have hsession : (file.analyze options).session = s.toSession := by
      rw [session_analyze, hrun]
    rw [← hsession] at hd hd'
    exact hfile.eq_of_semanticError options hdecl hd hd'

/-- A property with an initializer, one with a getter only, and one with nothing to find a type
from. -/
def gauge : SourceFile :=
  ofDeclarations "gauge"
    [.propertyDecl
      { name := "level", mutable := true, initializer := some (.constant 0 (.int 1)),
        getter := some { body := some (.constant 0 (.int 2)) }, setter := some {} },
     .propertyDecl
      { name := "label", getter := some { body := some (.constant 0 (.string "low")) } },
     .propertyDecl { name := "unit", mutable := true, setter := some {} }]

/-- The state in which that file has been analyzed. -/
def gaugeAnalyzed : PassState :=
  ((Pass.allPasses {} gauge.declarations).run.run Pass.initialState).2

set_option maxRecDepth 20000 in
theorem accessors_share_type_gauge :
    (gauge.Obtained ∧
      (Pass.allPasses {} gauge.declarations).run.run Pass.initialState = (.ok (), gaugeAnalyzed)) ∧
      (∃ function, gaugeAnalyzed.descriptors.getter? 0 = some function ∧
        gaugeAnalyzed.descriptors.returnType? function = some .int) ∧
        (∃ v, gaugeAnalyzed.descriptors.setterParameter? 0 = some v ∧
          gaugeAnalyzed.descriptors.valueType? v = some .int) ∧
          gaugeAnalyzed.descriptors.getterType? 4 = some .string ∧
            gaugeAnalyzed.reportsAt .semanticError 9 =
              [.ofCode .semanticError 9 Analysis.untypedProperty] := by
  have hok : ((Pass.allPasses {} gauge.declarations).run.run Pass.initialState).1 = .ok () := by
    decide +kernel
  have hrun : (Pass.allPasses {} gauge.declarations).run.run Pass.initialState =
      (.ok (), gaugeAnalyzed) := by
    unfold gaugeAnalyzed
    exact run_eq_of_fst_run hok
  have hfile : gauge.Obtained := .ofDeclarations ..
  have hlevel : gaugeAnalyzed.trace.declaration? 1 = some 0 := by decide +kernel
  have hint : gaugeAnalyzed.descriptors.valueType? 0 = some .int := by decide +kernel
  have hlabel : gaugeAnalyzed.trace.declaration? 6 = some 4 := by decide +kernel
  have hstring : gaugeAnalyzed.descriptors.valueType? 4 = some .string := by decide +kernel
  obtain ⟨level, type, hdeclared, htype, hgetter, hsetter, -⟩ :=
    accessors_share_type hfile {} hrun (.head _)
  obtain rfl := Option.some.inj (hlevel.symm.trans hdeclared)
  obtain rfl := Option.some.inj (hint.symm.trans htype)
  obtain ⟨label, type, hdeclared, htype, -, -, hfound⟩ :=
    accessors_share_type hfile {} hrun (.tail _ (.head _))
  obtain rfl := Option.some.inj (hlabel.symm.trans hdeclared)
  obtain rfl := Option.some.inj (hstring.symm.trans htype)
  obtain ⟨unit, type, -, -, -, -, huntyped⟩ :=
    accessors_share_type hfile {} hrun (.tail _ (.tail _ (.head _)))
  refine ⟨⟨hfile, hrun⟩, hgetter _ rfl rfl, hsetter _ rfl rfl, ?_, ?_⟩
  · cases hfound rfl with
    | initializer he => cases he
    | getter _ _ hgetter htype => exact Option.bind_eq_some_iff.mpr ⟨_, hgetter, htype⟩
    | untyped _ hgetter => cases hgetter
  · cases huntyped rfl with
    | initializer he => cases he
    | getter _ haccessor => cases haccessor
    | untyped _ _ _ hreports => exact hreports

end SourceFile

end DeclAnalysis
