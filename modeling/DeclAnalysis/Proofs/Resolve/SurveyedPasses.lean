import DeclAnalysis.Proofs.Resolve.Survey
import DeclAnalysis.Resolve.Run

/-!
# Surveyed passes

From the end of the first pass on the analysis keeps to the survey that holds there. The
supertypes of classes are resolved first, in the scopes around the classes, so that resolving
delegation lists finds them resolved.
-/

namespace DeclAnalysis

namespace Analysis

open Session (Frame)

variable {fr : Frame} {locals : List String} {refs : List TypeRef} {scope : Nat} {s : Session}

/-- A type reference that is resolved stays so. -/
theorem isSome_typeReference?_of_within
    {s' : Session} {node : Nat} (h : fr.Within s s') (hnode : (s.trace.typeReference? node).isSome) :
    (s'.trace.typeReference? node).isSome := by
  obtain ⟨type, htype⟩ := Option.isSome_iff_exists.mp hnode
  exact Option.isSome_of_eq_some (h.kept htype)

theorem after_resolveTypeRef_isSome (scope : Nat) (ref : TypeRef) (s : Session) :
    After (resolveTypeRef scope ref) s fun _ s' => (s'.trace.typeReference? ref.id).isSome := by
  refine after_bind.mpr (after_get.mpr ?_)
  have hrecord : ∀ (type : Ty) (s₁ : Session), After (do
      recordTypeReference ref.id type
      return type) s₁ fun _ s' => (s'.trace.typeReference? ref.id).isSome := by
    intro type s₁
    have hself : (s₁.trace.typeReferences.insert ref.id type)[ref.id]? = some type :=
      Std.TreeMap.getElem?_insert_self
    exact Option.isSome_of_eq_some hself
  cases htype : s.trace.typeReference? ref.id with
  | some type => exact Option.isSome_of_eq_some htype
  | none =>
      cases s.model.lookupType? scope ref.name with
      | some type => exact hrecord type s
      | none => exact hrecord _ _

/-- The supertypes that a class names are resolved afterwards. -/
theorem after_resolveSupertypes
    {head : ClassHead} (hnodes : head.supertypeRefs.map TypeRef.id ⊆ fr.nodes)
    (hrefs : head.supertypeRefs ⊆ refs) (hs : fr.ground.admits locals refs scope s) :
    After (resolveSupertypes scope head) s fun _ s' => fr.Within s s' ∧
      ∀ ref ∈ head.supertypeRefs, (s'.trace.typeReference? ref.id).isSome := by
  have hmapM : After (head.supertypeRefs.mapM fun ref => do
      supertypeOf ref (← resolveTypeRef scope ref)) s fun _ s' => fr.Within s s' ∧
        ∀ ref ∈ head.supertypeRefs, (s'.trace.typeReference? ref.id).isSome := by
    refine After.mapM_each head.supertypeRefs (fun ref href s₁ h₁ => ?_)
      fun ref s₁ s₂ h hsome => isSome_typeReference?_of_within h hsome
    have hid : ref.id ∈ fr.nodes := hnodes (List.mem_map_of_mem href)
    have hkeeps : Keeps (From (fr.ground.admits locals refs scope) fr.Within)
        (resolveTypeRef scope ref) := keepsFrom_resolveTypeRef (hrefs href) hid scope
    have hresolve := hkeeps.after s₁
    have hsome := after_resolveTypeRef_isSome scope ref s₁
    refine (hresolve.and hsome).bind fun type s₂ h₂ => ?_
    have hadmits₁ := Stable.stable (p := fr.ground.admits locals refs scope) h₁ hs
    have hsupertype : Keeps fr.Within (supertypeOf ref type) := keepsNotes_supertypeOf ref type
    exact (hsupertype.after s₂).mono fun _ s₃ h₃ =>
      ⟨(h₂.1 hadmits₁).trans h₃, isSome_typeReference?_of_within h₃ h₂.2⟩
  exact hmapM

theorem afterOr_resolveClass_within
    {head : ClassHead} (hnodes : head.supertypeRefs.map TypeRef.id ⊆ fr.nodes)
    (hrefs : head.supertypeRefs ⊆ refs) (hs : fr.ground.admits locals refs scope s)
    (descriptor : Nat) :
    AfterOr (resolveClass scope head descriptor) s (fun _ s' => fr.Within s s' ∧
        ∀ ref ∈ head.supertypeRefs, (s'.trace.typeReference? ref.id).isSome)
      fun _ s' => fr.Within s s' := by
  refine AfterOr.bind (AfterOr.lift (after_resolveSupertypes hnodes hrefs hs))
    fun supertypes s₁ h₁ => ?_
  have hset : KeepsOr fr.Within (tryDescriptors (·.setSupertypes descriptor supertypes)) :=
    keepsTypes_setSupertypes descriptor supertypes
  refine AfterOr.mono (hset.afterOr s₁) (fun _ s₂ h₂ => ?_) fun _ s₂ h₂ => h₁.1.trans h₂
  exact ⟨h₁.1.trans h₂, fun ref href => isSome_typeReference?_of_within h₂ (h₁.2 ref href)⟩

end Analysis

namespace PassState

/-- The session stays within a frame, and the tables are left alone. -/
structure StaysWithin (fr : Session.Frame) (s s' : PassState) : Prop where
  within : fr.Within s.toSession s'.toSession
  tables_eq : s'.tables = s.tables

instance (fr : Session.Frame) : IsPreorder PassState (StaysWithin fr) where
  refl s := ⟨refl_of fr.Within s.toSession, rfl⟩
  trans _ _ _ h h' := ⟨h.within.trans h'.within, h'.tables_eq.trans h.tables_eq⟩

/-- The variables that resolving bodies may bind in scopes which are there already: what the
initializers of properties declare, in the scopes of the properties, and what the delegation lists
of classes declare, in the scopes of the members. -/
inductive MayLeak (s : PassState) : Nat → String → Prop
  | initializer {entry : PropertyDecl × Nat} {scope : Nat} {name : String}
      (hentry : entry ∈ s.tables.properties.toList)
      (hscope : s.tables.declaringScopes[entry.1.id]? = some scope)
      (hname : name ∈ entry.1.openLocals) : MayLeak s (s.scopes.storage scope) name
  | delegation {entry : ClassHead × Nat} {data : ClassData} {name : String}
      (hentry : entry ∈ s.tables.classes.toList)
      (hdata : s.descriptors.classData? entry.2 = some data)
      (hname : name ∈ entry.1.openLocals) : MayLeak s (s.scopes.storage data.memberScope) name

/-- The supertypes that the collected classes name have been resolved. -/
def SupertypesResolved (s : PassState) : Prop :=
  ∀ entry ∈ s.tables.classes.toList, ∀ ref ∈ entry.1.supertypeRefs,
    (s.trace.typeReference? ref.id).isSome

end PassState

namespace Pass

open Analysis
open PassState (Carries StandsIn StaysWithin SupertypesResolved)

variable {l : Layout} {foreseen : Space → String → Ty → Prop} {s : PassState}

theorem Layout.supertypeRefs_subset
    {space : Space} {head : ClassHead} {members : List Declaration}
    (hplaced : (space, .classDecl head members) ∈ l.placed) :
    head.supertypeRefs.map TypeRef.id ⊆ l.innerNodes :=
  List.Subset.trans head.supertypeRefs_subset (Layout.innerNodes_subset hplaced)

theorem afterOr_declaringScope
    {t : Tables} {node : Nat} {p : PassState → Prop} {post : Nat → PassState → Prop} (hp : p s)
    (hpost : ∀ scope, t.declaringScopes[node]? = some scope → post scope s) :
    AfterOr (ofExcept (t.declaringScope node)) s post fun _ => p := by
  unfold Tables.declaringScope
  cases hscope : t.declaringScopes[node]? with
  | some scope => exact hpost scope hscope
  | none => exact hp

/-- The supertypes of classes are resolved in the scopes around the classes. -/
theorem afterOr_resolveClasses_within (hl : l.Distinct) (hs : s.Surveyed l foreseen) :
    AfterOr resolveClasses s
      (fun _ s' => StaysWithin (l.openFrame foreseen) s s' ∧ s'.SupertypesResolved)
      fun _ s' => StaysWithin (l.openFrame foreseen) s s' := by
  let fr := l.openFrame foreseen
  refine afterOr_bind.mpr (afterOr_tables.mpr ?_)
  let Resolved : ClassHead × Nat → PassState → Prop := fun entry s' =>
    ∀ ref ∈ entry.1.supertypeRefs, (s'.trace.typeReference? ref.id).isSome
  have hforM := @AfterOr.forM_each PassState (ClassHead × Nat) (StaysWithin fr) _
    (fun entry => do
      let scope ← ofExcept (s.tables.declaringScope entry.1.id)
      liftM (resolveClass scope entry.1 entry.2)) Resolved s.tables.classes.toList s
    (fun entry hentry s₁ h₁ => ?_)
    fun _ _ _ h hsome ref href => isSome_typeReference?_of_within h.within (hsome ref href)
  · refine AfterOr.imp hforM fun _ s' h => ⟨h.1, fun entry hentry => ?_⟩
    rw [h.1.tables_eq] at hentry
    exact h.2 entry hentry
  · have hs₁ : s₁.Surveyed l foreseen := hs.of_within hl h₁.within h₁.tables_eq
    obtain ⟨space, members, hplaced, -⟩ := hs.classes entry hentry
    have hfound : AfterOr (ofExcept (s.tables.declaringScope entry.1.id)) s₁
        (fun scope s' => s' = s₁ ∧ s.tables.declaringScopes[entry.1.id]? = some scope)
        fun _ s' => StaysWithin fr s₁ s' :=
      afterOr_declaringScope (refl_of (StaysWithin fr) s₁) fun scope hscope => ⟨rfl, hscope⟩
    refine AfterOr.bind hfound fun scope s₂ h₂ => ?_
    obtain ⟨rfl, hscope⟩ := h₂
    rw [← h₁.tables_eq] at hscope
    have hsees := hs₁.declaring hplaced hscope
    have hadmits : fr.ground.admits [] entry.1.supertypeRefs scope s₂.toSession := by
      refine hsees.admits_open fun ref href => Layout.mem_typeRefs hplaced ?_
      exact List.mem_append_left _ (List.mem_map_of_mem href)
    have hresolve := afterOr_resolveClass_within (Layout.supertypeRefs_subset hplaced)
      (List.Subset.refl _) hadmits entry.2
    refine afterOr_faultyAnalysis.mpr (AfterOr.mono hresolve (fun _ _ h => ?_) fun _ _ h => ?_)
    · exact ⟨⟨h.1, rfl⟩, h.2⟩
    · exact ⟨h, rfl⟩

theorem keepsWithin_finalizeClasses (fr : Session.Frame) :
    KeepsOr (StaysWithin fr) finalizeClasses := by
  refine ⟨fun s => ?_⟩
  exact ⟨.of_descriptors (.finalizeClasses s.descriptors), rfl⟩

/-- Supertypes and signatures are resolved within the open frame of a survey. -/
theorem afterOr_registered_within
    (hl : l.Distinct) (hs : s.Surveyed l foreseen) (htop : s.Sees foreseen [] toplevel)
    {ds : List Declaration} (hds : Declaration.placedIn l.options [] ds ⊆ l.placed) :
    AfterOr (do
      resolveClasses
      registerAll toplevel ds
      let _ ← finalizeClasses) s
      (fun _ s' => Carries l foreseen s s' ∧ s'.SupertypesResolved)
      fun _ s' => Carries l foreseen s s' := by
  have hcarries : ∀ {s s'}, StaysWithin (l.openFrame foreseen) s s' → Carries l foreseen s s' :=
    fun h => ⟨h.within, fun hs => hs.of_within hl h.within h.tables_eq,
      congrArg Tables.classes h.tables_eq⟩
  have hclasses := afterOr_resolveClasses_within hl hs
  refine AfterOr.bind (AfterOr.mono hclasses (fun _ _ h => h) fun _ _ h => hcarries h)
    fun _ s₁ h₁ => ?_
  have h₁' := hcarries h₁.1
  have hregister : KeepsOr (From (StandsIn l foreseen [] toplevel) (Carries l foreseen)) (do
      registerAll toplevel ds
      let _ ← finalizeClasses) := by
    refine (carries_registerAll hl [] toplevel ds hds).bind fun _ => ?_
    refine KeepsOr.bind (KeepsOr.from ?_) fun _ => KeepsOr.pure _
    exact (keepsWithin_finalizeClasses (l.openFrame foreseen)).mono fun _ _ => hcarries
  have hstands : StandsIn l foreseen [] toplevel s₁ := ⟨h₁'.surveyed hs, htop.of_within h₁'.within⟩
  refine AfterOr.mono (hregister.afterOr s₁) (fun _ s₂ h₂ => ?_) fun _ s₂ h₂ => ?_
  · refine ⟨trans_of (Carries l foreseen) h₁' (h₂ hstands), fun entry hentry ref href => ?_⟩
    rw [(h₂ hstands).classes_eq] at hentry
    exact isSome_typeReference?_of_within (h₂ hstands).within (h₁.2 entry hentry ref href)
  · exact trans_of (Carries l foreseen) h₁' (h₂ hstands)

/-! ### Bodies -/

section

variable {bound : Nat} {mayBind : Nat → String → Prop}

/-- Each declaration that has a body stands in a scope that sees its space. -/
theorem afterOr_declaringScope_sees
    (hl : l.Distinct) (hs : s.Surveyed l foreseen) {s₁ : PassState}
    (h₁ : StaysWithin (l.frame foreseen bound mayBind) s s₁) {space : Space} {d : Declaration}
    (hplaced : (space, d) ∈ l.placed) {p : PassState → Prop} (hp : p s₁) :
    AfterOr (ofExcept (s.tables.declaringScope d.id)) s₁
      (fun scope s₂ => s₂ = s₁ ∧ s.tables.declaringScopes[d.id]? = some scope ∧
        s₁.Sees foreseen space scope) fun _ => p := by
  have hs₁ := hs.of_within hl h₁.within h₁.tables_eq
  refine afterOr_declaringScope hp fun scope hscope => ⟨rfl, hscope, ?_⟩
  rw [← h₁.tables_eq] at hscope
  exact hs₁.declaring hplaced hscope

/-- A computation on the session that stays within a frame, as a step of a pass. -/
theorem afterAny_staysWithin
    {fr : Session.Frame} {α : Type} {x : FaultyAnalysis α} {p : Session → Prop}
    (hx : KeepsOr (From p fr.Within) x) {s₁ : PassState} (h₁ : StaysWithin fr s s₁)
    (hp : p s₁.toSession) : AfterAny (liftM x : Pass α) s₁ (StaysWithin fr s) := by
  refine afterOr_faultyAnalysis.mpr (AfterAny.mono (hx.afterOr s₁.toSession) fun s₂ h => ?_)
  have hstep : StaysWithin fr s₁ { s₁ with toSession := s₂ } := ⟨h hp, rfl⟩
  exact trans_of (StaysWithin fr) h₁ hstep

variable {s₁ : PassState}

theorem afterAny_resolveDelegations
    (hl : l.Distinct) (hs : s.Surveyed l foreseen) (hresolved : s.SupertypesResolved)
    (hformed : s.model.Formed) (hbound : bound ≤ s.scopes.size)
    (hleak : ∀ {id name}, s.MayLeak id name → bound ≤ id ∨ mayBind id name)
    (h₁ : StaysWithin (l.frame foreseen bound mayBind) s s₁) {entry : ClassHead × Nat}
    (hentry : entry ∈ s.tables.classes.toList) :
    AfterAny (liftM (resolveDelegations entry.1 entry.2) : Pass Unit) s₁
      (StaysWithin (l.frame foreseen bound mayBind) s) := by
  let fr := l.frame foreseen bound mayBind
  have hs₁ := hs.of_within hl h₁.within h₁.tables_eq
  obtain ⟨space, members, hplaced, hsees⟩ := hs₁.classes entry (h₁.tables_eq ▸ hentry)
  have hnodes : entry.1.delegationSpecifiers.flatMap DelegationSpecifier.nodes ⊆ fr.nodes :=
    fun node hnode => Layout.innerNodes_subset hplaced (List.mem_append_right _ hnode)
  let refs := entry.1.delegationSpecifiers.flatMap DelegationSpecifier.typeRefs
  have hkeeps : KeepsOr (From (fun s => ∀ data, s.descriptors.classData? entry.2 = some data →
      fr.ground.admits entry.1.openLocals refs data.memberScope s) fr.Within)
      (resolveDelegations entry.1 entry.2) :=
    keepsFrom_resolveDelegations hnodes (List.Subset.refl _) (List.Subset.refl _) entry.2
  refine afterAny_staysWithin hkeeps h₁ fun data hdata => ?_
  refine (hsees data hdata).admits (hbound.trans h₁.within.nests.size_le) (fun name hname => ?_)
    fun ref href => ?_
  · obtain ⟨data', hdata', hmembers⟩ := h₁.within.sameTypes.exists_classData? hdata
    rw [h₁.within.storage_eq hformed, hmembers]
    exact hleak (.delegation hentry hdata' hname)
  · rcases List.mem_append.mp (entry.1.typeRefs_delegationSpecifiers_subset href) with href | href
    · have hsome := hresolved entry hentry ref href
      exact .inl (isSome_typeReference?_of_within h₁.within hsome)
    · have hinner : (.classBody entry.1.id :: space, ref) ∈
          (Declaration.classDecl entry.1 members).typeRefsIn space :=
        List.mem_append_right _ (List.mem_map_of_mem href)
      exact .inr (Layout.mem_typeRefs hplaced hinner)

theorem afterAny_resolvePropertyBodies
    (options : AnalysisOptions) (hl : l.Distinct) (hs : s.Surveyed l foreseen)
    (hformed : s.model.Formed) (hbound : bound ≤ s.scopes.size)
    (hleak : ∀ {id name}, s.MayLeak id name → bound ≤ id ∨ mayBind id name)
    (h₁ : StaysWithin (l.frame foreseen bound mayBind) s s₁) {entry : PropertyDecl × Nat}
    (hentry : entry ∈ s.tables.properties.toList) :
    AfterAny (do
      let scope ← ofExcept (s.tables.declaringScope entry.1.id)
      resolvePropertyBodies options scope entry.1 entry.2 : Pass Unit) s₁
      (StaysWithin (l.frame foreseen bound mayBind) s) := by
  let fr := l.frame foreseen bound mayBind
  obtain ⟨space, hplaced⟩ := hs.properties entry hentry
  refine AfterOr.bind (afterOr_declaringScope_sees hl hs h₁ hplaced h₁) fun scope s₂ h₂ => ?_
  obtain ⟨rfl, hscope, hsees⟩ := h₂
  have hnodes : entry.1.nodes ⊆ fr.nodes := Layout.innerNodes_subset hplaced
  have hkeeps : KeepsOr (From (fr.ground.admits entry.1.openLocals entry.1.typeRefs scope)
      fr.Within) (resolvePropertyBodies options scope entry.1 entry.2) :=
    keepsFrom_resolvePropertyBodies options hnodes (List.Subset.refl _) (List.Subset.refl _) ..
  refine afterAny_staysWithin hkeeps h₁ ?_
  refine hsees.admits (hbound.trans h₁.within.nests.size_le) (fun name hname => ?_)
    fun ref href => .inr (Layout.mem_typeRefs hplaced (List.mem_map_of_mem href))
  rw [h₁.within.storage_eq hformed]
  exact hleak (.initializer hentry hscope hname)

theorem afterAny_resolveFunctionLike
    (options : AnalysisOptions) (hl : l.Distinct) (hs : s.Surveyed l foreseen)
    (hbound : bound ≤ s.scopes.size) (h₁ : StaysWithin (l.frame foreseen bound mayBind) s s₁)
    {entry : FunctionLike × Nat} (hentry : entry ∈ s.tables.functions.toList) :
    AfterAny (resolveFunctionLike options entry.1 entry.2) s₁
      (StaysWithin (l.frame foreseen bound mayBind) s) := by
  obtain ⟨f, descriptor⟩ := entry
  let fr := l.frame foreseen bound mayBind
  obtain ⟨space, hplaced⟩ := hs.functions _ hentry
  refine afterOr_bind.mpr (afterOr_tables.mpr ?_)
  rw [h₁.tables_eq, ← f.id_declaration]
  refine AfterOr.bind (afterOr_declaringScope_sees hl hs h₁ hplaced h₁) fun scope s₂ h₂ => ?_
  obtain ⟨rfl, -, hsees⟩ := h₂
  have hchecked : ∀ s₂, StaysWithin fr s s₂ → AfterAny (do
      if ((← session).descriptors.returnType? descriptor).isNone then
        throw (.at_ f.id .returnTypeUnset) : Pass Unit) s₂ (StaysWithin fr s) := by
    intro s₂ h₂
    refine afterOr_bind.mpr (afterOr_session.mpr ?_)
    split
    · exact h₂
    · exact h₂
  have hadmits : ∀ refs : List TypeRef,
      f.declaration.typeRefsIn space = refs.map (space, ·) →
        fr.ground.admits [] refs scope s₂.toSession := by
    intro refs hrefs
    refine hsees.admits (hbound.trans h₁.within.nests.size_le)
      (fun name hname => absurd hname List.not_mem_nil) fun ref href => .inr ?_
    refine Layout.mem_typeRefs hplaced ?_
    rw [hrefs]
    exact List.mem_map_of_mem href
  have hnodes : f.declaration.innerNodes ⊆ fr.nodes := Layout.innerNodes_subset hplaced
  cases f with
  | function decl =>
      obtain ⟨-, hparts⟩ := List.cons_subset.mp hnodes
      have hkeeps : KeepsOr (From (fr.ground.admits [] decl.typeRefs scope) fr.Within)
          (resolveFunctionBody options decl.id decl.body descriptor scope) :=
        keepsFrom_resolveFunctionBody options decl.id (List.append_subset.mp hparts).2
          (List.subset_append_right ..) descriptor scope
      exact AfterOr.bind (afterAny_staysWithin hkeeps h₁ (hadmits _ rfl)) fun _ => hchecked
  | constructor decl =>
      have hkeeps : KeepsOr (From (fr.ground.admits [] decl.typeRefs scope) fr.Within)
          (resolveConstructorBody options s.tables.propertiesOf scope decl descriptor) :=
        keepsFrom_resolveConstructorBody options _
          (List.Subset.trans (List.tail_subset _) hnodes) (List.Subset.refl _) scope descriptor
      exact AfterOr.bind (afterAny_staysWithin hkeeps h₁ (hadmits _ rfl)) fun _ => hchecked

/-- Resolving bodies stays within every frame that allows the variables that may be leaked. -/
theorem afterAny_resolveBodies_within
    (options : AnalysisOptions) (hl : l.Distinct) (hs : s.Surveyed l foreseen)
    (hresolved : s.SupertypesResolved) (hformed : s.model.Formed)
    (hbound : bound ≤ s.scopes.size)
    (hleak : ∀ {id name}, s.MayLeak id name → bound ≤ id ∨ mayBind id name) :
    AfterAny (resolveBodies options) s (StaysWithin (l.frame foreseen bound mayBind) s) := by
  let fr := l.frame foreseen bound mayBind
  refine afterOr_bind.mpr (afterOr_tables.mpr ?_)
  refine AfterOr.bind (AfterOr.forM (p := StaysWithin fr s) _ (fun entry hentry s₁ h₁ => ?_)
    (refl_of (StaysWithin fr) s)) fun _ s₁ h₁ => ?_
  · exact afterAny_resolveDelegations hl hs hresolved hformed hbound hleak h₁ hentry
  refine AfterOr.bind (AfterOr.forM (p := StaysWithin fr s) _ (fun entry hentry s₂ h₂ => ?_) h₁)
    fun _ s₂ h₂ => ?_
  · exact afterAny_resolvePropertyBodies options hl hs hformed hbound hleak h₂ hentry
  refine AfterOr.forM (p := StaysWithin fr s) _ (fun entry hentry s₃ h₃ => ?_) h₂
  exact afterAny_resolveFunctionLike options hl hs hbound h₃ hentry

end

end Pass

end DeclAnalysis
