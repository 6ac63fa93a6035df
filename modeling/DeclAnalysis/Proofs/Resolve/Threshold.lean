import DeclAnalysis.Proofs.Resolve.BodyBindings
import DeclAnalysis.Proofs.Resolve.Mismatches
import DeclAnalysis.Proofs.Resolve.Outset

/-!
# When the last pass begins

What the passes over a file have made sure of when its bodies are about to be resolved: everything
is of the right sort, every declaration is listed together with the scope that it stands in,
whatever can be called has parameters of known types, and nothing has been recorded about bodies.
-/

namespace DeclAnalysis

namespace Declaration

variable (P : List (Option Declaration × Declaration))

/-- The nodes of the import directives among declarations that are given with what is around
each. -/
def importNodesIn : List Nat := P.flatMap fun q => q.2.importNodes

/-- The nodes of signatures, and those in bodies that typing takes notice of, apart from the names
of backing fields. -/
def plainNodesIn : List Nat := P.flatMap fun q => q.2.plainNodes ++ q.2.signatureNodes

theorem importNodes_subset_ownNodes (d : Declaration) : d.importNodes ⊆ d.ownNodes := by
  cases d with
  | namespaceDecl head members => exact List.subset_cons_self ..
  | _ => exact List.nil_subset _

variable {P}

theorem signatureNodes_subset_plainNodesIn :
    P.flatMap (fun q => q.2.signatureNodes) ⊆ plainNodesIn P := by
  intro node hnode
  obtain ⟨q, hq, hnode⟩ := List.mem_flatMap.mp hnode
  exact List.mem_flatMap.mpr ⟨q, hq, List.mem_append_right _ hnode⟩

/-- A supertype is looked up at a node of the delegation list that it stands in. -/
theorem supertypeNodes_subset_plainNodesIn
    {head : ClassHead} (hhead : head ∈ P.filterMap fun q => q.2.classHead?) :
    head.supertypeRefs.map TypeRef.id ⊆ plainNodesIn P := by
  obtain ⟨q, hq, hclass⟩ := List.mem_filterMap.mp hhead
  obtain ⟨members, hself⟩ := exists_members_of_classHead? hclass
  intro node hnode
  obtain ⟨ref, href, rfl⟩ := List.mem_map.mp hnode
  obtain ⟨specifier, hspecifier, hfound⟩ := List.mem_filterMap.mp href
  have hplain : ref.id ∈ specifier.plainNodes := by
    unfold DelegationSpecifier.plainNodes
    rw [hfound]
    exact List.mem_append_left _ List.mem_cons_self
  refine List.mem_flatMap.mpr ⟨q, hq, List.mem_append_left _ ?_⟩
  rw [hself]
  exact List.mem_flatMap.mpr ⟨specifier, hspecifier, hplain⟩

end Declaration

open Declaration (importNodesIn plainNodesIn)

namespace PassState

/-- What is known when the last pass begins, of declarations that are given with what is around
each. -/
structure Poised (P : List (Option Declaration × Declaration)) (s : PassState) : Prop where
  kinded : s.WellKinded
  ordered : s.scopes.Ordered
  listed : s.Listed P
  declaring : ∀ q ∈ P, (Declaration.functionLike? q).isSome ∨ q.2.property?.isSome → ∃ scope,
    s.Houses q.1 scope ∧ s.tables.declaringScopes[q.2.id]? = some scope
  constructors : ∀ q ∈ P, ∀ {head : ClassHead} {decl : ConstructorDecl},
    q.1.bind Declaration.classHead? = some head → q.2 = .constructorDecl decl →
      ∃ classId constructor, s.trace.declaration? head.id = some classId ∧
        s.trace.declaration? decl.id = some constructor ∧
          s.descriptors.IsConstructorOf classId constructor
  typesParameters : s.descriptors.TypesParameters
  vacant : ∀ {slot : Slot}, slot.node ∉ importNodesIn P → s.Vacant slot
  quiet : s.toSession.Quiet
  fieldReports_eq : s.fieldReports (plainNodesIn P) = []

/-- A constructor that stands in a class has been attached to it. -/
theorem Registry.exists_mem_constructors
    {P : List (Option Declaration × Declaration)} {s : PassState} (hs : s.Registry P)
    (hclosed : ∀ q ∈ P, ∀ e ∈ q.1, e ∈ P.map Prod.snd)
    {q : Option Declaration × Declaration} (hq : q ∈ P) {head : ClassHead} {decl : ConstructorDecl}
    (hclass : q.1.bind Declaration.classHead? = some head) (hself : q.2 = .constructorDecl decl) :
    ∃ classId data constructor, s.trace.declaration? head.id = some classId ∧
      s.descriptors.classData? classId = some data ∧
        s.trace.declaration? decl.id = some constructor ∧ constructor ∈ data.constructors := by
  obtain ⟨around, haround, hhead⟩ := Option.bind_eq_some_iff.mp hclass
  have hlisted : head ∈ P.filterMap fun q => q.2.classHead? := by
    obtain ⟨q', hq', heq⟩ := List.mem_map.mp (hclosed q hq around haround)
    exact List.mem_filterMap.mpr ⟨q', hq', heq ▸ hhead⟩
  obtain ⟨classId, hentry⟩ := Session.exists_mem_listed hs.classes_eq hlisted
  have hdeclared := (Session.declaration?_of_mem_listed hs.classes_eq hentry).2
  obtain ⟨data, hdata, -, hconstructors⟩ := hs.constructors hentry
  have hown : Declaration.constructorOf? head.id q = some decl := by
    unfold Declaration.constructorOf?
    rw [hself, hclass]
    simp
  have hmem : s.trace.declaration? decl.id ∈ data.constructors.map some := by
    rw [hconstructors]
    refine List.mem_append_right _ ?_
    exact List.mem_map_of_mem (f := fun c : ConstructorDecl => s.trace.declaration? c.id)
      (List.mem_filterMap.mpr ⟨q, hq, hown⟩)
  obtain ⟨constructor, hconstructor, heq⟩ := List.mem_map.mp hmem
  exact ⟨classId, data, constructor, hdeclared, hdata, heq.symm, hconstructor⟩

end PassState

namespace Pass

open PassState (Poised)

variable {ds : List Declaration}

theorem vacant_initialState (slot : Slot) : initialState.Vacant slot := by
  cases slot with
  | reference node => simp [Session.Vacant, Trace.reference?, Session.trace, initialState]
  | type node => simp [Session.Vacant, Trace.expressionType?, Session.trace, initialState]

theorem quiet_initialState : initialState.toSession.Quiet := by
  refine ⟨fun id name => ?_, rfl⟩
  rw [bindings_get_initialState]
  exact Std.TreeMap.getElem?_emptyc

/-- Scopes are nested and write through to scopes that were there before. -/
theorem afterOr_declarationPasses_ordered
    (options : AnalysisOptions) (hds : (Declaration.nodesOf ds).Nodup) :
    AfterOr (declarationPasses options ds) initialState (fun _ s => s.scopes.Ordered)
      fun _ _ => True := by
  have hl : (Layout.ofFile options ds).Distinct := Layout.distinct_ofFile options hds
  refine AfterOr.bind (afterOr_collectAll_surveyed options hds) fun _ s₁ h₁ => ?_
  have hregistered := afterOr_registered_within hl h₁.1 h₁.2 (List.Subset.refl _)
  refine AfterOr.relax hregistered fun _ s₂ h₂ => ?_
  exact (h₂.1.within.formed h₁.2.formed).ordered

theorem signatureNodes_nestedIn_subset (ds : List Declaration) :
    (Declaration.nestedIn ds).flatMap Declaration.signatureNodes ⊆
      plainNodesIn (Declaration.enclosedIn none ds) := by
  rw [← Declaration.map_snd_enclosedIn none ds, List.flatMap_map]
  exact Declaration.signatureNodes_subset_plainNodesIn

/-- Before registration only import directives are typed, and no property is entered. -/
theorem afterOr_resolveClasses_sparesBodies
    (options : AnalysisOptions) (hds : (Declaration.nodesOf ds).Nodup) :
    AfterOr (do collectAll options toplevel ds; resolveClasses) initialState
      (fun _ s => PassState.SparesBodies (importNodesIn (Declaration.enclosedIn none ds))
        (plainNodesIn (Declaration.enclosedIn none ds)) initialState s) fun _ _ => True := by
  let P := Declaration.enclosedIn none ds
  have himports : (Declaration.nestedIn ds).flatMap Declaration.importNodes ⊆ importNodesIn P := by
    rw [← Declaration.map_snd_enclosedIn none ds, List.flatMap_map]
    exact List.Subset.refl _
  have hcollect : KeepsOr (PassState.SparesBodies (importNodesIn P) (plainNodesIn P)) _ :=
    sparesBodies_collectAll options toplevel ds himports (signatureNodes_nestedIn_subset ds)
  have hcollects := afterOr_collectAll_collects options none toplevel ds initialState
    owned_initialState .file nofun hds
  refine AfterOr.bind (AfterOr.forget (AfterOr.of_keepsOr hcollect hcollects)) fun _ s₁ h₁ => ?_
  have hclasses : ∀ entry ∈ s₁.tables.classes.toList,
      entry.1.supertypeRefs.map TypeRef.id ⊆ plainNodesIn P := by
    intro entry hentry
    have hlisted := Session.declaration?_of_mem_listed h₁.2.classes_eq hentry
    exact Declaration.supertypeNodes_subset_plainNodesIn hlisted.1
  have hresolve : AfterAny resolveClasses s₁
      (PassState.SparesBodies (importNodesIn P) (plainNodesIn P) s₁) :=
    afterAny_resolveClasses_sparesBodies hclasses
  exact AfterOr.relax hresolve fun _ _ h => trans_of (PassState.SparesBodies _ _) h₁.1 h

/-- Before the last pass only import directives are typed, and no backing field is asked for. -/
theorem afterOr_declarationPasses_sparesReports
    (options : AnalysisOptions) (hds : (Declaration.nodesOf ds).Nodup) :
    AfterOr (declarationPasses options ds) initialState
      (fun _ s => Session.SparesReports (importNodesIn (Declaration.enclosedIn none ds))
        (plainNodesIn (Declaration.enclosedIn none ds)) initialState.toSession s.toSession)
      fun _ _ => True := by
  let P := Declaration.enclosedIn none ds
  have hassoc : declarationPasses options ds = (do
      (do collectAll options toplevel ds; resolveClasses)
      registerAll toplevel ds
      let _ ← finalizeClasses) := by
    unfold declarationPasses
    simp only [bind_assoc]
  rw [hassoc]
  refine AfterOr.bind (afterOr_resolveClasses_sparesBodies options hds) fun _ s₂ h₂ => ?_
  have hregister : KeepsOr (PassState.SparesReports (importNodesIn P) (plainNodesIn P)) _ :=
    sparesReports_registerAll toplevel ds (signatureNodes_nestedIn_subset ds)
  refine AfterOr.bind (AfterOr.forget (hregister.afterOr s₂)) fun _ s₃ h₃ => ?_
  have hfinalize : Session.SparesBodies (importNodesIn P) (plainNodesIn P) s₃.toSession _ :=
    .of_descriptors (.finalizeClasses s₃.descriptors)
  exact trans_of (Session.SparesReports (importNodesIn P) (plainNodesIn P))
    h₂.session.toSparesReports
    (trans_of (Session.SparesReports (importNodesIn P) (plainNodesIn P)) h₃
      hfinalize.toSparesReports)

/-- The scopes of classes and namespaces are found when classes have been finalized. -/
theorem houses_finalizeClasses
    {s : PassState} {around : Option Declaration} {scope : Nat} (h : s.Houses around scope) :
    ({ s with model.descriptors := s.model.descriptors.finalizeClasses.2 } : PassState).Houses around
      scope := by
  cases h with
  | file => exact .file
  | classBody hdescriptor hdata =>
      refine .classBody hdescriptor ?_
      exact (s.model.descriptors.classData?_finalizeClasses _).trans hdata
  | namespaceBody hinner => exact .namespaceBody hinner

/-- Every declaration that is listed stands in the scope of what is around it, and constructors
belong to the classes that they stand in. -/
theorem afterOr_declarationPasses_declaring
    (options : AnalysisOptions) (hds : (Declaration.nodesOf ds).Nodup) :
    AfterOr (declarationPasses options ds) initialState
      (fun _ s => s.WellKinded →
        (∀ q ∈ Declaration.enclosedIn none ds,
          (Declaration.functionLike? q).isSome ∨ q.2.property?.isSome → ∃ scope,
            s.Houses q.1 scope ∧ s.tables.declaringScopes[q.2.id]? = some scope) ∧
        ∀ q ∈ Declaration.enclosedIn none ds, ∀ {head : ClassHead} {decl : ConstructorDecl},
          q.1.bind Declaration.classHead? = some head → q.2 = .constructorDecl decl →
            ∃ classId constructor, s.trace.declaration? head.id = some classId ∧
              s.trace.declaration? decl.id = some constructor ∧
                s.descriptors.IsConstructorOf classId constructor) fun _ _ => True := by
  let P := Declaration.enclosedIn none ds
  have hclosed : ∀ q ∈ P, ∀ e ∈ q.1, e ∈ P.map Prod.snd := fun q hq e he =>
    Declaration.mem_map_snd_of_mem_around hq he
  refine AfterOr.relax (AfterOr.run_eq _ _) fun _ s hrun => ?_
  obtain ⟨_, s₁, hcollect, hrun⟩ := exists_run_of_bind hrun
  obtain ⟨_, s₂, hresolve, hrun⟩ := exists_run_of_bind hrun
  obtain ⟨_, s₃, hregister, hrun⟩ := exists_run_of_bind hrun
  have hcollects := (afterOr_collectAll_collects options none toplevel ds initialState
    owned_initialState .file nofun hds).of_run_eq hcollect
  have hready := ((afterOr_resolveClasses_ready hds hcollects).of_run_eq hresolve).1
  have hregisters := (afterOr_registerAll_file hready).of_run_eq hregister
  have hregistry : s₃.Registry P := hregisters.registry hready
  have hfinal : s = { s₃ with model.descriptors := s₃.model.descriptors.finalizeClasses.2 } :=
    (congrArg Prod.snd hrun).symm
  subst hfinal
  intro hkinded
  constructor
  · intro q hq hlisted
    obtain ⟨scope, hscope, hdeclaring⟩ := hregisters.declaring q hq hlisted
    have haround := id_not_mem_innerNodes_of_around hready.distinct (hclosed q hq)
    exact ⟨scope, houses_finalizeClasses (hregisters.keeps.houses hscope haround), hdeclaring⟩
  · intro q hq head decl hclass hself
    obtain ⟨classId, data, constructor, hdeclared, hdata, hconstructor, hmem⟩ :=
      hregistry.exists_mem_constructors hclosed hq hclass hself
    have hdata' := (s₃.model.descriptors.classData?_finalizeClasses classId).trans hdata
    have hlt := DescriptorTable.lt_size_of_classData? (Option.isSome_of_eq_some hdata')
    have hclass := hkinded.session.descriptors.classData hlt hdata'
    exact ⟨classId, constructor, hdeclared, hconstructor, hclass.constructors constructor hmem⟩

/-- What the passes before the last one lead to. -/
theorem afterOr_declarationPasses_poised
    (options : AnalysisOptions) (hds : (Declaration.nodesOf ds).Nodup) :
    AfterOr (declarationPasses options ds) initialState
      (fun _ s => s.Poised (Declaration.enclosedIn none ds)) fun _ _ => True := by
  refine AfterOr.relax (AfterOr.run_eq _ _) fun _ s hrun => ?_
  have hkinded := (afterOr_declarationPasses_wellKinded options ds).of_run_eq hrun
  have hordered := (afterOr_declarationPasses_ordered options hds).of_run_eq hrun
  have hlisted := (afterOr_declarationPasses_listed options hds).of_run_eq hrun
  have hspares := (afterOr_declarationPasses_sparesReports options hds).of_run_eq hrun
  obtain ⟨hdeclaring, hconstructors⟩ :=
    (afterOr_declarationPasses_declaring options hds).of_run_eq hrun hkinded
  have htyped : initialState.descriptors.TypesParameters := by
    intro id signature hsignature
    cases hsignature
  refine ⟨hkinded, hordered, hlisted, hdeclaring, hconstructors, hspares.declares.typed htyped,
    fun {slot} hslot => (hspares.same hslot).vacant (vacant_initialState slot),
    hspares.quiet quiet_initialState, ?_⟩
  exact (hspares.fieldReports_eq quiet_initialState).trans rfl

end Pass

end DeclAnalysis
