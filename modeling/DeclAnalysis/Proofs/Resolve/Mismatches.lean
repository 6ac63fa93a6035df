import DeclAnalysis.Proofs.Resolve.BodyFrame
import DeclAnalysis.Proofs.Resolve.PassKinds
import DeclAnalysis.Proofs.Resolve.Unreachable
import DeclAnalysis.Proofs.Resolve.ReportedOnce

/-!
# Mismatches are founded

Types are compared while bodies are resolved, when the class hierarchy is already what it stays.
Outside of import directives it is never reported that an error type is of the wrong type or that
one is expected, nor that a type should be a subtype of another when it is one.
-/

namespace DeclAnalysis

namespace DescriptorTable

variable {t t' : DescriptorTable} {d : Diagnostic}

/-- A diagnostic says that a type is expected of which another one is no subtype, and neither of
them is an error type. -/
def Founds (t : DescriptorTable) (d : Diagnostic) : Prop :=
  ∃ expected actual, d = .mismatch d.node expected actual ∧ expected.isError = false ∧
    actual.isError = false ∧ ¬t.Subtype actual expected

theorem founds_mismatch
    (hclosed : t.HierarchyClosed) {actual expected : Ty}
    (h : t.isSubtype actual expected = false) (node : Nat) :
    t.Founds (.mismatch node expected actual) := by
  have hnot := mt (isSubtype_iff hclosed actual expected).mpr (Bool.not_eq_true _ ▸ h)
  rw [not_or, not_or, Bool.not_eq_true, Bool.not_eq_true] at hnot
  obtain ⟨hactual, hexpected, hsubtype⟩ := hnot
  exact ⟨expected, actual, rfl, hexpected, hactual, hsubtype⟩

theorem SameClassData.founds_iff (h : t.SameClassData t') :
    t'.Founds d ↔ t.Founds d := by
  unfold Founds
  simp only [h.subtype_iff]

/-- The supertypes of classes are classes, which are in the table. -/
theorem WellKinded.hierarchyClosed {scopes : Nat} (ht : t.WellKinded scopes) :
    t.HierarchyClosed := by
  intro d e hnames
  have hd := hnames.lt_size
  unfold DirectlyInherits superclasses at hnames
  split at hnames
  · rename_i data hdata
    obtain ⟨type, htype, hclass⟩ := List.mem_filterMap.mp hnames
    have hkinded := (ht.classData hd hdata).supertypes type htype
    cases type with
    | classType e' name =>
        obtain rfl := Option.some.inj hclass
        exact hkinded.lt_size
    | _ => cases hclass
  · exact absurd hnames List.not_mem_nil

end DescriptorTable

/-! ## Sessions -/

namespace Session

/-- No class has been touched, and if the hierarchy is closed, all mismatches that have been
reported are at some of the nodes and founded. -/
structure Founded (nodes : List Nat) (s s' : Session) : Prop where
  sameClassData : s.descriptors.SameClassData s'.descriptors
  founded : s.descriptors.HierarchyClosed → ∀ d ∈ s'.reports .typeMismatch,
    d ∈ s.reports .typeMismatch ∨ d.node ∈ nodes ∧ s.descriptors.Founds d

variable {nodes nodes' : List Nat} {s s' s'' : Session}

namespace Founded

theorem of_eq
    (hsame : s.descriptors.SameClassData s'.descriptors)
    (hreports : s'.reports .typeMismatch = s.reports .typeMismatch) : Founded nodes s s' :=
  ⟨hsame, fun _ _ hd => .inl (hreports ▸ hd)⟩

theorem of_diagnostics_eq
    (hsame : s.descriptors.SameClassData s'.descriptors) (h : s'.diagnostics = s.diagnostics) :
    Founded nodes s s' :=
  of_eq hsame (congrArg (fun ds : Array Diagnostic => ds.toList.filter _) h)

theorem refl (nodes : List Nat) (s : Session) : Founded nodes s s := of_eq (.refl _) rfl

theorem mono (h : Founded nodes s s') (hnodes : nodes ⊆ nodes') : Founded nodes' s s' :=
  ⟨h.sameClassData, fun hclosed d hd => (h.founded hclosed d hd).imp_right (.imp_left (@hnodes _))⟩

theorem trans (h : Founded nodes s s') (h' : Founded nodes s' s'') : Founded nodes s s'' := by
  refine ⟨h.sameClassData.trans h'.sameClassData, ?_⟩
  intro hclosed d hd
  rcases h'.founded (h.sameClassData.hierarchyClosed hclosed) d hd with hold | ⟨hnode, hfounds⟩
  · exact h.founded hclosed d hold
  · exact .inr ⟨hnode, h.sameClassData.founds_iff.mp hfounds⟩

end Founded

instance : IsPreorder Session (Founded nodes) where
  refl := .refl nodes
  trans _ _ _ := .trans

theorem Founded.of_notes (h : Notes nodes s s') : Founded nodes s s' := by
  refine .of_eq ?_ (h.reports_eq (.inl rfl))
  rw [descriptors, descriptors, h.model_eq]
  exact .refl _

instance : AllowsNotes nodes (Founded nodes) where
  of_notes := .of_notes

instance : AllowsMismatches nodes (Founded nodes) where
  of_mismatch {s node expected actual} hnode hsubtype := by
    refine ⟨.refl _, ?_⟩
    intro hclosed d hd
    have hpush := s.reports_push (.mismatch node expected actual) .typeMismatch
    rw [hpush] at hd
    rcases List.mem_append.mp hd with hold | hnew
    · exact .inl hold
    · obtain rfl := List.mem_singleton.mp hnew
      exact .inr ⟨hnode, DescriptorTable.founds_mismatch hclosed hsubtype node⟩

instance : AllowsRemarks .unreachableCode nodes (Founded nodes) where
  of_remark {s node} _ message := by
    refine .of_eq (.refl _) ?_
    have hpush := s.reports_push (.ofCode .unreachableCode node message) .typeMismatch
    rw [hpush]
    exact List.append_nil _

instance : AllowsFilling (Founded nodes) where
  of_filling h := .of_diagnostics_eq h rfl

theorem founded_resolveTypeRef (nodes : List Nat) (s : Session) (scope : Nat) (ref : TypeRef) :
    After (Analysis.resolveTypeRef scope ref) s fun _ => Founded nodes s := by
  refine after_bind.mpr (after_get.mpr ?_)
  cases s.trace.typeReference? ref.id with
  | some type => exact .refl nodes s
  | none =>
      cases s.model.lookupType? scope ref.name with
      | some type => exact .of_diagnostics_eq (.refl _) rfl
      | none =>
          have hremark : ¬DiagnosticCode.unresolvedReference.IsRemark := by decide
          exact .of_eq (.refl _) (s.reports_push_of_not_isRemark
            (d := .unresolvedType ref.id ref.name) hremark (.inl rfl))

instance : Ground.free.Allows nodes (Founded nodes) where
  stable_admits _ _ := trivial
  stable_fresh _ _ := trivial
  admits_of_fresh _ _ := trivial
  createVariable _ _ _ _ := ⟨fun _ => .of_diagnostics_eq (.create _ _ _ rfl) rfl⟩
  resolveTypeRef _ _ _ := founded_resolveTypeRef ..
  createScope _ _ _ := ⟨.of_diagnostics_eq (.refl _) rfl, trivial⟩
  addVariable _ _ _ := .of_diagnostics_eq (.refl _) rfl
  bind _ _ _ _ := .of_diagnostics_eq (.refl _) rfl

end Session

/-! ## The last pass -/

/-- Some nodes have been looked at, and all mismatches that have been reported are founded. -/
def PassState.Founded (s s' : PassState) : Prop :=
  ∃ nodes, s.toSession.Founded nodes s'.toSession

instance : IsPreorder PassState PassState.Founded where
  refl s := ⟨[], .refl [] s.toSession⟩
  trans _ _ _ := by
    rintro ⟨nodes, h⟩ ⟨nodes', h'⟩
    exact ⟨nodes ++ nodes', (h.mono (List.subset_append_left ..)).trans
      (h'.mono (List.subset_append_right ..))⟩

namespace Pass

open Analysis
open Session (Founded Ground)

theorem foundedOr_faultyAnalysis
    {α : Type} {nodes : List Nat} {x : FaultyAnalysis α} (h : KeepsOr (Founded nodes) x) :
    KeepsOr PassState.Founded (liftM x : Pass α) := by
  refine KeepsOr.of_afterOr fun s => afterOr_faultyAnalysis.mpr ?_
  exact AfterAny.mono (h.afterOr s.toSession) fun _ h => ⟨nodes, h⟩

theorem foundedOr_resolveDelegations (head : ClassHead) (descriptor : Nat) :
    KeepsOr PassState.Founded (liftM (resolveDelegations head descriptor) : Pass Unit) := by
  have hresolve := keepsFrom_resolveDelegations (g := .free) (R := Founded _)
    (List.Subset.refl (head.delegationSpecifiers.flatMap DelegationSpecifier.nodes))
    (List.Subset.refl _) (List.Subset.refl _) descriptor
  exact foundedOr_faultyAnalysis (hresolve.mono fun _ _ h => h fun _ _ => trivial)

theorem foundedOr_resolveProperty
    (options : AnalysisOptions) (decl : PropertyDecl) (t : Tables) (property : Nat) :
    KeepsOr PassState.Founded (do
      let scope ← ofExcept (t.declaringScope decl.id)
      resolvePropertyBodies options scope decl property : Pass Unit) := by
  refine (keepsOr_ofExcept _).bind fun scope => ?_
  have hresolve := keepsFrom_resolvePropertyBodies (g := .free) (R := Founded decl.nodes) options
    (List.Subset.refl _) (List.Subset.refl _) (List.Subset.refl _) scope property
  exact foundedOr_faultyAnalysis (hresolve.mono fun _ _ h => h trivial)

theorem foundedOr_resolveFunctionLike
    (options : AnalysisOptions) (f : FunctionLike) (descriptor : Nat) :
    KeepsOr PassState.Founded (resolveFunctionLike options f descriptor) := by
  refine keepsOr_tables.bind fun tables => (keepsOr_ofExcept _).bind fun scope => ?_
  cases f with
  | function decl =>
      have hresolve := Ground.free_keepsOr (keepsFrom_resolveFunctionBody (R := Founded _) options
        decl.id (List.Subset.refl (Expr.optionalNodes decl.body)) (List.Subset.refl _)
        descriptor scope)
      exact (foundedOr_faultyAnalysis hresolve).bind fun _ =>
        keepsOr_requireReturnType ..
  | constructor decl =>
      have hresolve := Ground.free_keepsOr (keepsFrom_resolveConstructorBody
        (R := Founded decl.nodes) options tables.propertiesOf (List.tail_subset _)
        (List.Subset.refl _) scope descriptor)
      exact (foundedOr_faultyAnalysis hresolve).bind fun _ =>
        keepsOr_requireReturnType ..

/-- All mismatches that resolving bodies reports are founded. -/
theorem foundedOr_resolveBodies (options : AnalysisOptions) :
    KeepsOr PassState.Founded (resolveBodies options) := by
  refine keepsOr_tables.bind fun tables => ?_
  refine KeepsOr.bind (KeepsOr.forM _ fun entry _ => ?_) fun _ => ?_
  · exact foundedOr_resolveDelegations entry.1 entry.2
  refine KeepsOr.bind (KeepsOr.forM _ fun entry _ => ?_) fun _ => ?_
  · exact foundedOr_resolveProperty options entry.1 tables entry.2
  exact KeepsOr.forM _ fun entry _ => foundedOr_resolveFunctionLike options entry.1 entry.2

end Pass

/-! ## Before the last pass -/

namespace Config

/-- The passes before the last one are the first tasks on the agenda. -/
theorem performs_declarationPasses (options : AnalysisOptions) (ds : List Declaration) :
    Performs options
      (ds.map (.collect Pass.toplevel) ++
        (.resolveClasses :: (ds.map (.register Pass.toplevel) ++ [.finalizeClasses])))
      (Pass.declarationPasses options ds) := by
  have hfinalize : Performs options [.finalizeClasses]
      (Pass.finalizeClasses >>= fun _ => pure ()) :=
    performs_task rfl fun _ => performs_nil
  exact (performs_collectAll Pass.toplevel ds).append
    (performs_resolveClasses.append ((performs_registerAll Pass.toplevel ds).append hfinalize))

end Config

namespace Declaration

theorem node_mem_importNodes
    {d : Declaration} (hnodes : d.ownNodes.Nodup) {p : Place} (hp : p ∈ d.collectPlaces) :
    p.node ∈ d.importNodes := by
  cases d with
  | namespaceDecl head members =>
      obtain ⟨-, himports⟩ := List.nodup_cons.mp hnodes
      have hspread : Place.Spread _ (head.imports.flatMap ImportDirective.places) :=
        .flatMap himports fun _ _ => ImportDirective.spread_places
      exact hspread.node_mem p hp
  | _ => exact absurd hp List.not_mem_nil

/-- Nothing that is imported is said to be unreachable. -/
theorem code_ne_unreachableCode {d : Declaration} {p : Place} (hp : p ∈ d.collectPlaces) :
    p.code ≠ .unreachableCode := by
  intro hcode
  cases d with
  | namespaceDecl head members =>
      obtain ⟨i, -, hp⟩ := List.mem_flatMap.mp hp
      obtain ⟨e, -, hp⟩ := List.mem_flatMap.mp hp
      rcases List.mem_append.mp hp with hp | hp
      · have hcases := e.ofTyping_of_mem p hp
        simp [Expr.OfTyping, hcode] at hcases
      · obtain rfl := List.mem_singleton.mp hp
        cases hcode
  | _ => exact absurd hp List.not_mem_nil

/-- No expression is remarked upon when supertypes are resolved, nor when signatures are. -/
theorem not_isRemark_of_mem
    {d : Declaration} {p : Place} (hp : p ∈ d.supertypePlaces ++ d.registerPlaces) :
    ¬p.code.IsRemark := by
  have hparameters : ∀ {ps : List Parameter}, p ∈ parameterPlaces ps → ¬p.code.IsRemark := by
    intro ps hp
    obtain ⟨parameter, -, hp⟩ := List.mem_flatMap.mp hp
    obtain rfl := List.mem_singleton.mp hp
    exact (by decide : ¬DiagnosticCode.semanticError.IsRemark)
  rcases List.mem_append.mp hp with hp | hp
  · obtain ⟨head, -, hp⟩ := List.mem_flatMap.mp hp
    obtain ⟨specifier, -, hp⟩ := List.mem_flatMap.mp hp
    obtain ⟨ref, -, hp⟩ := List.mem_flatMap.mp hp
    obtain rfl := List.mem_singleton.mp hp
    exact (by decide : ¬DiagnosticCode.semanticError.IsRemark)
  · cases d with
    | classDecl | functionDecl => exact hparameters hp
    | classObject | typedefDecl | extensionDecl =>
        obtain rfl := List.mem_singleton.mp hp
        exact (by decide : ¬DiagnosticCode.unsupportedConstruct.IsRemark)
    | constructorDecl =>
        rcases List.mem_cons.mp hp with rfl | hp
        · exact (by decide : ¬DiagnosticCode.misplacedConstructor.IsRemark)
        · exact hparameters hp
    | namespaceDecl | propertyDecl => exact absurd hp List.not_mem_nil

end Declaration

namespace Pass

open Declaration (nestedIn)

variable (options : AnalysisOptions) (ds : List Declaration)

variable {options ds} in
/-- Wherever the tasks of an analysis have led to, the state is well-kinded. -/
theorem afterOr_performs_wellKinded
    {tasks rest : List Task} {x : Pass Unit} (hx : Config.Performs options tasks x)
    (htasks : tasks ++ rest = Task.agenda ds) :
    AfterOr x initialState (fun _ s => s.WellKinded) fun _ _ => True := by
  refine AfterOr.relax (hx rest initialState) fun _ s hreaches => ?_
  rw [htasks] at hreaches
  exact ((Config.wellKinded_start ds).reaches hreaches).state

theorem afterOr_declarationPasses_wellKinded :
    AfterOr (declarationPasses options ds) initialState (fun _ s => s.WellKinded)
      fun _ _ => True := by
  have hagenda : ds.map (.collect toplevel) ++
      (.resolveClasses :: (ds.map (.register toplevel) ++ [.finalizeClasses])) ++
        [.resolveBodies] = Task.agenda ds := by
    simp only [Task.agenda, List.append_assoc, List.cons_append, List.nil_append]
  exact afterOr_performs_wellKinded (Config.performs_declarationPasses options ds) hagenda

/-- Before the last pass only expressions in import directives have been remarked upon, and only
because they are of the wrong type. -/
theorem afterAny_declarationPasses_remarks (hds : (Declaration.nodesOf ds).Nodup) :
    AfterAny (declarationPasses options ds) initialState fun s =>
      ∀ d ∈ s.diagnostics.toList, d.code.IsRemark →
        d.code ≠ .unreachableCode ∧ ∃ d' ∈ nestedIn ds, d.node ∈ d'.importNodes := by
  refine AfterAny.mono (afterAny_declarationPasses options hds) fun s hposts => ?_
  intro d hd hremark
  obtain ⟨types, others, hperm, htypes, -, hsub⟩ := (hposts rfl).exists_split rfl
  rcases List.mem_append.mp (hperm.mem_iff.mp hd) with hd | hd
  · obtain ⟨node, -, name, rfl⟩ := htypes d hd
    exact absurd hremark (by decide : ¬DiagnosticCode.unresolvedReference.IsRemark)
  · have hplace := hsub.subset (List.mem_map_of_mem (f := Diagnostic.place) hd)
    rcases List.mem_append.mp hplace with hcollect | hrest
    · obtain ⟨d', hd', hcollect⟩ := List.mem_flatMap.mp hcollect
      have hnodes : d'.ownNodes.Nodup := by
        rw [← Declaration.flatMap_ownNodes_nestedIn] at hds
        exact (List.nodup_flatMap.mp hds).1 d' hd'
      exact ⟨Declaration.code_ne_unreachableCode hcollect, d', hd',
        Declaration.node_mem_importNodes hnodes hcollect⟩
    · refine absurd hremark ?_
      rcases List.mem_append.mp hrest with hrest | hrest
      · obtain ⟨d', -, hrest⟩ := List.mem_flatMap.mp hrest
        exact Declaration.not_isRemark_of_mem (List.mem_append_left _ hrest)
      · obtain ⟨d', -, hrest⟩ := List.mem_flatMap.mp hrest
        exact Declaration.not_isRemark_of_mem (List.mem_append_right _ hrest)

end Pass

/-! ## Files -/

namespace SourceFile

theorem mismatches_founded_ofDeclarations
    (name : String) (ds : List Declaration) (options : AnalysisOptions)
    (hfault : ((ofDeclarations name ds).analyze options).fault = none) :
    ∀ d ∈ ((ofDeclarations name ds).analyze options).session.reports .typeMismatch,
      (∃ d' ∈ Declaration.nestedIn (ofDeclarations name ds).declarations,
        d.node ∈ d'.importNodes) ∨
        ((ofDeclarations name ds).analyze options).session.descriptors.Founds d := by
  let declarations := (ofDeclarations name ds).declarations
  have hnodes : (Declaration.nodesOf declarations).Nodup :=
    (pairwise_nodes_ofDeclarations name ds).imp Nat.ne_of_lt
  refine session_of_afterOr_allPasses (p := fun s => ∀ d ∈ s.reports .typeMismatch,
    (∃ d' ∈ Declaration.nestedIn declarations, d.node ∈ d'.importNodes) ∨
      s.descriptors.Founds d) ?_ hfault
  rw [Pass.allPasses_eq]
  have hkinded := Pass.afterOr_declarationPasses_wellKinded options declarations
  have hbefore := Pass.afterAny_declarationPasses_remarks options declarations hnodes
  refine AfterOr.bind (AfterOr.forget (hkinded.and hbefore)) fun _ s hs => ?_
  obtain ⟨hs, hold⟩ := hs
  refine AfterOr.relax ((Pass.foundedOr_resolveBodies options).afterOr s) fun _ s' h => ?_
  obtain ⟨nodes, hfounded⟩ := h
  intro d hd
  rcases hfounded.founded hs.session.descriptors.hierarchyClosed d hd with hreported | ⟨-, hfounds⟩
  · obtain ⟨hreported, hcode⟩ := List.mem_filter.mp hreported
    exact .inl (hold d hreported (.inl (of_decide_eq_true hcode))).2
  · exact .inr (hfounded.sameClassData.founds_iff.mpr hfounds)

/-- A class inherits from another one. Two properties are initialized with instances of the class
that is not named as their type, the one of a subtype and the other one not. -/
def narrowed : SourceFile :=
  ofDeclarations "narrowed"
    [.classDecl
      { name := some "B", delegationSpecifiers := [.superClass 0 { name := "A" }] } [],
     .classDecl { name := some "A" } [],
     .propertyDecl
      { name := "a", typeRef := some { name := "A" }, initializer := some (.call 0 "B" []) },
     .propertyDecl
      { name := "b", typeRef := some { name := "B" }, initializer := some (.call 0 "A" []) }]

end SourceFile

end DeclAnalysis
