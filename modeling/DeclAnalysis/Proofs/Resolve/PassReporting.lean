import DeclAnalysis.Proofs.Resolve.Reporting

/-!
# Where an analysis reports

Every pass takes notice of every declaration once, and the passes report at different places. So an
analysis reports at the places of the declarations of its file only, and at each of them at most
once, whether or not a fault stops it.
-/

namespace DeclAnalysis

namespace PassState

/-- If nobody watches, nothing is reported between the states but what stands at the places. -/
def Posts (nodes : List Nat) (places : List Place) (s s' : PassState) : Prop :=
  Session.PostsUnwatched nodes places s.toSession s'.toSession

instance (nodes : List Nat) : Gathers (Posts nodes) where
  refl s := Gathers.refl (R := Session.PostsUnwatched nodes) s.toSession
  append h h' := Gathers.append (R := Session.PostsUnwatched nodes) h h'
  mono h hsub := Gathers.mono (R := Session.PostsUnwatched nodes) h hsub

end PassState

namespace Pass

open Analysis

variable {α : Type} {nodes : List Nat} {places : List Place}

/-! ## Computations of a pass -/

theorem postsOr_faultyAnalysis
    {x : FaultyAnalysis α} (h : PostsOr (Session.PostsUnwatched nodes) places x) :
    PostsOr (PassState.Posts nodes) places (liftM x : Pass α) :=
  KeepsOr.of_afterOr fun s => afterOr_faultyAnalysis.mpr (h.afterOr s.toSession)

theorem postsOr_analysis {x : Analysis α} (h : Posts nodes places x) :
    PostsOr (PassState.Posts nodes) places (liftM x : Pass α) :=
  KeepsOr.of_afterOr fun s => afterOr_analysis.mpr
    ((h.after s.toSession).mono fun _ _ h _ => h)

theorem postsOr_onTables (f : Tables → Tables) :
    PostsOr (PassState.Posts nodes) [] (onTables f) :=
  KeepsOr.of_afterOr fun s => afterOr_onTables.mpr fun _ => Session.Posts.refl nodes s.toSession

theorem postsOr_session_bind
    {f : Session → Pass α} (h : ∀ s, PostsOr (PassState.Posts nodes) places (f s)) :
    PostsOr (PassState.Posts nodes) places (session >>= f) :=
  KeepsOr.of_afterOr fun s => (h s.toSession).afterOr s

theorem postsOr_tables_bind
    {f : Tables → Pass α} (h : ∀ t, PostsOr (PassState.Posts nodes) places (f t)) :
    PostsOr (PassState.Posts nodes) places (tables >>= f) :=
  KeepsOr.of_afterOr fun s => (h s.tables).afterOr s

theorem postsOr_ofExcept (x : Except Fault α) :
    PostsOr (PassState.Posts nodes) [] (ofExcept x) := by
  cases x with
  | ok a => exact .pure a
  | error fault => exact .throw fault

theorem postsOr_forM_none
    {f : α → Pass PUnit} (xs : List α) (h : ∀ x, PostsOr (PassState.Posts nodes) [] (f x)) :
    PostsOr (PassState.Posts nodes) [] (xs.forM f) :=
  (PostsOr.forM xs fun x _ => h x).mono (by simp)

/-! ## Collecting -/

theorem postsOr_collectClass (scope : Nat) (head : ClassHead) :
    PostsOr (PassState.Posts nodes) [] (collectClass scope head) := by
  refine postsOr_session_bind fun s => ?_
  refine (postsOr_analysis (posts_createScope ..)).bind_first fun members => ?_
  refine (postsOr_analysis (posts_createDescriptor ..)).bind_first fun descriptor => ?_
  refine (postsOr_analysis (posts_onScopes _)).bind_first fun _ => ?_
  refine (postsOr_analysis (posts_recordDeclaration ..)).bind_first fun _ => ?_
  exact (postsOr_onTables _).bind_first fun _ => .pure _

theorem postsOr_declareNamespace (scope : Nat) (name : String) (node : Nat) :
    PostsOr (PassState.Posts nodes) [] (declareNamespace scope name node) := by
  refine postsOr_session_bind fun s => ?_
  refine (postsOr_analysis (posts_createScope ..)).bind_first fun members => ?_
  refine (postsOr_analysis (posts_createDescriptor ..)).bind_first fun descriptor => ?_
  refine (postsOr_analysis (posts_onScopes _)).bind_first fun _ => ?_
  exact (postsOr_analysis (posts_recordDeclaration ..)).bind_first fun _ => .pure _

theorem postsOr_importMembers
    {imported : Expr} (hnodes : imported.nodes ⊆ nodes) (scope : Nat) :
    PostsOr (PassState.Posts nodes) (imported.places ++ [.semantic imported.id 'C'])
      (importMembers scope imported) := by
  refine (postsOr_analysis (posts_infer scope imported hnodes)).bind fun type => ?_
  cases type with
  | none => exact (PostsOr.pure _).none
  | some type =>
      refine postsOr_session_bind fun s => ?_
      split
      · exact (postsOr_analysis (posts_onScopes _)).none
      · split
        · exact postsOr_analysis (posts_reportSemantic _ (by simp))
        · exact (PostsOr.pure _).none

theorem postsOr_applyImport {i : ImportDirective} (hnodes : i.nodes ⊆ nodes) (scope : Nat) :
    PostsOr (PassState.Posts nodes) i.places (applyImport scope i) := by
  refine applyImport_cases (p := PostsOr _ _) scope i (fun _ => (PostsOr.throw _).none)
    (PostsOr.pure _).none ?_
  intro imported himported
  have hsub := ImportDirective.nodes_subset_of_imported himported
  rw [ImportDirective.places, himported, Option.toList_some, List.flatMap_singleton]
  exact postsOr_importMembers (List.Subset.trans hsub hnodes) scope

theorem postsOr_collectNamespace
    (options : AnalysisOptions) (scope : Nat) {head : NamespaceHead} (hnodes : head.nodes ⊆ nodes) :
    PostsOr (PassState.Posts nodes) (head.imports.flatMap ImportDirective.places)
      (collectNamespace options scope head) := by
  obtain ⟨-, hnodes⟩ := List.cons_subset.mp hnodes
  have hrest : ∀ descriptor, PostsOr (PassState.Posts nodes)
      (head.imports.flatMap ImportDirective.places) (openContents scope head descriptor) := by
    intro descriptor
    unfold openContents
    refine postsOr_session_bind fun s => ?_
    split
    · exact (PostsOr.throw _).none
    · refine (postsOr_analysis (posts_createWriteThrough ..)).bind_first fun inner => ?_
      refine (postsOr_onTables _).bind_first fun _ => ?_
      refine PostsOr.bind_last (PostsOr.forM _ fun i hi => ?_) fun _ => .pure _
      refine postsOr_applyImport (fun node hnode => hnodes ?_) inner
      exact List.mem_flatMap.mpr ⟨i, hi, hnode⟩
  refine postsOr_session_bind fun s => ?_
  dsimp only
  split
  · exact hrest _
  · exact (postsOr_declareNamespace ..).bind_first hrest

open Declaration (nestedIn)

mutual

theorem postsOr_collect
    (options : AnalysisOptions) (scope : Nat) (d : Declaration) (hnodes : d.nodes ⊆ nodes) :
    PostsOr (PassState.Posts nodes) (d.nested.flatMap Declaration.collectPlaces)
      (collect options scope d) := by
  match d with
  | .classDecl head members =>
      obtain ⟨-, hmembers⟩ := List.append_subset.mp hnodes
      exact (postsOr_collectClass scope head).bind_first fun inner =>
        postsOr_collectAll options inner members hmembers
  | .namespaceDecl head members =>
      obtain ⟨hhead, hmembers⟩ := List.append_subset.mp hnodes
      exact (postsOr_collectNamespace options scope hhead).bind fun inner =>
        postsOr_collectAll options inner members hmembers
  | .typedefDecl .. | .extensionDecl .. => exact .throw _
  | .classObject _ members =>
      exact postsOr_collectAll options scope members (List.cons_subset.mp hnodes).2
  | .functionDecl _ | .propertyDecl _ | .constructorDecl _ => exact .pure _

/-- Collecting reports about imports alone. -/
theorem postsOr_collectAll
    (options : AnalysisOptions) (scope : Nat) (ds : List Declaration)
    (hnodes : Declaration.nodesOf ds ⊆ nodes) :
    PostsOr (PassState.Posts nodes) ((nestedIn ds).flatMap Declaration.collectPlaces)
      (collectAll options scope ds) := by
  match ds with
  | [] => exact .pure _
  | d :: rest =>
      obtain ⟨hfirst, hrest⟩ := List.append_subset.mp hnodes
      rw [nestedIn, List.flatMap_append]
      exact (postsOr_collect options scope d hfirst).bind fun _ =>
        postsOr_collectAll options scope rest hrest

end

/-! ## Signatures -/

/-- Every class of the tables is reported about in the order of the tables. -/
theorem afterAny_resolveClasses
    {s : PassState} (hnodes : ∀ entry ∈ s.tables.classes.toList, entry.1.nodes ⊆ nodes) :
    AfterAny resolveClasses s (PassState.Posts nodes
      (s.tables.classes.toList.flatMap fun entry =>
        entry.1.delegationSpecifiers.flatMap DelegationSpecifier.supertypePlaces) s) := by
  refine afterOr_bind.mpr (afterOr_tables.mpr ?_)
  refine (PostsOr.forM _ fun entry hentry => ?_).afterOr s
  refine (postsOr_ofExcept _).bind_first fun scope => postsOr_faultyAnalysis ?_
  refine (postsOr_resolveClass ?_ scope entry.2).unwatched
  exact List.Subset.trans entry.1.supertypeRefs_subset
    (List.Subset.trans (List.tail_subset _) (hnodes entry hentry))

theorem postsOr_registerClass {head : ClassHead} (hnodes : head.nodes ⊆ nodes) :
    PostsOr (PassState.Posts nodes) (parameterPlaces (head.primaryConstructor.getD []))
      (registerClass head) := by
  obtain ⟨-, hnodes⟩ := List.cons_subset.mp hnodes
  rw [List.append_subset] at hnodes
  refine postsOr_session_bind fun s => ?_
  split
  · exact (PostsOr.throw _).none
  · rename_i descriptor _
    refine postsOr_session_bind fun s => ?_
    split
    · exact (PostsOr.throw _).none
    · refine PostsOr.bind_last (postsOr_faultyAnalysis
        (postsOr_resolvePrimaryConstructor hnodes.1 _).unwatched) fun result => ?_
      obtain ⟨constructor, properties⟩ := result
      refine PostsOr.bind_first (postsOr_forM_none _ fun property => ?_) fun _ => ?_
      · refine (postsOr_analysis (posts_onScopes _)).bind_first fun _ => ?_
        refine (postsOr_analysis (posts_recordBackingField _)).bind_first fun _ => ?_
        exact postsOr_onTables _
      · cases constructor with
        | none => exact .pure _
        | some c =>
            exact (postsOr_faultyAnalysis (postsOr_tryDescriptors _).unwatched).bind_first
              fun _ => .pure _

theorem postsOr_registerFunction {decl : FunctionDecl} (hnodes : decl.nodes ⊆ nodes) (scope : Nat) :
    PostsOr (PassState.Posts nodes) (parameterPlaces decl.parameters)
      (registerFunction scope decl) := by
  refine postsOr_session_bind fun s => ?_
  refine PostsOr.bind_last (postsOr_faultyAnalysis
    (postsOr_resolveFunction hnodes ..).unwatched) fun function => ?_
  exact (postsOr_analysis (posts_onScopes _)).bind_first fun _ => postsOr_onTables _

theorem postsOr_registerProperty {decl : PropertyDecl} (hnodes : decl.nodes ⊆ nodes) (scope : Nat) :
    PostsOr (PassState.Posts nodes) [] (registerProperty scope decl) := by
  refine postsOr_session_bind fun s => ?_
  refine PostsOr.bind_last (postsOr_faultyAnalysis
    (postsOr_resolveProperty hnodes ..).unwatched) fun property => ?_
  exact (postsOr_analysis (posts_onScopes _)).bind_first fun _ => postsOr_onTables _

theorem postsOr_registerConstructor
    {decl : ConstructorDecl} (hnodes : decl.nodes ⊆ nodes) (scope : Nat) :
    PostsOr (PassState.Posts nodes)
      (⟨.misplacedConstructor, decl.id, 'C'⟩ :: parameterPlaces decl.parameters)
      (registerConstructor scope decl) := by
  refine postsOr_session_bind fun s => ?_
  split
  · have hcode : DiagnosticCode.misplacedConstructor ≠ .unresolvedReference := by decide
    refine (postsOr_analysis (posts_reportCode hcode decl.id (by rfl))).mono ?_
    exact (List.sublist_append_left [_] _).subperm
  · rename_i classId _
    refine PostsOr.mono (PostsOr.bind_last (postsOr_faultyAnalysis
      (postsOr_resolveConstructor hnodes ..).unwatched) fun constructor => ?_)
      (List.sublist_cons_self ..).subperm
    exact (postsOr_faultyAnalysis (postsOr_tryDescriptors _).unwatched).bind_first fun _ =>
      postsOr_onTables _

mutual

theorem postsOr_register (scope : Nat) (d : Declaration) (hnodes : d.nodes ⊆ nodes) :
    PostsOr (PassState.Posts nodes) (d.nested.flatMap Declaration.registerPlaces)
      (register scope d) := by
  have hcode : DiagnosticCode.unsupportedConstruct ≠ .unresolvedReference := by decide
  match d with
  | .classDecl head members =>
      obtain ⟨hhead, hmembers⟩ := List.append_subset.mp hnodes
      exact (postsOr_registerClass hhead).bind fun inner =>
        postsOr_registerAll inner members hmembers
  | .classObject id members =>
      exact (postsOr_analysis (posts_reportCode hcode id (by rfl))).bind fun _ =>
        postsOr_registerAll scope members (List.cons_subset.mp hnodes).2
  | .namespaceDecl head members =>
      obtain ⟨-, hmembers⟩ := List.append_subset.mp hnodes
      refine postsOr_tables_bind fun t => ?_
      split
      · exact (PostsOr.throw _).none
      · exact postsOr_registerAll _ members hmembers
  | .functionDecl decl =>
      rw [Declaration.nested, List.flatMap_singleton]
      exact postsOr_registerFunction hnodes scope
  | .propertyDecl decl => exact postsOr_registerProperty hnodes scope
  | .constructorDecl decl =>
      rw [Declaration.nested, List.flatMap_singleton]
      exact postsOr_registerConstructor hnodes scope
  | .typedefDecl id _ | .extensionDecl id _ =>
      exact postsOr_analysis (posts_reportCode hcode id (by rfl))

/-- Registering reports about signatures and about what is not supported. -/
theorem postsOr_registerAll
    (scope : Nat) (ds : List Declaration) (hnodes : Declaration.nodesOf ds ⊆ nodes) :
    PostsOr (PassState.Posts nodes) ((nestedIn ds).flatMap Declaration.registerPlaces)
      (registerAll scope ds) := by
  match ds with
  | [] => exact .pure _
  | d :: rest =>
      obtain ⟨hfirst, hrest⟩ := List.append_subset.mp hnodes
      rw [nestedIn, List.flatMap_append]
      exact (postsOr_register scope d hfirst).bind fun _ => postsOr_registerAll scope rest hrest

end

/-! ## Bodies -/

theorem postsOr_finalizeClasses : PostsOr (PassState.Posts nodes) [] finalizeClasses :=
  KeepsOr.of_afterOk fun _ _ => Session.Posts.of_eq rfl rfl rfl

/-- The body of a function or constructor is resolved, where that of a function is numbered. -/
theorem postsOr_resolveFunctionLike
    (options : AnalysisOptions) {f : FunctionLike} (hnodes : f.nodes ⊆ nodes)
    (hnumber : ∀ decl, f = .function decl → ∀ e ∈ decl.body, ∃ n e₀, e = Expr.number n e₀)
    (descriptor : Nat) :
    PostsOr (PassState.Posts nodes) f.places (resolveFunctionLike options f descriptor) := by
  have hcheck : PostsOr (PassState.Posts nodes) [] (do
      if ((← session).descriptors.returnType? descriptor).isNone then
        throw (.at_ f.id .returnTypeUnset) : Pass Unit) := by
    refine postsOr_session_bind fun s => ?_
    split
    · exact .throw _
    · exact .pure _
  refine postsOr_tables_bind fun tables => (postsOr_ofExcept _).bind_first fun scope => ?_
  cases f with
  | function decl =>
      have hbody : Expr.optionalNodes decl.body ⊆ nodes := fun node hnode =>
        hnodes (List.mem_cons_of_mem _ (List.mem_append_right _ hnode))
      exact PostsOr.bind_last (postsOr_faultyAnalysis (postsOr_resolveFunctionBody options
        decl.id (hnumber decl rfl) hbody descriptor scope).unwatched) fun _ => hcheck
  | constructor decl =>
      exact PostsOr.bind_last (postsOr_faultyAnalysis
        (postsOr_resolveConstructorBody options _ hnodes scope descriptor)) fun _ => hcheck

/-- What is said of the entries of a table is said of the declarations that they come from. -/
theorem flatMap_listed
    {ι : Type} {ds : List ι} {listed : List (α × Nat)} {f : ι → Option α}
    (h : listed.map Prod.fst = ds.filterMap f) (g : α → List Place) :
    (listed.flatMap fun entry => g entry.1) = ds.flatMap fun d => (f d).toList.flatMap g := by
  rw [← List.flatMap_map Prod.fst g, h, List.filterMap_eq_flatMap_toList, List.flatMap_assoc]

theorem functionPlaces_sublist (q : Option Declaration × Declaration) :
    ((Declaration.functionLike? q).toList.flatMap FunctionLike.places).Sublist
      q.2.functionPlaces := by
  obtain ⟨around, d⟩ := q
  cases d with
  | functionDecl decl =>
      show List.Sublist (List.flatMap FunctionLike.places [.function decl]) _
      rw [List.flatMap_singleton]
      exact .refl _
  | constructorDecl decl =>
      cases hhead : around.bind Declaration.classHead? with
      | none => simp [Declaration.functionLike?, hhead]
      | some head =>
          have hf : Declaration.functionLike? (around, .constructorDecl decl) =
              some (.constructor decl) := by
            simp [Declaration.functionLike?, hhead]
          rw [hf, Option.toList_some, List.flatMap_singleton]
          exact .refl _
  | _ => exact List.nil_sublist _

section

variable {P : List (Option Declaration × Declaration)} {s : PassState} (hs : s.Listed P)
  (hnodes : ∀ q ∈ P, q.2.ownNodes ⊆ nodes)

include hs hnodes

theorem postsOr_classes :
    PostsOr (PassState.Posts nodes) (P.flatMap fun q => q.2.delegationPlaces)
      (s.tables.classes.toList.forM fun (head, descriptor) =>
        (liftM (resolveDelegations head descriptor) : Pass Unit)) := by
  have hplaces := flatMap_listed (Session.map_fst_listed hs.classes_eq)
    fun head => head.delegationSpecifiers.flatMap DelegationSpecifier.classPlaces
  unfold Declaration.delegationPlaces
  rw [← hplaces]
  refine PostsOr.forM _ fun entry hentry => ?_
  obtain ⟨hhead, -⟩ := Session.declaration?_of_mem_listed hs.classes_eq hentry
  obtain ⟨q, hq, hhead⟩ := List.mem_filterMap.mp hhead
  obtain ⟨members, hself⟩ := Declaration.exists_members_of_classHead? hhead
  have hsub := hnodes q hq
  rw [hself] at hsub
  exact postsOr_faultyAnalysis (postsOr_resolveDelegations hsub entry.2).unwatched

variable (options : AnalysisOptions)
  (hnumber : ∀ q ∈ P, ∀ b ∈ q.2.ownBodies, ∃ n e, b.expr = Expr.number n e)

include hnumber

theorem postsOr_properties :
    PostsOr (PassState.Posts nodes) (P.flatMap fun q => q.2.propertyPlaces)
      (s.tables.properties.toList.forM fun (decl, property) => do
        let scope ← ofExcept (s.tables.declaringScope decl.id)
        resolvePropertyBodies options scope decl property) := by
  have hplaces := flatMap_listed (Session.map_fst_listed hs.properties_eq) PropertyDecl.places
  unfold Declaration.propertyPlaces
  rw [← hplaces]
  refine PostsOr.forM _ fun entry hentry => ?_
  obtain ⟨hdecl, -⟩ := Session.declaration?_of_mem_listed hs.properties_eq hentry
  obtain ⟨q, hq, hproperty⟩ := List.mem_filterMap.mp hdecl
  have hself := Declaration.eq_of_property? hproperty
  have hsub := hnodes q hq
  have hown := hnumber q hq
  rw [hself] at hsub hown
  have hbodies : HasNumberedBodies entry.1 := by
    intro a ha e he
    rcases List.mem_append.mp ha with ha | ha
    · exact hown ⟨a.id, .getter, e⟩
        (List.mem_append_left _ (List.mem_append_right _ (Body.mem_ofAccessor ha he)))
    · exact hown ⟨a.id, .setter, e⟩ (List.mem_append_right _ (Body.mem_ofAccessor ha he))
  refine (postsOr_ofExcept _).bind_first fun scope => postsOr_faultyAnalysis ?_
  exact (postsOr_resolvePropertyBodies options hbodies hsub scope entry.2).unwatched

theorem postsOr_functions :
    PostsOr (PassState.Posts nodes) (P.flatMap fun q => q.2.functionPlaces)
      (s.tables.functions.toList.forM fun (f, descriptor) =>
        resolveFunctionLike options f descriptor) := by
  have hplaces := flatMap_listed (Session.map_fst_listed hs.functions_eq) FunctionLike.places
  refine PostsOr.mono (PostsOr.forM (g := fun entry => entry.1.places) _ fun entry hentry => ?_) ?_
  · obtain ⟨hf, -⟩ := Session.declaration?_of_mem_listed hs.functions_eq hentry
    obtain ⟨q, hq, hfunction⟩ := List.mem_filterMap.mp hf
    have hsub := hnodes q hq
    rw [← Declaration.nodes_of_functionLike? hfunction] at hsub
    refine postsOr_resolveFunctionLike options hsub (fun decl hdecl e he => ?_) entry.2
    rw [hdecl] at hfunction
    refine hnumber q hq ⟨decl.id, .function, e⟩ ?_
    rw [Declaration.eq_of_functionLike? hfunction]
    exact Body.mem_ofExpr he
  · rw [hplaces]
    exact (List.Sublist.flatMap_right _ fun q _ => functionPlaces_sublist q).subperm

/-- Resolving bodies reports about delegation lists, properties, functions and constructors. -/
theorem afterAny_resolveBodies :
    AfterAny (resolveBodies options) s (PassState.Posts nodes
      (P.flatMap (fun q => q.2.delegationPlaces) ++
        (P.flatMap (fun q => q.2.propertyPlaces) ++ P.flatMap fun q => q.2.functionPlaces)) s) :=
  afterOr_bind.mpr (afterOr_tables.mpr
    (((postsOr_classes hs hnodes).bind fun _ =>
      (postsOr_properties hs hnodes options hnumber).bind fun _ =>
        postsOr_functions hs hnodes options hnumber).afterOr s))

end

end Pass

end DeclAnalysis
