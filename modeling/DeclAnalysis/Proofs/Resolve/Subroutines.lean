import DeclAnalysis.Proofs.Resolve.BodyBindings
import DeclAnalysis.Proofs.Resolve.Completion
import DeclAnalysis.Proofs.Resolve.Registry
import DeclAnalysis.Proofs.Tree.Bodies

/-!
# Every subroutine is resolved once

An analysis that no fault stops resolves the body of every function and accessor, and of every
constructor that stands in a class, exactly once. Apart from that it does not look at the nodes
of the body.
-/

namespace DeclAnalysis

open Session (Proceeds)

/-! ## Nodes beside a body -/

section

variable {P : List (Option Declaration × Declaration)} {q q' : Option Declaration × Declaration}
  {b : Body}

/-- The nodes of several declarations, without the node of one of them and the nodes of its
body. -/
def nodesBeside
    (P : List (Option Declaration × Declaration)) (q : Option Declaration × Declaration)
    (b : Body) : List Nat :=
  (P.flatMap fun q => q.2.ownNodes).filter fun node => node ≠ q.2.id ∧ node ∉ b.expr.nodes

theorem mem_nodesBeside_iff
    {node : Nat} : node ∈ nodesBeside P q b ↔
      (∃ q' ∈ P, node ∈ q'.2.ownNodes) ∧ node ≠ q.2.id ∧ node ∉ b.expr.nodes := by
  simp only [nodesBeside, List.mem_filter, List.mem_flatMap, decide_eq_true_eq]

theorem id_not_mem_nodesBeside : q.2.id ∉ nodesBeside P q b :=
  fun hmem => (mem_nodesBeside_iff.mp hmem).2.1 rfl

theorem not_mem_nodesBeside {node : Nat} (hnode : node ∈ b.expr.nodes) :
    node ∉ nodesBeside P q b :=
  fun hmem => (mem_nodesBeside_iff.mp hmem).2.2 hnode

variable (hdistinct : (P.flatMap fun q => q.2.ownNodes).Nodup)

include hdistinct

/-- The parts of a property other than one of its accessors lie beside the body of that. -/
theorem part_subset_nodesBeside
    (hq : q ∈ P) {before accessor after : List Nat}
    (hparts : q.2.ownNodes = q.2.id :: (before ++ accessor ++ after))
    (hbody : b.expr.nodes ⊆ accessor) : before ++ after ⊆ nodesBeside P q b := by
  have hnodup := (List.nodup_flatMap.mp hdistinct).1 q hq
  rw [hparts] at hnodup
  obtain ⟨hid, hnodup⟩ := List.nodup_cons.mp hnodup
  obtain ⟨hnodup, -, hafter⟩ := List.nodup_append.mp hnodup
  obtain ⟨-, -, hbefore⟩ := List.nodup_append.mp hnodup
  intro node hnode
  have hmem : node ∈ before ++ accessor ++ after := by
    simp only [List.mem_append] at hnode ⊢
    exact hnode.imp_left .inl
  refine mem_nodesBeside_iff.mpr ⟨⟨q, hq, ?_⟩, ?_, fun hexpr => ?_⟩
  · rw [hparts]
    exact List.mem_cons_of_mem _ hmem
  · rintro rfl
    exact hid hmem
  · rcases List.mem_append.mp hnode with hnode | hnode
    · exact hbefore _ hnode _ (hbody hexpr) rfl
    · exact hafter _ (List.mem_append_right _ (hbody hexpr)) _ hnode rfl

/-- All nodes of the other declarations lie beside a body. -/
theorem ownNodes_subset_nodesBeside
    (hq : q ∈ P) (hb : Declaration.HasSubroutine q b) (hq' : q' ∈ P) (hne : q' ≠ q) :
    q'.2.ownNodes ⊆ nodesBeside P q b := by
  intro node hnode
  have hapart : node ∉ q.2.ownNodes := fun hown =>
    hne (Declaration.eq_of_mem_ownNodes (f := Prod.snd) hdistinct hq' hq hnode hown)
  refine mem_nodesBeside_iff.mpr ⟨⟨q', hq', hnode⟩, ?_, fun hbody => ?_⟩
  · rintro rfl
    exact hapart q.2.id_mem_ownNodes
  · exact hapart (List.mem_of_mem_tail (Declaration.nodes_subset_innerNodes hb hbody))

/-- What is picked from the declarations, but not from the one with the body, lies beside the
body. -/
theorem exists_pick_and_subset_nodesBeside
    {α : Type} {pick : Option Declaration × Declaration → Option α} {a : α} (hq : q ∈ P)
    (hb : Declaration.HasSubroutine q b) (ha : a ∈ P.filterMap pick) (hother : pick q ≠ some a) :
    ∃ q', pick q' = some a ∧ q'.2.ownNodes ⊆ nodesBeside P q b := by
  obtain ⟨q', hq', hpick⟩ := List.mem_filterMap.mp ha
  have hne : q' ≠ q := by
    rintro rfl
    exact hother hpick
  exact ⟨q', hpick, ownNodes_subset_nodesBeside hdistinct hq hb hq' hne⟩

end

/-! ## Before bodies are resolved -/

namespace PassState

/-- What is known before the last pass: the tables list declarations in their order, which are
given with what is around each, properties have their accessors and the types that they are declared
with, and only nodes that the first pass looks at have been remarked upon. -/
structure Listed (P : List (Option Declaration × Declaration)) (s : PassState) : Prop where
  classes_eq : s.tables.classes.toList.map (Prod.map id some) =
    s.entries ClassHead.id (P.filterMap fun q => q.2.classHead?)
  functions_eq : s.tables.functions.toList.map (Prod.map id some) =
    s.entries FunctionLike.id (P.filterMap Declaration.functionLike?)
  properties_eq : s.tables.properties.toList.map (Prod.map id some) =
    s.entries PropertyDecl.id (P.filterMap fun q => q.2.property?)
  accessors : ∀ entry ∈ s.tables.properties.toList,
    Analysis.HasAccessorsOf s.descriptors entry.1 entry.2
  declared : ∀ entry ∈ s.tables.properties.toList, s.descriptors.DeclaredWith entry.1 entry.2
  remarked : ∀ {code : DiagnosticCode}, code.IsRemark → ∀ d ∈ s.reports code,
    ∃ q ∈ P, d.node ∈ q.2.headNodes

/-- No property is listed twice. -/
theorem Listed.nodup_property_keys
    {P : List (Option Declaration × Declaration)} {s : PassState} (hs : s.Listed P)
    (hdistinct : (P.flatMap fun q => q.2.ownNodes).Nodup) :
    (s.tables.properties.toList.map fun entry => entry.1.id).Nodup := by
  have hnodup := nodup_keys_filterMap hdistinct fun {q decl} => Declaration.id_of_property?
  rw [← Session.map_fst_listed hs.properties_eq, List.map_map] at hnodup
  exact hnodup

/-- Before the last pass nothing inside a body has been remarked upon. -/
theorem Listed.not_remarked
    {P : List (Option Declaration × Declaration)} {s : PassState} (hs : s.Listed P)
    (hdistinct : (P.flatMap fun q => q.2.ownNodes).Nodup)
    {q : Option Declaration × Declaration} (hq : q ∈ P) {b : Body}
    (hb : Declaration.HasSubroutine q b) {code : DiagnosticCode} (hcode : code.IsRemark) :
    ∀ d ∈ s.reports code, d.node ∉ b.expr.nodes := by
  intro d hd hnode
  obtain ⟨q', hq', hhead⟩ := hs.remarked hcode d hd
  have hown := List.mem_of_mem_tail (Declaration.nodes_subset_innerNodes hb hnode)
  obtain rfl := Declaration.eq_of_mem_ownNodes (f := Prod.snd) hdistinct hq' hq
    (q'.2.headNodes_subset_ownNodes hhead) hown
  cases hb with
  | function hself | getter hself | setter hself | constructor hself =>
      rw [hself] at hhead
      cases hhead

end PassState

namespace Pass

open PassState (Listed)

/-- What the passes before the last one lead to. -/
theorem afterOr_declarationPasses_listed
    (options : AnalysisOptions) {ds : List Declaration} (hds : (Declaration.nodesOf ds).Nodup) :
    AfterOr (declarationPasses options ds) initialState
      (fun _ s => s.Listed (Declaration.enclosedIn none ds)) fun _ _ => True := by
  refine AfterOr.relax (AfterOr.run_eq _ _) fun _ s hrun => ?_
  obtain ⟨_, s₁, hcollect, hrun⟩ := exists_run_of_bind hrun
  obtain ⟨_, s₂, hresolve, hrun⟩ := exists_run_of_bind hrun
  obtain ⟨_, s₃, hregister, hrun⟩ := exists_run_of_bind hrun
  have hcollects := (afterOr_collectAll_collects options none toplevel ds initialState
    owned_initialState .file nofun hds).of_run_eq hcollect
  have hcollected := (stopsAtFirst_collectAll options toplevel ds initialState
    consistent_initialState namespacesBound_initialState hds).of_run_eq hcollect
  obtain ⟨hready, hkept⟩ := (afterOr_resolveClasses_ready hds hcollects).of_run_eq hresolve
  have hregisters := (afterOr_registerAll_file hready).of_run_eq hregister
  have hregistry := hregisters.registry hready
  have hopen₁ := ((keepsAwaited_collectAll options toplevel ds).preserves
    openAwaited_initialState).of_run_eq hcollect
  have hopen₂ := (keepsAwaited_resolveClasses.preserves hopen₁).of_run_eq hresolve
  have hopen₃ := ((keepsAwaited_registerAll toplevel ds).preserves hopen₂).of_run_eq hregister
  have hfinal : s = { s₃ with model.descriptors := s₃.model.descriptors.finalizeClasses.2 } :=
    (congrArg Prod.snd hrun).symm
  subst hfinal
  refine ⟨hregistry.classes_eq, hregistry.functions_eq, hregistry.properties_eq,
    fun entry hentry => ?_, fun entry hentry => ?_, fun {code} hcode d hd => ?_⟩
  · obtain ⟨data, hdata, haccessors⟩ := hopen₃.accessors entry hentry
    exact ⟨data, (s₃.model.descriptors.propertyData?_finalizeClasses entry.2).trans hdata,
      haccessors⟩
  · have hproperty := (hopen₃.accessors entry hentry).has_propertySort
    exact (hopen₃.declared entry hentry).finalizeClasses hproperty
  · have hreports : s₃.reports code = s₁.reports code :=
      (hregisters.keeps.reports_eq hcode).trans (hkept.reports_eq hcode)
    have hmem : d ∈ s₁.reports code := hreports ▸ hd
    rcases hcollected.2.follows.session.mem_reports hcode hmem with hnone | hnode
    · cases hnone
    · obtain ⟨d', hd', hhead⟩ := List.mem_flatMap.mp hnode
      rw [← Declaration.map_snd_enclosedIn none] at hd'
      obtain ⟨q, hq, rfl⟩ := List.mem_map.mp hd'
      exact ⟨q, hq, hhead⟩

end Pass

/-! ## Visiting a body -/

namespace Session

/-- The body is resolved as that of a function or accessor. -/
def ResolvesFunction
    (options : AnalysisOptions) (b : Body) (function : Nat) (s s' : Session) : Prop :=
  ∃ scope, (Analysis.resolveFunctionBody options b.subroutine (some b.expr) function scope).run.run
    s = (.ok (), s')

/-- The body is resolved together with the delegation list of its constructor. -/
def ResolvesConstructor
    (options : AnalysisOptions) (decl : ConstructorDecl) (s s' : Session) : Prop :=
  ∃ scope classId, (Analysis.resolveConstructorParts options scope classId decl).run.run s =
    (.ok (), s')

end Session

namespace Analysis

variable {nodes : List Nat} {T : Session → Session → Prop} {s : Session}

/-- A computation that is watched visits what it visits unwatched. -/
theorem afterOr_observed_visits
    {run : FaultyAnalysis Unit} (o : Observer)
    (h : ∀ s, AfterOr run s (fun _ => Visits (Proceeds nodes) T s) fun _ _ => True) :
    AfterOr (observed o run) s (fun _ => Visits (Proceeds nodes) T s) fun _ _ => True := by
  have hwatch : Proceeds nodes s { s with recorder := s.recorder.watch o } :=
    Session.AllowsNotes.of_change (.watch o) rfl
  refine AfterOr.observed (AfterOr.imp (h _) fun _ s' hvisits => (hvisits.after hwatch).before ?_)
  exact Session.AllowsNotes.of_change .unwatch
    (congrArg Trace.typeReferences (Session.trace_unwatch s'.recorder))

section

variable {options : AnalysisOptions} {b : Body} {function : Nat}

theorem afterOr_resolveFunctionBody_visits
    {node : Nat} {body : Option Expr} (hnode : b.subroutine = node) (hbody : body = some b.expr)
    (scope : Nat) :
    AfterOr (resolveFunctionBody options node body function scope) s
      (fun _ => Visits (Proceeds nodes) (Session.ResolvesFunction options b function) s)
      fun _ _ => True := by
  subst hnode hbody
  exact AfterOr.relax (AfterOr.run_eq _ s) fun _ _ hrun => .of_visit ⟨scope, hrun⟩

variable {decl : PropertyDecl} {a : Accessor} (hnode : b.subroutine = a.id)
  (hbody : a.body = some b.expr) {data : PropertyData}

include hnode hbody

theorem afterOr_resolveAccessors_visits_getter
    (haccessor : decl.getter = some a) (hgetter : data.getter = some function)
    (hsetter : decl.setter.toList.flatMap Accessor.nodes ⊆ nodes) (property scope : Nat) :
    AfterOr (resolveAccessors options decl property data scope) s
      (fun _ => Visits (Proceeds nodes) (Session.ResolvesFunction options b function) s)
      fun _ _ => True := by
  have hset := keepsOr_resolveSetter options hsetter data scope
  unfold resolveAccessors
  rw [haccessor, hgetter]
  dsimp only
  refine AfterOr.visits_bind (afterOr_resolveFunctionBody_visits hnode hbody scope) fun _ => ?_
  refine KeepsOr.get_bind fun s => ?_
  split
  · exact (KeepsOr.lift (keeps_fillPropertyType ..)).bind fun _ => hset
  · exact hset

theorem afterOr_resolveAccessors_visits_setter
    (haccessor : decl.setter = some a) (hsetter : data.setter = some function)
    (hgetter : decl.getter.toList.flatMap Accessor.nodes ⊆ nodes) (property scope : Nat) :
    AfterOr (resolveAccessors options decl property data scope) s
      (fun _ => Visits (Proceeds nodes) (Session.ResolvesFunction options b function) s)
      fun _ _ => True := by
  have hset : ∀ s, AfterOr (resolveFunctionBody options a.id a.body function scope) s
      (fun _ => Visits (Proceeds nodes) (Session.ResolvesFunction options b function) s)
      fun _ _ => True :=
    fun s => afterOr_resolveFunctionBody_visits hnode hbody scope
  unfold resolveAccessors
  rw [haccessor, hsetter]
  dsimp only
  split
  · rename_i accessor getter heq
    have hsub := accessor_body_subset hgetter (Prod.mk.inj heq).1
    refine KeepsOr.bind_visits
      (keepsOr_resolveFunctionBody options accessor.id hsub getter scope) fun _ s₁ _ => ?_
    refine afterOr_bind.mpr (afterOr_get.mpr ?_)
    split
    · exact KeepsOr.bind_visits (KeepsOr.lift (keeps_fillPropertyType ..)) fun _ s₂ _ => hset s₂
    · exact hset s₁
  · exact hset s

end

/-- Resolving the bodies of a property visits what resolving its accessors visits. -/
theorem afterOr_resolvePropertyBodies_visits
    {decl : PropertyDecl} {property : Nat} {data : PropertyData}
    (hdata : s.descriptors.propertyData? property = some data) {options : AnalysisOptions}
    (hinitializer : Expr.optionalNodes decl.initializer ⊆ nodes)
    (hvisit : ∀ scope s, AfterOr (resolveAccessors options decl property data scope) s
      (fun _ => Visits (Proceeds nodes) T s) fun _ _ => True) (scope : Nat) :
    AfterOr (resolvePropertyBodies options scope decl property) s
      (fun _ => Visits (Proceeds nodes) T s) fun _ _ => True := by
  have hrest : ∀ s, AfterOr (finishProperty options scope decl property data) s
      (fun _ => Visits (Proceeds nodes) T s) fun _ _ => True := by
    intro s
    refine KeepsOr.bind_visits (KeepsOr.lift (keeps_createScope ..)) fun accessorScope s₁ _ => ?_
    refine KeepsOr.bind_visits (KeepsOr.lift (keeps_addField ..)) fun _ s₂ _ => ?_
    refine AfterOr.visits_bind (afterOr_observed_visits _ (hvisit accessorScope)) fun _ => ?_
    exact KeepsOr.lift (keeps_concludeProperty decl property)
  refine afterOr_bind.mpr (afterOr_get.mpr ?_)
  rw [hdata]
  dsimp only
  split
  · rename_i initializer heq
    rw [heq] at hinitializer
    exact KeepsOr.bind_visits (KeepsOr.lift (keeps_resolveInitializer hinitializer ..))
      fun _ s₁ _ => hrest s₁
  · exact hrest s

/-- Resolving a constructor visits the delegation list with the body. -/
theorem afterOr_resolveConstructorBody_visits
    (options : AnalysisOptions) (properties : Nat → List Nat) (scope : Nat)
    (decl : ConstructorDecl) (constructor : Nat) :
    AfterOr (resolveConstructorBody options properties scope decl constructor) s
      (fun _ => Visits (Proceeds nodes) (Session.ResolvesConstructor options decl) s)
      fun _ _ => True := by
  refine afterOr_bind.mpr (afterOr_get.mpr ?_)
  split
  · trivial
  · rename_i classId _
    refine KeepsOr.bind_visits (KeepsOr.lift (keeps_createScope ..)) fun fieldScope s₁ _ => ?_
    refine afterOr_bind.mpr (afterOr_get.mpr ?_)
    refine KeepsOr.bind_visits (KeepsOr.lift (keeps_addFields ..)) fun _ s₂ _ => ?_
    refine KeepsOr.bind_visits (keepsOr_functionInnerScope ..) fun inner s₃ _ => ?_
    have hvisit : ∀ s, AfterOr (resolveConstructorParts options inner classId decl) s
        (fun _ => Visits (Proceeds nodes) (Session.ResolvesConstructor options decl) s)
        fun _ _ => True :=
      fun s => AfterOr.relax (AfterOr.run_eq _ s) fun _ _ hrun => .of_visit ⟨inner, classId, hrun⟩
    refine AfterOr.visits_bind (afterOr_observed_visits _ hvisit) fun violations => ?_
    exact KeepsOr.forM _ fun node _ => KeepsOr.lift (keeps_reportCode (by decide) ..)

end Analysis

/-! ## The last pass -/

namespace Session

/-- The function of a body: what its declaration declares, or an accessor of that. -/
inductive Implements (s : Session) (d : Declaration) (b : Body) (function : Nat) : Prop
  | function (hrole : b.role = .function) (hdeclared : s.trace.declaration? d.id = some function)
  | getter {property : Nat} {data : PropertyData} (hrole : b.role = .getter)
      (hdeclared : s.trace.declaration? d.id = some property)
      (hdata : s.descriptors.propertyData? property = some data)
      (hgetter : data.getter = some function)
  | setter {property : Nat} {data : PropertyData} (hrole : b.role = .setter)
      (hdeclared : s.trace.declaration? d.id = some property)
      (hdata : s.descriptors.propertyData? property = some data)
      (hsetter : data.setter = some function)

/-- A body stays that of its function while other nodes are looked at. -/
theorem Implements.of_proceeds
    {nodes : List Nat} {s s' : Session} {d : Declaration} {b : Body} {function : Nat}
    (h : s.Implements d b function) (hproceeds : Proceeds nodes s s') (hd : d.id ∉ nodes) :
    s'.Implements d b function := by
  have hkept := hproceeds.follows.declaration?_eq hd
  cases h with
  | function hrole hdeclared => exact .function hrole (hkept.trans hdeclared)
  | getter hrole hdeclared hdata hgetter =>
      obtain ⟨data', hdata', hgetter', -⟩ := hproceeds.fills.propertyData? hdata
      exact .getter hrole (hkept.trans hdeclared) hdata' (hgetter'.trans hgetter)
  | setter hrole hdeclared hdata hsetter =>
      obtain ⟨data', hdata', -, hsetter', -⟩ := hproceeds.fills.propertyData? hdata
      exact .setter hrole (hkept.trans hdeclared) hdata' (hsetter'.trans hsetter)

/-- A body is that of one function only. -/
theorem Implements.unique
    {s : Session} {d : Declaration} {b : Body} {function function' : Nat}
    (h : s.Implements d b function) (h' : s.Implements d b function') : function' = function := by
  cases h with
  | function hrole hdeclared =>
      cases h' with
      | function _ hdeclared' => exact Option.some.inj (hdeclared'.symm.trans hdeclared)
      | getter hrole' | setter hrole' => cases hrole.symm.trans hrole'
  | getter hrole hdeclared hdata hgetter =>
      cases h' with
      | getter _ hdeclared' hdata' hgetter' =>
          obtain rfl := Option.some.inj (hdeclared'.symm.trans hdeclared)
          obtain rfl := Option.some.inj (hdata'.symm.trans hdata)
          exact Option.some.inj (hgetter'.symm.trans hgetter)
      | function hrole' | setter hrole' => cases hrole.symm.trans hrole'
  | setter hrole hdeclared hdata hsetter =>
      cases h' with
      | setter _ hdeclared' hdata' hsetter' =>
          obtain rfl := Option.some.inj (hdeclared'.symm.trans hdeclared)
          obtain rfl := Option.some.inj (hdata'.symm.trans hdata)
          exact Option.some.inj (hsetter'.symm.trans hsetter)
      | function hrole' | getter hrole' => cases hrole.symm.trans hrole'

/-- The body of a declaration is resolved: as that of its function or, in a constructor, together
with the delegation list. -/
inductive Resolves (options : AnalysisOptions) (d : Declaration) (b : Body) (s s' : Session) : Prop
  | function {function : Nat} (himplements : s.Implements d b function)
      (hrun : s.ResolvesFunction options b function s')
  | constructor {decl : ConstructorDecl} (hself : d = .constructorDecl decl)
      (hrole : b.role = .constructor) (hrun : s.ResolvesConstructor options decl s')

/-- No constructor is resolved as a function. -/
theorem Implements.role_ne
    {s : Session} {d : Declaration} {b : Body} {function : Nat} (h : s.Implements d b function) :
    b.role ≠ .constructor := by
  cases h with
  | function hrole | getter hrole | setter hrole =>
      rw [hrole]
      nofun

end Session

namespace Pass

open Analysis
open PassState (Advances Listed)

section

variable {nodes : List Nat} {T : Session → Session → Prop} {s : PassState}

/-- What a computation on the session visits is visited as a step of a pass. -/
theorem afterOr_faultyAnalysis_visits
    {x : FaultyAnalysis Unit}
    (h : AfterOr x s.toSession (fun _ => Visits (Proceeds nodes) T s.toSession) fun _ _ => True) :
    AfterOr (liftM x : Pass Unit) s
      (fun _ => Visits (Advances nodes) (InvImage T PassState.toSession) s) fun _ _ => True := by
  refine afterOr_faultyAnalysis.mpr (AfterOr.relax h (fun _ s₃ hvisits => ?_))
  obtain ⟨s₁, s₂, h₁, hvisit, h₂⟩ := hvisits
  exact ⟨{ s with toSession := s₁ }, { s with toSession := s₂ }, ⟨h₁, rfl⟩, hvisit, ⟨h₂, rfl⟩⟩

end

section

variable {P : List (Option Declaration × Declaration)} {q : Option Declaration × Declaration}
  {b : Body} {options : AnalysisOptions} {s : PassState}
  (hdistinct : (P.flatMap fun q => q.2.ownNodes).Nodup) (hs : s.Listed P) (hq : q ∈ P)
  (hb : Declaration.HasSubroutine q b)

include hdistinct hs hq hb

/-! ### Beside the body -/

theorem keepsOr_classes_beside :
    KeepsOr (Advances (nodesBeside P q b)) (s.tables.classes.toList.forM fun (head, descriptor) =>
      (liftM (resolveDelegations head descriptor) : Pass Unit)) := by
  refine KeepsOr.forM _ fun entry hentry => ?_
  obtain ⟨hhead, -⟩ := Session.declaration?_of_mem_listed hs.classes_eq hentry
  obtain ⟨q', hclass, hbeside⟩ := exists_pick_and_subset_nodesBeside hdistinct hq hb hhead
    (by rw [hb.classHead?_eq_none]; nofun)
  obtain ⟨members, hself⟩ := Declaration.exists_members_of_classHead? hclass
  rw [hself] at hbeside
  exact keepsOr_faultyAnalysis (keepsOr_resolveDelegations
    (List.Subset.trans (List.tail_subset _) hbeside) entry.2)

theorem keepsOr_property_beside
    {entry : PropertyDecl × Nat} (hentry : entry ∈ s.tables.properties.toList)
    (hother : q.2.property? ≠ some entry.1) (t : Tables) :
    KeepsOr (Advances (nodesBeside P q b)) (do
      let scope ← ofExcept (t.declaringScope entry.1.id)
      resolvePropertyBodies options scope entry.1 entry.2 : Pass Unit) := by
  obtain ⟨hdecl, -⟩ := Session.declaration?_of_mem_listed hs.properties_eq hentry
  obtain ⟨q', hproperty, hbeside⟩ :=
    exists_pick_and_subset_nodesBeside hdistinct hq hb hdecl hother
  rw [Declaration.eq_of_property? hproperty] at hbeside
  exact keepsOr_resolveProperty options (List.Subset.trans (List.tail_subset _) hbeside) t entry.2

theorem keepsOr_function_beside
    {entry : FunctionLike × Nat} (hentry : entry ∈ s.tables.functions.toList)
    (hother : Declaration.functionLike? q ≠ some entry.1) :
    KeepsOr (Advances (nodesBeside P q b)) (resolveFunctionLike options entry.1 entry.2) := by
  obtain ⟨hf, -⟩ := Session.declaration?_of_mem_listed hs.functions_eq hentry
  obtain ⟨q', hfunction, hbeside⟩ :=
    exists_pick_and_subset_nodesBeside hdistinct hq hb hf hother
  rw [← Declaration.nodes_of_functionLike? hfunction] at hbeside
  exact keepsOr_resolveFunctionLike options (List.Subset.trans (List.tail_subset _) hbeside) entry.2

theorem keepsOr_properties_beside
    (hnone : q.2.property? = none) :
    KeepsOr (Advances (nodesBeside P q b))
      (s.tables.properties.toList.forM fun (decl, property) => do
        let scope ← ofExcept (s.tables.declaringScope decl.id)
        resolvePropertyBodies options scope decl property) := by
  refine KeepsOr.forM _ fun entry hentry => ?_
  refine keepsOr_property_beside hdistinct hs hq hb hentry ?_ s.tables
  rw [hnone]
  nofun

theorem keepsOr_functions_beside
    (hnone : Declaration.functionLike? q = none) :
    KeepsOr (Advances (nodesBeside P q b)) (s.tables.functions.toList.forM fun (f, descriptor) =>
      resolveFunctionLike options f descriptor) := by
  refine KeepsOr.forM _ fun entry hentry => ?_
  refine keepsOr_function_beside hdistinct hs hq hb hentry ?_
  rw [hnone]
  nofun

/-! ### The body itself -/

/-- The last pass visits what resolving a function or constructor visits. -/
theorem afterOr_resolveBodies_visits_function
    {f : FunctionLike} (hf : Declaration.functionLike? q = some f)
    (hproperty : q.2.property? = none) {T : Session → Session → Prop}
    (hvisit : ∀ {descriptor scope : Nat} {s₁ : PassState},
      s.trace.declaration? q.2.id = some descriptor → s.Advances (nodesBeside P q b) s₁ →
        AfterOr (match f with
          | .function decl => resolveFunctionBody options decl.id decl.body descriptor scope
          | .constructor decl =>
            resolveConstructorBody options s.tables.propertiesOf scope decl descriptor)
          s₁.toSession (fun _ => Visits (Proceeds (nodesBeside P q b)) T s₁.toSession)
          fun _ _ => True) :
    AfterOr (resolveBodies options) s
      (fun _ => Visits (Advances (nodesBeside P q b)) (InvImage T PassState.toSession) s)
      fun _ _ => True := by
  obtain ⟨descriptor, hentry⟩ := Session.exists_mem_listed hs.functions_eq
    (List.mem_filterMap.mpr ⟨q, hq, hf⟩)
  obtain ⟨-, hdeclared⟩ := Session.declaration?_of_mem_listed hs.functions_eq hentry
  rw [Declaration.id_of_functionLike? hf] at hdeclared
  have hkeys : (s.tables.functions.toList.map fun entry => entry.1.id).Nodup := by
    have hnodup := nodup_keys_filterMap hdistinct Declaration.id_of_functionLike?
    rw [← Session.map_fst_listed hs.functions_eq, List.map_map] at hnodup
    exact hnodup
  refine afterOr_bind.mpr (afterOr_tables.mpr ?_)
  refine KeepsOr.bind_visits (keepsOr_classes_beside hdistinct hs hq hb) fun _ s₁ h₁ => ?_
  refine KeepsOr.bind_visits (keepsOr_properties_beside hdistinct hs hq hb hproperty)
    fun _ s₂ h₂ => ?_
  refine AfterOr.forM_visits hkeys hentry (fun entry hentry' hne => ?_)
    (fun h h' => trans_of (Advances (nodesBeside P q b)) h' h) (fun s₃ h₃ => ?_) (h₁.trans h₂)
  · refine keepsOr_function_beside hdistinct hs hq hb hentry' fun hsame => hne ?_
    rw [hf] at hsame
    exact congrArg FunctionLike.id (Option.some.inj hsame).symm
  · refine afterOr_bind.mpr (afterOr_tables.mpr ?_)
    refine KeepsOr.bind_visits (keepsOr_ofExcept _) fun scope s₄ h₄ => ?_
    have hrun := @hvisit descriptor scope s₄ hdeclared (h₃.trans h₄)
    rw [← h₃.tables_eq] at hrun
    cases f with
    | function decl =>
        exact AfterOr.visits_bind (afterOr_faultyAnalysis_visits hrun) fun _ =>
          keepsOr_requireReturnType ..
    | constructor decl =>
        exact AfterOr.visits_bind (afterOr_faultyAnalysis_visits hrun) fun _ =>
          keepsOr_requireReturnType ..

/-- The last pass visits what resolving the bodies of a property visits. -/
theorem afterOr_resolveBodies_visits_property
    {decl : PropertyDecl} (hself : q.2 = .propertyDecl decl) {T : Session → Session → Prop}
    (hvisit : ∀ {property scope : Nat} {data : PropertyData} {s₁ : Session},
      s₁.trace.declaration? q.2.id = some property →
        s₁.descriptors.propertyData? property = some data →
          data.getter.isSome = decl.getter.isSome → data.setter.isSome = decl.setter.isSome →
            AfterOr (resolvePropertyBodies options scope decl property) s₁
              (fun _ => Visits (Proceeds (nodesBeside P q b)) T s₁) fun _ _ => True) :
    AfterOr (resolveBodies options) s
      (fun _ => Visits (Advances (nodesBeside P q b)) (InvImage T PassState.toSession) s)
      fun _ _ => True := by
  have hproperty : q.2.property? = some decl := by
    rw [hself]
    rfl
  obtain ⟨property, hentry⟩ := Session.exists_mem_listed hs.properties_eq
    (List.mem_filterMap.mpr ⟨q, hq, hproperty⟩)
  obtain ⟨-, hdeclared⟩ := Session.declaration?_of_mem_listed hs.properties_eq hentry
  rw [Declaration.id_of_property? hproperty] at hdeclared
  obtain ⟨data, hdata, hgetter, hsetter⟩ := hs.accessors _ hentry
  have hkeys := hs.nodup_property_keys hdistinct
  refine afterOr_bind.mpr (afterOr_tables.mpr ?_)
  refine KeepsOr.bind_visits (keepsOr_classes_beside hdistinct hs hq hb) fun _ s₁ h₁ => ?_
  refine AfterOr.visits_bind (AfterOr.forM_visits hkeys hentry (fun entry hentry' hne => ?_)
    (fun h h' => trans_of (Advances (nodesBeside P q b)) h' h) (fun s₂ h₂ => ?_) h₁) fun _ => ?_
  · refine keepsOr_property_beside hdistinct hs hq hb hentry' (fun hsame => hne ?_) s.tables
    rw [hproperty] at hsame
    exact congrArg PropertyDecl.id (Option.some.inj hsame).symm
  · refine KeepsOr.bind_visits (keepsOr_ofExcept _) fun scope s₃ h₃ => ?_
    have hproceeds := (h₂.trans h₃).proceeds
    obtain ⟨data', hdata', hgetter', hsetter', -⟩ := hproceeds.fills.propertyData? hdata
    have hkept := hproceeds.follows.declaration?_eq id_not_mem_nodesBeside
    refine afterOr_faultyAnalysis_visits (hvisit (hkept.trans hdeclared) hdata' ?_ ?_)
    · rw [hgetter', hgetter]
    · rw [hsetter', hsetter]
  · refine keepsOr_functions_beside hdistinct hs hq hb ?_
    rw [Declaration.functionLike?, hself]

/-- The last pass resolves a body once, and apart from that looks only beside it. -/
theorem afterOr_resolveBodies_visits :
    AfterOr (resolveBodies options) s
      (fun _ s' => Visits (Proceeds (nodesBeside P q b)) (Session.Resolves options q.2 b)
        s.toSession s'.toSession) fun _ _ => True := by
  have hresolves : ∀ {function : Nat} {s₁ s₂ : Session},
      s₁.Implements q.2 b function → Visits (Proceeds (nodesBeside P q b))
        (Session.ResolvesFunction options b function) s₁ s₂ →
          Visits (Proceeds (nodesBeside P q b)) (Session.Resolves options q.2 b) s₁ s₂ :=
    fun himplements hvisits => hvisits.imp fun h hrun =>
      .function (himplements.of_proceeds h id_not_mem_nodesBeside) hrun
  suffices hsuffices : AfterOr (resolveBodies options) s
      (fun _ => Visits (Advances (nodesBeside P q b))
        (InvImage (Session.Resolves options q.2 b) PassState.toSession) s) fun _ _ => True by
    refine AfterOr.imp hsuffices fun _ s₃ hvisits => ?_
    obtain ⟨s₁, s₂, h₁, hvisit, h₂⟩ := hvisits
    exact ⟨s₁.toSession, s₂.toSession, h₁.proceeds, hvisit, h₂.proceeds⟩
  cases hb with
  | @function decl hself hbody hrole hnode =>
      have hf : Declaration.functionLike? q = some (.function decl) := by
        rw [Declaration.functionLike?, hself]
      refine afterOr_resolveBodies_visits_function hdistinct hs hq
        (.function hself hbody hrole hnode) hf (by rw [hself]; rfl) ?_
      intro descriptor scope s₁ hdeclared h₁
      have himplements : s.Implements q.2 b descriptor := .function hrole hdeclared
      exact AfterOr.imp (afterOr_resolveFunctionBody_visits hnode hbody scope)
        fun _ _ h => hresolves (himplements.of_proceeds h₁.proceeds id_not_mem_nodesBeside) h
  | @constructor decl head hself hclass hbody hrole hnode =>
      have hf : Declaration.functionLike? q = some (.constructor decl) := by
        rw [Declaration.functionLike?, hself]
        simp only [hclass, Option.map_some]
      refine afterOr_resolveBodies_visits_function hdistinct hs hq
        (.constructor hself hclass hbody hrole hnode) hf (by rw [hself]; rfl) ?_
      intro descriptor scope s₁ hdeclared h₁
      exact AfterOr.imp (afterOr_resolveConstructorBody_visits ..)
        fun _ _ h => h.imp fun _ hrun => .constructor hself hrole hrun
  | @getter decl a hself haccessor hbody hrole hnode =>
      refine afterOr_resolveBodies_visits_property hdistinct hs hq
        (.getter hself haccessor hbody hrole hnode) hself ?_
      intro property scope data s₁ hdeclared hdata hgetter hsetter
      obtain ⟨function, hfunction⟩ : ∃ g, data.getter = some g := by
        rw [← Option.isSome_iff_exists, hgetter, haccessor]
        rfl
      have himplements : s₁.Implements q.2 b function :=
        .getter hrole hdeclared hdata hfunction
      have hparts : q.2.ownNodes = q.2.id ::
          ((typeRefNodes decl.typeRef ++ Expr.optionalNodes decl.initializer)
            ++ decl.getter.toList.flatMap Accessor.nodes
            ++ decl.setter.toList.flatMap Accessor.nodes) := by
        rw [hself]
        rfl
      have hexpr := accessor_body_subset (List.Subset.refl _) haccessor
      rw [Declaration.optionalNodes_eq_nodes hbody] at hexpr
      have hbeside := List.append_subset.mp (part_subset_nodesBeside hdistinct hq hparts hexpr)
      refine AfterOr.imp (afterOr_resolvePropertyBodies_visits hdata ?_ (fun scope s =>
        afterOr_resolveAccessors_visits_getter hnode hbody haccessor hfunction ?_ property scope)
        scope) fun _ _ h => hresolves himplements h
      · exact (List.append_subset.mp hbeside.1).2
      · exact hbeside.2
  | @setter decl a hself haccessor hbody hrole hnode =>
      refine afterOr_resolveBodies_visits_property hdistinct hs hq
        (.setter hself haccessor hbody hrole hnode) hself ?_
      intro property scope data s₁ hdeclared hdata hgetter hsetter
      obtain ⟨function, hfunction⟩ : ∃ g, data.setter = some g := by
        rw [← Option.isSome_iff_exists, hsetter, haccessor]
        rfl
      have himplements : s₁.Implements q.2 b function :=
        .setter hrole hdeclared hdata hfunction
      have hparts : q.2.ownNodes = q.2.id ::
          ((typeRefNodes decl.typeRef ++ Expr.optionalNodes decl.initializer
              ++ decl.getter.toList.flatMap Accessor.nodes)
            ++ decl.setter.toList.flatMap Accessor.nodes ++ []) := by
        rw [hself, List.append_nil]
        rfl
      have hexpr := accessor_body_subset (List.Subset.refl _) haccessor
      rw [Declaration.optionalNodes_eq_nodes hbody] at hexpr
      have hbeside := List.append_subset.mp (part_subset_nodesBeside hdistinct hq hparts hexpr)
      have hbefore := List.append_subset.mp hbeside.1
      refine AfterOr.imp (afterOr_resolvePropertyBodies_visits hdata ?_ (fun scope s =>
        afterOr_resolveAccessors_visits_setter hnode hbody haccessor hfunction ?_ property scope)
        scope) fun _ _ h => hresolves himplements h
      · exact (List.append_subset.mp hbefore.1).2
      · exact hbefore.2

end

end Pass

namespace SourceFile

/-- While a file is analysed, the body of a declaration is resolved between two sessions. What the
passes before the last one know of it has not been touched until then, and is not touched
afterwards. -/
structure ResolvesBody
    (file : SourceFile) (options : AnalysisOptions) (q : Option Declaration × Declaration)
    (b : Body) (s₀ s₁ : Session) : Prop where
  before : ∃ s : PassState,
    (Pass.declarationPasses options file.declarations).run.run Pass.initialState = (.ok (), s) ∧
      Proceeds (nodesBeside (Declaration.enclosedIn none file.declarations) q b) s.toSession s₀
  run : Session.Resolves options q.2 b s₀ s₁
  after : Proceeds (nodesBeside (Declaration.enclosedIn none file.declarations) q b)
    s₁ (file.analyze options).session

section

variable {name : String} {ds : List Declaration} {options : AnalysisOptions}
  {q : Option Declaration × Declaration} {b : Body}

theorem nodup_ownNodes_ofDeclarations
    (name : String) (ds : List Declaration) :
    ((Declaration.enclosedIn none (ofDeclarations name ds).declarations).flatMap
      fun q => q.2.ownNodes).Nodup := by
  rw [Declaration.flatMap_ownNodes_enclosedIn]
  exact (pairwise_nodes_ofDeclarations name ds).imp Nat.ne_of_lt

variable (hq : q ∈ Declaration.enclosedIn none (ofDeclarations name ds).declarations)
  (hb : b ∈ Declaration.subroutines q)

include hq hb

/-- The bodies of a file are numbered. -/
theorem exists_number_of_mem_subroutines : ∃ n e, b.expr = Expr.number n e := by
  have hnested : q.2 ∈ Declaration.nestedIn (Declaration.numberAll 1 ds) := by
    rw [← Declaration.map_snd_enclosedIn none]
    exact List.mem_map_of_mem hq
  obtain ⟨n, d, hd⟩ := Declaration.exists_number_of_mem_nestedIn 1 ds hnested
  have hown := Declaration.mem_ownBodies_of_mem_subroutines hb
  rw [hd] at hown
  exact Declaration.exists_number_of_mem_ownBodies hown

theorem nodup_nodes_of_mem_subroutines : b.expr.nodes.Nodup := by
  obtain ⟨n, e, hnumber⟩ := exists_number_of_mem_subroutines hq hb
  rw [hnumber]
  exact Expr.nodup_nodes_number n e

/-- An analysis that no fault stops resolves the body of every function and accessor, and of every
constructor that stands in a class, once. -/
theorem exists_resolvesBody
    (hfault : ((ofDeclarations name ds).analyze options).fault = none) :
    ∃ s₀ s₁, (ofDeclarations name ds).ResolvesBody options q b s₀ s₁ := by
  let declarations := (ofDeclarations name ds).declarations
  let P := Declaration.enclosedIn none declarations
  have hnodes : (Declaration.nodesOf declarations).Nodup :=
    (pairwise_nodes_ofDeclarations name ds).imp Nat.ne_of_lt
  have hdistinct : (P.flatMap fun q => q.2.ownNodes).Nodup := nodup_ownNodes_ofDeclarations name ds
  have hsub := Declaration.hasSubroutine_of_mem hb
  obtain ⟨s₀, s₁, ⟨s, hrun, h₀⟩, hresolves, h₁⟩ := session_of_afterOr_allPasses
    (p := fun s' => ∃ s₀ s₁, (∃ s : PassState,
      (Pass.declarationPasses options declarations).run.run Pass.initialState = (.ok (), s) ∧
        Proceeds (nodesBeside P q b) s.toSession s₀) ∧
      Session.Resolves options q.2 b s₀ s₁ ∧ Proceeds (nodesBeside P q b) s₁ s')
    (by
      rw [Pass.allPasses_eq]
      refine AfterOr.bind (AfterOr.run_eq _ _) fun _ s hrun => ?_
      have hs := (Pass.afterOr_declarationPasses_listed options hnodes).of_run_eq hrun
      refine AfterOr.imp (Pass.afterOr_resolveBodies_visits hdistinct hs hq hsub)
        fun _ s₃ hvisits => ?_
      obtain ⟨s₀, s₁, h₀, hresolves, h₁⟩ := hvisits
      exact ⟨s₀, s₁, ⟨s, hrun, h₀⟩, hresolves, h₁⟩)
    hfault
  exact ⟨s₀, s₁, ⟨s, hrun, h₀⟩, hresolves, h₁⟩

variable {s₀ s₁ : Session} (h : (ofDeclarations name ds).ResolvesBody options q b s₀ s₁)

include h

/-- Until its body is resolved, nothing inside it has been remarked upon. -/
theorem ResolvesBody.not_remarked
    {code : DiagnosticCode} (hcode : code.IsRemark) :
    ∀ d ∈ s₀.reports code, d.node ∉ b.expr.nodes := by
  obtain ⟨s, hrun, h₀⟩ := h.before
  have hs := (Pass.afterOr_declarationPasses_listed options
    ((pairwise_nodes_ofDeclarations name ds).imp Nat.ne_of_lt)).of_run_eq hrun
  intro d hd hnode
  rcases h₀.follows.mem_reports hcode hd with hold | hbeside
  · exact hs.not_remarked (nodup_ownNodes_ofDeclarations name ds) hq
      (Declaration.hasSubroutine_of_mem hb) hcode d hold hnode
  · exact not_mem_nodesBeside hnode hbeside

end

end SourceFile

end DeclAnalysis
