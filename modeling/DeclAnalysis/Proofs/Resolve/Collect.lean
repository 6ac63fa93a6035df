import Mathlib.Data.Option.Basic
import DeclAnalysis.Proofs.Resolve.Pass

/-!
# Collecting without surprises

The first pass stops at the first construct that is not handled, in the order of the tree.
If there is none, every class and every namespace of the tree is known afterwards.
-/

namespace DeclAnalysis

/-- The fault of an import directive that is not handled. -/
def ImportDirective.unhandled (i : ImportDirective) : List Fault :=
  if i.absoluteInRoot then [.notImplemented i.id .importFromRoot]
  else if !i.allUnder then [.notImplemented i.id .singleNameImport]
  else []

namespace Declaration

/-- The faults of the constructs in a declaration itself that are not handled. -/
def unhandled : Declaration → List Fault
  | namespaceDecl head _ => head.imports.flatMap ImportDirective.unhandled
  | typedefDecl id _ => [.notImplemented id .typedef]
  | extensionDecl id _ => [.notImplemented id .extension]
  | _ => []

/-- The nodes of a declaration that the first pass looks at. -/
def headNodes : Declaration → List Nat
  | namespaceDecl head _ => head.nodes
  | classDecl head _ => [head.id]
  | _ => []

theorem headNodes_subset_ownNodes (d : Declaration) : d.headNodes ⊆ d.ownNodes := by
  cases d with
  | namespaceDecl _ _ => exact List.Subset.refl _
  | classDecl _ _ => exact List.cons_subset.mpr ⟨List.mem_cons_self, List.nil_subset _⟩
  | _ => exact List.nil_subset _

theorem headNodes_subset_nodesOf (ds : List Declaration) :
    (nestedIn ds).flatMap headNodes ⊆ nodesOf ds := by
  rw [← flatMap_ownNodes_nestedIn]
  intro node hnode
  obtain ⟨d, hd, hmem⟩ := List.mem_flatMap.mp hnode
  exact List.mem_flatMap.mpr ⟨d, hd, d.headNodes_subset_ownNodes hmem⟩

/-- The first pass has made known what the second one looks up for the declaration. -/
def Known (s : PassState) : Declaration → Prop
  | namespaceDecl head _ => head.id ∈ s.tables.namespaceScopes
  | classDecl head _ => ∃ descriptor, s.trace.declaration? head.id = some descriptor ∧
      (s.descriptors.classData? descriptor).isSome
  | _ => True

/-- What is known stays known while other nodes are looked at. -/
theorem Known.of_follows
    {nodes : List Nat} {s s' : PassState} {d : Declaration} (h : d.Known s)
    (hfollows : s.Follows nodes s') (hd : d.id ∉ nodes) :
    d.Known s' := by
  cases d with
  | namespaceDecl head members => exact hfollows.namespaceScopes _ h
  | classDecl head members =>
      obtain ⟨descriptor, hdeclaration, hclass⟩ := h
      refine ⟨descriptor, ?_, hfollows.session.evolves.isSome_classData? hclass⟩
      exact (hfollows.session.declaration?_eq hd).trans hdeclaration
  | _ => trivial

end Declaration

namespace PassState

/-- What the first pass does about declarations, given with all that are nested in them. -/
structure Collected (ds : List Declaration) (nodes : List Nat) (s s' : PassState) : Prop where
  follows : s.Follows nodes s'
  consistent : s'.Consistent
  classes : s'.tables.classes.toList.map Prod.fst =
    s.tables.classes.toList.map Prod.fst ++ ds.filterMap Declaration.classHead?
  known : ∀ d ∈ ds, d.Known s'

variable {s s' s'' : PassState} {ds ds' : List Declaration} {nodes nodes' : List Nat}

theorem Collected.refl (h : s.Consistent) (nodes : List Nat) : Collected [] nodes s s :=
  ⟨.refl nodes s, h, (List.append_nil _).symm, fun _ h => nomatch h⟩

theorem Collected.append
    (h : Collected ds nodes s s') (h' : Collected ds' nodes' s' s'')
    (hdisjoint : ∀ d ∈ ds, d.id ∉ nodes') :
    Collected (ds ++ ds') (nodes ++ nodes') s s'' where
  follows :=
    (h.follows.mono (List.subset_append_left ..)).trans
      (h'.follows.mono (List.subset_append_right ..))
  consistent := h'.consistent
  classes := by
    rw [h'.classes, h.classes, List.filterMap_append, List.append_assoc]
  known d hd := by
    rcases List.mem_append.mp hd with hd | hd
    · exact (h.known d hd).of_follows h'.follows (hdisjoint d hd)
    · exact h'.known d hd

end PassState

/-! ### Namespaces -/

/-- A namespace that is found among the members of a scope is one. -/
theorem Session.NamespacesBound.isSome_namespaceMembers?
    {s : Session} (h : s.NamespacesBound) {scope descriptor : Nat} {name : String}
    (hmember : s.scopes.memberNamespace? scope name = some descriptor) :
    (s.descriptors.namespaceMembers? descriptor).isSome := by
  unfold ScopeTree.memberNamespace? ScopeTree.local? at hmember
  rcases (Option.orElse_eq_some _ _ _).mp hmember with hbound | ⟨-, himport⟩
  · exact h _ name descriptor hbound
  · obtain ⟨imported, -, hbound⟩ := List.exists_of_findSome?_eq_some himport
    exact h _ name descriptor hbound

namespace Pass

open Analysis
open PassState (Collected)

variable {s : PassState}

/-- A class is made known. -/
theorem afterOk_collectClass
    (hs : s.Consistent) (scope : Nat) (head : ClassHead) (members : List Declaration) :
    AfterOk (collectClass scope head) s fun _ s' =>
      Collected [.classDecl head members] [head.id] s s' := by
  refine afterOr_bind.mpr (afterOr_session.mpr ?_)
  have hid : head.id ∈ [head.id] := List.mem_cons_self
  have hscope : Keeps (Session.Follows [head.id]) (createScope .classScope (some scope) none) :=
    keeps_createScope ..
  refine AfterOr.bind (hscope.after _).analysis fun inner s₁ h₁ => ?_
  have hcreate := after_createDescriptor [head.id] (s := s₁.toSession)
    (head.name.getD noNameProvided) (s.scopes.containingDeclaration? scope)
    (.classKind { memberScope := inner, declaringScope := scope })
  refine AfterOr.bind hcreate.analysis fun descriptor s₂ h₂ => ?_
  have hbind : Keeps (Session.Follows [head.id]) (onScopes fun t =>
      (t.setOwner inner descriptor).addClassifier scope (head.name.getD noNameProvided)
        descriptor) :=
    ⟨fun s => (Session.Follows.single (.setOwner inner descriptor)).trans
      (.single (.bind scope fun _ => rfl))⟩
  refine AfterOr.bind (hbind.after _).analysis fun _ s₃ h₃ => ?_
  refine AfterOr.bind (after_recordDeclaration hid descriptor).analysis fun _ s₄ h₄ => ?_
  refine afterOr_bind.mpr (afterOr_onTables.mpr (afterOr_pure.mpr ?_))
  have hfollows := h₁.1.trans (h₂.1.1.trans (h₃.1.trans h₄.1.1))
  have htables : s₄.tables = s.tables := by rw [h₄.2, h₃.2, h₂.2, h₁.2]
  have hclass : (s₄.descriptors.classData? descriptor).isSome := by
    refine (h₃.1.trans h₄.1.1).evolves.isSome_classData? ?_
    exact Option.isSome_of_eq_some
      (DescriptorTable.classData?_of_kind (congrArg Descriptor.kind h₂.1.2))
  refine ⟨⟨hfollows, ?_⟩, ?_, ?_, ?_⟩
  · simp [Tables.addClass, htables]
  · exact (hs.of_follows hfollows htables).addClass hclass head scope
  · simp [Tables.addClass, htables, Declaration.classHead?]
  · intro d hd
    obtain rfl := List.mem_singleton.mp hd
    exact ⟨descriptor, h₄.1.2, hclass⟩

/-- The import of members never stops with a fault, whatever is imported. -/
theorem afterOk_importMembers
    {imported : Expr} {nodes : List Nat} (himported : imported.nodes ⊆ nodes) (scope : Nat)
    (s : PassState) :
    AfterOk (importMembers scope imported) s fun _ s' =>
      Session.Follows nodes s.toSession s'.toSession ∧ s'.tables = s.tables := by
  have hinfer : Keeps (Session.Follows nodes) (infer scope imported) :=
    keeps_infer scope imported himported
  refine AfterOr.bind (hinfer.after _).analysis fun type s₁ h₁ => ?_
  have hstep : ∀ {x : Analysis Unit}, Keeps (Session.Follows nodes) x →
      AfterOk (liftM x : Pass Unit) s₁ fun _ s' =>
        Session.Follows nodes s.toSession s'.toSession ∧ s'.tables = s.tables := by
    intro x hx
    refine AfterOk.mono (hx.after s₁.toSession).analysis ?_
    exact fun _ s' h => ⟨h₁.1.trans h.1, h.2.trans h₁.2⟩
  cases type with
  | none => exact h₁
  | some type =>
      refine afterOr_bind.mpr (afterOr_session.mpr ?_)
      split
      · exact hstep (keeps_importScope ..)
      · split
        · exact hstep (keeps_reportCode (by decide) ..)
        · exact h₁

/-- An import directive stops the pass if it is not handled, and only then. -/
theorem stopsAtFirst_applyImport
    {i : ImportDirective} {nodes : List Nat} (hi : i.nodes ⊆ nodes) (scope : Nat)
    (s : PassState) :
    StopsAtFirst i.unhandled (applyImport scope i) s fun _ s' =>
      Session.Follows nodes s.toSession s'.toSession ∧ s'.tables = s.tables := by
  unfold ImportDirective.unhandled applyImport
  by_cases habsolute : i.absoluteInRoot
  · simp only [habsolute, if_true]
    exact stopsAtFirst_throw _
  · simp only [habsolute]
    by_cases hall : i.allUnder
    · simp only [hall]
      refine StopsAtFirst.of_ok ?_
      cases himported : i.imported with
      | none => exact ⟨.refl nodes _, rfl⟩
      | some imported =>
          have hsub := ImportDirective.nodes_subset_of_imported himported
          exact afterOk_importMembers (List.Subset.trans hsub hi) scope s
    · simp only [hall]
      exact stopsAtFirst_throw _

/-- A namespace that is found or declared is one. -/
theorem afterOk_declareNamespace
    (scope : Nat) (name : String) {node : Nat} {nodes : List Nat} (hnode : node ∈ nodes)
    (s : PassState) :
    AfterOk (declareNamespace scope name node) s fun descriptor s' =>
      Session.Follows nodes s.toSession s'.toSession ∧ s'.tables = s.tables ∧
        (s'.descriptors.namespaceMembers? descriptor).isSome := by
  refine afterOr_bind.mpr (afterOr_session.mpr ?_)
  have hscope : Keeps (Session.Follows nodes) (createScope .namespaceScope none none) :=
    keeps_createScope ..
  refine AfterOr.bind (hscope.after _).analysis fun members s₁ h₁ => ?_
  have hcreate := after_createDescriptor nodes (s := s₁.toSession) name
    (s.scopes.containingDeclaration? scope) (.namespaceKind members)
  refine AfterOr.bind hcreate.analysis fun descriptor s₂ h₂ => ?_
  have hnamespace : (s₂.descriptors.namespaceMembers? descriptor).isSome := by
    unfold DescriptorTable.namespaceMembers?
    rw [h₂.1.2]
    rfl
  have hbind : After (onScopes fun t =>
      (t.setOwner members descriptor).addNamespace scope name descriptor) s₂.toSession
        fun _ s' => Session.Follows nodes s₂.toSession s' :=
    (Session.Follows.single (.setOwner members descriptor)).trans
      (.single (.addNamespace scope name hnamespace))
  refine AfterOr.bind hbind.analysis fun _ s₃ h₃ => ?_
  have hrecord : Keeps (Session.Follows nodes) (recordDeclaration node descriptor) :=
    keeps_recordDeclaration hnode descriptor
  refine AfterOr.bind (hrecord.after _).analysis fun _ s₄ h₄ => ?_
  have htables : s₄.tables = s.tables := by rw [h₄.2, h₃.2, h₂.2, h₁.2]
  refine afterOr_pure.mpr ⟨h₁.1.trans (h₂.1.1.trans (h₃.1.trans h₄.1)), htables, ?_⟩
  obtain ⟨members', hmembers⟩ := Option.isSome_iff_exists.mp hnamespace
  rw [(h₃.1.trans h₄.1).evolves.namespaceMembers? hmembers]
  rfl

/-- A namespace declaration is made known unless one of its imports is not handled. -/
theorem stopsAtFirst_collectNamespace
    (hs : s.Consistent) (hbound : s.NamespacesBound) (options : AnalysisOptions) (scope : Nat)
    (head : NamespaceHead) (members : List Declaration) :
    StopsAtFirst (Declaration.namespaceDecl head members).unhandled
      (collectNamespace options scope head) s fun _ s' =>
        Collected [.namespaceDecl head members] head.nodes s s' := by
  have hid : head.id ∈ head.nodes := List.mem_cons_self
  have himports : ∀ i ∈ head.imports, i.nodes ⊆ head.nodes := fun i hi node hnode =>
    List.mem_cons_of_mem _ (List.mem_flatMap.mpr ⟨i, hi, hnode⟩)
  have hrest : ∀ descriptor s₁, Session.Follows head.nodes s.toSession s₁.toSession →
      s₁.tables = s.tables → (s₁.descriptors.namespaceMembers? descriptor).isSome →
      StopsAtFirst (head.imports.flatMap ImportDirective.unhandled)
        (openContents scope head descriptor) s₁ fun _ s' =>
          Collected [.namespaceDecl head members] head.nodes s s' := by
    intro descriptor s₁ h₁ htables₁ hnamespace
    obtain ⟨inside, hinside⟩ := Option.isSome_iff_exists.mp hnamespace
    refine afterOr_bind.mpr (afterOr_session.mpr ?_)
    rw [hinside]
    have hwrite : Keeps (Session.Follows head.nodes) (createWriteThrough scope inside) :=
      keeps_createWriteThrough ..
    refine AfterOk.bind_first (hwrite.after _).analysis fun inner s₂ h₂ => ?_
    refine AfterOk.bind_first (afterOk_onTables _ s₂) fun _ s₃ h₃ => ?_
    let entered : Tables :=
      { s.tables with namespaceScopes := s.tables.namespaceScopes.insert head.id inner }
    have hentered : s₃.tables = entered := by rw [h₃, h₂.2, htables₁]
    have h₁₃ : Session.Follows head.nodes s.toSession s₃.toSession := by
      rw [h₃]
      exact h₁.trans h₂.1
    refine StopsAtFirst.bind_ok (StopsAtFirst.forM (p := fun s' =>
      Session.Follows head.nodes s.toSession s'.toSession ∧ s'.tables = entered) _
      (fun i hi s₄ h₄ => ?_) ⟨h₁₃, hentered⟩) fun _ s₅ h₅ => ?_
    · refine (stopsAtFirst_applyImport (himports i hi) inner s₄).mono fun _ s' h' => ?_
      exact ⟨h₄.1.trans h'.1, h'.2.trans h₄.2⟩
    · refine afterOr_pure.mpr ⟨⟨h₅.1, fun id hid => ?_⟩, ?_, ?_, ?_⟩
      · rw [h₅.2, Std.TreeMap.mem_insert]
        exact .inr hid
      · have hconsistent : { s with tables := entered }.Consistent :=
          ⟨hs.classes, hs.properties, hs.functions⟩
        exact hconsistent.of_follows h₅.1 h₅.2
      · rw [h₅.2]
        simp [entered, Declaration.classHead?]
      · intro d hd
        obtain rfl := List.mem_singleton.mp hd
        have hmem : head.id ∈ entered.namespaceScopes := Std.TreeMap.mem_insert.mpr (.inl (by simp))
        rw [← h₅.2] at hmem
        exact hmem
  refine afterOr_bind.mpr (afterOr_session.mpr ?_)
  dsimp only
  split
  · rename_i known hknown
    exact hrest known s (.refl _ _) rfl (hbound.isSome_namespaceMembers? hknown)
  · refine AfterOk.bind_first (afterOk_declareNamespace scope _ hid s)
      fun descriptor s₁ h₁ => ?_
    exact hrest descriptor s₁ h₁.1 h₁.2.1 h₁.2.2

/-- A declaration with nothing to be made known. -/
theorem collected_of_known
    (hs : s.Consistent) (d : Declaration) (hknown : d.Known s) (hclass : d.classHead? = none)
    (nodes : List Nat) :
    Collected [d] nodes s s := by
  refine ⟨.refl nodes s, hs, ?_, fun d' hd' => ?_⟩
  · simp [hclass]
  · obtain rfl := List.mem_singleton.mp hd'
    exact hknown

mutual

/-- The pass over a declaration stops at the first construct in it that is not handled, or
else makes everything in it known. -/
theorem stopsAtFirst_collect
    (options : AnalysisOptions) (scope : Nat) (d : Declaration) (s : PassState)
    (hs : s.Consistent) (hbound : s.NamespacesBound) (hd : d.nodes.Nodup) :
    StopsAtFirst (d.nested.flatMap Declaration.unhandled) (collect options scope d) s
      fun _ s' => Collected d.nested (d.nested.flatMap Declaration.headNodes) s s' := by
  match d with
  | .classDecl head members =>
      have hnodup := List.nodup_append.mp hd
      refine AfterOk.bind_first (afterOk_collectClass hs scope head members)
        fun inner s₁ h₁ => ?_
      refine (stopsAtFirst_collectAll options inner members s₁ h₁.consistent
        (h₁.follows.session.namespacesBound hbound) hnodup.2.1).mono fun _ s₂ h₂ => ?_
      refine h₁.append h₂ fun d' hd' hmem => ?_
      obtain rfl := List.mem_singleton.mp hd'
      exact hnodup.2.2 _ List.mem_cons_self _ (Declaration.headNodes_subset_nodesOf _ hmem) rfl
  | .namespaceDecl head members =>
      have hnodup := List.nodup_append.mp hd
      refine StopsAtFirst.bind
        (stopsAtFirst_collectNamespace hs hbound options scope head members)
        fun inner s₁ h₁ => ?_
      refine (stopsAtFirst_collectAll options inner members s₁ h₁.consistent
        (h₁.follows.session.namespacesBound hbound) hnodup.2.1).mono fun _ s₂ h₂ => ?_
      refine h₁.append h₂ fun d' hd' hmem => ?_
      obtain rfl := List.mem_singleton.mp hd'
      exact hnodup.2.2 _ List.mem_cons_self _ (Declaration.headNodes_subset_nodesOf _ hmem) rfl
  | .classObject id members =>
      obtain ⟨hid, hnodup⟩ := List.nodup_cons.mp hd
      have hself : Collected [.classObject id members] [] s s :=
        collected_of_known hs (.classObject id members) trivial rfl []
      refine (stopsAtFirst_collectAll options scope members s hs hbound hnodup).mono
        fun _ s' h' => ?_
      refine hself.append h' fun d' hd' hmem => ?_
      obtain rfl := List.mem_singleton.mp hd'
      exact hid (Declaration.headNodes_subset_nodesOf _ hmem)
  | .typedefDecl id _ => exact stopsAtFirst_throw _
  | .extensionDecl id _ => exact stopsAtFirst_throw _
  | .functionDecl decl => exact ⟨rfl, collected_of_known hs (.functionDecl decl) trivial rfl _⟩
  | .propertyDecl decl => exact ⟨rfl, collected_of_known hs (.propertyDecl decl) trivial rfl _⟩
  | .constructorDecl decl => exact ⟨rfl, collected_of_known hs (.constructorDecl decl) trivial rfl _⟩

theorem stopsAtFirst_collectAll
    (options : AnalysisOptions) (scope : Nat) (ds : List Declaration) (s : PassState)
    (hs : s.Consistent) (hbound : s.NamespacesBound)
    (hds : (Declaration.nodesOf ds).Nodup) :
    StopsAtFirst ((Declaration.nestedIn ds).flatMap Declaration.unhandled)
      (collectAll options scope ds) s
        fun _ s' => Collected (Declaration.nestedIn ds)
          ((Declaration.nestedIn ds).flatMap Declaration.headNodes) s s' := by
  match ds with
  | [] => exact ⟨rfl, .refl hs _⟩
  | d :: rest =>
      have hnodup := List.nodup_append.mp hds
      rw [Declaration.nestedIn, List.flatMap_append, List.flatMap_append]
      refine StopsAtFirst.bind (stopsAtFirst_collect options scope d s hs hbound hnodup.1)
        fun _ s₁ h₁ => ?_
      refine (stopsAtFirst_collectAll options scope rest s₁ h₁.consistent
        (h₁.follows.session.namespacesBound hbound) hnodup.2.1).mono fun _ s₂ h₂ => ?_
      refine h₁.append h₂ fun d' hd' hmem => ?_
      exact hnodup.2.2 _ (Declaration.id_mem_nodes_of_mem_nested hd') _
        (Declaration.headNodes_subset_nodesOf _ hmem) rfl

end

end Pass

end DeclAnalysis
