import DeclAnalysis.Proofs.Resolve.Collect

/-!
# Registering without faults

Once everything in a tree has been collected, the supertypes of its classes are resolved and
its signatures are registered without a fault, and the tables stay consistent.
-/

namespace DeclAnalysis

namespace Analysis

open Session (Follows)

variable {nodes : List Nat} {s : Session}

/-- An open class can be changed. -/
theorem afterOk_editClass
    (nodes : List Nat) {id : Nat} (hclass : (s.descriptors.classData? id).isSome)
    (hopen : s.Unfinalized) {f : ClassData → ClassData}
    (hf : ∀ data, (f data).memberScope = data.memberScope) :
    AfterOk (tryDescriptors (·.editClass id f)) s fun _ => Follows nodes s := by
  have hsucceeds : Succeeds (tryDescriptors (·.editClass id f)) s := by
    have hunfinalized := hopen id
    unfold DescriptorTable.classData? at hclass
    unfold Session.descriptors at hclass hunfinalized
    simp only [tryDescriptors, afterOr_bind, afterOr_get, DescriptorTable.editClass]
    generalize (s.model.descriptors.get id).kind = kind at hclass hunfinalized
    cases kind with
    | classKind finalized data =>
        obtain rfl : finalized = false := hunfinalized
        trivial
    | _ => cases hclass
  exact (AfterOk.of_keepsOr (keepsOr_editClass id hf) hsucceeds).mono fun _ _ h => h.1

end Analysis

/-- The nodes of the delegation list of a class. -/
def ClassHead.specifierNodes (head : ClassHead) : List Nat :=
  head.delegationSpecifiers.flatMap DelegationSpecifier.nodes

namespace Pass

open Analysis

variable {s : PassState}

/-- The supertypes of all collected classes are resolved without a fault. -/
theorem afterOk_resolveClasses (hs : s.Consistent) (hopen : s.Unfinalized) :
    AfterOk resolveClasses s fun _ s' =>
      Session.Follows (s.tables.classes.toList.flatMap fun entry => entry.1.specifierNodes)
        s.toSession s'.toSession ∧ s'.tables = s.tables := by
  refine afterOr_bind.mpr (afterOr_tables.mpr ?_)
  refine AfterOk.forM (p := fun s' : PassState => Session.Follows _ s.toSession s'.toSession ∧
    s'.tables = s.tables) _ (fun entry hentry s₁ h₁ => ?_) ⟨.refl _ _, rfl⟩
  obtain ⟨head, descriptor⟩ := entry
  obtain ⟨hclass, hscope⟩ := hs.classes _ hentry
  have hnodes : head.specifierNodes ⊆
      s.tables.classes.toList.flatMap fun entry => entry.1.specifierNodes :=
    fun node hnode => List.mem_flatMap.mpr ⟨_, hentry, hnode⟩
  generalize (s.tables.classes.toList.flatMap fun entry => entry.1.specifierNodes) = nodes
    at h₁ hnodes ⊢
  refine AfterOr.bind (afterOk_declaringScope hscope s₁) ?_
  rintro scope _ rfl
  have hresolve : AfterOk (resolveClass scope head descriptor) s₁.toSession
      fun _ session => Session.Follows nodes s₁.toSession session := by
    refine (keeps_resolveSupertypes (R := Session.Follows nodes) hnodes scope).bind_ok
      fun supertypes session h => ?_
    have hfollows := h₁.1.trans h
    refine (afterOk_editClass (f := fun data => { data with supertypes }) nodes
      (hfollows.evolves.isSome_classData? hclass) (hfollows.unfinalized hopen)
      fun _ => rfl).mono fun _ _ h' => h.trans h'
  refine hresolve.faultyAnalysis.mono fun _ s₂ h₂ => ?_
  exact ⟨h₁.1.trans h₂.1, h₂.2.trans h₁.2⟩

end Pass

namespace PassState

/-- What registering the signatures of declarations does. -/
structure Registered (nodes : List Nat) (s s' : PassState) : Prop where
  follows : s.Follows nodes s'
  consistent : s'.Consistent
  classes : s'.tables.classes = s.tables.classes

variable {nodes nodes' : List Nat} {s s' s'' : PassState}

theorem Registered.refl (hs : s.Consistent) (nodes : List Nat) : Registered nodes s s :=
  ⟨.refl nodes s, hs, rfl⟩

theorem Registered.trans (h : Registered nodes s s') (h' : Registered nodes s' s'') :
    Registered nodes s s'' :=
  ⟨h.follows.trans h'.follows, h'.consistent, h'.classes.trans h.classes⟩

theorem Registered.mono (h : Registered nodes s s') (hsub : nodes ⊆ nodes') :
    Registered nodes' s s' :=
  ⟨h.follows.mono hsub, h.consistent, h.classes⟩

/-- A change of the session alone. -/
theorem Registered.of_session
    (hs : s.Consistent) (hfollows : Session.Follows nodes s.toSession s'.toSession)
    (htables : s'.tables = s.tables) :
    Registered nodes s s' :=
  ⟨⟨hfollows, fun _ hid => htables ▸ hid⟩, hs.of_follows hfollows htables,
    congrArg Tables.classes htables⟩

/-- A change of the tables that enters no classes and leaves the namespaces alone. -/
theorem Registered.of_tables
    {t : Tables} (hs : { s with tables := t }.Consistent)
    (hnamespaces : t.namespaceScopes = s.tables.namespaceScopes)
    (hclasses : t.classes = s.tables.classes) :
    Registered nodes s { s with tables := t } :=
  ⟨⟨.refl nodes s.toSession, fun _ hid => hnamespaces ▸ hid⟩, hs, hclasses⟩

end PassState

namespace Pass

open Analysis
open PassState (Registered)

variable {s : PassState} {nodes : List Nat}

/-! ### Classes -/

theorem afterOk_registerParameterProperty
    (hs : s.Consistent) (nodes : List Nat) (members classId : Nat) (property : String × Nat) :
    AfterOk (registerParameterProperty members classId property) s fun _ s' =>
      Registered nodes s s' := by
  have hbind : Keeps (Session.Follows nodes) (onScopes (·.addVariable members property.1
      property.2)) := keeps_addVariable ..
  refine AfterOr.bind (hbind.after _).analysis fun _ s₁ h₁ => ?_
  have hfield : Keeps (Session.Follows nodes) (recordBackingField property.2) :=
    keeps_recordBackingField _
  refine AfterOr.bind (hfield.after _).analysis fun _ s₂ h₂ => ?_
  have hregistered : Registered nodes s s₂ :=
    .of_session hs (h₁.1.trans h₂.1) (h₂.2.trans h₁.2)
  exact afterOr_onTables.mpr (hregistered.trans
    (.of_tables (hregistered.consistent.indexProperty classId property.2) rfl rfl))

/-- A known class is registered without a fault while it is open. -/
theorem afterOk_registerClass
    (hs : s.Consistent) (hopen : s.Unfinalized) {head : ClassHead}
    {members : List Declaration} (hknown : (Declaration.classDecl head members).Known s) :
    AfterOk (registerClass head) s fun _ s' => Registered head.nodes s s' := by
  obtain ⟨descriptor, hdeclaration, hclass⟩ := hknown
  obtain ⟨data, hdata⟩ := Option.isSome_iff_exists.mp hclass
  refine afterOr_bind.mpr (afterOr_session.mpr ?_)
  rw [hdeclaration]
  refine afterOr_bind.mpr (afterOr_session.mpr ?_)
  rw [hdata]
  have hprimary := afterOk_resolvePrimaryConstructor (List.Subset.refl head.nodes) hclass
  refine AfterOr.bind hprimary.faultyAnalysis fun (constructor, properties) s₁ h₁ => ?_
  have h₁ : Registered head.nodes s s₁ := .of_session hs h₁.1 h₁.2
  refine AfterOr.bind (AfterOk.forM (p := Registered head.nodes s) _
    (fun property _ s₂ h₂ => ?_) h₁) fun _ s₂ h₂ => ?_
  · exact (afterOk_registerParameterProperty h₂.consistent _ _ _ property).mono
      fun _ s₃ h₃ => h₂.trans h₃
  · cases constructor with
    | none => exact h₂
    | some constructor =>
        have hclass₂ := h₂.follows.session.evolves.isSome_classData? hclass
        have hopen₂ := h₂.follows.session.unfinalized hopen
        have hedit := afterOk_editClass (f := fun data =>
          { data with
            primaryConstructor := some constructor
            constructors := data.constructors ++ [constructor] })
          head.nodes hclass₂ hopen₂ fun _ => rfl
        refine AfterOr.bind hedit.faultyAnalysis fun _ s₃ h₃ => ?_
        exact h₂.trans (.of_session h₂.consistent h₃.1 h₃.2)

/-! ### Functions, properties and constructors -/

theorem afterOk_registerFunction (hs : s.Consistent) (scope : Nat) (decl : FunctionDecl) :
    AfterOk (registerFunction scope decl) s fun _ s' => Registered decl.nodes s s' := by
  refine afterOr_bind.mpr (afterOr_session.mpr ?_)
  refine AfterOr.bind (afterOk_resolveFunction (List.Subset.refl decl.nodes) scope
    _).faultyAnalysis fun function s₁ h₁ => ?_
  have hbind : Keeps (Session.Follows decl.nodes)
      (onScopes (·.addFunction scope decl.name function)) := keeps_addFunction ..
  refine AfterOr.bind (hbind.after _).analysis fun _ s₂ h₂ => ?_
  have hregistered : Registered decl.nodes s s₂ :=
    .of_session hs (h₁.1.1.trans h₂.1) (h₂.2.trans h₁.2)
  refine afterOr_onTables.mpr (hregistered.trans
    (.of_tables (hregistered.consistent.addFunction ?_ scope) rfl rfl))
  exact h₂.1.evolves.isSome_signature? h₁.1.2.isSome_signature?

theorem afterOk_registerProperty (hs : s.Consistent) (scope : Nat) (decl : PropertyDecl) :
    AfterOk (registerProperty scope decl) s fun _ s' => Registered decl.nodes s s' := by
  refine afterOr_bind.mpr (afterOr_session.mpr ?_)
  refine AfterOr.bind (afterOk_resolveProperty (List.Subset.refl decl.nodes) scope
    _).faultyAnalysis fun property s₁ h₁ => ?_
  have hbind : Keeps (Session.Follows decl.nodes)
      (onScopes (·.addVariable scope decl.name property)) := keeps_addVariable ..
  refine AfterOr.bind (hbind.after _).analysis fun _ s₂ h₂ => ?_
  have hregistered : Registered decl.nodes s s₂ :=
    .of_session hs (h₁.1.1.trans h₂.1) (h₂.2.trans h₁.2)
  have hproperty := h₂.1.evolves.isSome_propertyData? h₁.1.2
  have hconsistent := hregistered.consistent.addProperty hproperty decl scope
    (s.scopes.containingDeclaration? scope)
  refine afterOr_onTables.mpr (hregistered.trans (.of_tables hconsistent ?_ ?_))
  · cases s.scopes.containingDeclaration? scope with
    | none => rfl
    | some container => rfl
  · cases s.scopes.containingDeclaration? scope with
    | none => rfl
    | some container => rfl

theorem afterOk_registerConstructor
    (hs : s.Consistent) (hopen : s.Unfinalized) (scope : Nat) (decl : ConstructorDecl) :
    AfterOk (registerConstructor scope decl) s fun _ s' => Registered decl.nodes s s' := by
  refine afterOr_bind.mpr (afterOr_session.mpr ?_)
  split
  · have hreport : Keeps (Session.Follows decl.nodes) (reportCode .misplacedConstructor decl.id
        "Constructors are only allowed inside classes") := keeps_reportCode (by decide) ..
    exact (hreport.after _).analysis.mono fun _ s₁ h₁ => .of_session hs h₁.1 h₁.2
  · rename_i classId howning
    have hclass : (s.descriptors.classData? classId).isSome :=
      (Option.filter_eq_some_iff.mp howning).2
    refine AfterOr.bind (afterOk_resolveConstructor (List.Subset.refl decl.nodes) scope
      classId).faultyAnalysis fun constructor s₁ h₁ => ?_
    have hclass₁ := h₁.1.1.evolves.isSome_classData? hclass
    have hopen₁ := h₁.1.1.unfinalized hopen
    have hedit := afterOk_editClass (f := fun data =>
      { data with constructors := data.constructors ++ [constructor] })
      decl.nodes hclass₁ hopen₁ fun _ => rfl
    refine AfterOr.bind hedit.faultyAnalysis fun _ s₂ h₂ => ?_
    have hregistered : Registered decl.nodes s s₂ :=
      .of_session hs (h₁.1.1.trans h₂.1) (h₂.2.trans h₁.2)
    have hdeclared : (FunctionLike.constructor decl).IsDeclared s₂.toSession constructor :=
      ⟨⟨classId, h₁.1.2.1.of_follows h₂.1⟩, h₂.1.evolves.isSome_returnType? h₁.1.2.2⟩
    exact afterOr_onTables.mpr (hregistered.trans
      (.of_tables (hregistered.consistent.addFunction hdeclared scope) rfl rfl))

/-! ### Declarations -/

/-- What is known stays known while other declarations are registered. -/
theorem known_of_registered
    {ds : List Declaration} {s' : PassState} (hknown : ∀ d ∈ ds, d.Known s)
    (h : Registered nodes s s') (hdisjoint : ∀ d ∈ ds, d.id ∉ nodes) :
    ∀ d ∈ ds, d.Known s' :=
  fun d hd => (hknown d hd).of_follows h.follows (hdisjoint d hd)

mutual

/-- A declaration in which everything is known is registered without a fault. -/
theorem afterOk_register
    (scope : Nat) (d : Declaration) (s : PassState) (hs : s.Consistent)
    (hopen : s.Unfinalized) (hknown : ∀ d' ∈ d.nested, d'.Known s) (hd : d.nodes.Nodup) :
    AfterOk (register scope d) s fun _ s' => Registered d.nodes s s' := by
  match d with
  | .classDecl head members =>
      have hnodup := List.nodup_append.mp hd
      obtain ⟨hself, hmembers⟩ := List.forall_mem_cons.mp hknown
      refine AfterOr.bind (afterOk_registerClass hs hopen hself) fun inner s₁ h₁ => ?_
      refine (afterOk_registerAll inner members s₁ h₁.consistent
        (h₁.follows.session.unfinalized hopen)
        (known_of_registered hmembers h₁ fun d' hd' hmem => ?_) hnodup.2.1).mono
          fun _ s₂ h₂ => ?_
      · exact hnodup.2.2 _ hmem _ (Declaration.id_mem_nodesOf_of_mem_nestedIn hd') rfl
      · exact (h₁.mono (List.subset_append_left ..)).trans
          (h₂.mono (List.subset_append_right ..))
  | .namespaceDecl head members =>
      have hnodup := List.nodup_append.mp hd
      obtain ⟨hself, hmembers⟩ := List.forall_mem_cons.mp hknown
      refine afterOr_bind.mpr (afterOr_tables.mpr ?_)
      rw [Std.TreeMap.getElem?_eq_some_getElem hself]
      refine (afterOk_registerAll _ members s hs hopen hmembers hnodup.2.1).mono
        fun _ s' h' => ?_
      exact h'.mono (List.subset_append_right ..)
  | .classObject id members =>
      obtain ⟨-, hnodup⟩ := List.nodup_cons.mp hd
      obtain ⟨-, hmembers⟩ := List.forall_mem_cons.mp hknown
      have hreport : Keeps (Session.Follows []) (reportCode .unsupportedConstruct id
          "Class objects are not supported yet") := keeps_reportCode (by decide) ..
      refine AfterOr.bind (hreport.after _).analysis fun _ s₁ h₁ => ?_
      have h₁ : Registered [] s s₁ := .of_session hs h₁.1 h₁.2
      refine (afterOk_registerAll scope members s₁ h₁.consistent
        (h₁.follows.session.unfinalized hopen)
        (known_of_registered hmembers h₁ fun _ _ => List.not_mem_nil) hnodup).mono
          fun _ s₂ h₂ => ?_
      exact (h₁.mono (List.nil_subset _)).trans (h₂.mono (List.subset_cons_self ..))
  | .functionDecl decl => exact afterOk_registerFunction hs scope decl
  | .propertyDecl decl => exact afterOk_registerProperty hs scope decl
  | .constructorDecl decl => exact afterOk_registerConstructor hs hopen scope decl
  | .typedefDecl id _ | .extensionDecl id _ =>
      have hreport : Keeps (Session.Follows [id]) (reportCode .unsupportedConstruct id
          "Unsupported declaration") := keeps_reportCode (by decide) ..
      exact (hreport.after _).analysis.mono fun _ s₁ h₁ => .of_session hs h₁.1 h₁.2

theorem afterOk_registerAll
    (scope : Nat) (ds : List Declaration) (s : PassState) (hs : s.Consistent)
    (hopen : s.Unfinalized) (hknown : ∀ d' ∈ Declaration.nestedIn ds, d'.Known s)
    (hds : (Declaration.nodesOf ds).Nodup) :
    AfterOk (registerAll scope ds) s fun _ s' =>
      Registered (Declaration.nodesOf ds) s s' := by
  match ds with
  | [] => exact .refl hs _
  | d :: rest =>
      have hnodup := List.nodup_append.mp hds
      obtain ⟨hfirst, hrest⟩ := List.forall_mem_append.mp hknown
      refine AfterOr.bind (afterOk_register scope d s hs hopen hfirst hnodup.1)
        fun _ s₁ h₁ => ?_
      refine (afterOk_registerAll scope rest s₁ h₁.consistent
        (h₁.follows.session.unfinalized hopen)
        (known_of_registered hrest h₁ fun d' hd' hmem => ?_) hnodup.2.1).mono
          fun _ s₂ h₂ => ?_
      · exact hnodup.2.2 _ hmem _ (Declaration.id_mem_nodesOf_of_mem_nestedIn hd') rfl
      · exact (h₁.mono (List.subset_append_left ..)).trans
          (h₂.mono (List.subset_append_right ..))

end

end Pass

end DeclAnalysis
