import Mathlib.Data.List.Nodup
import DeclAnalysis.Proofs.Flow.Reachable
import DeclAnalysis.Proofs.Resolve.Body
import DeclAnalysis.Proofs.Resolve.Register
import DeclAnalysis.Proofs.Semantic.Growth

/-!
# What stops an analysis

Whether an analysis stops with a fault is decided by the tree alone. It stops at the first
construct that is not handled or, if there is none, at the first call of the own constructor
in the delegation list of a class.
-/

namespace DeclAnalysis

/-!
## Bodies without faults

The resolution of bodies expects that functions have signatures, that the accessors of
properties are functions and that constructors lie in classes. Where this is so, only a
call of the own constructor in the delegation list of a class stops it.
-/

/-- The node of a call of the own constructor. -/
def DelegationSpecifier.thisCall? : DelegationSpecifier → Option Nat
  | .thisCall id _ => some id
  | _ => none

/-- The faults of the calls of the own constructor in the delegation list of a class. -/
def ClassHead.thisCallFaults (head : ClassHead) : List Fault :=
  head.delegationSpecifiers.flatMap fun specifier =>
    specifier.thisCall?.toList.map (Fault.at_ · .thisCallInClass)

namespace FlowInformation

theorem unreachable_ofBody (node : Nat) (body : Expr) :
    (data (.ofBody node body)).unreachable node =
      .ok (FlowGraph.ofBody node body).unreachable := by
  simp only [unreachable, graph, FlowData.ofBody, FlowData.graph?_add]
  rfl

end FlowInformation

namespace Analysis

open Session (Follows Proceeds)

variable {s : Session}

/-! ### Functions and accessors -/

theorem succeeds_returnPoints (node : Nat) (body : Expr) (s : Session) :
    Succeeds (returnPoints (.data (.ofBody node body)) node) s := by
  unfold returnPoints
  rw [FlowInformation.returned_ofBody]
  refine AfterOr.bind (Succeeds.forM _ (fun element _ s => succeeds_lift _ s) s) fun _ s' _ => ?_
  trivial

theorem succeeds_reportUnreachable
    (options : AnalysisOptions) (node : Nat) (body : Expr) (s : Session) :
    Succeeds (reportUnreachable options (.data (.ofBody node body)) node body) s := by
  unfold reportUnreachable
  rw [FlowInformation.unreachable_ofBody]
  dsimp only
  split
  · exact Succeeds.forM _ (fun element _ s => succeeds_lift _ s) s
  · trivial

theorem succeeds_checkReturnType
    {function : Nat} (h : (s.descriptors.returnType? function).isSome) (scope node : Nat)
    (body : Expr) :
    Succeeds (checkReturnType (.data (.ofBody node body)) scope node (some body) function) s := by
  obtain ⟨type, htype⟩ := Option.isSome_iff_exists.mp h
  refine afterOr_bind.mpr (afterOr_get.mpr ?_)
  rw [htype]
  dsimp only
  refine AfterOr.bind (succeeds_lift _ s) fun _ s₁ _ => ?_
  refine AfterOr.bind (succeeds_returnPoints node body s₁) fun points s₂ _ => ?_
  refine AfterOr.bind (Succeeds.forM _ (fun element _ s => ?_) s₂) fun _ s₃ _ => ?_
  · exact afterOr_bind.mpr (afterOr_get.mpr (succeeds_lift _ s))
  · refine afterOr_bind.mpr (afterOr_get.mpr ?_)
    split
    · exact Succeeds.forM _ (fun element _ s => succeeds_lift _ s) s₃
    · trivial

theorem succeeds_inferReturnType (scope node : Nat) (body : Expr) (s : Session) :
    Succeeds (inferReturnType (.data (.ofBody node body)) scope node (some body)) s := by
  refine AfterOr.bind (succeeds_lift _ s) fun _ s₁ _ => ?_
  refine AfterOr.bind (succeeds_returnPoints node body s₁) fun points s₂ _ => ?_
  exact afterOr_bind.mpr (afterOr_get.mpr trivial)

theorem succeeds_functionInnerScope
    {function : Nat} (h : (s.descriptors.signature? function).isSome) (outer : Nat) :
    Succeeds (functionInnerScope outer function) s := by
  obtain ⟨signature, hsignature⟩ := Option.isSome_iff_exists.mp h
  unfold Session.descriptors at hsignature
  simp [functionInnerScope, Model.functionInnerScope, hsignature]

/-- The body of a function is resolved without a fault, and the return type of the
function is known afterwards. -/
theorem afterOk_resolveFunctionBody
    {function : Nat} (h : (s.descriptors.signature? function).isSome)
    (options : AnalysisOptions) (node : Nat) (body : Option Expr) (scope : Nat) :
    AfterOk (resolveFunctionBody options node body function scope) s fun _ s' =>
      (s'.descriptors.returnType? function).isSome := by
  refine afterOr_bind.mpr (afterOr_get.mpr ?_)
  cases body with
  | none =>
      dsimp only
      split
      · have hreport : Keeps (Follows []) (reportCode .missingReturnTypeAndBody node
            "This function must either declare a return type or have a body element") :=
          keeps_reportCode (by decide) ..
        refine hreport.bind_ok fun _ s₁ h₁ => ?_
        have hsignature := h₁.evolves.isSome_signature? h
        exact (afterOk_setReturnType [] hsignature _).mono fun _ _ h => h.2
      · rename_i hdeclared
        simpa [Option.isSome_iff_ne_none] using hdeclared
  | some body =>
      dsimp only
      have hbody : Expr.optionalNodes (some body) ⊆ body.nodes := List.Subset.refl _
      have hinner : KeepsOr (Follows body.nodes) (functionInnerScope scope function) :=
        keepsOr_functionInnerScope scope function
      refine Succeeds.bind (succeeds_functionInnerScope h scope) hinner fun inner s₁ h₁ => ?_
      have hunreachable : ∀ s₂, (s₂.descriptors.returnType? function).isSome →
          AfterOk (reportUnreachable options (.data (.ofBody node body)) node body) s₂
            fun _ s' => (s'.descriptors.returnType? function).isSome := by
        intro s₂ h₂
        have hkeeps : KeepsOr (Follows body.nodes) _ :=
          keepsOr_reportUnreachable hbody options (.data (.ofBody node body)) node
        refine AfterOk.mono (AfterOk.of_keepsOr hkeeps
          (succeeds_reportUnreachable options node body s₂)) fun _ s' h => ?_
        exact h.1.evolves.isSome_returnType? h₂
      split
      · rename_i hdeclared
        have hknown := h₁.evolves.isSome_returnType? hdeclared
        have hcheck : KeepsOr (Follows body.nodes) _ :=
          keepsOr_checkReturnType inner node hbody function
        refine Succeeds.bind (succeeds_checkReturnType hknown inner node body) hcheck
          fun _ s₂ h₂ => ?_
        exact hunreachable s₂ (h₂.evolves.isSome_returnType? hknown)
      · have hinfer : KeepsOr (Follows body.nodes) _ :=
          keepsOr_inferReturnType (.data (.ofBody node body)) inner node hbody
        refine Succeeds.bind (succeeds_inferReturnType inner node body s₁) hinfer
          fun inferred s₂ h₂ => ?_
        have hsignature := (h₁.trans h₂).evolves.isSome_signature? h
        refine AfterOr.bind (afterOk_setReturnType body.nodes hsignature _) fun _ s₃ h₃ => ?_
        exact hunreachable s₃ h₃.2

/-! ### Properties -/

/-- Watching a computation does not stop it. -/
theorem succeeds_observed
    {run : FaultyAnalysis Unit} (o : Observer)
    (h : Succeeds run { s with recorder := s.recorder.watch o }) :
    Succeeds (observed o run) s := by
  exact AfterOr.observed h

/-- The accessors of a property are resolved without a fault if they are functions. -/
theorem succeeds_resolveAccessors
    {data : PropertyData}
    (hgetter : ∀ g, data.getter = some g → (s.descriptors.signature? g).isSome)
    (hsetter : ∀ g, data.setter = some g → (s.descriptors.signature? g).isSome)
    (options : AnalysisOptions) (decl : PropertyDecl) (property scope : Nat) :
    Succeeds (resolveAccessors options decl property data scope) s := by
  have hset : ∀ s', Proceeds decl.nodes s s' →
      Succeeds (resolveSetterBody options decl data scope) s' := by
    intro s' h'
    unfold resolveSetterBody
    split
    · rename_i accessor setter heq
      have hsignature := h'.follows.evolves.isSome_signature? (hsetter setter (Prod.mk.inj heq).2)
      exact (afterOk_resolveFunctionBody hsignature ..).mono fun _ _ _ => trivial
    · trivial
  unfold resolveAccessors
  dsimp only
  split
  · rename_i accessor getter heq
    obtain ⟨haccessor, hdata⟩ := Prod.mk.inj heq
    have hsub : Expr.optionalNodes accessor.body ⊆ decl.nodes := by
      refine accessor_body_subset (fun node hnode => ?_) haccessor
      exact List.mem_cons_of_mem _ (List.mem_append_left _ (List.mem_append_right _ hnode))
    have hsignature := hgetter getter hdata
    refine Succeeds.bind ((afterOk_resolveFunctionBody hsignature ..).mono
      fun _ _ _ => trivial)
      (keepsOr_resolveFunctionBody options accessor.id hsub getter scope) fun _ s₁ h₁ => ?_
    refine afterOr_bind.mpr (afterOr_get.mpr ?_)
    split
    · exact (keeps_fillPropertyType ..).bind_ok fun _ s₂ h₂ => hset s₂ (h₁.trans h₂)
    · exact hset s₁ h₁
  · exact hset s (.refl _ s)

/-- A property is resolved without a fault. -/
theorem succeeds_resolvePropertyBodies
    {property : Nat} (h : (s.descriptors.propertyData? property).isSome)
    (haccessors : s.AccessorsResolved) (options : AnalysisOptions) (scope : Nat)
    (decl : PropertyDecl) :
    Succeeds (resolvePropertyBodies options scope decl property) s := by
  obtain ⟨data, hdata⟩ := Option.isSome_iff_exists.mp h
  have hkind := DescriptorTable.kind_of_propertyData? hdata
  have hfunction : ∀ g, data.getter = some g ∨ data.setter = some g →
      (s.descriptors.signature? g).isSome := by
    intro g hg
    refine haccessors property g ?_
    rw [hkind]
    exact hg
  have hrest : ∀ s₁, Follows decl.nodes s s₁ →
      Succeeds (finishProperty options scope decl property data) s₁ := by
    intro s₁ h₁
    refine Keeps.bind_ok (R := Follows decl.nodes) (keeps_createScope ..) fun accessorScope s₂ h₂ => ?_
    refine Keeps.bind_ok (R := Follows decl.nodes) (keeps_addField ..) fun _ s₃ h₃ => ?_
    have hwatch : Follows decl.nodes s₃ _ := .single (.watch (.tracker property))
    have hfollows := h₁.trans (h₂.trans (h₃.trans hwatch))
    refine AfterOr.bind (succeeds_observed _ (succeeds_resolveAccessors ?_ ?_ ..))
      fun _ s₄ _ => succeeds_lift _ s₄
    · exact fun g hg => hfollows.evolves.isSome_signature? (hfunction g (.inl hg))
    · exact fun g hg => hfollows.evolves.isSome_signature? (hfunction g (.inr hg))
  refine afterOr_bind.mpr (afterOr_get.mpr ?_)
  rw [hdata]
  dsimp only
  split
  · rename_i initializer heq
    have hsub : initializer.nodes ⊆ decl.nodes := by
      intro node hnode
      have hmem : node ∈ Expr.optionalNodes decl.initializer := heq ▸ hnode
      simp [PropertyDecl.nodes, hmem]
    exact (keeps_resolveInitializer hsub ..).bind_ok fun _ s₁ h₁ => hrest s₁ h₁.follows
  · exact hrest s (.refl _ s)

/-! ### Constructors -/

/-- A secondary constructor that lies in a class is resolved without a fault. -/
theorem succeeds_resolveConstructorBody
    {constructor classId : Nat} (h : s.IsFunction constructor (some classId))
    (options : AnalysisOptions) (properties : Nat → List Nat) (scope : Nat)
    (decl : ConstructorDecl) :
    Succeeds (resolveConstructorBody options properties scope decl constructor) s := by
  refine afterOr_bind.mpr (afterOr_get.mpr ?_)
  rw [h.container_eq]
  dsimp only
  refine Keeps.bind_ok (R := Follows decl.nodes) (keeps_createScope ..) fun fieldScope s₁ h₁ => ?_
  refine afterOr_bind.mpr (afterOr_get.mpr ?_)
  refine Keeps.bind_ok (R := Follows decl.nodes) (keeps_addFields ..) fun _ s₂ h₂ => ?_
  have hfollows : Follows decl.nodes s s₂ := h₁.trans h₂
  have hsignature := (h.of_follows hfollows).isSome_signature?
  refine AfterOr.bind (succeeds_functionInnerScope hsignature fieldScope) fun inner s₃ _ => ?_
  refine AfterOr.bind (succeeds_observed _ ?_) fun violations s₄ _ =>
    Succeeds.forM _ (fun node _ s => succeeds_lift _ s) s₄
  refine AfterOr.bind (Succeeds.forM _ (fun specifier _ s => succeeds_lift _ s) _)
    fun _ s₅ _ => ?_
  split
  · rename_i body _
    refine AfterOr.bind (succeeds_lift _ s₅) fun _ s₆ _ => ?_
    exact succeeds_reportUnreachable options decl.id body s₆
  · trivial

/-! ### Delegation lists -/

/-- Of the entries of a delegation list, a call of the own constructor is not allowed. -/
theorem stopsAtFirst_resolveDelegation
    (members : Nat) (hasPrimary : Bool) (specifier : DelegationSpecifier) (s : Session) :
    StopsAtFirst (specifier.thisCall?.toList.map (Fault.at_ · .thisCallInClass))
      (resolveDelegation members hasPrimary specifier) s fun _ _ => True := by
  unfold resolveDelegation
  split
  · refine StopsAtFirst.of_ok (AfterOr.bind (succeeds_lift _ s) fun type s₁ _ => ?_)
    cases type with
    | none => trivial
    | some actual =>
        refine AfterOr.bind (succeeds_lift _ s₁) fun supertype s₂ _ => ?_
        refine afterOr_bind.mpr (afterOr_get.mpr ?_)
        split
        · exact succeeds_lift _ s₂
        · trivial
  · exact StopsAtFirst.of_ok (succeeds_lift _ s)
  · refine StopsAtFirst.of_ok ?_
    split
    · exact succeeds_lift _ s
    · trivial
  · exact stopsAtFirst_throw _
  · exact StopsAtFirst.of_ok trivial
  · exact StopsAtFirst.of_ok trivial

/-- The first call of the own constructor stops the resolution of the delegation list of a
class, and nothing else does. -/
theorem stopsAtFirst_resolveDelegations
    {descriptor : Nat} (h : (s.descriptors.classData? descriptor).isSome) (head : ClassHead) :
    StopsAtFirst head.thisCallFaults (resolveDelegations head descriptor) s
      fun _ _ => True := by
  obtain ⟨data, hdata⟩ := Option.isSome_iff_exists.mp h
  unfold StopsAtFirst resolveDelegations
  refine afterOr_bind.mpr (afterOr_get.mpr ?_)
  rw [hdata]
  exact StopsAtFirst.forM _
    (fun specifier _ s _ => stopsAtFirst_resolveDelegation _ _ specifier s) trivial

end Analysis

/-! ## States in which bodies are resolved -/

namespace Pass

open Analysis

variable {s : PassState}

/-- Between finalizing the classes and resolving the bodies, and from then on. -/
structure Prepared (s : PassState) : Prop where
  consistent : s.Consistent
  accessorsResolved : s.AccessorsResolved

theorem Prepared.of_follows
    {nodes : List Nat} {s' : PassState} (hs : Prepared s)
    (hfollows : Session.Follows nodes s.toSession s'.toSession) (htables : s'.tables = s.tables) :
    Prepared s' :=
  ⟨hs.consistent.of_follows hfollows htables, hfollows.accessorsResolved hs.accessorsResolved⟩

theorem afterOk_finalizeClasses (hs : Prepared s) :
    AfterOk finalizeClasses s fun _ s' => Prepared s' ∧ s'.tables = s.tables := by
  let t := s.model.descriptors
  refine ⟨⟨⟨fun entry hentry => ?_, fun entry hentry => ?_, fun entry hentry => ?_⟩,
    fun id function hid => ?_⟩, rfl⟩
  · obtain ⟨hclass, hscope⟩ := hs.consistent.classes entry hentry
    exact ⟨(congrArg Option.isSome (t.classData?_finalizeClasses entry.2)).trans hclass, hscope⟩
  · obtain ⟨hproperty, hscope⟩ := hs.consistent.properties entry hentry
    exact ⟨(congrArg Option.isSome (t.propertyData?_finalizeClasses entry.2)).trans hproperty,
      hscope⟩
  · obtain ⟨hfunction, hscope⟩ := hs.consistent.functions entry hentry
    refine ⟨?_, hscope⟩
    obtain ⟨f, descriptor⟩ := entry
    have hsignature := t.signature?_finalizeClasses descriptor
    cases f with
    | function decl => exact (congrArg Option.isSome hsignature).trans hfunction
    | constructor decl =>
        obtain ⟨⟨classId, hisFunction⟩, hreturn⟩ := hfunction
        refine ⟨⟨classId, ?_, ?_⟩, ?_⟩
        · exact (congrArg Option.isSome hsignature).trans hisFunction.isSome_signature?
        · have hget := t.get_finalizeClasses descriptor
          exact (congrArg Descriptor.container hget).trans
            ((DescriptorTable.container_finalized _).trans hisFunction.container_eq)
        · exact (congrArg (fun o => (o.bind Signature.returnType).isSome) hsignature).trans hreturn
  · have hold := (t.hasAccessor_finalizeClasses id function).mp hid
    exact (congrArg Option.isSome (t.signature?_finalizeClasses function)).trans
      (hs.accessorsResolved id function hold)

/-! ## Bodies -/

/-- The delegation list of a class is resolved up to the first call of the own
constructor. -/
theorem stopsAtFirst_resolveClassDelegations
    (hs : Prepared s) {head : ClassHead} {descriptor : Nat}
    (hentry : (head, descriptor) ∈ s.tables.classes.toList) :
    StopsAtFirst head.thisCallFaults (liftM (resolveDelegations head descriptor) : Pass Unit) s
      fun _ s' => Prepared s' ∧ s'.tables = s.tables := by
  have hclass := (hs.consistent.classes _ hentry).1
  have hkeeps : KeepsOr (Session.Follows head.nodes) _ :=
    keepsOr_resolveDelegations (List.tail_subset head.nodes) descriptor
  refine (StopsAtFirst.of_keepsOr hkeeps
    (stopsAtFirst_resolveDelegations hclass head)).faultyAnalysis.mono fun _ s' h' => ?_
  exact ⟨hs.of_follows h'.1.1 h'.2, h'.2⟩

/-- The initializer and the accessors of an entered property are resolved without a
fault. -/
theorem afterOk_resolvePropertyBodies
    (hs : Prepared s) (options : AnalysisOptions) {decl : PropertyDecl} {property : Nat}
    (hentry : (decl, property) ∈ s.tables.properties.toList) (scope : Nat) :
    AfterOk (liftM (resolvePropertyBodies options scope decl property) : Pass Unit) s
      fun _ s' => Prepared s' ∧ s'.tables = s.tables := by
  have hproperty := (hs.consistent.properties _ hentry).1
  have hkeeps := keepsOr_resolvePropertyBodies options (List.tail_subset decl.nodes) scope property
  have hsucceeds := succeeds_resolvePropertyBodies hproperty hs.accessorsResolved options scope decl
  refine (AfterOk.of_keepsOr hkeeps hsucceeds).faultyAnalysis.mono fun _ s' h' => ?_
  exact ⟨hs.of_follows h'.1.1.follows h'.2, h'.2⟩

/-- The body of an entered function or constructor is resolved without a fault. -/
theorem afterOk_resolveFunctionLike
    (hs : Prepared s) (options : AnalysisOptions) {f : FunctionLike} {descriptor : Nat}
    (hentry : (f, descriptor) ∈ s.tables.functions.toList) :
    AfterOk (resolveFunctionLike options f descriptor) s
      fun _ s' => Prepared s' ∧ s'.tables = s.tables := by
  obtain ⟨hdeclared, hscope⟩ := hs.consistent.functions _ hentry
  refine afterOr_bind.mpr (afterOr_tables.mpr ?_)
  refine AfterOr.bind (afterOk_declaringScope hscope s) ?_
  rintro scope _ rfl
  have hconclude : ∀ s₁ : PassState, Prepared s₁ ∧ s₁.tables = s.tables →
      (s₁.descriptors.returnType? descriptor).isSome → AfterOk (do
        if ((← session).descriptors.returnType? descriptor).isNone then
          throw (.at_ f.id .returnTypeUnset) : Pass Unit) s₁
            fun _ s' => Prepared s' ∧ s'.tables = s.tables := by
    intro s₁ h₁ hreturn
    refine afterOr_bind.mpr (afterOr_session.mpr ?_)
    obtain ⟨type, htype⟩ := Option.isSome_iff_exists.mp hreturn
    rw [htype]
    exact h₁
  cases f with
  | function decl =>
      have hbody : Expr.optionalNodes decl.body ⊆ decl.nodes := fun node hnode =>
        List.mem_cons_of_mem _ (List.mem_append_right _ hnode)
      have hkeeps := keepsOr_resolveFunctionBody options decl.id hbody descriptor scope
      have hresolve := afterOk_resolveFunctionBody hdeclared options decl.id decl.body scope
      refine AfterOr.bind (AfterOk.of_keepsOr hkeeps hresolve).faultyAnalysis fun _ s₁ h₁ => ?_
      exact hconclude s₁ ⟨hs.of_follows h₁.1.1.follows h₁.2, h₁.2⟩ h₁.1.2
  | constructor decl =>
      obtain ⟨⟨classId, hfunction⟩, hreturn⟩ := hdeclared
      have hkeeps : KeepsOr (Session.Follows decl.nodes) _ :=
        keepsOr_resolveConstructorBody options s.tables.propertiesOf
          (List.tail_subset decl.nodes) scope descriptor
      have hsucceeds := succeeds_resolveConstructorBody hfunction options
        s.tables.propertiesOf scope decl
      refine AfterOr.bind (AfterOk.of_keepsOr hkeeps hsucceeds).faultyAnalysis fun _ s₁ h₁ => ?_
      exact hconclude s₁ ⟨hs.of_follows h₁.1.1 h₁.2, h₁.2⟩
        (h₁.1.1.evolves.isSome_returnType? hreturn)

/-- The last pass stops at the first call of the own constructor in the delegation list of a
class, and nowhere else. -/
theorem stopsAtFirst_resolveBodies (hs : Prepared s) (options : AnalysisOptions) :
    StopsAtFirst (s.tables.classes.toList.flatMap fun entry => entry.1.thisCallFaults)
      (resolveBodies options) s fun _ _ => True := by
  refine afterOr_bind.mpr (afterOr_tables.mpr ?_)
  refine StopsAtFirst.bind_ok (StopsAtFirst.forM
    (p := fun s' : PassState => Prepared s' ∧ s'.tables = s.tables) _
    (fun entry hentry s₁ h₁ => ?_) ⟨hs, rfl⟩) fun _ s₁ h₁ => ?_
  · refine (stopsAtFirst_resolveClassDelegations h₁.1 (h₁.2 ▸ hentry)).mono fun _ s₂ h₂ => ?_
    exact ⟨h₂.1, h₂.2.trans h₁.2⟩
  · refine AfterOr.bind (AfterOk.forM
      (p := fun s' : PassState => Prepared s' ∧ s'.tables = s.tables) _
      (fun entry hentry s₂ h₂ => ?_) h₁) fun _ s₂ h₂ => ?_
    · have hscope := (hs.consistent.properties _ hentry).2
      refine AfterOr.bind (afterOk_declaringScope hscope s₂) ?_
      rintro scope _ rfl
      refine (afterOk_resolvePropertyBodies h₂.1 options (h₂.2 ▸ hentry) scope).mono
        fun _ s₃ h₃ => ?_
      exact ⟨h₃.1, h₃.2.trans h₂.2⟩
    · refine AfterOk.mono (AfterOk.forM
        (p := fun s' : PassState => Prepared s' ∧ s'.tables = s.tables) _
        (fun entry hentry s₃ h₃ => ?_) h₂) fun _ _ _ => trivial
      refine (afterOk_resolveFunctionLike h₃.1 options (h₃.2 ▸ hentry)).mono fun _ s₄ h₄ => ?_
      exact ⟨h₄.1, h₄.2.trans h₃.2⟩

end Pass

/-! ## All passes -/

namespace Declaration

/-- The faults of the calls of the own constructor in the delegation list of a class. -/
def thisCallFaults : Declaration → List Fault
  | classDecl head _ => head.thisCallFaults
  | _ => []

theorem flatMap_thisCallFaults (ds : List Declaration) :
    ds.flatMap thisCallFaults = (ds.filterMap classHead?).flatMap ClassHead.thisCallFaults := by
  induction ds with
  | nil => rfl
  | cons d rest ih =>
      rw [List.flatMap_cons, ih]
      cases d <;> rfl

/-- The nodes of the delegation lists of classes among declarations. -/
def specifierNodes (ds : List Declaration) : List Nat :=
  (ds.filterMap classHead?).flatMap ClassHead.specifierNodes

/-- A node is that of a declaration or lies in a delegation list, but not both. -/
theorem count_id_add_count_specifierNodes_le (n : Nat) (ds : List Declaration) :
    (ds.map Declaration.id).count n + (specifierNodes ds).count n ≤
      (ds.flatMap ownNodes).count n := by
  induction ds with
  | nil => exact Nat.le_refl 0
  | cons d rest ih =>
      simp only [specifierNodes] at ih
      cases d with
      | classDecl head members =>
          simp only [specifierNodes, List.map_cons, id, List.filterMap_cons, classHead?,
            List.flatMap_cons, ownNodes, ClassHead.nodes, ClassHead.specifierNodes,
            List.cons_append, List.count_cons, List.count_append] at ih ⊢
          omega
      | _ =>
          simp only [specifierNodes, List.map_cons, id, List.filterMap_cons, classHead?,
            List.flatMap_cons, ownNodes, NamespaceHead.nodes, FunctionDecl.nodes,
            PropertyDecl.nodes, ConstructorDecl.nodes, List.cons_append, List.nil_append,
            List.count_cons, List.count_append] at ih ⊢
          omega

/-- No declaration lies in a delegation list. -/
theorem id_not_mem_specifierNodes
    {ds : List Declaration} (hds : (nodesOf ds).Nodup) {d : Declaration}
    (hd : d ∈ nestedIn ds) :
    d.id ∉ specifierNodes (nestedIn ds) := by
  intro hmem
  have hle := count_id_add_count_specifierNodes_le d.id (nestedIn ds)
  rw [flatMap_ownNodes_nestedIn] at hle
  have hid : 0 < ((nestedIn ds).map Declaration.id).count d.id :=
    List.count_pos_iff.mpr (List.mem_map_of_mem hd)
  have hspecifier : 0 < (specifierNodes (nestedIn ds)).count d.id :=
    List.count_pos_iff.mpr hmem
  have hone := List.nodup_iff_count_le_one.mp hds d.id
  omega

end Declaration

namespace Pass

/-- The faults of the constructs in a list of declarations that are not handled. -/
def unhandledIn (ds : List Declaration) : List Fault :=
  (Declaration.nestedIn ds).flatMap Declaration.unhandled

/-- The faults of the calls of the own constructor in the delegation lists of classes in a
list of declarations. -/
def thisCallFaultsIn (ds : List Declaration) : List Fault :=
  (Declaration.nestedIn ds).flatMap Declaration.thisCallFaults

theorem consistent_initialState : initialState.Consistent :=
  ⟨fun _ h => absurd h List.not_mem_nil, fun _ h => absurd h List.not_mem_nil,
    fun _ h => absurd h List.not_mem_nil⟩

theorem bindings_get_initialState (scope : Nat) :
    (initialState.scopes.get scope).bindings = {} := by
  refine (ScopeTree.bindings_get_create ..).trans ?_
  exact (ScopeTree.bindings_get_create ..).trans (by simp [ScopeTree.get])

theorem namespacesBound_initialState : initialState.NamespacesBound := by
  intro scope name descriptor h
  rw [bindings_get_initialState] at h
  simp at h

theorem get_initialState (id : Nat) :
    initialState.descriptors.get id = ⟨"", none, .variableKind ⟨none, false⟩⟩ := by
  simp [initialState, Session.descriptors, Model.initial, DescriptorTable.get]

theorem unfinalized_initialState : initialState.Unfinalized := by
  intro id
  rw [get_initialState]
  trivial

theorem accessorsResolved_initialState : initialState.AccessorsResolved := by
  intro id function h
  rw [get_initialState] at h
  exact h.elim

/-- The passes stop at the first construct that is not handled or else at the first call of
the own constructor in the delegation list of a class. -/
theorem stopsAtFirst_allPasses
    (options : AnalysisOptions) {ds : List Declaration} (hds : (Declaration.nodesOf ds).Nodup) :
    StopsAtFirst (unhandledIn ds ++ thisCallFaultsIn ds) (allPasses options ds) initialState
      fun _ _ => True := by
  refine StopsAtFirst.bind (stopsAtFirst_collectAll options toplevel ds initialState
    consistent_initialState namespacesBound_initialState hds) fun _ s₁ h₁ => ?_
  have hopen₁ := h₁.follows.session.unfinalized unfinalized_initialState
  refine AfterOk.bind_first (afterOk_resolveClasses h₁.consistent hopen₁) fun _ s₂ h₂ => ?_
  have hclasses : s₁.tables.classes.toList.map Prod.fst =
      (Declaration.nestedIn ds).filterMap Declaration.classHead? := h₁.classes
  have hspecifiers : (s₁.tables.classes.toList.flatMap fun entry => entry.1.specifierNodes) =
      Declaration.specifierNodes (Declaration.nestedIn ds) := by
    rw [Declaration.specifierNodes, ← hclasses, List.flatMap_map]
  rw [hspecifiers] at h₂
  have hknown : ∀ d ∈ Declaration.nestedIn ds, d.Known s₂ := by
    intro d hd
    have hfollows : s₁.Follows _ s₂ := ⟨h₂.1, fun _ hid => h₂.2 ▸ hid⟩
    exact (h₁.known d hd).of_follows hfollows (Declaration.id_not_mem_specifierNodes hds hd)
  have hopen₂ := h₂.1.unfinalized hopen₁
  refine AfterOk.bind_first (afterOk_registerAll toplevel ds s₂
    (h₁.consistent.of_follows h₂.1 h₂.2) hopen₂ hknown hds) fun _ s₃ h₃ => ?_
  have hprepared : Prepared s₃ := by
    refine ⟨h₃.consistent, h₃.follows.session.accessorsResolved ?_⟩
    refine h₂.1.accessorsResolved ?_
    exact h₁.follows.session.accessorsResolved accessorsResolved_initialState
  refine AfterOk.bind_first (afterOk_finalizeClasses hprepared) fun _ s₄ h₄ => ?_
  have hfaults : thisCallFaultsIn ds =
      s₄.tables.classes.toList.flatMap fun entry => entry.1.thisCallFaults := by
    rw [thisCallFaultsIn, Declaration.flatMap_thisCallFaults, ← hclasses, List.flatMap_map, h₄.2, h₃.classes, h₂.2]
  rw [hfaults]
  exact stopsAtFirst_resolveBodies h₄.1 options

end Pass

end DeclAnalysis
