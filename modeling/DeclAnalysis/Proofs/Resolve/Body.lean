import DeclAnalysis.Resolve.Body
import DeclAnalysis.Proofs.Resolve.Signature
import DeclAnalysis.Proofs.Semantic.Filling
import DeclAnalysis.Proofs.Tree.Roots

/-!
# What resolving bodies does to a session

Initializers, bodies and delegation lists are resolved in sessions that follow one
another, whether or not a fault stops the resolution. Types that are known are never
replaced.
-/

namespace DeclAnalysis

namespace Session

variable {nodes : List Nat} {s : Session}

/-- Filling in the type of a property leaves the types alone that are known. -/
theorem Proceeds.fillPropertyType (property : Nat) (type : Ty) :
    Proceeds nodes s
      { s with model.descriptors := s.model.descriptors.fillPropertyType property type } := by
  refine ⟨?_, .fillPropertyType _ property type, .fillPropertyType _ property type⟩
  refine DescriptorTable.fillPropertyType_steps
    (p := fun t => Follows nodes s { s with model.descriptors := t }) (.refl nodes s)
    (fun t h => ?_) (fun t g h => ?_) fun t v h => ?_
  · exact h.trans (.editProperty property (fun _ => isSome_orElse) fun _ _ => .inl)
  · exact h.trans (.editSignature g fun _ => isSome_orElse)
  · exact h.trans (.editVariable v fun _ => isSome_orElse)

/-- Typing leaves the return types of what exists alone. -/
theorem Types.returnType?_eq
    {s' : Session} {function : Nat} (h : Types nodes s s')
    (hfunction : (s.descriptors.signature? function).isSome) :
    s'.descriptors.returnType? function = s.descriptors.returnType? function := by
  have hget := h.extends_.get_eq function (DescriptorTable.lt_size_of_signature? hfunction)
  unfold DescriptorTable.returnType? DescriptorTable.signature?
  rw [hget]

end Session

namespace Analysis

open Session (AllowsMismatches Proceeds Types AllowsNotes AllowsRemarks AllowsTyping Ground)

section Notes

variable {nodes : List Nat} {R : Session → Session → Prop} [hR : AllowsNotes nodes R]

include hR

omit hR in
/-- Only nodes of the body are reported to be unreachable. -/
theorem keepsOr_reportUnreachable
    [IsPreorder Session R] [AllowsRemarks .unreachableCode nodes R] {body : Expr}
    (hbody : body.nodes ⊆ nodes) (options : AnalysisOptions) (flow : FlowInformation)
    (node : Nat) : KeepsOr R (reportUnreachable options flow node body) := by
  unfold reportUnreachable
  split
  · exact KeepsOr.throw _
  · split
    · refine KeepsOr.forM _ fun element helement => ?_
      exact KeepsOr.lift (keeps_remark (hbody (body.roots_subset_nodes _ helement)) _)
    · exact KeepsOr.pure _

/-- Settling the backing field of a property is taking notes. -/
theorem keeps_concludeField (decl : PropertyDecl) (property : Nat) :
    Keeps R (concludeField decl property) := by
  have hinitializer : Keeps R (judgeInitializer decl property) := by
    unfold judgeInitializer
    split
    · refine Keeps.get_bind fun s => ?_
      split
      · exact keeps_reportOther (by decide) ..
      · exact Keeps.pure _
    · exact Keeps.pure _
  unfold concludeField
  dsimp only
  split
  · exact (keeps_recordBackingField property).bind fun _ => hinitializer
  · exact hinitializer

end Notes

section Typing

variable {g : Ground} {nodes : List Nat} {R : Session → Session → Prop} [hR : g.Allows nodes R]
  [hM : AllowsMismatches nodes R] {refs : List TypeRef}

include hR hM

/-! ### Delegation lists -/

theorem keepsFrom_resolveDelegation
    {locals : List String} {specifier : DelegationSpecifier} (hnodes : specifier.nodes ⊆ nodes)
    (hrefs : specifier.typeRefs ⊆ refs) (hlocals : specifier.openLocals ⊆ locals)
    (members : Nat) (hasPrimary : Bool) :
    KeepsOr (From (g.admits locals refs members) R)
      (resolveDelegation members hasPrimary specifier) := by
  unfold resolveDelegation
  split
  · rename_i id ref delegate
    simp only [DelegationSpecifier.nodes, DelegationSpecifier.typeRefs, List.cons_subset]
      at hnodes hrefs
    refine KeepsOr.bind (KeepsOr.lift
      (keepsFrom_inferWithin members delegate hnodes.2.2 hrefs.2 hlocals)) fun type => ?_
    cases type with
    | none => exact KeepsOr.pure _
    | some actual =>
        refine KeepsOr.bind (KeepsOr.lift
          (keepsFrom_resolveTypeRef hrefs.1 hnodes.2.1 members)) fun supertype => ?_
        refine KeepsOr.of_afterOr fun s => afterOr_bind.mpr (afterOr_get.mpr ?_)
        by_cases hsubtype : s.descriptors.isSubtype actual supertype
        · rw [hsubtype]
          exact refl_of (From (g.admits locals refs members) R) s
        · have hfalse := Bool.eq_false_of_not_eq_true hsubtype
          rw [hfalse]
          exact fun _ => AllowsMismatches.of_mismatch (hnodes.2.2 delegate.id_mem_nodes) hfalse
  · rename_i id ref arguments
    simp only [DelegationSpecifier.nodes, DelegationSpecifier.typeRefs, List.cons_subset,
      List.append_subset] at hnodes hrefs
    exact KeepsOr.lift (keepsFrom_checkConstructorCall (hrefs.1 List.mem_cons_self)
      (hnodes.2.1 List.mem_cons_self) hnodes.1 hnodes.2.2 hrefs.2 hlocals members)
  · split
    · exact KeepsOr.lift (keeps_reportOther (by decide) ..)
    · exact KeepsOr.pure _
  · exact KeepsOr.throw _
  · exact KeepsOr.pure _
  · exact KeepsOr.pure _

/-- The delegation list of a class is resolved in the scope of its members. -/
theorem keepsFrom_resolveDelegations
    {locals : List String} {head : ClassHead}
    (hnodes : head.delegationSpecifiers.flatMap DelegationSpecifier.nodes ⊆ nodes)
    (hrefs : head.delegationSpecifiers.flatMap DelegationSpecifier.typeRefs ⊆ refs)
    (hlocals : head.delegationSpecifiers.flatMap DelegationSpecifier.openLocals ⊆ locals)
    (descriptor : Nat) :
    KeepsOr (From (fun s => ∀ data, s.descriptors.classData? descriptor = some data →
      g.admits locals refs data.memberScope s) R) (resolveDelegations head descriptor) := by
  refine KeepsOr.of_afterOr fun s => afterOr_bind.mpr (afterOr_get.mpr ?_)
  split
  · exact fun _ => refl_of R s
  · rename_i data hdata
    have hforM : KeepsOr (From (g.admits locals refs data.memberScope) R)
        (head.delegationSpecifiers.forM
          (resolveDelegation data.memberScope head.primaryConstructor.isSome)) := by
      refine KeepsOr.forM _ fun specifier hmem => keepsFrom_resolveDelegation ?_ ?_ ?_ ..
      · exact fun node h => hnodes (List.mem_flatMap.mpr ⟨specifier, hmem, h⟩)
      · exact fun ref h => hrefs (List.mem_flatMap.mpr ⟨specifier, hmem, h⟩)
      · exact fun name h => hlocals (List.mem_flatMap.mpr ⟨specifier, hmem, h⟩)
    exact AfterAny.mono (hforM.afterOr s) fun _ h hs => h (hs data hdata)

/-! ### Constructors -/

theorem keepsFrom_resolveConstructorInitializer
    {specifier : DelegationSpecifier} (hnodes : specifier.nodes ⊆ nodes)
    (hrefs : specifier.typeRefs ⊆ refs) (scope classId : Nat) :
    Keeps (From (g.fresh refs scope) R)
      (resolveConstructorInitializer scope classId specifier) := by
  suffices h : Keeps (From (g.admits specifier.openLocals refs scope) R)
      (resolveConstructorInitializer scope classId specifier) from
    h.mono fun _ _ h hs => h (Ground.Allows.admits_of_fresh R hs _)
  unfold resolveConstructorInitializer
  split
  · rename_i id ref arguments
    simp only [DelegationSpecifier.nodes, DelegationSpecifier.typeRefs, List.cons_subset,
      List.append_subset] at hnodes hrefs
    exact keepsFrom_checkConstructorCall (hrefs.1 List.mem_cons_self)
      (hnodes.2.1 List.mem_cons_self) hnodes.1 hnodes.2.2 hrefs.2 (List.Subset.refl _) scope
  · exact Keeps.pure _
  · rename_i id arguments
    obtain ⟨hid, hnodes⟩ := List.cons_subset.mp hnodes
    exact Keeps.get_bind fun s =>
      keepsFrom_checkClassConstructorCall hid hnodes hrefs (List.Subset.refl _) ..
  · exact keeps_reportOther (by decide) ..
  · exact keeps_reportOther (by decide) ..

theorem keepsFrom_resolveConstructorInitializers
    {decl : ConstructorDecl} (hnodes : decl.nodes.tail ⊆ nodes) (hrefs : decl.typeRefs ⊆ refs)
    (scope classId : Nat) :
    KeepsOr (From (g.fresh refs scope) R) (decl.initializers.forM fun i =>
      (resolveConstructorInitializer scope classId i : FaultyAnalysis Unit)) := by
  have hparts := hnodes
  simp only [ConstructorDecl.nodes, List.tail_cons, List.append_subset] at hparts
  simp only [ConstructorDecl.typeRefs, List.append_subset] at hrefs
  refine KeepsOr.forM _ fun specifier hmem => ?_
  refine KeepsOr.lift (keepsFrom_resolveConstructorInitializer ?_ ?_ scope classId)
  · exact fun node h => hparts.1.2 (List.mem_flatMap.mpr ⟨specifier, hmem, h⟩)
  · exact fun ref h => hrefs.1.2 (List.mem_flatMap.mpr ⟨specifier, hmem, h⟩)

theorem keepsFrom_resolveConstructorParts
    [AllowsRemarks .unreachableCode nodes R] (options : AnalysisOptions) {decl : ConstructorDecl}
    (hnodes : decl.nodes.tail ⊆ nodes) (hrefs : decl.typeRefs ⊆ refs) (scope classId : Nat) :
    KeepsOr (From (g.fresh refs scope) R) (resolveConstructorParts options scope classId decl) := by
  refine KeepsOr.bind (keepsFrom_resolveConstructorInitializers hnodes hrefs scope classId)
    fun _ => ?_
  have hparts := hnodes
  simp only [ConstructorDecl.nodes, List.tail_cons, List.append_subset] at hparts
  simp only [ConstructorDecl.typeRefs, List.append_subset] at hrefs
  split
  · rename_i body heq
    rw [heq] at hparts hrefs
    exact KeepsOr.bind (KeepsOr.lift (keepsFrom_inferBody scope hparts.2 hrefs.2)) fun _ =>
      keepsOr_reportUnreachable hparts.2 ..
  · exact KeepsOr.pure _

omit hM in
/-- The backing fields of properties are made known in a new scope. -/
theorem keepsFrom_addFields (scope : Nat) (name : Nat → String) (properties : List Nat) :
    Keeps (From (g.fresh refs scope) R) (onScopes fun scopes =>
      properties.foldl (fun s p => s.addField scope (name p) p) scopes) := by
  refine ⟨fun s hs => ?_⟩
  exact Ground.foldl_bind hs
    (f := fun p b => { b with fields := b.fields.insert (name p) p })
    (fun _ _ => rfl) (fun _ _ => rfl) (fun _ _ => rfl) properties

theorem keepsFrom_resolveConstructorBody
    [AllowsRemarks .unreachableCode nodes R] {locals : List String} (options : AnalysisOptions)
    (properties : Nat → List Nat)
    {decl : ConstructorDecl} (hnodes : decl.nodes.tail ⊆ nodes) (hrefs : decl.typeRefs ⊆ refs)
    (scope constructor : Nat) :
    KeepsOr (From (g.admits locals refs scope) R)
      (resolveConstructorBody options properties scope decl constructor) := by
  refine KeepsOr.get_bind fun s => ?_
  split
  · exact KeepsOr.throw _
  · rename_i classId _
    refine KeepsOr.bind_from (fun s hs => AfterOr.lift
      (Ground.Allows.createScope hs .constructor none)) fun fieldScope => ?_
    refine KeepsOr.get_bind fun s => ?_
    refine KeepsOr.bind (KeepsOr.lift (keepsFrom_addFields ..)) fun _ => ?_
    refine KeepsOr.bind_from (fun s hs => afterOr_functionInnerScope
      (Ground.Allows.admits_of_fresh R hs []) constructor) fun inner => ?_
    refine KeepsOr.bind (keepsOr_observed _
      (keepsFrom_resolveConstructorParts options hnodes hrefs inner classId)) fun violations => ?_
    exact KeepsOr.forM _ fun node _ => KeepsOr.lift (keeps_reportOther (by decide) ..)

end Typing

section Free

variable {nodes : List Nat} {R : Session → Session → Prop} [hR : AllowsTyping nodes R]

include hR

theorem keepsOr_resolveDelegations
    {head : ClassHead} (hhead : head.nodes.tail ⊆ nodes) (descriptor : Nat) :
    KeepsOr R (resolveDelegations head descriptor) := by
  obtain ⟨-, hspecifiers⟩ := List.append_subset.mp hhead
  have hresolve := keepsFrom_resolveDelegations (g := .free) (R := R) hspecifiers
    (List.Subset.refl _) (List.Subset.refl _) descriptor
  exact hresolve.mono fun _ _ h => h fun _ _ => trivial

theorem keeps_addFields (scope : Nat) (name : Nat → String) (properties : List Nat) :
    Keeps R (onScopes fun scopes =>
      properties.foldl (fun s p => s.addField scope (name p) p) scopes) := by
  have hadd : Keeps (From (Ground.free.fresh [] scope) R) _ :=
    keepsFrom_addFields scope name properties
  exact hadd.mono fun _ _ h => h trivial

theorem keepsOr_resolveConstructorBody
    (options : AnalysisOptions) (properties : Nat → List Nat) {decl : ConstructorDecl}
    (hdecl : decl.nodes.tail ⊆ nodes) (scope constructor : Nat) :
    KeepsOr R (resolveConstructorBody options properties scope decl constructor) := by
  have hresolve : KeepsOr (From (Ground.free.admits [] decl.typeRefs scope) R) _ :=
    keepsFrom_resolveConstructorBody options properties hdecl (List.Subset.refl _) scope constructor
  exact hresolve.mono fun _ _ h => h trivial

end Free

variable {nodes : List Nat} {s : Session}

/-! ### Functions and accessors -/

/-- A return type that is open can be set. -/
theorem afterOr_setReturnType
    {function : Nat} (h : s.descriptors.returnType? function = none) (type : Ty) :
    AfterAny (setReturnType function type) s (Proceeds nodes s) := by
  simp only [setReturnType, tryDescriptors, afterOr_bind, afterOr_get,
    DescriptorTable.setReturnType]
  unfold Session.descriptors DescriptorTable.returnType? at h
  cases hsignature : s.model.descriptors.signature? function with
  | none => exact .refl nodes s
  | some signature =>
      rw [hsignature] at h
      refine ⟨.editSignature function fun _ _ => rfl, .editSignature fun s' hs' => ?_,
        .of_valueType?_eq fun property _ => DescriptorTable.valueType?_editSignature ..⟩
      obtain rfl : signature = s' := Option.some.inj (hsignature.symm.trans hs')
      exact .inr ⟨h, type, rfl⟩

/-- Resolving the body of a function whose return type is known is typing. -/
theorem afterOr_resolveFunctionBody_of_declared
    {function : Nat} (h : (s.descriptors.returnType? function).isSome)
    (options : AnalysisOptions) (node : Nat) {body : Option Expr}
    (hbody : Expr.optionalNodes body ⊆ nodes) (scope : Nat) :
    AfterAny (resolveFunctionBody options node body function scope) s (Types nodes s) := by
  have hkeeps : KeepsOr (Types nodes) (checkFunctionBody options node body function scope) := by
    unfold checkFunctionBody
    cases body with
    | none => exact KeepsOr.pure _
    | some body =>
        refine (keepsOr_functionInnerScope scope function).bind fun inner => ?_
        exact (keepsOr_checkReturnType inner node hbody function).bind fun _ =>
          keepsOr_reportUnreachable hbody ..
  refine afterOr_bind.mpr (afterOr_get.mpr ?_)
  have hrun := hkeeps.afterOr s
  cases body with
  | none =>
      simp only [h]
      exact hrun
  | some body =>
      simp only [h]
      exact hrun

/-- The relation allows the return type of a function to be set that is still open. -/
def AllowsReturnTypeOf (R : Session → Session → Prop) (function : Nat) : Prop :=
  ∀ {s : Session}, s.descriptors.returnType? function = none → ∀ type,
    AfterAny (setReturnType function type) s (R s)

/-- The relation allows the type of a property to be filled in. -/
def AllowsTypeOf (R : Session → Session → Prop) (property : Nat) : Prop :=
  ∀ type, Keeps R (onDescriptors (·.fillPropertyType property type))

section Filling

variable {R : Session → Session → Prop} [hR : AllowsTyping nodes R]

include hR

theorem keepsOr_resolveFunctionBody_of
    {function : Nat} (hset : AllowsReturnTypeOf R function) (options : AnalysisOptions) (node : Nat)
    {body : Option Expr} (hbody : Expr.optionalNodes body ⊆ nodes) (scope : Nat) :
    KeepsOr R (resolveFunctionBody options node body function scope) := by
  refine KeepsOr.of_afterOr fun s => ?_
  have htypes : ∀ {s s' : Session}, Types nodes s s' → R s s' := AllowsTyping.of_types
  by_cases hdeclared : (s.descriptors.returnType? function).isSome
  · exact (afterOr_resolveFunctionBody_of_declared hdeclared options node hbody scope).mono
      fun _ h => htypes h
  have hopen : s.descriptors.returnType? function = none := by
    simpa using hdeclared
  refine afterOr_bind.mpr (afterOr_get.mpr ?_)
  cases body with
  | none =>
      simp only [hopen]
      have hreport : After (reportCode .missingReturnTypeAndBody node
          "This function must either declare a return type or have a body element") s
            fun _ s₁ => Types nodes s s₁ ∧ s₁.descriptors.returnType? function = none :=
        ⟨(keeps_reportCode (by decide) ..).after s, hopen⟩
      refine AfterOr.bind (AfterOr.lift hreport) fun _ s₁ h₁ => ?_
      exact AfterAny.mono (hset h₁.2 _) fun _ h => trans_of R (htypes h₁.1) h
  | some body =>
      simp only [hopen]
      -- Nothing but typing happens until the return type is set.
      have hrest : ∀ (type : Option Ty) (s₁ : Session), Types nodes s s₁ →
          (s.descriptors.signature? function).isSome → AfterAny (do
            setReturnType function (type.getD (.error "Unable to infer body type"))
            reportUnreachable options (.data (.ofBody node body)) node body : FaultyAnalysis Unit)
            s₁ (R s) := by
        intro type s₁ h₁ hfunction
        have hopen₁ := (h₁.returnType?_eq hfunction).trans hopen
        have hfill : ∀ type, AfterAny (setReturnType function type) s₁ (R s) :=
          fun type => AfterAny.mono (hset hopen₁ type) fun _ h => trans_of R (htypes h₁) h
        refine AfterOr.bind (hfill _) fun _ s₂ h₂ => ?_
        have hunreachable : KeepsOr R
            (reportUnreachable options (.data (.ofBody node body)) node body) :=
          keepsOr_reportUnreachable hbody ..
        exact AfterAny.mono (hunreachable.afterOr s₂) fun _ h => trans_of R h₂ h
      cases hfunction : s.model.descriptors.signature? function with
      | none =>
          simp only [functionInnerScope, Model.functionInnerScope, afterOr_bind, afterOr_get,
            hfunction]
          exact refl_of R s
      | some signature =>
          have hinner : KeepsOr (Types nodes) (functionInnerScope scope function) :=
            keepsOr_functionInnerScope scope function
          refine AfterOr.bind (AfterOr.mono (hinner.afterOr s) (fun _ _ h => h)
            fun _ _ h => htypes h) fun inner s₁ h₁ => ?_
          have hinfer : KeepsOr (Types nodes) (inferReturnType _ inner node (some body)) :=
            keepsOr_inferReturnType (.data (.ofBody node body)) inner node hbody
          refine AfterOr.bind (AfterOr.mono (hinfer.afterOr s₁) (fun _ _ h => h)
            fun _ _ h => htypes (h₁.trans h)) fun inferred s₂ h₂ => ?_
          exact hrest inferred s₂ (h₁.trans h₂) (Option.isSome_of_eq_some hfunction)

/-! ### Properties -/

theorem keeps_resolveInitializer_of
    {property : Nat} (hfill : AllowsTypeOf R property) {initializer : Expr}
    (h : initializer.nodes ⊆ nodes) (scope : Nat) (setter : Option Nat) :
    Keeps R (resolveInitializer scope property setter initializer) := by
  refine (keeps_infer scope initializer h).bind fun inferred => Keeps.get_bind fun s => ?_
  refine (keeps_expectKnownType (h initializer.id_mem_nodes) ..).bind fun _ => ?_
  cases inferred with
  | none => exact Keeps.pure _
  | some actual => exact hfill actual

omit hR in
theorem accessor_body_subset
    {o : Option Accessor} (h : o.toList.flatMap Accessor.nodes ⊆ nodes) {a : Accessor}
    (ha : o = some a) : Expr.optionalNodes a.body ⊆ nodes := by
  subst ha
  intro node hnode
  refine h (List.mem_flatMap.mpr ⟨a, List.mem_cons_self, ?_⟩)
  exact List.mem_cons_of_mem _ (List.mem_append_right _ hnode)

theorem keepsOr_resolveSetter_of
    {data : PropertyData}
    (hset : ∀ {setter}, data.setter = some setter → AllowsReturnTypeOf R setter)
    (options : AnalysisOptions) {decl : PropertyDecl}
    (hsetter : decl.setter.toList.flatMap Accessor.nodes ⊆ nodes) (scope : Nat) :
    KeepsOr R (resolveSetterBody options decl data scope) := by
  unfold resolveSetterBody
  split
  · rename_i accessor setter heq
    obtain ⟨haccessor, hdata⟩ := Prod.mk.inj heq
    have hbody := accessor_body_subset hsetter haccessor
    exact keepsOr_resolveFunctionBody_of (hset hdata) options accessor.id hbody scope
  · exact KeepsOr.pure _

theorem keepsOr_resolveAccessors_of
    {property : Nat} (hfill : AllowsTypeOf R property) {data : PropertyData}
    (hset : ∀ {f}, data.getter = some f ∨ data.setter = some f → AllowsReturnTypeOf R f)
    (options : AnalysisOptions) {decl : PropertyDecl}
    (hgetter : decl.getter.toList.flatMap Accessor.nodes ⊆ nodes)
    (hsetter : decl.setter.toList.flatMap Accessor.nodes ⊆ nodes) (scope : Nat) :
    KeepsOr R (resolveAccessors options decl property data scope) := by
  have hset' : KeepsOr R (resolveSetterBody options decl data scope) :=
    keepsOr_resolveSetter_of (fun h => hset (.inr h)) options hsetter scope
  unfold resolveAccessors
  dsimp only
  split
  · rename_i accessor getter heq
    obtain ⟨haccessor, hdata⟩ := Prod.mk.inj heq
    have hbody := accessor_body_subset hgetter haccessor
    have hresolve : KeepsOr R _ :=
      keepsOr_resolveFunctionBody_of (hset (.inl hdata)) options accessor.id hbody scope
    refine hresolve.bind fun _ => KeepsOr.get_bind fun s => ?_
    split
    · exact (KeepsOr.lift (hfill _)).bind fun _ => hset'
    · exact hset'
  · exact hset'

theorem keeps_concludeProperty_of
    {property : Nat} (hfill : AllowsTypeOf R property) (decl : PropertyDecl) :
    Keeps R (concludeProperty decl property) := by
  refine Keeps.get_bind fun s => ?_
  dsimp only
  split
  · refine (keeps_reportCode (by decide) ..).bind fun _ => ?_
    exact (hfill _).bind fun _ => keeps_concludeField decl property
  · exact keeps_concludeField decl property

theorem keepsOr_finishProperty_of
    {property : Nat} (hfill : AllowsTypeOf R property) {data : PropertyData}
    (hset : ∀ {f}, data.getter = some f ∨ data.setter = some f → AllowsReturnTypeOf R f)
    (options : AnalysisOptions) {decl : PropertyDecl}
    (hgetter : decl.getter.toList.flatMap Accessor.nodes ⊆ nodes)
    (hsetter : decl.setter.toList.flatMap Accessor.nodes ⊆ nodes) (scope : Nat) :
    KeepsOr R (finishProperty options scope decl property data) := by
  refine (KeepsOr.lift (keeps_createScope ..)).bind fun accessorScope => ?_
  refine (KeepsOr.lift (keeps_addField ..)).bind fun _ => ?_
  refine (keepsOr_observed _ (keepsOr_resolveAccessors_of hfill hset options hgetter hsetter
    accessorScope)).bind fun _ => ?_
  exact KeepsOr.lift (keeps_concludeProperty_of hfill decl)

/-- Resolving a property is typing, filling in its type, and setting the return types of its
accessors. -/
theorem afterAny_resolvePropertyBodies_of
    {property : Nat} (hfill : AllowsTypeOf R property)
    (hset : ∀ {data}, s.descriptors.propertyData? property = some data →
      ∀ {f}, data.getter = some f ∨ data.setter = some f → AllowsReturnTypeOf R f)
    (options : AnalysisOptions) {decl : PropertyDecl} (hdecl : decl.nodes.tail ⊆ nodes)
    (scope : Nat) : AfterAny (resolvePropertyBodies options scope decl property) s (R s) := by
  simp only [PropertyDecl.nodes, List.tail_cons, List.append_subset] at hdecl
  obtain ⟨⟨⟨-, hinitializer⟩, hgetter⟩, hsetter⟩ := hdecl
  refine afterOr_bind.mpr (afterOr_get.mpr ?_)
  split
  · exact refl_of R s
  · rename_i data hdata
    have hrest : KeepsOr R (finishProperty options scope decl property data) :=
      keepsOr_finishProperty_of hfill (hset hdata) options hgetter hsetter scope
    dsimp only
    split
    · rename_i initializer heq
      rw [heq] at hinitializer
      have hfirst : Keeps R _ :=
        keeps_resolveInitializer_of hfill hinitializer scope data.setter
      exact ((KeepsOr.lift hfirst).bind fun _ => hrest).afterOr s
    · exact hrest.afterOr s

end Filling

/-! ### Types that are filled in -/

theorem allowsReturnTypeOf_proceeds (nodes : List Nat) (function : Nat) :
    AllowsReturnTypeOf (Proceeds nodes) function :=
  fun h type => afterOr_setReturnType h type

theorem keeps_fillPropertyType (property : Nat) (type : Ty) :
    Keeps (Proceeds nodes) (onDescriptors (·.fillPropertyType property type)) :=
  ⟨fun _ => .fillPropertyType property type⟩

theorem keepsOr_resolveFunctionBody
    (options : AnalysisOptions) (node : Nat) {body : Option Expr}
    (hbody : Expr.optionalNodes body ⊆ nodes) (function scope : Nat) :
    KeepsOr (Proceeds nodes) (resolveFunctionBody options node body function scope) :=
  keepsOr_resolveFunctionBody_of (allowsReturnTypeOf_proceeds nodes function) options node hbody
    scope

theorem keeps_resolveInitializer
    {initializer : Expr} (h : initializer.nodes ⊆ nodes) (scope property : Nat)
    (setter : Option Nat) :
    Keeps (Proceeds nodes) (resolveInitializer scope property setter initializer) :=
  keeps_resolveInitializer_of (keeps_fillPropertyType property) h scope setter

theorem keepsOr_resolveSetter
    (options : AnalysisOptions) {decl : PropertyDecl}
    (hsetter : decl.setter.toList.flatMap Accessor.nodes ⊆ nodes)
    (data : PropertyData) (scope : Nat) :
    KeepsOr (Proceeds nodes) (resolveSetterBody options decl data scope) :=
  keepsOr_resolveSetter_of (fun _ => allowsReturnTypeOf_proceeds nodes _) options hsetter scope

theorem keepsOr_resolveAccessors
    (options : AnalysisOptions) {decl : PropertyDecl} (hdecl : decl.nodes.tail ⊆ nodes)
    (property : Nat) (data : PropertyData) (scope : Nat) :
    KeepsOr (Proceeds nodes) (resolveAccessors options decl property data scope) := by
  simp only [PropertyDecl.nodes, List.tail_cons, List.append_subset] at hdecl
  exact keepsOr_resolveAccessors_of (keeps_fillPropertyType property)
    (fun _ => allowsReturnTypeOf_proceeds nodes _) options hdecl.1.2 hdecl.2 scope

theorem keeps_concludeProperty (decl : PropertyDecl) (property : Nat) :
    Keeps (Proceeds nodes) (concludeProperty decl property) :=
  keeps_concludeProperty_of (keeps_fillPropertyType property) decl

theorem keepsOr_resolvePropertyBodies
    (options : AnalysisOptions) {decl : PropertyDecl} (hdecl : decl.nodes.tail ⊆ nodes)
    (scope property : Nat) :
    KeepsOr (Proceeds nodes) (resolvePropertyBodies options scope decl property) :=
  KeepsOr.of_afterOr fun _ => afterAny_resolvePropertyBodies_of (keeps_fillPropertyType property)
    (fun _ _ _ => allowsReturnTypeOf_proceeds nodes _) options hdecl scope

end Analysis

end DeclAnalysis
