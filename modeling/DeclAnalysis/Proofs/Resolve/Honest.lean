import DeclAnalysis.Proofs.Resolve.Faults
import DeclAnalysis.Proofs.Typing.Honest

/-!
# No error type without a report

An analysis that reports nothing resolves every type reference and every supertype. All other
error types that it leaves behind stand for types that are not known: those of properties and
functions that are referred to before their types are found out, and those of bodies without
any. It does not matter whether a fault stops the analysis.
-/

namespace DeclAnalysis

namespace DescriptorTable

variable {t : DescriptorTable}

/-- Filling in a type that is honest. -/
theorem Honest.fillPropertyType (h : t.Honest) (property : Nat) {type : Ty} (htype : type.Honest) :
    (t.fillPropertyType property type).Honest := by
  have hfill : ∀ {o : Option Ty}, HonestType o → HonestType (o <|> some type) :=
    fun ho => ho.orElse (honestType_some htype)
  exact fillPropertyType_steps h (fun _ ht => ht.editProperty property fun _ hdata => hfill hdata)
    (fun _ g ht => ht.editSignature g fun _ hs => hfill hs)
    fun _ v ht => ht.editVariable v fun _ hv => hfill hv

end DescriptorTable

namespace Analysis

variable {p : Prop}

/-! ## Signatures -/

theorem honestly_supertypeOf (ref : TypeRef) (type : Ty) :
    Honestly (p ∧ type.isError = false) (supertypeOf ref type) fun type => type.isError = false := by
  unfold supertypeOf
  split
  · exact .pure fun _ => rfl
  · exact .pure fun _ => rfl
  · exact .pure And.right
  · exact (honestly_reportCode _ _ _ fun _ => False).bind fun _ => .pure fun h => h.2.elim

theorem honestly_resolveSupertypes (scope : Nat) (head : ClassHead) :
    Honestly p (resolveSupertypes scope head) fun types => ∀ type ∈ types, type.isError = false := by
  refine Honestly.bind (Honestly.mapM _ fun ref _ =>
    (honestly_resolveTypeRef scope ref).bind fun type => honestly_supertypeOf ref type)
    fun types => .pure fun h => ?_
  split
  · intro type htype
    obtain rfl := List.mem_singleton.mp htype
    rfl
  · exact h.2

theorem honestlyOr_resolveClass (scope : Nat) (head : ClassHead) (descriptor : Nat) :
    HonestlyOr p (resolveClass scope head descriptor) fun _ => True :=
  (HonestlyOr.lift (honestly_resolveSupertypes scope head)).bind fun _ =>
    honestlyOr_tryDescriptors fun hp _ _ ht ht' => ht.setSupertypes hp.2 ht'

theorem honestly_parameterType (scope : Nat) (parameter : Parameter) :
    Honestly p (parameterType scope parameter) fun type => type.isError = false := by
  unfold parameterType
  split
  · exact honestly_resolveTypeRef ..
  · exact (honestly_reportCode _ _ _ fun _ => False).bind fun _ => .pure fun h => h.2.elim

theorem honestly_resolveParameter (scope function : Nat) (parameter : Parameter) :
    Honestly p (resolveParameter scope function parameter) fun _ => True := by
  refine (honestly_parameterType scope parameter).bind fun type => ?_
  refine (honestly_createDescriptor _ _ fun h => DescriptorKind.honest_variableKind
    (honestType_some (Ty.honest_of_isError_eq_false h.2))).bind fun d => ?_
  exact (honestly_recordDeclaration ..).bind fun _ => .pure fun _ => trivial

theorem honestly_resolveSignature
    (scope : Nat) (role : FunctionRole) (name : String) (container : Option Nat)
    (parameters : List Parameter) :
    Honestly p (resolveSignature scope role name container parameters) fun _ => True := by
  refine (honestly_createDescriptor name container fun _ => ?_).bind fun d => ?_
  · split
    · exact honestType_none
    · exact honestType_none
  refine (Honestly.mapM _ fun parameter _ => honestly_resolveParameter scope d parameter).bind
    fun parameters => ?_
  refine (honestly_onDescriptors fun _ t ht => ?_).bind fun _ => .pure fun _ => trivial
  exact ht.editSignature d fun _ hs => hs

theorem honestly_declareParameterProperty (classId : Nat) (parameter : Parameter) {type : Ty}
    (htype : p → type.Honest) :
    Honestly p (declareParameterProperty classId parameter type) fun _ => True := by
  refine (honestly_createDescriptor _ _ fun h => DescriptorKind.honest_propertyKind
    (honestType_some (htype h))).bind fun d => ?_
  exact (honestly_recordDeclaration ..).bind fun _ => .pure fun _ => trivial

theorem honestlyOr_resolvePrimaryConstructor (classId : Nat) (head : ClassHead) :
    HonestlyOr p (resolvePrimaryConstructor classId head) fun _ => True := by
  unfold resolvePrimaryConstructor
  split
  · exact .pure fun _ => trivial
  · rename_i parameters _
    refine .get_bind fun s => ?_
    split
    · exact .throw _
    · refine (HonestlyOr.lift (honestly_resolveSignature ..)).bind fun constructor => ?_
      refine .get_bind fun s => ?_
      refine (honestlyOr_setReturnType constructor fun _ =>
        Ty.honest_of_isError_eq_false rfl).bind fun _ => .get_bind fun s => ?_
      refine (HonestlyOr.mapM_lift (q := fun _ => True) _ fun entry hentry => ?_).bind
        fun _ => .pure fun _ => trivial
      refine honestly_declareParameterProperty classId entry.1 fun h => ?_
      exact h.2.descriptors.parameterTypes constructor entry.2 (List.of_mem_zip hentry).2

theorem honestlyOr_resolveConstructor (scope classId : Nat) (decl : ConstructorDecl) :
    HonestlyOr p (resolveConstructor scope classId decl) fun _ => True := by
  refine (HonestlyOr.lift (honestly_resolveSignature ..)).bind fun constructor => ?_
  refine .get_bind fun s => ?_
  refine (honestlyOr_setReturnType constructor fun _ =>
    Ty.honest_of_isError_eq_false rfl).bind fun _ => ?_
  exact (HonestlyOr.lift (honestly_recordDeclaration ..)).bind fun _ => .pure fun _ => trivial

theorem honestlyOr_resolveFunction (scope : Nat) (container : Option Nat) (decl : FunctionDecl) :
    HonestlyOr p (resolveFunction scope container decl) fun _ => True := by
  refine (HonestlyOr.lift (honestly_resolveSignature ..)).bind fun function => ?_
  have hrest : ∀ {p : Prop}, HonestlyOr p (do
      recordDeclaration decl.id function
      return function : FaultyAnalysis Nat) fun _ => True := fun {_} =>
    (HonestlyOr.lift (honestly_recordDeclaration ..)).bind fun _ => .pure fun _ => trivial
  dsimp only
  split
  · rename_i ref _
    refine (HonestlyOr.lift (honestly_resolveTypeRef scope ref)).bind fun type => ?_
    exact (honestlyOr_setReturnType function fun h =>
      Ty.honest_of_isError_eq_false h.2).bind fun _ => hrest
  · exact hrest

theorem honestlyOr_resolveGetter
    (scope property : Nat) (name : String) (propertyType : Option Ty) (getter : Accessor) :
    HonestlyOr (p ∧ HonestType propertyType)
      (resolveGetter scope property name propertyType getter) fun _ => True := by
  refine (HonestlyOr.lift (honestly_resolveSignature ..)).bind fun function => ?_
  have hrest : ∀ {p : Prop}, HonestlyOr p (do
      recordDeclaration getter.id function
      return function : FaultyAnalysis Nat) fun _ => True := fun {_} =>
    (HonestlyOr.lift (honestly_recordDeclaration ..)).bind fun _ => .pure fun _ => trivial
  have hset : ∀ {p : Prop} (type : Option Ty), HonestlyOr (p ∧ HonestType type)
      (declareGetter getter function type) fun _ => True := by
    intro p type
    unfold declareGetter
    cases type with
    | none => exact hrest
    | some type => exact (honestlyOr_setReturnType function fun h => h.2 type rfl).bind fun _ => hrest
  dsimp only
  split
  · rename_i ref _
    exact (HonestlyOr.lift (honestly_resolveTypeRef scope ref)).bind fun type =>
      (hset (some type)).of_imp fun h =>
        ⟨h.1, honestType_some (Ty.honest_of_isError_eq_false h.2)⟩
  · exact (hset propertyType).of_imp fun h => ⟨trivial, h.1.2⟩

theorem honestly_setterParameterType
    (scope : Nat) (propertyType : Option Ty) (parameter : Option Parameter) :
    Honestly (p ∧ HonestType propertyType) (setterParameterType scope propertyType parameter)
      HonestType := by
  unfold setterParameterType
  split
  · exact .map ((honestly_resolveTypeRef ..).mono fun type h =>
      honestType_some (Ty.honest_of_isError_eq_false h))
  · exact .pure And.right

theorem honestlyOr_resolveSetter
    (scope property : Nat) (name : String) (propertyType : Option Ty) (setter : Accessor) :
    HonestlyOr (p ∧ HonestType propertyType)
      (resolveSetter scope property name propertyType setter) fun _ => True := by
  refine (HonestlyOr.lift (honestly_resolveSignature ..)).bind fun function => ?_
  refine (HonestlyOr.lift ((honestly_setterParameterType (p := p) scope propertyType
    setter.parameter).of_imp And.left)).bind fun type => ?_
  refine (HonestlyOr.lift (honestly_createDescriptor _ _ fun h =>
    DescriptorKind.honest_variableKind h.2)).bind fun value => ?_
  have hrest : ∀ {p : Prop}, HonestlyOr p (do
      onDescriptors (·.editSignature function fun s =>
        { s with parameters := s.parameters ++ [value] })
      setReturnType function .unit
      recordDeclaration setter.id function
      return function : FaultyAnalysis Nat) fun _ => True := by
    intro p
    refine (HonestlyOr.lift (honestly_onDescriptors fun _ t ht => ?_)).bind fun _ => ?_
    · exact ht.editSignature function fun _ hs => hs
    refine (honestlyOr_setReturnType function fun _ =>
      Ty.honest_of_isError_eq_false rfl).bind fun _ => ?_
    exact (HonestlyOr.lift (honestly_recordDeclaration ..)).bind fun _ => .pure fun _ => trivial
  dsimp only
  split
  · exact (HonestlyOr.lift (honestly_recordDeclaration ..)).bind fun _ => hrest
  · exact hrest

theorem honestlyOr_optionMapM
    {α : Type} {f : α → FaultyAnalysis Nat} (o : Option α)
    (h : ∀ a, HonestlyOr p (f a) fun _ => True) : HonestlyOr p (o.mapM f) fun _ => True := by
  cases o with
  | none => exact .pure fun _ => trivial
  | some a => exact (h a).bind fun _ => .pure fun _ => trivial

theorem honestlyOr_resolveProperty (scope : Nat) (container : Option Nat) (decl : PropertyDecl) :
    HonestlyOr p (resolveProperty scope container decl) fun _ => True := by
  have hdeclared : HonestlyOr p (decl.typeRef.mapM fun ref =>
      (resolveTypeRef scope ref : FaultyAnalysis Ty)) HonestType := by
    cases decl.typeRef with
    | none => exact .pure fun _ => honestType_none
    | some ref =>
        refine (HonestlyOr.lift (honestly_resolveTypeRef scope ref)).bind fun type => ?_
        exact .pure fun h => honestType_some (Ty.honest_of_isError_eq_false h.2)
  refine hdeclared.bind fun type => ?_
  refine (HonestlyOr.lift (honestly_createDescriptor _ _ fun h =>
    DescriptorKind.honest_propertyKind h.2)).bind fun property => ?_
  refine (HonestlyOr.lift (honestly_recordDeclaration ..)).bind fun _ => ?_
  refine (honestlyOr_optionMapM decl.getter fun getter => ?_).bind fun getter => ?_
  · exact (honestlyOr_resolveGetter (p := p) ..).of_imp fun h => h.1.1
  refine (honestlyOr_optionMapM decl.setter fun setter => ?_).bind fun setter => ?_
  · exact (honestlyOr_resolveSetter (p := p) ..).of_imp fun h => h.1.1.1
  refine (HonestlyOr.lift (honestly_onDescriptors fun _ t ht => ?_)).bind
    fun _ => .pure fun _ => trivial
  exact ht.editProperty property fun _ h => h

/-! ## Bodies -/

theorem honestly_fillPropertyType (property : Nat) {type : Ty} (htype : p → type.Honest) :
    Honestly p (onDescriptors (·.fillPropertyType property type)) fun _ => True :=
  honestly_onDescriptors fun hp _ ht => ht.fillPropertyType property (htype hp)

theorem honestly_checkClassConstructorCall
    (scope classId : Nat) (classType : Ty) (node : Nat) (arguments : List Expr) :
    Honestly p (checkClassConstructorCall scope classId classType node arguments)
      fun _ => True :=
  (honestly_inferArguments scope arguments).bind fun _ => honestly_matchConstructor ..

theorem honestly_checkConstructorCall
    (scope : Nat) (ref : TypeRef) (node : Nat) (arguments : List Expr) :
    Honestly p (checkConstructorCall scope ref node arguments) fun _ => True := by
  refine (honestly_resolveTypeRef scope ref).bind fun type => ?_
  split
  · exact honestly_checkClassConstructorCall ..
  · refine (honestly_inferArguments scope arguments).bind fun _ => ?_
    split
    · exact honestly_reportCode ..
    · exact .pure fun _ => trivial

theorem honestlyOr_resolveDelegation
    (members : Nat) (hasPrimary : Bool) (specifier : DelegationSpecifier) :
    HonestlyOr p (resolveDelegation members hasPrimary specifier) fun _ => True := by
  unfold resolveDelegation
  split
  · rename_i id ref delegate
    refine (HonestlyOr.lift (honestly_infer members delegate)).bind fun type => ?_
    cases type with
    | none => exact .pure fun _ => trivial
    | some actual =>
        refine (HonestlyOr.lift (honestly_resolveTypeRef members ref)).bind fun supertype => ?_
        refine .get_bind fun s => ?_
        split
        · exact .lift (honestly_report ..)
        · exact .pure fun _ => trivial
  · exact .lift (honestly_checkConstructorCall ..)
  · split
    · exact .lift (honestly_reportCode ..)
    · exact .pure fun _ => trivial
  · exact .throw _
  · exact .pure fun _ => trivial
  · exact .pure fun _ => trivial

theorem honestlyOr_resolveDelegations (head : ClassHead) (descriptor : Nat) :
    HonestlyOr p (resolveDelegations head descriptor) fun _ => True := by
  refine .get_bind fun s => ?_
  split
  · exact .throw _
  · exact .forM _ fun specifier _ => honestlyOr_resolveDelegation ..

theorem honestlyOr_reports {ι : Type} (f : ι → Analysis Unit) (xs : List ι)
    (h : ∀ i, Honestly p (f i) fun _ => True) :
    HonestlyOr p (xs.forM fun i => (f i : FaultyAnalysis Unit)) fun _ => True :=
  .forM _ fun i _ => .lift (h i)

theorem honestlyOr_reportUnreachable
    (options : AnalysisOptions) (flow : FlowInformation) (node : Nat) (body : Expr) :
    HonestlyOr p (reportUnreachable options flow node body) fun _ => True := by
  unfold reportUnreachable
  split
  · exact .throw _
  · split
    · exact honestlyOr_reports _ _ fun _ => honestly_reportCode ..
    · exact .pure fun _ => trivial

theorem honestlyOr_returnPoints (flow : FlowInformation) (node : Nat) :
    HonestlyOr p (returnPoints flow node) fun _ => True := by
  unfold returnPoints
  split
  · exact (honestlyOr_reports _ _ fun _ => honestly_report ..).bind fun _ => .pure fun _ => trivial
  · exact .throw _

theorem honestlyOr_checkReturnType
    (flow : FlowInformation) (scope node : Nat) (body : Option Expr) (function : Nat) :
    HonestlyOr p (checkReturnType flow scope node body function) fun _ => True := by
  refine .get_bind fun s => ?_
  split
  · exact .throw _
  · rename_i expected _
    cases body with
    | none => exact .pure fun _ => trivial
    | some body =>
        refine (HonestlyOr.lift (honestly_infer scope body)).bind fun _ => ?_
        refine (honestlyOr_returnPoints flow node).bind fun points => ?_
        refine (HonestlyOr.forM _ fun element _ => .get_bind fun s =>
          .lift (honestly_expectKnownType ..)).bind fun _ => .get_bind fun s => ?_
        split
        · exact honestlyOr_reports _ _ fun _ => honestly_report ..
        · exact .pure fun _ => trivial

/-- The join of honest types is honest. -/
theorem honestType_joinAll (t : DescriptorTable) {types : List Ty}
    (h : ∀ type ∈ types, type.Honest) : HonestType (joinAll t types) := by
  cases types with
  | nil => exact honestType_none
  | cons first rest =>
      refine honestType_some ?_
      obtain ⟨hfirst, hrest⟩ := List.forall_mem_cons.mp h
      clear h
      induction rest generalizing first with
      | nil => exact hfirst
      | cons next rest ih =>
          obtain ⟨hnext, hrest⟩ := List.forall_mem_cons.mp hrest
          exact ih (t.join first next) (DescriptorTable.honest_join hfirst hnext) hrest

theorem honestlyOr_inferReturnType
    (flow : FlowInformation) (scope node : Nat) (body : Option Expr) :
    HonestlyOr p (inferReturnType flow scope node body) HonestType := by
  unfold inferReturnType
  cases body with
  | none => exact .pure fun _ => honestType_none
  | some body =>
      refine (HonestlyOr.lift (honestly_infer scope body)).bind fun _ => ?_
      refine (honestlyOr_returnPoints flow node).bind fun points => .get_bind fun s => ?_
      refine .pure fun h => honestType_joinAll s.descriptors fun type htype => ?_
      unfold returnTypes at htype
      rcases List.mem_append.mp htype with htype | htype
      · obtain ⟨element, -, htype⟩ := List.mem_filterMap.mp htype
        exact h.2.expressionTypes htype
      · split at htype
        · exact absurd htype List.not_mem_nil
        · obtain rfl := List.mem_singleton.mp htype
          exact Ty.honest_of_isError_eq_false rfl

theorem honestlyOr_resolveFunctionBody
    (options : AnalysisOptions) (node : Nat) (body : Option Expr) (function scope : Nat) :
    HonestlyOr p (resolveFunctionBody options node body function scope) fun _ => True := by
  refine .get_bind fun s => ?_
  dsimp only
  cases body with
  | none =>
      dsimp only
      split
      · refine (HonestlyOr.lift (honestly_reportCode _ _ _ fun _ => False)).bind fun _ => ?_
        exact honestlyOr_setReturnType function fun h => h.2.elim
      · exact .pure fun _ => trivial
  | some body =>
      dsimp only
      refine (honestlyOr_functionInnerScope scope function).bind fun inner => ?_
      split
      · exact (honestlyOr_checkReturnType ..).bind fun _ => honestlyOr_reportUnreachable ..
      · refine (honestlyOr_inferReturnType _ inner node (some body)).bind fun inferred => ?_
        refine (honestlyOr_setReturnType function fun h => ?_).bind fun _ =>
          honestlyOr_reportUnreachable ..
        cases inferred with
        | none => exact Ty.IsOpen.body.honest
        | some type => exact h.2 type rfl

theorem honestly_resolveInitializer
    (scope property : Nat) (setter : Option Nat) (initializer : Expr) :
    Honestly p (resolveInitializer scope property setter initializer) fun _ => True := by
  refine (honestly_infer scope initializer).bind fun inferred => .get_bind fun s => ?_
  refine (honestly_expectKnownType ..).bind fun _ => ?_
  cases inferred with
  | none => exact .pure fun _ => trivial
  | some type => exact honestly_fillPropertyType property fun h => h.1.1.2 type rfl

theorem honestlyOr_resolveAccessors
    (options : AnalysisOptions) (decl : PropertyDecl) (property : Nat) (data : PropertyData)
    (scope : Nat) :
    HonestlyOr p (resolveAccessors options decl property data scope) fun _ => True := by
  have hset : ∀ {p : Prop},
      HonestlyOr p (resolveSetterBody options decl data scope) fun _ => True := by
    intro p
    unfold resolveSetterBody
    split
    · exact honestlyOr_resolveFunctionBody ..
    · exact .pure fun _ => trivial
  unfold resolveAccessors
  dsimp only
  split
  · rename_i accessor getter _
    refine (honestlyOr_resolveFunctionBody ..).bind fun _ => .get_bind fun s => ?_
    split
    · rename_i type htype
      refine (HonestlyOr.lift (honestly_fillPropertyType property fun h => ?_)).bind fun _ => hset
      exact h.2.descriptors.returnType? getter type htype
    · exact hset
  · exact hset

theorem honestly_concludeProperty (decl : PropertyDecl) (property : Nat) :
    Honestly p (concludeProperty decl property) fun _ => True := by
  have hfield : ∀ {p : Prop}, Honestly p (concludeField decl property) fun _ => True := by
    intro p
    have hinitializer : ∀ {p : Prop},
        Honestly p (judgeInitializer decl property) fun _ => True := by
      intro p
      unfold judgeInitializer
      split
      · refine .get_bind fun s => ?_
        split
        · exact honestly_reportCode ..
        · exact .pure fun _ => trivial
      · exact .pure fun _ => trivial
    unfold concludeField
    dsimp only
    split
    · exact (honestly_recordBackingField property).bind fun _ => hinitializer
    · exact hinitializer
  refine .get_bind fun s => ?_
  dsimp only
  split
  · refine (honestly_reportCode _ _ _ fun _ => False).bind fun _ => ?_
    exact (honestly_fillPropertyType property fun h => h.2.elim).bind fun _ => hfield
  · exact hfield

theorem honestlyOr_resolvePropertyBodies
    (options : AnalysisOptions) (scope : Nat) (decl : PropertyDecl) (property : Nat) :
    HonestlyOr p (resolvePropertyBodies options scope decl property) fun _ => True := by
  refine .get_bind fun s => ?_
  split
  · exact .throw _
  · rename_i data _
    have hrest : ∀ {p : Prop},
        HonestlyOr p (finishProperty options scope decl property data) fun _ => True := by
      intro p
      refine (HonestlyOr.lift (honestly_createScope ..)).bind fun accessorScope => ?_
      refine (HonestlyOr.lift (honestly_onScopes _)).bind fun _ => ?_
      refine (honestlyOr_observed _ (honestlyOr_resolveAccessors ..)).bind fun _ => ?_
      exact .lift (honestly_concludeProperty decl property)
    dsimp only
    split
    · exact (HonestlyOr.lift (honestly_resolveInitializer ..)).bind fun _ => hrest
    · exact hrest

theorem honestly_resolveConstructorInitializer
    (scope classId : Nat) (specifier : DelegationSpecifier) :
    Honestly p (resolveConstructorInitializer scope classId specifier) fun _ => True := by
  unfold resolveConstructorInitializer
  split
  · exact honestly_checkConstructorCall ..
  · exact .pure fun _ => trivial
  · exact .get_bind fun s => honestly_checkClassConstructorCall ..
  · exact honestly_reportCode ..
  · exact honestly_reportCode ..

theorem honestlyOr_resolveConstructorBody
    (options : AnalysisOptions) (properties : Nat → List Nat) (scope : Nat)
    (decl : ConstructorDecl) (constructor : Nat) :
    HonestlyOr p (resolveConstructorBody options properties scope decl constructor)
      fun _ => True := by
  have hparts : ∀ {p : Prop} (inner classId : Nat),
      HonestlyOr p (resolveConstructorParts options inner classId decl) fun _ => True := by
    intro p inner classId
    refine (honestlyOr_reports _ _ fun _ => honestly_resolveConstructorInitializer ..).bind
      fun _ => ?_
    split
    · exact (HonestlyOr.lift (honestly_infer ..)).bind fun _ => honestlyOr_reportUnreachable ..
    · exact .pure fun _ => trivial
  refine .get_bind fun s => ?_
  split
  · exact .throw _
  · refine (HonestlyOr.lift (honestly_createScope ..)).bind fun fieldScope => .get_bind fun s => ?_
    refine (HonestlyOr.lift (honestly_onScopes _)).bind fun _ => ?_
    refine (honestlyOr_functionInnerScope ..).bind fun inner => ?_
    refine (honestlyOr_observed _ (hparts ..)).bind fun violations => ?_
    exact honestlyOr_reports _ _ fun _ => honestly_reportCode ..

end Analysis

/-! ## Passes -/

namespace PassState

/-- Reports are not taken back, and from an honest state an honest one is reached unless
something is reported. -/
structure StaysHonest (s s' : PassState) : Prop where
  reported : s.Reported → s'.Reported
  honest : s.Honest → s'.Reported ∨ s'.Honest

instance : IsPreorder PassState StaysHonest where
  refl _ := ⟨id, .inr⟩
  trans _ _ _ h h' := ⟨fun hs => h'.reported (h.reported hs), fun hs =>
    (h.honest hs).elim (fun hs' => .inl (h'.reported hs')) h'.honest⟩

end PassState

namespace Pass

open Analysis
open PassState (StaysHonest)

variable {α : Type}

theorem staysHonest_faultyAnalysis {x : FaultyAnalysis α} {q : α → Prop}
    (h : HonestlyOr True x q) : KeepsOr StaysHonest (liftM x : Pass α) := by
  have hreported : KeepsOr (fun s s' : PassState => s.Reported → s'.Reported)
      (liftM x : Pass α) :=
    .of_afterOr fun s => afterOr_faultyAnalysis.mpr (AfterAny.imp fun hs => h.reported _ hs)
  have hhonest : KeepsOr (fun s s' : PassState => s.Honest → s'.Reported ∨ s'.Honest)
      (liftM x : Pass α) := by
    refine .of_afterOr fun s => afterOr_faultyAnalysis.mpr (AfterAny.imp fun hs => ?_)
    exact AfterOr.mono (h.honest trivial _ hs) (fun _ _ hs' => hs'.imp_right And.left)
      fun _ _ hs' => hs'
  exact ⟨fun s => ⟨hreported.after s, hhonest.after s⟩⟩

theorem staysHonest_analysis {x : Analysis α} {q : α → Prop} (h : Honestly True x q) :
    KeepsOr StaysHonest (liftM x : Pass α) :=
  staysHonest_faultyAnalysis (.lift h)

theorem staysHonest_session : KeepsOr StaysHonest session :=
  KeepsOr.get_bind fun _ => KeepsOr.pure _

theorem staysHonest_tables : KeepsOr StaysHonest tables :=
  KeepsOr.get_bind fun _ => KeepsOr.pure _

theorem staysHonest_onTables (f : Tables → Tables) : KeepsOr StaysHonest (onTables f) :=
  .of_afterOk fun _ => afterOr_onTables.mpr ⟨id, .inr⟩

theorem staysHonest_ofExcept (e : Except Fault α) : KeepsOr StaysHonest (ofExcept e) := by
  cases e with
  | ok a => exact KeepsOr.pure a
  | error fault => exact KeepsOr.throw fault

/-! ### Collecting -/

theorem staysHonest_collectClass (scope : Nat) (head : ClassHead) :
    KeepsOr StaysHonest (collectClass scope head) := by
  refine staysHonest_session.bind fun s => ?_
  refine (staysHonest_analysis (honestly_createScope ..)).bind fun members => ?_
  have hcreate : Honestly True (createDescriptor (head.name.getD noNameProvided)
      (s.scopes.containingDeclaration? scope)
      (.classKind false { memberScope := members, declaringScope := scope })) fun _ => True :=
    honestly_createDescriptor _ _ fun _ _ h => absurd h List.not_mem_nil
  refine (staysHonest_analysis hcreate).bind fun descriptor => ?_
  refine (staysHonest_analysis (honestly_onScopes _)).bind fun _ => ?_
  refine (staysHonest_analysis (honestly_recordDeclaration ..)).bind fun _ => ?_
  exact (staysHonest_onTables _).bind fun _ => KeepsOr.pure _

theorem staysHonest_declareNamespace (scope : Nat) (name : String) (node : Nat) :
    KeepsOr StaysHonest (declareNamespace scope name node) := by
  refine staysHonest_session.bind fun s => ?_
  refine (staysHonest_analysis (honestly_createScope ..)).bind fun members => ?_
  refine (staysHonest_analysis (honestly_createDescriptor _ _ fun _ =>
    DescriptorKind.honest_namespaceKind members)).bind fun descriptor => ?_
  refine (staysHonest_analysis (honestly_onScopes _)).bind fun _ => ?_
  exact (staysHonest_analysis (honestly_recordDeclaration ..)).bind fun _ => KeepsOr.pure _

theorem staysHonest_importMembers (scope : Nat) (imported : Expr) :
    KeepsOr StaysHonest (importMembers scope imported) := by
  refine (staysHonest_analysis (honestly_infer scope imported)).bind fun type => ?_
  cases type with
  | none => exact KeepsOr.pure _
  | some type =>
      refine staysHonest_session.bind fun s => ?_
      split
      · exact staysHonest_analysis (honestly_onScopes _)
      · split
        · exact staysHonest_analysis (honestly_reportCode _ _ _ fun _ => True)
        · exact KeepsOr.pure _

theorem staysHonest_applyImport (scope : Nat) (i : ImportDirective) :
    KeepsOr StaysHonest (applyImport scope i) := by
  refine applyImport_cases (p := KeepsOr _) scope i KeepsOr.throw (KeepsOr.pure _) ?_
  exact fun _ _ => staysHonest_importMembers ..

theorem staysHonest_collectNamespace (options : AnalysisOptions) (scope : Nat)
    (head : NamespaceHead) :
    KeepsOr StaysHonest (collectNamespace options scope head) := by
  have hrest : ∀ descriptor, KeepsOr StaysHonest (openContents scope head descriptor) := by
    intro descriptor
    refine staysHonest_session.bind fun s => ?_
    split
    · exact KeepsOr.throw _
    · rename_i members _
      have hcreate : Honestly True (createWriteThrough scope members) fun _ => True :=
        ⟨fun _ hs => hs, fun _ _ hs => .inr ⟨hs.of_scopes _, trivial⟩⟩
      refine (staysHonest_analysis hcreate).bind fun inner => ?_
      refine (staysHonest_onTables _).bind fun _ => ?_
      exact (KeepsOr.forM _ fun i _ => staysHonest_applyImport inner i).bind
        fun _ => KeepsOr.pure _
  refine staysHonest_session.bind fun s => ?_
  dsimp only
  split
  · exact hrest _
  · exact (staysHonest_declareNamespace ..).bind hrest

mutual

theorem staysHonest_collect (options : AnalysisOptions) (scope : Nat) (d : Declaration) :
    KeepsOr StaysHonest (collect options scope d) := by
  match d with
  | .classDecl head members =>
      exact (staysHonest_collectClass scope head).bind fun inner =>
        staysHonest_collectAll options inner members
  | .namespaceDecl head members =>
      exact (staysHonest_collectNamespace options scope head).bind fun inner =>
        staysHonest_collectAll options inner members
  | .typedefDecl .. | .extensionDecl .. => exact KeepsOr.throw _
  | .classObject _ members => exact staysHonest_collectAll options scope members
  | .functionDecl _ | .propertyDecl _ | .constructorDecl _ => exact KeepsOr.pure _

theorem staysHonest_collectAll (options : AnalysisOptions) (scope : Nat) (ds : List Declaration) :
    KeepsOr StaysHonest (collectAll options scope ds) := by
  match ds with
  | [] => exact KeepsOr.pure _
  | d :: rest =>
      exact (staysHonest_collect options scope d).bind fun _ =>
        staysHonest_collectAll options scope rest

end

/-! ### Signatures -/

theorem staysHonest_resolveClasses : KeepsOr StaysHonest resolveClasses := by
  refine staysHonest_tables.bind fun tables => KeepsOr.forM _ fun entry _ => ?_
  exact (staysHonest_ofExcept _).bind fun scope =>
    staysHonest_faultyAnalysis (honestlyOr_resolveClass scope entry.1 entry.2)

theorem staysHonest_registerClass (head : ClassHead) : KeepsOr StaysHonest (registerClass head) := by
  refine staysHonest_session.bind fun s => ?_
  split
  · exact KeepsOr.throw _
  · rename_i descriptor _
    refine staysHonest_session.bind fun s => ?_
    split
    · exact KeepsOr.throw _
    · refine (staysHonest_faultyAnalysis (honestlyOr_resolvePrimaryConstructor ..)).bind
        fun result => ?_
      obtain ⟨constructor, properties⟩ := result
      refine (KeepsOr.forM _ fun property _ => ?_).bind fun _ => ?_
      · refine (staysHonest_analysis (honestly_onScopes _)).bind fun _ => ?_
        refine (staysHonest_analysis (honestly_recordBackingField _)).bind fun _ => ?_
        exact staysHonest_onTables _
      · cases constructor with
        | none => exact KeepsOr.pure _
        | some c =>
            have hset : HonestlyOr True (tryDescriptors (·.setPrimaryConstructor descriptor c))
                fun _ => True :=
              honestlyOr_tryDescriptors fun _ _ _ ht ht' => ht.setPrimaryConstructor ht'
            exact (staysHonest_faultyAnalysis hset).bind fun _ => KeepsOr.pure _

theorem staysHonest_registerFunction (scope : Nat) (decl : FunctionDecl) :
    KeepsOr StaysHonest (registerFunction scope decl) := by
  refine staysHonest_session.bind fun s => ?_
  refine (staysHonest_faultyAnalysis (honestlyOr_resolveFunction ..)).bind fun function => ?_
  exact (staysHonest_analysis (honestly_onScopes _)).bind fun _ => staysHonest_onTables _

theorem staysHonest_registerProperty (scope : Nat) (decl : PropertyDecl) :
    KeepsOr StaysHonest (registerProperty scope decl) := by
  refine staysHonest_session.bind fun s => ?_
  refine (staysHonest_faultyAnalysis (honestlyOr_resolveProperty ..)).bind fun property => ?_
  exact (staysHonest_analysis (honestly_onScopes _)).bind fun _ => staysHonest_onTables _

theorem staysHonest_registerConstructor (scope : Nat) (decl : ConstructorDecl) :
    KeepsOr StaysHonest (registerConstructor scope decl) := by
  refine staysHonest_session.bind fun s => ?_
  split
  · exact staysHonest_analysis (honestly_reportCode _ _ _ fun _ => True)
  · rename_i classId _
    refine (staysHonest_faultyAnalysis (honestlyOr_resolveConstructor ..)).bind
      fun constructor => ?_
    have hadd : HonestlyOr True (tryDescriptors (·.addConstructor classId constructor))
        fun _ => True :=
      honestlyOr_tryDescriptors fun _ _ _ ht ht' => ht.addConstructor ht'
    exact (staysHonest_faultyAnalysis hadd).bind fun _ => staysHonest_onTables _

mutual

theorem staysHonest_register (scope : Nat) (d : Declaration) :
    KeepsOr StaysHonest (register scope d) := by
  match d with
  | .classDecl head members =>
      exact (staysHonest_registerClass head).bind fun inner =>
        staysHonest_registerAll inner members
  | .classObject id members =>
      exact (staysHonest_analysis (honestly_reportCode _ _ _ fun _ => True)).bind fun _ =>
        staysHonest_registerAll scope members
  | .namespaceDecl head members =>
      refine staysHonest_tables.bind fun tables => ?_
      split
      · exact KeepsOr.throw _
      · exact staysHonest_registerAll _ members
  | .functionDecl decl => exact staysHonest_registerFunction scope decl
  | .propertyDecl decl => exact staysHonest_registerProperty scope decl
  | .constructorDecl decl => exact staysHonest_registerConstructor scope decl
  | .typedefDecl .. | .extensionDecl .. =>
      exact staysHonest_analysis (honestly_reportCode _ _ _ fun _ => True)

theorem staysHonest_registerAll (scope : Nat) (ds : List Declaration) :
    KeepsOr StaysHonest (registerAll scope ds) := by
  match ds with
  | [] => exact KeepsOr.pure _
  | d :: rest =>
      exact (staysHonest_register scope d).bind fun _ => staysHonest_registerAll scope rest

end

/-! ### Bodies -/

theorem staysHonest_resolveFunctionLike
    (options : AnalysisOptions) (f : FunctionLike) (descriptor : Nat) :
    KeepsOr StaysHonest (resolveFunctionLike options f descriptor) := by
  have hcheck : KeepsOr StaysHonest (do
      if ((← session).descriptors.returnType? descriptor).isNone then
        throw (.at_ f.id .returnTypeUnset) : Pass Unit) := by
    refine staysHonest_session.bind fun s => ?_
    split
    · exact KeepsOr.throw _
    · exact KeepsOr.pure _
  refine staysHonest_tables.bind fun tables => (staysHonest_ofExcept _).bind fun scope => ?_
  cases f with
  | function decl =>
      exact (staysHonest_faultyAnalysis (honestlyOr_resolveFunctionBody ..)).bind fun _ => hcheck
  | constructor decl =>
      exact (staysHonest_faultyAnalysis (honestlyOr_resolveConstructorBody ..)).bind
        fun _ => hcheck

theorem staysHonest_resolveBodies (options : AnalysisOptions) :
    KeepsOr StaysHonest (resolveBodies options) := by
  refine staysHonest_tables.bind fun tables => ?_
  refine (KeepsOr.forM _ fun entry _ => ?_).bind fun _ => ?_
  · exact staysHonest_faultyAnalysis (honestlyOr_resolveDelegations entry.1 entry.2)
  · refine (KeepsOr.forM _ fun entry _ => ?_).bind fun _ => ?_
    · exact (staysHonest_ofExcept _).bind fun scope =>
        staysHonest_faultyAnalysis (honestlyOr_resolvePropertyBodies options scope entry.1 entry.2)
    · exact KeepsOr.forM _ fun entry _ => staysHonest_resolveFunctionLike options entry.1 entry.2

theorem staysHonest_finalizeClasses : KeepsOr StaysHonest finalizeClasses :=
  .of_afterOk fun _ => ⟨id, fun hs => .inr (hs.of_descriptors hs.descriptors.finalizeClasses)⟩

theorem staysHonest_allPasses (options : AnalysisOptions) (ds : List Declaration) :
    KeepsOr StaysHonest (allPasses options ds) := by
  refine (staysHonest_collectAll options toplevel ds).bind fun _ => ?_
  refine staysHonest_resolveClasses.bind fun _ => ?_
  refine (staysHonest_registerAll toplevel ds).bind fun _ => ?_
  exact staysHonest_finalizeClasses.bind fun _ => staysHonest_resolveBodies options

end Pass

namespace SourceFile

/-- What an analysis leaves behind is honest unless something has been reported. -/
theorem staysHonest_analyze (file : SourceFile) (options : AnalysisOptions) :
    (file.analyze options).session.Reported ∨ (file.analyze options).session.Honest := by
  have hinitial : Pass.initialState.Honest := by
    refine ⟨fun h => ?_, fun h => ?_, fun id => ?_⟩
    · simp [Session.trace, Trace.typeReference?, Pass.initialState] at h
    · simp [Session.trace, Trace.expressionType?, Pass.initialState] at h
    · rw [Pass.get_initialState]
      exact honestType_none
  have hstays := (Pass.staysHonest_allPasses options file.declarations).afterOr Pass.initialState
  unfold AfterAny AfterOr After at hstays
  unfold analyze
  generalize StateT.run (ExceptT.run (Pass.allPasses options file.declarations))
    Pass.initialState = outcome at hstays ⊢
  obtain ⟨fault | _, state⟩ := outcome
  · exact hstays.honest hinitial
  · exact hstays.honest hinitial

/-- The function `a` calls `b`, which stands behind it; neither declares a return type. -/
def forwardCall : SourceFile :=
  ofDeclarations "forward-call"
    [.functionDecl { name := "a", body := some (.call 0 "b" []) },
     .functionDecl { name := "b", body := some (.constant 0 (.int 1)) }]

end SourceFile

end DeclAnalysis
