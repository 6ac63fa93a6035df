import DeclAnalysis.Proofs.Resolve.Body
import DeclAnalysis.Proofs.Typing.Infer
import DeclAnalysis.Proofs.Typing.Recordings

/-!
# What resolving bodies records

Delegation lists, functions, accessors and constructors record what the logs of their expressions
say, and resolve the calls in delegation lists.
-/

namespace DeclAnalysis

namespace Session

variable {s s' s'' : Session} {named : String → List Nat}

/-- The first constructor of a class that accepts the arguments resolves a call. -/
theorem TypesAs.records_constructorCall
    {arguments : List Expr} {types : List (Option Ty)} (h : TypesAs named arguments types s s')
    {scope : Nat} (hs : s.model.Offers scope named) {call : Call}
    (hcall : call.arguments = arguments.map Expr.id) {classId : Nat}
    (hnames : s'.Names call.callee (s'.descriptors.constructorsOf classId))
    (hrefers : Refers call.node ((s'.descriptors.constructorsOf classId).find?
      (Analysis.accepts s'.descriptors types)) s' s'') :
    Records (Expr.recordingsOf named arguments ++ [.call call]) s s'' := by
  have hs' := h.records.offers hs
  refine h.records.call hrefers (fun argument hmem => ?_) fun hdistinct hvacant r hr => ?_
  · rw [hcall] at hmem
    exact Expr.type_mem_recordingsOf named hmem
  · refine resolvesCall_of_find? hs'.closed hnames hs'.constructors ?_ hr
    rw [hcall, List.map_map]
    exact h.types_eq hdistinct hvacant

end Session

namespace Analysis

variable {α : Type} {named : String → List Nat} {own : List Nat}

/-! ### Within a class -/

/-- The computation makes the entries, if the candidates are on offer in the scope and the class
has the constructors. -/
abbrev EntersWithin (named : String → List Nat) (own : List Nat) (scope classId : Nat)
    (xs : List Recording) (x : Analysis α) : Prop :=
  Logs (fun xs => From (fun s => s.model.Offers scope named ∧
    s.descriptors.constructorsOf classId = own) (Session.Records xs)) xs x

/-- So does a computation that no fault stops. -/
abbrev EntersOrWithin (named : String → List Nat) (own : List Nat) (scope classId : Nat)
    (xs : List Recording) (x : FaultyAnalysis α) : Prop :=
  LogsOr (fun xs => From (fun s => s.model.Offers scope named ∧
    s.descriptors.constructorsOf classId = own) (Session.Records xs)) xs x

instance recordsKeepWithin (xs : List Recording) (scope classId : Nat) :
    Stable (fun s => s.model.Offers scope named ∧ s.descriptors.constructorsOf classId = own)
      (Session.Records xs) where
  stable h hs := ⟨h.offers hs.1, (h.signatures.constructorsOf_eq classId).trans hs.2⟩

theorem EntersIn.within
    {scope : Nat} {xs : List Recording} {x : Analysis α} (h : EntersIn named scope xs x)
    (classId : Nat) : EntersWithin named own scope classId xs x :=
  ⟨fun s => After.mono (h.after s) fun _ _ h hs => h hs.1⟩

theorem EntersOrIn.within
    {scope : Nat} {xs : List Recording} {x : FaultyAnalysis α} (h : EntersOrIn named scope xs x)
    (classId : Nat) : EntersOrWithin named own scope classId xs x :=
  fun s => AfterOr.imp (h s) fun _ _ h hs => h hs.1

/-! ### Constructor calls -/

/-- A call of a class refers to one of its constructors. -/
theorem after_checkClassConstructorCall_records
    {scope : Nat} {s : Session} (hs : s.model.Offers scope named) (call : Call)
    {arguments : List Expr} (hcall : call.arguments = arguments.map Expr.id) {classId : Nat}
    (hnames : ∀ {s'}, Session.Records (Expr.recordingsOf named arguments) s s' →
      s'.Names call.callee (s'.descriptors.constructorsOf classId)) (classType : Ty) :
    After (checkClassConstructorCall scope classId classType call.node arguments) s fun _ =>
      Session.Records (Expr.recordingsOf named arguments ++ [.call call]) s := by
  refine After.bind (typesIn_inferArguments named scope arguments s hs) fun types s₁ h₁ => ?_
  refine After.mono (after_matchConstructor_refers ..) fun _ s₂ h₂ => ?_
  exact h₁.records_constructorCall hs hcall (hnames h₁.records) h₂

/-- Checks a constructor call on a type. -/
def checkTypeCall (scope : Nat) (type : Ty) (node : Nat) (arguments : List Expr) :
    Analysis Unit := do
  match type with
  | .classType classId _ => checkClassConstructorCall scope classId type node arguments
  | _ =>
    let _ ← inferArguments scope arguments
    if !type.isError then
      reportCode .semanticError node
        ("'" ++ type.text ++ "' is not a class and has no constructors")

theorem checkConstructorCall_eq
    (scope : Nat) (ref : TypeRef) (node : Nat) (arguments : List Expr) :
    checkConstructorCall scope ref node arguments = (do
      let type ← resolveTypeRef scope ref
      checkTypeCall scope type node arguments) := by
  rfl

theorem after_checkTypeCall_records
    {scope : Nat} {s : Session} (hs : s.model.Offers scope named) {ref : TypeRef} {type : Ty}
    (htype : s.trace.typeReference? ref.id = some type) (node : Nat) (arguments : List Expr) :
    After (checkTypeCall scope type node arguments) s fun _ =>
      Session.Records (DelegationSpecifier.callRecordings named own
        ⟨node, .super (some ref), arguments⟩) s := by
  unfold checkTypeCall
  split
  · rename_i classId name
    refine after_checkClassConstructorCall_records hs _ rfl (fun h => ?_) _
    exact ⟨classId, name, h.typeReference?_eq htype, rfl⟩
  · refine After.bind (typesIn_inferArguments named scope arguments s hs) fun types s₁ h₁ => ?_
    have hquiet : ∀ s₂, Session.Refers node none s₁ s₂ →
        Session.Records (DelegationSpecifier.callRecordings named own
          ⟨node, .super (some ref), arguments⟩) s s₂ := by
      intro s₂ h₂
      refine h₁.records.call h₂ (fun argument hmem => ?_) fun _ _ r hr => by cases hr
      exact Expr.type_mem_recordingsOf named hmem
    split
    · exact hquiet _ (after_report_refers ..)
    · exact hquiet s₁ (.of_recorder_eq none rfl rfl)

/-- A call of the class that a type reference denotes refers to one of its constructors. -/
theorem entersIn_checkConstructorCall
    (own : List Nat) (scope : Nat) (ref : TypeRef) (node : Nat) (arguments : List Expr) :
    EntersIn named scope
      (DelegationSpecifier.callRecordings named own ⟨node, .super (some ref), arguments⟩)
      (checkConstructorCall scope ref node arguments) := by
  rw [checkConstructorCall_eq]
  refine Logs.bind_from (q := fun type s => s.model.Offers scope named ∧
    s.trace.typeReference? ref.id = some type) (fun s hs => ?_) fun type => ?_
  · refine After.mono (after_resolveTypeRef_records scope ref s) fun type s₁ h₁ => ?_
    exact ⟨h₁.1, h₁.1.offers hs, h₁.2⟩
  · exact ⟨fun s hs => after_checkTypeCall_records hs.1 hs.2 node arguments⟩

/-! ### Delegation lists -/

theorem entersOrIn_resolveDelegation
    (members : Nat) (hasPrimary : Bool) (specifier : DelegationSpecifier) :
    EntersOrIn named members (specifier.classRecordings named)
      (resolveDelegation members hasPrimary specifier) := by
  match specifier with
  | .byExpression _ ref (some delegate) =>
      refine LogsOr.bind_last (LogsOr.lift (entersIn_infer named members delegate)) fun type => ?_
      cases type with
      | none => exact LogsOr.pure _
      | some actual =>
          refine LogsOr.bind_first
            (LogsOr.lift ((enters_resolveTypeRef members ref).inScope named members))
            fun supertype => LogsOr.get_bind fun s => ?_
          split
          · exact LogsOr.lift ((enters_report _).inScope named members)
          · exact LogsOr.pure _
  | .superCall _ (some ref) arguments =>
      exact LogsOr.lift (entersIn_checkConstructorCall [] members ref _ arguments)
  | .superClass id _ =>
      cases hasPrimary with
      | true => exact LogsOr.lift ((enters_report _).inScope named members)
      | false => exact LogsOr.pure _
  | .thisCall id _ => exact LogsOr.throw _
  | .byExpression _ _ none | .superCall _ none _ => exact LogsOr.pure _

/-- An entry of the delegation list of a secondary constructor. -/
theorem entersWithin_resolveConstructorInitializer
    (scope classId : Nat) (specifier : DelegationSpecifier) :
    EntersWithin named own scope classId (specifier.constructorRecordings named own)
      (resolveConstructorInitializer scope classId specifier) := by
  match specifier with
  | .superCall node (some ref) arguments =>
      exact (entersIn_checkConstructorCall own scope ref node arguments).within classId
  | .superCall _ none _ => exact Logs.pure _
  | .thisCall node arguments =>
      refine Logs.get_bind fun s₀ => ⟨fun s hs => ?_⟩
      refine after_checkClassConstructorCall_records hs.1
        (CallSite.call named own ⟨node, .this, arguments⟩) rfl (fun h => ?_) _
      exact (h.signatures.constructorsOf_eq classId).trans hs.2
  | .byExpression id _ _ => exact ((enters_report _).inScope named scope).within classId
  | .superClass id _ => exact ((enters_report _).inScope named scope).within classId

/-! ### Bodies -/

theorem entersOr_reportUnreachable
    (options : AnalysisOptions) (flow : FlowInformation) (node : Nat) (body : Expr) :
    EntersOr [] (reportUnreachable options flow node body) := by
  unfold reportUnreachable
  split
  · exact LogsOr.throw _
  · split
    · exact LogsOr.forM_none _ fun element _ => LogsOr.lift (enters_report _)
    · exact LogsOr.pure _

theorem entersOr_returnPoints (flow : FlowInformation) (node : Nat) :
    EntersOr [] (returnPoints flow node) := by
  unfold returnPoints
  split
  · refine LogsOr.bind_first ?_ fun _ => LogsOr.pure _
    exact LogsOr.forM_none _ fun element _ => LogsOr.lift (enters_report _)
  · exact LogsOr.throw _

theorem entersOr_checkReturnPoints (expected : Ty) (points : ReturnedInformation) :
    EntersOr [] (checkReturnPoints expected points) := by
  refine LogsOr.bind_first ?_ fun _ => LogsOr.get_bind fun s => ?_
  · exact LogsOr.forM_none _ fun element _ => LogsOr.get_bind fun _ =>
      LogsOr.lift (enters_expectKnownType ..)
  · split
    · exact LogsOr.forM_none _ fun element _ => LogsOr.lift (enters_report _)
    · exact LogsOr.pure _

theorem entersOrIn_checkReturnType
    (flow : FlowInformation) (scope node : Nat) (body : Expr) (function : Nat) :
    EntersOrIn named scope (body.recordings named)
      (checkReturnType flow scope node (some body) function) := by
  refine LogsOr.get_bind fun s => ?_
  split
  · exact LogsOr.throw _
  · rename_i expected _
    refine LogsOr.bind_last (LogsOr.lift (entersIn_infer named scope body)) fun _ => ?_
    refine LogsOr.bind_first ((entersOr_returnPoints flow node).inScope named scope)
      fun points => ?_
    exact (entersOr_checkReturnPoints expected points).inScope named scope

theorem entersOrIn_inferReturnType
    (flow : FlowInformation) (scope node : Nat) (body : Expr) :
    EntersOrIn named scope (body.recordings named)
      (inferReturnType flow scope node (some body)) := by
  refine LogsOr.bind_last (LogsOr.lift (entersIn_infer named scope body)) fun _ => ?_
  refine LogsOr.bind_first ((entersOr_returnPoints flow node).inScope named scope) fun points => ?_
  exact LogsOr.get_bind fun _ => LogsOr.pure _

/-- The body of a function or accessor. -/
theorem entersOrIn_resolveFunctionBody
    (options : AnalysisOptions) (node : Nat) (body : Option Expr) (function scope : Nat) :
    EntersOrIn named scope (Expr.optionalRecordings named body)
      (resolveFunctionBody options node body function scope) := by
  refine LogsOr.get_bind fun s => ?_
  cases body with
  | none =>
      dsimp only
      split
      · refine LogsOr.bind_first (LogsOr.lift ((enters_report _).inScope named scope))
          fun _ => ?_
        exact (entersOr_setReturnType _ _).inScope named scope
      · exact LogsOr.pure _
  | some body =>
      have hunreachable : ∀ inner, EntersOrIn named inner []
          (reportUnreachable options (.data (.ofBody node body)) node body) := fun inner =>
        (entersOr_reportUnreachable _ _ _ _).inScope named inner
      refine LogsOr.bind_from (fun s hs => afterOr_functionInnerScope_records hs function)
        fun inner => ?_
      dsimp only
      split
      · exact LogsOr.bind_last (entersOrIn_checkReturnType _ inner node body function)
          fun _ => hunreachable inner
      · refine LogsOr.bind_last (entersOrIn_inferReturnType _ inner node body) fun inferred => ?_
        exact LogsOr.bind_first ((entersOr_setReturnType _ _).inScope named inner)
          fun _ => hunreachable inner

/-! ### Properties -/

theorem entersIn_resolveInitializer
    (scope property : Nat) (setter : Option Nat) (initializer : Expr) :
    EntersIn named scope (initializer.recordings named)
      (resolveInitializer scope property setter initializer) := by
  refine Logs.bind_last (entersIn_infer named scope initializer) fun inferred => ?_
  refine Logs.get_bind fun s => ?_
  refine Logs.bind_first ((enters_expectKnownType ..).inScope named scope) fun _ => ?_
  cases inferred with
  | none => exact Logs.pure _
  | some actual => exact (enters_fillPropertyType property actual).inScope named scope

/-- Both accessors, the getter first. -/
theorem entersOrIn_resolveAccessors
    (options : AnalysisOptions) {decl : PropertyDecl} (property : Nat) {data : PropertyData}
    (hgetter : data.getter.isSome = decl.getter.isSome)
    (hsetter : data.setter.isSome = decl.setter.isSome) (scope : Nat) :
    EntersOrIn named scope (decl.accessorRecordings named)
      (resolveAccessors options decl property data scope) := by
  have hset : EntersOrIn named scope
      (decl.setter.toList.flatMap fun a => Expr.optionalRecordings named a.body)
      (resolveSetterBody options decl data scope) := by
    unfold resolveSetterBody
    cases hdecl : decl.setter with
    | none => exact LogsOr.pure _
    | some accessor =>
        rw [hdecl] at hsetter
        obtain ⟨setter, hdata⟩ := Option.isSome_iff_exists.mp hsetter
        rw [hdata, Option.toList_some, List.flatMap_singleton]
        exact entersOrIn_resolveFunctionBody options accessor.id accessor.body setter scope
  unfold resolveAccessors PropertyDecl.accessorRecordings
  cases hdecl : decl.getter with
  | none => exact hset
  | some accessor =>
      rw [hdecl] at hgetter
      obtain ⟨getter, hdata⟩ := Option.isSome_iff_exists.mp hgetter
      rw [hdata, Option.toList_some, List.flatMap_singleton]
      refine LogsOr.bind
        (entersOrIn_resolveFunctionBody options accessor.id accessor.body getter scope) fun _ => ?_
      refine LogsOr.get_bind fun s => ?_
      split
      · exact LogsOr.bind_first
          (LogsOr.lift ((enters_fillPropertyType property _).inScope named scope)) fun _ => hset
      · exact hset

theorem enters_concludeProperty (decl : PropertyDecl) (property : Nat) :
    Enters [] (concludeProperty decl property) := by
  have hinitializer : Enters [] (judgeInitializer decl property) := by
    unfold judgeInitializer
    split
    · refine Logs.get_bind fun s => ?_
      split
      · exact enters_report _
      · exact Logs.pure _
    · exact Logs.pure _
  have hfield : Enters [] (concludeField decl property) := by
    unfold concludeField
    dsimp only
    split
    · exact Logs.bind_first (enters_recordBackingField property) fun _ => hinitializer
    · exact hinitializer
  refine Logs.get_bind fun s => ?_
  dsimp only
  split
  · refine Logs.bind_first (enters_report _) fun _ => ?_
    exact Logs.bind_first (enters_fillPropertyType property _) fun _ => hfield
  · exact hfield

/-- A property with its initializer and its accessors. -/
theorem afterOr_resolvePropertyBodies_records
    (options : AnalysisOptions) {scope : Nat} {s : Session} (hs : s.model.Offers scope named)
    (decl : PropertyDecl) {property : Nat} {data : PropertyData}
    (hdata : s.descriptors.propertyData? property = some data)
    (hgetter : data.getter.isSome = decl.getter.isSome)
    (hsetter : data.setter.isSome = decl.setter.isSome) :
    AfterOr (resolvePropertyBodies options scope decl property) s
      (fun _ => Session.Records ((Declaration.propertyDecl decl).recordings named own) s)
      fun _ _ => True := by
  have haccessors : EntersOrIn named scope (decl.accessorRecordings named)
      (finishProperty options scope decl property data) := by
    refine LogsOr.bind_from
      (fun s hs => AfterOr.lift (after_createScope_records hs .accessor none)) fun inner => ?_
    refine LogsOr.bind_first (LogsOr.lift ((enters_addField ..).inScope named inner))
      fun _ => ?_
    refine LogsOr.bind_last (entersFrom_observed _ (fun _ _ h => h)
      (entersOrIn_resolveAccessors options property hgetter hsetter inner)) fun _ => ?_
    exact LogsOr.lift ((enters_concludeProperty decl property).inScope named inner)
  have hrecordings : (Declaration.propertyDecl decl).recordings named own =
      Expr.optionalRecordings named decl.initializer ++ decl.accessorRecordings named := rfl
  refine afterOr_bind.mpr (afterOr_get.mpr ?_)
  rw [hdata, hrecordings]
  dsimp only
  cases decl.initializer with
  | none => exact AfterOr.imp (haccessors s) fun _ _ h => h hs
  | some initializer =>
      have hinitializer : EntersIn named scope _ _ :=
        entersIn_resolveInitializer scope property data.setter initializer
      have hall := LogsOr.bind (LogsOr.lift hinitializer) fun _ => haccessors
      exact AfterOr.imp (hall s) fun _ _ h => h hs

/-! ### Secondary constructors -/

/-- The delegation list and the body of a secondary constructor. -/
theorem entersOrWithin_resolveConstructorParts
    (options : AnalysisOptions) (scope classId : Nat) (decl : ConstructorDecl) :
    EntersOrWithin named own scope classId ((Declaration.constructorDecl decl).recordings named own)
      (resolveConstructorParts options scope classId decl) := by
  refine LogsOr.bind ?_ fun _ => ?_
  · exact LogsOr.forM _ fun specifier _ =>
      LogsOr.lift (entersWithin_resolveConstructorInitializer scope classId specifier)
  · cases hdecl : decl.body with
    | none => exact LogsOr.pure _
    | some body =>
        refine LogsOr.bind_last (LogsOr.lift ((entersIn_infer named scope body).within classId))
          fun _ => ?_
        exact ((entersOr_reportUnreachable _ _ _ _).inScope named scope).within classId

/-- A secondary constructor of a class, in scopes of its own. -/
theorem afterOr_resolveConstructorBody_records
    (options : AnalysisOptions) (properties : Nat → List Nat) {scope : Nat} {s : Session}
    (hs : s.model.Offers scope named) (decl : ConstructorDecl) {constructor classId : Nat}
    (hcontainer : (s.descriptors.get constructor).container = some classId)
    (hown : s.descriptors.constructorsOf classId = own) :
    AfterOr (resolveConstructorBody options properties scope decl constructor) s
      (fun _ => Session.Records ((Declaration.constructorDecl decl).recordings named own) s)
      fun _ _ => True := by
  have hfields : ∀ (scope' : Nat) (t : DescriptorTable), Enters [] (onScopes fun scopes =>
      (properties classId).foldl (fun s p => s.addField scope' (t.name p) p) scopes) := by
    intro scope' t
    have hbind : ∀ (ps : List Nat) (m : Model) {scope : Nat} {named : String → List Nat},
        m.Offers scope named → { m with
          scopes := ps.foldl (fun s p => s.addField scope' (t.name p) p) m.scopes }.Offers
            scope named := by
      intro ps
      induction ps with
      | nil => exact fun m {_ _} h => h
      | cons p rest ih =>
          intro m scope named h
          have hp : { m with scopes := m.scopes.addField scope' (t.name p) p }.Offers scope named :=
            h.bind scope' (fun _ => rfl) (fun _ => rfl) fun _ => rfl
          exact ih _ hp
    exact ⟨fun s => .of_scopes fun {_ _} h => hbind (properties classId) s.model h⟩
  have hparts : ∀ inner, EntersOrWithin named own inner classId
      ((Declaration.constructorDecl decl).recordings named own) (do
        let violations ← observed (.guard []) (resolveConstructorParts options inner classId decl)
        violations.forM fun node =>
          reportCode .backingFieldMisuse node "This property does not have a backing field") := by
    intro inner
    refine LogsOr.bind_last (entersFrom_observed _ (fun _ _ h => h)
      (entersOrWithin_resolveConstructorParts options inner classId decl)) fun violations => ?_
    exact LogsOr.forM_none _ fun node _ =>
      LogsOr.lift (((enters_report _).inScope named inner).within classId)
  have hall : EntersOrWithin named own scope classId
      ((Declaration.constructorDecl decl).recordings named own) (do
        let fieldScope ← createScope .constructor (some scope) none
        let t := (← get).descriptors
        onScopes fun scopes =>
          (properties classId).foldl (fun s p => s.addField fieldScope (t.name p) p) scopes
        let inner ← functionInnerScope fieldScope constructor
        let violations ← observed (.guard []) (resolveConstructorParts options inner classId decl)
        violations.forM fun node =>
          reportCode .backingFieldMisuse node "This property does not have a backing field") := by
    refine LogsOr.bind_from (q := fun inner s => s.model.Offers inner named ∧
        s.descriptors.constructorsOf classId = own) (fun s hs => ?_) fun fieldScope => ?_
    · refine AfterOr.lift (After.mono (after_createScope_records hs.1 .constructor none) ?_)
      exact fun inner s₁ h₁ => ⟨h₁.1, h₁.2, (h₁.1.signatures.constructorsOf_eq classId).trans hs.2⟩
    refine LogsOr.get_bind fun s₀ => ?_
    refine LogsOr.bind_first (LogsOr.lift (((hfields ..).inScope named fieldScope).within classId))
      fun _ => ?_
    refine LogsOr.bind_from (q := fun inner s => s.model.Offers inner named ∧
        s.descriptors.constructorsOf classId = own) (fun s hs => ?_) hparts
    refine AfterOr.imp (afterOr_functionInnerScope_records hs.1 constructor) ?_
    exact fun inner s₁ h₁ => ⟨h₁.1, h₁.2, (h₁.1.signatures.constructorsOf_eq classId).trans hs.2⟩
  refine afterOr_bind.mpr (afterOr_get.mpr ?_)
  rw [hcontainer]
  exact AfterOr.imp (hall s) fun _ _ h => h ⟨hs, hown⟩

end Analysis

end DeclAnalysis
