import DeclAnalysis.Proofs.Resolve.Body
import DeclAnalysis.Proofs.Typing.Answers
import DeclAnalysis.Proofs.Typing.Infer

/-!
# How bodies answer references to backing fields

Delegation lists, functions, accessors and constructors make the references to backing fields that
stand in them where they are typed. Whether control flow reaches a reference does not matter.
-/

namespace DeclAnalysis

namespace Analysis

open ScopeTree (View)

variable {v : View} {nodes : List Nat}

/-! ### Constructor calls -/

theorem answersIn_checkClassConstructorCall
    {arguments : List Expr} (hnodes : Expr.plainNodesOf arguments ⊆ nodes) (scope classId : Nat)
    (classType : Ty) (node : Nat) :
    AnswersIn v nodes scope (Expr.fieldAccessesOf arguments)
      (checkClassConstructorCall scope classId classType node arguments) := by
  apply Logs.bind_last (answersIn_inferArguments scope arguments hnodes)
  intro types
  exact (answers_matchConstructor node classId classType types).inScope scope

theorem answersIn_checkConstructorCall
    {ref : TypeRef} (href : ref.id ∈ nodes) {arguments : List Expr}
    (hnodes : Expr.plainNodesOf arguments ⊆ nodes) (scope node : Nat) :
    AnswersIn v nodes scope (Expr.fieldAccessesOf arguments)
      (checkConstructorCall scope ref node arguments) := by
  apply Logs.bind_first ((answers_resolveTypeRef href scope).inScope scope)
  intro type
  split
  · exact answersIn_checkClassConstructorCall hnodes ..
  · apply Logs.bind_last (answersIn_inferArguments scope arguments hnodes)
    intro _
    split
    · exact (answers_reportCode (by decide) ..).inScope scope
    · exact Logs.pure _

/-! ### Delegation lists -/

theorem answersOrIn_resolveDelegation
    {specifier : DelegationSpecifier} (hnodes : specifier.plainNodes ⊆ nodes) (members : Nat)
    (hasPrimary : Bool) :
    AnswersOrIn v nodes members specifier.classAccesses
      (resolveDelegation members hasPrimary specifier) := by
  obtain ⟨href, hexpressions⟩ := List.append_subset.mp hnodes
  match specifier with
  | .byExpression _ ref (some delegate) =>
      have hdelegate : delegate.plainNodes ⊆ nodes := (List.append_subset.mp hexpressions).1
      have hmem : ref.id ∈ nodes := href List.mem_cons_self
      apply LogsOr.bind_last (LogsOr.lift (answersIn_infer members delegate hdelegate))
      intro type
      cases type with
      | none => exact LogsOr.pure _
      | some actual =>
          apply LogsOr.bind_first
            (LogsOr.lift ((answers_resolveTypeRef hmem members).inScope members))
          intro supertype
          apply LogsOr.get_bind
          intro s
          split
          · exact LogsOr.lift ((answers_reportMismatch ..).inScope members)
          · exact LogsOr.pure _
  | .superCall _ (some ref) arguments =>
      have hmem : ref.id ∈ nodes := href List.mem_cons_self
      exact LogsOr.lift (answersIn_checkConstructorCall hmem hexpressions members _)
  | .superClass id _ =>
      cases hasPrimary with
      | true => exact LogsOr.lift ((answers_reportCode (by decide) ..).inScope members)
      | false => exact LogsOr.pure _
  | .thisCall id _ => exact LogsOr.throw _
  | .byExpression _ _ none | .superCall _ none _ => exact LogsOr.pure _

/-- An entry of the delegation list of a secondary constructor. -/
theorem answersIn_resolveConstructorInitializer
    {specifier : DelegationSpecifier} (hnodes : specifier.plainNodes ⊆ nodes)
    (scope classId : Nat) :
    AnswersIn v nodes scope specifier.constructorAccesses
      (resolveConstructorInitializer scope classId specifier) := by
  obtain ⟨href, hexpressions⟩ := List.append_subset.mp hnodes
  match specifier with
  | .superCall _ (some ref) arguments =>
      have hmem : ref.id ∈ nodes := href List.mem_cons_self
      exact answersIn_checkConstructorCall hmem hexpressions scope _
  | .superCall _ none _ => exact Logs.pure _
  | .thisCall id arguments =>
      apply Logs.get_bind
      intro s
      exact answersIn_checkClassConstructorCall hexpressions ..
  | .byExpression id _ _ => exact (answers_reportCode (by decide) ..).inScope scope
  | .superClass id _ => exact (answers_reportCode (by decide) ..).inScope scope

/-! ### Bodies -/

theorem answersOr_reportUnreachable
    (options : AnalysisOptions) (flow : FlowInformation) (node : Nat) (body : Expr) :
    AnswersOr v nodes [] (reportUnreachable options flow node body) := by
  unfold reportUnreachable
  split
  · exact LogsOr.throw _
  · split
    · apply LogsOr.forM_none
      intro element _
      exact LogsOr.lift (answers_reportCode (by decide) ..)
    · exact LogsOr.pure _

theorem answersOr_returnPoints (flow : FlowInformation) (node : Nat) :
    AnswersOr v nodes [] (returnPoints flow node) := by
  unfold returnPoints
  split
  · apply LogsOr.bind_first
    · apply LogsOr.forM_none
      intro element _
      exact LogsOr.lift (answers_reportCode (by decide) ..)
    · exact fun _ => LogsOr.pure _
  · exact LogsOr.throw _

/-- Checking the return points of a body makes no references. -/
theorem answersOr_checkReturnPoints (expected : Ty) (points : ReturnedInformation) :
    AnswersOr v nodes [] (checkReturnPoints expected points) := by
  apply LogsOr.bind_first
  · apply LogsOr.forM_none
    intro element _
    exact LogsOr.get_bind fun _ => LogsOr.lift (answers_expectKnownType ..)
  · intro _
    apply LogsOr.get_bind
    intro s
    split
    · apply LogsOr.forM_none
      intro element _
      exact LogsOr.lift (answers_reportMismatch ..)
    · exact LogsOr.pure _

theorem answersOrIn_checkReturnType
    (flow : FlowInformation) (scope node : Nat) {body : Expr} (hnodes : body.plainNodes ⊆ nodes)
    (function : Nat) :
    AnswersOrIn v nodes scope body.fieldAccesses
      (checkReturnType flow scope node (some body) function) := by
  apply LogsOr.get_bind
  intro s
  split
  · exact LogsOr.throw _
  · rename_i expected _
    apply LogsOr.bind_last (LogsOr.lift (answersIn_infer scope body hnodes))
    intro _
    apply LogsOr.bind_first ((answersOr_returnPoints flow node).inScope scope)
    intro points
    exact (answersOr_checkReturnPoints expected points).inScope scope

theorem answersOrIn_inferReturnType
    (flow : FlowInformation) (scope node : Nat) {body : Expr}
    (hnodes : body.plainNodes ⊆ nodes) :
    AnswersOrIn v nodes scope body.fieldAccesses
      (inferReturnType flow scope node (some body)) := by
  apply LogsOr.bind_last (LogsOr.lift (answersIn_infer scope body hnodes))
  intro _
  apply LogsOr.bind_first ((answersOr_returnPoints flow node).inScope scope)
  exact fun points => LogsOr.get_bind fun _ => LogsOr.pure _

theorem answersOr_setReturnType (function : Nat) (type : Ty) :
    AnswersOr v nodes [] (setReturnType function type) :=
  answersOr_tryDescriptors _

/-- The body of a function or accessor makes the references that stand in it. -/
theorem answersOrIn_resolveFunctionBody
    (options : AnalysisOptions) (node : Nat) {body : Option Expr}
    (hnodes : Expr.optionalPlainNodes body ⊆ nodes) (function scope : Nat) :
    AnswersOrIn v nodes scope (Expr.optionalAccesses body)
      (resolveFunctionBody options node body function scope) := by
  apply LogsOr.get_bind
  intro s
  cases body with
  | none =>
      dsimp only
      split
      · apply LogsOr.bind_first (LogsOr.lift ((answers_reportCode (by decide) ..).inScope scope))
        exact fun _ => (answersOr_setReturnType _ _).inScope scope
      · exact LogsOr.pure _
  | some body =>
      have hunreachable : ∀ inner, AnswersOrIn v nodes inner []
          (reportUnreachable options (.data (.ofBody node body)) node body) := fun inner =>
        (answersOr_reportUnreachable _ _ _ _).inScope inner
      apply LogsOr.bind_from fun s hs => afterOr_functionInnerScope_answers hs function
      intro inner
      dsimp only
      split
      · exact LogsOr.bind_last (answersOrIn_checkReturnType _ inner node hnodes function)
          fun _ => hunreachable inner
      · apply LogsOr.bind_last (answersOrIn_inferReturnType _ inner node hnodes)
        intro inferred
        exact LogsOr.bind_first ((answersOr_setReturnType _ _).inScope inner)
          fun _ => hunreachable inner

/-! ### Properties -/

theorem answersIn_resolveInitializer
    {initializer : Expr} (hnodes : initializer.plainNodes ⊆ nodes) (scope property : Nat)
    (setter : Option Nat) :
    AnswersIn v nodes scope initializer.fieldAccesses
      (resolveInitializer scope property setter initializer) := by
  apply Logs.bind_last (answersIn_infer scope initializer hnodes)
  intro inferred
  apply Logs.get_bind
  intro s
  apply Logs.bind_first ((answers_expectKnownType ..).inScope scope)
  intro _
  cases inferred with
  | none => exact Logs.pure _
  | some actual => exact (answers_onDescriptors _).inScope scope

/-- Both accessors make their references, the getter first. -/
theorem answersOrIn_resolveAccessors
    (options : AnalysisOptions) {decl : PropertyDecl}
    (hnodes : ((decl.getter.toList ++ decl.setter.toList).flatMap fun a =>
      Expr.optionalPlainNodes a.body) ⊆ nodes)
    (property : Nat) {data : PropertyData}
    (hgetter : data.getter.isSome = decl.getter.isSome)
    (hsetter : data.setter.isSome = decl.setter.isSome) (scope : Nat) :
    AnswersOrIn v nodes scope decl.accessorAccesses
      (resolveAccessors options decl property data scope) := by
  have hbody : ∀ a ∈ decl.getter.toList ++ decl.setter.toList,
      Expr.optionalPlainNodes a.body ⊆ nodes := fun a ha node hnode =>
    hnodes (List.mem_flatMap.mpr ⟨a, ha, hnode⟩)
  have hset : AnswersOrIn v nodes scope (decl.setter.toList.flatMap Accessor.fieldAccesses)
      (resolveSetterBody options decl data scope) := by
    unfold resolveSetterBody
    cases hdecl : decl.setter with
    | none => exact LogsOr.pure _
    | some accessor =>
        rw [hdecl] at hsetter
        obtain ⟨setter, hdata⟩ := Option.isSome_iff_exists.mp hsetter
        have hmem : accessor ∈ decl.getter.toList ++ decl.setter.toList := by
          simp [hdecl]
        have hresolve := answersOrIn_resolveFunctionBody (v := v) options accessor.id
          (hbody accessor hmem) setter scope
        rw [hdata, Option.toList_some, List.flatMap_singleton]
        exact hresolve
  unfold resolveAccessors PropertyDecl.accessorAccesses
  cases hdecl : decl.getter with
  | none => exact hset
  | some accessor =>
      rw [hdecl] at hgetter
      obtain ⟨getter, hdata⟩ := Option.isSome_iff_exists.mp hgetter
      have hmem : accessor ∈ decl.getter.toList ++ decl.setter.toList := by
        simp [hdecl]
      rw [hdata, Option.toList_some, List.flatMap_singleton]
      apply LogsOr.bind (answersOrIn_resolveFunctionBody options accessor.id
        (hbody accessor hmem) getter scope)
      intro _
      apply LogsOr.get_bind
      intro s
      split
      · exact LogsOr.bind_first (LogsOr.lift ((answers_onDescriptors _).inScope scope))
          fun _ => hset
      · exact hset

/-! ### Secondary constructors -/

/-- The delegation list and the body of a secondary constructor make their references. -/
theorem answersOrIn_resolveConstructorParts
    (options : AnalysisOptions) {decl : ConstructorDecl}
    (hinitializers : decl.initializers.flatMap DelegationSpecifier.plainNodes ⊆ nodes)
    (hbody : Expr.optionalPlainNodes decl.body ⊆ nodes) (scope classId : Nat) :
    AnswersOrIn v nodes scope decl.fieldAccesses
      (resolveConstructorParts options scope classId decl) := by
  apply LogsOr.bind
  · apply LogsOr.forM
    intro specifier hmem
    apply LogsOr.lift
    apply answersIn_resolveConstructorInitializer
    exact fun node hnode => hinitializers (List.mem_flatMap.mpr ⟨specifier, hmem, hnode⟩)
  · intro _
    cases hdecl : decl.body with
    | none => exact LogsOr.pure _
    | some body =>
        rw [hdecl] at hbody
        apply LogsOr.bind_last (LogsOr.lift (answersIn_infer scope body hbody))
        exact fun _ => (answersOr_reportUnreachable _ _ _ _).inScope scope

end Analysis

end DeclAnalysis
