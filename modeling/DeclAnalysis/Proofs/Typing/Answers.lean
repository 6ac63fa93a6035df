import DeclAnalysis.Proofs.Session.Answers
import DeclAnalysis.Proofs.Typing.Follows

/-!
# How typing answers references to backing fields

Typing an expression makes the references to backing fields that stand in it where it is typed, in
their order. Nothing else that typing does concerns backing fields.
-/

namespace DeclAnalysis

namespace Analysis

open ScopeTree (View)

variable {v : View} {nodes : List Nat}

/-! ### Names -/

theorem answers_unresolved {node : Nat} (hnode : node ∈ nodes) (name : String) :
    Answers v nodes [] (unresolved node name) :=
  Keeps.bind (answers_reportUnresolved hnode _) fun _ => Keeps.pure _

theorem answers_referToIdentifier (node : Nat) (name : String) (value : Nat) :
    Answers v nodes [] (referToValue node .identifier name value) :=
  Keeps.bind (answers_recordIdentifier node value) fun _ => Keeps.get_bind fun _ => Keeps.pure _

theorem answers_referToNamespace (node ns : Nat) :
    Answers v nodes [] (referToNamespace node ns) :=
  Keeps.bind (answers_recordIdentifier node ns) fun _ => Keeps.get_bind fun _ => Keeps.pure _

/-- The name of a backing field is looked up as such. -/
theorem answersIn_inferName
    {scope node : Nat} {text : String} (hnodes : (Expr.name node text).plainNodes ⊆ nodes) :
    AnswersIn v nodes scope (Expr.name node text).fieldAccesses (inferName scope node text) := by
  refine ⟨fun s hs => ?_⟩
  change After (inferName scope node text) s fun _ => Session.Answers v nodes _ s
  unfold inferName
  simp only [after_bind, after_get]
  cases hfield : fieldName? text with
  | some property =>
      have haccesses : (Expr.name node text).fieldAccesses = [⟨node, property⟩] := by
        simp [Expr.fieldAccesses, hfield]
      obtain rfl := eq_append_of_fieldName? hfield
      dsimp only
      rw [haccesses, v.field?_eq hs property]
      cases hknown : v.known property with
      | some p => exact Session.Answers.of_known (a := ⟨node, property⟩) hknown
      | none => exact Session.Answers.of_missing (a := ⟨node, property⟩) hknown
  | none =>
      have haccesses : (Expr.name node text).fieldAccesses = [] := by
        simp [Expr.fieldAccesses, hfield]
      have hmem : node ∈ nodes := hnodes (by simp [Expr.plainNodes, hfield])
      dsimp only
      rw [haccesses]
      split
      · exact (answers_referToIdentifier ..).after s
      · exact (answers_referToNamespace ..).after s
      · exact (answers_unresolved hmem _).after s

theorem answers_inferMember {node : Nat} (hnode : node ∈ nodes) (receiver : Ty) (name : String) :
    Answers v nodes [] (inferMember node receiver name) := by
  unfold inferMember
  split
  · exact Keeps.pure _
  · refine Keeps.get_bind fun s => ?_
    split
    · exact Keeps.bind (answers_reportCode (by decide) ..) fun _ => Keeps.pure _
    · split
      · exact answers_referToIdentifier ..
      · exact answers_referToNamespace ..
      · exact answers_unresolved hnode _

/-! ### Operators, assignments and calls -/

theorem answers_expectKnownType (node : Nat) (expected actual : Option Ty) :
    Answers v nodes [] (expectKnownType node expected actual) := by
  unfold expectKnownType
  split
  · refine Keeps.get_bind fun s => ?_
    split
    · exact answers_reportMismatch ..
    · exact Keeps.pure _
  · exact Keeps.pure _

theorem answers_inferOperator (node : Nat) (operator : BinaryOperator) (left right : Ty) :
    Answers v nodes [] (inferOperator node operator left right) := by
  unfold inferOperator
  split
  · exact Keeps.pure _
  · split
    · exact Keeps.pure _
    · split
      · exact Keeps.pure _
      · exact Keeps.bind (answers_reportCode (by decide) ..) fun _ => Keeps.pure _

theorem answers_checkReassignment (target : Expr) :
    Answers v nodes [] (checkReassignment target) := by
  refine Keeps.get_bind fun s => ?_
  split
  · exact Keeps.pure _
  · split
    · exact answers_reportCode (by decide) ..
    · exact Keeps.pure _

theorem answers_selectCandidate? (candidates : List Nat) (arguments : List (Option Ty)) :
    Answers v nodes [] (selectCandidate? candidates arguments) :=
  Keeps.get_bind fun _ => Keeps.pure _

theorem answers_callFunction
    (node : Nat) (name : String) (functions : List Nat) (arguments : List (Option Ty)) :
    Answers v nodes [] (callFunction node name functions arguments) := by
  refine Keeps.bind (answers_selectCandidate? ..) fun selected => ?_
  cases selected with
  | some function =>
      exact Keeps.bind (answers_recordIdentifier ..) fun _ => Keeps.get_bind fun _ => Keeps.pure _
  | none => exact Keeps.bind (answers_reportCode (by decide) ..) fun _ => Keeps.pure _

theorem answers_matchConstructor
    (node classId : Nat) (classType : Ty) (arguments : List (Option Ty)) :
    Answers v nodes [] (matchConstructor node classId classType arguments) := by
  rw [matchConstructor_eq]
  refine Keeps.get_bind fun s => ?_
  dsimp only
  split
  · exact Keeps.pure _
  · refine Keeps.bind (answers_selectCandidate? ..) fun selected => ?_
    cases selected with
    | some constructor => exact answers_recordIdentifier ..
    | none => exact answers_reportCode (by decide) ..

theorem answers_inferCall
    {node : Nat} (hnode : node ∈ nodes) (scope : Nat) (callee : String)
    (arguments : List (Option Ty)) :
    Answers v nodes [] (inferCall scope node callee arguments) := by
  refine Keeps.get_bind fun s => ?_
  split
  · split
    · exact Keeps.bind (answers_matchConstructor ..) fun _ => Keeps.pure _
    · exact answers_unresolved hnode _
  · exact answers_callFunction ..

/-! ### Types and variables -/

theorem answers_resolveTypeRef {ref : TypeRef} (href : ref.id ∈ nodes) (scope : Nat) :
    Answers v nodes [] (resolveTypeRef scope ref) := by
  refine Keeps.get_bind fun s => ?_
  split
  · exact Keeps.pure _
  · have hrecord : ∀ type, Answers v nodes [] (do recordTypeReference ref.id type; return type) :=
      fun type => Keeps.bind (answers_recordTypeReference ref.id type) fun _ => Keeps.pure _
    split
    · exact hrecord _
    · exact Keeps.bind (answers_reportUnresolved href _) fun _ => hrecord _

theorem answers_declaredType
    {typeRef : Option TypeRef} (hnodes : typeRefNodes typeRef ⊆ nodes) (scope : Nat) :
    Answers v nodes [] (typeRef.mapM (resolveTypeRef scope)) := by
  refine Keeps.optionMapM _ ?_
  rintro ref ⟨⟩
  exact answers_resolveTypeRef (hnodes List.mem_cons_self) scope

theorem answers_declareLocal
    {node : Nat} (hnode : node ∈ nodes) (scope : Nat) (name : String) (mutable : Bool)
    (declared initialized : Option Ty) :
    Answers v nodes [] (declareLocal scope node name mutable declared initialized) := by
  have htype : Answers v nodes [] (localType node declared initialized) := by
    unfold localType
    split
    · exact Keeps.pure _
    · exact Keeps.bind (answers_reportCode (by decide) ..) fun _ => Keeps.pure _
  rw [declareLocal_eq]
  refine Keeps.bind htype fun type => Keeps.get_bind fun s => ?_
  refine Keeps.bind (answers_createDescriptor ..) fun local_ => ?_
  exact Keeps.bind (answers_addVariable ..) fun _ => answers_recordDeclaration hnode local_

theorem answers_recordKnownType (node : Nat) (type : Option Ty) :
    Answers v nodes [] (recordKnownType node type) := by
  cases type with
  | none => exact Keeps.pure _
  | some type => exact answers_recordExpressionType node type

/-! ### Expressions -/

mutual

/-- Typing an expression makes the references to backing fields in it. -/
theorem answersIn_infer (scope : Nat) (e : Expr) (hnodes : e.plainNodes ⊆ nodes) :
    AnswersIn v nodes scope e.fieldAccesses (infer scope e) := by
  rw [infer_eq]
  refine Logs.bind_last ?_ fun type =>
    Logs.bind_first ((answers_recordKnownType e.id type).inScope scope) fun _ => Logs.pure _
  match e with
  | .constant _ (.int _) | .constant _ (.double _) | .constant _ (.string _)
  | .constant _ (.bool _) | .breakLoop _ | .continueLoop _ | .ret _ none | .lambda .. =>
      exact Logs.pure _
  | .name node name => exact (answersIn_inferName hnodes).map some
  | .dot node receiver name =>
      obtain ⟨hnode, hnodes⟩ := List.cons_subset.mp hnodes
      refine Logs.bind_last (answersIn_infer scope receiver hnodes) fun type => ?_
      cases type with
      | none => exact Logs.pure _
      | some type => exact ((answers_inferMember hnode type name).inScope scope).map some
  | .block _ statements =>
      obtain ⟨-, hnodes⟩ := List.cons_subset.mp hnodes
      exact Logs.bind_from (fun s hs => after_createScope_answers hs .block none)
        fun block => answersIn_inferStatements block _ statements hnodes
  | .cond _ condition thenBranch none | .whileLoop _ condition thenBranch =>
      simp only [Expr.plainNodes, List.cons_subset, List.append_subset] at hnodes
      refine Logs.bind (answersIn_infer scope condition hnodes.2.1) fun type => ?_
      refine Logs.bind_first ((answers_expectKnownType ..).inScope scope) fun _ => ?_
      exact Logs.bind_last (answersIn_infer scope thenBranch hnodes.2.2) fun _ => Logs.pure _
  | .cond _ condition thenBranch (some elseBranch) =>
      simp only [Expr.plainNodes, List.cons_subset, List.append_subset] at hnodes
      refine Logs.bind (answersIn_infer scope condition hnodes.2.1) fun type => ?_
      refine Logs.bind_first ((answers_expectKnownType ..).inScope scope) fun _ => ?_
      refine Logs.bind (answersIn_infer scope thenBranch hnodes.2.2.1) fun thenType => ?_
      refine Logs.bind_last (answersIn_infer scope elseBranch hnodes.2.2.2) fun elseType => ?_
      split
      · exact Logs.get_bind fun _ => Logs.pure _
      · exact Logs.pure _
  | .doWhileLoop _ body condition =>
      simp only [Expr.plainNodes, List.cons_subset, List.append_subset] at hnodes
      refine Logs.bind (answersIn_infer scope body hnodes.2.1) fun _ => ?_
      refine Logs.bind_last (answersIn_infer scope condition hnodes.2.2) fun type => ?_
      exact Logs.bind_first ((answers_expectKnownType ..).inScope scope) fun _ => Logs.pure _
  | .ret _ (some value) =>
      obtain ⟨-, hnodes⟩ := List.cons_subset.mp hnodes
      exact Logs.bind_last (answersIn_infer scope value hnodes) fun _ => Logs.pure _
  | .binary node operator left right =>
      simp only [Expr.plainNodes, List.cons_subset, List.append_subset] at hnodes
      refine Logs.bind (answersIn_infer scope left hnodes.2.1) fun leftType => ?_
      refine Logs.bind_last (answersIn_infer scope right hnodes.2.2) fun rightType => ?_
      split
      · exact ((answers_inferOperator ..).inScope scope).map some
      · exact Logs.pure _
  | .assign _ target value =>
      simp only [Expr.plainNodes, List.cons_subset, List.append_subset] at hnodes
      have htarget : AnswersIn v nodes scope
          (if isAssignable target then target.fieldAccesses else [])
          (inferTarget scope target) := by
        unfold inferTarget
        split
        · rename_i hassignable
          rw [if_pos hassignable] at hnodes
          exact answersIn_infer scope target hnodes.2.1
        · exact Logs.bind_first ((answers_reportCode (by decide) ..).inScope scope)
            fun _ => Logs.pure _
      refine Logs.bind htarget fun targetType => ?_
      refine Logs.bind_first ((answers_checkReassignment target).inScope scope) fun _ => ?_
      refine Logs.bind_last (answersIn_infer scope value hnodes.2.2) fun type => ?_
      exact Logs.bind_first ((answers_expectKnownType ..).inScope scope) fun _ => Logs.pure _
  | .call node callee arguments =>
      obtain ⟨hnode, hnodes⟩ := List.cons_subset.mp hnodes
      refine Logs.bind_last (answersIn_inferArguments scope arguments hnodes) fun types => ?_
      exact ((answers_inferCall hnode scope callee types).inScope scope).map some
  | .localVariable node name mutable typeRef none =>
      obtain ⟨hnode, hnodes⟩ := List.cons_subset.mp hnodes
      refine Logs.bind_first ((answers_declaredType hnodes scope).inScope scope) fun declared => ?_
      exact Logs.bind_first ((answers_declareLocal hnode ..).inScope scope) fun _ => Logs.pure _
  | .localVariable node name mutable typeRef (some initializer) =>
      simp only [Expr.plainNodes, List.cons_subset, List.append_subset] at hnodes
      refine Logs.bind_first ((answers_declaredType hnodes.2.1 scope).inScope scope)
        fun declared => ?_
      refine Logs.bind_last (answersIn_infer scope initializer hnodes.2.2) fun initialized => ?_
      refine Logs.bind_first ((answers_expectKnownType ..).inScope scope) fun _ => ?_
      exact Logs.bind_first ((answers_declareLocal hnodes.1 ..).inScope scope)
        fun _ => Logs.pure _

theorem answersIn_inferStatements
    (scope : Nat) (last : Option Ty) (es : List Expr) (hnodes : Expr.plainNodesOf es ⊆ nodes) :
    AnswersIn v nodes scope (Expr.fieldAccessesOf es) (inferStatements scope last es) := by
  match es with
  | [] => exact Logs.pure _
  | e :: rest =>
      obtain ⟨hnode, hnodes⟩ := List.append_subset.mp hnodes
      refine Logs.bind (answersIn_infer scope e hnode) fun type => ?_
      exact answersIn_inferStatements scope type rest hnodes

theorem answersIn_inferArguments
    (scope : Nat) (es : List Expr) (hnodes : Expr.plainNodesOf es ⊆ nodes) :
    AnswersIn v nodes scope (Expr.fieldAccessesOf es) (inferArguments scope es) := by
  match es with
  | [] => exact Logs.pure _
  | e :: rest =>
      obtain ⟨hnode, hnodes⟩ := List.append_subset.mp hnodes
      refine Logs.bind (answersIn_infer scope e hnode) fun type => ?_
      exact Logs.bind_last (answersIn_inferArguments scope rest hnodes) fun _ => Logs.pure _

end

end Analysis

end DeclAnalysis
