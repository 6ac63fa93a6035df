import DeclAnalysis.Proofs.Semantic.Lookup
import DeclAnalysis.Proofs.Session.Honest
import DeclAnalysis.Proofs.Typing.Follows

/-!
# Honest types of expressions

Whatever typing does not report has an honest type: the error types of names and calls that
refer to something too early are all that it leaves unsaid.
-/

namespace DeclAnalysis

namespace Analysis

open Session (Follows Reported)

variable {p : Prop}

theorem isError_operatorType?
    {operator : BinaryOperator} {left right type : Ty}
    (h : operatorType? operator left right = some type) :
    type.isError = false := by
  rcases operatorType?_cases h with rfl | rfl | rfl | rfl <;> rfl

/-! ## Types and names -/

theorem honestly_known {type : Ty} (h : type.isError = false) :
    Honestly p (pure (some type)) HonestType :=
  .pure fun _ => honestType_some (Ty.honest_of_isError_eq_false h)

theorem honestly_resolveTypeRef (scope : Nat) (ref : TypeRef) :
    Honestly p (resolveTypeRef scope ref) fun type => type.isError = false := by
  refine .get_bind fun s => ?_
  split
  · rename_i type htype
    exact .pure fun h => h.2.typeReferences htype
  · have hrecord : ∀ type : Ty, Honestly ((p ∧ s.Honest) ∧ type.isError = false) (do
        recordTypeReference ref.id type
        return type) fun type => type.isError = false := fun type =>
      (honestly_recordTypeReference ref.id And.right).bind fun _ => .pure fun h => h.1.2
    dsimp only
    split
    · rename_i type htype
      have hknown := Model.isError_of_lookupType? htype
      exact (hrecord type).of_imp fun h => ⟨h, hknown⟩
    · refine (honestly_reportCode _ _ _ fun _ => False).bind fun _ => ?_
      exact (hrecord _).of_imp fun h => h.2.elim

/-- What is resolved by name is honest. -/
theorem honestly_declaredType (scope : Nat) (typeRef : Option TypeRef) :
    Honestly p (typeRef.mapM (resolveTypeRef scope)) HonestType := by
  cases typeRef with
  | none => exact .pure fun _ => honestType_none
  | some ref =>
      exact .map ((honestly_resolveTypeRef scope ref).mono fun type h =>
        honestType_some (Ty.honest_of_isError_eq_false h))

theorem honestly_unresolved (node : Nat) (name : String) (q : Ty → Prop) :
    Honestly p (unresolved node name) q :=
  (honestly_reportCode _ _ _ fun _ => False).bind fun _ => .pure fun h => h.2.elim

theorem honestly_referToValue (node : Nat) (kind : ReferenceKind) (name : String) (value : Nat) :
    Honestly p (referToValue node kind name value) Ty.Honest := by
  refine (honestly_recordReference node kind value).bind fun _ => .get_bind fun s => ?_
  refine .pure fun h => ?_
  cases htype : s.descriptors.valueType? value with
  | none => exact (Ty.IsOpen.value name).honest
  | some type => exact h.2.descriptors.valueType? value type htype

theorem honestly_referToNamespace (node ns : Nat) :
    Honestly p (referToNamespace node ns) Ty.Honest :=
  (honestly_recordReference node .identifier ns).bind fun _ => .get_bind fun _ =>
    .pure fun _ => Ty.honest_of_isError_eq_false rfl

theorem honestly_inferName (scope node : Nat) (name : String) :
    Honestly p (inferName scope node name) Ty.Honest := by
  refine .get_bind fun s => ?_
  dsimp only
  split
  · split
    · exact honestly_referToValue ..
    · exact honestly_unresolved ..
  · split
    · exact honestly_referToValue ..
    · exact honestly_referToNamespace ..
    · exact honestly_unresolved ..

theorem honestly_inferMember (node : Nat) {receiver : Ty} (name : String) :
    Honestly (p ∧ receiver.Honest) (inferMember node receiver name) Ty.Honest := by
  unfold inferMember
  split
  · exact .pure And.right
  · refine .get_bind fun s => ?_
    split
    · exact (honestly_reportCode _ _ _ fun _ => False).bind fun _ => .pure fun h => h.2.elim
    · split
      · exact honestly_referToValue ..
      · exact honestly_referToNamespace ..
      · exact honestly_unresolved ..

/-! ## Operators, assignments and calls -/

theorem honestly_expectType (node : Nat) (expected actual : Ty) :
    Honestly p (expectType node expected actual) fun _ => True := by
  refine .get_bind fun s => ?_
  split
  · exact honestly_report ..
  · exact .pure fun _ => trivial

theorem honestly_expectKnownType (node : Nat) (expected actual : Option Ty) :
    Honestly p (expectKnownType node expected actual) fun _ => True := by
  unfold expectKnownType
  split
  · exact honestly_expectType ..
  · exact .pure fun _ => trivial

theorem honestly_inferOperator (node : Nat) (operator : BinaryOperator) {left right : Ty} :
    Honestly (p ∧ left.Honest ∧ right.Honest) (inferOperator node operator left right)
      Ty.Honest := by
  unfold inferOperator
  split
  · exact .pure fun h => h.2.1
  · split
    · exact .pure fun h => h.2.2
    · split
      · rename_i type htype
        exact .pure fun _ => Ty.honest_of_isError_eq_false (isError_operatorType? htype)
      · exact (honestly_reportCode _ _ _ fun _ => False).bind fun _ => .pure fun h => h.2.elim

theorem honestly_checkReassignment (target : Expr) :
    Honestly p (checkReassignment target) fun _ => True := by
  refine .get_bind fun s => ?_
  split
  · exact .pure fun _ => trivial
  · split
    · exact honestly_reportCode ..
    · exact .pure fun _ => trivial

theorem honestly_selectCandidate? (candidates : List Nat) (arguments : List (Option Ty)) :
    Honestly p (selectCandidate? candidates arguments) fun _ => True :=
  .get_bind fun _ => .pure fun _ => trivial

theorem honestly_callFunction
    (node : Nat) (name : String) (functions : List Nat) (arguments : List (Option Ty)) :
    Honestly p (callFunction node name functions arguments) Ty.Honest := by
  refine (honestly_selectCandidate? functions arguments).bind fun selected => ?_
  cases selected with
  | some function =>
      refine (honestly_recordReference node _ function).bind fun _ => .get_bind fun s => ?_
      refine .pure fun h => ?_
      cases htype : s.descriptors.returnType? function with
      | none => exact (Ty.IsOpen.call name).honest
      | some type => exact h.2.descriptors.returnType? function type htype
  | none => exact (honestly_reportCode _ _ _ fun _ => False).bind fun _ => .pure fun h => h.2.elim

theorem honestly_matchConstructor
    (node classId : Nat) (classType : Ty) (arguments : List (Option Ty)) :
    Honestly p (matchConstructor node classId classType arguments) fun _ => True := by
  rw [matchConstructor_eq]
  refine .get_bind fun s => ?_
  dsimp only
  split
  · exact .pure fun _ => trivial
  · refine (honestly_selectCandidate? ..).bind fun selected => ?_
    cases selected with
    | some constructor => exact honestly_recordReference ..
    | none => exact honestly_reportCode ..

theorem honestly_inferCall
    (scope node : Nat) (callee : String) (arguments : List (Option Ty)) :
    Honestly p (inferCall scope node callee arguments) Ty.Honest := by
  refine .get_bind fun s => ?_
  split
  · split
    · exact (honestly_matchConstructor ..).bind fun _ =>
        .pure fun _ => Ty.honest_of_isError_eq_false rfl
    · exact honestly_unresolved ..
  · exact honestly_callFunction ..

/-! ## Local variables -/

theorem honestly_localType (node : Nat) (declared initialized : Option Ty) :
    Honestly (p ∧ HonestType declared ∧ HonestType initialized)
      (localType node declared initialized) Ty.Honest := by
  unfold localType
  split
  · rename_i type htype
    exact .pure fun h => h.2.1.orElse h.2.2 type htype
  · exact (honestly_reportCode _ _ _ fun _ => False).bind fun _ => .pure fun h => h.2.elim

theorem honestly_declareLocal
    (scope node : Nat) (name : String) (mutable : Bool) (declared initialized : Option Ty) :
    Honestly (p ∧ HonestType declared ∧ HonestType initialized)
      (declareLocal scope node name mutable declared initialized) fun _ => True := by
  rw [declareLocal_eq]
  refine (honestly_localType node declared initialized).bind fun type => .get_bind fun s => ?_
  refine (honestly_createDescriptor _ _ fun h => DescriptorKind.honest_variableKind
    (honestType_some h.1.2)).bind fun v => ?_
  exact (honestly_onScopes _).bind fun _ => honestly_recordDeclaration ..

/-! ## Expressions -/

theorem honestly_recordKnownType (node : Nat) {type : Option Ty} :
    Honestly (p ∧ HonestType type) (recordKnownType node type) fun _ => True := by
  cases type with
  | none => exact .pure fun _ => trivial
  | some type => exact honestly_recordExpressionType node fun h => h.2 type rfl

mutual

/-- The type of an expression is honest, unless something is reported. -/
theorem honestly_infer {p : Prop} (scope : Nat) (e : Expr) :
    Honestly p (infer scope e) HonestType := by
  rw [infer_eq]
  refine Honestly.bind (q := HonestType) ?_ fun type =>
    (honestly_recordKnownType e.id).bind fun _ => .pure fun h => h.1.2
  match e with
  | .constant _ (.int _) | .constant _ (.double _) | .constant _ (.string _)
  | .constant _ (.bool _) | .breakLoop _ | .continueLoop _ | .ret _ none =>
      exact honestly_known rfl
  | .lambda .. => exact .pure fun _ => honestType_none
  | .name node name => exact .map ((honestly_inferName scope node name).mono fun _ => honestType_some)
  | .dot node receiver name =>
      refine (honestly_infer scope receiver).bind fun type => ?_
      cases type with
      | none => exact .pure fun _ => honestType_none
      | some type =>
          have hmember : Honestly (p ∧ type.Honest) (inferMember node type name) Ty.Honest :=
            honestly_inferMember node name
          exact .map ((hmember.of_imp fun h => ⟨h.1, h.2 type rfl⟩).mono fun _ => honestType_some)
  | .block _ statements =>
      refine (honestly_createScope ..).bind fun block => ?_
      refine (honestly_inferStatements block (some .unit) statements).of_imp fun h => ⟨h.1, ?_⟩
      exact honestType_some (Ty.honest_of_isError_eq_false rfl)
  | .cond _ condition thenBranch none =>
      refine (honestly_infer scope condition).bind fun type => ?_
      refine (honestly_expectKnownType ..).bind fun _ => ?_
      exact (honestly_infer scope thenBranch).bind fun _ =>
        honestly_known rfl
  | .cond _ condition thenBranch (some elseBranch) =>
      refine (honestly_infer scope condition).bind fun type => ?_
      refine (honestly_expectKnownType ..).bind fun _ => ?_
      refine (honestly_infer scope thenBranch).bind fun thenType => ?_
      refine (honestly_infer scope elseBranch).bind fun elseType => ?_
      split
      · rename_i a b
        refine .get_bind fun s => .pure fun h => honestType_some ?_
        exact DescriptorTable.honest_join (h.1.1.2 a rfl) (h.1.2 b rfl)
      · exact .pure fun _ => honestType_none
  | .whileLoop _ condition body =>
      refine (honestly_infer scope condition).bind fun type => ?_
      refine (honestly_expectKnownType ..).bind fun _ => ?_
      exact (honestly_infer scope body).bind fun _ =>
        honestly_known rfl
  | .doWhileLoop _ body condition =>
      refine (honestly_infer scope body).bind fun _ => ?_
      refine (honestly_infer scope condition).bind fun type => ?_
      exact (honestly_expectKnownType ..).bind fun _ =>
        honestly_known rfl
  | .ret _ (some value) =>
      exact (honestly_infer scope value).bind fun _ =>
        honestly_known rfl
  | .binary node operator left right =>
      refine (honestly_infer scope left).bind fun leftType => ?_
      refine (honestly_infer scope right).bind fun rightType => ?_
      split
      · rename_i a b
        have hoperator : Honestly (p ∧ a.Honest ∧ b.Honest) (inferOperator node operator a b)
            Ty.Honest := honestly_inferOperator node operator
        refine .map ((hoperator.of_imp fun h => ?_).mono fun _ => honestType_some)
        exact ⟨h.1.1, h.1.2 a rfl, h.2 b rfl⟩
      · exact .pure fun _ => honestType_none
  | .assign _ target value =>
      have htarget : Honestly p (inferTarget scope target) fun _ => True := by
        unfold inferTarget
        split
        · exact (honestly_infer scope target).mono fun _ _ => trivial
        · exact (honestly_reportCode _ _ _ fun _ => True).bind fun _ => .pure fun _ => trivial
      refine htarget.bind fun targetType => ?_
      refine (honestly_checkReassignment target).bind fun _ => ?_
      refine (honestly_infer scope value).bind fun valueType => ?_
      exact (honestly_expectKnownType ..).bind fun _ =>
        honestly_known rfl
  | .call node callee arguments =>
      refine (honestly_inferArguments scope arguments).bind fun types => ?_
      exact .map ((honestly_inferCall scope node callee types).mono fun _ => honestType_some)
  | .localVariable node name mutable typeRef none =>
      refine (honestly_declaredType scope typeRef).bind fun declared => ?_
      have hdeclare : Honestly (p ∧ HonestType declared)
          (declareLocal scope node name mutable declared none) fun _ => True :=
        (honestly_declareLocal (p := p) ..).of_imp fun h => ⟨h.1, h.2, honestType_none⟩
      exact hdeclare.bind fun _ =>
        honestly_known rfl
  | .localVariable node name mutable typeRef (some initializer) =>
      refine (honestly_declaredType scope typeRef).bind fun declared => ?_
      refine (honestly_infer scope initializer).bind fun initialized => ?_
      refine (honestly_expectKnownType ..).bind fun _ => ?_
      have hdeclare : Honestly (((p ∧ HonestType declared) ∧ HonestType initialized) ∧ True)
          (declareLocal scope node name mutable declared initialized) fun _ => True :=
        (honestly_declareLocal (p := p) ..).of_imp fun h => ⟨h.1.1.1, h.1.1.2, h.1.2⟩
      exact hdeclare.bind fun _ => honestly_known rfl

theorem honestly_inferStatements {p : Prop} (scope : Nat) (last : Option Ty) (es : List Expr) :
    Honestly (p ∧ HonestType last) (inferStatements scope last es) HonestType := by
  match es with
  | [] => exact .pure And.right
  | e :: rest =>
      refine (honestly_infer scope e).bind fun type => ?_
      exact (honestly_inferStatements scope type rest).of_imp fun h => ⟨h.1.1, h.2⟩

theorem honestly_inferArguments {p : Prop} (scope : Nat) (es : List Expr) :
    Honestly p (inferArguments scope es) fun _ => True := by
  match es with
  | [] => exact .pure fun _ => trivial
  | e :: rest =>
      refine (honestly_infer scope e).bind fun type => ?_
      exact (honestly_inferArguments scope rest).bind fun types => .pure fun _ => trivial

end

end Analysis

end DeclAnalysis
