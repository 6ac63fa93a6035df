import DeclAnalysis.Proofs.Session.Operations
import DeclAnalysis.Proofs.Typing.Infer

/-!
# What typing does to a session

Typing an expression consists of few elementary steps besides taking notes: types are
resolved, blocks are opened and variables are declared. Whatever allows these where typing
starts allows typing as a whole. In particular typing leads to a session that follows the
one before, and it records only about the nodes of the expression.
-/

namespace DeclAnalysis

theorem DescriptorTable.isConvertible_nothing (t : DescriptorTable) (expected : Ty) :
    t.isConvertible .nothing expected = true := by
  unfold isConvertible isSubtype
  split
  · rfl
  · rfl

theorem DescriptorTable.isSubtype_eq_false_of_isConvertible
    {t : DescriptorTable} {actual expected : Ty} (h : t.isConvertible actual expected = false) :
    t.isSubtype actual expected = false :=
  (Bool.or_eq_false_iff.mp h).1

namespace Analysis

open Session (AllowsEntries AllowsMismatches AllowsNotes AllowsTyping Ground)

section Mismatches

variable {α : Type} {sites : List Nat} {R : Session → Session → Prop} [IsPreorder Session R]
  [AllowsMismatches sites R]

/-! ### Demanded types -/

theorem keeps_expectType {node : Nat} (hnode : node ∈ sites) (expected actual : Ty) :
    Keeps R (expectType node expected actual) := by
  refine ⟨fun s => after_bind.mpr (after_get.mpr ?_)⟩
  by_cases h : s.descriptors.isConvertible actual expected
  · rw [h]
    exact refl_of R s
  · have hconvertible := Bool.eq_false_of_not_eq_true h
    rw [hconvertible]
    exact AllowsMismatches.of_mismatch hnode
      (DescriptorTable.isSubtype_eq_false_of_isConvertible hconvertible)

theorem keeps_expectKnownType {node : Nat} (hnode : node ∈ sites) (expected actual : Option Ty) :
    Keeps R (expectKnownType node expected actual) := by
  unfold expectKnownType
  split
  · exact keeps_expectType hnode ..
  · exact Keeps.pure _

omit [AllowsMismatches sites R] in
/-- The least type is never wrong. -/
theorem keeps_expectKnownType_nothing (node : Nat) (expected : Option Ty) :
    Keeps R (expectKnownType node expected (some .nothing)) := by
  cases expected with
  | none => exact Keeps.pure _
  | some expected =>
      refine Keeps.get_bind fun s => ?_
      rw [DescriptorTable.isConvertible_nothing]
      exact Keeps.pure _

/-- A `return` has the least type. -/
theorem after_infer_ret (scope node : Nat) (value : Option Expr) (s : Session) :
    After (infer scope (.ret node value)) s fun type _ => type = some .nothing := by
  rw [infer_eq]
  cases value with
  | none => exact rfl
  | some value => exact rfl

/-- An expression is typed and compared with the type that its place demands. -/
theorem Keeps.infer_demanded
    {scope : Nat} {e : Expr} (hinfer : Keeps R (infer scope e)) (hdemand : e.demand ⊆ sites)
    (expected : Option Ty) {k : Option Ty → Analysis α} (hk : ∀ type, Keeps R (k type)) :
    Keeps R (do
      let type ← infer scope e
      expectKnownType e.id expected type
      k type) := by
  cases e with
  | ret node value =>
      refine ⟨fun s => After.bind ((hinfer.after s).and (after_infer_ret scope node value s))
        fun type s₁ h₁ => ?_⟩
      obtain ⟨h₁, rfl⟩ := h₁
      have hrest := (keeps_expectKnownType_nothing (R := R) node expected).bind
        fun _ => hk (some .nothing)
      exact (hrest.after s₁).mono fun _ _ h => trans_of R h₁ h
  | _ =>
      refine hinfer.bind fun type => ?_
      exact (keeps_expectKnownType (hdemand List.mem_cons_self) expected type).bind
        fun _ => hk type

end Mismatches

section Notes

variable {nodes : List Nat} {R : Session → Session → Prop} [hR : AllowsEntries nodes R]

include hR

/-! ### Names -/

theorem keeps_unresolved {node : Nat} (hnode : node ∈ nodes) (name : String) :
    Keeps R (unresolved node name) :=
  (keeps_note (Diagnostic.quiet_unresolvedReference node name) fun _ => hnode).bind
    fun _ => Keeps.pure _

theorem keeps_referToValue
    {node : Nat} (hnode : node ∈ nodes) (kind : ReferenceKind) (name : String) (value : Nat) :
    Keeps R (referToValue node kind name value) :=
  (keeps_recordReference hnode kind value).bind fun _ => Keeps.get_bind fun _ => Keeps.pure _

theorem keeps_referToNamespace {node : Nat} (hnode : node ∈ nodes) (ns : Nat) :
    Keeps R (referToNamespace node ns) :=
  (keeps_recordReference hnode _ ns).bind fun _ => Keeps.get_bind fun _ => Keeps.pure _

theorem keeps_inferName {node : Nat} (hnode : node ∈ nodes) (scope : Nat) (name : String) :
    Keeps R (inferName scope node name) := by
  refine Keeps.get_bind fun s => ?_
  dsimp only
  split
  · split
    · exact keeps_referToValue hnode ..
    · exact keeps_unresolved hnode _
  · split
    · exact keeps_referToValue hnode ..
    · exact keeps_referToNamespace hnode _
    · exact keeps_unresolved hnode _

theorem keeps_inferMember {node : Nat} (hnode : node ∈ nodes) (receiver : Ty) (name : String) :
    Keeps R (inferMember node receiver name) := by
  unfold inferMember
  split
  · exact Keeps.pure _
  · refine Keeps.get_bind fun s => ?_
    split
    · exact (keeps_reportOther (by decide) ..).bind fun _ => Keeps.pure _
    · split
      · exact keeps_referToValue hnode ..
      · exact keeps_referToNamespace hnode _
      · exact keeps_unresolved hnode _

/-! ### Operators, assignments and calls -/

theorem keeps_inferOperator (node : Nat) (operator : BinaryOperator) (left right : Ty) :
    Keeps R (inferOperator node operator left right) := by
  unfold inferOperator
  split
  · exact Keeps.pure _
  · split
    · exact Keeps.pure _
    · split
      · exact Keeps.pure _
      · exact (keeps_reportOther (by decide) ..).bind fun _ => Keeps.pure _

theorem keeps_checkReassignment (target : Expr) :
    Keeps R (checkReassignment target) := by
  refine Keeps.get_bind fun s => ?_
  split
  · exact Keeps.pure _
  · split
    · exact keeps_reportOther (by decide) ..
    · exact Keeps.pure _

theorem keeps_selectCandidate? (candidates : List Nat) (arguments : List (Option Ty)) :
    Keeps R (selectCandidate? candidates arguments) :=
  Keeps.get_bind fun _ => Keeps.pure _

theorem keeps_callFunction
    {node : Nat} (hnode : node ∈ nodes) (name : String) (functions : List Nat)
    (arguments : List (Option Ty)) :
    Keeps R (callFunction node name functions arguments) := by
  refine (keeps_selectCandidate? ..).bind fun selected => ?_
  cases selected with
  | some function =>
      exact (keeps_recordReference hnode ..).bind fun _ =>
        Keeps.get_bind fun _ => Keeps.pure _
  | none => exact (keeps_reportOther (by decide) ..).bind fun _ => Keeps.pure _

theorem keeps_matchConstructor
    {node : Nat} (hnode : node ∈ nodes) (classId : Nat) (classType : Ty)
    (arguments : List (Option Ty)) :
    Keeps R (matchConstructor node classId classType arguments) := by
  rw [matchConstructor_eq]
  refine Keeps.get_bind fun s => ?_
  dsimp only
  split
  · exact Keeps.pure _
  · refine (keeps_selectCandidate? ..).bind fun selected => ?_
    cases selected with
    | some constructor => exact keeps_recordReference hnode ..
    | none => exact keeps_reportOther (by decide) ..

theorem keeps_inferCall
    {node : Nat} (hnode : node ∈ nodes) (scope : Nat) (callee : String)
    (arguments : List (Option Ty)) :
    Keeps R (inferCall scope node callee arguments) := by
  refine Keeps.get_bind fun s => ?_
  split
  · split
    · exact (keeps_matchConstructor hnode ..).bind fun _ => Keeps.pure _
    · exact keeps_unresolved hnode _
  · exact keeps_callFunction hnode ..

theorem keeps_localType (node : Nat) (declared initialized : Option Ty) :
    Keeps R (localType node declared initialized) := by
  unfold localType
  split
  · exact Keeps.pure _
  · exact (keeps_reportOther (by decide) ..).bind fun _ => Keeps.pure _

theorem keeps_recordKnownType {node : Nat} (hnode : node ∈ nodes) (type : Option Ty) :
    Keeps R (recordKnownType node type) := by
  cases type with
  | none => exact Keeps.pure _
  | some type => exact keeps_recordExpressionType hnode type

theorem keepsOr_returnPoints (flow : FlowInformation) (node : Nat) :
    KeepsOr R (returnPoints flow node) := by
  unfold returnPoints
  split
  · refine KeepsOr.bind (KeepsOr.forM _ fun element _ => ?_) fun _ => KeepsOr.pure _
    exact KeepsOr.lift (keeps_note (Diagnostic.quiet_unsupportedElement element) nofun)
  · exact KeepsOr.throw _

end Notes

section Typing

variable {g : Ground} {nodes : List Nat} {R : Session → Session → Prop} {refs : List TypeRef}

/-! ### Types and variables -/

section Resolving

variable [hR : g.Resolves nodes R]

include hR

theorem keepsFrom_resolveTypeRef
    {locals : List String} {ref : TypeRef} (href : ref ∈ refs) (hnode : ref.id ∈ nodes)
    (scope : Nat) : Keeps (From (g.admits locals refs scope) R) (resolveTypeRef scope ref) :=
  ⟨fun _ hs => Ground.Resolves.resolveTypeRef hs href hnode⟩

theorem keepsFrom_declaredType
    {locals : List String} {typeRef : Option TypeRef} (hrefs : typeRef.toList ⊆ refs)
    (hnodes : typeRefNodes typeRef ⊆ nodes) (scope : Nat) :
    Keeps (From (g.admits locals refs scope) R) (typeRef.mapM (resolveTypeRef scope)) := by
  refine Keeps.optionMapM _ ?_
  rintro ref ⟨⟩
  exact keepsFrom_resolveTypeRef (hrefs List.mem_cons_self) (hnodes List.mem_cons_self) scope

end Resolving

section Inferring

variable [hR : g.Infers nodes R]

include hR

theorem keepsFrom_declareLocal
    {locals : List String} {name : String} (hname : name ∈ locals) {node : Nat}
    (hnode : node ∈ nodes) (scope : Nat) (mutable : Bool) (declared initialized : Option Ty) :
    Keeps (From (g.admits locals refs scope) R)
      (declareLocal scope node name mutable declared initialized) := by
  rw [declareLocal_eq]
  refine (keeps_localType node declared initialized).bind fun type => Keeps.get_bind fun s => ?_
  refine Keeps.bind (Ground.Infers.createVariable (g := g) ..).from fun v => ?_
  refine Keeps.bind ⟨fun s hs => ?_⟩ fun _ => keeps_recordDeclaration hnode v
  exact Ground.Infers.addVariable hs hname v

/-! ### Expressions -/

mutual

/-- Typing an expression takes no step but those that the ground allows in the scope. -/
theorem keepsFrom_infer
    {sites : List Nat} [AllowsMismatches sites R] {locals : List String} (scope : Nat) (e : Expr)
    (hnodes : e.nodes ⊆ nodes) (hrefs : e.typeRefs ⊆ refs) (hlocals : e.openLocals ⊆ locals)
    (hdemands : e.demands ⊆ sites) :
    Keeps (From (g.admits locals refs scope) R) (infer scope e) := by
  have hid : e.id ∈ nodes := hnodes e.id_mem_nodes
  rw [infer_eq]
  refine Keeps.bind ?_ fun type =>
    (keeps_recordKnownType hid type).bind fun _ => Keeps.pure _
  match e with
  | .constant _ (.int _) | .constant _ (.double _) | .constant _ (.string _)
  | .constant _ (.bool _) | .breakLoop _ | .continueLoop _ | .ret _ none | .lambda .. =>
      exact Keeps.pure _
  | .name node name => exact (keeps_inferName hid scope name).map some
  | .dot node receiver name =>
      obtain ⟨-, hnodes⟩ := List.cons_subset.mp hnodes
      refine (keepsFrom_infer scope receiver hnodes hrefs hlocals hdemands).bind fun type => ?_
      cases type with
      | none => exact Keeps.pure _
      | some type => exact (keeps_inferMember hid type name).map some
  | .block _ statements =>
      obtain ⟨-, hnodes⟩ := List.cons_subset.mp hnodes
      exact Keeps.bind_from (fun s hs => Ground.Infers.createBlock hs)
        fun block => keepsFrom_inferStatements_fresh block _ statements hnodes hrefs hdemands
  | .cond _ condition thenBranch none =>
      simp only [Expr.nodes, Expr.typeRefs, Expr.openLocals, Expr.demands, List.cons_subset,
        List.append_subset] at hnodes hrefs hlocals hdemands
      refine Keeps.infer_demanded (keepsFrom_infer scope condition hnodes.2.1 hrefs.1 hlocals.1
        hdemands.1.2) hdemands.1.1 _ fun type => ?_
      exact (keepsFrom_infer scope thenBranch hnodes.2.2 hrefs.2 hlocals.2 hdemands.2).bind
        fun _ => Keeps.pure _
  | .cond _ condition thenBranch (some elseBranch) =>
      simp only [Expr.nodes, Expr.typeRefs, Expr.openLocals, Expr.demands, List.cons_subset,
        List.append_subset] at hnodes hrefs hlocals hdemands
      refine Keeps.infer_demanded (keepsFrom_infer scope condition hnodes.2.1.1 hrefs.1.1
        hlocals.1.1 hdemands.1.1.2) hdemands.1.1.1 _ fun type => ?_
      refine (keepsFrom_infer scope thenBranch hnodes.2.1.2 hrefs.1.2 hlocals.1.2
        hdemands.1.2).bind fun thenType => ?_
      refine (keepsFrom_infer scope elseBranch hnodes.2.2 hrefs.2 hlocals.2 hdemands.2).bind
        fun elseType => ?_
      split
      · exact Keeps.get_bind fun _ => Keeps.pure _
      · exact Keeps.pure _
  | .whileLoop _ condition body =>
      simp only [Expr.nodes, Expr.typeRefs, Expr.openLocals, Expr.demands, List.cons_subset,
        List.append_subset] at hnodes hrefs hlocals hdemands
      refine Keeps.infer_demanded (keepsFrom_infer scope condition hnodes.2.1 hrefs.1 hlocals.1
        hdemands.1.2) hdemands.1.1 _ fun type => ?_
      exact (keepsFrom_infer scope body hnodes.2.2 hrefs.2 hlocals.2 hdemands.2).bind
        fun _ => Keeps.pure _
  | .doWhileLoop _ body condition =>
      simp only [Expr.nodes, Expr.typeRefs, Expr.openLocals, Expr.demands, List.cons_subset,
        List.append_subset] at hnodes hrefs hlocals hdemands
      refine (keepsFrom_infer scope body hnodes.2.1 hrefs.1 hlocals.1 hdemands.1).bind
        fun _ => ?_
      exact Keeps.infer_demanded (keepsFrom_infer scope condition hnodes.2.2 hrefs.2 hlocals.2
        hdemands.2.2) hdemands.2.1 _ fun _ => Keeps.pure _
  | .ret _ (some value) =>
      obtain ⟨-, hnodes⟩ := List.cons_subset.mp hnodes
      exact (keepsFrom_infer scope value hnodes hrefs hlocals hdemands).bind fun _ => Keeps.pure _
  | .binary node operator left right =>
      simp only [Expr.nodes, Expr.typeRefs, Expr.openLocals, Expr.demands, List.cons_subset,
        List.append_subset] at hnodes hrefs hlocals hdemands
      refine (keepsFrom_infer scope left hnodes.2.1 hrefs.1 hlocals.1 hdemands.1).bind
        fun leftType => ?_
      refine (keepsFrom_infer scope right hnodes.2.2 hrefs.2 hlocals.2 hdemands.2).bind
        fun rightType => ?_
      split
      · exact (keeps_inferOperator ..).map some
      · exact Keeps.pure _
  | .assign _ target value =>
      simp only [Expr.nodes, Expr.typeRefs, Expr.openLocals, Expr.demands, List.cons_subset,
        List.append_subset] at hnodes hrefs hlocals hdemands
      have hinfer : Keeps (From (g.admits locals refs scope) R) (inferTarget scope target) := by
        unfold inferTarget
        split
        · exact keepsFrom_infer scope target hnodes.2.1 hrefs.1 hlocals.1 hdemands.1
        · exact (keeps_reportOther (by decide) ..).bind fun _ => Keeps.pure _
      refine hinfer.bind fun targetType => ?_
      refine (keeps_checkReassignment target).bind fun _ => ?_
      exact Keeps.infer_demanded (keepsFrom_infer scope value hnodes.2.2 hrefs.2 hlocals.2
        hdemands.2.2) hdemands.2.1 _ fun _ => Keeps.pure _
  | .call node callee arguments =>
      obtain ⟨-, hnodes⟩ := List.cons_subset.mp hnodes
      have harguments := keepsFrom_inferArguments scope arguments hnodes hrefs hlocals hdemands
      refine harguments.bind fun types => ?_
      exact (keeps_inferCall hid scope callee types).map some
  | .localVariable node name mutable typeRef none =>
      obtain ⟨-, hnodes⟩ := List.cons_subset.mp hnodes
      refine (keepsFrom_declaredType hrefs hnodes scope).bind fun declared => ?_
      exact (keepsFrom_declareLocal (hlocals List.mem_cons_self) hid ..).bind fun _ =>
        Keeps.pure _
  | .localVariable node name mutable typeRef (some initializer) =>
      simp only [Expr.nodes, Expr.typeRefs, Expr.openLocals, Expr.demands, List.cons_subset,
        List.append_subset] at hnodes hrefs hlocals hdemands
      refine (keepsFrom_declaredType hrefs.1 hnodes.2.1 scope).bind fun declared => ?_
      refine Keeps.infer_demanded (keepsFrom_infer scope initializer hnodes.2.2 hrefs.2
        hlocals.1 hdemands.2) hdemands.1 _ fun initialized => ?_
      exact (keepsFrom_declareLocal hlocals.2.1 hid ..).bind fun _ => Keeps.pure _

/-- In a new scope, statements may declare anything. -/
theorem keepsFrom_inferStatements_fresh
    {sites : List Nat} [AllowsMismatches sites R] (scope : Nat) (last : Option Ty)
    (es : List Expr) (hnodes : Expr.nodesOf es ⊆ nodes)
    (hrefs : Expr.typeRefsOf es ⊆ refs) (hdemands : Expr.demandsOf es ⊆ sites) :
    Keeps (From (g.fresh refs scope) R) (inferStatements scope last es) := by
  match es with
  | [] => exact Keeps.pure _
  | e :: rest =>
      obtain ⟨hnode, hnodes⟩ := List.append_subset.mp hnodes
      obtain ⟨href, hrefs⟩ := List.append_subset.mp hrefs
      obtain ⟨hdemand, hdemands⟩ := List.append_subset.mp hdemands
      have hinfer := keepsFrom_infer scope e hnode href (List.Subset.refl e.openLocals) hdemand
      refine Keeps.bind (hinfer.mono fun _ _ h hs => h (Ground.Infers.admits_of_fresh R hs _))
        fun type => ?_
      exact keepsFrom_inferStatements_fresh scope type rest hnodes hrefs hdemands

theorem keepsFrom_inferArguments
    {sites : List Nat} [AllowsMismatches sites R] {locals : List String} (scope : Nat)
    (es : List Expr) (hnodes : Expr.nodesOf es ⊆ nodes)
    (hrefs : Expr.typeRefsOf es ⊆ refs) (hlocals : Expr.openLocalsOf es ⊆ locals)
    (hdemands : Expr.demandsOf es ⊆ sites) :
    Keeps (From (g.admits locals refs scope) R) (inferArguments scope es) := by
  match es with
  | [] => exact Keeps.pure _
  | e :: rest =>
      obtain ⟨hnode, hnodes⟩ := List.append_subset.mp hnodes
      obtain ⟨href, hrefs⟩ := List.append_subset.mp hrefs
      obtain ⟨hlocal, hlocals⟩ := List.append_subset.mp hlocals
      obtain ⟨hdemand, hdemands⟩ := List.append_subset.mp hdemands
      refine (keepsFrom_infer scope e hnode href hlocal hdemand).bind fun type => ?_
      exact (keepsFrom_inferArguments scope rest hnodes hrefs hlocals hdemands).bind fun types =>
        Keeps.pure _

end

/-! ### Checks of calls and bodies -/

variable [hM : AllowsMismatches nodes R]

include hM

/-- Whatever typing reports to be of the wrong type is a node of the expression. -/
theorem keepsFrom_inferWithin
    {locals : List String} (scope : Nat) (e : Expr) (hnodes : e.nodes ⊆ nodes)
    (hrefs : e.typeRefs ⊆ refs) (hlocals : e.openLocals ⊆ locals) :
    Keeps (From (g.admits locals refs scope) R) (infer scope e) :=
  keepsFrom_infer scope e hnodes hrefs hlocals (List.Subset.trans e.demands_subset_nodes hnodes)

theorem keepsFrom_checkClassConstructorCall
    {locals : List String} {node : Nat} (hnode : node ∈ nodes) {arguments : List Expr}
    (hnodes : Expr.nodesOf arguments ⊆ nodes) (hrefs : Expr.typeRefsOf arguments ⊆ refs)
    (hlocals : Expr.openLocalsOf arguments ⊆ locals) (scope classId : Nat) (classType : Ty) :
    Keeps (From (g.admits locals refs scope) R)
      (checkClassConstructorCall scope classId classType node arguments) :=
  (keepsFrom_inferArguments scope arguments hnodes hrefs hlocals
    (List.Subset.trans (Expr.demandsOf_subset_nodesOf arguments) hnodes)).bind fun _ =>
      keeps_matchConstructor hnode ..

theorem keepsFrom_checkConstructorCall
    {locals : List String} {ref : TypeRef} (href : ref ∈ refs) (hid : ref.id ∈ nodes) {node : Nat}
    (hnode : node ∈ nodes) {arguments : List Expr} (hnodes : Expr.nodesOf arguments ⊆ nodes)
    (hrefs : Expr.typeRefsOf arguments ⊆ refs) (hlocals : Expr.openLocalsOf arguments ⊆ locals)
    (scope : Nat) :
    Keeps (From (g.admits locals refs scope) R)
      (checkConstructorCall scope ref node arguments) := by
  refine (keepsFrom_resolveTypeRef href hid scope).bind fun type => ?_
  split
  · exact keepsFrom_checkClassConstructorCall hnode hnodes hrefs hlocals ..
  · refine (keepsFrom_inferArguments scope arguments hnodes hrefs hlocals
      (List.Subset.trans (Expr.demandsOf_subset_nodesOf arguments) hnodes)).bind fun _ => ?_
    split
    · exact keeps_reportOther (by decide) ..
    · exact Keeps.pure _

theorem keepsFrom_inferBody
    (scope : Nat) {body : Expr} (hnodes : body.nodes ⊆ nodes) (hrefs : body.typeRefs ⊆ refs) :
    Keeps (From (g.fresh refs scope) R) (infer scope body) := by
  have hinfer := keepsFrom_inferWithin (g := g) (R := R) scope body hnodes hrefs
    (List.Subset.refl body.openLocals)
  exact hinfer.mono fun _ _ h hs => h (Ground.Infers.admits_of_fresh R hs _)

omit hR in
/-- Only the return points are reported to be of the wrong type. -/
theorem keepsOr_checkReturnPoints
    [IsPreorder Session R] {points : ReturnedInformation}
    (hexpressions : points.expressions ⊆ nodes) (hunit : points.unitReturning ⊆ nodes)
    (expected : Ty) :
    KeepsOr R (checkReturnPoints expected points) := by
  refine KeepsOr.bind (KeepsOr.forM _ fun element helement => ?_) fun _ => ?_
  · exact KeepsOr.get_bind fun s =>
      KeepsOr.lift (keeps_expectKnownType (hexpressions helement) ..)
  · refine KeepsOr.of_afterOr fun s => afterOr_bind.mpr (afterOr_get.mpr ?_)
    by_cases h : s.descriptors.isConvertible .unit expected
    · rw [h]
      exact refl_of R s
    have hconvertible := Bool.eq_false_of_not_eq_true h
    rw [hconvertible]
    -- Reports do not change the types by which the value of the body has been found wrong.
    have hreports :
        AfterOr (points.unitReturning.forM fun element =>
            (reportMismatch element expected .unit : FaultyAnalysis Unit)) s
          (fun _ s' => R s s' ∧ s'.descriptors = s.descriptors) fun _ s' => R s s' := by
      refine AfterOr.forM _ (fun element helement s' hs' => AfterOr.lift ?_) ⟨refl_of R s, rfl⟩
      refine ⟨trans_of R hs'.1 (AllowsMismatches.of_mismatch (hunit helement) ?_), hs'.2⟩
      rw [hs'.2]
      exact DescriptorTable.isSubtype_eq_false_of_isConvertible hconvertible
    exact AfterOr.imp hreports fun _ _ h => h.1

theorem keepsFrom_checkReturnType
    (scope node : Nat) {body : Expr} (hnodes : body.nodes ⊆ nodes) (hrefs : body.typeRefs ⊆ refs)
    (function : Nat) :
    KeepsOr (From (g.fresh refs scope) R)
      (checkReturnType (.data (.ofBody node body)) scope node (some body) function) := by
  refine KeepsOr.get_bind fun s => ?_
  split
  · exact KeepsOr.throw _
  · rename_i expected _
    refine (KeepsOr.lift (keepsFrom_inferBody scope hnodes hrefs)).bind fun _ => ?_
    have hpoints := FlowGraph.returned_subset_nodes node body
    rw [returnPoints_ofBody, bind_assoc]
    refine KeepsOr.bind (KeepsOr.forM _ fun element _ => ?_) fun _ => ?_
    · exact KeepsOr.lift (keeps_note (Diagnostic.quiet_unsupportedElement element) nofun)
    · exact keepsOr_checkReturnPoints
        (List.Subset.trans hpoints.1 hnodes) (List.Subset.trans hpoints.2 hnodes) expected

theorem keepsFrom_inferReturnType
    (flow : FlowInformation) (scope node : Nat) {body : Option Expr}
    (hnodes : Expr.optionalNodes body ⊆ nodes) (hrefs : Expr.optionalTypeRefs body ⊆ refs) :
    KeepsOr (From (g.fresh refs scope) R) (inferReturnType flow scope node body) := by
  cases body with
  | none => exact KeepsOr.pure _
  | some body =>
      refine (KeepsOr.lift (keepsFrom_inferBody scope hnodes hrefs)).bind fun _ => ?_
      refine (keepsOr_returnPoints flow node).bind fun points => ?_
      exact KeepsOr.get_bind fun s => KeepsOr.pure _

end Inferring

/-- The scope of a body is added with the names of the parameters, or else nothing. -/
theorem afterOr_functionInnerScope
    [g.Allows nodes R] {locals : List String} {outer : Nat} {s : Session}
    (hs : g.admits locals refs outer s) (function : Nat) :
    AfterOr (functionInnerScope outer function) s
      (fun inner s' => R s s' ∧ g.fresh refs inner s') fun _ s' => R s s' := by
  simp only [functionInnerScope, afterOr_bind, afterOr_get, Model.functionInnerScope]
  cases s.model.descriptors.signature? function with
  | none => exact refl_of R s
  | some signature =>
      simp only [afterOr_bind, afterOr_modify, afterOr_pure]
      obtain ⟨hcreate, hfresh⟩ :=
        Ground.Allows.createScope (R := R) hs .function (some function)
      have hbind := Ground.foldl_bind (R := R) hfresh
        (f := fun p b => { b with values := b.values.insert (s.model.descriptors.name p) p })
        (fun _ _ => rfl) (fun _ _ => rfl) (fun _ _ => rfl) signature.parameters
      exact ⟨trans_of R hcreate hbind, Ground.Infers.stable_fresh hbind hfresh⟩

end Typing

/-! ### Typing anywhere -/

section Free

variable {nodes : List Nat} {R : Session → Session → Prop} [hR : AllowsTyping nodes R]

include hR

omit hR in
/-- Resolving a type reference consists in recording its type, and perhaps reporting that there
is none. -/
theorem keeps_resolveTypeRef_of
    [IsPreorder Session R] {ref : TypeRef}
    (hreport : ∀ message, Keeps R (reportCode .unresolvedReference ref.id message))
    (hrecord : ∀ type, Keeps R (recordTypeReference ref.id type)) (scope : Nat) :
    Keeps R (resolveTypeRef scope ref) := by
  refine Keeps.get_bind fun s => ?_
  split
  · exact Keeps.pure _
  · split
    · exact (Keeps.pure _).bind fun _ => (hrecord _).bind fun _ => Keeps.pure _
    · refine Keeps.bind ((hreport _).bind fun _ => Keeps.pure _) fun _ => ?_
      exact (hrecord _).bind fun _ => Keeps.pure _

theorem keeps_resolveTypeRef {ref : TypeRef} (href : ref.id ∈ nodes) (scope : Nat) :
    Keeps R (resolveTypeRef scope ref) :=
  keeps_resolveTypeRef_of (keeps_reportCode (by decide) ref.id) (keeps_recordTypeReference href)
    scope

instance : Ground.free.Allows nodes R where
  of_notes := AllowsNotes.of_notes
  stable_admits _ _ := trivial
  stable_fresh _ _ := trivial
  admits_of_fresh _ _ := trivial
  createVariable := keeps_createVariable
  resolveTypeRef _ _ hnode := (keeps_resolveTypeRef hnode _).after _
  createScope _ kind owner := ((keeps_createScope kind _ owner).after _).mono fun _ _ h =>
    ⟨h, trivial⟩
  addVariable _ _ descriptor := (keeps_addVariable _ _ descriptor).after _
  bind _ _ hnamespaces _ := AllowsTyping.of_change (.bind _ hnamespaces) rfl

omit hR in
theorem typeRef_mem_of_subset {typeRef : Option TypeRef} (h : typeRefNodes typeRef ⊆ nodes) :
    ∀ ref ∈ typeRef, ref.id ∈ nodes := by
  rintro ref ⟨⟩
  exact h List.mem_cons_self

theorem keeps_infer (scope : Nat) (e : Expr) (he : e.nodes ⊆ nodes) :
    Keeps R (infer scope e) := by
  have hinfer := keepsFrom_inferWithin (g := .free) (R := R) scope e he
    (List.Subset.refl e.typeRefs) (List.Subset.refl e.openLocals)
  exact hinfer.mono fun _ _ h => h trivial

theorem keepsOr_checkReturnType
    (scope node : Nat) {body : Expr} (hbody : body.nodes ⊆ nodes) (function : Nat) :
    KeepsOr R (checkReturnType (.data (.ofBody node body)) scope node (some body) function) := by
  have hcheck := keepsFrom_checkReturnType (g := .free) (R := R) scope node hbody
    (List.Subset.refl _) function
  exact hcheck.mono fun _ _ h => h trivial

theorem keepsOr_inferReturnType
    (flow : FlowInformation) (scope node : Nat) {body : Option Expr}
    (hbody : Expr.optionalNodes body ⊆ nodes) :
    KeepsOr R (inferReturnType flow scope node body) := by
  have hinfer := keepsFrom_inferReturnType (g := .free) (R := R) flow scope node hbody
    (List.Subset.refl _)
  exact hinfer.mono fun _ _ h => h trivial

end Free

end Analysis

end DeclAnalysis
