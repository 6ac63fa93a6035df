import DeclAnalysis.Proofs.Session.Recordings
import DeclAnalysis.Proofs.Typing.Infer

/-!
# What typing records

Typing an expression records what its log says. The types that are found for arguments are those
that are recorded about them, so that a call is resolved rightly just after its arguments have been
typed.
-/

namespace DeclAnalysis

namespace Session

variable {s s' s'' : Session} {named : String → List Nat}

/-- The first candidate that accepts the arguments resolves a call. -/
theorem resolvesCall_of_find?
    {call : Call} {candidates : List Nat} {types : List (Option Ty)} {r : Nat}
    (hclosed : s.descriptors.HierarchyClosed) (hnames : s.Names call.callee candidates)
    (htyped : ∀ candidate ∈ candidates, s.descriptors.Typed candidate)
    (htypes : call.arguments.map s.trace.expressionType? = types)
    (hr : candidates.find? (Analysis.accepts s.descriptors types) = some r) : s.ResolvesCall call r :=
  ⟨candidates, hnames, htyped, htypes ▸ DescriptorTable.selects_of_find?_eq_some hclosed hr⟩

/-- The expressions have been typed one after the other. The types that were found are those that
have been recorded. -/
structure TypesAs
    (named : String → List Nat) (es : List Expr) (types : List (Option Ty)) (s s' : Session) :
    Prop where
  records : Records (Expr.recordingsOf named es) s s'
  types_eq : ((Expr.recordingsOf named es).map Recording.slot).Nodup →
    (∀ x ∈ Expr.recordingsOf named es, s.Vacant x.slot) →
      es.map (fun e => s'.trace.expressionType? e.id) = types

namespace TypesAs

theorem nil (s : Session) : TypesAs named [] [] s s := ⟨.refl s, fun _ _ => rfl⟩

theorem records_single {e : Expr} {type : Option Ty} (h : TypesAs named [e] [type] s s') :
    Records (e.recordings named) s s' := by
  have hrecords := h.records
  rwa [Expr.recordingsOf, Expr.recordingsOf, List.append_nil] at hrecords

theorem cons
    {e : Expr} {rest : List Expr} {type : Option Ty} {types : List (Option Ty)}
    (h : TypesAs named [e] [type] s s') (h' : TypesAs named rest types s' s'') :
    TypesAs named (e :: rest) (type :: types) s s'' := by
  refine ⟨h.records_single.append h'.records, fun hdistinct hvacant => ?_⟩
  rw [Expr.recordingsOf, List.map_append] at hdistinct
  obtain ⟨he, hrest, hapart⟩ := List.nodup_append.mp hdistinct
  have hsingle : Expr.recordingsOf named [e] = e.recordings named := List.append_nil _
  have hfirst := h.types_eq (hsingle ▸ he) fun x hx =>
    hvacant x (List.mem_append_left _ (hsingle ▸ hx))
  have hnext : ∀ x ∈ Expr.recordingsOf named rest, s'.Vacant x.slot := by
    intro x hx
    have hslot : x.slot ∉ (e.recordings named).map Recording.slot := fun hmem =>
      hapart _ hmem _ (List.mem_map_of_mem hx) rfl
    exact (h.records_single.same hslot).vacant (hvacant x (List.mem_append_right _ hx))
  have hlast : .type e.id ∈ (e.recordings named).map Recording.slot := by
    rw [Expr.recordings_eq, List.map_append]
    exact List.mem_append_right _ (List.mem_singleton_self _)
  -- The type of the first expression is not recorded again with the other ones.
  have hkept : s''.trace.expressionType? e.id = s'.trace.expressionType? e.id :=
    h'.records.same fun hmem => hapart _ hlast _ hmem rfl
  rw [List.map_cons, h'.types_eq hrest hnext, hkept]
  exact congrArg (· ++ types) hfirst

end TypesAs

end Session

namespace Analysis

open Session (Refers)

variable {named : String → List Nat} {scope : Nat} {α : Type}

/-- The computation types expressions, if the candidates are on offer in the scope. -/
def TypesIn (named : String → List Nat) (scope : Nat) (es : List Expr)
    (found : α → List (Option Ty)) (x : Analysis α) : Prop :=
  ∀ s : Session, s.model.Offers scope named →
    After x s fun a s' => Session.TypesAs named es (found a) s s'

theorem TypesIn.recordsIn
    {e : Expr} {x : Analysis (Option Ty)} (h : TypesIn named scope [e] ([·]) x) :
    EntersIn named scope (e.recordings named) x :=
  ⟨fun s hs => (h s hs).records_single⟩

/-! ### Calls -/

/-- A report leaves a call unresolved. -/
theorem after_report_refers (node : Nat) (selected : Option Nat) (d : Diagnostic) (s : Session) :
    After (report d) s fun _ s' => Refers node selected s s' :=
  .of_recorder_eq selected rfl rfl

/-- A call is resolved. -/
theorem after_recordIdentifier_refers (node selected : Nat) (s : Session) :
    After (recordReference node .identifier selected) s fun _ s' =>
      Refers node (some selected) s s' := by
  obtain ⟨fields, htrace⟩ := Session.trace_recordReference s.recorder node .identifier selected
  have hreference : (s.recorder.recordReference node .identifier selected).trace.reference? node =
      some selected := by
    refine (congrArg (fun t => t.reference? node) htrace).trans ?_
    change ((s.recorder.trace.references.insert node (.identifier, selected))[node]?).map _ = _
    rw [Std.TreeMap.getElem?_insert_self]
    rfl
  have hrecords : Session.Records [.reference node] s
      { s with recorder := s.recorder.recordReference node .identifier selected } :=
    (enters_recordReference node .identifier selected).after s
  have htypeReferences :
      (s.recorder.recordReference node .identifier selected).trace.typeReferences =
        s.trace.typeReferences := by
    rw [htrace]
    rfl
  exact ⟨rfl, htypeReferences,
    fun slot hslot => hrecords.same fun hmem => hslot (List.mem_singleton.mp hmem),
    .inr hreference⟩

/-- What is called is the first of the functions that accepts the arguments. -/
theorem after_callFunction_refers
    (node : Nat) (name : String) (functions : List Nat) (types : List (Option Ty)) (s : Session) :
    After (callFunction node name functions types) s fun _ s' =>
      Refers node (functions.find? (accepts s.descriptors types)) s s' := by
  unfold callFunction selectCandidate?
  simp only [bind_assoc, pure_bind, after_bind, after_get]
  cases functions.find? (accepts s.descriptors types) with
  | some function =>
      exact After.bind (after_recordIdentifier_refers node function s) fun _ _ h => h
  | none => exact After.bind (after_report_refers node none _ s) fun _ _ h => h

/-- What a constructor call refers to is the selected constructor. -/
theorem after_concludeConstructor_refers
    (node : Nat) (classType : Ty) (selected : Option Nat) (s : Session) :
    After (concludeConstructor node classType selected) s fun _ s' =>
      Refers node selected s s' := by
  cases selected with
  | some constructor => exact after_recordIdentifier_refers node constructor s
  | none => exact after_report_refers node none _ s

/-- What is called is the first of the constructors that accepts the arguments. -/
theorem after_matchConstructor_refers
    (node classId : Nat) (classType : Ty) (types : List (Option Ty)) (s : Session) :
    After (matchConstructor node classId classType types) s fun _ s' =>
      Refers node ((s.descriptors.constructorsOf classId).find? (accepts s.descriptors types))
        s s' := by
  rw [matchConstructor_eq]
  unfold DescriptorTable.constructorsOf selectCandidate?
  simp only [bind_assoc, pure_bind, after_bind, after_get]
  split
  · exact .of_recorder_eq _ rfl rfl
  · exact after_concludeConstructor_refers node classType _ s

/-- What is called is the first of the candidates that accepts the arguments. -/
theorem after_inferCall_refers
    (scope node : Nat) (callee : String) (types : List (Option Ty)) (s : Session) :
    After (inferCall scope node callee types) s fun _ s' =>
      Refers node ((s.model.candidates scope callee).find? (accepts s.descriptors types)) s s' := by
  have hscopes : s.scopes = s.model.scopes := rfl
  unfold inferCall Model.candidates
  simp only [after_bind, after_get]
  rw [hscopes]
  cases s.model.scopes.functions scope callee with
  | cons function rest => exact after_callFunction_refers node callee _ types s
  | nil =>
      dsimp only
      cases s.model.scopes.classifier? scope callee with
      | some classId => exact After.bind (after_matchConstructor_refers ..) fun _ _ h => h
      | none => exact After.bind (after_report_refers node none _ s) fun _ _ h => h

/-- A call among candidates of a name records what it says. -/
theorem entersIn_inferCall
    {node : Nat} {callee : String} {arguments : List Expr}
    (harguments : TypesIn named scope arguments id (inferArguments scope arguments)) :
    EntersIn named scope (Expr.recordingsOf named arguments ++
        [.call ⟨node, .oneOf (named callee), arguments.map Expr.id⟩])
      (do let types ← inferArguments scope arguments; inferCall scope node callee types) := by
  refine ⟨fun s => ?_⟩
  change After _ s fun _ s' => s.model.Offers scope named → _
  have htyped : After (inferArguments scope arguments) s fun types s₁ =>
      s.model.Offers scope named → Session.TypesAs named arguments types s s₁ := harguments s
  refine After.bind htyped fun types s₁ h₁ => ?_
  refine After.mono (after_inferCall_refers scope node callee types s₁) fun _ s₂ h₂ hs => ?_
  have htypes := h₁ hs
  have hs₁ := htypes.records.offers hs
  have hmem : ∀ argument ∈ arguments.map Expr.id,
      .type argument ∈ Expr.recordingsOf named arguments :=
    fun _ => Expr.type_mem_recordingsOf named
  refine htypes.records.call h₂ hmem fun hdistinct hvacant r hr => ?_
  rw [hs₁.candidates_eq callee] at hr
  refine Session.resolvesCall_of_find? hs₁.closed rfl (fun _ => hs₁.typed _) ?_ hr
  rw [List.map_map]
  exact htypes.types_eq hdistinct hvacant

/-! ### Names and operators -/

theorem enters_unresolved (node : Nat) (name : String) : Enters [] (unresolved node name) :=
  Logs.bind_first (enters_report _) fun _ => Logs.pure _

/-- Nothing need be recorded about what a node refers to. -/
theorem enters_noReference (node : Nat) (type : α) :
    Enters [.reference node] (pure type : Analysis α) :=
  ⟨fun _ => (Refers.of_recorder_eq none rfl rfl).records⟩

theorem enters_unresolvedNode (node : Nat) (name : String) :
    Enters [.reference node] (unresolved node name) :=
  Logs.bind_last (enters_noReference node ()) fun _ => enters_unresolved node name

theorem enters_referToValue (node : Nat) (kind : ReferenceKind) (name : String) (value : Nat) :
    Enters [.reference node] (referToValue node kind name value) :=
  Logs.bind_last (enters_recordReference node kind value) fun _ =>
    Logs.get_bind fun _ => Logs.pure _

theorem enters_referToNamespace (node ns : Nat) :
    Enters [.reference node] (referToNamespace node ns) :=
  Logs.bind_last (enters_recordReference node .identifier ns) fun _ =>
    Logs.get_bind fun _ => Logs.pure _

theorem enters_inferName (scope node : Nat) (text : String) :
    Enters [.reference node] (inferName scope node text) := by
  refine Logs.get_bind fun s => ?_
  dsimp only
  split
  · split
    · exact enters_referToValue ..
    · exact enters_unresolvedNode ..
  · split
    · exact enters_referToValue ..
    · exact enters_referToNamespace ..
    · exact enters_unresolvedNode ..

theorem enters_inferMember (node : Nat) (receiver : Ty) (name : String) :
    Enters [.reference node] (inferMember node receiver name) := by
  unfold inferMember
  split
  · exact enters_noReference ..
  · refine Logs.get_bind fun s => ?_
    split
    · exact Logs.bind_first (enters_report _) fun _ => enters_noReference ..
    · split
      · exact enters_referToValue ..
      · exact enters_referToNamespace ..
      · exact enters_unresolvedNode ..

theorem enters_expectKnownType (node : Nat) (expected actual : Option Ty) :
    Enters [] (expectKnownType node expected actual) := by
  unfold expectKnownType
  split
  · refine Logs.get_bind fun s => ?_
    split
    · exact enters_report _
    · exact Logs.pure _
  · exact Logs.pure _

theorem enters_inferOperator (node : Nat) (operator : BinaryOperator) (left right : Ty) :
    Enters [] (inferOperator node operator left right) := by
  unfold inferOperator
  split
  · exact Logs.pure _
  · split
    · exact Logs.pure _
    · split
      · exact Logs.pure _
      · exact Logs.bind_first (enters_report _) fun _ => Logs.pure _

theorem enters_checkReassignment (target : Expr) : Enters [] (checkReassignment target) := by
  refine Logs.get_bind fun s => ?_
  split
  · exact Logs.pure _
  · split
    · exact enters_report _
    · exact Logs.pure _

/-! ### Types and variables -/

/-- The type that a reference denotes is recorded, but for the first time only. -/
theorem after_resolveTypeRef_records (scope : Nat) (ref : TypeRef) (s : Session) :
    After (resolveTypeRef scope ref) s fun type s' =>
      Session.Records [] s s' ∧ s'.trace.typeReference? ref.id = some type := by
  have hrecord : ∀ (type : Ty) (s : Session), s.trace.typeReference? ref.id = none →
      After (do recordTypeReference ref.id type; return type) s fun type s' =>
        Session.Records [] s s' ∧ s'.trace.typeReference? ref.id = some type := by
    intro type s hnone
    refine ⟨.of_recorder rfl rfl fun {node known} hnode => ?_, ?_⟩
    · have hne : ref.id ≠ node := by
        rintro rfl
        cases hnone.symm.trans hnode
      change (s.recorder.trace.typeReferences.insert ref.id type)[node]? = _
      rw [getElem?_insert_of_ne hne]
      exact hnode
    · change (s.recorder.trace.typeReferences.insert ref.id type)[ref.id]? = _
      exact Std.TreeMap.getElem?_insert_self
  unfold resolveTypeRef
  simp only [after_bind, after_get]
  cases hknown : s.trace.typeReference? ref.id with
  | some type => exact ⟨.refl s, hknown⟩
  | none =>
      dsimp only
      split
      · exact hrecord _ s hknown
      · have hreport : ∀ d, After (report d) s fun _ s₁ =>
            Session.Records [] s s₁ ∧ s₁.trace.typeReference? ref.id = none :=
          fun d => ⟨(enters_report d).after s, hknown⟩
        refine After.bind (hreport _) fun _ s₁ h₁ => ?_
        refine After.mono (hrecord _ s₁ h₁.2) fun type s₂ h₂ => ?_
        exact ⟨h₁.1.append h₂.1, h₂.2⟩

theorem enters_resolveTypeRef (scope : Nat) (ref : TypeRef) :
    Enters [] (resolveTypeRef scope ref) :=
  ⟨fun s => (after_resolveTypeRef_records scope ref s).1⟩

theorem enters_declaredType (scope : Nat) (typeRef : Option TypeRef) :
    Enters [] (typeRef.mapM (resolveTypeRef scope)) :=
  Keeps.optionMapM _ fun ref _ => enters_resolveTypeRef scope ref

theorem enters_declareLocal
    (scope node : Nat) (name : String) (mutable : Bool) (declared initialized : Option Ty) :
    Enters [] (declareLocal scope node name mutable declared initialized) := by
  have htype : Enters [] (localType node declared initialized) := by
    unfold localType
    split
    · exact Logs.pure _
    · exact Logs.bind_first (enters_report _) fun _ => Logs.pure _
  rw [declareLocal_eq]
  refine Logs.bind_first htype fun type => Logs.get_bind fun s => ?_
  refine Logs.bind_first (enters_createVariable ..) fun local_ => ?_
  exact Logs.bind_first (enters_addVariable ..) fun _ => enters_recordDeclaration node local_

/-! ### Expressions -/

/-- The type of an expression is recorded last, in a slot that was vacant. -/
theorem typesIn_of_recordsIn_inferForm
    {e : Expr} (h : EntersIn named scope (e.recordings named).dropLast (inferForm scope e)) :
    TypesIn named scope [e] ([·]) (infer scope e) := by
  intro s hs
  rw [infer_eq]
  have hform : After (inferForm scope e) s fun _ s₁ =>
      Session.Records (e.recordings named).dropLast s s₁ :=
    After.mono (h.after s) fun _ _ h => h hs
  refine After.bind hform fun type s₁ h₁ => ?_
  have hrecordings : Expr.recordingsOf named [e] =
      (e.recordings named).dropLast ++ [.type e.id] := by
    rw [← Expr.recordings_eq, Expr.recordingsOf, Expr.recordingsOf, List.append_nil]
  have hslot : Session.Records [.type e.id] s₁ ((recordKnownType e.id type).run s₁).2 := by
    cases type with
    | some type => exact (enters_recordExpressionType e.id type).after s₁
    | none =>
        refine .of_slot rfl rfl (fun slot _ => .refl s₁ slot) fun call hcall => ?_
        cases hcall
  refine ⟨hrecordings ▸ h₁.append hslot, fun hdistinct hvacant => ?_⟩
  rw [hrecordings] at hdistinct hvacant
  rw [List.map_append] at hdistinct
  have hapart := (List.nodup_append.mp hdistinct).2.2
  have hvacant₁ : s₁.trace.expressionType? e.id = none := by
    have hother : .type e.id ∉ (e.recordings named).dropLast.map Recording.slot := fun hmem =>
      hapart _ hmem _ (List.mem_singleton_self _) rfl
    have hmem : Recording.type e.id ∈ (e.recordings named).dropLast ++ [.type e.id] :=
      List.mem_append_right _ (List.mem_singleton_self _)
    exact (h₁.same hother).vacant (hvacant _ hmem)
  refine congrArg (fun type => [type]) ?_
  cases type with
  | none => exact hvacant₁
  | some type => exact Std.TreeMap.getElem?_insert_self

mutual

/-- Typing an expression records what its log says, its own type last. -/
theorem typesIn_infer (named : String → List Nat) (scope : Nat) (e : Expr) :
    TypesIn named scope [e] ([·]) (infer scope e) := by
  refine typesIn_of_recordsIn_inferForm ?_
  match e with
  | .constant _ (.int _) | .constant _ (.double _) | .constant _ (.string _)
  | .constant _ (.bool _) | .breakLoop _ | .continueLoop _ | .ret _ none | .lambda .. =>
      exact Logs.pure _
  | .name node name => exact ((enters_inferName scope node name).inScope named scope).map some
  | .dot node receiver name =>
      rw [Expr.recordings, List.dropLast_concat]
      refine Logs.bind (typesIn_infer named scope receiver).recordsIn fun type => ?_
      cases type with
      | none => exact (enters_noReference node _).inScope named scope
      | some type => exact ((enters_inferMember node type name).inScope named scope).map some
  | .block _ statements =>
      rw [Expr.recordings, List.dropLast_concat]
      exact Logs.bind_from (fun s hs => after_createScope_records hs .block none)
        fun block => entersIn_inferStatements named block _ statements
  | .cond _ condition thenBranch none | .whileLoop _ condition thenBranch =>
      rw [Expr.recordings, List.dropLast_concat]
      refine Logs.bind (typesIn_infer named scope condition).recordsIn fun type => ?_
      refine Logs.bind_first ((enters_expectKnownType ..).inScope named scope) fun _ => ?_
      exact Logs.bind_last (typesIn_infer named scope thenBranch).recordsIn fun _ => Logs.pure _
  | .cond _ condition thenBranch (some elseBranch) =>
      rw [Expr.recordings, List.dropLast_concat]
      refine Logs.bind (typesIn_infer named scope condition).recordsIn fun type => ?_
      refine Logs.bind_first ((enters_expectKnownType ..).inScope named scope) fun _ => ?_
      refine Logs.bind (typesIn_infer named scope thenBranch).recordsIn fun thenType => ?_
      refine Logs.bind_last (typesIn_infer named scope elseBranch).recordsIn fun elseType => ?_
      split
      · exact Logs.get_bind fun _ => Logs.pure _
      · exact Logs.pure _
  | .doWhileLoop _ body condition =>
      rw [Expr.recordings, List.dropLast_concat]
      refine Logs.bind (typesIn_infer named scope body).recordsIn fun _ => ?_
      refine Logs.bind_last (typesIn_infer named scope condition).recordsIn fun type => ?_
      exact Logs.bind_first ((enters_expectKnownType ..).inScope named scope)
        fun _ => Logs.pure _
  | .ret _ (some value) =>
      rw [Expr.recordings, List.dropLast_concat]
      exact Logs.bind_last (typesIn_infer named scope value).recordsIn fun _ => Logs.pure _
  | .binary node operator left right =>
      rw [Expr.recordings, List.dropLast_concat]
      refine Logs.bind (typesIn_infer named scope left).recordsIn fun leftType => ?_
      refine Logs.bind_last (typesIn_infer named scope right).recordsIn fun rightType => ?_
      split
      · exact ((enters_inferOperator ..).inScope named scope).map some
      · exact Logs.pure _
  | .assign _ target value =>
      rw [Expr.recordings, List.dropLast_concat]
      have htarget : EntersIn named scope
          (if isAssignable target then target.recordings named else [])
          (inferTarget scope target) := by
        unfold inferTarget
        split
        · exact (typesIn_infer named scope target).recordsIn
        · exact Logs.bind_first ((enters_report _).inScope named scope) fun _ => Logs.pure _
      refine Logs.bind htarget fun targetType => ?_
      refine Logs.bind_first ((enters_checkReassignment target).inScope named scope) fun _ => ?_
      refine Logs.bind_last (typesIn_infer named scope value).recordsIn fun type => ?_
      exact Logs.bind_first ((enters_expectKnownType ..).inScope named scope)
        fun _ => Logs.pure _
  | .call node callee arguments =>
      rw [Expr.recordings, List.dropLast_concat]
      exact (entersIn_inferCall (typesIn_inferArguments named scope arguments)).map some
  | .localVariable node name mutable typeRef none =>
      refine Logs.bind_first ((enters_declaredType scope typeRef).inScope named scope)
        fun declared => ?_
      exact Logs.bind_first ((enters_declareLocal ..).inScope named scope) fun _ => Logs.pure _
  | .localVariable node name mutable typeRef (some initializer) =>
      rw [Expr.recordings, List.dropLast_concat]
      refine Logs.bind_first ((enters_declaredType scope typeRef).inScope named scope)
        fun declared => ?_
      refine Logs.bind_last (typesIn_infer named scope initializer).recordsIn
        fun initialized => ?_
      refine Logs.bind_first ((enters_expectKnownType ..).inScope named scope) fun _ => ?_
      exact Logs.bind_first ((enters_declareLocal ..).inScope named scope) fun _ => Logs.pure _

theorem entersIn_inferStatements
    (named : String → List Nat) (scope : Nat) (last : Option Ty) (es : List Expr) :
    EntersIn named scope (Expr.recordingsOf named es) (inferStatements scope last es) := by
  match es with
  | [] => exact Logs.pure _
  | e :: rest =>
      refine Logs.bind (typesIn_infer named scope e).recordsIn fun type => ?_
      exact entersIn_inferStatements named scope type rest

theorem typesIn_inferArguments (named : String → List Nat) (scope : Nat) (es : List Expr) :
    TypesIn named scope es id (inferArguments scope es) := by
  match es with
  | [] => exact fun s _ => Session.TypesAs.nil s
  | e :: rest =>
      intro s hs
      refine After.bind (typesIn_infer named scope e s hs) fun type s₁ h₁ => ?_
      have hs₁ := h₁.records.offers hs
      have hrest := typesIn_inferArguments named scope rest s₁ hs₁
      exact After.bind hrest fun types s₂ h₂ => h₁.cons h₂

end

theorem entersIn_infer (named : String → List Nat) (scope : Nat) (e : Expr) :
    EntersIn named scope (e.recordings named) (infer scope e) :=
  (typesIn_infer named scope e).recordsIn

end Analysis

end DeclAnalysis
