import DeclAnalysis.Proofs.Computation
import DeclAnalysis.Proofs.Typing.Follows
import DeclAnalysis.Typing.Check

/-!
# Typing without what is unreachable

What has been reported is never looked at. If what has been said about unreachable code is left
out of a session, typing says and does the same as without leaving it out, because none of it is
about unreachable code.
-/

namespace DeclAnalysis

/-!
## Computations that mirror each other

A map of states relates two computations if it does not matter whether it is applied before the
one or after the other: from the image of a state the second computation gives the same result as
the first one from the state itself, and leads to the image of the state to which that leads.
-/

variable {σ τ α β : Type} {h : σ → τ}

/-- From the image of a state the second computation does what the first one does from the state
itself. -/
structure Mirrors (h : σ → τ) (x : StateM σ α) (y : StateM τ α) : Prop where
  run_eq : ∀ s, y.run (h s) = ((x.run s).1, h (x.run s).2)

/-- Computations that may stop with a fault, if they do, stop with the same one. -/
def MirrorsOr (h : σ → τ) (x : ExceptT Fault (StateM σ) α) (y : ExceptT Fault (StateM τ) α) : Prop :=
  Mirrors h x.run y.run

/-! ## Computations that always give a result -/

namespace Mirrors

theorem pure (a : α) : Mirrors h (Pure.pure a) (Pure.pure a) := ⟨fun _ => rfl⟩

theorem bind
    {x : StateM σ α} {y : StateM τ α} {f : α → StateM σ β} {g : α → StateM τ β}
    (hx : Mirrors h x y) (hf : ∀ a, Mirrors h (f a) (g a)) : Mirrors h (x >>= f) (y >>= g) := by
  refine ⟨fun s => ?_⟩
  rw [StateT.run_bind, hx.run_eq s]
  exact (hf (x.run s).1).run_eq (x.run s).2

theorem map
    {x : StateM σ α} {y : StateM τ α} (hx : Mirrors h x y) (f : α → β) :
    Mirrors h (f <$> x) (f <$> y) :=
  hx.bind fun a => .pure (f a)

theorem get_bind
    {f : σ → StateM σ β} {g : τ → StateM τ β} (hf : ∀ s, Mirrors h (f s) (g (h s))) :
    Mirrors h (get >>= f) (get >>= g) :=
  ⟨fun s => (hf s).run_eq s⟩

theorem modify
    {f : σ → σ} {g : τ → τ} (hf : ∀ s, g (h s) = h (f s)) : Mirrors h (modify f) (modify g) :=
  ⟨fun s => congrArg (Prod.mk _) (hf s)⟩

theorem modifyGet
    {f : σ → α × σ} {g : τ → α × τ} (hf : ∀ s, g (h s) = ((f s).1, h (f s).2)) :
    Mirrors h (modifyGet f) (modifyGet g) :=
  ⟨hf⟩

theorem optionMapM
    {f : α → StateM σ β} {g : α → StateM τ β} (o : Option α)
    (hf : ∀ a ∈ o, Mirrors h (f a) (g a)) : Mirrors h (o.mapM f) (o.mapM g) := by
  cases o with
  | none => exact .pure none
  | some a => exact (hf a rfl).map some

end Mirrors

/-! ## Computations that may stop with a fault -/

namespace MirrorsOr

theorem pure (a : α) : MirrorsOr h (Pure.pure a) (Pure.pure a) := Mirrors.pure (Except.ok a)

theorem throw (fault : Fault) :
    MirrorsOr h (throw fault : ExceptT Fault (StateM σ) α) (throw fault) :=
  Mirrors.pure (Except.error fault)

theorem bind
    {x : ExceptT Fault (StateM σ) α} {y : ExceptT Fault (StateM τ) α}
    {f : α → ExceptT Fault (StateM σ) β} {g : α → ExceptT Fault (StateM τ) β}
    (hx : MirrorsOr h x y) (hf : ∀ a, MirrorsOr h (f a) (g a)) :
    MirrorsOr h (x >>= f) (y >>= g) := by
  unfold MirrorsOr
  rw [ExceptT.run_bind, ExceptT.run_bind]
  refine Mirrors.bind hx fun result => ?_
  cases result with
  | ok a => exact hf a
  | error fault => exact .pure _

theorem get_bind
    {f : σ → ExceptT Fault (StateM σ) β} {g : τ → ExceptT Fault (StateM τ) β}
    (hf : ∀ s, MirrorsOr h (f s) (g (h s))) : MirrorsOr h (get >>= f) (get >>= g) :=
  ⟨fun s => (hf s).run_eq s⟩

theorem lift {x : StateM σ α} {y : StateM τ α} (hx : Mirrors h x y) :
    MirrorsOr h (liftM x : ExceptT Fault (StateM σ) α) (liftM y) :=
  hx.map Except.ok

theorem forM
    {f : α → ExceptT Fault (StateM σ) PUnit} {g : α → ExceptT Fault (StateM τ) PUnit}
    (xs : List α) (hf : ∀ a ∈ xs, MirrorsOr h (f a) (g a)) :
    MirrorsOr h (xs.forM f) (xs.forM g) := by
  induction xs with
  | nil => exact .pure PUnit.unit
  | cons a xs ih =>
      refine (hf a List.mem_cons_self).bind fun _ => ?_
      exact ih fun c hc => hf c (List.mem_cons_of_mem a hc)

/-- Steps of which the other computation does not do any. -/
theorem forM_nothing
    {f : α → ExceptT Fault (StateM σ) PUnit} (xs : List α)
    (hf : ∀ a, MirrorsOr h (f a) (Pure.pure PUnit.unit)) :
    MirrorsOr h (xs.forM f) (Pure.pure PUnit.unit) := by
  induction xs with
  | nil => exact .pure PUnit.unit
  | cons a xs ih => exact (hf a).bind fun _ => ih

end MirrorsOr

/-! ## Sessions without reports about unreachable code -/

namespace Session

/-- The session without what has been reported about unreachable code. -/
def silenced (s : Session) : Session :=
  { s with diagnostics := s.diagnostics.filter fun d => d.code ≠ .unreachableCode }

@[simp] theorem model_silenced (s : Session) : s.silenced.model = s.model := rfl

@[simp] theorem recorder_silenced (s : Session) : s.silenced.recorder = s.recorder := rfl

@[simp] theorem descriptors_silenced (s : Session) : s.silenced.descriptors = s.descriptors := rfl

theorem silenced_push (s : Session) {d : Diagnostic} (hd : d.code ≠ .unreachableCode) :
    { s.silenced with diagnostics := s.silenced.diagnostics.push d } =
      silenced { s with diagnostics := s.diagnostics.push d } := by
  have hfilter := s.diagnostics.filter_push_of_pos
    (p := fun d => decide (d.code ≠ .unreachableCode)) (decide_eq_true hd) (Array.size_push d)
  exact congrArg (fun ds => { s with diagnostics := ds }) hfilter.symm

theorem silenced_push_unreachable (s : Session) {d : Diagnostic} (hd : d.code = .unreachableCode) :
    silenced { s with diagnostics := s.diagnostics.push d } = s.silenced := by
  have hfilter := s.diagnostics.filter_push_of_neg
    (p := fun d => decide (d.code ≠ .unreachableCode)) (mt of_decide_eq_true (not_not_intro hd))
    (Array.size_push d)
  exact congrArg (fun ds => { s with diagnostics := ds }) hfilter

end Session

namespace Analysis

open Session (silenced)

variable {α β : Type}

/-- It does not matter whether what is said about unreachable code is left out before or after the
computation. -/
def Discreet (x : Analysis α) : Prop := Mirrors silenced x x

/-- It does not matter either whether the computation stops with a fault. -/
def DiscreetOr (x : FaultyAnalysis α) : Prop := MirrorsOr silenced x x

/-! ## Combining computations -/

theorem Discreet.pure (a : α) : Discreet (Pure.pure a) := Mirrors.pure a

theorem Discreet.bind
    {x : Analysis α} {f : α → Analysis β} (hx : Discreet x) (hf : ∀ a, Discreet (f a)) :
    Discreet (x >>= f) :=
  Mirrors.bind hx hf

theorem Discreet.map {x : Analysis α} (hx : Discreet x) (f : α → β) : Discreet (f <$> x) :=
  Mirrors.map hx f

/-- What has been reported is not looked at. -/
theorem Discreet.get_bind
    {f : Session → Analysis β} (hf : ∀ s, Discreet (f s)) (hsame : ∀ s, f s.silenced = f s) :
    Discreet (get >>= f) :=
  Mirrors.get_bind fun s => hsame s ▸ hf s

theorem DiscreetOr.pure (a : α) : DiscreetOr (Pure.pure a) := MirrorsOr.pure a

theorem DiscreetOr.throw (fault : Fault) : DiscreetOr (throw fault : FaultyAnalysis α) :=
  MirrorsOr.throw fault

theorem DiscreetOr.bind
    {x : FaultyAnalysis α} {f : α → FaultyAnalysis β} (hx : DiscreetOr x)
    (hf : ∀ a, DiscreetOr (f a)) : DiscreetOr (x >>= f) :=
  MirrorsOr.bind hx hf

theorem DiscreetOr.get_bind
    {f : Session → FaultyAnalysis β} (hf : ∀ s, DiscreetOr (f s))
    (hsame : ∀ s, f s.silenced = f s) : DiscreetOr (get >>= f) :=
  MirrorsOr.get_bind fun s => hsame s ▸ hf s

theorem Discreet.lift {x : Analysis α} (hx : Discreet x) :
    DiscreetOr (liftM x : FaultyAnalysis α) :=
  MirrorsOr.lift hx

/-! ## Operations on the session -/

theorem discreet_report {d : Diagnostic} (hd : d.code ≠ .unreachableCode) : Discreet (report d) :=
  Mirrors.modify fun s => s.silenced_push hd

theorem discreet_reportCode
    {code : DiagnosticCode} (hcode : code ≠ .unreachableCode) (node : Nat) (message : String) :
    Discreet (reportCode code node message) :=
  discreet_report hcode

theorem discreet_onRecorder (f : Recorder → Recorder) : Discreet (onRecorder f) :=
  Mirrors.modify fun _ => rfl

theorem discreet_recordReference (node : Nat) (kind : ReferenceKind) (descriptor : Nat) :
    Discreet (recordReference node kind descriptor) :=
  discreet_onRecorder _

theorem discreet_onScopes (f : ScopeTree → ScopeTree) : Discreet (onScopes f) :=
  Mirrors.modify fun _ => rfl

theorem discreet_onDescriptors (f : DescriptorTable → DescriptorTable) :
    Discreet (onDescriptors f) :=
  Mirrors.modify fun _ => rfl

theorem discreet_createScope (kind : ScopeKind) (parent owner : Option Nat) :
    Discreet (createScope kind parent owner) :=
  Mirrors.modifyGet fun _ => rfl

theorem discreet_createDescriptor
    (name : String) (container : Option Nat) (kind : DescriptorKind) :
    Discreet (createDescriptor name container kind) :=
  Mirrors.modifyGet fun _ => rfl

theorem discreetOr_tryDescriptors (f : DescriptorTable → Except Fault DescriptorTable) :
    DiscreetOr (tryDescriptors f) := by
  refine .get_bind (fun s => ?_) fun _ => rfl
  cases f s.model.descriptors with
  | ok t => exact (discreet_onDescriptors _).lift
  | error fault => exact .throw fault

theorem discreetOr_functionInnerScope (outer function : Nat) :
    DiscreetOr (functionInnerScope outer function) := by
  refine .get_bind (fun s => ?_) fun _ => rfl
  cases s.model.functionInnerScope outer function with
  | ok result => exact .bind (MirrorsOr.lift (Mirrors.modify fun _ => rfl)) fun _ => .pure _
  | error fault => exact .throw fault

/-- An observer notes the same. -/
theorem mirrorsOr_observed
    (o : Observer) {x y : FaultyAnalysis Unit} (h : MirrorsOr silenced x y) :
    MirrorsOr silenced (observed o x) (observed o y) := by
  refine Mirrors.bind (discreet_onRecorder _) fun _ => Mirrors.bind h fun outcome => ?_
  exact Mirrors.bind (Mirrors.modifyGet fun _ => rfl) fun noted => .pure _

/-! ## Types and names -/

theorem discreet_resolveTypeRef (scope : Nat) (ref : TypeRef) :
    Discreet (resolveTypeRef scope ref) := by
  refine .get_bind (fun s => ?_) fun _ => rfl
  cases s.trace.typeReference? ref.id with
  | some type => exact .pure type
  | none =>
      have hrecord : ∀ type : Ty, Discreet (do
          recordTypeReference ref.id type
          return type) :=
        fun type => (discreet_onRecorder _).bind fun _ => .pure type
      cases s.model.lookupType? scope ref.name with
      | some type => exact hrecord type
      | none => exact Discreet.bind (discreet_reportCode (by decide) ..) fun _ => hrecord _

theorem discreet_unresolved (node : Nat) (name : String) : Discreet (unresolved node name) :=
  Discreet.bind (discreet_reportCode (by decide) ..) fun _ => .pure _

theorem discreet_referToValue (node : Nat) (kind : ReferenceKind) (name : String) (value : Nat) :
    Discreet (referToValue node kind name value) :=
  (discreet_onRecorder _).bind fun _ => .get_bind (fun _ => .pure _) fun _ => rfl

theorem discreet_referToNamespace (node ns : Nat) : Discreet (referToNamespace node ns) :=
  (discreet_onRecorder _).bind fun _ => .get_bind (fun _ => .pure _) fun _ => rfl

theorem discreet_inferName (scope node : Nat) (name : String) :
    Discreet (inferName scope node name) := by
  refine .get_bind (fun s => ?_) fun _ => rfl
  dsimp only
  split
  · split
    · exact discreet_referToValue ..
    · exact discreet_unresolved ..
  · split
    · exact discreet_referToValue ..
    · exact discreet_referToNamespace ..
    · exact discreet_unresolved ..

theorem discreet_inferMember (node : Nat) (receiver : Ty) (name : String) :
    Discreet (inferMember node receiver name) := by
  unfold inferMember
  split
  · exact .pure receiver
  · refine .get_bind (fun s => ?_) fun _ => rfl
    split
    · exact Discreet.bind (discreet_reportCode (by decide) ..) fun _ => .pure _
    · split
      · exact discreet_referToValue ..
      · exact discreet_referToNamespace ..
      · exact discreet_unresolved ..

/-! ## Operators, assignments and calls -/

theorem discreet_reportMismatch (node : Nat) (expected actual : Ty) :
    Discreet (reportMismatch node expected actual) :=
  discreet_reportCode (by decide) ..

theorem discreet_expectType (node : Nat) (expected actual : Ty) :
    Discreet (expectType node expected actual) := by
  refine .get_bind (fun s => ?_) fun _ => rfl
  split
  · exact discreet_reportMismatch ..
  · exact .pure _

theorem discreet_expectKnownType (node : Nat) (expected actual : Option Ty) :
    Discreet (expectKnownType node expected actual) := by
  unfold expectKnownType
  split
  · exact discreet_expectType ..
  · exact .pure _

theorem discreet_inferOperator (node : Nat) (operator : BinaryOperator) (left right : Ty) :
    Discreet (inferOperator node operator left right) := by
  unfold inferOperator
  split
  · exact .pure left
  · split
    · exact .pure right
    · split
      · exact .pure _
      · exact Discreet.bind (discreet_reportCode (by decide) ..) fun _ => .pure _

theorem discreet_checkReassignment (target : Expr) : Discreet (checkReassignment target) := by
  refine .get_bind (fun s => ?_) fun _ => rfl
  split
  · exact .pure _
  · split
    · exact discreet_reportCode (by decide) ..
    · exact .pure _

theorem discreet_selectCandidate? (candidates : List Nat) (arguments : List (Option Ty)) :
    Discreet (selectCandidate? candidates arguments) :=
  .get_bind (fun _ => .pure _) fun _ => rfl

theorem discreet_callFunction
    (node : Nat) (name : String) (functions : List Nat) (arguments : List (Option Ty)) :
    Discreet (callFunction node name functions arguments) := by
  refine (discreet_selectCandidate? functions arguments).bind fun selected => ?_
  cases selected with
  | some function =>
      exact (discreet_onRecorder _).bind fun _ => .get_bind (fun _ => .pure _) fun _ => rfl
  | none => exact Discreet.bind (discreet_reportCode (by decide) ..) fun _ => .pure _

theorem discreet_matchConstructor
    (node classId : Nat) (classType : Ty) (arguments : List (Option Ty)) :
    Discreet (matchConstructor node classId classType arguments) := by
  rw [matchConstructor_eq]
  refine .get_bind (fun s => ?_) fun _ => rfl
  dsimp only
  split
  · exact .pure _
  · refine (discreet_selectCandidate? ..).bind fun selected => ?_
    cases selected with
    | some constructor => exact discreet_recordReference ..
    | none => exact discreet_reportCode (by decide) ..

theorem discreet_inferCall
    (scope node : Nat) (callee : String) (arguments : List (Option Ty)) :
    Discreet (inferCall scope node callee arguments) := by
  refine .get_bind (fun s => ?_) fun _ => rfl
  split
  · split
    · exact (discreet_matchConstructor ..).bind fun _ => .pure _
    · exact discreet_unresolved ..
  · exact discreet_callFunction ..

theorem discreet_declareLocal
    (scope node : Nat) (name : String) (mutable : Bool) (declared initialized : Option Ty) :
    Discreet (declareLocal scope node name mutable declared initialized) := by
  rw [declareLocal_eq]
  have htype : Discreet (localType node declared initialized) := by
    unfold localType
    split
    · exact .pure _
    · exact Discreet.bind (discreet_reportCode (by decide) ..) fun _ => .pure _
  refine htype.bind fun type => .get_bind (fun s => ?_) fun _ => rfl
  refine (discreet_createDescriptor ..).bind fun v => ?_
  exact (discreet_onScopes _).bind fun _ => discreet_onRecorder _

/-! ## Expressions -/

theorem discreet_recordKnownType (node : Nat) (type : Option Ty) :
    Discreet (recordKnownType node type) := by
  cases type with
  | none => exact .pure _
  | some type => exact discreet_onRecorder (·.recordExpressionType node type)

mutual

/-- Typing an expression is discreet. -/
theorem discreet_infer (scope : Nat) (e : Expr) : Discreet (infer scope e) := by
  rw [infer_eq]
  refine Discreet.bind ?_ fun type => (discreet_recordKnownType e.id type).bind fun _ => .pure type
  match e with
  | .constant _ (.int _) | .constant _ (.double _) | .constant _ (.string _)
  | .constant _ (.bool _) | .breakLoop _ | .continueLoop _ | .ret _ none | .lambda .. =>
      exact .pure _
  | .name node name => exact (discreet_inferName scope node name).map some
  | .dot node receiver name =>
      refine (discreet_infer scope receiver).bind fun type => ?_
      cases type with
      | none => exact .pure none
      | some type => exact (discreet_inferMember node type name).map some
  | .block _ statements =>
      exact (discreet_createScope ..).bind fun block => discreet_inferStatements block _ statements
  | .cond _ condition thenBranch none =>
      refine (discreet_infer scope condition).bind fun type => ?_
      refine (discreet_expectKnownType ..).bind fun _ => ?_
      exact (discreet_infer scope thenBranch).bind fun _ => .pure _
  | .cond _ condition thenBranch (some elseBranch) =>
      refine (discreet_infer scope condition).bind fun type => ?_
      refine (discreet_expectKnownType ..).bind fun _ => ?_
      refine (discreet_infer scope thenBranch).bind fun thenType => ?_
      refine (discreet_infer scope elseBranch).bind fun elseType => ?_
      split
      · exact .get_bind (fun _ => .pure _) fun _ => rfl
      · exact .pure none
  | .whileLoop _ condition body =>
      refine (discreet_infer scope condition).bind fun type => ?_
      refine (discreet_expectKnownType ..).bind fun _ => ?_
      exact (discreet_infer scope body).bind fun _ => .pure _
  | .doWhileLoop _ body condition =>
      refine (discreet_infer scope body).bind fun _ => ?_
      refine (discreet_infer scope condition).bind fun type => ?_
      exact (discreet_expectKnownType ..).bind fun _ => .pure _
  | .ret _ (some value) => exact (discreet_infer scope value).bind fun _ => .pure _
  | .binary node operator left right =>
      refine (discreet_infer scope left).bind fun leftType => ?_
      refine (discreet_infer scope right).bind fun rightType => ?_
      split
      · exact (discreet_inferOperator ..).map some
      · exact .pure none
  | .assign _ target value =>
      have htarget : Discreet (inferTarget scope target) := by
        unfold inferTarget
        split
        · exact discreet_infer scope target
        · exact Discreet.bind (discreet_reportCode (by decide) ..) fun _ => .pure none
      refine htarget.bind fun targetType => (discreet_checkReassignment target).bind fun _ => ?_
      refine (discreet_infer scope value).bind fun valueType => ?_
      exact (discreet_expectKnownType ..).bind fun _ => .pure _
  | .call node callee arguments =>
      refine (discreet_inferArguments scope arguments).bind fun types => ?_
      exact (discreet_inferCall scope node callee types).map some
  | .localVariable node name mutable typeRef none =>
      refine Discreet.bind (Mirrors.optionMapM typeRef fun ref _ => ?_) fun declared => ?_
      · exact discreet_resolveTypeRef scope ref
      · exact (discreet_declareLocal ..).bind fun _ => .pure _
  | .localVariable node name mutable typeRef (some initializer) =>
      refine Discreet.bind (Mirrors.optionMapM typeRef fun ref _ => ?_) fun declared => ?_
      · exact discreet_resolveTypeRef scope ref
      · refine (discreet_infer scope initializer).bind fun initialized => ?_
        refine (discreet_expectKnownType ..).bind fun _ => ?_
        exact (discreet_declareLocal ..).bind fun _ => .pure _

theorem discreet_inferStatements (scope : Nat) (last : Option Ty) (es : List Expr) :
    Discreet (inferStatements scope last es) := by
  match es with
  | [] => exact .pure last
  | e :: rest =>
      exact (discreet_infer scope e).bind fun type => discreet_inferStatements scope type rest

theorem discreet_inferArguments (scope : Nat) (es : List Expr) :
    Discreet (inferArguments scope es) := by
  match es with
  | [] => exact .pure []
  | e :: rest =>
      refine (discreet_infer scope e).bind fun type => ?_
      exact (discreet_inferArguments scope rest).bind fun types => .pure _

end

/-! ## Calls of constructors and bodies -/

theorem discreet_checkClassConstructorCall
    (scope classId : Nat) (classType : Ty) (node : Nat) (arguments : List Expr) :
    Discreet (checkClassConstructorCall scope classId classType node arguments) :=
  (discreet_inferArguments scope arguments).bind fun _ => discreet_matchConstructor ..

theorem discreet_checkConstructorCall
    (scope : Nat) (ref : TypeRef) (node : Nat) (arguments : List Expr) :
    Discreet (checkConstructorCall scope ref node arguments) := by
  refine (discreet_resolveTypeRef scope ref).bind fun type => ?_
  split
  · exact discreet_checkClassConstructorCall ..
  · refine (discreet_inferArguments scope arguments).bind fun _ => ?_
    split
    · exact discreet_reportCode (by decide) ..
    · exact .pure _

theorem discreetOr_returnPoints (flow : FlowInformation) (node : Nat) :
    DiscreetOr (returnPoints flow node) := by
  unfold returnPoints
  split
  · refine DiscreetOr.bind (MirrorsOr.forM _ fun element _ => ?_) fun _ => .pure _
    exact (discreet_reportCode (by decide) ..).lift
  · exact .throw _

theorem discreetOr_checkReturnType
    (flow : FlowInformation) (scope node : Nat) (body : Option Expr) (function : Nat) :
    DiscreetOr (checkReturnType flow scope node body function) := by
  refine .get_bind (fun s => ?_) fun _ => rfl
  split
  · exact .throw _
  split
  · exact .pure _
  rename_i body
  refine (discreet_infer scope body).lift.bind fun _ => ?_
  refine (discreetOr_returnPoints flow node).bind fun points => ?_
  refine DiscreetOr.bind (MirrorsOr.forM _ fun element _ => ?_) fun _ => ?_
  · exact DiscreetOr.get_bind (fun s => (discreet_expectKnownType ..).lift) fun _ => rfl
  refine .get_bind (fun s => ?_) fun _ => rfl
  split
  · exact MirrorsOr.forM _ fun element _ => (discreet_reportMismatch ..).lift
  · exact .pure _

theorem discreetOr_inferReturnType
    (flow : FlowInformation) (scope node : Nat) (body : Option Expr) :
    DiscreetOr (inferReturnType flow scope node body) := by
  cases body with
  | none => exact .pure none
  | some body =>
      refine (discreet_infer scope body).lift.bind fun _ => ?_
      refine (discreetOr_returnPoints flow node).bind fun points => ?_
      exact .get_bind (fun _ => .pure _) fun _ => rfl

end Analysis

end DeclAnalysis
