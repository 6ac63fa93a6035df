import Mathlib.Data.List.Basic
import DeclAnalysis.Proofs.Session.Change

/-!
# Observers change nothing

Whatever is done to a trace is done to it through the observers that watch it. An observer is
transparent: what is known afterwards, and what is answered on the way, is the same as without it,
except that the tracker of a property has a backing field recorded. A guard notes the references to
backing fields that there are not at the moment of the reference.
-/

namespace DeclAnalysis

namespace Trace

theorem hasBackingField_recordBackingField (t : Trace) (property p : Nat) :
    (t.recordBackingField property).hasBackingField p =
      (t.hasBackingField p || decide (p = property)) := by
  unfold recordBackingField hasBackingField
  dsimp only
  rw [Std.TreeSet.contains_insert, Bool.beq_eq_decide_eq, Bool.or_comm]
  simp only [Std.LawfulEqCmp.compare_eq_iff_eq]
  simp only [eq_comm]

/-- The same is known, and some properties have a backing field in addition. -/
structure ExtendsBy (fields : Nat → Bool) (t t' : Trace) : Prop where
  declarations : t'.declarations = t.declarations
  references : t'.references = t.references
  expressionTypes : t'.expressionTypes = t.expressionTypes
  typeReferences : t'.typeReferences = t.typeReferences
  hasBackingField : ∀ property,
    t'.hasBackingField property = (t.hasBackingField property || fields property)

namespace ExtendsBy

variable {fields fields' : Nat → Bool} {t t' : Trace} (h : ExtendsBy fields t t')

include h

theorem congr (heq : ∀ property, fields' property = fields property) : ExtendsBy fields' t t' := by
  obtain rfl : fields' = fields := funext heq
  exact h

theorem recordDeclaration (node descriptor : Nat) :
    ExtendsBy fields (t.recordDeclaration node descriptor)
      (t'.recordDeclaration node descriptor) :=
  { h with declarations := congrArg (·.insert node descriptor) h.declarations }

theorem recordReference (node : Nat) (kind : ReferenceKind) (descriptor : Nat) :
    ExtendsBy fields (t.recordReference node kind descriptor)
      (t'.recordReference node kind descriptor) :=
  { h with references := congrArg (·.insert node (kind, descriptor)) h.references }

theorem recordExpressionType (node : Nat) (type : Ty) :
    ExtendsBy fields (t.recordExpressionType node type) (t'.recordExpressionType node type) :=
  { h with expressionTypes := congrArg (·.insert node type) h.expressionTypes }

theorem recordTypeReference (node : Nat) (type : Ty) :
    ExtendsBy fields (t.recordTypeReference node type) (t'.recordTypeReference node type) :=
  { h with typeReferences := congrArg (·.insert node type) h.typeReferences }

theorem recordBackingField (property : Nat) :
    ExtendsBy fields (t.recordBackingField property) (t'.recordBackingField property) :=
  { h with
    hasBackingField := fun p => by
      rw [hasBackingField_recordBackingField, hasBackingField_recordBackingField,
        h.hasBackingField, Bool.or_right_comm] }

end ExtendsBy

end Trace

namespace Observer

variable {node descriptor : Nat} {kind : ReferenceKind} {observers : List Observer} {t : Trace}

/-- Only names of backing fields are looked at. -/
theorem seeAll_identifier (node descriptor : Nat) (observers : List Observer) (t : Trace) :
    seeAll node .identifier descriptor observers t = (observers, t) := by
  induction observers generalizing t with
  | nil => rfl
  | cons o rest ih =>
      have hsee : o.see t node .identifier descriptor = (o, t) := by
        cases o with
        | tracker property => simp [see]
        | guard noted => simp [see]
      simp only [seeAll, hsee, ih]

theorem tracker_eq_see_iff {o : Observer} {property : Nat} :
    tracker property = (o.see t node kind descriptor).1 ↔ tracker property = o := by
  cases o with
  | tracker tracked =>
      dsimp only [see]
      split
      · rfl
      · rfl
  | guard noted =>
      dsimp only [see]
      split
      · simp
      · simp

/-- Trackers go on watching for their properties. -/
theorem tracker_mem_seeAll_iff {property : Nat} :
    tracker property ∈ (seeAll node kind descriptor observers t).1 ↔
      tracker property ∈ observers := by
  induction observers generalizing t with
  | nil => rfl
  | cons o rest ih => simp only [seeAll, List.mem_cons, tracker_eq_see_iff, ih]

theorem hasBackingField_see (o : Observer) (property : Nat) :
    (o.see t node .fieldIdentifier descriptor).2.hasBackingField property =
      (t.hasBackingField property ||
        decide (property = descriptor ∧ tracker descriptor = o)) := by
  cases o with
  | tracker tracked =>
      by_cases htracked : descriptor = tracked
      · simp [see, htracked, Trace.hasBackingField_recordBackingField]
      · simp [see, htracked]
  | guard noted =>
      dsimp only [see]
      split
      · simp
      · simp

/-- A backing field is recorded for the property if there is a tracker of it. -/
theorem hasBackingField_seeAll (observers : List Observer) (t : Trace) (property : Nat) :
    (seeAll node .fieldIdentifier descriptor observers t).2.hasBackingField property =
      (t.hasBackingField property ||
        decide (property = descriptor ∧ tracker descriptor ∈ observers)) := by
  induction observers generalizing t with
  | nil => simp [seeAll]
  | cons o rest ih =>
      simp only [seeAll, ih, hasBackingField_see, List.mem_cons, and_or_left, Bool.decide_or,
        Bool.or_assoc]

end Observer

/-! ## What is done to a trace -/

/-- What can be done to a trace. -/
inductive TraceOperation where
  | recordDeclaration (node descriptor : Nat)
  | recordReference (node : Nat) (kind : ReferenceKind) (descriptor : Nat)
  | recordExpressionType (node : Nat) (type : Ty)
  | recordTypeReference (node : Nat) (type : Ty)
  | recordBackingField (property : Nat)
  | declaration (node : Nat)
  | reference (node : Nat)
  | expressionType (node : Nat)
  | typeReference (node : Nat)
  | hasBackingField (property : Nat)

/-- What is answered. Recording answers only that it is done. -/
inductive TraceAnswer where
  | done
  | descriptor (found : Option Nat)
  | type (found : Option Ty)
  | stored (found : Bool)
deriving DecidableEq

namespace TraceOperation

/-- It records a reference to the backing field of the property. -/
def refersTo (property : Nat) : TraceOperation → Bool
  | recordReference _ .fieldIdentifier descriptor => descriptor = property
  | _ => false

/-- The node at which a reference is recorded to a backing field that there is not. -/
def dangling? (t : Trace) : TraceOperation → Option Nat
  | recordReference node .fieldIdentifier descriptor =>
    if t.hasBackingField descriptor then none else some node
  | _ => none

end TraceOperation

namespace Recorder

variable {r r' : Recorder} {outer : List Observer} {fields : Nat → Bool}

/-- Does one thing to the trace, under the eyes of the observers. -/
def perform (r : Recorder) : TraceOperation → TraceAnswer × Recorder
  | .recordDeclaration node descriptor => (.done, r.recordDeclaration node descriptor)
  | .recordReference node kind descriptor => (.done, r.recordReference node kind descriptor)
  | .recordExpressionType node type => (.done, r.recordExpressionType node type)
  | .recordTypeReference node type => (.done, r.recordTypeReference node type)
  | .recordBackingField property => (.done, r.recordBackingField property)
  | .declaration node => (.descriptor (r.trace.declaration? node), r)
  | .reference node => (.descriptor (r.trace.reference? node), r)
  | .expressionType node => (.type (r.trace.expressionType? node), r)
  | .typeReference node => (.type (r.trace.typeReference? node), r)
  | .hasBackingField property => (.stored (r.trace.hasBackingField property), r)

/-- Does one thing after the other. -/
def performAll (r : Recorder) : List TraceOperation → List TraceAnswer × Recorder
  | [] => ([], r)
  | op :: ops =>
    let (answer, r) := r.perform op
    let (answers, r) := r.performAll ops
    (answer :: answers, r)

/-- What is done, each time with the trace at that moment. -/
def moments (r : Recorder) : List TraceOperation → List (TraceOperation × Trace)
  | [] => []
  | op :: ops => (op, r.trace) :: (r.perform op).2.moments ops

/-- The nodes of the references to backing fields that there are not at the moment at which they are
recorded. -/
def dangling (r : Recorder) (ops : List TraceOperation) : List Nat :=
  (r.moments ops).filterMap fun (op, t) => op.dangling? t

theorem hasBackingField_recordReference (r : Recorder) (node descriptor property : Nat) :
    (r.recordReference node .fieldIdentifier descriptor).trace.hasBackingField property =
      (r.trace.hasBackingField property ||
        decide (property = descriptor ∧ .tracker descriptor ∈ r.observers)) :=
  Observer.hasBackingField_seeAll r.observers r.trace property

theorem recordReference_identifier (r : Recorder) (node descriptor : Nat) :
    r.recordReference node .identifier descriptor =
      { r with trace := r.trace.recordReference node .identifier descriptor } := by
  unfold recordReference
  rw [Observer.seeAll_identifier]

/-! ## Guards -/

theorem recordReference_watch_guard (r : Recorder) (noted : List Nat) (node descriptor : Nat) :
    (r.watch (.guard noted)).recordReference node .fieldIdentifier descriptor =
      (r.recordReference node .fieldIdentifier descriptor).watch
        (.guard (noted ++ if r.trace.hasBackingField descriptor then [] else [node])) := by
  by_cases hstored : r.trace.hasBackingField descriptor = true
  · simp [recordReference, watch, Observer.seeAll, Observer.see, hstored]
  · simp [recordReference, watch, Observer.seeAll, Observer.see, hstored]

/-- A guard leaves alone what is done and what is answered, and notes a reference that dangles. -/
theorem perform_watch_guard (r : Recorder) (noted : List Nat) (op : TraceOperation) :
    (r.watch (.guard noted)).perform op =
      ((r.perform op).1,
        (r.perform op).2.watch (.guard (noted ++ (op.dangling? r.trace).toList))) := by
  cases op with
  | recordReference node kind descriptor =>
      cases kind with
      | identifier =>
          simp [perform, recordReference_identifier, TraceOperation.dangling?, watch]
      | fieldIdentifier =>
          by_cases hstored : r.trace.hasBackingField descriptor = true
          · simp [perform, recordReference_watch_guard, TraceOperation.dangling?, hstored]
          · simp [perform, recordReference_watch_guard, TraceOperation.dangling?, hstored]
  | _ =>
      simp only [TraceOperation.dangling?, Option.toList_none, List.append_nil]
      rfl

theorem performAll_watch_guard (r : Recorder) (noted : List Nat) (ops : List TraceOperation) :
    (r.watch (.guard noted)).performAll ops =
      ((r.performAll ops).1,
        (r.performAll ops).2.watch (.guard (noted ++ r.dangling ops))) := by
  induction ops generalizing r noted with
  | nil => simp [performAll, dangling, moments]
  | cons op ops ih =>
      simp only [performAll, dangling, moments, perform_watch_guard, ih, List.append_assoc]
      cases hdangling : op.dangling? r.trace with
      | none => simp [hdangling]
      | some node => simp [hdangling]

/-! ## Observers around a recorder -/

/-- The one recorder is watched by more observers than the other, and its trace may have recorded
more backing fields. -/
structure Decorates (outer : List Observer) (fields : Nat → Bool) (r r' : Recorder) : Prop where
  trace : r.trace.ExtendsBy fields r'.trace
  tracker_mem_iff : ∀ property, .tracker property ∈ r'.observers ↔
    .tracker property ∈ outer ∨ .tracker property ∈ r.observers

namespace Decorates

theorem of_append (outer : List Observer) (r : Recorder) :
    Decorates outer (fun _ => false) r { r with observers := outer ++ r.observers } where
  trace := ⟨rfl, rfl, rfl, rfl, fun _ => (Bool.or_false _).symm⟩
  tracker_mem_iff _ := List.mem_append

variable (h : Decorates outer fields r r')

include h

theorem answer_eq
    {op : TraceOperation}
    (hop : ∀ property, op = .hasBackingField property → fields property = false) :
    (r'.perform op).1 = (r.perform op).1 := by
  obtain ⟨hdeclarations, hreferences, hexpressionTypes, htypeReferences, hstored⟩ := h.trace
  cases op with
  | declaration | reference | expressionType | typeReference =>
      simp only [perform, Trace.declaration?, Trace.reference?, Trace.expressionType?,
        Trace.typeReference?, hdeclarations, hreferences, hexpressionTypes, htypeReferences]
  | hasBackingField property =>
      simp only [perform, hstored, hop property rfl, Bool.or_false]
  | _ => rfl

/-- A reference to a backing field is seen by more trackers than without the others around. -/
theorem recordReference_fieldIdentifier (node descriptor : Nat) :
    Decorates outer
      (fun p => fields p || (decide (.tracker p ∈ outer) && decide (descriptor = p)))
      (r.recordReference node .fieldIdentifier descriptor)
      (r'.recordReference node .fieldIdentifier descriptor) := by
  obtain ⟨stored, htrace⟩ := Session.trace_recordReference r node .fieldIdentifier descriptor
  obtain ⟨stored', htrace'⟩ := Session.trace_recordReference r' node .fieldIdentifier descriptor
  refine ⟨⟨?_, ?_, ?_, ?_, ?_⟩, ?_⟩
  · rw [htrace, htrace']
    exact h.trace.declarations
  · rw [htrace, htrace']
    exact congrArg (·.insert node (.fieldIdentifier, descriptor)) h.trace.references
  · rw [htrace, htrace']
    exact h.trace.expressionTypes
  · rw [htrace, htrace']
    exact h.trace.typeReferences
  · intro property
    simp only [hasBackingField_recordReference, h.trace.hasBackingField, h.tracker_mem_iff]
    by_cases hproperty : property = descriptor
    · subst hproperty
      simp only [true_and, decide_true, Bool.and_true, Bool.decide_or]
      ac_rfl
    · simp [hproperty, Ne.symm hproperty]
  · intro property
    unfold recordReference
    dsimp only
    rw [Observer.tracker_mem_seeAll_iff, Observer.tracker_mem_seeAll_iff]
    exact h.tracker_mem_iff property

theorem perform (op : TraceOperation) :
    Decorates outer
      (fun p => fields p || (decide (.tracker p ∈ outer) && op.refersTo p))
      (r.perform op).2 (r'.perform op).2 := by
  cases op with
  | recordReference node kind descriptor =>
      cases kind with
      | identifier =>
          simp only [Recorder.perform, recordReference_identifier, TraceOperation.refersTo,
            Bool.and_false, Bool.or_false]
          exact ⟨h.trace.recordReference node .identifier descriptor, h.tracker_mem_iff⟩
      | fieldIdentifier => exact h.recordReference_fieldIdentifier node descriptor
  | recordDeclaration node descriptor =>
      simp only [TraceOperation.refersTo, Bool.and_false, Bool.or_false]
      exact ⟨h.trace.recordDeclaration node descriptor, h.tracker_mem_iff⟩
  | recordExpressionType node type =>
      simp only [TraceOperation.refersTo, Bool.and_false, Bool.or_false]
      exact ⟨h.trace.recordExpressionType node type, h.tracker_mem_iff⟩
  | recordTypeReference node type =>
      simp only [TraceOperation.refersTo, Bool.and_false, Bool.or_false]
      exact ⟨h.trace.recordTypeReference node type, h.tracker_mem_iff⟩
  | recordBackingField property =>
      simp only [TraceOperation.refersTo, Bool.and_false, Bool.or_false]
      exact ⟨h.trace.recordBackingField property, h.tracker_mem_iff⟩
  | declaration | reference | expressionType | typeReference | hasBackingField =>
      simp only [TraceOperation.refersTo, Bool.and_false, Bool.or_false]
      exact h

theorem performAll (ops : List TraceOperation) :
    Decorates outer
      (fun p => fields p || (decide (.tracker p ∈ outer) && ops.any fun op => op.refersTo p))
      (r.performAll ops).2 (r'.performAll ops).2 := by
  induction ops generalizing r r' fields with
  | nil =>
      simp only [List.any_nil, Bool.and_false, Bool.or_false]
      exact h
  | cons op ops ih =>
      have hrest := ih (h.perform op)
      simp only [Bool.or_assoc, ← Bool.and_or_distrib_left] at hrest
      exact hrest

/-- What is answered at every moment is the same, whether a tracked property has a backing field
apart. -/
theorem getElem?_answers
    (hfields : ∀ property, fields property = true → .tracker property ∈ outer)
    {ops : List TraceOperation} {i : Nat} {op : TraceOperation} (hi : ops[i]? = some op)
    (hop : ∀ property, .tracker property ∈ outer → op ≠ .hasBackingField property) :
    (r'.performAll ops).1[i]? = (r.performAll ops).1[i]? := by
  induction ops generalizing r r' fields i with
  | nil => cases hi
  | cons first ops ih =>
      cases i with
      | zero =>
          obtain rfl := Option.some.inj hi
          refine congrArg some (h.answer_eq ?_)
          intro property heq
          rw [← Bool.not_eq_true]
          intro hproperty
          exact hop property (hfields property hproperty) heq
      | succ i =>
          apply ih (h.perform first) ?_ hi
          intro property hproperty
          simp only [Bool.or_eq_true, Bool.and_eq_true, decide_eq_true_eq] at hproperty
          rcases hproperty with hproperty | ⟨hproperty, -⟩
          · exact hfields property hproperty
          · exact hproperty

end Decorates

end Recorder

end DeclAnalysis
