import DeclAnalysis.Proofs.Logs
import DeclAnalysis.Proofs.Semantic.Fields
import DeclAnalysis.Proofs.Session.Observers
import DeclAnalysis.Proofs.Session.Operations
import DeclAnalysis.Proofs.Tree.FieldAccesses

/-!
# How references to backing fields are answered

A reference to a backing field that is not known is reported. One that is known is shown to whoever
watches: the tracker of its property records a backing field, and a guard notes the reference if
there is no backing field yet. So what a computation does about backing fields is given by the list
of the references that it makes.
-/

namespace DeclAnalysis

open ScopeTree (View)

namespace Diagnostic

/-- A report about a backing field: that an initializer has none, that there is none to refer to,
or that something other than the given nodes refers to nothing. -/
def concernsField (nodes : List Nat) (d : Diagnostic) : Bool :=
  d.code = .initializerNotAllowed || d.code = .backingFieldMisuse ||
    (d.code = .unresolvedReference && d.node ∉ nodes)

/-- The report about a reference to the backing field of a property that there is not. -/
def missingField (a : FieldAccess) : Diagnostic :=
  .ofCode .unresolvedReference a.node ("Unresolved reference: " ++ ("$" ++ a.property))

theorem concernsField_eq_false
    {nodes : List Nat} {code : DiagnosticCode}
    (h : code ≠ .initializerNotAllowed ∧ code ≠ .backingFieldMisuse ∧ code ≠ .unresolvedReference)
    (node : Nat) (message : String) : (ofCode code node message).concernsField nodes = false := by
  simp [concernsField, ofCode, h]

end Diagnostic

namespace ScopeTree.View

variable (v : View) (nodes : List Nat)

/-- The references that find nothing, apart from those at the given nodes. -/
def missing (accesses : List FieldAccess) : List Diagnostic :=
  (accesses.filter fun a => (v.known a.property).isNone && a.node ∉ nodes).map .missingField

/-- The references that find a property without a backing field. -/
def unstored (stored : Nat → Bool) (accesses : List FieldAccess) : List Nat :=
  (accesses.filter fun a => (v.known a.property).any fun p => !stored p).map FieldAccess.node

/-- A reference finds the property. -/
def refersTo (property : Nat) (accesses : List FieldAccess) : Bool :=
  accesses.any fun a => v.known a.property = some property

@[simp] theorem missing_append (xs ys : List FieldAccess) :
    v.missing nodes (xs ++ ys) = v.missing nodes xs ++ v.missing nodes ys := by
  simp [missing]

@[simp] theorem unstored_append (stored : Nat → Bool) (xs ys : List FieldAccess) :
    v.unstored stored (xs ++ ys) = v.unstored stored xs ++ v.unstored stored ys := by
  simp [unstored]

@[simp] theorem refersTo_append (property : Nat) (xs ys : List FieldAccess) :
    v.refersTo property (xs ++ ys) = (v.refersTo property xs || v.refersTo property ys) := by
  simp [refersTo]

end ScopeTree.View

namespace Recorder

variable {r : Recorder} {node property : Nat}

theorem recordReference_unwatched (h : r.observers = []) :
    (r.recordReference node .fieldIdentifier property).observers = [] ∧
      ∀ p, (r.recordReference node .fieldIdentifier property).trace.hasBackingField p =
        r.trace.hasBackingField p := by
  simp [recordReference, h, Observer.seeAll, Trace.recordReference, Trace.hasBackingField]

/-- A tracker records a backing field for its property. -/
theorem recordReference_tracked {tracked : Nat} (h : r.observers = [.tracker tracked]) :
    (r.recordReference node .fieldIdentifier property).observers = [.tracker tracked] ∧
      ∀ p, (r.recordReference node .fieldIdentifier property).trace.hasBackingField p =
        (r.trace.hasBackingField p || decide (p = tracked) && decide (property = tracked)) := by
  by_cases hp : property = tracked
  · subst hp
    have hinsert := r.trace.hasBackingField_recordBackingField property
    simp [recordReference, h, Observer.seeAll, Observer.see]
    exact hinsert
  · simp [recordReference, h, Observer.seeAll, Observer.see, hp, Trace.recordReference,
      Trace.hasBackingField]

/-- A guard notes the reference to a property without a backing field. -/
theorem recordReference_guarded {noted : List Nat} (h : r.observers = [.guard noted]) :
    (r.recordReference node .fieldIdentifier property).observers =
        [.guard (noted ++ if r.trace.hasBackingField property then [] else [node])] ∧
      ∀ p, (r.recordReference node .fieldIdentifier property).trace.hasBackingField p =
        r.trace.hasBackingField p := by
  by_cases hp : r.trace.hasBackingField property = true
  · simp [recordReference, h, Observer.seeAll, Observer.see, hp, Trace.recordReference]
    exact fun _ => rfl
  · simp [recordReference, h, Observer.seeAll, Observer.see, hp, Trace.recordReference]
    exact fun _ => rfl

end Recorder

namespace Session

/-- What has been reported about backing fields. -/
def fieldReports (s : Session) (nodes : List Nat) : List Diagnostic :=
  s.diagnostics.toList.filter (Diagnostic.concernsField nodes)

/-- Between the sessions references to backing fields have been made, and nothing else has happened
to backing fields and to what is reported about them. Declarations have been recorded for the given
nodes only. -/
structure Answers (v : View) (nodes : List Nat) (accesses : List FieldAccess) (s s' : Session) :
    Prop where
  holds : ∀ {scope : Nat}, v.holds scope s.scopes → v.holds scope s'.scopes
  declaration?_eq : ∀ {node : Nat}, node ∉ nodes →
    s'.trace.declaration? node = s.trace.declaration? node
  fieldReports_eq : s'.fieldReports nodes = s.fieldReports nodes ++ v.missing nodes accesses
  unwatched : s.recorder.observers = [] → s'.recorder.observers = [] ∧
    ∀ p, s'.trace.hasBackingField p = s.trace.hasBackingField p
  tracked : ∀ {property : Nat}, s.recorder.observers = [.tracker property] →
    s'.recorder.observers = [.tracker property] ∧ ∀ p, s'.trace.hasBackingField p =
      (s.trace.hasBackingField p || decide (p = property) && v.refersTo property accesses)
  guarded : ∀ {noted : List Nat}, s.recorder.observers = [.guard noted] →
    s'.recorder.observers = [.guard (noted ++ v.unstored s.trace.hasBackingField accesses)] ∧
      ∀ p, s'.trace.hasBackingField p = s.trace.hasBackingField p

variable {v : View} {nodes : List Nat} {s s' s'' : Session}

namespace Answers

/-- No reference is made. -/
theorem of_eq
    (hholds : ∀ {scope : Nat}, v.holds scope s.scopes → v.holds scope s'.scopes)
    (hdeclarations : ∀ {node : Nat}, node ∉ nodes →
      s'.trace.declaration? node = s.trace.declaration? node)
    (hreports : s'.fieldReports nodes = s.fieldReports nodes)
    (hobservers : s'.recorder.observers = s.recorder.observers)
    (hfields : s'.trace.backingFields = s.trace.backingFields) : Answers v nodes [] s s' := by
  have hstored : ∀ p, s'.trace.hasBackingField p = s.trace.hasBackingField p := fun p =>
    congrArg (fun fields => fields.contains p) hfields
  refine ⟨hholds, hdeclarations, ?_, fun h => ⟨hobservers.trans h, hstored⟩,
    fun h => ⟨hobservers.trans h, fun p => ?_⟩, fun h => ⟨?_, hstored⟩⟩
  · exact hreports.trans (List.append_nil _).symm
  · rw [hstored]
    simp [View.refersTo]
  · rw [hobservers, h]
    simp [View.unstored]

theorem refl (v : View) (nodes : List Nat) (s : Session) : Answers v nodes [] s s :=
  of_eq id (fun _ => rfl) rfl rfl rfl

theorem append
    {xs ys : List FieldAccess} (h : Answers v nodes xs s s') (h' : Answers v nodes ys s' s'') :
    Answers v nodes (xs ++ ys) s s'' where
  holds hs := h'.holds (h.holds hs)
  declaration?_eq hnode := (h'.declaration?_eq hnode).trans (h.declaration?_eq hnode)
  fieldReports_eq := by
    rw [h'.fieldReports_eq, h.fieldReports_eq, View.missing_append, List.append_assoc]
  unwatched hnone := by
    obtain ⟨hobservers, hstored⟩ := h.unwatched hnone
    obtain ⟨hobservers', hstored'⟩ := h'.unwatched hobservers
    exact ⟨hobservers', fun p => (hstored' p).trans (hstored p)⟩
  tracked htracker := by
    obtain ⟨hobservers, hstored⟩ := h.tracked htracker
    obtain ⟨hobservers', hstored'⟩ := h'.tracked hobservers
    refine ⟨hobservers', fun p => ?_⟩
    rw [hstored', hstored, View.refersTo_append, Bool.or_assoc, Bool.and_or_distrib_left]
  guarded hguard := by
    obtain ⟨hobservers, hstored⟩ := h.guarded hguard
    obtain ⟨hobservers', hstored'⟩ := h'.guarded hobservers
    refine ⟨?_, fun p => (hstored' p).trans (hstored p)⟩
    rw [hobservers', funext hstored, View.unstored_append, List.append_assoc]

instance (v : View) (nodes : List Nat) : Appends (Answers v nodes) where
  refl := .refl v nodes
  append := .append

instance (v : View) (nodes : List Nat) (accesses : List FieldAccess) (scope : Nat) :
    Stable (fun s => v.holds scope s.scopes) (Answers v nodes accesses) where
  stable h := h.holds

/-- Changes of the recorder that do not concern backing fields. -/
theorem of_recorder
    {r : Recorder} (hdeclarations : ∀ {node : Nat}, node ∉ nodes →
      r.trace.declaration? node = s.trace.declaration? node)
    (hobservers : r.observers = s.recorder.observers)
    (hfields : r.trace.backingFields = s.trace.backingFields) :
    Answers v nodes [] s { s with recorder := r } :=
  of_eq id hdeclarations rfl hobservers hfields

theorem of_descriptors (t : DescriptorTable) :
    Answers v nodes [] s { s with model.descriptors := t } :=
  of_eq id (fun _ => rfl) rfl rfl rfl

theorem of_scopes
    {t : ScopeTree} (h : ∀ {scope : Nat}, v.holds scope s.scopes → v.holds scope t) :
    Answers v nodes [] s { s with model.scopes := t } :=
  of_eq h (fun _ => rfl) rfl rfl rfl

theorem fieldReports_push (s : Session) (d : Diagnostic) :
    { s with diagnostics := s.diagnostics.push d }.fieldReports nodes =
      s.fieldReports nodes ++ if d.concernsField nodes then [d] else [] := by
  unfold fieldReports
  rw [Array.toList_push, List.filter_append, List.filter_cons, List.filter_nil]

theorem of_report {d : Diagnostic} (h : d.concernsField nodes = false) :
    Answers v nodes [] s { s with diagnostics := s.diagnostics.push d } := by
  refine of_eq id (fun _ => rfl) ?_ rfl rfl
  rw [fieldReports_push, h]
  exact List.append_nil _

/-- A reference that finds nothing is reported. -/
theorem of_missing {a : FieldAccess} (h : v.known a.property = none) :
    Answers v nodes [a] s { s with diagnostics := s.diagnostics.push (.missingField a) } := by
  refine ⟨id, fun _ => rfl, ?_, fun h => ⟨h, fun _ => rfl⟩, fun hobservers => ⟨hobservers, fun p => ?_⟩,
    fun hobservers => ⟨hobservers.trans ?_, fun _ => rfl⟩⟩
  · rw [fieldReports_push]
    by_cases hnode : a.node ∈ nodes
    · simp [View.missing, Diagnostic.concernsField, Diagnostic.missingField, Diagnostic.ofCode,
        hnode]
    · simp [View.missing, Diagnostic.concernsField, Diagnostic.missingField, Diagnostic.ofCode,
        hnode, h]
  · simp [View.refersTo, h, trace]
  · simp [View.unstored, h]

/-- A reference that finds a property is shown to whoever watches. -/
theorem of_known {a : FieldAccess} {property : Nat} (h : v.known a.property = some property) :
    Answers v nodes [a] s
      { s with recorder := s.recorder.recordReference a.node .fieldIdentifier property } := by
  refine ⟨id, fun {node} _ => ?_, ?_, fun hnone => ?_, fun htracker => ?_, fun hguard => ?_⟩
  · obtain ⟨fields, htrace⟩ := trace_recordReference s.recorder a.node .fieldIdentifier property
    unfold trace
    rw [htrace]
    rfl
  · simp [View.missing, h, fieldReports]
  · exact Recorder.recordReference_unwatched hnone
  · obtain ⟨hobservers, hstored⟩ := Recorder.recordReference_tracked htracker
    refine ⟨hobservers, fun p => (hstored p).trans ?_⟩
    simp [View.refersTo, h, trace]
  · obtain ⟨hobservers, hstored⟩ := Recorder.recordReference_guarded hguard
    refine ⟨hobservers.trans ?_, hstored⟩
    by_cases hp : s.recorder.trace.hasBackingField property = true
    · simp [View.unstored, h, trace, hp]
    · simp [View.unstored, h, trace, hp]

end Answers

end Session

namespace Analysis

variable {α : Type} {v : View} {nodes : List Nat}

/-- The computation makes the references to backing fields, and does nothing else about these. -/
abbrev Answers (v : View) (nodes : List Nat) (accesses : List FieldAccess) (x : Analysis α) : Prop :=
  Logs (Session.Answers v nodes) accesses x

/-- So does a computation that no fault stops. -/
abbrev AnswersOr (v : View) (nodes : List Nat) (accesses : List FieldAccess)
    (x : FaultyAnalysis α) : Prop :=
  LogsOr (Session.Answers v nodes) accesses x

/-- The computation makes the references, if the fields are known in the scope. -/
abbrev AnswersIn (v : View) (nodes : List Nat) (scope : Nat) (accesses : List FieldAccess)
    (x : Analysis α) : Prop :=
  Logs (fun accesses => From (fun s => v.holds scope s.scopes) (Session.Answers v nodes accesses))
    accesses x

/-- So does a computation that no fault stops. -/
abbrev AnswersOrIn (v : View) (nodes : List Nat) (scope : Nat) (accesses : List FieldAccess)
    (x : FaultyAnalysis α) : Prop :=
  LogsOr (fun accesses => From (fun s => v.holds scope s.scopes) (Session.Answers v nodes accesses))
    accesses x

theorem Answers.inScope
    {accesses : List FieldAccess} {x : Analysis α} (h : Answers v nodes accesses x) (scope : Nat) :
    AnswersIn v nodes scope accesses x :=
  Keeps.from h

theorem AnswersOr.inScope
    {accesses : List FieldAccess} {x : FaultyAnalysis α} (h : AnswersOr v nodes accesses x)
    (scope : Nat) : AnswersOrIn v nodes scope accesses x :=
  fun s => AfterOr.imp (h s) fun _ _ h _ => h

/-! ### Elementary operations -/

/-- Reports under other codes than those of missing backing fields and of references. -/
theorem answers_reportCode
    {code : DiagnosticCode}
    (h : code ≠ .initializerNotAllowed ∧ code ≠ .backingFieldMisuse ∧ code ≠ .unresolvedReference)
    (node : Nat) (message : String) : Answers v nodes [] (reportCode code node message) :=
  ⟨fun _ => .of_report (Diagnostic.concernsField_eq_false h node message)⟩

theorem answers_reportUnresolved {node : Nat} (hnode : node ∈ nodes) (message : String) :
    Answers v nodes [] (reportCode .unresolvedReference node message) := by
  refine ⟨fun _ => .of_report ?_⟩
  simp [Diagnostic.concernsField, Diagnostic.ofCode, hnode]

theorem answers_reportMismatch (node : Nat) (expected actual : Ty) :
    Answers v nodes [] (reportMismatch node expected actual) :=
  ⟨fun _ => .of_report (Diagnostic.concernsField_eq_false (by decide) ..)⟩

theorem answers_recordDeclaration {node : Nat} (hnode : node ∈ nodes) (descriptor : Nat) :
    Answers v nodes [] (recordDeclaration node descriptor) := by
  refine ⟨fun s => .of_recorder (fun {node'} hnode' => ?_) rfl rfl⟩
  have hne : node ≠ node' := fun heq => hnode' (heq ▸ hnode)
  change (s.recorder.trace.declarations.insert node descriptor)[node']? = _
  rw [getElem?_insert_of_ne hne]
  rfl

theorem answers_recordIdentifier (node descriptor : Nat) :
    Answers v nodes [] (recordReference node .identifier descriptor) := by
  refine ⟨fun s => ?_⟩
  change Session.Answers v nodes [] s
    { s with recorder := s.recorder.recordReference node .identifier descriptor }
  rw [Recorder.recordReference_identifier]
  exact .of_recorder (fun _ => rfl) rfl rfl

theorem answers_recordExpressionType (node : Nat) (type : Ty) :
    Answers v nodes [] (recordExpressionType node type) :=
  ⟨fun _ => .of_recorder (fun _ => rfl) rfl rfl⟩

theorem answers_recordTypeReference (node : Nat) (type : Ty) :
    Answers v nodes [] (recordTypeReference node type) :=
  ⟨fun _ => .of_recorder (fun _ => rfl) rfl rfl⟩

theorem answers_onDescriptors (f : DescriptorTable → DescriptorTable) :
    Answers v nodes [] (onDescriptors f) :=
  ⟨fun _ => .of_descriptors _⟩

theorem answers_createDescriptor
    (name : String) (container : Option Nat) (kind : DescriptorKind) :
    Answers v nodes [] (createDescriptor name container kind) :=
  ⟨fun _ => .of_descriptors _⟩

theorem answersOr_tryDescriptors (f : DescriptorTable → Except Fault DescriptorTable) :
    AnswersOr v nodes [] (tryDescriptors f) :=
  fun _ => afterOr_tryDescriptors fun t _ => .of_descriptors t

theorem answers_addVariable (scope : Nat) (name : String) (descriptor : Nat) :
    Answers v nodes [] (onScopes (·.addVariable scope name descriptor)) :=
  ⟨fun _ => .of_scopes fun h => v.addVariable h scope name descriptor⟩

/-- The fields are known in a new scope inside one in which they are. -/
theorem after_createScope_answers
    {scope : Nat} {s : Session} (hs : v.holds scope s.scopes) (kind : ScopeKind)
    (owner : Option Nat) :
    After (createScope kind (some scope) owner) s fun inner s' =>
      Session.Answers v nodes [] s s' ∧ v.holds inner s'.scopes := by
  obtain ⟨hinner, hkept⟩ := v.create hs kind owner
  refine ⟨.of_scopes hkept, ?_⟩
  change v.holds (s.model.scopes.create kind (some scope) owner).1 _
  rw [ScopeTree.fst_create]
  exact hinner

/-- The fields are known in the scope of a body inside a scope in which they are. -/
theorem afterOr_functionInnerScope_answers
    {outer : Nat} {s : Session} (hs : v.holds outer s.scopes) (function : Nat) :
    AfterOr (functionInnerScope outer function) s
      (fun inner s' => Session.Answers v nodes [] s s' ∧ v.holds inner s'.scopes)
      fun _ _ => True := by
  simp only [functionInnerScope, afterOr_bind, afterOr_get, Model.functionInnerScope]
  cases s.model.descriptors.signature? function with
  | none => exact trivial
  | some signature =>
      simp only [afterOr_bind, afterOr_modify, afterOr_pure]
      obtain ⟨hinner, hkept⟩ := v.create hs .function (some function)
      have hbind : ∀ (parameters : List Nat) (t : ScopeTree) (scope : Nat), v.holds scope t →
          v.holds scope (parameters.foldl (fun t p => t.addVariable s.scopes.size
            (s.model.descriptors.name p) p) t) := by
        intro parameters
        induction parameters with
        | nil => exact fun t scope h => h
        | cons p rest ih => exact fun t scope h => ih _ _ (v.addVariable h ..)
      refine ⟨.of_scopes fun h => ?_, ?_⟩
      · exact hbind signature.parameters _ _ (hkept h)
      · exact hbind signature.parameters _ _ hinner

end Analysis

end DeclAnalysis
