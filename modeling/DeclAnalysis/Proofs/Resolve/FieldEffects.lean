import DeclAnalysis.Proofs.Resolve.FieldBodies
import DeclAnalysis.Proofs.Tree.PropertySites

/-!
# What resolving a declaration settles about backing fields

The last pass starts each declaration in a settled session: no backing field is known in the scopes
that exist, and nobody watches. It leaves a settled session behind. What has been said about
backing fields, and which property has got one, is given by the declaration and by what is known
in the scope that is made for it.
-/

namespace DeclAnalysis

open ScopeTree (FieldlessBelow View)

/-- The report about a reference to a backing field that a property does not have. -/
def Diagnostic.fieldMisuse (node : Nat) : Diagnostic :=
  .ofCode .backingFieldMisuse node "This property does not have a backing field"

/-- The report about the initializer of a property that cannot store it. -/
def Diagnostic.initializerRefused (node : Nat) : Diagnostic :=
  .ofCode .initializerNotAllowed node Analysis.initializerNotAllowed

namespace PropertyDecl

/-- What is said about the initializer of a property. -/
def storageRemarks (decl : PropertyDecl) : List Diagnostic :=
  if decl.mutable || decl.storesValue then []
  else decl.initializer.toList.map fun e => .initializerRefused e.id

/-- What is said about backing fields in the bodies of a property: its own one is known in its
accessors, and no other one is known. -/
def fieldRemarks (decl : PropertyDecl) : List Diagnostic :=
  (Expr.optionalAccesses decl.initializer).map .missingField ++
    ((decl.accessorAccesses.filter fun a => a.property ≠ decl.name).map .missingField ++
      decl.storageRemarks)

end PropertyDecl

namespace ScopeTree.View

theorem missing_eq
    (v : View) {nodes : List Nat} {accesses : List FieldAccess}
    (h : ∀ a ∈ accesses, a.node ∉ nodes) :
    v.missing nodes accesses =
      (accesses.filter fun a => (v.known a.property).isNone).map .missingField := by
  unfold missing
  congr 1
  apply List.filter_congr
  intro a ha
  simp [h a ha]

/-- Where nothing is known every reference is reported. -/
theorem missing_inside_none
    (bound : Nat) {nodes : List Nat} {accesses : List FieldAccess}
    (h : ∀ a ∈ accesses, a.node ∉ nodes) :
    (inside bound fun _ => none).missing nodes accesses = accesses.map .missingField := by
  rw [missing_eq _ h]
  simp [inside]

end ScopeTree.View

namespace Session

/-- No backing field is known in the scopes below the bound, and nobody watches. -/
structure Settled (bound : Nat) (s : Session) : Prop where
  below : FieldlessBelow bound s.scopes
  unwatched : s.recorder.observers = []

/-- The second session is settled. Since the first one, the given properties have got backing
fields, and the remarks about backing fields have been made; declarations have been recorded for
the nodes only. -/
structure Settles
    (bound : Nat) (nodes fields : List Nat) (remarks : List Diagnostic) (s s' : Session) :
    Prop where
  settled : s'.Settled bound
  declaration?_eq : ∀ {node : Nat}, node ∉ nodes →
    s'.trace.declaration? node = s.trace.declaration? node
  hasBackingField_eq : ∀ p,
    s'.trace.hasBackingField p = (s.trace.hasBackingField p || fields.contains p)
  fieldReports_eq : s'.fieldReports nodes = s.fieldReports nodes ++ remarks

variable {bound : Nat} {nodes : List Nat} {s s' s'' : Session}

namespace Settles

variable {fields fields' : List Nat} {remarks remarks' : List Diagnostic}

theorem refl (h : s.Settled bound) : Settles bound nodes [] [] s s where
  settled := h
  declaration?_eq _ := rfl
  hasBackingField_eq p := by simp
  fieldReports_eq := (List.append_nil _).symm

theorem append
    (h : Settles bound nodes fields remarks s s')
    (h' : Settles bound nodes fields' remarks' s' s'') :
    Settles bound nodes (fields ++ fields') (remarks ++ remarks') s s'' where
  settled := h'.settled
  declaration?_eq hnode := (h'.declaration?_eq hnode).trans (h.declaration?_eq hnode)
  hasBackingField_eq p := by
    rw [h'.hasBackingField_eq, h.hasBackingField_eq, Bool.or_assoc, List.contains_append]
  fieldReports_eq := by
    rw [h'.fieldReports_eq, h.fieldReports_eq, List.append_assoc]

/-- Which properties have got backing fields does not depend on how they are listed. -/
theorem congr_fields
    (h : Settles bound nodes fields remarks s s')
    (hfields : ∀ p, fields.contains p = fields'.contains p) :
    Settles bound nodes fields' remarks s s' where
  settled := h.settled
  declaration?_eq := h.declaration?_eq
  hasBackingField_eq p := by rw [h.hasBackingField_eq, hfields]
  fieldReports_eq := h.fieldReports_eq

end Settles

/-- References that nobody watches are reported, or else nothing happens. -/
theorem Answers.settles
    {known : String → Option Nat} {accesses : List FieldAccess}
    (h : Answers (.inside bound known) nodes accesses s s') {scope : Nat}
    (hs : (View.inside bound known).holds scope s.scopes) (hunwatched : s.recorder.observers = []) :
    Settles bound nodes [] ((View.inside bound known).missing nodes accesses) s s' where
  settled := ⟨(h.holds hs).below, (h.unwatched hunwatched).1⟩
  declaration?_eq := h.declaration?_eq
  hasBackingField_eq p := by
    rw [(h.unwatched hunwatched).2]
    simp
  fieldReports_eq := h.fieldReports_eq

section

variable (hs : s.Settled bound)

include hs

/-- References where nothing is known are reported. -/
theorem Settled.settles
    {scope : Nat} (hscope : scope < bound) {accesses : List FieldAccess}
    (haccesses : ∀ a ∈ accesses, a.node ∉ nodes)
    (h : (View.inside bound fun _ => none).holds scope s.scopes →
      Answers (.inside bound fun _ => none) nodes accesses s s') :
    Settles bound nodes [] (accesses.map .missingField) s s' := by
  have hholds := hs.below.knows hscope
  rw [← View.missing_inside_none bound haccesses]
  exact (h hholds).settles hholds hs.unwatched

omit hs in
theorem Settled.of_scopes
    {t : ScopeTree} (ht : FieldlessBelow bound t) (hunwatched : s.recorder.observers = []) :
    Settles bound nodes [] [] s { s with model.scopes := t } where
  settled := ⟨ht, hunwatched⟩
  declaration?_eq _ := rfl
  hasBackingField_eq _ := (Bool.or_false _).symm
  fieldReports_eq := (List.append_nil _).symm

theorem Settled.recordBackingField (property : Nat) :
    Settles bound nodes [property] [] s
      { s with recorder := s.recorder.recordBackingField property } where
  settled := ⟨hs.below, hs.unwatched⟩
  declaration?_eq _ := rfl
  hasBackingField_eq p := by
    refine (s.trace.hasBackingField_recordBackingField property p).trans ?_
    simp
  fieldReports_eq := (List.append_nil _).symm

theorem Settled.report {d : Diagnostic} (h : d.concernsField nodes) :
    Settles bound nodes [] [d] s { s with diagnostics := s.diagnostics.push d } where
  settled := ⟨hs.below, hs.unwatched⟩
  declaration?_eq _ := rfl
  hasBackingField_eq _ := (Bool.or_false _).symm
  fieldReports_eq := by rw [Answers.fieldReports_push, if_pos h]

end

end Session

namespace Analysis

open Session (Settled Settles)

variable {bound : Nat} {nodes : List Nat} {s : Session}

/-! ### Watching -/

section

variable {known : String → Option Nat} {scope : Nat} {accesses : List FieldAccess}
  {run : FaultyAnalysis Unit}
  (hrun : AnswersOrIn (.inside bound known) nodes scope accesses run)
  (hscope : (View.inside bound known).holds scope s.scopes)

include hrun hscope

/-- The session is settled again once the observer is gone. What the observer has noted and which
backing fields have been recorded is read off the session that it leaves. -/
theorem afterOr_observed
    {o : Observer} {fields : List Nat} {q : List Nat → Prop}
    (hleft : ∀ s', Session.Answers (.inside bound known) nodes accesses
        { s with recorder := s.recorder.watch o } s' →
      ∃ o', s'.recorder.observers = [o'] ∧ q o'.violations ∧ ∀ p,
        s'.trace.hasBackingField p = (s.trace.hasBackingField p || fields.contains p)) :
    AfterOr (observed o run) s
      (fun noted s' => q noted ∧
        Settles bound nodes fields ((View.inside bound known).missing nodes accesses) s s')
      fun _ _ => True := by
  refine AfterOr.observed (AfterOr.imp (hrun _) fun _ s' h => ?_)
  have hanswers := h hscope
  obtain ⟨o', hobservers, hnoted, hstored⟩ := hleft s' hanswers
  have hunwatch :
      s'.recorder.unwatch = (o'.violations, { s'.recorder with observers := [] }) := by
    rw [Recorder.unwatch, hobservers]
  refine ⟨?_, ⟨(hanswers.holds hscope).below, ?_⟩, fun {node} hnode => ?_, fun p => ?_,
    hanswers.fieldReports_eq⟩
  · exact (congrArg (fun r => q r.1) hunwatch).mpr hnoted
  · exact congrArg (fun r => r.2.observers) hunwatch
  · exact (congrArg (fun r => r.2.trace.declaration? node) hunwatch).trans
      (hanswers.declaration?_eq hnode)
  · exact (congrArg (fun r => r.2.trace.hasBackingField p) hunwatch).trans (hstored p)

variable (hunwatched : s.recorder.observers = [])

include hunwatched

/-- A tracker records the backing field of its property if it is referred to. -/
theorem afterOr_observed_tracker (property : Nat) :
    AfterOr (observed (.tracker property) run) s
      (fun _ => Settles bound nodes
        (if (View.inside bound known).refersTo property accesses then [property] else [])
        ((View.inside bound known).missing nodes accesses) s) fun _ _ => True := by
  have hwatch : (s.recorder.watch (.tracker property)).observers = [.tracker property] := by
    simp [Recorder.watch, hunwatched]
  refine (afterOr_observed hrun hscope (q := fun _ => True) fun s' h => ?_).mono
    (fun _ _ h => h.2) fun _ _ h => h
  obtain ⟨hobservers, hstored⟩ := h.tracked hwatch
  refine ⟨_, hobservers, trivial, fun p => (hstored p).trans ?_⟩
  change (s.trace.hasBackingField p || _) = _
  by_cases hrefers : (View.inside bound known).refersTo property accesses
  · simp [hrefers, eq_comm]
  · simp [hrefers]

/-- A guard notes the references that find a property without a backing field. -/
theorem afterOr_observed_guard :
    AfterOr (observed (.guard []) run) s
      (fun noted s' => noted = (View.inside bound known).unstored s.trace.hasBackingField accesses ∧
        Settles bound nodes [] ((View.inside bound known).missing nodes accesses) s s')
      fun _ _ => True := by
  have hwatch : (s.recorder.watch (.guard [])).observers = [.guard []] := by
    simp [Recorder.watch, hunwatched]
  refine afterOr_observed hrun hscope fun s' h => ?_
  obtain ⟨hobservers, hstored⟩ := h.guarded hwatch
  exact ⟨_, hobservers, rfl, fun p => (hstored p).trans (Bool.or_false _).symm⟩

end

/-! ### Declarations -/

section

variable (hs : s.Settled bound)

include hs

theorem afterOr_resolveDelegations_settles
    {head : ClassHead}
    (hnodes : head.delegationSpecifiers.flatMap DelegationSpecifier.plainNodes ⊆ nodes)
    (haccesses : ∀ a ∈ head.fieldAccesses, a.node ∉ nodes) {descriptor : Nat}
    (hscope : ∀ data, s.descriptors.classData? descriptor = some data → data.memberScope < bound) :
    AfterOr (resolveDelegations head descriptor) s
      (fun _ => Settles bound nodes [] (head.fieldAccesses.map .missingField) s)
      fun _ _ => True := by
  refine afterOr_bind.mpr (afterOr_get.mpr ?_)
  split
  · trivial
  · rename_i data hdata
    have hforM : AnswersOrIn (.inside bound fun _ => none) nodes data.memberScope
        head.fieldAccesses (head.delegationSpecifiers.forM
          (resolveDelegation data.memberScope head.primaryConstructor.isSome)) := by
      apply LogsOr.forM
      intro specifier hmem
      apply answersOrIn_resolveDelegation
      exact fun node hnode => hnodes (List.mem_flatMap.mpr ⟨specifier, hmem, hnode⟩)
    exact AfterOr.imp (hforM s) fun _ _ h => hs.settles (hscope data hdata) haccesses h

theorem afterOr_resolveFunctionBody_settles
    (options : AnalysisOptions) (node : Nat) {body : Option Expr}
    (hnodes : Expr.optionalPlainNodes body ⊆ nodes)
    (haccesses : ∀ a ∈ Expr.optionalAccesses body, a.node ∉ nodes) (function : Nat) {scope : Nat}
    (hscope : scope < bound) :
    AfterOr (resolveFunctionBody options node body function scope) s
      (fun _ => Settles bound nodes [] ((Expr.optionalAccesses body).map .missingField) s)
      fun _ _ => True :=
  AfterOr.imp (answersOrIn_resolveFunctionBody options node hnodes function scope s)
    fun _ _ h => hs.settles hscope haccesses h

/-! ### Properties -/

/-- A property without any accessor body gets a backing field at last, and its initializer is
reported if it still has none. -/
theorem after_concludeField_settles (nodes : List Nat) (decl : PropertyDecl) (property : Nat) :
    After (concludeField decl property) s fun _ =>
      Settles bound nodes (if hasAccessorBody decl then [] else [property])
        (if decl.mutable || (s.trace.hasBackingField property || !hasAccessorBody decl) then []
          else decl.initializer.toList.map fun e => .initializerRefused e.id) s := by
  have hinitializer : ∀ s₁ : Session, s₁.Settled bound →
      After (judgeInitializer decl property) s₁ fun _ =>
        Settles bound nodes [] (if decl.mutable || s₁.trace.hasBackingField property then []
          else decl.initializer.toList.map fun e => .initializerRefused e.id) s₁ := by
    intro s₁ h₁
    unfold judgeInitializer
    cases decl.initializer with
    | none =>
        simp only [Option.toList_none, List.map_nil, ite_self]
        exact .refl h₁
    | some initializer =>
        refine after_bind.mpr (after_get.mpr ?_)
        by_cases hstored : decl.mutable || s₁.trace.hasBackingField property
        · rw [if_pos hstored, if_neg (by rw [← Bool.not_or, hstored]; decide)]
          exact .refl h₁
        · have hrefused : (decl.mutable || s₁.trace.hasBackingField property) = false :=
            Bool.eq_false_of_not_eq_true hstored
          rw [if_neg hstored, if_pos (by rw [← Bool.not_or, hrefused]; rfl)]
          exact h₁.report (by
            simp [Diagnostic.concernsField, Diagnostic.initializerRefused, Diagnostic.ofCode])
  unfold concludeField
  by_cases hbody : hasAccessorBody decl
  · simp only [hbody, if_true, Bool.not_true, Bool.or_false]
    exact hinitializer s hs
  · simp only [Bool.eq_false_of_not_eq_true hbody, Bool.not_false, Bool.or_true, if_true]
    have hrecord : Settles bound nodes [property] [] s _ := hs.recordBackingField property
    refine after_bind.mpr (after_onRecorder.mpr ?_)
    refine After.mono (hinitializer _ hrecord.settled) fun _ s₁ h₁ => ?_
    have hboth := hrecord.append h₁
    simpa [hrecord.hasBackingField_eq] using hboth

theorem after_concludeProperty_settles
    (nodes : List Nat) {scope : Nat} (hscope : scope < bound) (decl : PropertyDecl)
    (property : Nat) :
    After (concludeProperty decl property) s fun _ =>
      Settles bound nodes (if hasAccessorBody decl then [] else [property])
        (if decl.mutable || (s.trace.hasBackingField property || !hasAccessorBody decl) then []
          else decl.initializer.toList.map fun e => .initializerRefused e.id) s := by
  have hholds := hs.below.knows hscope
  refine after_bind.mpr (after_get.mpr ?_)
  dsimp only
  split
  · have hreport : After (reportCode .semanticError decl.id untypedProperty) s fun _ =>
        Session.Answers (.inside bound fun _ => none) nodes [] s :=
      (answers_reportCode (by decide) ..).after s
    refine hreport.bind fun _ s₁ h₁ => ?_
    have hfill : After (onDescriptors (·.fillPropertyType property (.error untypedProperty))) s₁
        fun _ => Session.Answers (.inside bound fun _ => none) nodes [] s₁ :=
      (answers_onDescriptors _).after s₁
    refine hfill.bind fun _ s₂ h₂ => ?_
    have hquiet : Settles bound nodes [] [] s s₂ :=
      (Session.Answers.append h₁ h₂).settles hholds hs.unwatched
    have hconclude := after_concludeField_settles hquiet.settled nodes decl property
    refine hconclude.mono fun _ s₃ h₃ => ?_
    have hboth := hquiet.append h₃
    simpa [hquiet.hasBackingField_eq] using hboth
  · exact after_concludeField_settles hs nodes decl property

/-- In the accessors of a property its own backing field is known. -/
theorem afterOr_observed_resolveAccessors
    (options : AnalysisOptions) {decl : PropertyDecl}
    (hnodes : ((decl.getter.toList ++ decl.setter.toList).flatMap fun a =>
      Expr.optionalPlainNodes a.body) ⊆ nodes)
    (haccesses : ∀ a ∈ decl.accessorAccesses, a.node ∉ nodes) (property : Nat)
    {data : PropertyData} (hgetter : data.getter.isSome = decl.getter.isSome)
    (hsetter : data.setter.isSome = decl.setter.isSome) {scope : Nat} (hscope : scope < bound) :
    AfterOr (do
      let accessorScope ← createScope .accessor (some scope) none
      onScopes (·.addField accessorScope decl.name property)
      observed (.tracker property) (resolveAccessors options decl property data accessorScope) :
        FaultyAnalysis (List Nat)) s
      (fun _ => Settles bound nodes
        (if decl.accessorAccesses.any fun a => a.property = decl.name then [property] else [])
        ((decl.accessorAccesses.filter fun a => a.property ≠ decl.name).map .missingField) s)
      fun _ _ => True := by
  let known : String → Option Nat := fun x => if decl.name = x then some property else none
  have hfields := (hs.below.create hscope .accessor none).addField decl.name property
  have hmade : Settles bound nodes [] [] s _ := Settled.of_scopes hfields.below hs.unwatched
  have hholds : (View.inside bound known).holds s.scopes.size _ := hfields.knows
  have haccessors := answersOrIn_resolveAccessors (v := .inside bound known) options hnodes property
    hgetter hsetter s.scopes.size
  have hwatched := afterOr_observed_tracker (s := { s with model.scopes := _ }) haccessors hholds
    hs.unwatched property
  have hrefers : (View.inside bound known).refersTo property decl.accessorAccesses =
      decl.accessorAccesses.any fun a => a.property = decl.name := by
    unfold View.refersTo
    congr 1
    funext a
    by_cases hname : decl.name = a.property
    · simp [View.inside, known, hname]
    · simp [View.inside, known, hname, Ne.symm hname]
  have hmissing : (View.inside bound known).missing nodes decl.accessorAccesses =
      (decl.accessorAccesses.filter fun a => a.property ≠ decl.name).map .missingField := by
    rw [View.missing_eq _ haccesses]
    congr 2
    funext a
    by_cases hname : decl.name = a.property
    · simp [View.inside, known, hname]
    · simp [View.inside, known, hname, Ne.symm hname]
  rw [hrefers, hmissing] at hwatched
  refine afterOr_bind.mpr (AfterOr.lift ?_)
  refine after_modifyGet.mpr (afterOr_bind.mpr (AfterOr.lift (after_onScopes.mpr ?_)))
  exact AfterOr.imp hwatched fun _ _ h => hmade.append h

/-- Resolving a property settles whether it has a backing field. -/
theorem afterOr_resolvePropertyBodies_settles
    (options : AnalysisOptions) {decl : PropertyDecl}
    (hnodes : (Declaration.propertyDecl decl).plainNodes ⊆ nodes)
    (haccesses : ∀ a ∈ (Declaration.propertyDecl decl).fieldAccesses, a.node ∉ nodes)
    {property : Nat} {data : PropertyData}
    (hdata : s.descriptors.propertyData? property = some data)
    (hgetter : data.getter.isSome = decl.getter.isSome)
    (hsetter : data.setter.isSome = decl.setter.isSome)
    (hnew : s.trace.hasBackingField property = false) {scope : Nat} (hscope : scope < bound) :
    AfterOr (resolvePropertyBodies options scope decl property) s
      (fun _ => Settles bound nodes (if decl.storesValue then [property] else [])
        decl.fieldRemarks s) fun _ _ => True := by
  obtain ⟨hinitializer, haccessors⟩ := List.append_subset.mp hnodes
  have hrest : ∀ s₁ : Session, s₁.Settled bound → s₁.trace.hasBackingField property = false →
      AfterOr (finishProperty options scope decl property data) s₁
        (fun _ => Settles bound nodes (if decl.storesValue then [property] else [])
          ((decl.accessorAccesses.filter fun a => a.property ≠ decl.name).map .missingField ++
            decl.storageRemarks) s₁) fun _ _ => True := by
    intro s₁ h₁ hnew₁
    have haccess : ∀ a ∈ decl.accessorAccesses, a.node ∉ nodes := fun a ha =>
      haccesses a (List.mem_append_right _ ha)
    have hwatched := afterOr_observed_resolveAccessors h₁ options haccessors haccess property
      hgetter hsetter hscope
    refine afterOr_bind.mpr ?_
    have hwatched' := afterOr_bind.mp hwatched
    refine AfterOr.imp hwatched' fun accessorScope s₂ h₂ => ?_
    refine afterOr_bind.mpr (AfterOr.imp (afterOr_bind.mp h₂) (fun _ s₃ h₃ => ?_))
    refine afterOr_bind.mpr (AfterOr.imp h₃ (fun _ s₄ h₄ => ?_))
    have hconclude := after_concludeProperty_settles h₄.settled nodes hscope decl property
    refine AfterOr.lift (hconclude.mono fun _ s₅ h₅ => ?_)
    have hstored : s₄.trace.hasBackingField property =
        decl.accessorAccesses.any fun a => a.property = decl.name := by
      rw [h₄.hasBackingField_eq, hnew₁]
      by_cases hany : decl.accessorAccesses.any fun a => a.property = decl.name
      · simp [hany]
      · simp [hany]
    rw [hstored, Bool.or_comm _ (!hasAccessorBody decl)] at h₅
    refine (h₄.append h₅).congr_fields fun p => ?_
    unfold PropertyDecl.storesValue
    by_cases hany : decl.accessorAccesses.any fun a => a.property = decl.name
    · by_cases hbody : hasAccessorBody decl
      · simp [hany, hbody]
      · simp [hany, hbody]
    · by_cases hbody : hasAccessorBody decl
      · simp [hany, hbody]
      · simp [hany, hbody]
  refine afterOr_bind.mpr (afterOr_get.mpr ?_)
  rw [hdata]
  dsimp only
  cases hdecl : decl.initializer with
  | none =>
      refine AfterOr.imp (hrest s hs hnew) fun _ s' h => ?_
      simpa [PropertyDecl.fieldRemarks, hdecl, Expr.optionalAccesses] using h
  | some initializer =>
      have hsubset : initializer.plainNodes ⊆ nodes := by
        rw [hdecl] at hinitializer
        exact hinitializer
      have haccess : ∀ a ∈ initializer.fieldAccesses, a.node ∉ nodes := by
        intro a ha
        apply haccesses a
        simp [Declaration.fieldAccesses, hdecl, Expr.optionalAccesses, ha]
      have hinit := answersIn_resolveInitializer (v := .inside bound fun _ => none) hsubset scope
        property data.setter
      refine afterOr_bind.mpr (AfterOr.lift ((hinit.after s).mono fun _ s₁ h₁ => ?_))
      have hfirst : Settles bound nodes [] (initializer.fieldAccesses.map .missingField) s s₁ :=
        hs.settles hscope haccess h₁
      have hnew₁ : s₁.trace.hasBackingField property = false := by
        rw [hfirst.hasBackingField_eq, hnew]
        rfl
      refine AfterOr.imp (hrest s₁ hfirst.settled hnew₁) fun _ s' h => ?_
      have hboth := hfirst.append h
      simpa [PropertyDecl.fieldRemarks, hdecl, Expr.optionalAccesses] using hboth

/-! ### Secondary constructors -/

omit hs in
/-- The references that a guard has noted are reported. -/
theorem afterOr_reportMisuses
    (nodes noted : List Nat) {s : Session} (hs : s.Settled bound) :
    AfterOr (noted.forM fun node => reportCode .backingFieldMisuse node
      "This property does not have a backing field" : FaultyAnalysis Unit) s
      (fun _ => Settles bound nodes [] (noted.map .fieldMisuse) s) fun _ _ => True := by
  induction noted generalizing s with
  | nil => exact .refl hs
  | cons node rest ih =>
      have hreport : Settles bound nodes [] [.fieldMisuse node] s _ := hs.report (by rfl)
      refine afterOr_bind.mpr (AfterOr.lift (after_modify.mpr ?_))
      exact AfterOr.imp (ih hreport.settled) fun _ _ h => hreport.append h

/-- Resolving a secondary constructor tells which references find no property of the class, or one
without a backing field. -/
theorem afterOr_resolveConstructorBody_settles
    (options : AnalysisOptions) (properties : Nat → List Nat) {decl : ConstructorDecl}
    (hnodes : (Declaration.constructorDecl decl).plainNodes ⊆ nodes)
    (haccesses : ∀ a ∈ decl.fieldAccesses, a.node ∉ nodes) {constructor classId : Nat}
    (hcontainer : (s.descriptors.get constructor).container = some classId)
    {known : String → Option Nat} (hknown : ∀ x, known x =
      (properties classId).reverse.find? fun p => s.descriptors.name p = x)
    {scope : Nat} (hscope : scope < bound) :
    AfterOr (resolveConstructorBody options properties scope decl constructor) s
      (fun _ => Settles bound nodes []
        ((decl.fieldAccesses.filter fun a => (known a.property).isNone).map .missingField ++
          (decl.fieldAccesses.filter fun a => (known a.property).any fun p =>
            !s.trace.hasBackingField p).map fun a => .fieldMisuse a.node) s)
      fun _ _ => True := by
  obtain ⟨hinitializers, hbody⟩ := List.append_subset.mp hnodes
  have hfields := (hs.below.create hscope .constructor none).foldl_addField s.descriptors.name
    (properties classId)
  have heq : (fun x => ((properties classId).reverse.find? fun p =>
      s.descriptors.name p = x).or none) = known := by
    funext x
    rw [hknown, Option.or_none]
  rw [heq] at hfields
  have hholds : (View.inside bound known).holds s.scopes.size _ := hfields.knows
  refine afterOr_bind.mpr (afterOr_get.mpr ?_)
  rw [hcontainer]
  refine afterOr_bind.mpr (AfterOr.lift ?_)
  refine after_modifyGet.mpr (afterOr_bind.mpr (afterOr_get.mpr ?_))
  refine afterOr_bind.mpr (AfterOr.lift (after_onScopes.mpr ?_))
  have hmade : Settles bound nodes [] [] s _ := Settled.of_scopes hfields.below hs.unwatched
  have hinside : ∀ s₀ : Session, (View.inside bound known).holds s.scopes.size s₀.scopes →
      AfterOr (functionInnerScope s.scopes.size constructor) s₀
        (fun inner s₁ => Session.Answers (.inside bound known) nodes [] s₀ s₁ ∧
          (View.inside bound known).holds inner s₁.scopes) fun _ _ => True :=
    fun _ h => afterOr_functionInnerScope_answers h constructor
  refine afterOr_bind.mpr (AfterOr.imp (hinside _ hholds) (fun inner s₁ h₁ => ?_))
  obtain ⟨hanswers, hinner⟩ := h₁
  have hunwatched₁ : s₁.recorder.observers = [] := (hanswers.unwatched hs.unwatched).1
  have hentered : Settles bound nodes [] [] s s₁ :=
    hmade.append (hanswers.settles hholds hs.unwatched)
  have hguard := afterOr_observed_guard (answersOrIn_resolveConstructorParts
    options hinitializers hbody inner classId) hinner hunwatched₁
  refine afterOr_bind.mpr (AfterOr.imp hguard (fun noted s₂ h₂ => ?_))
  obtain ⟨rfl, hparts⟩ := h₂
  have hresolved := hentered.append hparts
  refine AfterOr.imp (afterOr_reportMisuses nodes _ hresolved.settled) fun _ s₃ h₃ => ?_
  have hstored : s₁.trace.hasBackingField = s.trace.hasBackingField := by
    funext p
    rw [hentered.hasBackingField_eq]
    simp
  have hall := hresolved.append h₃
  rw [View.missing_eq _ haccesses, hstored] at hall
  simpa [View.unstored, View.inside, Function.comp_def] using hall

end

end Analysis

end DeclAnalysis
