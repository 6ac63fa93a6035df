import DeclAnalysis.Proofs.Resolve.Recordings
import DeclAnalysis.Proofs.Resolve.Threshold

/-!
# The log of the last pass

The last pass resolves delegation lists, properties, and functions with constructors, each in the
order of the tables. Its log is made of theirs, where names mean in a scope what they mean when the
pass begins: no function or class becomes known any more, and signatures stay.
-/

namespace DeclAnalysis

namespace DescriptorTable

variable {t : DescriptorTable}

theorem Has.isSome_signature?_of_constructorSort {id : Nat} (h : t.Has .constructorSort id) :
    (t.signature? id).isSome := by
  have hsort := h.sort_eq
  rw [signature?_eq]
  generalize (t.get id).kind = kind at hsort ⊢
  cases kind with
  | constructorKind s => rfl
  | _ => cases hsort

/-- Whatever can be called, and is no setter, has parameters of known types. -/
theorem TypesParameters.typed
    (h : t.TypesParameters) {id : Nat} (hsignature : (t.signature? id).isSome)
    (hsort : (t.get id).kind.sort ≠ .functionSort .setter) : t.Typed id := by
  refine ⟨hsignature, fun p hp => ?_⟩
  obtain ⟨s, hs⟩ := Option.isSome_iff_exists.mp hsignature
  unfold parametersOf at hp
  rw [hs] at hp
  exact h hs hsort p hp

theorem WellKinded.isConstructorOf_of_mem
    {scopes : Nat} (h : t.WellKinded scopes) {classId c : Nat} (hc : c ∈ t.constructorsOf classId) :
    t.IsConstructorOf classId c := by
  unfold constructorsOf at hc
  cases hdata : t.classData? classId with
  | none =>
      rw [hdata] at hc
      cases hc
  | some data =>
      rw [hdata] at hc
      have hlt := lt_size_of_classData? (Option.isSome_of_eq_some hdata)
      exact (h.classData hlt hdata).constructors c hc

end DescriptorTable

namespace PassState

variable {P : List (Option Declaration × Declaration)} {s : PassState}

/-- When the last pass begins, every scope is offered what names mean in it. -/
theorem Poised.offers (hs : s.Poised P) {scope : Nat} (hscope : scope < s.scopes.size) :
    s.model.Offers scope (s.model.candidates scope) := by
  have hkinded := hs.kinded.session.descriptors
  have hconstructor : ∀ {classId : Nat}, ∀ c ∈ s.descriptors.constructorsOf classId,
      s.descriptors.Typed c := by
    intro classId c hc
    have hhas := (hkinded.isConstructorOf_of_mem hc).toHas
    refine DescriptorTable.TypesParameters.typed hs.typesParameters
      hhas.isSome_signature?_of_constructorSort ?_
    rw [hhas.sort_eq]
    nofun
  refine ⟨hs.ordered, hkinded.hierarchyClosed, hscope, hconstructor, fun _ => rfl,
    fun {name} c hc => ?_⟩
  unfold Model.candidates at hc
  split at hc
  · cases hclass : s.model.scopes.classifier? scope name with
    | none =>
        rw [hclass] at hc
        cases hc
    | some classId =>
        rw [hclass] at hc
        exact hconstructor c hc
  · rename_i function rest hfunctions
    have hmem : c ∈ s.scopes.functions scope name := by
      rw [← hfunctions] at hc
      exact hc
    have hnames := hs.kinded.session.scopes.functions c hmem
    refine DescriptorTable.TypesParameters.typed hs.typesParameters
      hnames.toHas.isSome_signature? ?_
    rw [hnames.sort_eq]
    nofun

/-! ## The log -/

/-- What is recorded for the delegation list of a class. -/
def classLog (s : PassState) (entry : ClassHead × Nat) : List Recording :=
  let members := (s.descriptors.classData? entry.2).elim 0 ClassData.memberScope
  (Declaration.classDecl entry.1 []).recordings (s.model.candidates members) []

/-- What is recorded for a property. -/
def propertyLog (s : PassState) (entry : PropertyDecl × Nat) : List Recording :=
  let scope := s.tables.declaringScopes.getD entry.1.id 0
  (Declaration.propertyDecl entry.1).recordings (s.model.candidates scope) []

/-- What is recorded for a function or constructor. -/
def functionLog (s : PassState) (entry : FunctionLike × Nat) : List Recording :=
  let scope := s.tables.declaringScopes.getD entry.1.id 0
  match entry.1 with
  | .function decl => (Declaration.functionDecl decl).recordings (s.model.candidates scope) []
  | .constructor decl =>
    let classId := (s.descriptors.get entry.2).container.getD 0
    (Declaration.constructorDecl decl).recordings (s.model.candidates scope)
      (s.descriptors.constructorsOf classId)

/-- What the last pass records. -/
def journal (s : PassState) : List Recording :=
  s.tables.classes.toList.flatMap s.classLog ++
    (s.tables.properties.toList.flatMap s.propertyLog ++
      s.tables.functions.toList.flatMap s.functionLog)

/-- Between the states the entries have been made one after the other; nothing has been entered in
the tables, and only at the given nodes has anything happened. -/
structure Journals (nodes : List Nat) (xs : List Recording) (s s' : PassState) : Prop where
  records : Session.Records xs s.toSession s'.toSession
  advances : Advances nodes s s'

instance (nodes : List Nat) : Appends (Journals nodes) where
  refl s := ⟨.refl s.toSession, refl_of (Advances nodes) s⟩
  append h h' := ⟨h.records.append h'.records, h.advances.trans h'.advances⟩

/-- The state has been reached from the one in which the last pass began. -/
def ReachedFrom (nodes : List Nat) (s₀ s : PassState) : Prop := ∃ xs, Journals nodes xs s₀ s

theorem ReachedFrom.fills {nodes : List Nat} {s₀ : PassState} (h : ReachedFrom nodes s₀ s) :
    s₀.descriptors.Fills s.descriptors := by
  obtain ⟨xs, hxs⟩ := h
  exact hxs.advances.proceeds.fills

instance (nodes : List Nat) (s₀ : PassState) (xs : List Recording) :
    Stable (ReachedFrom nodes s₀) (Journals nodes xs) where
  stable := by
    rintro s s' h ⟨ys, hys⟩
    exact ⟨ys ++ xs, Appends.append hys h⟩

end PassState

namespace Pass

open Analysis
open PassState (Advances Journals Poised ReachedFrom)

variable {P : List (Option Declaration × Declaration)} {options : AnalysisOptions}
  {nodes : List Nat} {s₀ : PassState}

/-- The pass makes the entries when it is run in a state that the last pass reaches. -/
abbrev JournalsOr (nodes : List Nat) (s₀ : PassState) (xs : List Recording) (x : Pass Unit) : Prop :=
  LogsOr (fun xs => From (ReachedFrom nodes s₀) (Journals nodes xs)) xs x

theorem journalsOr_faultyAnalysis
    {x : FaultyAnalysis Unit} {xs : List Recording} (hkeeps : KeepsOr (Session.Proceeds nodes) x)
    (hrecords : ∀ s, ReachedFrom nodes s₀ s →
      AfterOr x s.toSession (fun _ => Session.Records xs s.toSession) fun _ _ => True) :
    JournalsOr nodes s₀ xs (liftM x) := by
  intro s
  refine AfterOr.forall fun hreached => afterOr_faultyAnalysis.mpr ?_
  refine AfterOr.relax (AfterOr.of_keepsOr hkeeps (hrecords s hreached)) fun _ s' h => ?_
  exact ⟨h.2, h.1, rfl⟩

variable (hs : s₀.Poised P)

include hs

/-- The delegation list of a class. -/
theorem journalsOr_class
    {entry : ClassHead × Nat} (hentry : entry ∈ s₀.tables.classes.toList)
    (hnodes : entry.1.nodes.tail ⊆ nodes) :
    JournalsOr nodes s₀ (s₀.classLog entry) (liftM (resolveDelegations entry.1 entry.2)) := by
  refine journalsOr_faultyAnalysis (keepsOr_resolveDelegations hnodes entry.2) ?_
  rintro s ⟨ys, hys⟩
  have hclass : s.descriptors.classData? entry.2 = s₀.descriptors.classData? entry.2 :=
    hys.records.signatures.classData?_eq entry.2
  have hhas := (hs.kinded.tables.classes entry hentry).toHas
  obtain ⟨data, hdata⟩ := Option.isSome_iff_exists.mp (DescriptorTable.has_classSort_iff.mp hhas)
  have hlt := (hs.kinded.session.descriptors.classData hhas.lt_size hdata).memberScope_lt
  refine afterOr_bind.mpr (afterOr_get.mpr ?_)
  rw [hclass, hdata]
  unfold PassState.classLog
  rw [hdata]
  let named := s₀.model.candidates data.memberScope
  have hlist : EntersOrIn named data.memberScope
      (entry.1.delegationSpecifiers.flatMap (DelegationSpecifier.classRecordings named))
      (entry.1.delegationSpecifiers.forM
        (resolveDelegation data.memberScope entry.1.primaryConstructor.isSome)) :=
    LogsOr.forM _ fun specifier _ => entersOrIn_resolveDelegation data.memberScope _ specifier
  exact AfterOr.imp (hlist s.toSession) fun _ _ h => h (hys.records.offers (hs.offers hlt))

omit hs in
/-- Where a declaration stands is looked up before it is resolved. -/
theorem journalsOr_declaringScope
    {t : Tables} {node : Nat} {xs : List Recording} {x : Nat → Pass Unit}
    (h : ∀ {scope : Nat}, t.declaringScopes[node]? = some scope → t.declaringScopes.getD node 0 = scope →
      JournalsOr nodes s₀ xs (x scope)) :
    JournalsOr nodes s₀ xs (ofExcept (t.declaringScope node) >>= x) := by
  unfold Tables.declaringScope
  cases hscope : t.declaringScopes[node]? with
  | none => exact LogsOr.throw _
  | some scope =>
      refine h hscope ?_
      rw [Std.TreeMap.getD_eq_getD_getElem?, hscope, Option.getD_some]

theorem journalsOr_property
    {entry : PropertyDecl × Nat} (hentry : entry ∈ s₀.tables.properties.toList)
    (hnodes : entry.1.nodes.tail ⊆ nodes) :
    JournalsOr nodes s₀ (s₀.propertyLog entry) (do
      let scope ← ofExcept (s₀.tables.declaringScope entry.1.id)
      resolvePropertyBodies options scope entry.1 entry.2) := by
  refine journalsOr_declaringScope fun {scope} hscope hgetD => ?_
  unfold PassState.propertyLog
  rw [hgetD]
  refine journalsOr_faultyAnalysis
    (keepsOr_resolvePropertyBodies options hnodes scope entry.2) ?_
  rintro s ⟨ys, hys⟩
  have hoffers := hys.records.offers (hs.offers (hs.kinded.tables.declaringScopes_lt hscope))
  obtain ⟨data₀, hdata₀, hgetter₀, hsetter₀⟩ := hs.listed.accessors entry hentry
  obtain ⟨data, hdata, hgetter, hsetter⟩ := hys.records.signatures.accessors_eq hdata₀
  exact afterOr_resolvePropertyBodies_records options hoffers entry.1 hdata
    (hgetter ▸ hgetter₀) (hsetter ▸ hsetter₀)

theorem journalsOr_function
    {entry : FunctionLike × Nat} (hentry : entry ∈ s₀.tables.functions.toList)
    (hnodes : entry.1.nodes.tail ⊆ nodes) :
    JournalsOr nodes s₀ (s₀.functionLog entry) (resolveFunctionLike options entry.1 entry.2) := by
  obtain ⟨f, descriptor⟩ := entry
  have hreturn : ∀ node, JournalsOr nodes s₀ [] (do
      if ((← session).descriptors.returnType? descriptor).isNone then
        throw (.at_ node .returnTypeUnset) : Pass Unit) := by
    intro node s
    refine AfterOr.forall fun _ => ?_
    have hkeeps : KeepsOr (Journals nodes []) _ := keepsOr_requireReturnType node descriptor
    exact AfterOr.forget (hkeeps.afterOr s)
  intro s
  refine AfterOr.forall fun hreached => afterOr_bind.mpr (afterOr_tables.mpr ?_)
  have htables : s.tables = s₀.tables := hreached.choose_spec.advances.tables_eq
  rw [htables]
  suffices hsuffices : JournalsOr nodes s₀ (s₀.functionLog (f, descriptor)) (do
      let scope ← ofExcept (s₀.tables.declaringScope f.id)
      match f with
      | .function decl => resolveFunctionBody options decl.id decl.body descriptor scope
      | .constructor decl =>
        resolveConstructorBody options s₀.tables.propertiesOf scope decl descriptor
      if ((← session).descriptors.returnType? descriptor).isNone then
        throw (.at_ f.id .returnTypeUnset) : Pass Unit) from
    AfterOr.imp (hsuffices s) fun _ _ h => h hreached
  refine journalsOr_declaringScope fun {scope} hscope hgetD => ?_
  have hlt := hs.kinded.tables.declaringScopes_lt hscope
  unfold PassState.functionLog
  dsimp only
  rw [hgetD]
  cases f with
  | function decl =>
      have hbody : Expr.optionalNodes decl.body ⊆ nodes := fun node hnode =>
        hnodes (List.mem_append_right _ hnode)
      refine LogsOr.bind_last (journalsOr_faultyAnalysis
        (keepsOr_resolveFunctionBody options decl.id hbody descriptor scope) ?_) fun _ => hreturn _
      rintro s ⟨ys, hys⟩
      have hoffers := hys.records.offers (hs.offers hlt)
      exact AfterOr.imp
        (entersOrIn_resolveFunctionBody options decl.id decl.body descriptor scope s.toSession)
        fun _ _ h => h hoffers
  | constructor decl =>
      refine LogsOr.bind_last (journalsOr_faultyAnalysis
        (keepsOr_resolveConstructorBody options s₀.tables.propertiesOf hnodes scope descriptor) ?_)
        fun _ => hreturn _
      rintro s ⟨ys, hys⟩
      have hoffers := hys.records.offers (hs.offers hlt)
      obtain ⟨classId, -, hconstructor⟩ := hs.kinded.tables.functions _ hentry
      have hcontainer : (s.descriptors.get descriptor).container = some classId :=
        (hys.advances.proceeds.fills.container_eq descriptor hconstructor.lt_size).trans
          hconstructor.container_eq
      rw [hconstructor.container_eq]
      exact afterOr_resolveConstructorBody_records options s₀.tables.propertiesOf hoffers decl
        hcontainer (hys.records.signatures.constructorsOf_eq classId)

/-- The last pass makes the entries of its log. -/
theorem afterOr_resolveBodies_journals
    (hnodes : P.flatMap (fun q => q.2.ownNodes.tail) ⊆ nodes) :
    AfterOr (resolveBodies options) s₀ (fun _ => Journals nodes s₀.journal s₀) fun _ _ => True := by
  have hown : ∀ q ∈ P, q.2.ownNodes.tail ⊆ nodes := fun q hq node hnode =>
    hnodes (List.mem_flatMap.mpr ⟨q, hq, hnode⟩)
  refine afterOr_bind.mpr (afterOr_tables.mpr ?_)
  have hall : JournalsOr nodes s₀ s₀.journal (do
      s₀.tables.classes.toList.forM fun entry =>
        (resolveDelegations entry.1 entry.2 : FaultyAnalysis Unit)
      s₀.tables.properties.toList.forM fun entry => do
        let scope ← ofExcept (s₀.tables.declaringScope entry.1.id)
        resolvePropertyBodies options scope entry.1 entry.2
      s₀.tables.functions.toList.forM fun entry =>
        resolveFunctionLike options entry.1 entry.2 : Pass Unit) := by
    refine LogsOr.bind (LogsOr.forM _ fun entry hentry => ?_) fun _ =>
      LogsOr.bind (LogsOr.forM _ fun entry hentry => ?_) fun _ =>
        LogsOr.forM _ fun entry hentry => ?_
    · have hlisted := Session.declaration?_of_mem_listed hs.listed.classes_eq hentry
      obtain ⟨q, hq, hclass⟩ := List.mem_filterMap.mp hlisted.1
      obtain ⟨members, hself⟩ := Declaration.exists_members_of_classHead? hclass
      have hsub := hown q hq
      rw [hself] at hsub
      exact journalsOr_class hs hentry hsub
    · have hlisted := Session.declaration?_of_mem_listed hs.listed.properties_eq hentry
      obtain ⟨q, hq, hproperty⟩ := List.mem_filterMap.mp hlisted.1
      have hsub := hown q hq
      rw [Declaration.eq_of_property? hproperty] at hsub
      exact journalsOr_property hs hentry hsub
    · have hlisted := Session.declaration?_of_mem_listed hs.listed.functions_eq hentry
      obtain ⟨q, hq, hfunction⟩ := List.mem_filterMap.mp hlisted.1
      have hsub := hown q hq
      rw [← Declaration.nodes_of_functionLike? hfunction] at hsub
      exact journalsOr_function hs hentry hsub
  exact AfterOr.imp (hall s₀) fun _ _ h => h ⟨[], Appends.refl s₀⟩

end Pass

end DeclAnalysis
