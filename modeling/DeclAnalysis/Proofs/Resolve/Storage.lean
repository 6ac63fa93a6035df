import Mathlib.Data.List.Find
import DeclAnalysis.Proofs.Resolve.FieldEffects
import DeclAnalysis.Proofs.Resolve.Indexing
import DeclAnalysis.Proofs.Resolve.Journal

/-!
# Backing fields in the last pass

The last pass settles which properties have backing fields before it comes to constructors. So what
it says about the names of fields in a constructor depends on the properties of the class alone,
and not on the order of declarations.
-/

namespace DeclAnalysis

open ScopeTree (FieldlessBelow)

namespace PassState

variable {P : List (Option Declaration × Declaration)} {s : PassState}

/-! ## What the last pass says -/

/-- The properties that get a backing field when their bodies are resolved. -/
def storedLater (s : PassState) : List Nat :=
  (s.tables.properties.toList.filter fun entry => entry.1.storesValue).map Prod.snd

/-- The property has a backing field when the bodies of all properties have been resolved. -/
def stores (s : PassState) (property : Nat) : Bool :=
  s.trace.hasBackingField property || s.storedLater.contains property

/-- The property that the name of a field means in the constructors of a class. -/
def fieldOf? (s : PassState) (classId : Nat) (name : String) : Option Nat :=
  (s.tables.propertiesOf classId).reverse.find? fun p => s.descriptors.name p = name

/-- What is said about backing fields in a function or constructor. -/
def functionRemarks (s : PassState) (entry : FunctionLike × Nat) : List Diagnostic :=
  match entry.1 with
  | .function decl => (Expr.optionalAccesses decl.body).map .missingField
  | .constructor decl =>
    let field := s.fieldOf? ((s.descriptors.get entry.2).container.getD 0)
    (decl.fieldAccesses.filter fun a => (field a.property).isNone).map .missingField ++
      (decl.fieldAccesses.filter fun a => (field a.property).any fun p => !s.stores p).map
        fun a => .fieldMisuse a.node

/-- What the last pass says about backing fields. -/
def fieldLog (s : PassState) : List Diagnostic :=
  (s.tables.classes.toList.flatMap fun entry => entry.1.fieldAccesses.map .missingField) ++
    ((s.tables.properties.toList.flatMap fun entry => entry.1.fieldRemarks) ++
      s.tables.functions.toList.flatMap s.functionRemarks)

/-! ## Where it begins -/

/-- No backing field is known when the last pass begins. -/
theorem Poised.settled (hs : s.Poised P) : s.toSession.Settled s.scopes.size where
  below :=
    { ordered := hs.ordered
      bound_le := Nat.le_refl _
      fields_eq_none := fun {id} _ name => hs.quiet.fieldless id name
      imports_lt := fun {id} _ i hi => (hs.kinded.session.scopes id).imports_lt i hi }
  unwatched := hs.quiet.unwatched

section

variable (hs : s.Listed P) (hi : s.Indexed P)

include hs hi

/-- The properties that are listed differ from each other and from those of parameters. -/
theorem Indexed.nodup_properties :
    (s.declared (P.flatMap fun q => q.2.parameterSites) ++
      (s.tables.properties.toList.map Prod.snd).map some).Nodup := by
  have hlisted : (s.tables.properties.toList.map Prod.snd).map some =
      s.declared (P.flatMap fun q => q.2.property?.toList.map PropertyDecl.site) := by
    have heq := congrArg (List.map Prod.snd) hs.properties_eq
    unfold Session.entries at heq
    rw [List.map_map, List.map_map] at heq
    unfold Session.declared
    rw [List.map_map, ← List.map_flatMap, ← List.filterMap_eq_flatMap_toList, List.map_map]
    exact heq
  have hperm := List.flatMap_append_perm P (fun q => q.2.parameterSites)
    fun q => q.2.property?.toList.map PropertyDecl.site
  have hdeclared := hperm.map fun x : PropertySite => s.trace.declaration? x.node
  have hnodup := hdeclared.nodup_iff.mpr hi.distinct
  rw [hlisted]
  rw [List.map_append] at hnodup
  exact hnodup

end

/-! ## On its way -/

/-- The state has been reached from the one in which the last pass began, and no backing field is
known in a scope that was there then. -/
structure Underway (inner : List Nat) (s₀ s : PassState) : Prop where
  kinded : s.WellKinded
  matures : s₀.toSession.Matures s.toSession
  reached : ReachedFrom inner s₀ s
  settled : s.toSession.Settled s₀.scopes.size

end PassState

/-- The nodes are all those of bodies but the names of backing fields. -/
structure Declaration.Separates
    (nodes : List Nat) (P : List (Option Declaration × Declaration)) : Prop where
  plainNodes_subset : ∀ q ∈ P, q.2.plainNodes ⊆ nodes
  accesses_not_mem : ∀ q ∈ P, ∀ a ∈ q.2.fieldAccesses, a.node ∉ nodes

namespace Pass

open Analysis
open PassState (Journals Poised ReachedFrom Underway)

variable (options : AnalysisOptions) {P : List (Option Declaration × Declaration)}
  {inner nodes : List Nat} {s₀ s : PassState}

theorem afterOr_underway
    {x : Pass Unit} {xs : List Recording} {fields : List Nat} {remarks : List Diagnostic}
    (h : Underway inner s₀ s) (hmatures : AfterMaturing x s fun _ _ => True)
    (hjournals : JournalsOr inner s₀ xs x)
    (hsettles : AfterOr x s (fun _ s' => Session.Settles s₀.scopes.size nodes fields remarks
      s.toSession s'.toSession) fun _ _ => True) :
    AfterOr x s (fun _ s' => Underway inner s₀ s' ∧
      Session.Settles s₀.scopes.size nodes fields remarks s.toSession s'.toSession)
      fun _ _ => True := by
  refine AfterOr.relax (hmatures.and ((hjournals s).and hsettles)) fun _ s' h' => ?_
  obtain ⟨⟨hkinded, hto, -⟩, hjournal, hsettled⟩ := h'
  refine ⟨⟨hkinded, h.matures.trans hto, ?_, hsettled.settled⟩, hsettled⟩
  exact Stable.stable (hjournal h.reached) h.reached

section

variable (hs : s₀.Poised P) (hnodes : Declaration.Separates nodes P)
  (hinner : P.flatMap (fun q => q.2.ownNodes.tail) ⊆ inner) (h : Underway inner s₀ s)

include hs hnodes hinner h

theorem afterOr_class_underway
    {entry : ClassHead × Nat} (hentry : entry ∈ s₀.tables.classes.toList) :
    AfterOr (liftM (resolveDelegations entry.1 entry.2) : Pass Unit) s
      (fun _ s' => Underway inner s₀ s' ∧ Session.Settles s₀.scopes.size nodes []
        (entry.1.fieldAccesses.map .missingField) s.toSession s'.toSession) fun _ _ => True := by
  obtain ⟨q, hq, hclass⟩ := List.mem_filterMap.mp
    (Session.declaration?_of_mem_listed hs.listed.classes_eq hentry).1
  obtain ⟨members, hself⟩ := Declaration.exists_members_of_classHead? hclass
  have htail : entry.1.nodes.tail ⊆ inner := by
    refine List.Subset.trans (fun node hnode => List.mem_flatMap.mpr ⟨q, hq, ?_⟩) hinner
    rw [hself]
    exact hnode
  have hplain := hnodes.plainNodes_subset q hq
  have haccesses := hnodes.accesses_not_mem q hq
  rw [hself] at hplain haccesses
  refine afterOr_underway h ?_ (journalsOr_class hs hentry htail) ?_
  · exact (afterMaturing_faultyAnalysis h.kinded
      (afterMaturingOr_resolveDelegations h.kinded.session entry.1 entry.2)).mono
      fun _ _ _ _ _ => trivial
  · refine afterOr_faultyAnalysis.mpr ?_
    refine afterOr_resolveDelegations_settles h.settled hplain haccesses fun data hdata => ?_
    obtain ⟨ys, hys⟩ := h.reached
    rw [hys.records.signatures.classData?_eq] at hdata
    have hhas := (hs.kinded.tables.classes entry hentry).toHas
    exact (hs.kinded.session.descriptors.classData hhas.lt_size hdata).memberScope_lt

theorem afterOr_property_underway
    {entry : PropertyDecl × Nat} (hentry : entry ∈ s₀.tables.properties.toList)
    (hnew : s.trace.hasBackingField entry.2 = false) :
    AfterOr (do
      let scope ← ofExcept (s₀.tables.declaringScope entry.1.id)
      resolvePropertyBodies options scope entry.1 entry.2 : Pass Unit) s
      (fun _ s' => Underway inner s₀ s' ∧ Session.Settles s₀.scopes.size nodes
        (if entry.1.storesValue then [entry.2] else []) entry.1.fieldRemarks
        s.toSession s'.toSession) fun _ _ => True := by
  obtain ⟨q, hq, hproperty⟩ := List.mem_filterMap.mp
    (Session.declaration?_of_mem_listed hs.listed.properties_eq hentry).1
  have hself := Declaration.eq_of_property? hproperty
  have htail : entry.1.nodes.tail ⊆ inner := by
    refine List.Subset.trans (fun node hnode => List.mem_flatMap.mpr ⟨q, hq, ?_⟩) hinner
    rw [hself]
    exact hnode
  have hplain := hnodes.plainNodes_subset q hq
  have haccesses := hnodes.accesses_not_mem q hq
  rw [hself] at hplain haccesses
  refine afterOr_underway h ?_ (journalsOr_property hs hentry htail) ?_
  · refine (afterMaturing_ofExcept h.kinded _).bind fun scope s₁ hs₁ h₁ hscope => ?_
    have hto := h.matures.trans h₁
    have hlt := hto.scope (hs.kinded.tables.declaringScope_lt hscope)
    have hnames := hto.descriptors.names (hs.kinded.tables.properties entry hentry)
    exact (afterMaturing_faultyAnalysis hs₁ (afterMaturingOr_resolvePropertyBodies hs₁.session
      options hlt hnames)).mono fun _ _ _ _ _ => trivial
  · cases hscope : s₀.tables.declaringScope entry.1.id with
    | error fault => exact afterOr_bind.mpr (afterOr_throw.mpr trivial)
    | ok scope =>
        obtain ⟨ys, hys⟩ := h.reached
        obtain ⟨data₀, hdata₀, hgetter₀, hsetter₀⟩ := hs.listed.accessors entry hentry
        obtain ⟨data, hdata, hgetter, hsetter⟩ := hys.records.signatures.accessors_eq hdata₀
        have hsettles := Analysis.afterOr_resolvePropertyBodies_settles h.settled options hplain
          haccesses hdata (hgetter ▸ hgetter₀) (hsetter ▸ hsetter₀) hnew
          (hs.kinded.tables.declaringScope_lt hscope)
        exact afterOr_bind.mpr (afterOr_pure.mpr (afterOr_faultyAnalysis.mpr hsettles))

omit hnodes hinner in
/-- What the name of a field means in a constructor does not change during the last pass. -/
theorem fieldOf?_eq (classId : Nat) (name : String) :
    s₀.fieldOf? classId name = (s₀.tables.propertiesOf classId).reverse.find? fun p =>
      s.descriptors.name p = name := by
  refine List.find?_congr fun p hp => ?_
  have hproperty := hs.kinded.tables.propertiesOf classId p (List.mem_reverse.mp hp)
  rw [h.matures.descriptors.name_eq p hproperty.lt_size]

/-- By the time a constructor is resolved it is known which properties have backing fields. -/
theorem afterOr_function_underway
    {entry : FunctionLike × Nat} (hentry : entry ∈ s₀.tables.functions.toList)
    (hstored : ∀ p, s.trace.hasBackingField p = s₀.stores p) :
    AfterOr (resolveFunctionLike options entry.1 entry.2) s
      (fun _ s' => Underway inner s₀ s' ∧ Session.Settles s₀.scopes.size nodes []
        (s₀.functionRemarks entry) s.toSession s'.toSession) fun _ _ => True := by
  obtain ⟨f, descriptor⟩ := entry
  obtain ⟨q, hq, hfunction⟩ := List.mem_filterMap.mp
    (Session.declaration?_of_mem_listed hs.listed.functions_eq hentry).1
  have htail : f.nodes.tail ⊆ inner := by
    refine List.Subset.trans (fun node hnode => List.mem_flatMap.mpr ⟨q, hq, ?_⟩) hinner
    rw [← Declaration.nodes_of_functionLike? hfunction]
    exact hnode
  have hplain := hnodes.plainNodes_subset q hq
  have haccesses := hnodes.accesses_not_mem q hq
  have hkinded := hs.kinded.tables.functions _ hentry
  refine afterOr_underway h (afterMaturing_resolveFunctionLike h.kinded options
    (hkinded.of_matures h.matures.descriptors)) (journalsOr_function hs hentry htail) ?_
  obtain ⟨ys, hys⟩ := h.reached
  have htables : s.tables = s₀.tables := hys.advances.tables_eq
  have hconclude : ∀ (node : Nat) (s₁ : PassState), Session.Settles s₀.scopes.size nodes []
      (s₀.functionRemarks (f, descriptor)) s.toSession s₁.toSession → AfterOr (do
        if ((← session).descriptors.returnType? descriptor).isNone then
          throw (.at_ node .returnTypeUnset) : Pass Unit) s₁
        (fun _ s' => Session.Settles s₀.scopes.size nodes []
          (s₀.functionRemarks (f, descriptor)) s.toSession s'.toSession) fun _ _ => True := by
    intro node s₁ h₁
    refine afterOr_bind.mpr (afterOr_session.mpr ?_)
    split
    · trivial
    · exact h₁
  refine afterOr_bind.mpr (afterOr_tables.mpr ?_)
  rw [htables]
  cases hscope : s₀.tables.declaringScope f.id with
  | error fault => exact afterOr_bind.mpr (afterOr_throw.mpr trivial)
  | ok scope =>
      have hlt := hs.kinded.tables.declaringScope_lt hscope
      refine afterOr_bind.mpr (afterOr_pure.mpr ?_)
      cases f with
      | function decl =>
          rw [Declaration.eq_of_functionLike? hfunction] at hplain haccesses
          have hsettles := afterOr_resolveFunctionBody_settles h.settled options decl.id hplain
            haccesses descriptor hlt
          exact AfterOr.bind (afterOr_faultyAnalysis.mpr hsettles) fun _ s₁ h₁ =>
            hconclude decl.id s₁ h₁
      | constructor decl =>
          obtain ⟨head, -, hself⟩ := Declaration.eq_of_functionLike?_constructor hfunction
          rw [hself] at hplain haccesses
          obtain ⟨classId, -, hconstructor⟩ := hkinded
          have hcontainer : (s.descriptors.get descriptor).container = some classId :=
            (h.matures.descriptors.container_eq descriptor hconstructor.lt_size).trans
              hconstructor.container_eq
          have hsettles := afterOr_resolveConstructorBody_settles h.settled options
            s₀.tables.propertiesOf hplain haccesses hcontainer (fieldOf?_eq hs h classId) hlt
          have hremarks : s₀.functionRemarks (.constructor decl, descriptor) =
              (decl.fieldAccesses.filter fun a =>
                  (s₀.fieldOf? classId a.property).isNone).map .missingField ++
                (decl.fieldAccesses.filter fun a => (s₀.fieldOf? classId a.property).any fun p =>
                  !s.trace.hasBackingField p).map fun a => .fieldMisuse a.node := by
            unfold PassState.functionRemarks
            dsimp only
            rw [hconstructor.container_eq, Option.getD_some, funext hstored]
          rw [← hremarks] at hsettles
          exact AfterOr.bind (afterOr_faultyAnalysis.mpr hsettles) fun _ s₁ h₁ =>
            hconclude decl.id s₁ h₁

end

/-! ## The loops of the last pass -/

/-- Steps that do not give any property a backing field, while it is known which ones have one. -/
theorem afterOr_forM_underway
    (nodes : List Nat) {α : Type} {f : α → Pass Unit} {remarks : α → List Diagnostic}
    {stored : Nat → Bool} (xs : List α) (hstep : ∀ a ∈ xs, ∀ s : PassState, Underway inner s₀ s →
      (∀ p, s.trace.hasBackingField p = stored p) → AfterOr (f a) s (fun _ s' =>
        Underway inner s₀ s' ∧ Session.Settles s₀.scopes.size nodes [] (remarks a)
          s.toSession s'.toSession) fun _ _ => True)
    (hs : Underway inner s₀ s) (hstored : ∀ p, s.trace.hasBackingField p = stored p) :
    AfterOr (xs.forM f) s (fun _ s' => Underway inner s₀ s' ∧
      Session.Settles s₀.scopes.size nodes [] (xs.flatMap remarks) s.toSession s'.toSession)
      fun _ _ => True := by
  let holds : List α → PassState → Prop := fun rest s =>
    rest ⊆ xs ∧ Underway inner s₀ s ∧ ∀ p, s.trace.hasBackingField p = stored p
  have hloop : AfterOr (xs.forM f) s (fun _ s' => holds [] s' ∧
      Session.Settles s₀.scopes.size nodes [] (xs.flatMap remarks) s.toSession s'.toSession)
      fun _ _ => True := by
    refine AfterOr.forM_rec (p := holds) (R := fun done s s' => Session.Settles s₀.scopes.size
      nodes [] (done.flatMap remarks) s.toSession s'.toSession) (fun s h => .refl h.2.1.settled)
      (fun a rest s h => ?_) xs ⟨List.Subset.refl xs, hs, hstored⟩
    obtain ⟨hmem, hrest⟩ := List.cons_subset.mp h.1
    refine AfterOr.imp (hstep a hmem s h.2.1 h.2.2) fun _ s' h' => ?_
    obtain ⟨hunderway, hsettles⟩ := h'
    refine ⟨⟨hrest, hunderway, fun p => ?_⟩, fun s'' h'' => hsettles.append h''⟩
    rw [hsettles.hasBackingField_eq, h.2.2]
    exact Bool.or_false _
  exact AfterOr.imp hloop fun _ _ h => ⟨h.1.2.1, h.2⟩

/-- The properties that are given a backing field are new each time. -/
theorem afterOr_properties_underway
    (hs : s₀.Poised P) (hi : s₀.Indexed P) (hnodes : Declaration.Separates nodes P)
    (hinner : P.flatMap (fun q => q.2.ownNodes.tail) ⊆ inner) (h : Underway inner s₀ s)
    (hstored : ∀ p, s.trace.hasBackingField p = s₀.trace.hasBackingField p) :
    AfterOr (s₀.tables.properties.toList.forM fun entry => do
      let scope ← ofExcept (s₀.tables.declaringScope entry.1.id)
      resolvePropertyBodies options scope entry.1 entry.2 : Pass Unit) s
      (fun _ s' => Underway inner s₀ s' ∧ Session.Settles s₀.scopes.size nodes s₀.storedLater
        (s₀.tables.properties.toList.flatMap fun entry => entry.1.fieldRemarks)
        s.toSession s'.toSession) fun _ _ => True := by
  let later : List (PropertyDecl × Nat) → List Nat := fun entries =>
    (entries.filter fun entry => entry.1.storesValue).map Prod.snd
  let holds : List (PropertyDecl × Nat) → PassState → Prop := fun rest s =>
    rest ⊆ s₀.tables.properties.toList ∧ Underway inner s₀ s ∧ (rest.map Prod.snd).Nodup ∧
      ∀ entry ∈ rest, s.trace.hasBackingField entry.2 = false
  have hnodup := List.nodup_append.mp (hi.nodup_properties hs.listed)
  have hfresh : ∀ entry ∈ s₀.tables.properties.toList, s.trace.hasBackingField entry.2 = false := by
    intro entry hentry
    rw [hstored, Bool.eq_false_iff, Ne, hi.hasBackingField_iff]
    intro hparameter
    refine hnodup.2.2 _ hparameter _ ?_ rfl
    exact List.mem_map_of_mem (List.mem_map_of_mem hentry)
  have hloop : AfterOr (s₀.tables.properties.toList.forM fun entry => do
      let scope ← ofExcept (s₀.tables.declaringScope entry.1.id)
      resolvePropertyBodies options scope entry.1 entry.2 : Pass Unit) s
      (fun _ s' => holds [] s' ∧ Session.Settles s₀.scopes.size nodes
        (later s₀.tables.properties.toList)
        (s₀.tables.properties.toList.flatMap fun entry => entry.1.fieldRemarks)
        s.toSession s'.toSession) fun _ _ => True := by
    refine AfterOr.forM_rec (p := holds) (R := fun done s s' => Session.Settles s₀.scopes.size
      nodes (later done) (done.flatMap fun entry => entry.1.fieldRemarks) s.toSession s'.toSession)
      (fun s h => .refl h.2.1.settled) (fun entry rest s h => ?_) _
      ⟨List.Subset.refl _, h, hnodup.2.1.of_map, hfresh⟩
    obtain ⟨hsub, hunderway, hdistinct, hnew⟩ := h
    obtain ⟨hmem, hrest⟩ := List.cons_subset.mp hsub
    obtain ⟨hother, hdistinct⟩ := List.nodup_cons.mp hdistinct
    have hstep := afterOr_property_underway options hs hnodes hinner hunderway hmem
      (hnew entry List.mem_cons_self)
    refine AfterOr.imp hstep fun _ s' h' => ?_
    obtain ⟨hunderway', hsettles⟩ := h'
    refine ⟨⟨hrest, hunderway', hdistinct, fun entry' hentry' => ?_⟩, fun s'' h'' => ?_⟩
    · have hne : entry'.2 ≠ entry.2 := fun heq => hother (heq ▸ List.mem_map_of_mem hentry')
      rw [hsettles.hasBackingField_eq, hnew entry' (List.mem_cons_of_mem _ hentry')]
      by_cases hstores : entry.1.storesValue
      · simp [hstores, hne]
      · simp [hstores]
    · have hlater : later (entry :: rest) =
          (if entry.1.storesValue then [entry.2] else []) ++ later rest := by
        by_cases hstores : entry.1.storesValue
        · simp [later, hstores]
        · simp [later, hstores]
      rw [hlater]
      exact hsettles.append h''
  exact AfterOr.imp hloop fun _ _ h => ⟨h.1.2.1, h.2⟩

/-- The last pass settles which properties have backing fields, and says what its log says. -/
theorem afterOr_resolveBodies_storage
    (hs : s₀.Poised P) (hi : s₀.Indexed P) (hnodes : Declaration.Separates nodes P)
    (hinner : P.flatMap (fun q => q.2.ownNodes.tail) ⊆ inner) :
    AfterOr (resolveBodies options) s₀ (fun _ s => Underway inner s₀ s ∧
      Session.Settles s₀.scopes.size nodes s₀.storedLater s₀.fieldLog s₀.toSession s.toSession)
      fun _ _ => True := by
  have hbegin : Underway inner s₀ s₀ :=
    ⟨hs.kinded, .refl _, ⟨[], Appends.refl s₀⟩, hs.settled⟩
  refine afterOr_bind.mpr (afterOr_tables.mpr ?_)
  have hclasses := afterOr_forM_underway nodes s₀.tables.classes.toList
    (fun entry hentry s h _ => afterOr_class_underway hs hnodes hinner h hentry) hbegin fun _ => rfl
  refine AfterOr.bind hclasses fun _ s₁ h₁ => ?_
  have hstored₁ : ∀ p, s₁.trace.hasBackingField p = s₀.trace.hasBackingField p := by
    intro p
    rw [h₁.2.hasBackingField_eq]
    exact Bool.or_false _
  have hproperties := afterOr_properties_underway options hs hi hnodes hinner h₁.1
    hstored₁
  refine AfterOr.bind hproperties fun _ s₂ h₂ => ?_
  have hstored₂ : ∀ p, s₂.trace.hasBackingField p = s₀.stores p := by
    intro p
    rw [h₂.2.hasBackingField_eq, hstored₁]
    rfl
  have hfunctions := afterOr_forM_underway nodes s₀.tables.functions.toList
    (fun entry hentry s h hstored => afterOr_function_underway options hs hnodes hinner
      h hentry hstored) h₂.1 hstored₂
  refine AfterOr.relax hfunctions fun _ s₃ h₃ => ?_
  have hall := h₁.2.append (h₂.2.append h₃.2)
  rw [List.append_nil] at hall
  exact ⟨h₃.1, hall⟩

end Pass

end DeclAnalysis
