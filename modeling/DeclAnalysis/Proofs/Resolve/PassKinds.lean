import DeclAnalysis.Proofs.Resolve.Parts
import DeclAnalysis.Proofs.Resolve.BodyKinds
import DeclAnalysis.Proofs.Resolve.Steps

/-!
# Every step of the passes keeps the state well-kinded

Besides the session, the state of the passes consists of the tables, and what is entered in them
are descriptors and scopes again. No step of the passes, not even one that stops with a fault,
stores a descriptor or scope anywhere that does not exist or is of the wrong sort, so that every
configuration that an analysis comes through is well-kinded.
-/

namespace DeclAnalysis

/-! ## States of the passes -/

/-- A function is entered with a descriptor of its name, a constructor with one that belongs to a
class. -/
def FunctionLike.WellKinded (t : DescriptorTable) (descriptor : Nat) : FunctionLike → Prop
  | .function decl => t.Names (.functionSort .plain) decl.name descriptor
  | .constructor _ =>
    ∃ classId, t.Has .classSort classId ∧ t.IsConstructorOf classId descriptor

/-- What is entered in the tables exists and is what it is entered as. -/
structure Tables.WellKinded (t : DescriptorTable) (scopes : Nat) (tables : Tables) : Prop where
  classes : ∀ entry ∈ tables.classes.toList,
    t.Names .classSort (entry.1.name.getD noNameProvided) entry.2
  namespaceScopes_lt : ∀ {node scope : Nat}, tables.namespaceScopes[node]? = some scope →
    scope < scopes
  declaringScopes_lt : ∀ {node scope : Nat}, tables.declaringScopes[node]? = some scope →
    scope < scopes
  functions : ∀ entry ∈ tables.functions.toList, entry.1.WellKinded t entry.2
  properties : ∀ entry ∈ tables.properties.toList, t.Names .propertySort entry.1.name entry.2
  propertiesByContainer : ∀ {container : Nat} {ps : List Nat},
    tables.propertiesByContainer[container]? = some ps →
      container < t.size ∧ ∀ p ∈ ps, t.Has .propertySort p

/-- The session and the tables are well-kinded. -/
structure PassState.WellKinded (s : PassState) : Prop where
  session : s.toSession.WellKinded
  tables : s.tables.WellKinded s.descriptors s.scopes.size

section

variable {t t' : DescriptorTable} {scopes scopes' : Nat}

theorem FunctionLike.WellKinded.of_matures
    {f : FunctionLike} {descriptor : Nat} (h : t.Matures t') (hf : f.WellKinded t descriptor) :
    f.WellKinded t' descriptor := by
  cases f with
  | function decl => exact h.names hf
  | constructor decl =>
      obtain ⟨classId, hclass, hconstructor⟩ := hf
      exact ⟨classId, h.has hclass, h.isConstructorOf hclass.lt_size hconstructor⟩

namespace Tables

variable {tables : Tables}

theorem WellKinded.of_matures
    (h : t.Matures t') (hscopes : scopes ≤ scopes') (htables : tables.WellKinded t scopes) :
    tables.WellKinded t' scopes' where
  classes entry hentry := h.names (htables.classes entry hentry)
  namespaceScopes_lt hscope := (htables.namespaceScopes_lt hscope).trans_le hscopes
  declaringScopes_lt hscope := (htables.declaringScopes_lt hscope).trans_le hscopes
  functions entry hentry := (htables.functions entry hentry).of_matures h
  properties entry hentry := h.names (htables.properties entry hentry)
  propertiesByContainer hps := by
    obtain ⟨hcontainer, hproperties⟩ := htables.propertiesByContainer hps
    exact ⟨hcontainer.trans_le h.size_le, fun p hp => h.has (hproperties p hp)⟩

theorem wellKinded_empty (t : DescriptorTable) (scopes : Nat) :
    Tables.WellKinded t scopes {} := by
  refine ⟨fun _ h => absurd h List.not_mem_nil, fun h => ?_, fun h => ?_,
    fun _ h => absurd h List.not_mem_nil, fun _ h => absurd h List.not_mem_nil, fun h => ?_⟩
  all_goals
    rw [Std.TreeMap.getElem?_emptyc] at h
    cases h

section

variable (htables : tables.WellKinded t scopes)

include htables

/-- A scope that is found is one that was entered. -/
theorem WellKinded.declaringScope_lt {node scope : Nat} (h : tables.declaringScope node = .ok scope) :
    scope < scopes := by
  unfold declaringScope at h
  cases hscope : tables.declaringScopes[node]? with
  | none =>
      rw [hscope] at h
      cases h
  | some scope' =>
      rw [hscope] at h
      obtain rfl := Except.ok.inj h
      exact htables.declaringScopes_lt hscope

theorem WellKinded.propertiesOf (container : Nat) :
    ∀ p ∈ tables.propertiesOf container, t.Has .propertySort p := by
  intro p hp
  unfold Tables.propertiesOf at hp
  rw [Std.TreeMap.getD_eq_getD_getElem?] at hp
  cases hps : tables.propertiesByContainer[container]? with
  | none => simp [hps] at hp
  | some ps =>
      rw [hps] at hp
      exact (htables.propertiesByContainer hps).2 p hp

/-- Entering the scope that a declaration stands in. -/
theorem WellKinded.insertDeclaringScope (node : Nat) {scope : Nat} (hscope : scope < scopes) :
    WellKinded t scopes
      { tables with declaringScopes := tables.declaringScopes.insert node scope } := by
  refine { htables with declaringScopes_lt := fun {node' scope'} h => ?_ }
  rcases getElem?_insert_cases h with ⟨-, rfl⟩ | hold
  · exact hscope
  · exact htables.declaringScopes_lt hold

theorem WellKinded.insertNamespaceScope (node : Nat) {scope : Nat} (hscope : scope < scopes) :
    WellKinded t scopes
      { tables with namespaceScopes := tables.namespaceScopes.insert node scope } := by
  refine { htables with namespaceScopes_lt := fun {node' scope'} h => ?_ }
  rcases getElem?_insert_cases h with ⟨-, rfl⟩ | hold
  · exact hscope
  · exact htables.namespaceScopes_lt hold

theorem WellKinded.addClass
    {head : ClassHead} {descriptor scope : Nat}
    (hclass : t.Names .classSort (head.name.getD noNameProvided) descriptor)
    (hscope : scope < scopes) : (tables.addClass head descriptor scope).WellKinded t scopes := by
  refine { htables.insertDeclaringScope head.id hscope with classes := fun entry hentry => ?_ }
  simp only [Tables.addClass, Array.toList_push, List.mem_append, List.mem_singleton] at hentry
  rcases hentry with hentry | rfl
  · exact htables.classes entry hentry
  · exact hclass

theorem WellKinded.addFunction
    {f : FunctionLike} {descriptor scope : Nat} (hf : f.WellKinded t descriptor)
    (hscope : scope < scopes) : (tables.addFunction f descriptor scope).WellKinded t scopes := by
  refine { htables.insertDeclaringScope f.id hscope with functions := fun entry hentry => ?_ }
  simp only [Tables.addFunction, Array.toList_push, List.mem_append, List.mem_singleton] at hentry
  rcases hentry with hentry | rfl
  · exact htables.functions entry hentry
  · exact hf

theorem WellKinded.indexProperty
    {container property : Nat} (hcontainer : container < t.size)
    (hproperty : t.Has .propertySort property) :
    (tables.indexProperty container property).WellKinded t scopes := by
  refine { htables with propertiesByContainer := fun {container' ps} h => ?_ }
  rcases getElem?_insert_cases h with ⟨rfl, rfl⟩ | hold
  · refine ⟨hcontainer, fun p hp => ?_⟩
    rcases List.mem_append.mp hp with hmem | hmem
    · exact htables.propertiesOf container p hmem
    · rw [List.mem_singleton.mp hmem]
      exact hproperty
  · exact htables.propertiesByContainer hold

theorem WellKinded.addProperty
    {decl : PropertyDecl} {descriptor scope : Nat} {container : Option Nat}
    (hproperty : t.Names .propertySort decl.name descriptor) (hscope : scope < scopes)
    (hcontainer : ∀ c ∈ container, c < t.size) :
    (tables.addProperty decl descriptor scope container).WellKinded t scopes := by
  have hentered : (tables.addProperty decl descriptor scope none).WellKinded t scopes := by
    refine { htables.insertDeclaringScope decl.id hscope with properties := fun entry hentry => ?_ }
    simp only [Tables.addProperty, Array.toList_push, List.mem_append,
      List.mem_singleton] at hentry
    rcases hentry with hentry | rfl
    · exact htables.properties entry hentry
    · exact hproperty
  cases container with
  | none => exact hentered
  | some c => exact hentered.indexProperty (hcontainer c (Option.mem_some.mpr rfl)) hproperty.toHas

end

end Tables

end

theorem PassState.WellKinded.of_session
    {s : PassState} (hs : s.WellKinded) {session : Session} (hsession : session.WellKinded)
    (h : s.toSession.Matures session) :
    PassState.WellKinded { s with toSession := session } :=
  ⟨hsession, hs.tables.of_matures h.descriptors h.scopes_le⟩

namespace Pass

open Analysis

/-! ## Computations of a pass -/

section

variable {α β : Type} {s : PassState} {q : α → PassState → Prop} {r : β → PassState → Prop}

/-- The pass leads from the state to a well-kinded one into which it has matured, and to a
well-kinded one also if it stops with a fault. -/
def AfterMaturing (x : Pass α) (s : PassState) (q : α → PassState → Prop) : Prop :=
  AfterOr x s (fun a s' => s'.WellKinded ∧ s.toSession.Matures s'.toSession ∧ q a s')
    fun _ s' => s'.WellKinded

theorem AfterMaturing.pure {a : α} (hs : s.WellKinded) (h : q a s) :
    AfterMaturing (Pure.pure a) s q :=
  afterOr_pure.mpr ⟨hs, .refl _, h⟩

theorem AfterMaturing.throw (hs : s.WellKinded) (fault : Fault) :
    AfterMaturing (throw fault) s q :=
  afterOr_throw.mpr hs

theorem AfterMaturing.bind
    {x : Pass α} {f : α → Pass β} (hx : AfterMaturing x s q)
    (hf : ∀ a s₁, s₁.WellKinded → s.toSession.Matures s₁.toSession → q a s₁ →
      AfterMaturing (f a) s₁ r) :
    AfterMaturing (x >>= f) s r := by
  refine afterOr_bind.mpr (AfterOr.imp hx ?_)
  rintro a s₁ ⟨hs₁, h₁, ha⟩
  refine AfterOr.imp (hf a s₁ hs₁ h₁ ha) ?_
  exact fun b s₂ ⟨hs₂, h₂, hb⟩ => ⟨hs₂, h₁.trans h₂, hb⟩

theorem AfterMaturing.mono
    {x : Pass α} {q' : α → PassState → Prop} (hx : AfterMaturing x s q)
    (himp : ∀ a s', s'.WellKinded → s.toSession.Matures s'.toSession → q a s' → q' a s') :
    AfterMaturing x s q' :=
  AfterOr.imp hx fun a s' h => ⟨h.1, h.2.1, himp a s' h.1 h.2.1 h.2.2⟩

theorem AfterMaturing.map
    {x : Pass α} {f : α → β} (hx : AfterMaturing x s fun a => r (f a)) :
    AfterMaturing (f <$> x) s r :=
  afterOr_map.mpr hx

theorem AfterMaturing.session_bind {f : Session → Pass β}
    (hf : AfterMaturing (f s.toSession) s r) : AfterMaturing (session >>= f) s r := hf

theorem AfterMaturing.tables_bind {f : Tables → Pass β} (hf : AfterMaturing (f s.tables) s r) :
    AfterMaturing (tables >>= f) s r := hf

theorem AfterMaturing.forM
    {ι : Type} {f : ι → Pass PUnit} (xs : List ι) (hs : s.WellKinded)
    (hf : ∀ i ∈ xs, ∀ s₁ : PassState, s₁.WellKinded → s.toSession.Matures s₁.toSession →
      AfterMaturing (f i) s₁ fun _ _ => True) :
    AfterMaturing (xs.forM f) s fun _ _ => True := by
  induction xs generalizing s with
  | nil => exact .pure hs trivial
  | cons i xs ih =>
      refine (hf i List.mem_cons_self s hs (.refl _)).bind fun _ s₁ hs₁ h₁ _ => ?_
      exact ih hs₁ fun j hj s₂ hs₂ h₂ => hf j (List.mem_cons_of_mem i hj) s₂ hs₂ (h₁.trans h₂)

section

variable (hs : s.WellKinded)

include hs

theorem afterMaturing_analysis
    {x : Analysis α} {q : α → Session → Prop} (hx : Analysis.AfterMaturing x s.toSession q) :
    AfterMaturing (liftM x : Pass α) s fun a s' => q a s'.toSession :=
  afterOr_analysis.mpr (After.mono hx fun _ _ h => ⟨hs.of_session h.1 h.2.1, h.2.1, h.2.2⟩)

theorem afterMaturing_faultyAnalysis
    {x : FaultyAnalysis α} {q : α → Session → Prop} (hx : AfterMaturingOr x s.toSession q) :
    AfterMaturing (liftM x : Pass α) s fun a s' => q a s'.toSession :=
  afterOr_faultyAnalysis.mpr
    (AfterOr.mono hx (fun _ _ h => ⟨hs.of_session h.1 h.2.1, h.2.1, h.2.2⟩)
      fun _ _ h => hs.of_session h.1 h.2)

theorem afterMaturing_onTables
    {f : Tables → Tables} (hf : (f s.tables).WellKinded s.descriptors s.scopes.size) :
    AfterMaturing (onTables f) s fun _ s' => s'.toSession = s.toSession :=
  afterOr_onTables.mpr ⟨⟨hs.session, hf⟩, .refl _, rfl⟩

theorem afterMaturing_ofExcept (x : Except Fault α) :
    AfterMaturing (Pass.ofExcept x) s fun a _ => x = .ok a := by
  cases x with
  | ok a => exact .pure hs rfl
  | error fault => exact .throw hs fault

end

end

/-! ## Classes and namespaces -/

section

variable {s : PassState} (hs : s.WellKinded)

include hs

theorem afterMaturing_collectClass
    {scope : Nat} (hscope : scope < s.scopes.size) (head : ClassHead) :
    AfterMaturing (collectClass scope head) s fun inner s' => inner < s'.scopes.size := by
  refine .session_bind ?_
  have hcontainer : ∀ c ∈ s.scopes.containingDeclaration? scope, c < s.descriptors.size :=
    fun c hc => hs.session.scopes.containingDeclaration?_lt (Option.mem_def.mp hc)
  refine (afterMaturing_analysis hs (afterMaturing_createScope hs.session .classScope (some scope)
    none (fun p hp => Option.mem_some.mp hp ▸ hscope)
    fun c hc => absurd hc (Option.not_mem_none c))).bind fun members s₁ hs₁ h₁ hmembers => ?_
  have hmatures := DescriptorTable.Matures.create s₁.descriptors (head.name.getD noNameProvided)
    (s.scopes.containingDeclaration? scope)
    (.classKind false { memberScope := members, declaringScope := scope })
  refine (afterMaturing_analysis hs₁ (afterMaturing_createDescriptor hs₁.session ?_)).bind
    fun descriptor s₂ hs₂ h₂ hdescriptor => ?_
  · refine Descriptor.wellKinded_classKind (fun c hc => ?_)
      ⟨hmembers.1, h₁.scope hscope, nofun, nofun, nofun⟩
    exact (h₁.descriptor (hcontainer c hc)).trans_le hmatures.size_le
  have hclass : s₂.descriptors.Names .classSort (head.name.getD noNameProvided) descriptor := by
    rw [hdescriptor.2, hdescriptor.1]
    exact s₁.descriptors.names_create ..
  have htree := (hs₂.session.scopes.setOwner members hclass.lt_size).addClassifier scope hclass
  have hsize : s₂.scopes.size ≤ ((s₂.scopes.setOwner members descriptor).addClassifier scope
      (head.name.getD noNameProvided) descriptor).size := by
    unfold ScopeTree.addClassifier ScopeTree.setOwner
    rw [ScopeTree.size_bind, ScopeTree.size_modify]
  refine (afterMaturing_analysis hs₂ (afterMaturing_onScopes hs₂.session htree hsize)).bind
    fun _ s₃ hs₃ h₃ _ => ?_
  refine (afterMaturing_analysis hs₃ (afterMaturing_recordDeclaration hs₃.session head.id
    (h₃.descriptor hclass.lt_size))).bind fun _ s₄ hs₄ h₄ _ => ?_
  have hto := (h₁.trans h₂).trans (h₃.trans h₄)
  refine (afterMaturing_onTables hs₄ (hs₄.tables.addClass
    ((h₃.trans h₄).descriptors.names hclass) (hto.scope hscope))).bind fun _ s₅ hs₅ h₅ _ => ?_
  exact .pure hs₅ (((h₂.trans h₃).trans (h₄.trans h₅)).scope hmembers.1)

theorem afterMaturing_declareNamespace (scope : Nat) (name : String) (node : Nat) :
    AfterMaturing (declareNamespace scope name node) s fun _ _ => True := by
  refine .session_bind ?_
  have hcontainer : ∀ c ∈ s.scopes.containingDeclaration? scope, c < s.descriptors.size :=
    fun c hc => hs.session.scopes.containingDeclaration?_lt (Option.mem_def.mp hc)
  refine (afterMaturing_analysis hs (afterMaturing_createScope hs.session .namespaceScope none
    none (fun p hp => absurd hp (Option.not_mem_none p))
    fun c hc => absurd hc (Option.not_mem_none c))).bind fun members s₁ hs₁ h₁ hmembers => ?_
  have hmatures := DescriptorTable.Matures.create s₁.descriptors name
    (s.scopes.containingDeclaration? scope) (.namespaceKind members)
  refine (afterMaturing_analysis hs₁ (afterMaturing_createDescriptor hs₁.session ?_)).bind
    fun descriptor s₂ hs₂ h₂ hdescriptor => ?_
  · refine Descriptor.wellKinded_namespaceKind (fun c hc => ?_) hmembers.1
    exact (h₁.descriptor (hcontainer c hc)).trans_le hmatures.size_le
  have hnamespace : s₂.descriptors.Names .namespaceSort name descriptor := by
    rw [hdescriptor.2, hdescriptor.1]
    exact s₁.descriptors.names_create ..
  have htree := (hs₂.session.scopes.setOwner members hnamespace.lt_size).addNamespace scope
    hnamespace
  have hsize : s₂.scopes.size ≤ ((s₂.scopes.setOwner members descriptor).addNamespace scope name
      descriptor).size := by
    unfold ScopeTree.addNamespace ScopeTree.setOwner
    rw [ScopeTree.size_bind, ScopeTree.size_modify]
  refine (afterMaturing_analysis hs₂ (afterMaturing_onScopes hs₂.session htree hsize)).bind
    fun _ s₃ hs₃ h₃ _ => ?_
  refine (afterMaturing_analysis hs₃ (afterMaturing_recordDeclaration hs₃.session node
    (h₃.descriptor hnamespace.lt_size))).bind fun _ s₄ hs₄ _ _ => ?_
  exact .pure hs₄ trivial

theorem afterMaturing_importMembers
    {scope : Nat} (hscope : scope < s.scopes.size) (imported : Expr) :
    AfterMaturing (importMembers scope imported) s fun _ _ => True := by
  refine (afterMaturing_analysis hs (afterMaturing_infer hs.session hscope imported)).bind
    fun type s₁ hs₁ _ _ => ?_
  cases type with
  | none => exact .pure hs₁ trivial
  | some type =>
      refine .session_bind ?_
      split
      · rename_i members hmembers
        have himport := hs₁.session.descriptors.memberScope?_lt hmembers
        have hsize : s₁.scopes.size ≤ (s₁.scopes.importScope scope members).size := by
          unfold ScopeTree.importScope
          rw [ScopeTree.size_modify]
        exact (afterMaturing_analysis hs₁ (afterMaturing_onScopes hs₁.session
          (hs₁.session.scopes.importScope scope himport) hsize)).mono fun _ _ _ _ _ => trivial
      · split
        · exact (afterMaturing_analysis hs₁ (afterMaturing_reportCode hs₁.session ..)).mono
            fun _ _ _ _ _ => trivial
        · exact .pure hs₁ trivial

theorem afterMaturing_applyImport
    {scope : Nat} (hscope : scope < s.scopes.size) (i : ImportDirective) :
    AfterMaturing (applyImport scope i) s fun _ _ => True := by
  refine applyImport_cases (p := (AfterMaturing · s _)) scope i (.throw hs) (.pure hs trivial) ?_
  exact fun imported _ => afterMaturing_importMembers hs hscope imported

theorem afterMaturing_collectNamespace
    (options : AnalysisOptions) {scope : Nat} (hscope : scope < s.scopes.size)
    (head : NamespaceHead) :
    AfterMaturing (collectNamespace options scope head) s fun inner s' =>
      inner < s'.scopes.size := by
  have hcontents : ∀ (descriptor : Nat) (s₁ : PassState), s₁.WellKinded →
      s.toSession.Matures s₁.toSession →
        AfterMaturing (openContents scope head descriptor) s₁ fun inner s' =>
          inner < s'.scopes.size := by
    intro descriptor s₁ hs₁ h₁
    unfold openContents
    refine .session_bind ?_
    split
    · exact .throw hs₁ _
    · rename_i members hmembers
      have hlt := hs₁.session.descriptors.namespaceMembers?_lt hmembers
      refine (afterMaturing_analysis hs₁ (afterMaturing_createWriteThrough hs₁.session
        (h₁.scope hscope) hlt)).bind fun inner s₂ hs₂ _ hinner => ?_
      refine (afterMaturing_onTables hs₂ (hs₂.tables.insertNamespaceScope head.id hinner.1)).bind
        fun _ s₃ hs₃ h₃ _ => ?_
      refine (AfterMaturing.forM head.imports hs₃ fun i _ s₄ hs₄ h₄ => ?_).bind
        fun _ s₄ hs₄ h₄ _ => ?_
      · exact afterMaturing_applyImport hs₄ ((h₃.trans h₄).scope hinner.1) i
      · exact .pure hs₄ ((h₃.trans h₄).scope hinner.1)
  refine .session_bind ?_
  dsimp only
  split
  · rename_i known _
    exact hcontents known s hs (.refl _)
  · refine (afterMaturing_declareNamespace hs ..).bind fun descriptor s₁ hs₁ h₁ _ => ?_
    exact hcontents descriptor s₁ hs₁ h₁

theorem afterMaturing_namespaceScope (head : NamespaceHead) :
    AfterMaturing (namespaceScope head) s fun inner s' => inner < s'.scopes.size := by
  refine .tables_bind ?_
  split
  · exact .throw hs _
  · rename_i inner hinner
    exact .pure hs (hs.tables.namespaceScopes_lt hinner)

/-! ## Signatures -/

theorem afterMaturing_registerParameterProperty
    (members : Nat) {classId : Nat} (hclass : classId < s.descriptors.size)
    {property : String × Nat} (hproperty : s.descriptors.Names .propertySort property.1 property.2) :
    AfterMaturing (registerParameterProperty members classId property) s fun _ _ => True := by
  have hsize : s.scopes.size ≤ (s.scopes.addVariable members property.1 property.2).size :=
    (ScopeTree.size_bind ..).ge
  refine (afterMaturing_analysis hs (afterMaturing_onScopes hs.session
    (hs.session.scopes.addVariable members (.inr hproperty)) hsize)).bind fun _ s₁ hs₁ h₁ _ => ?_
  refine (afterMaturing_analysis hs₁ (afterMaturing_recordBackingField hs₁.session
    (h₁.has hproperty.toHas))).bind fun _ s₂ hs₂ h₂ _ => ?_
  have hto := h₁.trans h₂
  exact (afterMaturing_onTables hs₂ (hs₂.tables.indexProperty (hto.descriptor hclass)
    (hto.has hproperty.toHas))).mono fun _ _ _ _ _ => trivial

theorem afterMaturing_registerClass (head : ClassHead) :
    AfterMaturing (registerClass head) s fun inner s' => inner < s'.scopes.size := by
  refine .session_bind ?_
  split
  · exact .throw hs _
  · rename_i descriptor hdeclaration
    refine .session_bind ?_
    split
    · exact .throw hs _
    · rename_i data hdata
      have hclass : s.descriptors.Has .classSort descriptor :=
        DescriptorTable.has_classSort_iff.mpr (Option.isSome_of_eq_some hdata)
      have hmembers := (hs.session.descriptors.classData hclass.lt_size hdata).memberScope_lt
      refine (afterMaturing_faultyAnalysis hs (afterMaturingOr_resolvePrimaryConstructor hs.session
        hclass head)).bind fun result s₁ hs₁ h₁ hresult => ?_
      obtain ⟨constructor, properties⟩ := result
      refine (AfterMaturing.forM properties hs₁ fun property hproperty s₂ hs₂ h₂ => ?_).bind
        fun _ s₂ hs₂ h₂ _ => ?_
      · exact afterMaturing_registerParameterProperty hs₂ _
          ((h₁.trans h₂).descriptor hclass.lt_size)
          (h₂.descriptors.names (hresult.2 property hproperty))
      · have hto := h₁.trans h₂
        cases constructor with
        | none => exact .pure hs₂ (hto.scope hmembers)
        | some c =>
            have hc := h₂.descriptors.isConstructorOf (h₁.descriptor hclass.lt_size)
              (hresult.1 c (Option.mem_some.mpr rfl))
            refine (afterMaturing_faultyAnalysis hs₂ (afterMaturingOr_tryDescriptors hs₂.session
              fun t ht => hs₂.session.descriptors.setPrimaryConstructor hc ht)).bind
              fun _ s₃ hs₃ h₃ _ => ?_
            exact .pure hs₃ ((hto.trans h₃).scope hmembers)

theorem afterMaturing_registerFunction
    {scope : Nat} (hscope : scope < s.scopes.size) (decl : FunctionDecl) :
    AfterMaturing (registerFunction scope decl) s fun _ _ => True := by
  refine .session_bind ?_
  have hcontainer : ∀ c ∈ s.scopes.containingDeclaration? scope, c < s.descriptors.size :=
    fun c hc => hs.session.scopes.containingDeclaration?_lt (Option.mem_def.mp hc)
  refine (afterMaturing_faultyAnalysis hs (afterMaturingOr_resolveFunction hs.session scope
    hcontainer decl)).bind fun function s₁ hs₁ h₁ hfunction => ?_
  have hsize : s₁.scopes.size ≤ (s₁.scopes.addFunction scope decl.name function).size :=
    (ScopeTree.size_bind ..).ge
  refine (afterMaturing_analysis hs₁ (afterMaturing_onScopes hs₁.session
    (hs₁.session.scopes.addFunction scope hfunction) hsize)).bind fun _ s₂ hs₂ h₂ _ => ?_
  exact (afterMaturing_onTables hs₂ (hs₂.tables.addFunction (f := .function decl)
    (h₂.descriptors.names hfunction) ((h₁.trans h₂).scope hscope))).mono fun _ _ _ _ _ => trivial

theorem afterMaturing_registerProperty
    {scope : Nat} (hscope : scope < s.scopes.size) (decl : PropertyDecl) :
    AfterMaturing (registerProperty scope decl) s fun _ _ => True := by
  refine .session_bind ?_
  have hcontainer : ∀ c ∈ s.scopes.containingDeclaration? scope, c < s.descriptors.size :=
    fun c hc => hs.session.scopes.containingDeclaration?_lt (Option.mem_def.mp hc)
  refine (afterMaturing_faultyAnalysis hs (afterMaturingOr_resolveProperty hs.session scope
    hcontainer decl)).bind fun property s₁ hs₁ h₁ hproperty => ?_
  have hsize : s₁.scopes.size ≤ (s₁.scopes.addVariable scope decl.name property).size :=
    (ScopeTree.size_bind ..).ge
  refine (afterMaturing_analysis hs₁ (afterMaturing_onScopes hs₁.session
    (hs₁.session.scopes.addVariable scope (.inr hproperty)) hsize)).bind fun _ s₂ hs₂ h₂ _ => ?_
  have hto := h₁.trans h₂
  exact (afterMaturing_onTables hs₂ (hs₂.tables.addProperty (h₂.descriptors.names hproperty)
    (hto.scope hscope) fun c hc => hto.descriptor (hcontainer c hc))).mono fun _ _ _ _ _ => trivial

theorem afterMaturing_registerConstructor
    {scope : Nat} (hscope : scope < s.scopes.size) (decl : ConstructorDecl) :
    AfterMaturing (registerConstructor scope decl) s fun _ _ => True := by
  refine .session_bind ?_
  split
  · exact (afterMaturing_analysis hs (afterMaturing_reportCode hs.session ..)).mono
      fun _ _ _ _ _ => trivial
  · rename_i classId howner
    have hclass : s.descriptors.Has .classSort classId :=
      DescriptorTable.has_classSort_iff.mpr (Option.filter_eq_some_iff.mp howner).2
    refine (afterMaturing_faultyAnalysis hs (afterMaturingOr_resolveConstructor hs.session scope
      hclass decl)).bind fun c s₁ hs₁ h₁ hc => ?_
    refine (afterMaturing_faultyAnalysis hs₁ (afterMaturingOr_tryDescriptors hs₁.session
      fun t ht => hs₁.session.descriptors.addConstructor hc ht)).bind fun _ s₂ hs₂ h₂ _ => ?_
    have hto := h₁.trans h₂
    refine (afterMaturing_onTables hs₂ (hs₂.tables.addFunction (f := .constructor decl)
      ⟨classId, hto.has hclass, ?_⟩ (hto.scope hscope))).mono fun _ _ _ _ _ => trivial
    exact h₂.descriptors.isConstructorOf (h₁.descriptor hclass.lt_size) hc

theorem afterMaturing_finalizeClasses :
    AfterMaturing finalizeClasses s fun _ _ => True := by
  have hfinalize := hs.session.descriptors.finalizeClasses
  have hmatures : s.toSession.Matures
      { s.toSession with model.descriptors := s.descriptors.finalizeClasses.2 } :=
    ⟨hfinalize.1, Nat.le_refl _, rfl⟩
  exact ⟨hs.of_session (hs.session.of_descriptors hfinalize) hmatures, hmatures, trivial⟩

/-! ## Bodies -/

theorem afterMaturing_resolveFunctionLike
    (options : AnalysisOptions) {f : FunctionLike} {descriptor : Nat}
    (hf : f.WellKinded s.descriptors descriptor) :
    AfterMaturing (resolveFunctionLike options f descriptor) s fun _ _ => True := by
  have hreturn : ∀ s₁ : PassState, s₁.WellKinded → AfterMaturing (do
      if ((← session).descriptors.returnType? descriptor).isNone then
        throw (.at_ f.id .returnTypeUnset) : Pass Unit) s₁ fun _ _ => True := by
    intro s₁ hs₁
    refine .session_bind ?_
    split
    · exact .throw hs₁ _
    · exact .pure hs₁ trivial
  refine .tables_bind ?_
  refine (afterMaturing_ofExcept hs _).bind fun scope s₁ hs₁ h₁ hscope => ?_
  have hlt := h₁.scope (hs.tables.declaringScope_lt hscope)
  cases f with
  | function decl =>
      exact (afterMaturing_faultyAnalysis hs₁ (afterMaturingOr_resolveFunctionBody hs₁.session
        options decl.id decl.body (h₁.has hf.toHas) hlt)).bind fun _ s₂ hs₂ _ _ => hreturn s₂ hs₂
  | constructor decl =>
      refine (afterMaturing_faultyAnalysis hs₁ (afterMaturingOr_resolveConstructorBody hs₁.session
        options (fun c p hp => ?_) hlt decl descriptor)).bind fun _ s₂ hs₂ _ _ => hreturn s₂ hs₂
      exact h₁.has (hs.tables.propertiesOf c p hp)

end

end Pass

/-! ## Steps -/

/-- What is on the agenda refers to scopes that exist and descriptors of the right sort. -/
def Task.WellKinded (s : PassState) : Task → Prop
  | .collect scope _ | .register scope _ => scope < s.scopes.size
  | .resolveProperty scope decl property =>
    (∀ inner, scope = .ok inner → inner < s.scopes.size) ∧
      s.descriptors.Names .propertySort decl.name property
  | .resolveFunction f descriptor => f.WellKinded s.descriptors descriptor
  | _ => True

theorem Task.WellKinded.of_matures
    {s s' : PassState} {task : Task} (h : s.toSession.Matures s'.toSession)
    (htask : task.WellKinded s) : task.WellKinded s' := by
  cases task with
  | collect scope d => exact h.scope htask
  | register scope d => exact h.scope htask
  | resolveProperty scope decl property =>
      exact ⟨fun inner hinner => h.scope (htask.1 inner hinner), h.descriptors.names htask.2⟩
  | resolveFunction f descriptor => exact FunctionLike.WellKinded.of_matures h.descriptors htask
  | _ => trivial

theorem Task.wellKinded_ofClasses (s : PassState) :
    ∀ task ∈ Task.ofClasses s.tables, task.WellKinded s := by
  intro task htask
  obtain ⟨entry, -, rfl⟩ := List.mem_map.mp htask
  trivial

theorem Task.wellKinded_ofBodies {s : PassState} (hs : s.WellKinded) :
    ∀ task ∈ Task.ofBodies s.tables, task.WellKinded s := by
  intro task htask
  rcases List.mem_append.mp htask with hclass | htask
  · obtain ⟨entry, -, rfl⟩ := List.mem_map.mp hclass
    trivial
  · rcases List.mem_append.mp htask with hproperty | hfunction
    · obtain ⟨entry, hentry, rfl⟩ := List.mem_map.mp hproperty
      exact ⟨fun inner hinner => hs.tables.declaringScope_lt hinner,
        hs.tables.properties entry hentry⟩
    · obtain ⟨entry, hentry, rfl⟩ := List.mem_map.mp hfunction
      exact hs.tables.functions entry hentry


namespace Task

open Pass

variable {s : PassState}

/-- The members of a declaration come next. -/
theorem afterMaturing_members
    {α : Type} {x : Pass α} {f : α → Declaration → Task} (members : List Declaration)
    (hx : AfterMaturing x s fun a s' => ∀ d, (f a d).WellKinded s') :
    AfterMaturing ((fun a => members.map (f a)) <$> x) s fun more s' =>
      ∀ task ∈ more, task.WellKinded s' := by
  refine .map (hx.mono fun a s' _ _ h task htask => ?_)
  obtain ⟨d, -, rfl⟩ := List.mem_map.mp htask
  exact h d

/-- Nothing comes of it. -/
theorem afterMaturing_last
    {α : Type} {x : Pass α} {q : α → PassState → Prop} (hx : AfterMaturing x s q) :
    AfterMaturing ((fun _ => ([] : List Task)) <$> x) s fun more s' =>
      ∀ task ∈ more, task.WellKinded s' :=
  .map (hx.mono fun _ _ _ _ _ _ h => absurd h List.not_mem_nil)

section

variable (hs : s.WellKinded) (options : AnalysisOptions)

include hs

theorem afterMaturing_none :
    AfterMaturing (pure [] : Pass (List Task)) s fun more s' =>
      ∀ task ∈ more, task.WellKinded s' :=
  .pure hs fun _ h => absurd h List.not_mem_nil

theorem afterMaturing_runCollect
    {scope : Nat} (hscope : scope < s.scopes.size) (d : Declaration) :
    AfterMaturing ((Task.collect scope d).run options) s fun more s' =>
      ∀ task ∈ more, task.WellKinded s' := by
  cases d with
  | classDecl head members =>
      rw [run]
      exact afterMaturing_members members
        ((afterMaturing_collectClass hs hscope head).mono fun _ _ _ _ h _ => h)
  | namespaceDecl head members =>
      rw [run]
      exact afterMaturing_members members
        ((afterMaturing_collectNamespace hs options hscope head).mono fun _ _ _ _ h _ => h)
  | classObject id members =>
      rw [run]
      refine .pure hs fun task htask => ?_
      obtain ⟨d, -, rfl⟩ := List.mem_map.mp htask
      exact hscope
  | typedefDecl id name =>
      rw [run]
      exact .throw hs _
  | extensionDecl id members =>
      rw [run]
      exact .throw hs _
  | functionDecl decl =>
      rw [run]
      exact afterMaturing_none hs
  | propertyDecl decl =>
      rw [run]
      exact afterMaturing_none hs
  | constructorDecl decl =>
      rw [run]
      exact afterMaturing_none hs

theorem afterMaturing_reportInPass (code : DiagnosticCode) (node : Nat) (message : String) :
    AfterMaturing (Analysis.reportCode code node message : Pass Unit) s fun _ _ => True :=
  (afterMaturing_analysis hs (Analysis.afterMaturing_reportCode hs.session code node message)).mono
    fun _ _ _ _ _ => trivial

theorem afterMaturing_runRegister
    {scope : Nat} (hscope : scope < s.scopes.size) (d : Declaration) :
    AfterMaturing ((Task.register scope d).run options) s fun more s' =>
      ∀ task ∈ more, task.WellKinded s' := by
  cases d with
  | classDecl head members =>
      rw [run]
      exact afterMaturing_members members
        ((afterMaturing_registerClass hs head).mono fun _ _ _ _ h _ => h)
  | namespaceDecl head members =>
      rw [run]
      exact afterMaturing_members members
        ((afterMaturing_namespaceScope hs head).mono fun _ _ _ _ h _ => h)
  | classObject id members =>
      rw [run]
      exact afterMaturing_members members
        ((afterMaturing_reportInPass hs ..).mono fun _ _ _ h _ _ => h.scope hscope)
  | functionDecl decl =>
      rw [run, Pass.register]
      exact afterMaturing_last (afterMaturing_registerFunction hs hscope decl)
  | propertyDecl decl =>
      rw [run, Pass.register]
      exact afterMaturing_last (afterMaturing_registerProperty hs hscope decl)
  | constructorDecl decl =>
      rw [run, Pass.register]
      exact afterMaturing_last (afterMaturing_registerConstructor hs hscope decl)
  | typedefDecl id name =>
      rw [run, Pass.register]
      exact afterMaturing_last (afterMaturing_reportInPass hs ..)
  | extensionDecl id members =>
      rw [run, Pass.register]
      exact afterMaturing_last (afterMaturing_reportInPass hs ..)

/-- One step keeps the state well-kinded, and so is what it gives rise to. -/
theorem afterMaturing_run {task : Task} (htask : task.WellKinded s) :
    AfterMaturing (task.run options) s fun more s' => ∀ task ∈ more, task.WellKinded s' := by
  cases task with
  | collect scope d => exact afterMaturing_runCollect hs options htask d
  | register scope d => exact afterMaturing_runRegister hs options htask d
  | resolveClasses =>
      rw [run]
      exact .map (.tables_bind (.pure hs (Task.wellKinded_ofClasses s)))
  | resolveClass scope head descriptor =>
      rw [run]
      refine afterMaturing_last (q := fun _ _ => True) ((afterMaturing_ofExcept hs scope).bind
        fun scope s₁ hs₁ _ _ => ?_)
      exact afterMaturing_faultyAnalysis hs₁
        (Analysis.afterMaturingOr_resolveClass hs₁.session scope head descriptor)
  | finalizeClasses =>
      rw [run]
      exact afterMaturing_last (afterMaturing_finalizeClasses hs)
  | resolveBodies =>
      rw [run]
      exact .map (.tables_bind (.pure hs (Task.wellKinded_ofBodies hs)))
  | resolveDelegations head descriptor =>
      rw [run]
      exact afterMaturing_last (afterMaturing_faultyAnalysis hs
        (Analysis.afterMaturingOr_resolveDelegations hs.session head descriptor))
  | resolveProperty scope decl property =>
      rw [run]
      refine afterMaturing_last (q := fun _ _ => True) ((afterMaturing_ofExcept hs scope).bind
        fun scope s₁ hs₁ h₁ hscope => ?_)
      exact afterMaturing_faultyAnalysis hs₁
        (Analysis.afterMaturingOr_resolvePropertyBodies hs₁.session options
          (h₁.scope (htask.1 scope hscope)) (h₁.descriptors.names htask.2))
  | resolveFunction f descriptor =>
      rw [run]
      exact afterMaturing_last (afterMaturing_resolveFunctionLike hs options htask)

end

end Task

/-! ## Runs -/

namespace Config

/-- The state is well-kinded, and so is what is left on the agenda. -/
structure WellKinded (c : Config) : Prop where
  state : c.state.WellKinded
  tasks : ∀ task ∈ c.tasks, task.WellKinded c.state

/-- Before the first pass nothing is there but the scope of the file in that of the root. -/
theorem wellKinded_start (declarations : List Declaration) : (start declarations).WellKinded := by
  have hnone : ∀ n : Nat, ∀ id ∈ (none : Option Nat), id < n := fun _ id hid =>
    absurd hid (Option.not_mem_none id)
  have hroot : (ScopeTree.create {} .root none none).2.WellKinded {} := by
    refine ScopeTree.WellKinded.create (fun id => ?_) .root (hnone _) (hnone _)
    exact Scope.wellKinded_new _ (hnone _) (hnone _)
  have hscopes : (Model.initial.scopes.create .toplevel (some Model.root) none).2.WellKinded {} := by
    refine hroot.create .toplevel (fun p hp => ?_) (hnone _)
    obtain rfl := Option.mem_some.mp hp
    decide
  have hsession : Pass.initialState.toSession.WellKinded :=
    ⟨fun id hid => absurd hid (Nat.not_lt_zero id), hscopes, Trace.wellKinded_empty _,
      fun o ho => absurd ho List.not_mem_nil⟩
  refine ⟨⟨hsession, Tables.wellKinded_empty ..⟩, fun task htask => ?_⟩
  have htoplevel : Pass.toplevel < Pass.initialState.scopes.size := by decide
  simp only [start, Task.agenda, List.mem_append, List.mem_cons, List.mem_map,
    List.not_mem_nil] at htask
  rcases htask with ⟨d, -, rfl⟩ | rfl | ⟨d, -, rfl⟩ | rfl | rfl | h
  · exact htoplevel
  · trivial
  · exact htoplevel
  · trivial
  · trivial
  · exact h.elim

/-- One step leads from a well-kinded configuration to another one. -/
theorem WellKinded.step
    {options : AnalysisOptions} {c c' : Config} (h : Step options c c') (hc : c.WellKinded) :
    c'.WellKinded := by
  cases h with
  | next hrun =>
      rename_i task rest more s s'
      have htask := hc.tasks task List.mem_cons_self
      obtain ⟨hs', hmatures, hmore⟩ :=
        AfterOr.of_run_eq (Task.afterMaturing_run hc.state options htask) hrun
      refine ⟨hs', fun task' htask' => ?_⟩
      rcases List.mem_append.mp htask' with hmem | hmem
      · exact hmore task' hmem
      · exact (hc.tasks task' (List.mem_cons_of_mem task hmem)).of_matures hmatures
  | stop hrun =>
      rename_i task rest fault s s'
      have hafter := Task.afterMaturing_run hc.state options (hc.tasks task List.mem_cons_self)
      unfold Pass.AfterMaturing AfterOr After at hafter
      rw [hrun] at hafter
      exact ⟨hafter, fun _ h => absurd h List.not_mem_nil⟩

theorem WellKinded.reaches
    {options : AnalysisOptions} {c c' : Config} (h : Reaches options c c') (hc : c.WellKinded) :
    c'.WellKinded := by
  induction h with
  | refl => exact hc
  | tail _ hstep ih => exact ih.step hstep

end Config

namespace SourceFile

/-- Every configuration that the analysis of a file comes through is well-kinded, before and after
each step, and its last one, with nothing left on the agenda, is what the analysis gives back. -/
theorem wellKinded_throughout (file : SourceFile) (options : AnalysisOptions) :
    (∀ c, Config.Reaches options (.start file.declarations) c → c.state.WellKinded) ∧
      ∃ c, Config.Reaches options (.start file.declarations) c ∧ c.tasks = [] ∧
        file.analyze options = ⟨c.fault, c.state.toSession⟩ := by
  refine ⟨fun c hc => ?_, Config.exists_reaches_analyze file options⟩
  exact ((Config.wellKinded_start file.declarations).reaches hc).state

/-- A class with a property that can be set and with two constructors. -/
def account : SourceFile :=
  ofDeclarations "account"
    [.classDecl {
      name := "Account"
      primaryConstructor := some [{ name := "owner", typeRef := some { name := "String" } }] }
      [.propertyDecl {
        name := "balance"
        mutable := true
        initializer := some (.constant 0 (.int 0))
        setter := some {
          parameter := some { name := "value" }
          body := some (.assign 0 (.name 0 "$balance") (.name 0 "value")) } },
       .constructorDecl { initializers := [.thisCall 0 [.constant 0 (.string "nobody")]] }]]

/-- The session that the analysis of that class leaves behind is well-kinded. -/
theorem wellKinded_account :
    (account.analyze {}).fault = none ∧ (account.analyze {}).session.descriptors.size = 8 ∧
      (account.analyze {}).session.WellKinded := by
  obtain ⟨hthroughout, c, hreaches, -, hc⟩ := wellKinded_throughout account {}
  refine ⟨by decide +kernel, by decide +kernel, ?_⟩
  rw [hc]
  exact (hthroughout c hreaches).session

end SourceFile

end DeclAnalysis
