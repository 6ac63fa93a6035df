import DeclAnalysis.Proofs.Resolve.BodyFrame
import DeclAnalysis.Proofs.Resolve.Pass
import DeclAnalysis.Proofs.Tree.Spaces

/-!
# Passes within a frame

Once all classes and namespaces have been collected, every scope sees certain types for good.
A survey says what each declaration of a layout sees where it stands. The passes that follow
keep to it: they stay within a frame in which type references are resolved as the survey
foresees.
-/

namespace DeclAnalysis

/-- The declaration of a function or constructor. -/
def FunctionLike.declaration : FunctionLike → Declaration
  | function decl => .functionDecl decl
  | constructor decl => .constructorDecl decl

theorem FunctionLike.id_declaration (f : FunctionLike) : f.declaration.id = f.id := by
  cases f <;> rfl

theorem Tables.classes_addProperty
    (t : Tables) (decl : PropertyDecl) (descriptor scope : Nat) (container : Option Nat) :
    (t.addProperty decl descriptor scope container).classes = t.classes := by
  cases container <;> rfl

/-- The frame of an analysis of a layout in which type references are resolved as foreseen. -/
def Layout.frame
    (l : Layout) (foreseen : Space → String → Ty → Prop) (bound : Nat)
    (mayBind : Nat → String → Prop) : Session.Frame where
  nodes := l.innerNodes
  bound := bound
  mayBind := mayBind
  mayRecord node type := ∃ p ∈ l.typeRefs, p.2.id = node ∧ foreseen p.1 p.2.name type

/-- The frame in which any variable may be bound. -/
abbrev Layout.openFrame (l : Layout) (foreseen : Space → String → Ty → Prop) : Session.Frame :=
  l.frame foreseen 0 fun _ _ => True

namespace Session

/-- The types that names denote in a scope are foreseen for a space. -/
structure Sees (foreseen : Space → String → Ty → Prop) (space : Space) (scope : Nat)
    (s : Session) : Prop where
  formed : s.model.Formed
  lt_size : scope < s.scopes.size
  typeOf : ∀ name, foreseen space name (s.model.typeOf scope name)

variable {foreseen : Space → String → Ty → Prop} {space : Space} {scope : Nat} {s s' : Session}

theorem Sees.of_within {fr : Frame} (h : s.Sees foreseen space scope) (hwithin : fr.Within s s') :
    s'.Sees foreseen space scope := by
  refine ⟨hwithin.formed h.formed, h.lt_size.trans_le hwithin.nests.size_le, fun name => ?_⟩
  rw [hwithin.typeOf_eq h.formed h.lt_size]
  exact h.typeOf name

/-- Type references that stand in the space, or have been resolved before, are admitted. -/
theorem Sees.admits
    {l : Layout} {bound : Nat} {mayBind : Nat → String → Prop} {locals : List String}
    {refs : List TypeRef} (h : s.Sees foreseen space scope) (hbound : bound ≤ s.scopes.size)
    (hlocals : ∀ name ∈ locals,
      bound ≤ s.scopes.storage scope ∨ mayBind (s.scopes.storage scope) name)
    (hrefs : ∀ ref ∈ refs,
      (s.trace.typeReference? ref.id).isSome ∨ (space, ref) ∈ l.typeRefs) :
    (l.frame foreseen bound mayBind).ground.admits locals refs scope s := by
  refine ⟨h.formed, h.lt_size, hbound, hlocals, fun ref href => ?_⟩
  refine (hrefs ref href).imp_right fun hmem => ?_
  exact ⟨(space, ref), hmem, rfl, h.typeOf ref.name⟩

theorem Sees.admits_open
    {l : Layout} {locals : List String} {refs : List TypeRef}
    (h : s.Sees foreseen space scope) (hrefs : ∀ ref ∈ refs, (space, ref) ∈ l.typeRefs) :
    (l.openFrame foreseen).ground.admits locals refs scope s :=
  h.admits (Nat.zero_le _) (fun _ _ => .inl (Nat.zero_le _)) fun ref href => .inr (hrefs ref href)

end Session

namespace PassState

/-- What is known about the declarations of a layout, and what is entered in the tables, agrees
with what is foreseen. -/
structure Surveyed (l : Layout) (foreseen : Space → String → Ty → Prop) (s : PassState) :
    Prop where
  members : ∀ {space : Space} {head : ClassHead} {members : List Declaration} {descriptor : Nat}
    {data : ClassData}, (space, .classDecl head members) ∈ l.placed →
      s.trace.declaration? head.id = some descriptor →
        s.descriptors.classData? descriptor = some data →
          s.Sees foreseen (.classBody head.id :: space) data.memberScope
  namespaces : ∀ {space : Space} {head : NamespaceHead} {members : List Declaration}
    {inner : Nat}, (space, .namespaceDecl head members) ∈ l.placed →
      s.tables.namespaceScopes[head.id]? = some inner →
        s.Sees foreseen (.namespaceBody (head.knownName l.options) :: space) inner
  declaring : ∀ {space : Space} {d : Declaration} {scope : Nat}, (space, d) ∈ l.placed →
    s.tables.declaringScopes[d.id]? = some scope → s.Sees foreseen space scope
  classes : ∀ entry ∈ s.tables.classes.toList, ∃ space members,
    (space, .classDecl entry.1 members) ∈ l.placed ∧
      ∀ data, s.descriptors.classData? entry.2 = some data →
        s.Sees foreseen (.classBody entry.1.id :: space) data.memberScope
  functions : ∀ entry ∈ s.tables.functions.toList, ∃ space,
    (space, entry.1.declaration) ∈ l.placed
  properties : ∀ entry ∈ s.tables.properties.toList, ∃ space,
    (space, .propertyDecl entry.1) ∈ l.placed

variable {l : Layout} {foreseen : Space → String → Ty → Prop} {s s' s'' : PassState}

/-- A survey still holds after changes within a frame that leave the tables alone. -/
theorem Surveyed.of_within
    {bound : Nat} {mayBind : Nat → String → Prop} (h : s.Surveyed l foreseen) (hl : l.Distinct)
    (hwithin : (l.frame foreseen bound mayBind).Within s.toSession s'.toSession)
    (htables : s'.tables = s.tables) : s'.Surveyed l foreseen := by
  refine ⟨fun hplaced hdeclared hdata => ?_, fun hplaced hscope => ?_, fun hplaced hscope => ?_,
    fun entry hentry => ?_, fun entry hentry => ?_, fun entry hentry => ?_⟩
  · rw [hwithin.declaration?_eq (hl.id_not_mem_innerNodes hplaced)] at hdeclared
    obtain ⟨data, hdata, hmembers⟩ := hwithin.sameTypes.exists_classData? hdata
    rw [hmembers]
    exact (h.members hplaced hdeclared hdata).of_within hwithin
  · rw [htables] at hscope
    exact (h.namespaces hplaced hscope).of_within hwithin
  · rw [htables] at hscope
    exact (h.declaring hplaced hscope).of_within hwithin
  · rw [htables] at hentry
    obtain ⟨space, members, hplaced, hsees⟩ := h.classes entry hentry
    refine ⟨space, members, hplaced, fun data hdata => ?_⟩
    obtain ⟨data, hdata, hmembers⟩ := hwithin.sameTypes.exists_classData? hdata
    rw [hmembers]
    exact (hsees data hdata).of_within hwithin
  · rw [htables] at hentry
    exact h.functions entry hentry
  · rw [htables] at hentry
    exact h.properties entry hentry

/-- What a declaration that is entered sees, together with what was known before. -/
theorem Surveyed.declaring_insert
    (h : s.Surveyed l foreseen) (hl : l.Distinct) {space : Space} {d : Declaration}
    (hplaced : (space, d) ∈ l.placed) {scope : Nat} (hsees : s.Sees foreseen space scope)
    {space' : Space} {d' : Declaration} {scope' : Nat} (hplaced' : (space', d') ∈ l.placed)
    (hscope : (s.tables.declaringScopes.insert d.id scope)[d'.id]? = some scope') :
    s.Sees foreseen space' scope' := by
  rcases getElem?_insert_cases hscope with ⟨hid, rfl⟩ | hold
  · obtain ⟨rfl, -⟩ := Prod.mk.inj (hl.eq_of_id_eq hplaced hplaced' hid)
    exact hsees
  · exact h.declaring hplaced' hold

theorem Surveyed.addFunction
    (h : s.Surveyed l foreseen) (hl : l.Distinct) (f : FunctionLike) {space : Space}
    (hplaced : (space, f.declaration) ∈ l.placed) {scope : Nat}
    (hsees : s.Sees foreseen space scope) (descriptor : Nat) :
    { s with tables := s.tables.addFunction f descriptor scope }.Surveyed l foreseen := by
  refine ⟨h.members, h.namespaces, fun hplaced' hscope => ?_, h.classes, fun entry hentry => ?_,
    h.properties⟩
  · refine h.declaring_insert hl hplaced hsees hplaced' ?_
    rw [f.id_declaration]
    exact hscope
  · simp only [Tables.addFunction, Array.toList_push, List.mem_append, List.mem_singleton] at hentry
    rcases hentry with hentry | rfl
    · exact h.functions entry hentry
    · exact ⟨space, hplaced⟩

theorem Surveyed.indexProperty (h : s.Surveyed l foreseen) (container property : Nat) :
    { s with tables := s.tables.indexProperty container property }.Surveyed l foreseen :=
  ⟨h.members, h.namespaces, h.declaring, h.classes, h.functions, h.properties⟩

theorem Surveyed.addProperty
    (h : s.Surveyed l foreseen) (hl : l.Distinct) {decl : PropertyDecl} {space : Space}
    (hplaced : (space, .propertyDecl decl) ∈ l.placed) {scope : Nat}
    (hsees : s.Sees foreseen space scope) (descriptor : Nat) (container : Option Nat) :
    { s with tables := s.tables.addProperty decl descriptor scope container }.Surveyed l
      foreseen := by
  have hentered : { s with
      tables := s.tables.addProperty decl descriptor scope none }.Surveyed l foreseen := by
    refine ⟨h.members, h.namespaces, fun hplaced' hscope => ?_, h.classes, h.functions,
      fun entry hentry => ?_⟩
    · exact h.declaring_insert hl hplaced hsees hplaced' hscope
    · simp only [Tables.addProperty, Array.toList_push, List.mem_append,
        List.mem_singleton] at hentry
      rcases hentry with hentry | rfl
      · exact h.properties entry hentry
      · exact ⟨space, hplaced⟩
  cases container with
  | none => exact hentered
  | some container => exact hentered.indexProperty container descriptor

/-! ### Steps of a pass -/

/-- A step that stays within the frame and agrees with the survey. -/
structure Carries (l : Layout) (foreseen : Space → String → Ty → Prop) (s s' : PassState) :
    Prop where
  within : (l.openFrame foreseen).Within s.toSession s'.toSession
  surveyed : s.Surveyed l foreseen → s'.Surveyed l foreseen
  classes_eq : s'.tables.classes = s.tables.classes

instance (l : Layout) (foreseen : Space → String → Ty → Prop) :
    IsPreorder PassState (Carries l foreseen) where
  refl s := ⟨refl_of (l.openFrame foreseen).Within s.toSession, id, rfl⟩
  trans _ _ _ h h' := ⟨h.within.trans h'.within, fun hs => h'.surveyed (h.surveyed hs),
    h'.classes_eq.trans h.classes_eq⟩

/-- The state agrees with the survey, and the scope sees what is foreseen for the space. -/
structure StandsIn (l : Layout) (foreseen : Space → String → Ty → Prop) (space : Space)
    (scope : Nat) (s : PassState) : Prop where
  surveyed : s.Surveyed l foreseen
  sees : s.Sees foreseen space scope

instance (space : Space) (scope : Nat) :
    Stable (StandsIn l foreseen space scope) (Carries l foreseen) where
  stable h hs := ⟨h.surveyed hs.surveyed, hs.sees.of_within h.within⟩

end PassState

namespace Pass

open Analysis
open PassState (Carries StandsIn Surveyed)

variable {l : Layout} {foreseen : Space → String → Ty → Prop} {α : Type}

theorem carries_faultyAnalysis
    (hl : l.Distinct) {x : FaultyAnalysis α} {p : Session → Prop}
    (h : KeepsOr (From p (l.openFrame foreseen).Within) x) :
    KeepsOr (From (fun s : PassState => p s.toSession) (Carries l foreseen))
      (liftM x : Pass α) := by
  refine KeepsOr.of_afterOr fun s => afterOr_faultyAnalysis.mpr ?_
  exact AfterAny.mono (h.afterOr s.toSession) fun _ h hs =>
    ⟨h hs, fun hsurveyed => hsurveyed.of_within hl (h hs) rfl, rfl⟩

theorem carries_analysis
    (hl : l.Distinct) {x : Analysis α} (h : Keeps (l.openFrame foreseen).Within x) :
    KeepsOr (Carries l foreseen) (liftM x : Pass α) := by
  refine KeepsOr.of_afterOr fun s => afterOr_analysis.mpr ?_
  exact (h.after s.toSession).mono fun _ _ h =>
    ⟨h, fun hsurveyed => hsurveyed.of_within hl h rfl, rfl⟩

/-- Reports that are not about names stay within every frame. -/
theorem keepsWithin_reportCode
    {code : DiagnosticCode} (h : code ≠ .unresolvedReference) (node : Nat) (message : String) :
    Keeps (l.openFrame foreseen).Within (reportCode code node message) := by
  refine ⟨fun s => .of_typeReferences_eq (fun _ => rfl) (.refl _) id (.refl _) (.refl _) rfl
    fun node' name => ?_⟩
  let d := Diagnostic.ofCode code node message
  change (s.diagnostics.push d).toList.count _ = _
  rw [Array.toList_push, List.count_append, List.count_eq_zero_of_not_mem (l := [d]), Nat.add_zero]
  intro hmem
  exact h (congrArg Diagnostic.code (List.mem_singleton.mp hmem)).symm

theorem keepsWithin_addVariable (scope : Nat) (name : String) (descriptor : Nat) :
    Keeps (l.openFrame foreseen).Within (onScopes (·.addVariable scope name descriptor)) :=
  ⟨fun _ => .of_scopes (.bind scope (fun _ => rfl) fun _ => rfl) (fun hs => hs.bind scope _)
    (.bind_of_le (Nat.zero_le _) _)⟩

theorem keepsWithin_addFunction (scope : Nat) (name : String) (descriptor : Nat) :
    Keeps (l.openFrame foreseen).Within (onScopes (·.addFunction scope name descriptor)) :=
  ⟨fun _ => .of_scopes (.bind scope (fun _ => rfl) fun _ => rfl) (fun hs => hs.bind scope _)
    (.bind_of_le (Nat.zero_le _) _)⟩

/-! ### Classes -/

theorem carries_registerParameterProperty
    (hl : l.Distinct) (members classId : Nat) (property : String × Nat) :
    KeepsOr (Carries l foreseen) (registerParameterProperty members classId property) := by
  refine KeepsOr.bind (carries_analysis hl (keepsWithin_addVariable members ..)) fun _ => ?_
  refine KeepsOr.bind (carries_analysis hl (keeps_recordBackingField _)) fun _ => ?_
  refine KeepsOr.of_afterOr fun s => afterOr_onTables.mpr ?_
  exact ⟨refl_of _ s.toSession, fun hs => hs.indexProperty classId property.2, rfl⟩

/-- The members of a class are registered in a scope that sees its body. -/
theorem afterOr_registerClass
    (hl : l.Distinct) {s : PassState} (hs : s.Surveyed l foreseen) {space : Space}
    {head : ClassHead} {members : List Declaration}
    (hplaced : (space, .classDecl head members) ∈ l.placed) :
    AfterOr (registerClass head) s
      (fun inner s' => Carries l foreseen s s' ∧
        StandsIn l foreseen (.classBody head.id :: space) inner s')
      fun _ s' => Carries l foreseen s s' := by
  refine afterOr_bind.mpr (afterOr_session.mpr ?_)
  split
  · exact refl_of (Carries l foreseen) s
  rename_i descriptor hdeclared
  refine afterOr_bind.mpr (afterOr_session.mpr ?_)
  split
  · exact refl_of (Carries l foreseen) s
  rename_i data hdata
  have hsees := hs.members hplaced hdeclared hdata
  have hnodes : parameterNodes (head.primaryConstructor.getD []) ⊆
      (l.openFrame foreseen).nodes := by
    intro node hnode
    exact Layout.innerNodes_subset hplaced (List.mem_append_left _ hnode)
  have hrefs : ∀ ref ∈ parameterTypeRefs (head.primaryConstructor.getD []),
      (.classBody head.id :: space, ref) ∈ l.typeRefs := by
    intro ref href
    refine Layout.mem_typeRefs hplaced (List.mem_append_right _ ?_)
    exact List.mem_map_of_mem (List.mem_append_left _ href)
  let Admitted : Session → Prop := fun s => ∀ data', s.descriptors.classData? descriptor =
    some data' → (l.openFrame foreseen).ground.admits [] (parameterTypeRefs
      (head.primaryConstructor.getD [])) data'.memberScope s
  have hkeeps : KeepsOr (From Admitted (l.openFrame foreseen).Within)
      (resolvePrimaryConstructor descriptor head) :=
    keepsFrom_resolvePrimaryConstructor hnodes (List.Subset.refl _) descriptor
  have hprimary := carries_faultyAnalysis hl hkeeps
  have hadmits : Admitted s.toSession := by
    intro data' hdata'
    obtain rfl := Option.some.inj (hdata.symm.trans hdata')
    exact hsees.admits_open hrefs
  refine AfterOr.bind (AfterOr.mono (hprimary.afterOr s) (fun _ _ h => h hadmits)
    fun _ _ h => h hadmits) fun primary s₁ h₁ => ?_
  obtain ⟨constructor, properties⟩ := primary
  have hconclude : ∀ s', Carries l foreseen s s' → Carries l foreseen s s' ∧
      StandsIn l foreseen (.classBody head.id :: space) data.memberScope s' :=
    fun s' h => ⟨h, h.surveyed hs, hsees.of_within h.within⟩
  have hproperties : KeepsOr (Carries l foreseen)
      (properties.forM (registerParameterProperty data.memberScope descriptor)) :=
    KeepsOr.forM _ fun property _ => carries_registerParameterProperty hl _ _ property
  refine AfterOr.bind (AfterAny.mono (hproperties.afterOr s₁) fun _ h => trans_of _ h₁ h)
    fun _ s₂ h₂ => ?_
  cases constructor with
  | none => exact hconclude s₂ h₂
  | some constructor =>
      have hset : KeepsOr (l.openFrame foreseen).Within
          (tryDescriptors (·.setPrimaryConstructor descriptor constructor)) :=
        keepsWithin_editClass (f := fun data =>
          { data with
            primaryConstructor := some constructor
            constructors := data.constructors ++ [constructor] }) descriptor fun _ => rfl
      have hset' := carries_faultyAnalysis (p := fun _ => True) hl hset.from
      refine AfterOr.bind (AfterAny.mono (hset'.afterOr s₂) fun _ h =>
        trans_of (Carries l foreseen) h₂ (h trivial)) fun _ s₃ h₃ => ?_
      exact hconclude s₃ h₃

/-! ### Functions, properties and constructors -/

/-- The type references of a declaration that is no class stand where it does. -/
theorem admits_typeRefs
    {space : Space} {d : Declaration} (hplaced : (space, d) ∈ l.placed) {refs : List TypeRef}
    (hrefs : d.typeRefsIn space = refs.map (space, ·)) {scope : Nat} {s : Session}
    (hs : s.Sees foreseen space scope) :
    (l.openFrame foreseen).ground.admits [] refs scope s := by
  refine hs.admits_open fun ref href => Layout.mem_typeRefs hplaced ?_
  rw [hrefs]
  exact List.mem_map_of_mem href

/-- Resolving a declaration in a scope that sees its space, as a step of a pass. -/
theorem carries_declaration
    (hl : l.Distinct) {space : Space} {d : Declaration} (hplaced : (space, d) ∈ l.placed)
    {refs : List TypeRef} (hrefs : d.typeRefsIn space = refs.map (space, ·)) {scope : Nat}
    {x : FaultyAnalysis α}
    (hx : KeepsOr (From ((l.openFrame foreseen).ground.admits [] refs scope)
      (l.openFrame foreseen).Within) x) :
    KeepsOr (From (StandsIn l foreseen space scope) (Carries l foreseen)) (liftM x : Pass α) :=
  (carries_faultyAnalysis hl hx).mono fun _ _ h hs =>
    h (admits_typeRefs hplaced hrefs hs.sees)

theorem carries_registerFunction
    (hl : l.Distinct) {space : Space} {decl : FunctionDecl}
    (hplaced : (space, .functionDecl decl) ∈ l.placed) (scope : Nat) :
    KeepsOr (From (StandsIn l foreseen space scope) (Carries l foreseen))
      (registerFunction scope decl) := by
  refine KeepsOr.of_afterOr fun s => afterOr_bind.mpr (afterOr_session.mpr ?_)
  let container := s.scopes.containingDeclaration? scope
  have hnodes : decl.nodes ⊆ (l.openFrame foreseen).nodes := Layout.innerNodes_subset hplaced
  have hkeeps : KeepsOr (From ((l.openFrame foreseen).ground.admits [] decl.typeRefs scope)
      (l.openFrame foreseen).Within) (resolveFunction scope container decl) :=
    keepsFrom_resolveFunction hnodes (List.Subset.refl _) ..
  have hresolve := carries_declaration hl hplaced rfl hkeeps
  have hrest : KeepsOr (From (StandsIn l foreseen space scope) (Carries l foreseen)) (do
      let function ← resolveFunction scope container decl
      onScopes (·.addFunction scope decl.name function)
      onTables (·.addFunction (.function decl) function scope) : Pass Unit) := by
    refine hresolve.bind fun function => ?_
    refine KeepsOr.bind (carries_analysis hl (keepsWithin_addFunction scope ..)).from
      fun _ => ?_
    refine KeepsOr.of_afterOr fun s => afterOr_onTables.mpr fun hs => ?_
    exact ⟨refl_of _ s.toSession, fun _ =>
      Surveyed.addFunction hs.surveyed hl (.function decl) hplaced hs.sees function, rfl⟩
  exact hrest.afterOr s

theorem carries_registerProperty
    (hl : l.Distinct) {space : Space} {decl : PropertyDecl}
    (hplaced : (space, .propertyDecl decl) ∈ l.placed) (scope : Nat) :
    KeepsOr (From (StandsIn l foreseen space scope) (Carries l foreseen))
      (registerProperty scope decl) := by
  refine KeepsOr.of_afterOr fun s => afterOr_bind.mpr (afterOr_session.mpr ?_)
  let container := s.scopes.containingDeclaration? scope
  have hnodes : decl.nodes ⊆ (l.openFrame foreseen).nodes := Layout.innerNodes_subset hplaced
  have hkeeps : KeepsOr (From ((l.openFrame foreseen).ground.admits [] decl.typeRefs scope)
      (l.openFrame foreseen).Within) (resolveProperty scope container decl) :=
    keepsFrom_resolveProperty hnodes (List.Subset.refl _) ..
  have hresolve := carries_declaration hl hplaced rfl hkeeps
  have hrest : KeepsOr (From (StandsIn l foreseen space scope) (Carries l foreseen)) (do
      let property ← resolveProperty scope container decl
      onScopes (·.addVariable scope decl.name property)
      onTables (·.addProperty decl property scope container) : Pass Unit) := by
    refine hresolve.bind fun property => ?_
    refine KeepsOr.bind (carries_analysis hl (keepsWithin_addVariable scope ..)).from
      fun _ => ?_
    refine KeepsOr.of_afterOr fun s => afterOr_onTables.mpr fun hs => ?_
    exact ⟨refl_of _ s.toSession, fun _ =>
      hs.surveyed.addProperty hl hplaced hs.sees property container,
      s.tables.classes_addProperty decl property scope container⟩
  exact hrest.afterOr s

theorem carries_registerConstructor
    (hl : l.Distinct) {space : Space} {decl : ConstructorDecl}
    (hplaced : (space, .constructorDecl decl) ∈ l.placed) (scope : Nat) :
    KeepsOr (From (StandsIn l foreseen space scope) (Carries l foreseen))
      (registerConstructor scope decl) := by
  refine KeepsOr.of_afterOr fun s => afterOr_bind.mpr (afterOr_session.mpr ?_)
  split
  · have hreport : KeepsOr (Carries l foreseen) (liftM (reportCode .misplacedConstructor decl.id
        "Constructors are only allowed inside classes") : Pass Unit) :=
      carries_analysis hl (keepsWithin_reportCode (by decide) ..)
    exact AfterAny.mono (hreport.afterOr s) fun _ h _ => h
  rename_i classId _
  have hnodes : decl.nodes ⊆ (l.openFrame foreseen).nodes := Layout.innerNodes_subset hplaced
  have hkeeps : KeepsOr (From ((l.openFrame foreseen).ground.admits [] decl.typeRefs scope)
      (l.openFrame foreseen).Within) (resolveConstructor scope classId decl) :=
    keepsFrom_resolveConstructor hnodes (List.Subset.refl _) ..
  have hresolve := carries_declaration hl hplaced rfl hkeeps
  have hrest : KeepsOr (From (StandsIn l foreseen space scope) (Carries l foreseen)) (do
      let constructor ← resolveConstructor scope classId decl
      tryDescriptors (·.addConstructor classId constructor)
      onTables (·.addFunction (.constructor decl) constructor scope) : Pass Unit) := by
    refine hresolve.bind fun constructor => ?_
    have hadd : KeepsOr (l.openFrame foreseen).Within
        (tryDescriptors (·.addConstructor classId constructor)) :=
      keepsWithin_editClass (f := fun data =>
        { data with constructors := data.constructors ++ [constructor] }) classId fun _ => rfl
    refine KeepsOr.bind ((carries_faultyAnalysis (p := fun _ => True) hl hadd.from).mono
      fun _ _ h _ => h trivial) fun _ => ?_
    refine KeepsOr.of_afterOr fun s => afterOr_onTables.mpr fun hs => ?_
    exact ⟨refl_of _ s.toSession, fun _ =>
      Surveyed.addFunction hs.surveyed hl (.constructor decl) hplaced hs.sees constructor, rfl⟩
  exact hrest.afterOr s

/-! ### Declarations -/

mutual

/-- Registering a declaration of the layout keeps to the survey. -/
theorem carries_register
    (hl : l.Distinct) (space : Space) (scope : Nat) (d : Declaration)
    (hplaced : d.placed l.options space ⊆ l.placed) :
    KeepsOr (From (StandsIn l foreseen space scope) (Carries l foreseen)) (register scope d) := by
  match d with
  | .classDecl head members =>
      obtain ⟨hself, hmembers⟩ := List.cons_subset.mp hplaced
      exact KeepsOr.bind_from (fun s hs => afterOr_registerClass hl hs.surveyed hself)
        fun inner => carries_registerAll hl _ inner members hmembers
  | .namespaceDecl head members =>
      obtain ⟨hself, hmembers⟩ := List.cons_subset.mp hplaced
      refine KeepsOr.of_afterOr fun s => afterOr_bind.mpr (afterOr_tables.mpr ?_)
      split
      · exact fun _ => refl_of (Carries l foreseen) s
      · rename_i inner hinner
        have hrest : KeepsOr (From (StandsIn l foreseen _ inner) (Carries l foreseen))
            (registerAll inner members) := carries_registerAll hl _ inner members hmembers
        refine AfterAny.mono (hrest.afterOr s) fun _ h hs => h ⟨hs.surveyed, ?_⟩
        exact hs.surveyed.namespaces hself hinner
  | .classObject id members =>
      obtain ⟨-, hmembers⟩ := List.cons_subset.mp hplaced
      have hreport : KeepsOr (Carries l foreseen) (liftM (reportCode .unsupportedConstruct id
          "Class objects are not supported yet") : Pass Unit) :=
        carries_analysis hl (keeps_reportOther (by decide) ..)
      exact KeepsOr.bind hreport.from fun _ => carries_registerAll hl space scope members hmembers
  | .functionDecl decl =>
      exact carries_registerFunction hl (hplaced List.mem_cons_self) scope
  | .propertyDecl decl =>
      exact carries_registerProperty hl (hplaced List.mem_cons_self) scope
  | .constructorDecl decl =>
      exact carries_registerConstructor hl (hplaced List.mem_cons_self) scope
  | .typedefDecl id _ | .extensionDecl id _ =>
      have hreport : KeepsOr (Carries l foreseen) (liftM (reportCode .unsupportedConstruct id
          "Unsupported declaration") : Pass Unit) :=
        carries_analysis hl (keeps_reportOther (by decide) ..)
      exact hreport.from

theorem carries_registerAll
    (hl : l.Distinct) (space : Space) (scope : Nat) (ds : List Declaration)
    (hplaced : Declaration.placedIn l.options space ds ⊆ l.placed) :
    KeepsOr (From (StandsIn l foreseen space scope) (Carries l foreseen))
      (registerAll scope ds) := by
  match ds with
  | [] => exact KeepsOr.pure _
  | d :: rest =>
      obtain ⟨hfirst, hrest⟩ := List.append_subset.mp hplaced
      exact (carries_register hl space scope d hfirst).bind fun _ =>
        carries_registerAll hl space scope rest hrest

end

end Pass

end DeclAnalysis
