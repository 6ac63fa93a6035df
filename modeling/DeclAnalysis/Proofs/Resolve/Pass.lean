import DeclAnalysis.Resolve.Run
import DeclAnalysis.Proofs.Resolve.Parts
import DeclAnalysis.Proofs.Resolve.Signature

/-!
# What holds between the passes

The tables that one pass fills and the next one reads stay consistent with the session:
what is entered as a class, a property or a function is one, and the scope that it stands
in is known.
-/

namespace DeclAnalysis

/-- What the descriptor of a function or constructor must be for its body to be resolved. -/
def FunctionLike.IsDeclared (s : Session) (descriptor : Nat) : FunctionLike → Prop
  | .function _ => (s.descriptors.signature? descriptor).isSome
  | .constructor _ =>
    (∃ classId, s.IsFunction descriptor (some classId)) ∧
      (s.descriptors.returnType? descriptor).isSome

theorem FunctionLike.IsDeclared.of_follows
    {nodes : List Nat} {s s' : Session} {descriptor : Nat} {f : FunctionLike}
    (h : f.IsDeclared s descriptor) (hfollows : Session.Follows nodes s s') :
    f.IsDeclared s' descriptor := by
  cases f with
  | function decl => exact hfollows.evolves.isSome_signature? h
  | constructor decl =>
      obtain ⟨⟨classId, hfunction⟩, hreturn⟩ := h
      exact ⟨⟨classId, hfunction.of_follows hfollows⟩,
        hfollows.evolves.isSome_returnType? hreturn⟩

namespace PassState

/-- What is entered in the tables agrees with the session. -/
structure Consistent (s : PassState) : Prop where
  classes : ∀ entry ∈ s.tables.classes.toList,
    (s.descriptors.classData? entry.2).isSome ∧ entry.1.id ∈ s.tables.declaringScopes
  properties : ∀ entry ∈ s.tables.properties.toList,
    (s.descriptors.propertyData? entry.2).isSome ∧ entry.1.id ∈ s.tables.declaringScopes
  functions : ∀ entry ∈ s.tables.functions.toList,
    entry.1.IsDeclared s.toSession entry.2 ∧ entry.1.id ∈ s.tables.declaringScopes

/-- The second state comes from the first one by changes of the session and by entering
scopes of namespaces. -/
structure Follows (nodes : List Nat) (s s' : PassState) : Prop where
  session : Session.Follows nodes s.toSession s'.toSession
  namespaceScopes : ∀ id ∈ s.tables.namespaceScopes, id ∈ s'.tables.namespaceScopes

variable {nodes nodes' : List Nat} {s s' s'' : PassState}

theorem Follows.refl (nodes : List Nat) (s : PassState) : Follows nodes s s :=
  ⟨.refl nodes s.toSession, fun _ h => h⟩

theorem Follows.trans (h : Follows nodes s s') (h' : Follows nodes s' s'') :
    Follows nodes s s'' :=
  ⟨h.session.trans h'.session, fun id hid => h'.namespaceScopes id (h.namespaceScopes id hid)⟩

theorem Follows.mono (h : Follows nodes s s') (hsub : nodes ⊆ nodes') : Follows nodes' s s' :=
  ⟨h.session.mono hsub, h.namespaceScopes⟩

/-- Changes of the session leave the tables consistent with it. -/
theorem Consistent.of_follows
    (h : s.Consistent) (hfollows : Session.Follows nodes s.toSession s'.toSession)
    (htables : s'.tables = s.tables) :
    s'.Consistent where
  classes entry hentry := by
    rw [htables] at hentry ⊢
    obtain ⟨hclass, hscope⟩ := h.classes entry hentry
    exact ⟨hfollows.evolves.isSome_classData? hclass, hscope⟩
  properties entry hentry := by
    rw [htables] at hentry ⊢
    obtain ⟨hproperty, hscope⟩ := h.properties entry hentry
    exact ⟨hfollows.evolves.isSome_propertyData? hproperty, hscope⟩
  functions entry hentry := by
    rw [htables] at hentry ⊢
    obtain ⟨hfunction, hscope⟩ := h.functions entry hentry
    exact ⟨hfunction.of_follows hfollows, hscope⟩

theorem Consistent.addClass
    (h : s.Consistent) {descriptor : Nat} (hclass : (s.descriptors.classData? descriptor).isSome)
    (head : ClassHead) (scope : Nat) :
    { s with tables := s.tables.addClass head descriptor scope }.Consistent where
  classes entry hentry := by
    simp only [Tables.addClass, Array.toList_push, List.mem_append, List.mem_singleton] at hentry
    simp only [Tables.addClass, Std.TreeMap.mem_insert]
    rcases hentry with hentry | rfl
    · exact ⟨(h.classes entry hentry).1, .inr (h.classes entry hentry).2⟩
    · exact ⟨hclass, .inl (by simp)⟩
  properties entry hentry := by
    simp only [Tables.addClass, Std.TreeMap.mem_insert]
    exact ⟨(h.properties entry hentry).1, .inr (h.properties entry hentry).2⟩
  functions entry hentry := by
    simp only [Tables.addClass, Std.TreeMap.mem_insert]
    exact ⟨(h.functions entry hentry).1, .inr (h.functions entry hentry).2⟩

theorem Consistent.addFunction
    (h : s.Consistent) {f : FunctionLike} {descriptor : Nat}
    (hfunction : f.IsDeclared s.toSession descriptor) (scope : Nat) :
    { s with tables := s.tables.addFunction f descriptor scope }.Consistent where
  classes entry hentry := by
    simp only [Tables.addFunction, Std.TreeMap.mem_insert]
    exact ⟨(h.classes entry hentry).1, .inr (h.classes entry hentry).2⟩
  properties entry hentry := by
    simp only [Tables.addFunction, Std.TreeMap.mem_insert]
    exact ⟨(h.properties entry hentry).1, .inr (h.properties entry hentry).2⟩
  functions entry hentry := by
    simp only [Tables.addFunction, Array.toList_push, List.mem_append,
      List.mem_singleton] at hentry
    simp only [Tables.addFunction, Std.TreeMap.mem_insert]
    rcases hentry with hentry | rfl
    · exact ⟨(h.functions entry hentry).1, .inr (h.functions entry hentry).2⟩
    · exact ⟨hfunction, .inl (by simp)⟩

theorem Consistent.indexProperty (h : s.Consistent) (container property : Nat) :
    { s with tables := s.tables.indexProperty container property }.Consistent :=
  ⟨h.classes, h.properties, h.functions⟩

theorem Consistent.addProperty
    (h : s.Consistent) {descriptor : Nat}
    (hproperty : (s.descriptors.propertyData? descriptor).isSome) (decl : PropertyDecl)
    (scope : Nat) (container : Option Nat) :
    { s with tables := s.tables.addProperty decl descriptor scope container }.Consistent := by
  have hentered : { s with
      tables := s.tables.addProperty decl descriptor scope none }.Consistent := by
    refine ⟨fun entry hentry => ?_, fun entry hentry => ?_, fun entry hentry => ?_⟩
    · simp only [Tables.addProperty, Std.TreeMap.mem_insert]
      exact ⟨(h.classes entry hentry).1, .inr (h.classes entry hentry).2⟩
    · simp only [Tables.addProperty, Array.toList_push, List.mem_append,
        List.mem_singleton] at hentry
      simp only [Tables.addProperty, Std.TreeMap.mem_insert]
      rcases hentry with hentry | rfl
      · exact ⟨(h.properties entry hentry).1, .inr (h.properties entry hentry).2⟩
      · exact ⟨hproperty, .inl (by simp)⟩
    · simp only [Tables.addProperty, Std.TreeMap.mem_insert]
      exact ⟨(h.functions entry hentry).1, .inr (h.functions entry hentry).2⟩
  cases container with
  | none => exact hentered
  | some container => exact hentered.indexProperty container descriptor

end PassState

/-! ## Computations of a pass -/

section Pass

open Analysis

variable {α : Type} {s : PassState} {post : α → PassState → Prop}
  {stopped : Fault → PassState → Prop}

/-- A computation on the session, as a step of a pass. -/
theorem afterOr_analysis {x : Analysis α} :
    AfterOr (liftM x : Pass α) s post stopped ↔
      After x s.toSession fun a session => post a { s with toSession := session } :=
  Iff.rfl

/-- A computation on the session that may stop with a fault, as a step of a pass. -/
theorem afterOr_faultyAnalysis {x : FaultyAnalysis α} :
    AfterOr (liftM x : Pass α) s post stopped ↔
      AfterOr x s.toSession (fun a session => post a { s with toSession := session })
        fun fault session => stopped fault { s with toSession := session } := by
  have hrun : (liftM x : Pass α).run.run s =
      ((x.run.run s.toSession).1, { s with toSession := (x.run.run s.toSession).2 }) := rfl
  unfold AfterOr After
  rw [hrun]
  cases (x.run.run s.toSession).1 with
  | ok a => rfl
  | error fault => rfl

theorem afterOr_session {post : Session → PassState → Prop} :
    AfterOr Pass.session s post stopped ↔ post s.toSession s :=
  Iff.rfl

theorem afterOr_tables {post : Tables → PassState → Prop} :
    AfterOr Pass.tables s post stopped ↔ post s.tables s :=
  Iff.rfl

theorem afterOr_onTables {f : Tables → Tables} {post : Unit → PassState → Prop} :
    AfterOr (Pass.onTables f) s post stopped ↔ post () { s with tables := f s.tables } :=
  Iff.rfl

theorem afterOk_onTables (f : Tables → Tables) (s : PassState) :
    AfterOk (Pass.onTables f) s fun _ s' => s' = { s with tables := f s.tables } :=
  afterOr_onTables.mpr rfl

/-- A computation on the session leaves the tables as they are. -/
theorem After.analysis {x : Analysis α} {post : α → Session → Prop}
    (h : After x s.toSession post) :
    AfterOk (liftM x : Pass α) s fun a s' => post a s'.toSession ∧ s'.tables = s.tables :=
  afterOr_analysis.mpr (h.mono fun _ _ h => ⟨h, rfl⟩)

/-- So does one that may stop with a fault. -/
theorem AfterOr.faultyAnalysis
    {x : FaultyAnalysis α} {post : α → Session → Prop} {stopped : Fault → Prop}
    (h : AfterOr x s.toSession post fun fault _ => stopped fault) :
    AfterOr (liftM x : Pass α) s (fun a s' => post a s'.toSession ∧ s'.tables = s.tables)
      fun fault _ => stopped fault :=
  afterOr_faultyAnalysis.mpr (AfterOr.mono h (fun _ _ h => ⟨h, rfl⟩) fun _ _ => id)

theorem AfterOk.faultyAnalysis {x : FaultyAnalysis α} {post : α → Session → Prop}
    (h : AfterOk x s.toSession post) :
    AfterOk (liftM x : Pass α) s fun a s' => post a s'.toSession ∧ s'.tables = s.tables :=
  AfterOr.faultyAnalysis h

theorem StopsAtFirst.faultyAnalysis
    {faults : List Fault} {x : FaultyAnalysis α} {post : α → Session → Prop}
    (h : StopsAtFirst faults x s.toSession post) :
    StopsAtFirst faults (liftM x : Pass α) s fun a s' =>
      post a s'.toSession ∧ s'.tables = s.tables :=
  afterOr_faultyAnalysis.mpr (AfterOr.imp h (fun _ _ h => ⟨h.1, h.2, rfl⟩))

/-- The scope that an entered declaration stands in is found. -/
theorem afterOk_declaringScope
    {t : Tables} {node : Nat} (h : node ∈ t.declaringScopes) (s : PassState) :
    AfterOk (Pass.ofExcept (t.declaringScope node)) s fun _ s' => s = s' := by
  unfold Tables.declaringScope
  rw [Std.TreeMap.getElem?_eq_some_getElem h]
  rfl

end Pass

/-! ## The session that an analysis leaves behind -/

/-- An analysis ends in the session that the passes leave behind, whether a fault stops them or
not. -/
theorem SourceFile.session_analyze (file : SourceFile) (options : AnalysisOptions) :
    (file.analyze options).session =
      ((Pass.allPasses options file.declarations).run.run Pass.initialState).2.toSession := by
  unfold analyze
  generalize StateT.run (ExceptT.run (Pass.allPasses options _)) Pass.initialState = outcome
  obtain ⟨fault | _, state⟩ := outcome
  · rfl
  · rfl

/-- What holds after the passes unless a fault stops them holds of the session of an analysis
that no fault stops. -/
theorem SourceFile.session_of_afterOr_allPasses
    {file : SourceFile} {options : AnalysisOptions} {p : Session → Prop}
    (h : AfterOr (Pass.allPasses options file.declarations) Pass.initialState
      (fun _ s => p s.toSession) fun _ _ => True)
    (hfault : (file.analyze options).fault = none) : p (file.analyze options).session := by
  unfold AfterOr After at h
  unfold analyze at hfault ⊢
  generalize StateT.run (ExceptT.run (Pass.allPasses options file.declarations))
    Pass.initialState = outcome at h hfault ⊢
  obtain ⟨fault | _, state⟩ := outcome
  · cases hfault
  · exact h

end DeclAnalysis
