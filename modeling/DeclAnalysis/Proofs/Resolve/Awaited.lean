import DeclAnalysis.Proofs.Resolve.Pass
import DeclAnalysis.Proofs.Resolve.SignatureGrowth

/-!
# What waits for the resolution of bodies

Before bodies are resolved, a descriptor is incomplete only for one of three reasons: it is
a class, which will be finalized; or it is a function in the tables; or it belongs to a
property in the tables.
-/

namespace DeclAnalysis

open Session (Adds Types)

/-- What is open about a property stays so while other things are added. -/
theorem Analysis.OpenThrough.of_grows
    {t t' : DescriptorTable} {except : Nat → Prop} {decl : PropertyDecl} {property d : Nat}
    (h : Analysis.OpenThrough t decl property d) (hgrows : t.Grows except t') :
    Analysis.OpenThrough t' decl property d := by
  cases h with
  | itself => exact .itself
  | getter hdecl hdata hgetter hfunction =>
      have hproperty := DescriptorTable.lt_size_of_propertyData? (by rw [hdata]; rfl)
      have hlt := DescriptorTable.lt_size_of_signature? hfunction
      exact .getter hdecl ((hgrows.propertyData?_eq hproperty).trans hdata) hgetter
        ((congrArg Option.isSome (hgrows.signature?_eq hlt)).trans hfunction)
  | value htakes hopen =>
      obtain ⟨data, _, _, hdata, _⟩ := htakes.setter
      have hproperty := DescriptorTable.lt_size_of_propertyData? (by rw [hdata]; rfl)
      exact .value (hgrows.setterTakes htakes) ((hgrows.valueType?_eq hproperty).trans hopen)

theorem Analysis.HasAccessorsOf.has_propertySort
    {t : DescriptorTable} {decl : PropertyDecl} {property : Nat}
    (h : Analysis.HasAccessorsOf t decl property) : t.Has .propertySort property := by
  obtain ⟨data, hdata, -⟩ := h
  exact DescriptorTable.has_propertySort_iff.mpr (Option.isSome_of_eq_some hdata)

theorem Analysis.HasAccessorsOf.of_grows
    {t t' : DescriptorTable} {except : Nat → Prop} {decl : PropertyDecl} {property : Nat}
    (h : Analysis.HasAccessorsOf t decl property) (hgrows : t.Grows except t') :
    Analysis.HasAccessorsOf t' decl property := by
  obtain ⟨data, hdata, haccessors⟩ := h
  have hlt := DescriptorTable.lt_size_of_propertyData? (Option.isSome_of_eq_some hdata)
  exact ⟨data, (hgrows.propertyData?_eq hlt).trans hdata, haccessors⟩

namespace PassState

variable {s s' : PassState}

/-- The tables hold something whose body completes the descriptor. -/
inductive Awaits (s : PassState) (d : Nat) : Prop
  | function {f : FunctionLike} (hentry : (f, d) ∈ s.tables.functions.toList) : Awaits s d
  | property {decl : PropertyDecl} {property : Nat}
      (hentry : (decl, property) ∈ s.tables.properties.toList)
      (hopen : Analysis.OpenThrough s.descriptors decl property d) : Awaits s d

/-- A descriptor that is not complete is that of a class or waits for a body, and properties
in the tables have their accessors, whose bodies will be resolved with them. Until then nothing is
known of them but what is declared. -/
structure OpenAwaited (s : PassState) : Prop where
  awaits : ∀ d, d < s.descriptors.size →
    s.descriptors.Complete d ∨ (s.descriptors.classData? d).isSome ∨ s.Awaits d
  accessors : ∀ entry ∈ s.tables.properties.toList,
    Analysis.HasAccessorsOf s.descriptors entry.1 entry.2
  declared : ∀ entry ∈ s.tables.properties.toList, s.descriptors.DeclaredWith entry.1 entry.2

/-- The second state has all descriptors of the first one, and more. -/
def Enlarges (s s' : PassState) : Prop := s.descriptors.Enlarges s'.descriptors

instance : IsPreorder PassState Enlarges where
  refl s := .refl _ s.descriptors
  trans _ _ _ := .trans

theorem Awaits.of_grows
    {except : Nat → Prop} {d : Nat} (h : s.Awaits d)
    (hgrows : s.descriptors.Grows except s'.descriptors)
    (hfunctions : s.tables.functions.toList ⊆ s'.tables.functions.toList)
    (hproperties : s.tables.properties.toList ⊆ s'.tables.properties.toList) :
    s'.Awaits d := by
  cases h with
  | function hentry => exact .function (hfunctions hentry)
  | property hentry hopen => exact .property (hproperties hentry) (hopen.of_grows hgrows)

/-- The tables account for everything incomplete that a step adds. -/
theorem OpenAwaited.of_grows
    {except : Nat → Prop} (h : s.OpenAwaited)
    (hgrows : s.descriptors.Grows except s'.descriptors)
    (hfunctions : s.tables.functions.toList ⊆ s'.tables.functions.toList)
    (hproperties : s.tables.properties.toList ⊆ s'.tables.properties.toList)
    (hentered : ∀ entry ∈ s'.tables.properties.toList,
      entry ∈ s.tables.properties.toList ∨
        Analysis.HasAccessorsOf s'.descriptors entry.1 entry.2 ∧
          s'.descriptors.DeclaredWith entry.1 entry.2)
    (hexcept : ∀ d, d < s'.descriptors.size → except d →
      (s'.descriptors.classData? d).isSome ∨ s'.Awaits d) :
    s'.OpenAwaited := by
  refine ⟨fun d hd => ?_, fun entry hentry => ?_, fun entry hentry => ?_⟩
  rotate_left
  · rcases hentered entry hentry with hold | hnew
    · exact (h.accessors entry hold).of_grows hgrows
    · exact hnew.1
  · rcases hentered entry hentry with hold | hnew
    · have hproperty := (h.accessors entry hold).has_propertySort
      exact (h.declared entry hold).of_grows hproperty hgrows
    · exact hnew.2
  by_cases hlt : d < s.descriptors.size
  · rcases h.awaits d hlt with hcomplete | hclass | hawaits
    · exact .inl ⟨(hgrows.kind d hlt).complete hcomplete.kind⟩
    · refine .inr (.inl ?_)
      have hkind := hgrows.kind d hlt
      unfold DescriptorTable.classData? at hclass ⊢
      generalize (s.descriptors.get d).kind = a at hclass hkind
      generalize (s'.descriptors.get d).kind = b at hkind ⊢
      cases hkind with
      | refl => exact hclass
      | classKind => rfl
    · exact .inr (.inr (hawaits.of_grows hgrows hfunctions hproperties))
  · exact (hgrows.added d (Nat.le_of_not_lt hlt) hd).imp_right (hexcept d hd)

end PassState

namespace Pass

open Analysis
open PassState (Enlarges OpenAwaited)

/-- The step adds descriptors, and what it leaves incomplete is accounted for. -/
abbrev KeepsAwaited {α : Type} (x : Pass α) : Prop := Upholds Enlarges OpenAwaited x

/-- A step on the session that adds complete descriptors only. -/
theorem keepsAwaited_faultyAnalysis
    {α : Type} {x : FaultyAnalysis α} (h : ∀ s, AfterAny x s (Adds (fun _ => False) s)) :
    KeepsAwaited (liftM x : Pass α) := by
  refine ⟨fun s => afterOr_faultyAnalysis.mpr (AfterOr.mono (h s.toSession)
    (fun a session hs => ?_) fun fault session hs => hs.enlarges)⟩
  refine ⟨hs.enlarges, fun hopen => ?_⟩
  have hkept : PassState.OpenAwaited { s with toSession := session } :=
    hopen.of_grows hs (List.Subset.refl _) (List.Subset.refl _) (fun _ => .inl)
      fun _ _ => False.elim
  exact hkept

theorem keepsAwaited_analysis
    {α : Type} {x : Analysis α} (h : Keeps (Adds fun _ => False) x) :
    KeepsAwaited (liftM x : Pass α) := by
  refine ⟨fun s => afterOr_analysis.mpr (After.mono (h.after s.toSession)
    fun a session hs => ?_)⟩
  refine ⟨hs.enlarges, fun hopen => ?_⟩
  have hkept : PassState.OpenAwaited { s with toSession := session } :=
    hopen.of_grows hs (List.Subset.refl _) (List.Subset.refl _) (fun _ => .inl)
      fun _ _ => False.elim
  exact hkept

/-- Typing adds complete descriptors only. -/
theorem keepsAwaited_of_types
    {α : Type} {nodes : List Nat} {x : Analysis α} (h : Keeps (Types nodes) x) :
    KeepsAwaited (liftM x : Pass α) :=
  keepsAwaited_analysis (h.mono fun _ _ hs => hs.adds _)

/-- Entering something other than functions and properties in the tables. -/
theorem keepsAwaited_onTables
    {f : Tables → Tables} (hfunctions : ∀ t, (f t).functions = t.functions)
    (hproperties : ∀ t, (f t).properties = t.properties) : KeepsAwaited (onTables f) := by
  refine ⟨fun s => afterOr_onTables.mpr ⟨.refl _ _, fun hopen => ?_⟩⟩
  have hsame : s.descriptors.Grows (fun _ => False) s.descriptors := .refl _ _
  refine hopen.of_grows hsame ?_ ?_ (fun entry h => .inl ?_) fun _ _ => False.elim
  · exact fun entry h => by rwa [← hfunctions] at h
  · exact fun entry h => by rwa [← hproperties] at h
  · rwa [hproperties] at h

theorem keepsAwaited_session : KeepsAwaited session :=
  .of_reads fun _ => afterOr_session.mpr rfl

theorem keepsAwaited_tables : KeepsAwaited tables :=
  .of_reads fun _ => afterOr_tables.mpr rfl

theorem keepsAwaited_ofExcept {α : Type} (e : Except Fault α) : KeepsAwaited (ofExcept e) := by
  cases e with
  | ok a => exact Upholds.pure a
  | error fault => exact Upholds.throw fault

/-- A step on the session that leaves the descriptors alone. -/
theorem keepsAwaited_of_descriptors_eq
    {α : Type} {x : Analysis α}
    (h : ∀ s, After x s fun _ s' => s'.descriptors = s.descriptors) :
    KeepsAwaited (liftM x : Pass α) := by
  refine keepsAwaited_analysis ⟨fun s => (h s).mono fun _ s' hs => ?_⟩
  unfold Adds
  rw [hs]
  exact .refl _ _

/-! ### Collecting -/

theorem keepsAwaited_createClass (name : String) (container : Option Nat) (data : ClassData) :
    KeepsAwaited (createDescriptor name container (.classKind false data) : Analysis Nat) := by
  refine ⟨fun s => ?_⟩
  have hgrows : s.descriptors.Grows (· = s.descriptors.size)
      (s.descriptors.create name container (.classKind false data)).2 := .create _ _ _ (.inr rfl)
  have hclass : (s.descriptors.create name container (.classKind false data)).2.classData?
      s.descriptors.size = some data :=
    DescriptorTable.classData?_of_kind
      (congrArg Descriptor.kind (DescriptorTable.get_create_size ..))
  refine afterOr_analysis.mpr ⟨hgrows.enlarges, fun hopen => ?_⟩
  refine hopen.of_grows hgrows (List.Subset.refl _) (List.Subset.refl _) (fun _ => .inl) ?_
  rintro _ - rfl
  exact .inl (Option.isSome_of_eq_some hclass)

theorem keepsAwaited_collectClass (scope : Nat) (head : ClassHead) :
    KeepsAwaited (collectClass scope head) := by
  refine keepsAwaited_session.bind fun s => ?_
  refine Upholds.bind (keepsAwaited_of_descriptors_eq fun _ => rfl) fun members => ?_
  refine (keepsAwaited_createClass ..).bind fun descriptor => ?_
  refine Upholds.bind (keepsAwaited_of_descriptors_eq fun _ => rfl) fun _ => ?_
  refine Upholds.bind (keepsAwaited_of_descriptors_eq fun _ => rfl) fun _ => ?_
  refine Upholds.bind (keepsAwaited_onTables (fun _ => rfl) fun _ => rfl) fun _ => ?_
  exact Upholds.pure _

theorem keepsAwaited_declareNamespace (scope : Nat) (name : String) (node : Nat) :
    KeepsAwaited (declareNamespace scope name node) := by
  refine keepsAwaited_session.bind fun s => ?_
  refine Upholds.bind (keepsAwaited_of_descriptors_eq fun _ => rfl) fun members => ?_
  refine Upholds.bind (keepsAwaited_analysis ⟨fun s => .create _ _ _ (.inl trivial)⟩)
    fun descriptor => ?_
  refine Upholds.bind (keepsAwaited_of_descriptors_eq fun _ => rfl) fun _ => ?_
  refine Upholds.bind (keepsAwaited_of_descriptors_eq fun _ => rfl) fun _ => ?_
  exact Upholds.pure _

theorem keepsAwaited_importMembers (scope : Nat) (imported : Expr) :
    KeepsAwaited (importMembers scope imported) := by
  have hinfer : Keeps (Types imported.nodes) (infer scope imported) :=
    keeps_infer scope imported (List.Subset.refl _)
  refine (keepsAwaited_of_types hinfer).bind fun type => ?_
  cases type with
  | none => exact Upholds.pure _
  | some type =>
      refine keepsAwaited_session.bind fun s => ?_
      split
      · exact keepsAwaited_of_descriptors_eq fun _ => rfl
      · split
        · exact keepsAwaited_of_descriptors_eq fun _ => rfl
        · exact Upholds.pure _

theorem keepsAwaited_applyImport (scope : Nat) (i : ImportDirective) :
    KeepsAwaited (applyImport scope i) := by
  refine applyImport_cases (p := KeepsAwaited) scope i Upholds.throw (Upholds.pure _) ?_
  exact fun imported _ => keepsAwaited_importMembers scope imported

theorem keepsAwaited_collectNamespace
    (options : AnalysisOptions) (scope : Nat) (head : NamespaceHead) :
    KeepsAwaited (collectNamespace options scope head) := by
  have hrest : ∀ descriptor, KeepsAwaited (openContents scope head descriptor) := by
    intro descriptor
    unfold openContents
    refine keepsAwaited_session.bind fun s => ?_
    split
    · exact Upholds.throw _
    · refine Upholds.bind (keepsAwaited_of_descriptors_eq fun _ => rfl) fun inner => ?_
      refine Upholds.bind (keepsAwaited_onTables (fun _ => rfl) fun _ => rfl) fun _ => ?_
      refine (Upholds.forM _ (keepsAwaited_applyImport inner)).bind fun _ => ?_
      exact Upholds.pure _
  refine keepsAwaited_session.bind fun s => ?_
  dsimp only
  split
  · exact hrest _
  · exact (keepsAwaited_declareNamespace ..).bind hrest

mutual

theorem keepsAwaited_collect (options : AnalysisOptions) (scope : Nat) (d : Declaration) :
    KeepsAwaited (collect options scope d) := by
  match d with
  | .classDecl head members =>
      exact (keepsAwaited_collectClass scope head).bind fun inner =>
        keepsAwaited_collectAll options inner members
  | .namespaceDecl head members =>
      exact (keepsAwaited_collectNamespace options scope head).bind fun inner =>
        keepsAwaited_collectAll options inner members
  | .classObject _ members => exact keepsAwaited_collectAll options scope members
  | .typedefDecl _ _ | .extensionDecl _ _ => exact Upholds.throw _
  | .functionDecl _ | .propertyDecl _ | .constructorDecl _ => exact Upholds.pure _

theorem keepsAwaited_collectAll
    (options : AnalysisOptions) (scope : Nat) (ds : List Declaration) :
    KeepsAwaited (collectAll options scope ds) := by
  match ds with
  | [] => exact Upholds.pure _
  | d :: rest =>
      exact (keepsAwaited_collect options scope d).bind fun _ =>
        keepsAwaited_collectAll options scope rest

end

/-! ### Supertypes -/

/-- Changing an open class adds nothing. -/
theorem afterAny_editClass
    {edit : DescriptorTable → Except Fault DescriptorTable} {id : Nat} {f : ClassData → ClassData}
    (hedit : ∀ t, edit t = t.editClass id f) (s : Session) :
    AfterAny (tryDescriptors edit) s (Adds (fun _ => False) s) := by
  simp only [tryDescriptors, afterOr_bind, afterOr_get]
  cases h : edit s.model.descriptors with
  | error fault => exact .refl _ _
  | ok t => exact .editClass ((hedit _).symm.trans h)

theorem keepsAwaited_resolveClass (scope : Nat) (head : ClassHead) (descriptor : Nat) :
    KeepsAwaited (liftM (resolveClass scope head descriptor) : Pass Unit) := by
  refine keepsAwaited_faultyAnalysis fun s => ?_
  have hsupertypes : Keeps (Types _) (resolveSupertypes scope head) :=
    keeps_resolveSupertypes (List.Subset.refl _) scope
  refine AfterOr.bind (AfterOr.lift (hsupertypes.after s)) fun supertypes s₁ h₁ => ?_
  refine AfterAny.mono (afterAny_editClass (fun _ => rfl) s₁) fun s₂ h₂ => ?_
  exact (h₁.adds _).trans h₂

theorem keepsAwaited_resolveClasses : KeepsAwaited resolveClasses := by
  refine keepsAwaited_tables.bind fun tables => Upholds.forM _ fun entry => ?_
  exact (keepsAwaited_ofExcept _).bind fun scope =>
    keepsAwaited_resolveClass scope entry.1 entry.2

/-! ### Registering -/

theorem keepsAwaited_registerClass (head : ClassHead) : KeepsAwaited (registerClass head) := by
  refine keepsAwaited_session.bind fun s => ?_
  split
  · exact Upholds.throw _
  · rename_i descriptor _
    refine keepsAwaited_session.bind fun s => ?_
    split
    · exact Upholds.throw _
    · refine Upholds.bind (keepsAwaited_faultyAnalysis
        (afterOr_resolvePrimaryConstructor_adds descriptor head)) fun result => ?_
      refine Upholds.bind (Upholds.forM _ fun property => ?_) fun _ => ?_
      · refine Upholds.bind (keepsAwaited_of_descriptors_eq fun _ => rfl) fun _ => ?_
        refine Upholds.bind (keepsAwaited_of_descriptors_eq fun _ => rfl) fun _ => ?_
        exact keepsAwaited_onTables (fun _ => rfl) fun _ => rfl
      · dsimp only
        split
        · refine Upholds.bind (keepsAwaited_faultyAnalysis (afterAny_editClass fun _ => rfl))
            fun _ => ?_
          exact Upholds.pure _
        · exact Upholds.pure _

/-- A function is entered in the tables together with its descriptor. -/
theorem keepsAwaited_registerFunction (scope : Nat) (decl : FunctionDecl) :
    KeepsAwaited (registerFunction scope decl) := by
  refine ⟨fun s => afterOr_bind.mpr (afterOr_session.mpr ?_)⟩
  have hresolve := (afterOk_resolveFunction_adds scope
    (s.scopes.containingDeclaration? scope) decl s.toSession).faultyAnalysis
  refine AfterOr.bind hresolve.afterOr fun function s₁ h₁ => ?_
  refine afterOr_bind.mpr (afterOr_analysis.mpr (after_onScopes.mpr ?_))
  refine afterOr_onTables.mpr ⟨h₁.1.enlarges, fun hopen => ?_⟩
  refine hopen.of_grows h₁.1 ?_ ?_ (fun entry h => .inl ?_) ?_
  · rw [← h₁.2]
    simp [Tables.addFunction]
  · rw [← h₁.2]
    exact List.Subset.refl _
  · rwa [← h₁.2]
  · rintro d - rfl
    exact .inr (.function (f := .function decl) (by simp [Tables.addFunction]))

theorem toList_properties_addProperty
    (t : Tables) (decl : PropertyDecl) (property scope : Nat) (container : Option Nat) :
    (t.addProperty decl property scope container).properties.toList =
      t.properties.toList ++ [(decl, property)] := by
  cases container <;> simp [Tables.addProperty, Tables.indexProperty]

theorem functions_addProperty
    (t : Tables) (decl : PropertyDecl) (property scope : Nat) (container : Option Nat) :
    (t.addProperty decl property scope container).functions = t.functions := by
  cases container <;> rfl

/-- So is a property. -/
theorem keepsAwaited_registerProperty (scope : Nat) (decl : PropertyDecl) :
    KeepsAwaited (registerProperty scope decl) := by
  refine ⟨fun s => afterOr_bind.mpr (afterOr_session.mpr ?_)⟩
  have hresolve := (afterOk_resolveProperty_adds scope
    (s.scopes.containingDeclaration? scope) decl s.toSession).faultyAnalysis
  refine AfterOr.bind hresolve.afterOr fun property s₁ ⟨⟨hadds, haccessors⟩, htables⟩ => ?_
  refine afterOr_bind.mpr (afterOr_analysis.mpr (after_onScopes.mpr ?_))
  refine afterOr_onTables.mpr ⟨hadds.enlarges, fun hopen => ?_⟩
  refine hopen.of_grows hadds ?_ ?_ (fun entry hentry => ?_) ?_
  · rw [functions_addProperty, ← htables]
    exact List.Subset.refl _
  · rw [toList_properties_addProperty, ← htables]
    exact List.subset_append_left ..
  · rw [toList_properties_addProperty, htables] at hentry
    rcases List.mem_append.mp hentry with hold | hnew
    · exact .inl hold
    · obtain rfl := List.mem_singleton.mp hnew
      exact .inr haccessors
  · intro d _ hd
    have hentry : (decl, property) ∈ (s₁.tables.addProperty decl property scope
        (s.scopes.containingDeclaration? scope)).properties.toList := by
      rw [toList_properties_addProperty]
      exact List.mem_append_right _ List.mem_cons_self
    exact .inr (.property hentry hd)

theorem keepsAwaited_registerConstructor (scope : Nat) (decl : ConstructorDecl) :
    KeepsAwaited (registerConstructor scope decl) := by
  refine keepsAwaited_session.bind fun s => ?_
  split
  · exact keepsAwaited_of_descriptors_eq fun _ => rfl
  · rename_i classId _
    refine Upholds.bind (keepsAwaited_faultyAnalysis fun s =>
      (afterOk_resolveConstructor_adds scope classId decl s).afterOr) fun constructor => ?_
    refine Upholds.bind (keepsAwaited_faultyAnalysis (afterAny_editClass fun _ => rfl))
      fun _ => ?_
    refine ⟨fun s => afterOr_onTables.mpr ⟨.refl _ _, fun hopen => ?_⟩⟩
    have hsame : s.descriptors.Grows (fun _ => False) s.descriptors := .refl _ _
    refine hopen.of_grows hsame ?_ (List.Subset.refl _) (fun _ => .inl) fun _ _ => False.elim
    simp [Tables.addFunction]

mutual

theorem keepsAwaited_register (scope : Nat) (d : Declaration) :
    KeepsAwaited (register scope d) := by
  match d with
  | .classDecl head members =>
      exact (keepsAwaited_registerClass head).bind fun inner =>
        keepsAwaited_registerAll inner members
  | .classObject id members =>
      exact Upholds.bind (keepsAwaited_of_descriptors_eq fun _ => rfl) fun _ =>
        keepsAwaited_registerAll scope members
  | .namespaceDecl head members =>
      refine keepsAwaited_tables.bind fun tables => ?_
      split
      · exact Upholds.throw _
      · exact keepsAwaited_registerAll _ members
  | .functionDecl decl => exact keepsAwaited_registerFunction scope decl
  | .propertyDecl decl => exact keepsAwaited_registerProperty scope decl
  | .constructorDecl decl => exact keepsAwaited_registerConstructor scope decl
  | .typedefDecl _ _ | .extensionDecl _ _ => exact keepsAwaited_of_descriptors_eq fun _ => rfl

theorem keepsAwaited_registerAll (scope : Nat) (ds : List Declaration) :
    KeepsAwaited (registerAll scope ds) := by
  match ds with
  | [] => exact Upholds.pure _
  | d :: rest =>
      exact (keepsAwaited_register scope d).bind fun _ => keepsAwaited_registerAll scope rest

end

end Pass

end DeclAnalysis
