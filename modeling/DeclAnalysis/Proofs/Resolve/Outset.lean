import DeclAnalysis.Proofs.Resolve.Awaited
import DeclAnalysis.Proofs.Resolve.LastPass
import DeclAnalysis.Proofs.Resolve.SignatureFrame
import DeclAnalysis.Proofs.Resolve.Signing
import DeclAnalysis.Proofs.Typing.Answers

/-!
# Before bodies are resolved

The passes before the last one type nothing but import directives. So when the last pass begins,
nothing has been recorded about the expressions in bodies and delegation lists, and whatever can be
called has parameters of known types.
-/

namespace DeclAnalysis

namespace ScopeTree

theorem Fieldless.of_fields_eq
    {t t' : ScopeTree} (h : t.Fieldless)
    (hfields : ∀ id, (t'.get id).bindings.fields = (t.get id).bindings.fields) :
    t'.Fieldless := by
  intro id name
  rw [hfields]
  exact h id name

theorem fields_get_bind
    (t : ScopeTree) (scope : Nat) {f : Bindings → Bindings} (hf : ∀ b, (f b).fields = b.fields)
    (id : Nat) : ((t.bind scope f).get id).bindings.fields = (t.get id).bindings.fields :=
  t.apply_get_modify (fun s => s.bindings.fields) (fun s => { s with bindings := f s.bindings })
    (fun s => hf s.bindings) _ id

theorem fields_get_addClassifier
    (t : ScopeTree) (scope : Nat) (name : String) (descriptor id : Nat) :
    ((t.addClassifier scope name descriptor).get id).bindings.fields =
      (t.get id).bindings.fields :=
  t.fields_get_bind scope (f := fun b =>
    { b with classifiers := b.classifiers.insert name descriptor }) (fun _ => rfl) id

theorem fields_get_addNamespace
    (t : ScopeTree) (scope : Nat) (name : String) (descriptor id : Nat) :
    ((t.addNamespace scope name descriptor).get id).bindings.fields =
      (t.get id).bindings.fields :=
  t.fields_get_bind scope (f := fun b =>
    { b with namespaces := b.namespaces.insert name descriptor }) (fun _ => rfl) id

theorem fields_get_addFunction
    (t : ScopeTree) (scope : Nat) (name : String) (descriptor id : Nat) :
    ((t.addFunction scope name descriptor).get id).bindings.fields =
      (t.get id).bindings.fields :=
  t.fields_get_bind scope (f := fun b =>
    { b with functions := b.functions.insert name (b.functions.getD name [] ++ [descriptor]) })
    (fun _ => rfl) id

theorem fields_get_setOwner (t : ScopeTree) (scope owner id : Nat) :
    ((t.setOwner scope owner).get id).bindings.fields = (t.get id).bindings.fields :=
  t.apply_get_modify (fun s => s.bindings.fields) (fun s => { s with owner := some owner })
    (fun _ => rfl) scope id

theorem fields_get_importScope (t : ScopeTree) (scope imported id : Nat) :
    ((t.importScope scope imported).get id).bindings.fields = (t.get id).bindings.fields :=
  t.apply_get_modify (fun s => s.bindings.fields)
    (fun s => { s with imports := s.imports ++ [imported] }) (fun _ => rfl) scope id

end ScopeTree

namespace Session

variable {heads nodes : List Nat}

theorem Spares.of_notes {s s' : Session} (h : Notes heads s s') : Spares heads s s' where
  same {slot} hslot := by
    cases slot with
    | reference node => exact h.types.follows.reference?_eq hslot
    | type node => exact h.types.follows.expressionType?_eq hslot
  declares := by
    have hdescriptors : s'.descriptors = s.descriptors := congrArg Model.descriptors h.model_eq
    rw [hdescriptors]
    exact .refl _

instance (heads : List Nat) : AllowsNotes heads (Spares heads) where
  of_notes := .of_notes

instance (heads : List Nat) : AllowsRemarks .typeMismatch heads (Spares heads) where
  of_remark _ _ := .of_slots (fun slot => by cases slot <;> rfl) (.refl _)

instance (heads : List Nat) : Ground.free.Allows heads (Spares heads) where
  stable_admits _ _ := trivial
  stable_fresh _ _ := trivial
  admits_of_fresh _ _ := trivial
  createVariable name container _ _ := ⟨fun s =>
    .of_slots (fun slot => by cases slot <;> rfl)
      (.create s.descriptors name container fun s hs => by cases hs)⟩
  resolveTypeRef {_ _ scope s ref} _ _ _ := by
    have hresolve : Keeps (SparesBodies heads [ref.id]) (Analysis.resolveTypeRef scope ref) :=
      Analysis.sparesBodies_resolveTypeRef List.mem_cons_self scope
    exact (hresolve.after s).toSpares
  createScope {_ _ scope s} _ kind owner :=
    ⟨.of_slots (fun slot => by cases slot <;> rfl) (.refl _), trivial⟩
  addVariable _ _ _ := .of_slots (fun slot => by cases slot <;> rfl) (.refl _)
  bind _ _ _ _ := .of_slots (fun slot => by cases slot <;> rfl) (.refl _)

end Session

namespace PassState

/-- Nothing has been recorded about bodies, and no property has been entered. -/
structure SparesBodies (heads nodes : List Nat) (s s' : PassState) : Prop where
  session : Session.SparesBodies heads nodes s.toSession s'.toSession
  propertiesByContainer_eq : s'.tables.propertiesByContainer = s.tables.propertiesByContainer

instance (heads nodes : List Nat) : IsPreorder PassState (SparesBodies heads nodes) where
  refl s := ⟨.refl heads nodes s.toSession, rfl⟩
  trans _ _ _ h h' := ⟨h.session.trans h'.session,
    h'.propertiesByContainer_eq.trans h.propertiesByContainer_eq⟩

/-- Nothing has been recorded about bodies, and nothing reported about backing fields. -/
def SparesReports (heads nodes : List Nat) (s s' : PassState) : Prop :=
  Session.SparesReports heads nodes s.toSession s'.toSession

instance (heads nodes : List Nat) : IsPreorder PassState (SparesReports heads nodes) where
  refl s := refl_of (Session.SparesReports heads nodes) s.toSession
  trans _ _ _ h h' := trans_of (Session.SparesReports heads nodes) h h'

end PassState

namespace Analysis

open Session (SparesBodies)

variable {heads nodes : List Nat}

/-- Scopes may change, as long as no name of a field is bound. -/
theorem sparesBodies_onScopes
    {f : ScopeTree → ScopeTree}
    (hf : ∀ t id, ((f t).get id).bindings.fields = (t.get id).bindings.fields) :
    Keeps (SparesBodies heads nodes) (onScopes f) :=
  ⟨fun _ => .of_scopes fun h => h.of_fields_eq (hf _)⟩

theorem sparesBodies_createScope (kind : ScopeKind) (parent owner : Option Nat) :
    Keeps (SparesBodies heads nodes) (createScope kind parent owner) :=
  ⟨fun s => .of_scopes fun h => h.of_fields_eq fun id =>
    congrArg Bindings.fields (s.scopes.bindings_get_create kind parent owner id)⟩

theorem sparesBodies_createWriteThrough (outer target : Nat) :
    Keeps (SparesBodies heads nodes) (createWriteThrough outer target) :=
  ⟨fun s => .of_scopes fun h => h.of_fields_eq fun id =>
    congrArg Bindings.fields (s.scopes.bindings_get_createWriteThrough outer target id)⟩

/-- Something is declared that takes no parameters. -/
theorem sparesBodies_createDescriptor
    (name : String) (container : Option Nat) {kind : DescriptorKind}
    (hkind : kind.signature? = none) :
    Keeps (SparesBodies heads nodes) (createDescriptor name container kind) := by
  refine ⟨fun s => .of_descriptors (.create s.descriptors name container fun s hs => ?_)⟩
  cases hkind.symm.trans hs

/-- What is typed before bodies are resolved is no part of a body. -/
theorem sparesBodies_infer
    (scope : Nat) {e : Expr} (hheads : e.nodes ⊆ heads) (hnodes : e.nodes ⊆ nodes) :
    Keeps (SparesBodies heads nodes) (infer scope e) := by
  have hspares := keepsFrom_inferWithin (g := .free) (R := Session.Spares heads) scope e hheads
    (List.Subset.refl e.typeRefs) (List.Subset.refl e.openLocals)
  have hpart : ∀ node, 0 < (e.fieldAccesses.map FieldAccess.node).count node +
      e.plainNodes.count node → node ∈ nodes := fun node hpos =>
    hnodes (List.count_pos_iff.mp (hpos.trans_le (e.count_typed_le node)))
  have hplain : e.plainNodes ⊆ nodes := fun node hnode =>
    hpart node (Nat.add_pos_right _ (List.count_pos_iff.mpr hnode))
  have hanswers := answersIn_infer (v := .nowhere) scope e hplain
  refine ⟨fun s => .of_answers (hspares.after s trivial) (fun a ha => ?_) (hanswers.after s)⟩
  exact hpart a.node (Nat.add_pos_left (List.count_pos_iff.mpr (List.mem_map_of_mem ha)) _)

end Analysis

namespace Pass

open Analysis
open PassState (SparesBodies SparesReports)

variable {heads nodes : List Nat} {α : Type}

theorem sparesBodies_analysis
    {x : Analysis α} (h : Keeps (Session.SparesBodies heads nodes) x) :
    KeepsOr (SparesBodies heads nodes) (liftM x : Pass α) :=
  .of_afterOr fun s => afterOr_analysis.mpr (After.mono (h.after s.toSession) fun _ _ h => ⟨h, rfl⟩)

theorem sparesBodies_faultyAnalysis
    {x : FaultyAnalysis α} (h : KeepsOr (Session.SparesBodies heads nodes) x) :
    KeepsOr (SparesBodies heads nodes) (liftM x : Pass α) :=
  .of_afterOr fun s => afterOr_faultyAnalysis.mpr
    (AfterAny.mono (h.afterOr s.toSession) fun _ h => ⟨h, rfl⟩)

theorem sparesBodies_onTables
    {f : Tables → Tables} (hf : ∀ t, (f t).propertiesByContainer = t.propertiesByContainer) :
    KeepsOr (SparesBodies heads nodes) (onTables f) :=
  .of_afterOr fun s => afterOr_onTables.mpr ⟨.refl heads nodes s.toSession, hf _⟩

/-! ### Collecting -/

theorem sparesBodies_collectClass {head : ClassHead} (hid : head.id ∈ nodes) (scope : Nat) :
    KeepsOr (SparesBodies heads nodes) (collectClass scope head) := by
  refine keepsOr_session.bind fun s => ?_
  refine (sparesBodies_analysis (sparesBodies_createScope ..)).bind fun members => ?_
  refine (sparesBodies_analysis (sparesBodies_createDescriptor _ _ rfl)).bind fun descriptor => ?_
  have hbind : Keeps (Session.SparesBodies heads nodes) (onScopes fun t =>
      (t.setOwner members descriptor).addClassifier scope (head.name.getD noNameProvided)
        descriptor) :=
    sparesBodies_onScopes fun t id =>
      (ScopeTree.fields_get_addClassifier ..).trans
        (t.fields_get_setOwner members descriptor id)
  refine (sparesBodies_analysis hbind).bind fun _ => ?_
  refine (sparesBodies_analysis (sparesBodies_recordDeclaration hid descriptor)).bind fun _ => ?_
  have hentered : KeepsOr (SparesBodies heads nodes)
      (onTables fun t => t.addClass head descriptor scope) :=
    sparesBodies_onTables fun _ => rfl
  exact hentered.bind fun _ => KeepsOr.pure _

theorem sparesBodies_declareNamespace
    {node : Nat} (hid : node ∈ nodes) (scope : Nat) (name : String) :
    KeepsOr (SparesBodies heads nodes) (declareNamespace scope name node) := by
  refine keepsOr_session.bind fun s => ?_
  refine (sparesBodies_analysis (sparesBodies_createScope ..)).bind fun members => ?_
  refine (sparesBodies_analysis (sparesBodies_createDescriptor _ _ rfl)).bind fun descriptor => ?_
  have hbind : Keeps (Session.SparesBodies heads nodes) (onScopes fun t =>
      (t.setOwner members descriptor).addNamespace scope name descriptor) :=
    sparesBodies_onScopes fun t id =>
      (ScopeTree.fields_get_addNamespace ..).trans
        (t.fields_get_setOwner members descriptor id)
  refine (sparesBodies_analysis hbind).bind fun _ => ?_
  refine (sparesBodies_analysis (sparesBodies_recordDeclaration hid descriptor)).bind fun _ => ?_
  exact KeepsOr.pure _

theorem sparesBodies_importMembers
    (scope : Nat) {imported : Expr} (hheads : imported.nodes ⊆ heads)
    (hnodes : imported.nodes ⊆ nodes) :
    KeepsOr (SparesBodies heads nodes) (importMembers scope imported) := by
  refine (sparesBodies_analysis (sparesBodies_infer scope hheads hnodes)).bind fun type => ?_
  cases type with
  | none => exact KeepsOr.pure _
  | some type =>
      refine keepsOr_session.bind fun s => ?_
      split
      · exact sparesBodies_analysis
          (sparesBodies_onScopes fun t id => t.fields_get_importScope scope _ id)
      · split
        · exact sparesBodies_analysis (sparesBodies_report (by decide) ..)
        · exact KeepsOr.pure _

theorem sparesBodies_applyImport
    (scope : Nat) {i : ImportDirective} (hheads : i.nodes ⊆ heads) (hnodes : i.nodes ⊆ nodes) :
    KeepsOr (SparesBodies heads nodes) (applyImport scope i) := by
  refine applyImport_cases (p := KeepsOr _) scope i KeepsOr.throw (KeepsOr.pure _) ?_
  intro imported himported
  have hsub := ImportDirective.nodes_subset_of_imported himported
  exact sparesBodies_importMembers scope (List.Subset.trans hsub hheads)
    (List.Subset.trans hsub hnodes)

theorem sparesBodies_collectNamespace
    (options : AnalysisOptions) (scope : Nat) {head : NamespaceHead}
    (hheads : head.imports.flatMap ImportDirective.nodes ⊆ heads) (hnodes : head.nodes ⊆ nodes) :
    KeepsOr (SparesBodies heads nodes) (collectNamespace options scope head) := by
  have himport : ∀ i ∈ head.imports, i.nodes ⊆ head.imports.flatMap ImportDirective.nodes :=
    fun i hi node hnode => List.mem_flatMap.mpr ⟨i, hi, hnode⟩
  have hrest : ∀ descriptor,
      KeepsOr (SparesBodies heads nodes) (openContents scope head descriptor) := by
    intro descriptor
    refine keepsOr_session.bind fun s => ?_
    split
    · exact KeepsOr.throw _
    · refine (sparesBodies_analysis (sparesBodies_createWriteThrough ..)).bind fun inner => ?_
      have hentered : KeepsOr (SparesBodies heads nodes) (onTables fun t =>
          { t with namespaceScopes := t.namespaceScopes.insert head.id inner }) :=
        sparesBodies_onTables fun _ => rfl
      refine hentered.bind fun _ => ?_
      refine (KeepsOr.forM _ fun i hi => ?_).bind fun _ => KeepsOr.pure _
      exact sparesBodies_applyImport inner (List.Subset.trans (himport i hi) hheads)
        (List.Subset.trans (himport i hi) (List.cons_subset.mp hnodes).2)
  refine keepsOr_session.bind fun s => ?_
  dsimp only
  split
  · exact hrest _
  · exact (sparesBodies_declareNamespace (hnodes List.mem_cons_self) ..).bind hrest

mutual

theorem sparesBodies_collect
    (options : AnalysisOptions) (scope : Nat) (d : Declaration)
    (hheads : d.nested.flatMap Declaration.importNodes ⊆ heads)
    (hnodes : d.nested.flatMap Declaration.signatureNodes ⊆ nodes) :
    KeepsOr (SparesBodies heads nodes) (collect options scope d) := by
  match d with
  | .classDecl head members =>
      obtain ⟨hhead, hmembers⟩ := List.append_subset.mp hnodes
      exact (sparesBodies_collectClass (hhead List.mem_cons_self) scope).bind fun inner =>
        sparesBodies_collectAll options inner members hheads hmembers
  | .namespaceDecl head members =>
      obtain ⟨himports, hrest⟩ := List.append_subset.mp hheads
      obtain ⟨hhead, hmembers⟩ := List.append_subset.mp hnodes
      exact (sparesBodies_collectNamespace options scope himports hhead).bind fun inner =>
        sparesBodies_collectAll options inner members hrest hmembers
  | .classObject _ members =>
      obtain ⟨-, hmembers⟩ := List.append_subset.mp hnodes
      exact sparesBodies_collectAll options scope members hheads hmembers
  | .typedefDecl _ _ | .extensionDecl _ _ => exact KeepsOr.throw _
  | .functionDecl _ | .propertyDecl _ | .constructorDecl _ => exact KeepsOr.pure _

theorem sparesBodies_collectAll
    (options : AnalysisOptions) (scope : Nat) (ds : List Declaration)
    (hheads : (Declaration.nestedIn ds).flatMap Declaration.importNodes ⊆ heads)
    (hnodes : (Declaration.nestedIn ds).flatMap Declaration.signatureNodes ⊆ nodes) :
    KeepsOr (SparesBodies heads nodes) (collectAll options scope ds) := by
  match ds with
  | [] => exact KeepsOr.pure _
  | d :: rest =>
      rw [Declaration.nestedIn, List.flatMap_append, List.append_subset] at hheads hnodes
      exact (sparesBodies_collect options scope d hheads.1 hnodes.1).bind fun _ =>
        sparesBodies_collectAll options scope rest hheads.2 hnodes.2

end

/-! ### Supertypes -/

theorem afterAny_resolveClasses_sparesBodies
    {s : PassState} (hnodes : ∀ entry ∈ s.tables.classes.toList,
      entry.1.supertypeRefs.map TypeRef.id ⊆ nodes) :
    AfterAny resolveClasses s (SparesBodies heads nodes s) := by
  have hall : KeepsOr (SparesBodies heads nodes)
      (s.tables.classes.toList.forM fun entry => do
        let scope ← ofExcept (s.tables.declaringScope entry.1.id)
        (resolveClass scope entry.1 entry.2 : FaultyAnalysis Unit) : Pass Unit) := by
    refine KeepsOr.forM _ fun entry hentry => (keepsOr_ofExcept _).bind fun scope => ?_
    exact sparesBodies_faultyAnalysis
      (sparesBodies_resolveClass (hnodes entry hentry) scope entry.2)
  exact afterOr_bind.mpr (afterOr_tables.mpr (hall.afterOr s))

/-! ### Registering -/

theorem sparesReports_analysis
    {x : Analysis α} (h : Keeps (Session.SparesReports heads nodes) x) :
    KeepsOr (SparesReports heads nodes) (liftM x : Pass α) :=
  .of_afterOr fun s => afterOr_analysis.mpr (h.after s.toSession)

theorem sparesReports_of_analysis
    {x : Analysis α} (h : Keeps (Session.SparesBodies heads nodes) x) :
    KeepsOr (SparesReports heads nodes) (liftM x : Pass α) :=
  sparesReports_analysis (h.mono fun _ _ h => h.toSparesReports)

theorem sparesReports_of_faultyAnalysis
    {x : FaultyAnalysis α} (h : KeepsOr (Session.SparesBodies heads nodes) x) :
    KeepsOr (SparesReports heads nodes) (liftM x : Pass α) :=
  .of_afterOr fun s => afterOr_faultyAnalysis.mpr
    (AfterAny.mono (h.afterOr s.toSession) fun _ h => h.toSparesReports)

theorem sparesReports_onTables (f : Tables → Tables) :
    KeepsOr (SparesReports heads nodes) (onTables f) :=
  .of_afterOr fun s => afterOr_onTables.mpr (refl_of (SparesReports heads nodes) s)

theorem sparesReports_addVariable (scope : Nat) (name : String) (descriptor : Nat) :
    KeepsOr (SparesReports heads nodes)
      (onScopes (·.addVariable scope name descriptor) : Pass Unit) :=
  sparesReports_of_analysis
    (sparesBodies_onScopes fun t id => t.fields_get_addVariable scope name descriptor id)

theorem sparesReports_registerParameterProperty
    (members classId : Nat) (property : String × Nat) :
    KeepsOr (SparesReports heads nodes) (registerParameterProperty members classId property) := by
  refine (sparesReports_addVariable ..).bind fun _ => ?_
  have hrecord : Keeps (Session.SparesReports heads nodes) (recordBackingField property.2) :=
    ⟨fun s => ⟨.of_slots (fun slot => by cases slot <;> rfl) (.refl _),
      fun hs => ⟨hs.fieldless, hs.unwatched⟩, fun _ => rfl⟩⟩
  exact (sparesReports_analysis hrecord).bind fun _ => sparesReports_onTables _

theorem sparesReports_registerClass
    {head : ClassHead} (hparameters : parameterNodes (head.primaryConstructor.getD []) ⊆ nodes) :
    KeepsOr (SparesReports heads nodes) (registerClass head) := by
  refine keepsOr_session.bind fun s => ?_
  split
  · exact KeepsOr.throw _
  rename_i descriptor _
  refine keepsOr_session.bind fun s => ?_
  split
  · exact KeepsOr.throw _
  rename_i data _
  refine (sparesReports_of_faultyAnalysis
    (sparesBodies_resolvePrimaryConstructor hparameters descriptor)).bind fun result => ?_
  refine (KeepsOr.forM _ fun property _ =>
    sparesReports_registerParameterProperty data.memberScope descriptor property).bind fun _ => ?_
  dsimp only
  split
  · exact (sparesReports_of_faultyAnalysis (sparesBodies_editClass ..)).bind
      fun _ => KeepsOr.pure _
  · exact KeepsOr.pure _

theorem sparesBodies_registerFunction
    {decl : FunctionDecl} (hnodes : (Declaration.functionDecl decl).signatureNodes ⊆ nodes)
    (scope : Nat) : KeepsOr (SparesBodies heads nodes) (registerFunction scope decl) := by
  refine keepsOr_session.bind fun s => ?_
  refine (sparesBodies_faultyAnalysis (sparesBodies_resolveFunction hnodes ..)).bind
    fun function => ?_
  have hentered : KeepsOr (SparesBodies heads nodes)
      (onTables fun t => t.addFunction (.function decl) function scope) :=
    sparesBodies_onTables fun _ => rfl
  exact (sparesBodies_analysis (sparesBodies_onScopes fun t id =>
    t.fields_get_addFunction scope decl.name function id)).bind fun _ => hentered

theorem sparesReports_registerProperty
    {decl : PropertyDecl} (hnodes : (Declaration.propertyDecl decl).signatureNodes ⊆ nodes)
    (scope : Nat) : KeepsOr (SparesReports heads nodes) (registerProperty scope decl) := by
  refine keepsOr_session.bind fun s => ?_
  refine (sparesReports_of_faultyAnalysis (sparesBodies_resolveProperty hnodes ..)).bind
    fun property => ?_
  exact (sparesReports_addVariable ..).bind fun _ => sparesReports_onTables _

theorem sparesBodies_registerConstructor
    {decl : ConstructorDecl} (hnodes : (Declaration.constructorDecl decl).signatureNodes ⊆ nodes)
    (scope : Nat) : KeepsOr (SparesBodies heads nodes) (registerConstructor scope decl) := by
  refine keepsOr_session.bind fun s => ?_
  split
  · exact sparesBodies_analysis (sparesBodies_report (by decide) ..)
  · refine (sparesBodies_faultyAnalysis (sparesBodies_resolveConstructor hnodes ..)).bind
      fun constructor => ?_
    have hentered : KeepsOr (SparesBodies heads nodes)
        (onTables fun t => t.addFunction (.constructor decl) constructor scope) :=
      sparesBodies_onTables fun _ => rfl
    exact (sparesBodies_faultyAnalysis (sparesBodies_editClass ..)).bind fun _ => hentered

theorem sparesReports_of_sparesBodies
    {x : Pass α} (h : KeepsOr (SparesBodies heads nodes) x) :
    KeepsOr (SparesReports heads nodes) x :=
  h.mono fun _ _ h => h.session.toSparesReports

mutual

theorem sparesReports_register
    (scope : Nat) (d : Declaration) (hnodes : d.nested.flatMap Declaration.signatureNodes ⊆ nodes) :
    KeepsOr (SparesReports heads nodes) (register scope d) := by
  match d with
  | .classDecl head members =>
      obtain ⟨hhead, hmembers⟩ := List.append_subset.mp hnodes
      exact (sparesReports_registerClass (List.cons_subset.mp hhead).2).bind fun inner =>
        sparesReports_registerAll inner members hmembers
  | .classObject id members =>
      obtain ⟨-, hmembers⟩ := List.append_subset.mp hnodes
      exact (sparesReports_of_analysis (sparesBodies_report (by decide) ..)).bind fun _ =>
        sparesReports_registerAll scope members hmembers
  | .namespaceDecl head members =>
      obtain ⟨-, hmembers⟩ := List.append_subset.mp hnodes
      refine keepsOr_tables.bind fun tables => ?_
      split
      · exact KeepsOr.throw _
      · exact sparesReports_registerAll _ members hmembers
  | .functionDecl decl =>
      exact sparesReports_of_sparesBodies
        (sparesBodies_registerFunction (List.append_subset.mp hnodes).1 scope)
  | .propertyDecl decl =>
      exact sparesReports_registerProperty (List.append_subset.mp hnodes).1 scope
  | .constructorDecl decl =>
      exact sparesReports_of_sparesBodies
        (sparesBodies_registerConstructor (List.append_subset.mp hnodes).1 scope)
  | .typedefDecl _ _ | .extensionDecl _ _ => exact sparesReports_of_analysis (sparesBodies_report (by decide) ..)

theorem sparesReports_registerAll
    (scope : Nat) (ds : List Declaration)
    (hnodes : (Declaration.nestedIn ds).flatMap Declaration.signatureNodes ⊆ nodes) :
    KeepsOr (SparesReports heads nodes) (registerAll scope ds) := by
  match ds with
  | [] => exact KeepsOr.pure _
  | d :: rest =>
      rw [Declaration.nestedIn, List.flatMap_append, List.append_subset] at hnodes
      exact (sparesReports_register scope d hnodes.1).bind fun _ =>
        sparesReports_registerAll scope rest hnodes.2

end

end Pass

end DeclAnalysis
