import DeclAnalysis.Resolve.Collect
import DeclAnalysis.Resolve.Run
import DeclAnalysis.Proofs.Resolve.Parts
import DeclAnalysis.Proofs.Resolve.Pass
import DeclAnalysis.Proofs.Semantic.Widening
import DeclAnalysis.Proofs.Session.Frame
import DeclAnalysis.Proofs.Tree.Spaces

/-!
# Scopes that are referred to

The members of classes and namespaces are in scopes that exist, and so are the declarations
that are entered in the tables. This holds from the first pass on, whatever is imported, and
whether or not a fault stops the pass.
-/

namespace DeclAnalysis

/-! ## Binding types -/

namespace ScopeTree

variable (t : ScopeTree)

/-- Binding a name writes one key of the storage scope. The table is `bound`. -/
theorem getElem?_bound_bind
    {scope : Nat} (h : t.storage scope < t.size) {f : Bindings → Bindings}
    (bound : Bindings → Std.TreeMap String Nat) {name : String} {descriptor : Nat}
    (hf : ∀ b, bound (f b) = (bound b).insert name descriptor) (id : Nat) (name' : String) :
    (bound ((t.bind scope f).get id).bindings)[name']? =
      if id = t.storage scope ∧ name = name' then some descriptor
      else (bound (t.get id).bindings)[name']? := by
  by_cases hid : id = t.storage scope
  · subst hid
    rw [t.get_bind_storage h]
    simp [hf, Std.TreeMap.getElem?_insert]
  · rcases t.get_bind_cases scope id f with heq | ⟨hstorage, -⟩
    · rw [heq]
      simp [hid]
    · exact absurd hstorage hid

theorem classifiers?_addClassifier
    {scope : Nat} (h : t.storage scope < t.size) (name : String) (descriptor id : Nat)
    (name' : String) :
    ((t.addClassifier scope name descriptor).get id).bindings.classifiers[name']? =
      if id = t.storage scope ∧ name = name' then some descriptor
      else (t.get id).bindings.classifiers[name']? :=
  t.getElem?_bound_bind h Bindings.classifiers (fun _ => rfl) id name'

theorem namespaces?_addNamespace
    {scope : Nat} (h : t.storage scope < t.size) (name : String) (descriptor id : Nat)
    (name' : String) :
    ((t.addNamespace scope name descriptor).get id).bindings.namespaces[name']? =
      if id = t.storage scope ∧ name = name' then some descriptor
      else (t.get id).bindings.namespaces[name']? :=
  t.getElem?_bound_bind h Bindings.namespaces (fun _ => rfl) id name'

theorem classifiers_get_bind
    {f : Bindings → Bindings} (hf : ∀ b, (f b).classifiers = b.classifiers) (scope id : Nat) :
    ((t.bind scope f).get id).bindings.classifiers = (t.get id).bindings.classifiers :=
  t.apply_get_modify (fun s => s.bindings.classifiers)
    (fun s => { s with bindings := f s.bindings }) (fun s => hf s.bindings) _ id

theorem functions_get_bind
    {f : Bindings → Bindings} (hf : ∀ b, (f b).functions = b.functions) (scope id : Nat) :
    ((t.bind scope f).get id).bindings.functions = (t.get id).bindings.functions :=
  t.apply_get_modify (fun s => s.bindings.functions)
    (fun s => { s with bindings := f s.bindings }) (fun s => hf s.bindings) _ id

end ScopeTree

/-! ## Models -/

namespace Model

/-- The scopes of members of classes and namespaces exist. -/
structure Located (m : Model) : Prop where
  formed : m.Formed
  members_lt : ∀ {d : Nat} {members : Nat ⊕ Nat},
    (m.descriptors.get d).kind.memberScope? = some members → members.elim id id < m.scopes.size

variable {t t' : ScopeTree} {d : DescriptorTable}

theorem Located.of_within
    {fr : Session.Frame} {s s' : Session} (h : s.model.Located) (hwithin : fr.Within s s') :
    s'.model.Located := by
  refine ⟨hwithin.formed h.formed, fun {d members} hd => ?_⟩
  have hd' := (hwithin.sameTypes.memberScope?_eq d).symm.trans hd
  exact (h.members_lt hd').trans_le hwithin.nests.size_le

/-- Changes of the descriptors that add neither classes nor namespaces. -/
theorem Located.of_sameTypes
    {d' : DescriptorTable} (h : (⟨t, d⟩ : Model).Located) (hd : d.SameTypes d') :
    (⟨t, d'⟩ : Model).Located := by
  refine ⟨⟨h.formed.ordered, fun hid => ?_⟩, fun hid => ?_⟩
  · exact (h.formed.lt_size hid).trans_le hd.size_le
  · exact h.members_lt ((hd.memberScope?_eq _).symm.trans hid)

/-- Changes of the scopes that declare no classes. -/
theorem Located.of_scopes
    (h : (⟨t, d⟩ : Model).Located) (hordered : t'.Ordered) (hsize : t.size ≤ t'.size)
    (hclassifiers : ∀ id,
      (t'.get id).bindings.classifiers = (t.get id).bindings.classifiers) :
    (⟨t', d⟩ : Model).Located := by
  refine ⟨⟨hordered, fun {scope name id} hid => ?_⟩, fun hd => ?_⟩
  · have hold : (t.get scope).bindings.classifiers[name]? = some id := by
      rw [← hclassifiers]
      exact hid
    exact h.formed.lt_size hold
  · exact (h.members_lt hd).trans_le hsize

theorem Located.create
    (h : (⟨t, d⟩ : Model).Located) {parent : Option Nat}
    (hparent : ∀ p, parent = some p → p < t.size) (kind : ScopeKind) (owner : Option Nat) :
    (⟨(t.create kind parent owner).2, d⟩ : Model).Located := by
  refine h.of_scopes (h.formed.ordered.create hparent kind owner) ?_ fun id => ?_
  · rw [ScopeTree.size_create]
    exact Nat.le_succ _
  · exact congrArg Bindings.classifiers (t.bindings_get_create kind parent owner id)

theorem Located.createWriteThrough
    (h : (⟨t, d⟩ : Model).Located) {outer target : Nat} (houter : outer < t.size)
    (htarget : target < t.size) :
    (⟨(t.createWriteThrough outer target).2, d⟩ : Model).Located := by
  refine h.of_scopes (h.formed.ordered.createWriteThrough houter htarget) ?_ fun id => ?_
  · rw [ScopeTree.size_createWriteThrough]
    exact Nat.le_succ _
  · exact congrArg Bindings.classifiers (t.bindings_get_createWriteThrough outer target id)

theorem Located.createDescriptor
    (h : (⟨t, d⟩ : Model).Located) (name : String) (container : Option Nat)
    {kind : DescriptorKind}
    (hkind : ∀ members, kind.memberScope? = some members → members.elim id id < t.size) :
    (⟨t, (d.create name container kind).2⟩ : Model).Located := by
  refine ⟨⟨h.formed.ordered, fun hid => ?_⟩, fun {id members} hid => ?_⟩
  · change _ < (d.create name container kind).2.size
    rw [DescriptorTable.size_create]
    exact (h.formed.lt_size hid).trans (Nat.lt_succ_self _)
  · dsimp only at hid
    by_cases hnew : id = d.size
    · rw [hnew, DescriptorTable.get_create_size] at hid
      exact hkind members hid
    · rw [DescriptorTable.get_create_of_ne _ _ _ _ hnew] at hid
      exact h.members_lt hid

theorem Located.setOwner (h : (⟨t, d⟩ : Model).Located) (scope owner : Nat) :
    (⟨t.setOwner scope owner, d⟩ : Model).Located := by
  refine h.of_scopes (h.formed.ordered.modify scope (fun _ => rfl) fun _ => rfl) ?_ fun id => ?_
  · exact (t.size_modify ..).ge
  · exact t.apply_get_modify (fun s => s.bindings.classifiers)
      (fun s => { s with owner := some owner }) (fun _ => rfl) scope id

theorem Located.importScope (h : (⟨t, d⟩ : Model).Located) (scope imported : Nat) :
    (⟨t.importScope scope imported, d⟩ : Model).Located := by
  refine h.of_scopes (h.formed.ordered.modify scope (fun _ => rfl) fun _ => rfl) ?_ fun id => ?_
  · exact (t.size_modify ..).ge
  · exact t.apply_get_modify (fun s => s.bindings.classifiers)
      (fun s => { s with imports := s.imports ++ [imported] }) (fun _ => rfl) scope id

theorem Located.addNamespace
    (h : (⟨t, d⟩ : Model).Located) (scope : Nat) (name : String) (descriptor : Nat) :
    (⟨t.addNamespace scope name descriptor, d⟩ : Model).Located := by
  refine h.of_scopes (h.formed.ordered.bind scope _) (t.size_bind ..).ge fun id => ?_
  exact t.classifiers_get_bind
    (f := fun b => { b with namespaces := b.namespaces.insert name descriptor })
    (fun _ => rfl) scope id

/-- The name of a class is bound to a descriptor that exists. -/
theorem Located.addClassifier
    (h : (⟨t, d⟩ : Model).Located) {scope : Nat} (hscope : scope < t.size) (name : String)
    {descriptor : Nat} (hdescriptor : descriptor < d.size) :
    (⟨t.addClassifier scope name descriptor, d⟩ : Model).Located := by
  have hstorage : t.storage scope < t.size := h.formed.ordered.storage_lt hscope
  have hordered : (t.addClassifier scope name descriptor).Ordered :=
    h.formed.ordered.bind scope _
  refine ⟨⟨hordered, fun {scope' name' id} hid => ?_⟩, fun hd => ?_⟩
  · dsimp only at hid
    rw [t.classifiers?_addClassifier hstorage] at hid
    split at hid
    · obtain rfl := Option.some.inj hid
      exact hdescriptor
    · exact h.formed.lt_size hid
  · exact (h.members_lt hd).trans_eq (t.size_bind ..).symm

end Model

/-! ## What the first pass makes known -/

namespace PassState

/-- The state after a class has been made known in a scope. -/
def declareClass (s : PassState) (scope : Nat) (head : ClassHead) : PassState :=
  let name := head.name.getD noNameProvided
  let members := s.scopes.size
  let descriptor := s.descriptors.size
  { model :=
      { scopes :=
          (((s.scopes.create .classScope (some scope) none).2).setOwner members descriptor).addClassifier
            scope name descriptor
        descriptors :=
          (s.descriptors.create name (s.scopes.containingDeclaration? scope)
            (.classKind false { memberScope := members, declaringScope := scope })).2 }
    recorder := s.recorder.recordDeclaration head.id descriptor
    diagnostics := s.diagnostics
    tables := s.tables.addClass head descriptor scope }

/-- The state after a new namespace has been made known in a scope. -/
def declareNamespace (s : PassState) (scope : Nat) (name : String) (node : Nat) : PassState :=
  let members := s.scopes.size
  let descriptor := s.descriptors.size
  { model :=
      { scopes :=
          (((s.scopes.create .namespaceScope none none).2).setOwner members descriptor).addNamespace
            scope name descriptor
        descriptors :=
          (s.descriptors.create name (s.scopes.containingDeclaration? scope)
            (.namespaceKind members)).2 }
    recorder := s.recorder.recordDeclaration node descriptor
    diagnostics := s.diagnostics
    tables := s.tables }

/-- The state after the scope of a part of a namespace has been added. -/
def openNamespace (s : PassState) (scope members node : Nat) : PassState :=
  { model :=
      { scopes := (s.scopes.createWriteThrough scope members).2
        descriptors := s.descriptors }
    recorder := s.recorder
    diagnostics := s.diagnostics
    tables :=
      { s.tables with
        namespaceScopes := s.tables.namespaceScopes.insert node s.scopes.size } }

/-- The scopes exist that are entered in the tables, and those of members. -/
structure Located (s : PassState) : Prop where
  model : s.model.Located
  declaring_lt : ∀ {node scope : Nat}, s.tables.declaringScopes[node]? = some scope →
    scope < s.scopes.size
  namespace_lt : ∀ {node scope : Nat}, s.tables.namespaceScopes[node]? = some scope →
    scope < s.scopes.size

variable {s s' : PassState}

/-- Changes that leave the tables alone. -/
theorem Located.of_model
    (h : s.Located) (hmodel : s'.model.Located) (hsize : s.scopes.size ≤ s'.scopes.size)
    (htables : s'.tables = s.tables) : s'.Located := by
  refine ⟨hmodel, fun hscope => ?_, fun hscope => ?_⟩
  · rw [htables] at hscope
    exact (h.declaring_lt hscope).trans_le hsize
  · rw [htables] at hscope
    exact (h.namespace_lt hscope).trans_le hsize

/-- The state is still located after a step, no scopes are lost, and only classes and namespaces
are entered in the tables. -/
structure StaysLocated (s s' : PassState) : Prop where
  located : s.Located → s'.Located
  size_le : s.scopes.size ≤ s'.scopes.size
  functions_eq : s'.tables.functions = s.tables.functions
  properties_eq : s'.tables.properties = s.tables.properties

instance : IsPreorder PassState StaysLocated where
  refl _ := ⟨id, Nat.le_refl _, rfl, rfl⟩
  trans _ _ _ h h' := ⟨fun hs => h'.located (h.located hs), h.size_le.trans h'.size_le,
    h'.functions_eq.trans h.functions_eq, h'.properties_eq.trans h.properties_eq⟩

/-- A scope of a located state. -/
structure HasScope (scope : Nat) (s : PassState) : Prop where
  located : s.Located
  lt_size : scope < s.scopes.size

instance (scope : Nat) : Stable (HasScope scope) StaysLocated where
  stable h hs := ⟨h.located hs.located, hs.lt_size.trans_le h.size_le⟩

theorem size_declareClass (s : PassState) (scope : Nat) (head : ClassHead) :
    (s.declareClass scope head).scopes.size = s.scopes.size + 1 := by
  unfold declareClass Session.scopes
  dsimp only
  unfold ScopeTree.addClassifier ScopeTree.setOwner
  rw [ScopeTree.size_bind, ScopeTree.size_modify, ScopeTree.size_create]

theorem size_declareNamespace (s : PassState) (scope : Nat) (name : String) (node : Nat) :
    (s.declareNamespace scope name node).scopes.size = s.scopes.size + 1 := by
  unfold declareNamespace Session.scopes
  dsimp only
  unfold ScopeTree.addNamespace ScopeTree.setOwner
  rw [ScopeTree.size_bind, ScopeTree.size_modify, ScopeTree.size_create]

theorem size_openNamespace (s : PassState) (scope members node : Nat) :
    (s.openNamespace scope members node).scopes.size = s.scopes.size + 1 :=
  s.scopes.size_createWriteThrough scope members

/-- The members of a class that is made known are in a new scope. -/
theorem HasScope.located_declareClass {scope : Nat} (h : HasScope scope s) (head : ClassHead) :
    (s.declareClass scope head).Located := by
  have hsize : (s.scopes.create .classScope (some scope) none).2.size = s.scopes.size + 1 :=
    s.scopes.size_create ..
  have hparent : ∀ p, some scope = some p → p < s.scopes.size := by
    rintro _ ⟨⟩
    exact h.lt_size
  have hmembers : ∀ members, (DescriptorKind.classKind false
      { memberScope := s.scopes.size, declaringScope := scope }).memberScope? = some members →
        members.elim id id < (s.scopes.create .classScope (some scope) none).2.size := by
    rintro _ ⟨⟩
    exact (Nat.lt_succ_self _).trans_eq hsize.symm
  have hmodel : (s.declareClass scope head).model.Located := by
    refine Model.Located.addClassifier ?_ ?_ _ ?_
    · have hcreated := h.located.model.create hparent .classScope none
      exact (hcreated.createDescriptor _ _ hmembers).setOwner ..
    · refine (h.lt_size.trans (Nat.lt_succ_self _)).trans_eq ?_
      exact (hsize.symm.trans (ScopeTree.size_modify ..).symm)
    · exact (Nat.lt_succ_self _).trans_eq (DescriptorTable.size_create ..).symm
  refine ⟨hmodel, fun {node scope'} hscope => ?_, fun hscope => ?_⟩
  · rw [size_declareClass]
    change (s.tables.declaringScopes.insert head.id scope)[node]? = some scope' at hscope
    rcases getElem?_insert_cases hscope with ⟨-, rfl⟩ | hold
    · exact h.lt_size.trans (Nat.lt_succ_self _)
    · exact (h.located.declaring_lt hold).trans (Nat.lt_succ_self _)
  · rw [size_declareClass]
    exact (h.located.namespace_lt hscope).trans (Nat.lt_succ_self _)

theorem HasScope.located_declareNamespace
    {scope : Nat} (h : HasScope scope s) (name : String) (node : Nat) :
    (s.declareNamespace scope name node).Located := by
  have hsize : (s.scopes.create .namespaceScope none none).2.size = s.scopes.size + 1 :=
    s.scopes.size_create ..
  have hmembers : ∀ members, (DescriptorKind.namespaceKind s.scopes.size).memberScope? =
      some members →
        members.elim id id < (s.scopes.create .namespaceScope none none).2.size := by
    rintro _ ⟨⟩
    exact (Nat.lt_succ_self _).trans_eq hsize.symm
  have hmodel : (s.declareNamespace scope name node).model.Located := by
    refine Model.Located.addNamespace ?_ ..
    have hnone : ∀ p, none = some p → p < s.scopes.size := fun p hp =>
      absurd hp.symm (Option.some_ne_none p)
    have hcreated := h.located.model.create hnone .namespaceScope none
    exact (hcreated.createDescriptor _ _ hmembers).setOwner ..
  refine h.located.of_model hmodel ?_ rfl
  rw [size_declareNamespace]
  exact Nat.le_succ _

theorem HasScope.located_openNamespace
    {scope members : Nat} (h : HasScope scope s) (hmembers : members < s.scopes.size) (node : Nat) :
    (s.openNamespace scope members node).Located := by
  refine ⟨h.located.model.createWriteThrough h.lt_size hmembers, fun hscope => ?_,
    fun {node' scope'} hscope => ?_⟩
  · rw [size_openNamespace]
    exact (h.located.declaring_lt hscope).trans (Nat.lt_succ_self _)
  · rw [size_openNamespace]
    change (s.tables.namespaceScopes.insert node s.scopes.size)[node']? = some scope' at hscope
    rcases getElem?_insert_cases hscope with ⟨-, rfl⟩ | hold
    · exact Nat.lt_succ_self _
    · exact (h.located.namespace_lt hold).trans (Nat.lt_succ_self _)

end PassState

namespace Pass

open Analysis
open PassState (HasScope StaysLocated)

variable {s : PassState}

section

variable {post : Nat → PassState → Prop} {stopped : Fault → PassState → Prop}

theorem afterOr_collectClass {scope : Nat} {head : ClassHead} :
    AfterOr (collectClass scope head) s post stopped ↔
      post s.scopes.size (s.declareClass scope head) :=
  Iff.rfl

theorem afterOr_declareNamespace {scope : Nat} {name : String} {node : Nat} :
    AfterOr (declareNamespace scope name node) s post stopped ↔
      post s.descriptors.size (s.declareNamespace scope name node) :=
  Iff.rfl

/-- The scope of a part of a namespace is added before the imports of the part take effect. -/
theorem afterOr_openNamespace
    {scope descriptor members : Nat} {head : NamespaceHead}
    (hmembers : s.descriptors.namespaceMembers? descriptor = some members) :
    AfterOr (openContents scope head descriptor) s post stopped ↔
      AfterOr (head.imports.forM (applyImport s.scopes.size))
        (s.openNamespace scope members head.id) (fun _ => post s.scopes.size) stopped := by
  refine afterOr_bind.trans (afterOr_session.trans ?_)
  rw [hmembers]
  refine afterOr_bind.trans (afterOr_analysis.trans ?_)
  refine afterOr_bind.trans (afterOr_onTables.trans ?_)
  exact afterOr_bind.trans Iff.rfl

/-- A namespace that is known gets a further part. -/
theorem afterOr_collectNamespace_known
    {options : AnalysisOptions} {scope known members : Nat} {head : NamespaceHead}
    (hknown : s.scopes.memberNamespace? scope (head.knownName options) = some known)
    (hmembers : s.descriptors.namespaceMembers? known = some members) :
    AfterOr (collectNamespace options scope head) s post stopped ↔
      AfterOr (head.imports.forM (applyImport s.scopes.size))
        (s.openNamespace scope members head.id) (fun _ => post s.scopes.size) stopped := by
  refine afterOr_bind.trans (afterOr_session.trans ?_)
  unfold NamespaceHead.knownName at hknown
  dsimp only
  rw [hknown]
  exact afterOr_openNamespace hmembers

theorem namespaceMembers?_declareNamespace
    (s : PassState) (scope : Nat) (name : String) (node : Nat) :
    (s.declareNamespace scope name node).descriptors.namespaceMembers? s.descriptors.size =
      some s.scopes.size := by
  unfold DescriptorTable.namespaceMembers? PassState.declareNamespace Session.descriptors
  dsimp only
  rw [DescriptorTable.get_create_size]

/-- A namespace that is not known is declared with its first part. -/
theorem afterOr_collectNamespace_new
    {options : AnalysisOptions} {scope : Nat} {head : NamespaceHead}
    (hnew : s.scopes.memberNamespace? scope (head.knownName options) = none) :
    AfterOr (collectNamespace options scope head) s post stopped ↔
      AfterOr (head.imports.forM (applyImport (s.scopes.size + 1)))
        ((s.declareNamespace scope (head.knownName options) head.id).openNamespace scope
          s.scopes.size head.id) (fun _ => post (s.scopes.size + 1)) stopped := by
  let declared := s.declareNamespace scope (head.knownName options) head.id
  have hmembers : declared.descriptors.namespaceMembers? s.descriptors.size =
      some s.scopes.size := namespaceMembers?_declareNamespace ..
  have hsize : declared.scopes.size = s.scopes.size + 1 := s.size_declareNamespace ..
  have hopen := @afterOr_openNamespace declared post stopped scope _ _ head hmembers
  rw [hsize] at hopen
  refine afterOr_bind.trans (afterOr_session.trans ?_)
  unfold NamespaceHead.knownName at hnew
  dsimp only
  rw [hnew]
  exact afterOr_bind.trans (afterOr_declareNamespace.trans hopen)

end

/-! ### Imports -/

theorem keepsLocated_importMembers (scope : Nat) (imported : Expr) :
    KeepsOr (From (HasScope scope) StaysLocated) (importMembers scope imported) := by
  -- Whatever the expression declares and refers to.
  let fr : Session.Frame := ⟨imported.nodes, 0, fun _ _ => True, fun _ _ => True⟩
  have hinfer : KeepsOr (From (HasScope scope) StaysLocated)
      (liftM (infer scope imported) : Pass (Option Ty)) := by
    refine KeepsOr.of_afterOr fun s => afterOr_analysis.mpr fun hs => ?_
    have hadmits : fr.ground.admits imported.openLocals imported.typeRefs scope s.toSession :=
      ⟨hs.located.model.formed, hs.lt_size, Nat.zero_le _, fun _ _ => .inl (Nat.zero_le _),
        fun _ _ => .inr trivial⟩
    have hkeeps := keepsFrom_inferWithin (g := fr.ground) (R := fr.Within) scope imported
      (List.Subset.refl _) (List.Subset.refl _) (List.Subset.refl _)
    have hwithin := hkeeps.after s.toSession hadmits
    refine ⟨fun hlocated => ?_, hwithin.nests.size_le, rfl, rfl⟩
    exact hlocated.of_model (hlocated.model.of_within hwithin) hwithin.nests.size_le rfl
  refine hinfer.bind fun type => ?_
  cases type with
  | none => exact KeepsOr.pure _
  | some type =>
      refine KeepsOr.of_afterOr fun s => afterOr_bind.mpr (afterOr_session.mpr ?_)
      split
      · rename_i members _
        refine afterOr_analysis.mpr fun _ => ⟨fun hlocated => ?_, ?_, rfl, rfl⟩
        · exact hlocated.of_model (hlocated.model.importScope scope members)
            (ScopeTree.size_modify ..).ge rfl
        · exact (ScopeTree.size_modify ..).ge
      · split
        · refine afterOr_analysis.mpr fun _ => ⟨fun hlocated => ?_, Nat.le_refl _, rfl, rfl⟩
          exact hlocated.of_model hlocated.model (Nat.le_refl _) rfl
        · exact fun _ => refl_of StaysLocated s

theorem keepsLocated_applyImport (scope : Nat) (i : ImportDirective) :
    KeepsOr (From (HasScope scope) StaysLocated) (applyImport scope i) := by
  refine applyImport_cases (p := KeepsOr _) scope i KeepsOr.throw (KeepsOr.pure _) ?_
  exact fun imported _ => keepsLocated_importMembers scope imported

/-! ### Declarations -/

/-- A part of a namespace of which the members are in a scope that exists. -/
theorem afterOr_importsOf_located
    {scope members : Nat} {s₁ : PassState} (hstays : StaysLocated s s₁) (hs₁ : HasScope scope s₁)
    (hmembers : members < s₁.scopes.size) (head : NamespaceHead) :
    AfterOr (head.imports.forM (applyImport s₁.scopes.size))
      (s₁.openNamespace scope members head.id)
      (fun _ s' => StaysLocated s s' ∧ HasScope s₁.scopes.size s')
      fun _ s' => StaysLocated s s' := by
  let opened := s₁.openNamespace scope members head.id
  have hopened : opened.Located := hs₁.located_openNamespace hmembers head.id
  have hsize : s₁.scopes.size < opened.scopes.size := by
    rw [PassState.size_openNamespace]
    exact Nat.lt_succ_self _
  have hstays' : StaysLocated s opened :=
    trans_of StaysLocated hstays ⟨fun _ => hopened, hsize.le, rfl, rfl⟩
  have hinner : HasScope s₁.scopes.size opened := ⟨hopened, hsize⟩
  have himports : KeepsOr (From (HasScope s₁.scopes.size) StaysLocated)
      (head.imports.forM (applyImport s₁.scopes.size)) :=
    KeepsOr.forM _ fun i _ => keepsLocated_applyImport _ i
  refine AfterOr.mono (himports.afterOr opened) (fun _ s₂ h₂ => ?_) fun _ s₂ h₂ => ?_
  · exact ⟨trans_of StaysLocated hstays' (h₂ hinner), Stable.stable (h₂ hinner) hinner⟩
  · exact trans_of StaysLocated hstays' (h₂ hinner)

theorem afterOr_collectNamespace_located
    (options : AnalysisOptions) {scope : Nat} (hs : HasScope scope s) (head : NamespaceHead) :
    AfterOr (collectNamespace options scope head) s
      (fun inner s' => StaysLocated s s' ∧ HasScope inner s') fun _ s' => StaysLocated s s' := by
  cases hknown : s.scopes.memberNamespace? scope (head.knownName options) with
  | none =>
      let declared := s.declareNamespace scope (head.knownName options) head.id
      have hsize : declared.scopes.size = s.scopes.size + 1 := s.size_declareNamespace ..
      have hstays : StaysLocated s declared :=
        ⟨fun _ => hs.located_declareNamespace _ head.id, hsize ▸ Nat.le_succ _, rfl, rfl⟩
      have hmembers : s.scopes.size < declared.scopes.size := hsize ▸ Nat.lt_succ_self _
      have hopen := afterOr_importsOf_located hstays (Stable.stable hstays hs) hmembers head
      rw [hsize] at hopen
      exact (afterOr_collectNamespace_new hknown).mpr hopen
  | some known =>
      cases hmembers : s.descriptors.namespaceMembers? known with
      | none =>
          refine afterOr_bind.mpr (afterOr_session.mpr ?_)
          unfold NamespaceHead.knownName at hknown
          dsimp only
          rw [hknown]
          refine afterOr_bind.mpr (afterOr_pure.mpr (afterOr_bind.mpr (afterOr_session.mpr ?_)))
          rw [hmembers]
          exact refl_of StaysLocated s
      | some members =>
          have hlt : members < s.scopes.size :=
            hs.located.model.members_lt (DescriptorTable.memberScope?_of_namespaceMembers? hmembers)
          refine (afterOr_collectNamespace_known hknown hmembers).mpr ?_
          exact afterOr_importsOf_located (refl_of StaysLocated s) hs hlt head

mutual

theorem keepsLocated_collect (options : AnalysisOptions) (scope : Nat) (d : Declaration) :
    KeepsOr (From (HasScope scope) StaysLocated) (collect options scope d) := by
  match d with
  | .classDecl head members =>
      refine KeepsOr.bind_from (fun s hs => afterOr_collectClass.mpr ⟨⟨fun _ => ?_, ?_, rfl, rfl⟩, ?_, ?_⟩)
        fun inner => keepsLocated_collectAll options inner members
      · exact hs.located_declareClass head
      · rw [PassState.size_declareClass]
        exact Nat.le_succ _
      · exact hs.located_declareClass head
      · rw [PassState.size_declareClass]
        exact Nat.lt_succ_self _
  | .namespaceDecl head members =>
      exact KeepsOr.bind_from (fun s hs => afterOr_collectNamespace_located options hs head)
        fun inner => keepsLocated_collectAll options inner members
  | .classObject _ members => exact keepsLocated_collectAll options scope members
  | .typedefDecl .. | .extensionDecl .. => exact KeepsOr.throw _
  | .functionDecl _ | .propertyDecl _ | .constructorDecl _ => exact KeepsOr.pure _

theorem keepsLocated_collectAll
    (options : AnalysisOptions) (scope : Nat) (ds : List Declaration) :
    KeepsOr (From (HasScope scope) StaysLocated) (collectAll options scope ds) := by
  match ds with
  | [] => exact KeepsOr.pure _
  | d :: rest =>
      exact (keepsLocated_collect options scope d).bind fun _ =>
        keepsLocated_collectAll options scope rest

end

/-- The scope of the file exists from the beginning on. -/
theorem hasScope_toplevel : HasScope toplevel initialState := by
  have hempty : (⟨{}, {}⟩ : Model).Located := by
    refine ⟨⟨⟨fun h => ?_, fun h => ?_⟩, fun h => ?_⟩, fun h => ?_⟩
    · simp [ScopeTree.get] at h
    · simp [ScopeTree.get] at h
    · simp [ScopeTree.get] at h
    · simp [DescriptorTable.get, DescriptorKind.memberScope?] at h
  have hnone : ∀ p, none = some p → p < 0 := fun p hp => absurd hp.symm (Option.some_ne_none p)
  have hroot := hempty.create hnone .root none
  have hmodel : initialState.model.Located := by
    refine hroot.create ?_ .toplevel none
    rintro _ ⟨⟩
    exact Nat.zero_lt_one
  refine ⟨⟨hmodel, fun h => ?_, fun h => ?_⟩, Nat.lt_succ_self 1⟩
  · simp [initialState] at h
  · simp [initialState] at h

end Pass

end DeclAnalysis
