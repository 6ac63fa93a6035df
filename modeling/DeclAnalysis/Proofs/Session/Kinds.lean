import DeclAnalysis.Proofs.Semantic.Kinds
import DeclAnalysis.Proofs.Semantic.Surroundings
import DeclAnalysis.Proofs.Session.Change

/-!
# Well-kinded sessions

A session is well-kinded if every number of a descriptor or scope that it stores anywhere belongs
to an existing one of the right sort and name. Computations lead from well-kinded sessions to
well-kinded ones, and what is known about a descriptor beforehand is still true afterwards.
-/

namespace DeclAnalysis

variable {t t' : DescriptorTable}

/-! ## Scopes -/

/-- Names are bound to descriptors of the right sort that bear them. -/
structure Bindings.WellKinded (t : DescriptorTable) (b : Bindings) : Prop where
  classifiers : ∀ {name id}, b.classifiers[name]? = some id → t.Names .classSort name id
  namespaces : ∀ {name id}, b.namespaces[name]? = some id → t.Names .namespaceSort name id
  functions : ∀ {name ids}, b.functions[name]? = some ids →
    ∀ id ∈ ids, t.Names (.functionSort .plain) name id
  values : ∀ {name id}, b.values[name]? = some id → t.NamesValue name id
  fields : ∀ {name id}, b.fields[name]? = some id → t.Names .propertySort name id

/-- The scopes and descriptors that a scope refers to exist, and its bindings are right. -/
structure Scope.WellKinded (t : DescriptorTable) (scopes : Nat) (s : Scope) : Prop where
  parent_lt : ∀ p ∈ s.parent, p < scopes
  children_lt : ∀ c ∈ s.children, c < scopes
  owner_lt : ∀ o ∈ s.owner, o < t.size
  writeTarget_lt : ∀ target ∈ s.writeTarget, target < scopes
  imports_lt : ∀ i ∈ s.imports, i < scopes
  bindings : s.bindings.WellKinded t

/-- All scopes are well-kinded. -/
def ScopeTree.WellKinded (t : DescriptorTable) (tree : ScopeTree) : Prop :=
  ∀ id, (tree.get id).WellKinded t tree.size

theorem Bindings.wellKinded_empty (t : DescriptorTable) : Bindings.WellKinded t {} := by
  refine ⟨fun h => ?_, fun h => ?_, fun h => ?_, fun h => ?_, fun h => ?_⟩
  all_goals
    rw [Std.TreeMap.getElem?_emptyc] at h
    cases h

theorem Bindings.WellKinded.of_matures (h : t.Matures t') {b : Bindings} (hb : b.WellKinded t) :
    b.WellKinded t' where
  classifiers hid := h.names (hb.classifiers hid)
  namespaces hid := h.names (hb.namespaces hid)
  functions hids id hid := h.names (hb.functions hids id hid)
  values hid := h.namesValue (hb.values hid)
  fields hid := h.names (hb.fields hid)

/-- A scope in which nothing is bound yet. -/
theorem Scope.wellKinded_new
    {scopes : Nat} {parent owner : Option Nat} (kind : ScopeKind) (hparent : ∀ p ∈ parent, p < scopes)
    (howner : ∀ o ∈ owner, o < t.size) : Scope.WellKinded t scopes { kind, parent, owner } :=
  ⟨hparent, nofun, howner, nofun, nofun, Bindings.wellKinded_empty t⟩

theorem Scope.WellKinded.of_matures
    {scopes scopes' : Nat} {s : Scope} (h : t.Matures t') (hscopes : scopes ≤ scopes')
    (hs : s.WellKinded t scopes) : s.WellKinded t' scopes' where
  parent_lt p hp := (hs.parent_lt p hp).trans_le hscopes
  children_lt c hc := (hs.children_lt c hc).trans_le hscopes
  owner_lt o ho := (hs.owner_lt o ho).trans_le h.size_le
  writeTarget_lt target htarget := (hs.writeTarget_lt target htarget).trans_le hscopes
  imports_lt i hi := (hs.imports_lt i hi).trans_le hscopes
  bindings := hs.bindings.of_matures h

namespace ScopeTree

variable {tree : ScopeTree}

theorem WellKinded.of_matures (h : t.Matures t') (htree : tree.WellKinded t) :
    tree.WellKinded t' :=
  fun id => (htree id).of_matures h (Nat.le_refl _)

theorem WellKinded.modify
    (htree : tree.WellKinded t) (id : Nat) {f : Scope → Scope}
    (hf : ∀ s, s.WellKinded t tree.size → (f s).WellKinded t tree.size) :
    (tree.modify id f).WellKinded t := by
  intro id'
  rw [size_modify]
  rcases tree.get_modify_cases id id' f with heq | ⟨-, heq⟩
  · rw [heq]
    exact htree id'
  · rw [heq]
    exact hf _ (htree id')

theorem WellKinded.bind
    (htree : tree.WellKinded t) (scope : Nat) {f : Bindings → Bindings}
    (hf : ∀ b, b.WellKinded t → (f b).WellKinded t) : (tree.bind scope f).WellKinded t :=
  htree.modify _ fun _ hs => { hs with bindings := hf _ hs.bindings }

theorem WellKinded.create
    (htree : tree.WellKinded t) {parent owner : Option Nat} (kind : ScopeKind)
    (hparent : ∀ p ∈ parent, p < tree.size) (howner : ∀ o ∈ owner, o < t.size) :
    (tree.create kind parent owner).2.WellKinded t := by
  intro id
  rw [size_create]
  by_cases heq : id = tree.size
  · subst heq
    rw [tree.get_create_size fun h => Nat.lt_irrefl _ (hparent _ h)]
    exact Scope.wellKinded_new kind (fun p hp => (hparent p hp).trans (Nat.lt_succ_self _)) howner
  · have hold := (htree id).of_matures (.refl t) (Nat.le_succ tree.size)
    have hchildren : ((tree.create kind parent owner).2.get id).children = (tree.get id).children ∨
        ((tree.create kind parent owner).2.get id).children =
          (tree.get id).children ++ [tree.size] := by
      have hpush := tree.get_push_of_ne heq { kind, parent, owner }
      unfold ScopeTree.create
      cases parent with
      | none => exact .inl (congrArg Scope.children hpush)
      | some p =>
          dsimp only
          rcases get_modify_cases ⟨tree.scopes.push { kind, parent := some p, owner }⟩ p id
            fun s => { s with children := s.children ++ [tree.size] } with h | ⟨-, h⟩
          · exact .inl ((congrArg Scope.children h).trans (congrArg Scope.children hpush))
          · refine .inr ((congrArg Scope.children h).trans ?_)
            rw [hpush]
    obtain ⟨children, hget⟩ := tree.get_create_of_ne heq kind parent owner
    rw [hget] at hchildren ⊢
    refine { hold with children_lt := fun c hc => ?_ }
    rcases hchildren with rfl | rfl
    · exact hold.children_lt c hc
    · rcases List.mem_append.mp hc with hmem | hmem
      · exact hold.children_lt c hmem
      · rw [List.mem_singleton.mp hmem]
        exact Nat.lt_succ_self _

theorem WellKinded.createWriteThrough
    (htree : tree.WellKinded t) {outer target : Nat} (houter : outer < tree.size)
    (htarget : target < tree.size) : (tree.createWriteThrough outer target).2.WellKinded t := by
  have hcreate : (tree.create .writeThrough (some outer) (tree.get target).owner).2.WellKinded t := by
    refine htree.create .writeThrough (fun p hp => ?_) (htree target).owner_lt
    obtain rfl := Option.mem_some.mp hp
    exact houter
  refine hcreate.modify _ fun s hs => { hs with writeTarget_lt := fun target' h => ?_ }
  obtain rfl := Option.mem_some.mp h
  rw [size_create]
  exact htarget.trans (Nat.lt_succ_self _)

theorem WellKinded.setOwner
    (htree : tree.WellKinded t) (scope : Nat) {owner : Nat} (howner : owner < t.size) :
    (tree.setOwner scope owner).WellKinded t :=
  htree.modify scope fun _ hs => { hs with
    owner_lt := fun _ ho => (Option.mem_some.mp ho) ▸ howner }

theorem WellKinded.importScope
    (htree : tree.WellKinded t) (scope : Nat) {imported : Nat} (himported : imported < tree.size) :
    (tree.importScope scope imported).WellKinded t := by
  refine htree.modify scope fun s hs => { hs with imports_lt := fun i hi => ?_ }
  rcases List.mem_append.mp hi with hmem | hmem
  · exact hs.imports_lt i hmem
  · rw [List.mem_singleton.mp hmem]
    exact himported

theorem WellKinded.addClassifier
    (htree : tree.WellKinded t) (scope : Nat) {name : String} {id : Nat}
    (hid : t.Names .classSort name id) : (tree.addClassifier scope name id).WellKinded t := by
  refine htree.bind scope fun b hb => { hb with classifiers := fun {name' id'} h => ?_ }
  rcases getElem?_insert_cases h with ⟨rfl, rfl⟩ | hold
  · exact hid
  · exact hb.classifiers hold

theorem WellKinded.addNamespace
    (htree : tree.WellKinded t) (scope : Nat) {name : String} {id : Nat}
    (hid : t.Names .namespaceSort name id) : (tree.addNamespace scope name id).WellKinded t := by
  refine htree.bind scope fun b hb => { hb with namespaces := fun {name' id'} h => ?_ }
  rcases getElem?_insert_cases h with ⟨rfl, rfl⟩ | hold
  · exact hid
  · exact hb.namespaces hold

theorem WellKinded.addFunction
    (htree : tree.WellKinded t) (scope : Nat) {name : String} {id : Nat}
    (hid : t.Names (.functionSort .plain) name id) :
    (tree.addFunction scope name id).WellKinded t := by
  refine htree.bind scope fun b hb => { hb with functions := fun {name' ids} h => ?_ }
  rcases getElem?_insert_cases h with ⟨rfl, rfl⟩ | hold
  · intro id' hid'
    rcases List.mem_append.mp hid' with hmem | hmem
    · rw [Std.TreeMap.getD_eq_getD_getElem?] at hmem
      cases hids : b.functions[name]? with
      | none => simp [hids] at hmem
      | some ids =>
          rw [hids] at hmem
          exact hb.functions hids id' hmem
    · rw [List.mem_singleton.mp hmem]
      exact hid
  · exact hb.functions hold

theorem WellKinded.addVariable
    (htree : tree.WellKinded t) (scope : Nat) {name : String} {id : Nat}
    (hid : t.NamesValue name id) : (tree.addVariable scope name id).WellKinded t := by
  refine htree.bind scope fun b hb => { hb with values := fun {name' id'} h => ?_ }
  rcases getElem?_insert_cases h with ⟨rfl, rfl⟩ | hold
  · exact hid
  · exact hb.values hold

theorem WellKinded.addField
    (htree : tree.WellKinded t) (scope : Nat) {name : String} {id : Nat}
    (hid : t.Names .propertySort name id) : (tree.addField scope name id).WellKinded t := by
  refine htree.bind scope fun b hb => { hb with fields := fun {name' id'} h => ?_ }
  rcases getElem?_insert_cases h with ⟨rfl, rfl⟩ | hold
  · exact hid
  · exact hb.fields hold

/-! ### What is looked up -/

/-- Whatever is looked up locally is bound somewhere. -/
theorem exists_of_local? {α : Type} {pick : Bindings → Option α} {scope : Nat} {a : α}
    (h : tree.local? pick scope = some a) : ∃ id, pick (tree.get id).bindings = some a := by
  unfold local? at h
  cases hpick : pick (tree.bindings scope) with
  | some b =>
      rw [hpick] at h
      exact ⟨tree.storage scope, hpick.trans h⟩
  | none =>
      rw [hpick] at h
      obtain ⟨i, -, hi⟩ := List.exists_of_findSome?_eq_some h
      exact ⟨tree.storage i, hi⟩

/-- Whatever is looked up is bound somewhere. -/
theorem exists_of_lookup? {α : Type} {pick : Bindings → Option α} {scope : Nat} {a : α}
    (h : tree.lookup? pick scope = some a) : ∃ id, pick (tree.get id).bindings = some a := by
  obtain ⟨i, -, hi⟩ := List.exists_of_findSome?_eq_some h
  exact exists_of_local? hi

section

variable (htree : tree.WellKinded t) {scope id : Nat} {name : String}

include htree

theorem WellKinded.classifier? (h : tree.classifier? scope name = some id) :
    t.Names .classSort name id := by
  obtain ⟨i, hi⟩ := exists_of_lookup? h
  exact (htree i).bindings.classifiers hi

theorem WellKinded.namespace? (h : tree.namespace? scope name = some id) :
    t.Names .namespaceSort name id := by
  obtain ⟨i, hi⟩ := exists_of_lookup? h
  exact (htree i).bindings.namespaces hi

theorem WellKinded.value? (h : tree.value? scope name = some id) : t.NamesValue name id := by
  obtain ⟨i, hi⟩ := exists_of_lookup? h
  exact (htree i).bindings.values hi

theorem WellKinded.field? (h : tree.field? scope name = some id) :
    t.Names .propertySort name id := by
  obtain ⟨i, hi⟩ := exists_of_lookup? h
  exact (htree i).bindings.fields hi

theorem WellKinded.functions :
    ∀ id ∈ tree.functions scope name, t.Names (.functionSort .plain) name id := by
  intro id hid
  unfold ScopeTree.functions at hid
  cases h : tree.lookup? (·.functions[name]?) scope with
  | none => simp [h] at hid
  | some ids =>
      rw [h] at hid
      obtain ⟨i, hi⟩ := exists_of_lookup? h
      exact (htree i).bindings.functions hi id hid

theorem WellKinded.memberClassifier? (h : tree.memberClassifier? scope name = some id) :
    t.Names .classSort name id := by
  obtain ⟨i, hi⟩ := exists_of_local? h
  exact (htree i).bindings.classifiers hi

theorem WellKinded.memberNamespace? (h : tree.memberNamespace? scope name = some id) :
    t.Names .namespaceSort name id := by
  obtain ⟨i, hi⟩ := exists_of_local? h
  exact (htree i).bindings.namespaces hi

theorem WellKinded.memberValue? (h : tree.memberValue? scope name = some id) :
    t.NamesValue name id := by
  obtain ⟨i, hi⟩ := exists_of_local? h
  exact (htree i).bindings.values hi

theorem WellKinded.containingDeclaration?_lt
    (h : tree.containingDeclaration? scope = some id) : id < t.size := by
  obtain ⟨i, -, hi⟩ := List.exists_of_findSome?_eq_some h
  exact (htree i).owner_lt id hi

end

end ScopeTree

/-! ## Traces -/

/-- What is recorded about nodes refers to existing descriptors; a reference to a backing field
refers to a property, and so does a backing field. -/
structure Trace.WellKinded (t : DescriptorTable) (trace : Trace) : Prop where
  declarations_lt : ∀ {node d : Nat}, trace.declarations[node]? = some d → d < t.size
  references_lt : ∀ {node d : Nat} {kind : ReferenceKind},
    trace.references[node]? = some (kind, d) → d < t.size
  fieldReferences : ∀ {node d : Nat}, trace.references[node]? = some (.fieldIdentifier, d) →
    t.Has .propertySort d
  expressionTypes : ∀ {node : Nat} {type : Ty}, trace.expressionTypes[node]? = some type →
    type.WellKinded t
  typeReferences : ∀ {node : Nat} {type : Ty}, trace.typeReferences[node]? = some type →
    type.WellKinded t
  backingFields : ∀ {d : Nat}, trace.hasBackingField d = true → t.Has .propertySort d

/-- The property that an observer watches exists. -/
def Observer.WellKinded (t : DescriptorTable) : Observer → Prop
  | tracker property => property < t.size
  | guard _ => True

namespace Trace

variable {trace : Trace}

theorem wellKinded_empty (t : DescriptorTable) : Trace.WellKinded t {} := by
  refine ⟨fun h => ?_, fun h => ?_, fun h => ?_, fun h => ?_, fun h => ?_, fun h => ?_⟩
  all_goals first
    | rw [Std.TreeMap.getElem?_emptyc] at h; cases h
    | simp [hasBackingField] at h

theorem WellKinded.of_matures (h : t.Matures t') (htrace : trace.WellKinded t) :
    trace.WellKinded t' where
  declarations_lt hd := (htrace.declarations_lt hd).trans_le h.size_le
  references_lt hd := (htrace.references_lt hd).trans_le h.size_le
  fieldReferences hd := h.has (htrace.fieldReferences hd)
  expressionTypes htype := (htrace.expressionTypes htype).of_matures h
  typeReferences htype := (htrace.typeReferences htype).of_matures h
  backingFields hd := h.has (htrace.backingFields hd)

theorem WellKinded.recordDeclaration
    (htrace : trace.WellKinded t) (node : Nat) {d : Nat} (hd : d < t.size) :
    (trace.recordDeclaration node d).WellKinded t := by
  refine { htrace with declarations_lt := fun {node' d'} h => ?_ }
  rcases getElem?_insert_cases h with ⟨-, rfl⟩ | hold
  · exact hd
  · exact htrace.declarations_lt hold

theorem WellKinded.recordReference
    (htrace : trace.WellKinded t) (node : Nat) {kind : ReferenceKind} {d : Nat} (hd : d < t.size)
    (hfield : kind = .fieldIdentifier → t.Has .propertySort d) :
    (trace.recordReference node kind d).WellKinded t := by
  refine { htrace with
    references_lt := fun {node' d' kind'} h => ?_, fieldReferences := fun {node' d'} h => ?_ }
  · rcases getElem?_insert_cases h with ⟨-, heq⟩ | hold
    · obtain ⟨-, rfl⟩ := Prod.mk.inj heq
      exact hd
    · exact htrace.references_lt hold
  · rcases getElem?_insert_cases h with ⟨-, heq⟩ | hold
    · obtain ⟨hkind, rfl⟩ := Prod.mk.inj heq
      exact hfield hkind
    · exact htrace.fieldReferences hold

theorem WellKinded.recordExpressionType
    (htrace : trace.WellKinded t) (node : Nat) {type : Ty} (htype : type.WellKinded t) :
    (trace.recordExpressionType node type).WellKinded t := by
  refine { htrace with expressionTypes := fun {node' type'} h => ?_ }
  rcases getElem?_insert_cases h with ⟨-, rfl⟩ | hold
  · exact htype
  · exact htrace.expressionTypes hold

theorem WellKinded.recordTypeReference
    (htrace : trace.WellKinded t) (node : Nat) {type : Ty} (htype : type.WellKinded t) :
    (trace.recordTypeReference node type).WellKinded t := by
  refine { htrace with typeReferences := fun {node' type'} h => ?_ }
  rcases getElem?_insert_cases h with ⟨-, rfl⟩ | hold
  · exact htype
  · exact htrace.typeReferences hold

theorem WellKinded.recordBackingField
    (htrace : trace.WellKinded t) {property : Nat} (hproperty : t.Has .propertySort property) :
    (trace.recordBackingField property).WellKinded t := by
  refine { htrace with backingFields := fun {d} h => ?_ }
  unfold Trace.recordBackingField Trace.hasBackingField at h
  rw [Std.TreeSet.contains_insert] at h
  rcases Bool.or_eq_true_iff.mp h with heq | hold
  · obtain rfl := Std.LawfulEqCmp.eq_of_compare (beq_iff_eq.mp heq)
    exact hproperty
  · exact htrace.backingFields hold

end Trace

theorem Observer.WellKinded.of_matures (h : t.Matures t') {o : Observer} (ho : o.WellKinded t) :
    o.WellKinded t' := by
  cases o with
  | tracker property => exact Nat.lt_of_lt_of_le ho h.size_le
  | guard nodes => trivial

/-- Observers watch the same thing after they have seen a reference, and record no more than the
backing field that is referred to. -/
theorem Observer.wellKinded_seeAll
    {trace : Trace} {observers : List Observer} (htrace : trace.WellKinded t)
    (hobservers : ∀ o ∈ observers, o.WellKinded t) (node : Nat) {kind : ReferenceKind} {d : Nat}
    (hfield : kind = .fieldIdentifier → t.Has .propertySort d) :
    (∀ o ∈ (seeAll node kind d observers trace).1, o.WellKinded t) ∧
      (seeAll node kind d observers trace).1.length = observers.length ∧
      (seeAll node kind d observers trace).2.WellKinded t := by
  induction observers generalizing trace with
  | nil => exact ⟨nofun, rfl, htrace⟩
  | cons o rest ih =>
      have hsee : (o.see trace node kind d).1.WellKinded t ∧
          (o.see trace node kind d).2.WellKinded t := by
        have ho := hobservers o List.mem_cons_self
        cases o with
        | tracker property =>
            simp only [see]
            split
            · rename_i h
              exact ⟨ho, htrace.recordBackingField (hfield h.1)⟩
            · exact ⟨ho, htrace⟩
        | guard violations =>
            simp only [see]
            split
            · exact ⟨trivial, htrace⟩
            · exact ⟨trivial, htrace⟩
      obtain ⟨hrest, hlength, htrace'⟩ :=
        ih hsee.2 fun o' ho' => hobservers o' (List.mem_cons_of_mem o ho')
      refine ⟨fun o' ho' => ?_, congrArg (· + 1) hlength, htrace'⟩
      rcases List.mem_cons.mp ho' with rfl | hmem
      · exact hsee.1
      · exact hrest o' hmem

namespace Session

/-! ## Sessions -/

/-- All numbers that a session stores belong to existing descriptors and scopes of the right
sort. -/
structure WellKinded (s : Session) : Prop where
  descriptors : s.descriptors.WellKinded s.scopes.size
  scopes : s.scopes.WellKinded s.descriptors
  trace : s.trace.WellKinded s.descriptors
  observers : ∀ o ∈ s.recorder.observers, o.WellKinded s.descriptors

/-- The descriptors of a session mature, its scopes stay, and it is watched by as many
observers. -/
structure Matures (s s' : Session) : Prop where
  descriptors : s.descriptors.Matures s'.descriptors
  scopes_le : s.scopes.size ≤ s'.scopes.size
  observers_eq : s'.recorder.observers.length = s.recorder.observers.length

variable {s s' s'' : Session}

theorem Matures.refl (s : Session) : s.Matures s := ⟨.refl _, Nat.le_refl _, rfl⟩

theorem Matures.trans (h : s.Matures s') (h' : s'.Matures s'') : s.Matures s'' :=
  ⟨h.descriptors.trans h'.descriptors, h.scopes_le.trans h'.scopes_le,
    h'.observers_eq.trans h.observers_eq⟩

theorem Matures.has {sort : DescriptorSort} {id : Nat} (h : s.Matures s')
    (hid : s.descriptors.Has sort id) : s'.descriptors.Has sort id :=
  h.descriptors.has hid

theorem Matures.type {type : Ty} (h : s.Matures s') (htype : type.WellKinded s.descriptors) :
    type.WellKinded s'.descriptors :=
  htype.of_matures h.descriptors

theorem Matures.optionalType {type : Option Ty} (h : s.Matures s')
    (htype : WellKindedType s.descriptors type) : WellKindedType s'.descriptors type :=
  htype.of_matures h.descriptors

theorem Matures.scope {scope : Nat} (h : s.Matures s') (hscope : scope < s.scopes.size) :
    scope < s'.scopes.size :=
  hscope.trans_le h.scopes_le

theorem Matures.descriptor {id : Nat} (h : s.Matures s') (hid : id < s.descriptors.size) :
    id < s'.descriptors.size :=
  hid.trans_le h.descriptors.size_le

theorem WellKinded.of_recorder
    (hs : s.WellKinded) {r : Recorder} (htrace : r.trace.WellKinded s.descriptors)
    (hobservers : ∀ o ∈ r.observers, o.WellKinded s.descriptors) :
    WellKinded { s with recorder := r } :=
  ⟨hs.descriptors, hs.scopes, htrace, hobservers⟩

theorem WellKinded.of_descriptors
    (hs : s.WellKinded) {t : DescriptorTable}
    (ht : s.descriptors.Matures t ∧ t.WellKinded s.scopes.size) :
    WellKinded { s with model.descriptors := t } :=
  ⟨ht.2, hs.scopes.of_matures ht.1, hs.trace.of_matures ht.1,
    fun o ho => (hs.observers o ho).of_matures ht.1⟩

theorem WellKinded.of_scopes
    (hs : s.WellKinded) {tree : ScopeTree} (htree : tree.WellKinded s.descriptors)
    (hsize : s.scopes.size ≤ tree.size) : WellKinded { s with model.scopes := tree } :=
  ⟨fun id hid => (hs.descriptors id hid).of_matures (.refl _) hsize hid, htree, hs.trace,
    hs.observers⟩

end Session

/-! ## Computations -/

namespace Analysis

variable {α β : Type} {s : Session} {q : α → Session → Prop} {r : β → Session → Prop}

/-- The computation leads from the session to a well-kinded one into which it has matured. -/
def AfterMaturing (x : Analysis α) (s : Session) (q : α → Session → Prop) : Prop :=
  After x s fun a s' => s'.WellKinded ∧ s.Matures s' ∧ q a s'

/-- The computation does so whether it stops with a fault or not. -/
def AfterMaturingOr (x : FaultyAnalysis α) (s : Session) (q : α → Session → Prop) : Prop :=
  AfterOr x s (fun a s' => s'.WellKinded ∧ s.Matures s' ∧ q a s') fun _ s' =>
    s'.WellKinded ∧ s.Matures s'

theorem AfterMaturing.pure {a : α} (hs : s.WellKinded) (h : q a s) :
    AfterMaturing (Pure.pure a) s q :=
  ⟨hs, .refl s, h⟩

theorem AfterMaturing.bind
    {x : Analysis α} {f : α → Analysis β} (hx : AfterMaturing x s q)
    (hf : ∀ a s₁, s₁.WellKinded → s.Matures s₁ → q a s₁ → AfterMaturing (f a) s₁ r) :
    AfterMaturing (x >>= f) s r := by
  refine After.bind hx ?_
  rintro a s₁ ⟨hs₁, h₁, ha⟩
  refine After.mono (hf a s₁ hs₁ h₁ ha) ?_
  exact fun b s₂ ⟨hs₂, h₂, hb⟩ => ⟨hs₂, h₁.trans h₂, hb⟩

theorem AfterMaturing.get_bind {f : Session → Analysis β} (hf : AfterMaturing (f s) s r) :
    AfterMaturing (get >>= f) s r := hf

theorem AfterMaturing.mono
    {x : Analysis α} {q' : α → Session → Prop} (hx : AfterMaturing x s q)
    (himp : ∀ a s', s'.WellKinded → s.Matures s' → q a s' → q' a s') : AfterMaturing x s q' :=
  After.mono hx fun a s' h => ⟨h.1, h.2.1, himp a s' h.1 h.2.1 h.2.2⟩

theorem AfterMaturing.map
    {x : Analysis α} {f : α → β} (hx : AfterMaturing x s fun a => r (f a)) :
    AfterMaturing (f <$> x) s r :=
  after_map.mpr hx

/-- Computations one after the other. What holds of a result must go on holding. -/
theorem AfterMaturing.mapM
    {ι : Type} {f : ι → Analysis α} (xs : List ι) (hs : s.WellKinded)
    (hf : ∀ i ∈ xs, ∀ s₁ : Session, s₁.WellKinded → s.Matures s₁ → AfterMaturing (f i) s₁ q)
    (hq : ∀ a (s₁ s₂ : Session), s₁.Matures s₂ → q a s₁ → q a s₂) :
    AfterMaturing (xs.mapM f) s fun as s' => ∀ a ∈ as, q a s' := by
  induction xs generalizing s with
  | nil => exact .pure hs nofun
  | cons i xs ih =>
      rw [List.mapM_cons]
      refine (hf i List.mem_cons_self s hs (.refl s)).bind fun a s₁ hs₁ h₁ ha => ?_
      refine (ih hs₁ fun j hj s₂ hs₂ h₂ =>
        hf j (List.mem_cons_of_mem i hj) s₂ hs₂ (h₁.trans h₂)).bind fun as s₂ hs₂ h₂ has => ?_
      refine .pure hs₂ fun b hb => ?_
      rcases List.mem_cons.mp hb with rfl | hmem
      · exact hq b s₁ s₂ h₂ ha
      · exact has b hmem

theorem AfterMaturingOr.pure {a : α} (hs : s.WellKinded) (h : q a s) :
    AfterMaturingOr (Pure.pure a) s q :=
  afterOr_pure.mpr ⟨hs, .refl s, h⟩

theorem AfterMaturingOr.throw (hs : s.WellKinded) (fault : Fault) :
    AfterMaturingOr (throw fault) s q :=
  afterOr_throw.mpr ⟨hs, .refl s⟩

theorem AfterMaturingOr.bind
    {x : FaultyAnalysis α} {f : α → FaultyAnalysis β} (hx : AfterMaturingOr x s q)
    (hf : ∀ a s₁, s₁.WellKinded → s.Matures s₁ → q a s₁ → AfterMaturingOr (f a) s₁ r) :
    AfterMaturingOr (x >>= f) s r := by
  refine afterOr_bind.mpr (AfterOr.imp hx ?_)
  rintro a s₁ ⟨hs₁, h₁, ha⟩
  refine AfterOr.mono (hf a s₁ hs₁ h₁ ha) ?_ ?_
  · exact fun b s₂ ⟨hs₂, h₂, hb⟩ => ⟨hs₂, h₁.trans h₂, hb⟩
  · exact fun _ s₂ ⟨hs₂, h₂⟩ => ⟨hs₂, h₁.trans h₂⟩

theorem AfterMaturingOr.get_bind {f : Session → FaultyAnalysis β}
    (hf : AfterMaturingOr (f s) s r) : AfterMaturingOr (get >>= f) s r := hf

theorem AfterMaturingOr.mono
    {x : FaultyAnalysis α} {q' : α → Session → Prop} (hx : AfterMaturingOr x s q)
    (himp : ∀ a s', s'.WellKinded → s.Matures s' → q a s' → q' a s') : AfterMaturingOr x s q' :=
  AfterOr.imp hx fun a s' h => ⟨h.1, h.2.1, himp a s' h.1 h.2.1 h.2.2⟩

theorem AfterMaturing.lift {x : Analysis α} (hx : AfterMaturing x s q) :
    AfterMaturingOr (liftM x : FaultyAnalysis α) s q :=
  afterOr_lift.mpr hx

theorem AfterMaturingOr.forM
    {ι : Type} {f : ι → FaultyAnalysis PUnit} (xs : List ι) (hs : s.WellKinded)
    (hf : ∀ i ∈ xs, ∀ s₁ : Session, s₁.WellKinded → s.Matures s₁ →
      AfterMaturingOr (f i) s₁ fun _ _ => True) :
    AfterMaturingOr (xs.forM f) s fun _ _ => True := by
  induction xs generalizing s with
  | nil => exact .pure hs trivial
  | cons i xs ih =>
      refine (hf i List.mem_cons_self s hs (.refl s)).bind fun _ s₁ hs₁ h₁ _ => ?_
      exact ih hs₁ fun j hj s₂ hs₂ h₂ => hf j (List.mem_cons_of_mem i hj) s₂ hs₂ (h₁.trans h₂)

theorem AfterMaturingOr.mapM_lift
    {ι : Type} {f : ι → Analysis α} (xs : List ι) (hs : s.WellKinded)
    (hf : ∀ i ∈ xs, ∀ s₁ : Session, s₁.WellKinded → s.Matures s₁ → AfterMaturing (f i) s₁ q)
    (hq : ∀ a (s₁ s₂ : Session), s₁.Matures s₂ → q a s₁ → q a s₂) :
    AfterMaturingOr (xs.mapM fun i => (f i : FaultyAnalysis α)) s fun as s' =>
      ∀ a ∈ as, q a s' := by
  rw [mapM_liftM]
  exact (AfterMaturing.mapM xs hs hf hq).lift

/-! ### Elementary operations -/

section

variable (hs : s.WellKinded)

include hs

theorem afterMaturing_report (d : Diagnostic) :
    AfterMaturing (report d) s fun _ s' => s'.model = s.model :=
  ⟨⟨hs.descriptors, hs.scopes, hs.trace, hs.observers⟩, ⟨.refl _, Nat.le_refl _, rfl⟩, rfl⟩

theorem afterMaturing_reportCode (code : DiagnosticCode) (node : Nat) (message : String) :
    AfterMaturing (reportCode code node message) s fun _ s' => s'.model = s.model :=
  afterMaturing_report hs _

theorem afterMaturing_reportMismatch (node : Nat) (expected actual : Ty) :
    AfterMaturing (reportMismatch node expected actual) s fun _ s' => s'.model = s.model :=
  afterMaturing_report hs _

theorem afterMaturing_recordDeclaration (node : Nat) {d : Nat} (hd : d < s.descriptors.size) :
    AfterMaturing (recordDeclaration node d) s fun _ s' => s'.model = s.model :=
  ⟨hs.of_recorder (hs.trace.recordDeclaration node hd) hs.observers,
    ⟨.refl _, Nat.le_refl _, rfl⟩, rfl⟩

theorem afterMaturing_recordReference
    (node : Nat) (kind : ReferenceKind) {d : Nat} (hd : d < s.descriptors.size)
    (hfield : kind = .fieldIdentifier → s.descriptors.Has .propertySort d) :
    AfterMaturing (recordReference node kind d) s fun _ s' => s'.model = s.model := by
  obtain ⟨hobservers, hlength, htrace⟩ :=
    Observer.wellKinded_seeAll hs.trace hs.observers node hfield
  exact ⟨hs.of_recorder (htrace.recordReference node hd hfield) hobservers,
    ⟨.refl _, Nat.le_refl _, hlength⟩, rfl⟩

theorem afterMaturing_recordExpressionType
    (node : Nat) {type : Ty} (htype : type.WellKinded s.descriptors) :
    AfterMaturing (recordExpressionType node type) s fun _ s' => s'.model = s.model :=
  ⟨hs.of_recorder (hs.trace.recordExpressionType node htype) hs.observers,
    ⟨.refl _, Nat.le_refl _, rfl⟩, rfl⟩

theorem afterMaturing_recordTypeReference
    (node : Nat) {type : Ty} (htype : type.WellKinded s.descriptors) :
    AfterMaturing (recordTypeReference node type) s fun _ s' => s'.model = s.model :=
  ⟨hs.of_recorder (hs.trace.recordTypeReference node htype) hs.observers,
    ⟨.refl _, Nat.le_refl _, rfl⟩, rfl⟩

theorem afterMaturing_recordBackingField
    {property : Nat} (hproperty : s.descriptors.Has .propertySort property) :
    AfterMaturing (recordBackingField property) s fun _ s' => s'.model = s.model :=
  ⟨hs.of_recorder (hs.trace.recordBackingField hproperty) hs.observers,
    ⟨.refl _, Nat.le_refl _, rfl⟩, rfl⟩

theorem afterMaturing_onScopes
    {f : ScopeTree → ScopeTree} (hf : (f s.scopes).WellKinded s.descriptors)
    (hsize : s.scopes.size ≤ (f s.scopes).size) :
    AfterMaturing (onScopes f) s fun _ s' => s'.descriptors = s.descriptors :=
  ⟨hs.of_scopes hf hsize, ⟨.refl _, hsize, rfl⟩, rfl⟩

theorem afterMaturing_onDescriptors
    {f : DescriptorTable → DescriptorTable}
    (hf : s.descriptors.Matures (f s.descriptors) ∧
      (f s.descriptors).WellKinded s.scopes.size) :
    AfterMaturing (onDescriptors f) s fun _ s' => s'.descriptors = f s.descriptors :=
  ⟨hs.of_descriptors hf, ⟨hf.1, Nat.le_refl _, rfl⟩, rfl⟩

theorem afterMaturing_createScope
    (kind : ScopeKind) (parent owner : Option Nat) (hparent : ∀ p ∈ parent, p < s.scopes.size)
    (howner : ∀ o ∈ owner, o < s.descriptors.size) :
    AfterMaturing (createScope kind parent owner) s fun id s' =>
      id < s'.scopes.size ∧ s'.descriptors = s.descriptors := by
  have hsize := s.scopes.size_create kind parent owner
  have hle : s.scopes.size ≤ (s.scopes.create kind parent owner).2.size := by omega
  refine ⟨hs.of_scopes (hs.scopes.create kind hparent howner) hle, ⟨.refl _, hle, rfl⟩, ?_, rfl⟩
  · exact (s.scopes.fst_create kind parent owner).trans_lt ((Nat.lt_succ_self _).trans_le hsize.ge)

theorem afterMaturing_createWriteThrough
    {outer target : Nat} (houter : outer < s.scopes.size) (htarget : target < s.scopes.size) :
    AfterMaturing (createWriteThrough outer target) s fun id s' =>
      id < s'.scopes.size ∧ s'.descriptors = s.descriptors := by
  have hsize := s.scopes.size_createWriteThrough outer target
  have hle : s.scopes.size ≤ (s.scopes.createWriteThrough outer target).2.size := by omega
  refine ⟨hs.of_scopes (hs.scopes.createWriteThrough houter htarget) hle, ⟨.refl _, hle, rfl⟩, ?_,
    rfl⟩
  have hfst : (s.scopes.createWriteThrough outer target).1 = s.scopes.size :=
    s.scopes.fst_create .writeThrough (some outer) (s.scopes.get target).owner
  exact hfst.trans_lt ((Nat.lt_succ_self _).trans_le hsize.ge)

/-- The new descriptor is the next one, and it is what it is created to be. -/
theorem afterMaturing_createDescriptor
    {name : String} {container : Option Nat} {kind : DescriptorKind}
    (hnew : Descriptor.WellKinded (s.descriptors.create name container kind).2 s.scopes.size
      s.descriptors.size { name, container, kind }) :
    AfterMaturing (createDescriptor name container kind) s fun id s' =>
      id = s.descriptors.size ∧
        s'.descriptors = (s.descriptors.create name container kind).2 :=
  ⟨hs.of_descriptors ⟨.create _ name container kind, hs.descriptors.create hnew⟩,
    ⟨.create _ name container kind, Nat.le_refl _, rfl⟩, rfl, rfl⟩

theorem afterMaturingOr_tryDescriptors
    {f : DescriptorTable → Except Fault DescriptorTable}
    (hf : ∀ t, f s.descriptors = .ok t → s.descriptors.Matures t ∧ t.WellKinded s.scopes.size) :
    AfterMaturingOr (tryDescriptors f) s fun _ s' => f s.descriptors = .ok s'.descriptors := by
  refine .get_bind ?_
  cases h : f s.model.descriptors with
  | error fault => exact .throw hs fault
  | ok t =>
      refine AfterMaturing.lift ((afterMaturing_onDescriptors hs (hf t h)).mono ?_)
      rintro _ s' - - rfl
      exact h

theorem afterMaturingOr_functionInnerScope
    {outer : Nat} (houter : outer < s.scopes.size) (function : Nat) :
    AfterMaturingOr (functionInnerScope outer function) s fun scope s' =>
      scope < s'.scopes.size ∧ s'.descriptors = s.descriptors := by
  unfold functionInnerScope Model.functionInnerScope
  refine .get_bind ?_
  cases hsignature : s.model.descriptors.signature? function with
  | none => exact .throw hs _
  | some signature =>
      have hsize := s.scopes.size_create .function (some outer) (some function)
      have hcreate : (s.scopes.create .function (some outer) (some function)).2.WellKinded
          s.descriptors := by
        refine hs.scopes.create .function (fun p hp => ?_) fun o ho => ?_
        · obtain rfl := Option.mem_some.mp hp
          exact houter
        · obtain rfl := Option.mem_some.mp ho
          exact DescriptorTable.lt_size_of_signature? (t := s.descriptors)
            (Option.isSome_of_eq_some hsignature)
      have hparameters := (hs.descriptors.signature hsignature).parameters
      -- Binding the parameters one by one adds no scopes.
      have hbind : ∀ (ps : List Nat) (tree : ScopeTree), tree.WellKinded s.descriptors →
          (∀ p ∈ ps, s.descriptors.Has .variableSort p) →
          (ps.foldl (fun t p => t.addVariable (s.scopes.create .function (some outer)
              (some function)).1 (s.descriptors.name p) p) tree).WellKinded s.descriptors ∧
            (ps.foldl (fun t p => t.addVariable (s.scopes.create .function (some outer)
              (some function)).1 (s.descriptors.name p) p) tree).size = tree.size := by
        intro ps
        induction ps with
        | nil => exact fun tree htree _ => ⟨htree, rfl⟩
        | cons p ps ih =>
            intro tree htree hps
            have hp := hps p List.mem_cons_self
            obtain ⟨hwell, heq⟩ := ih _
              (htree.addVariable _ (.inl ⟨hp, rfl⟩)) fun p' hp' =>
                hps p' (List.mem_cons_of_mem p hp')
            exact ⟨hwell, heq.trans (ScopeTree.size_bind ..)⟩
      obtain ⟨hwell, heq⟩ := hbind signature.parameters _ hcreate hparameters
      have hgrown := heq.trans hsize
      refine ⟨hs.of_scopes hwell ((Nat.le_succ _).trans hgrown.ge), ⟨.refl _, ?_, rfl⟩, ?_, rfl⟩
      · exact (Nat.le_succ _).trans hgrown.ge
      · exact (Nat.lt_succ_self _).trans_le hgrown.ge

/-- Watching a computation changes only who watches. -/
theorem afterMaturingOr_observed
    {o : Observer} (ho : o.WellKinded s.descriptors) {run : FaultyAnalysis Unit}
    (hrun : ∀ s₁ : Session, s₁.WellKinded → s₁.model = s.model →
      AfterMaturingOr run s₁ fun _ _ => True) :
    AfterMaturingOr (observed o run) s fun _ _ => True := by
  have hwatched : Session.WellKinded { s with recorder := s.recorder.watch o } := by
    refine hs.of_recorder hs.trace fun o' ho' => ?_
    rcases List.mem_cons.mp ho' with rfl | hmem
    · exact ho
    · exact hs.observers o' hmem
  have hunwatch : ∀ s' : Session, s'.WellKinded →
      Session.Matures { s with recorder := s.recorder.watch o } s' →
        Session.WellKinded { s' with recorder := s'.recorder.unwatch.2 } ∧
          s.Matures { s' with recorder := s'.recorder.unwatch.2 } := by
    intro s' hs' h
    have hlength : s'.recorder.observers.length = s.recorder.observers.length + 1 :=
      h.observers_eq
    cases hobservers : s'.recorder.observers with
    | nil => simp [hobservers] at hlength
    | cons o' rest =>
        have hunwatched : s'.recorder.unwatch.2 = { s'.recorder with observers := rest } := by
          unfold Recorder.unwatch
          rw [hobservers]
        rw [hunwatched]
        refine ⟨hs'.of_recorder hs'.trace fun o'' ho'' => ?_, h.descriptors, h.scopes_le, ?_⟩
        · exact hs'.observers o'' (by rw [hobservers]; exact List.mem_cons_of_mem o' ho'')
        · simpa [hobservers] using hlength
  have hafter := hrun { s with recorder := s.recorder.watch o } hwatched rfl
  refine AfterOr.observed (AfterOr.mono hafter (fun _ s' hs' => ?_) fun _ s' hs' => ?_)
  · obtain ⟨hwell, hmatures⟩ := hunwatch s' hs'.1 hs'.2.1
    exact ⟨hwell, hmatures, trivial⟩
  · exact hunwatch s' hs'.1 hs'.2

end

end Analysis

end DeclAnalysis
