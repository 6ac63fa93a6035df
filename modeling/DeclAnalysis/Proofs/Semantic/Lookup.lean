import DeclAnalysis.Typing.TypeName
import DeclAnalysis.Proofs.Semantic.Growth
import DeclAnalysis.Proofs.Semantic.Surroundings

/-!
# Looking up types

What the name of a type denotes in a scope depends on the surroundings of the scope and on the
members of namespaces alone. It stays the same as long as scopes and descriptors are only added
that declare no types, and inside a new scope it is what it is around it.
-/

namespace DeclAnalysis

/-! ## Types that are found -/

theorem Ty.isError_of_builtin? {name : String} {type : Ty} (h : builtin? name = some type) :
    type.isError = false := by
  unfold builtin? at h
  split at h
  all_goals first
    | obtain rfl := Option.some.inj h
      rfl
    | cases h

theorem Model.isError_of_lookupType?
    {m : Model} {scope : Nat} {name : String} {type : Ty}
    (h : m.lookupType? scope name = some type) :
    type.isError = false := by
  unfold lookupType? at h
  split at h
  · simp only [bind, Option.bind_eq_some_iff, pure, Option.some.injEq] at h
    obtain ⟨ns, -, c, -, rfl⟩ := h
    rfl
  · cases hclassifier : m.scopes.classifier? scope name with
    | some c =>
        rw [hclassifier] at h
        obtain rfl := Option.some.inj h
        rfl
    | none =>
        rw [hclassifier] at h
        exact Ty.isError_of_builtin? h

/-! ## Descriptors that are not types -/

/-- The scope of the members of a namespace or of a class. -/
def DescriptorKind.memberScope? : DescriptorKind → Option (Nat ⊕ Nat)
  | namespaceKind memberScope => some (.inl memberScope)
  | classKind _ data => some (.inr data.memberScope)
  | _ => none

namespace DescriptorTable

theorem memberScope?_of_namespaceMembers?
    {t : DescriptorTable} {id members : Nat} (h : t.namespaceMembers? id = some members) :
    (t.get id).kind.memberScope? = some (.inl members) := by
  unfold namespaceMembers? at h
  generalize (t.get id).kind = kind at h ⊢
  cases kind with
  | namespaceKind memberScope =>
      obtain rfl := Option.some.inj h
      rfl
  | _ => cases h

theorem memberScope?_of_classData?
    {t : DescriptorTable} {id : Nat} {data : ClassData} (h : t.classData? id = some data) :
    (t.get id).kind.memberScope? = some (.inr data.memberScope) := by
  obtain ⟨finalized, hkind⟩ := kind_of_classData? h
  rw [hkind]
  rfl

theorem namespaceMembers?_of_memberScope?
    {t : DescriptorTable} {id members : Nat}
    (h : (t.get id).kind.memberScope? = some (.inl members)) :
    t.namespaceMembers? id = some members := by
  unfold namespaceMembers?
  cases hkind : (t.get id).kind with
  | namespaceKind memberScope =>
      rw [hkind] at h
      exact congrArg some (Sum.inl.inj (Option.some.inj h))
  | _ => simp [hkind, DescriptorKind.memberScope?] at h

theorem exists_classData?_of_memberScope?
    {t : DescriptorTable} {id members : Nat}
    (h : (t.get id).kind.memberScope? = some (.inr members)) :
    ∃ data, t.classData? id = some data ∧ data.memberScope = members := by
  cases hkind : (t.get id).kind with
  | classKind finalized data =>
      rw [hkind] at h
      exact ⟨data, classData?_of_kind hkind, Sum.inr.inj (Option.some.inj h)⟩
  | _ => simp [hkind, DescriptorKind.memberScope?] at h

/-- The members of a type are those of a descriptor. -/
theorem exists_kind_of_memberScope?
    {t : DescriptorTable} {type : Ty} {scope : Nat} (h : t.memberScope? type = some scope) :
    ∃ d members, (t.get d).kind.memberScope? = some members ∧ members.elim id id = scope := by
  obtain ⟨d, -, h⟩ := Option.bind_eq_some_iff.mp h
  rw [Option.orElse_eq_orElse, Option.orElse_eq_or, Option.or_eq_some_iff] at h
  rcases h with h | ⟨-, h⟩
  · exact ⟨d, .inl scope, memberScope?_of_namespaceMembers? h, rfl⟩
  · obtain ⟨data, hdata, rfl⟩ := Option.map_eq_some_iff.mp h
    exact ⟨d, .inr data.memberScope, memberScope?_of_classData? hdata, rfl⟩

/-- A new descriptor may have members, and the others have the members that they had. -/
theorem memberScope?_create
    (t : DescriptorTable) (name : String) (container : Option Nat) (kind : DescriptorKind)
    {id : Nat} {members : Nat ⊕ Nat}
    (h : ((t.create name container kind).2.get id).kind.memberScope? = some members) :
    (t.get id).kind.memberScope? = some members ∨
      id = t.size ∧ kind.memberScope? = some members := by
  by_cases hid : id = t.size
  · rw [hid, get_create_size] at h
    exact .inr ⟨hid, h⟩
  · rw [t.get_create_of_ne name container kind hid] at h
    exact .inl h

/-- Descriptors have been added that are neither classes nor namespaces, and the others have
kept their names, their containers and the scopes of their members. -/
structure SameTypes (t t' : DescriptorTable) : Prop where
  size_le : t.size ≤ t'.size
  name_eq : ∀ id, id < t.size → t'.name id = t.name id
  container_eq : ∀ id, id < t.size → (t'.get id).container = (t.get id).container
  memberScope?_eq : ∀ id, (t'.get id).kind.memberScope? = (t.get id).kind.memberScope?

namespace SameTypes

variable {t t' t'' : DescriptorTable}

theorem refl (t : DescriptorTable) : t.SameTypes t :=
  ⟨Nat.le_refl _, fun _ _ => rfl, fun _ _ => rfl, fun _ => rfl⟩

theorem trans (h : t.SameTypes t') (h' : t'.SameTypes t'') : t.SameTypes t'' where
  size_le := h.size_le.trans h'.size_le
  name_eq id hid := (h'.name_eq id (hid.trans_le h.size_le)).trans (h.name_eq id hid)
  container_eq id hid :=
    (h'.container_eq id (hid.trans_le h.size_le)).trans (h.container_eq id hid)
  memberScope?_eq id := (h'.memberScope?_eq id).trans (h.memberScope?_eq id)

theorem create
    (t : DescriptorTable) (name : String) (container : Option Nat) {kind : DescriptorKind}
    (hkind : kind.memberScope? = none) : t.SameTypes (t.create name container kind).2 := by
  refine ⟨?_, fun id hid => ?_, fun id hid => ?_, fun id => ?_⟩
  · rw [size_create]
    exact Nat.le_succ _
  · unfold DescriptorTable.name
    rw [t.get_create_of_ne name container kind hid.ne]
  · rw [t.get_create_of_ne name container kind hid.ne]
  · by_cases hid : id = t.size
    · rw [hid, get_create_size, hkind]
      simp [get, size, DescriptorKind.memberScope?]
    · rw [t.get_create_of_ne name container kind hid]

theorem modifyKind
    (t : DescriptorTable) (id : Nat) {f : DescriptorKind → DescriptorKind}
    (hf : (f (t.get id).kind).memberScope? = (t.get id).kind.memberScope?) :
    t.SameTypes (t.modifyKind id f) := by
  refine ⟨(t.size_modifyKind ..).ge, fun d _ => t.name_get_modifyKind ..,
    fun d _ => t.container_get_modifyKind .., fun d => ?_⟩
  rcases t.kind_modifyKind_cases id d f with heq | ⟨rfl, heq⟩
  · rw [heq]
  · rw [heq, hf]

theorem editClass
    {id : Nat} {f : ClassData → ClassData} (hf : ∀ data, (f data).memberScope = data.memberScope)
    (ht' : t.editClass id f = .ok t') : t.SameTypes t' := by
  unfold DescriptorTable.editClass at ht'
  split at ht'
  · rename_i data hkind
    obtain rfl := Except.ok.inj ht'
    refine .modifyKind t id ?_
    rw [hkind]
    change some (Sum.inr (f data).memberScope) = some (Sum.inr data.memberScope)
    rw [hf]
  · cases ht'
  · cases ht'

theorem finalizeClasses (t : DescriptorTable) : t.SameTypes t.finalizeClasses.2 := by
  refine ⟨?_, fun id _ => ?_, fun id _ => ?_, fun id => ?_⟩
  · rw [size_finalizeClasses]
  · unfold DescriptorTable.name
    rw [t.get_finalizeClasses]
    unfold finalized
    split <;> rfl
  · rw [t.get_finalizeClasses]
    unfold finalized
    split <;> rfl
  · rw [t.get_finalizeClasses]
    unfold finalized
    split
    · rename_i hkind
      rw [hkind]
      rfl
    · rfl

variable (h : t.SameTypes t')

include h

theorem namespaceMembers?_eq (id : Nat) : t'.namespaceMembers? id = t.namespaceMembers? id := by
  refine Option.ext fun members => ⟨fun hns => ?_, fun hns => ?_⟩
  · exact namespaceMembers?_of_memberScope?
      ((h.memberScope?_eq id).symm.trans (memberScope?_of_namespaceMembers? hns))
  · exact namespaceMembers?_of_memberScope?
      ((h.memberScope?_eq id).trans (memberScope?_of_namespaceMembers? hns))

/-- A class is still a class, with members in the same scope. -/
theorem classData? {id : Nat} {data : ClassData} (hdata : t.classData? id = some data) :
    ∃ data', t'.classData? id = some data' ∧ data'.memberScope = data.memberScope :=
  exists_classData?_of_memberScope?
    ((h.memberScope?_eq id).trans (memberScope?_of_classData? hdata))

theorem exists_classData? {id : Nat} {data' : ClassData} (hdata : t'.classData? id = some data') :
    ∃ data, t.classData? id = some data ∧ data'.memberScope = data.memberScope := by
  obtain ⟨data, hold, hmembers⟩ := exists_classData?_of_memberScope?
    ((h.memberScope?_eq id).symm.trans (memberScope?_of_classData? hdata))
  exact ⟨data, hold, hmembers.symm⟩

end SameTypes

/-! ### Classes that stay as they are -/

end DescriptorTable

/-- What is known about a class apart from its supertypes. -/
def DescriptorKind.outline? : DescriptorKind → Option ClassData
  | classKind _ data => some { data with supertypes := [] }
  | _ => none

namespace DescriptorTable

/-- Descriptors have been added and changed, but no classes or namespaces have been added, and
classes have changed at most in their supertypes. -/
structure SameClasses (t t' : DescriptorTable) : Prop extends SameTypes t t' where
  outline?_eq : ∀ id, (t'.get id).kind.outline? = (t.get id).kind.outline?

namespace SameClasses

theorem refl (t : DescriptorTable) : t.SameClasses t := ⟨.refl t, fun _ => rfl⟩

theorem trans {t t' t'' : DescriptorTable} (h : t.SameClasses t') (h' : t'.SameClasses t'') :
    t.SameClasses t'' :=
  ⟨h.toSameTypes.trans h'.toSameTypes, fun id => (h'.outline?_eq id).trans (h.outline?_eq id)⟩

theorem create
    (t : DescriptorTable) (name : String) (container : Option Nat) {kind : DescriptorKind}
    (hkind : kind.memberScope? = none) : t.SameClasses (t.create name container kind).2 := by
  refine ⟨.create t name container hkind, fun id => ?_⟩
  by_cases hid : id = t.size
  · rw [hid, get_create_size]
    have hold : (t.get t.size).kind.outline? = none := by simp [get, size, DescriptorKind.outline?]
    rw [hold]
    cases kind with
    | classKind finalized data => cases hkind
    | _ => rfl
  · rw [t.get_create_of_ne name container kind hid]

theorem modifyKind
    (t : DescriptorTable) (id : Nat) {f : DescriptorKind → DescriptorKind}
    (hf : (f (t.get id).kind).memberScope? = (t.get id).kind.memberScope?)
    (hf' : (f (t.get id).kind).outline? = (t.get id).kind.outline?) :
    t.SameClasses (t.modifyKind id f) := by
  refine ⟨.modifyKind t id hf, fun id' => ?_⟩
  rcases t.kind_modifyKind_cases id id' f with heq | ⟨rfl, heq⟩
  · rw [heq]
  · rw [heq, hf']

theorem editSignature (t : DescriptorTable) (id : Nat) (f : Signature → Signature) :
    t.SameClasses (t.editSignature id f) := by
  refine .modifyKind t id ?_ ?_
  · cases (t.get id).kind <;> rfl
  · cases (t.get id).kind <;> rfl

theorem editProperty (t : DescriptorTable) (id : Nat) (f : PropertyData → PropertyData) :
    t.SameClasses (t.editProperty id f) := by
  refine .modifyKind t id ?_ ?_
  · cases (t.get id).kind <;> rfl
  · cases (t.get id).kind <;> rfl

theorem setSupertypes
    {t t' : DescriptorTable} {id : Nat} {supertypes : List Ty}
    (ht' : t.setSupertypes id supertypes = .ok t') : t.SameClasses t' := by
  unfold DescriptorTable.setSupertypes DescriptorTable.editClass at ht'
  split at ht'
  · rename_i data hkind
    obtain rfl := Except.ok.inj ht'
    refine .modifyKind t id ?_ ?_
    · rw [hkind]
      rfl
    · rw [hkind]
      rfl
  · cases ht'
  · cases ht'

end SameClasses

theorem outline?_of_classData?
    {t : DescriptorTable} {id : Nat} {data : ClassData} (h : t.classData? id = some data) :
    (t.get id).kind.outline? = some { data with supertypes := [] } := by
  obtain ⟨finalized, hkind⟩ := kind_of_classData? h
  rw [hkind]
  rfl

theorem exists_classData?_of_outline?
    {t : DescriptorTable} {id : Nat} {data : ClassData}
    (h : (t.get id).kind.outline? = some data) :
    ∃ supertypes, t.classData? id = some { data with supertypes } := by
  unfold classData?
  generalize (t.get id).kind = kind at h ⊢
  cases kind with
  | classKind finalized data' =>
      obtain rfl := Option.some.inj h
      exact ⟨data'.supertypes, rfl⟩
  | _ => cases h

/-- What is known about a class changes when it is edited, and nothing else does. -/
theorem outline?_editClass
    {t t' : DescriptorTable} {id : Nat} {f : ClassData → ClassData}
    (hf : ∀ data, { f data with supertypes := [] } = f { data with supertypes := [] })
    (ht' : t.editClass id f = .ok t') (id' : Nat) :
    (t'.get id').kind.outline? =
      if id' = id then (t.get id).kind.outline?.map f else (t.get id').kind.outline? := by
  unfold DescriptorTable.editClass at ht'
  split at ht'
  · rename_i data hkind
    obtain rfl := Except.ok.inj ht'
    by_cases hid : id' = id
    · subst hid
      have hdata : t.classData? id' = some data := classData?_of_kind hkind
      have hlt : id' < t.size := lt_size_of_classData? (Option.isSome_of_eq_some hdata)
      rw [if_pos rfl, t.get_modifyKind_self hlt, hkind]
      exact congrArg some (hf data)
    · rw [if_neg hid, t.get_modifyKind_of_ne hid]
  · cases ht'
  · cases ht'

/-- The descriptors that were there have kept their names, their containers and the scopes of
their members; any others may have been added. -/
structure KeepsTypes (t t' : DescriptorTable) : Prop where
  size_le : t.size ≤ t'.size
  name_eq : ∀ id, id < t.size → t'.name id = t.name id
  container_eq : ∀ id, id < t.size → (t'.get id).container = (t.get id).container
  memberScope?_eq : ∀ id, id < t.size →
    (t'.get id).kind.memberScope? = (t.get id).kind.memberScope?

theorem SameTypes.keepsTypes {t t' : DescriptorTable} (h : t.SameTypes t') : t.KeepsTypes t' :=
  ⟨h.size_le, h.name_eq, h.container_eq, fun id _ => h.memberScope?_eq id⟩

namespace KeepsTypes

variable {t t' t'' : DescriptorTable}

theorem refl (t : DescriptorTable) : t.KeepsTypes t := (SameTypes.refl t).keepsTypes

theorem trans (h : t.KeepsTypes t') (h' : t'.KeepsTypes t'') : t.KeepsTypes t'' where
  size_le := h.size_le.trans h'.size_le
  name_eq id hid := (h'.name_eq id (hid.trans_le h.size_le)).trans (h.name_eq id hid)
  container_eq id hid :=
    (h'.container_eq id (hid.trans_le h.size_le)).trans (h.container_eq id hid)
  memberScope?_eq id hid :=
    (h'.memberScope?_eq id (hid.trans_le h.size_le)).trans (h.memberScope?_eq id hid)

theorem create (t : DescriptorTable) (name : String) (container : Option Nat)
    (kind : DescriptorKind) : t.KeepsTypes (t.create name container kind).2 := by
  have hget : ∀ id, id < t.size → (t.create name container kind).2.get id = t.get id :=
    fun id hid => t.get_create_of_ne name container kind hid.ne
  refine ⟨?_, fun id hid => ?_, fun id hid => ?_, fun id hid => ?_⟩
  · rw [size_create]
    exact Nat.le_succ _
  · unfold DescriptorTable.name
    rw [hget id hid]
  · rw [hget id hid]
  · rw [hget id hid]

variable (h : t.KeepsTypes t')

include h

theorem namespaceMembers? {id members : Nat} (hid : t.namespaceMembers? id = some members) :
    t'.namespaceMembers? id = some members := by
  have hlt : id < t.size := lt_size_of_namespaceMembers? (Option.isSome_of_eq_some hid)
  exact namespaceMembers?_of_memberScope?
    ((h.memberScope?_eq id hlt).trans (memberScope?_of_namespaceMembers? hid))

theorem classData? {id : Nat} {data : ClassData} (hdata : t.classData? id = some data) :
    ∃ data', t'.classData? id = some data' ∧ data'.memberScope = data.memberScope := by
  have hlt : id < t.size := lt_size_of_classData? (Option.isSome_of_eq_some hdata)
  exact exists_classData?_of_memberScope?
    ((h.memberScope?_eq id hlt).trans (memberScope?_of_classData? hdata))

theorem isSome_classData? {id : Nat} (hid : (t.classData? id).isSome) :
    (t'.classData? id).isSome := by
  obtain ⟨data, hdata⟩ := Option.isSome_iff_exists.mp hid
  obtain ⟨data', hdata', -⟩ := h.classData? hdata
  exact Option.isSome_of_eq_some hdata'

end KeepsTypes

end DescriptorTable

/-! ## Looking up -/

namespace Model

/-- Scopes come after what surrounds them, and the names of classes are bound to descriptors
that exist. -/
structure Formed (m : Model) : Prop where
  ordered : m.scopes.Ordered
  lt_size : ∀ {scope : Nat} {name : String} {id : Nat}, (m.scopes.get scope).bindings.classifiers[name]? = some id →
    id < m.descriptors.size

variable {m m' : Model}

/-- The classes that are found are classes that exist. -/
theorem Formed.lt_size_of_local?
    (h : m.Formed) {scope id : Nat} {name : String}
    (hid : m.scopes.memberClassifier? scope name = some id) : id < m.descriptors.size := by
  unfold ScopeTree.memberClassifier? ScopeTree.local? at hid
  rw [Option.orElse_eq_orElse, Option.orElse_eq_or, Option.or_eq_some_iff] at hid
  rcases hid with hid | ⟨-, hid⟩
  · exact h.lt_size hid
  · obtain ⟨_, _, hid⟩ := List.exists_of_findSome?_eq_some hid
    exact h.lt_size hid

theorem Formed.lt_size_of_lookup?
    (h : m.Formed) {scope id : Nat} {name : String}
    (hid : m.scopes.classifier? scope name = some id) : id < m.descriptors.size := by
  obtain ⟨ancestor, -, hid⟩ := List.exists_of_findSome?_eq_some hid
  exact h.lt_size_of_local? hid

theorem Formed.lt_size_of_classBelow?
    (h : m.Formed) {ns id : Nat} {path : List String} (hid : m.classBelow? ns path = some id) :
    id < m.descriptors.size := by
  match path with
  | [] => cases hid
  | [simple] =>
      obtain ⟨scope, -, hid⟩ := Option.bind_eq_some_iff.mp hid
      exact h.lt_size_of_local? hid
  | segment :: next :: rest =>
      obtain ⟨scope, -, hid⟩ := Option.bind_eq_some_iff.mp hid
      obtain ⟨inner, -, hid⟩ := Option.bind_eq_some_iff.mp hid
      exact h.lt_size_of_classBelow? hid

/-- What is formed stays so when scopes and descriptors are added that declare no types. -/
theorem Formed.of_nests
    (h : m.Formed) (hnests : m.scopes.Nests m'.scopes) (hordered : m'.scopes.Ordered)
    (htypes : m.descriptors.SameTypes m'.descriptors) : m'.Formed := by
  refine ⟨hordered, fun {scope name id} hid => ?_⟩
  rw [hnests.classifiers_eq] at hid
  exact (h.lt_size hid).trans_le htypes.size_le

section

variable (h : m.Formed) (hnests : m.scopes.Nests m'.scopes) (hordered : m'.scopes.Ordered)
  (htypes : m.descriptors.SameTypes m'.descriptors)

include h hnests hordered htypes

theorem classBelow?_eq (ns : Nat) (path : List String) :
    m'.classBelow? ns path = m.classBelow? ns path := by
  have hclass := fun (scope : Nat) (name : String) =>
    hnests.local?_eq (hnests.pick_eq (ScopeTree.picksTypes_classifiers name)) h.ordered hordered scope
  have hns := fun (scope : Nat) (name : String) =>
    hnests.local?_eq (hnests.pick_eq (ScopeTree.picksTypes_namespaces name)) h.ordered hordered scope
  match path with
  | [] => rfl
  | [simple] =>
      unfold classBelow?
      rw [htypes.namespaceMembers?_eq]
      exact congrArg _ (funext fun scope => hclass scope simple)
  | segment :: next :: rest =>
      have hrest := fun inner : Nat => classBelow?_eq inner (next :: rest)
      unfold classBelow? ScopeTree.memberNamespace?
      rw [htypes.namespaceMembers?_eq]
      refine congrArg _ (funext fun scope => ?_)
      rw [hns scope segment]
      exact congrArg _ (funext hrest)

/-- Adding scopes and descriptors that declare no types makes no difference to what the name of
a type denotes. -/
theorem lookupType?_eq {scope : Nat} (hscope : scope < m.scopes.size) (name : String) :
    m'.lookupType? scope name = m.lookupType? scope name := by
  have hclassType : ∀ id, id < m.descriptors.size →
      m'.descriptors.classType id = m.descriptors.classType id := by
    intro id hid
    unfold DescriptorTable.classType
    rw [htypes.name_eq id hid]
  unfold lookupType?
  split
  · rename_i first second rest _
    have hns := hnests.lookup?_eq (hnests.pick_eq (ScopeTree.picksTypes_namespaces first))
      h.ordered hordered hscope
    unfold ScopeTree.namespace?
    rw [hns]
    refine Option.bind_congr fun ns _ => ?_
    rw [classBelow?_eq h hnests hordered htypes]
    refine Option.bind_congr fun c hc => ?_
    rw [hclassType c (h.lt_size_of_classBelow? hc)]
  · have hclass := hnests.lookup?_eq (hnests.pick_eq (ScopeTree.picksTypes_classifiers name))
      h.ordered hordered hscope
    unfold ScopeTree.classifier?
    rw [hclass]
    cases hc : m.scopes.lookup? (fun b => b.classifiers[name]?) scope with
    | none => rfl
    | some c =>
        have hlt : c < m.descriptors.size := h.lt_size_of_lookup? hc
        simp only [Option.map_some, hclassType c hlt]

end

/-- A scope in which nothing is declared sees the types that its parent sees. -/
theorem Formed.lookupType?_inner
    (h : m.Formed) {id p : Nat} (hparent : (m.scopes.get id).parent = some p)
    (htarget : (m.scopes.get id).writeTarget = none) (himports : (m.scopes.get id).imports = [])
    (hclassifiers : (m.scopes.get id).bindings.classifiers = ∅)
    (hnamespaces : (m.scopes.get id).bindings.namespaces = ∅) (name : String) :
    m.lookupType? id name = m.lookupType? p name := by
  have hclass : ∀ name, m.scopes.classifier? id name = m.scopes.classifier? p name := by
    intro name
    refine h.ordered.lookup?_inner hparent htarget himports ?_
    rw [hclassifiers]
    exact Std.TreeMap.getElem?_emptyc
  have hns : ∀ name, m.scopes.namespace? id name = m.scopes.namespace? p name := by
    intro name
    refine h.ordered.lookup?_inner hparent htarget himports ?_
    rw [hnamespaces]
    exact Std.TreeMap.getElem?_emptyc
  unfold lookupType?
  simp only [hclass, hns]

end Model

end DeclAnalysis
