import Mathlib.Order.Nat
import DeclAnalysis.Semantic.Scope

/-!
# What surrounds a scope

A scope is created after its parent and after the scope that keeps its bindings, so
climbing from a scope comes to an end before the steps do that are allowed for it. What is
looked up in a scope is then settled by the bindings of the scope and by its parent, and it
stays the same as long as only scopes are added in which no types are declared.
-/

namespace DeclAnalysis

namespace ScopeTree

/-! ## Scopes after a change -/

section

variable (t : ScopeTree)

theorem get_of_size_le {id : Nat} (h : t.size ≤ id) : t.get id = { kind := .root } := by
  have h' : t.scopes.size ≤ id := h
  simp [get, h']

theorem lt_size_of_parent {id p : Nat} (h : (t.get id).parent = some p) : id < t.size := by
  by_contra hid
  rw [t.get_of_size_le (Nat.le_of_not_lt hid)] at h
  cases h

theorem lt_size_of_writeTarget {id target : Nat} (h : (t.get id).writeTarget = some target) :
    id < t.size := by
  by_contra hid
  rw [t.get_of_size_le (Nat.le_of_not_lt hid)] at h
  cases h

@[simp] theorem size_modify (id : Nat) (f : Scope → Scope) : (t.modify id f).size = t.size :=
  Array.size_modify

theorem get_modify_self {id : Nat} (h : id < t.size) (f : Scope → Scope) :
    (t.modify id f).get id = f (t.get id) := by
  have h' : id < t.scopes.size := h
  simp [modify, get, h', Array.getElem_modify]

theorem get_modify_of_ne {id id' : Nat} (h : id' ≠ id) (f : Scope → Scope) :
    (t.modify id f).get id' = t.get id' := by
  simp [modify, get, Array.getElem?_modify, h.symm]

theorem get_modify_of_size_le {id : Nat} (h : t.size ≤ id) (f : Scope → Scope) (id' : Nat) :
    (t.modify id f).get id' = t.get id' := by
  by_cases heq : id' = id
  · subst heq
    rw [t.get_of_size_le h, get_of_size_le]
    rw [size_modify]
    exact h
  · exact t.get_modify_of_ne heq f

/-- A scope is what it was, or what it is changed to. -/
theorem get_modify_cases (id id' : Nat) (f : Scope → Scope) :
    (t.modify id f).get id' = t.get id' ∨ id' = id ∧ (t.modify id f).get id' = f (t.get id') := by
  by_cases heq : id' = id
  · subst heq
    by_cases hlt : id' < t.size
    · exact .inr ⟨rfl, t.get_modify_self hlt f⟩
    · exact .inl (t.get_modify_of_size_le (Nat.le_of_not_lt hlt) f id')
  · exact .inl (t.get_modify_of_ne heq f)

@[simp] theorem size_bind (scope : Nat) (f : Bindings → Bindings) :
    (t.bind scope f).size = t.size :=
  t.size_modify ..

/-- Binding names changes the bindings of one scope. -/
theorem get_bind_cases (scope id : Nat) (f : Bindings → Bindings) :
    (t.bind scope f).get id = t.get id ∨
      id = t.storage scope ∧
        (t.bind scope f).get id = { t.get id with bindings := f (t.get id).bindings } :=
  t.get_modify_cases ..

theorem get_bind_storage {scope : Nat} (h : t.storage scope < t.size) (f : Bindings → Bindings) :
    (t.bind scope f).get (t.storage scope) =
      { t.get (t.storage scope) with bindings := f (t.get (t.storage scope)).bindings } :=
  t.get_modify_self h _

@[simp] theorem fst_create (kind : ScopeKind) (parent owner : Option Nat) :
    (t.create kind parent owner).1 = t.size := by
  unfold create
  cases parent <;> rfl

@[simp] theorem size_create (kind : ScopeKind) (parent owner : Option Nat) :
    (t.create kind parent owner).2.size = t.size + 1 := by
  have hpush : (⟨t.scopes.push { kind, parent, owner }⟩ : ScopeTree).size = t.size + 1 :=
    Array.size_push _
  unfold create
  cases parent with
  | none => exact hpush
  | some p => exact (size_modify ..).trans hpush

@[simp] theorem size_createWriteThrough (outer target : Nat) :
    (t.createWriteThrough outer target).2.size = t.size + 1 :=
  (size_modify ..).trans (t.size_create .writeThrough (some outer) (t.get target).owner)

theorem get_push_size (s : Scope) : (⟨t.scopes.push s⟩ : ScopeTree).get t.size = s := by
  simp [get, size]

theorem get_push_of_ne {id : Nat} (h : id ≠ t.size) (s : Scope) :
    (⟨t.scopes.push s⟩ : ScopeTree).get id = t.get id := by
  have h' : id ≠ t.scopes.size := h
  simp [get, Array.getElem?_push, h']

/-- A new scope, of which no scope is the parent yet. -/
theorem get_create_size
    {parent : Option Nat} (h : parent ≠ some t.size) (kind : ScopeKind) (owner : Option Nat) :
    (t.create kind parent owner).2.get t.size = { kind, parent, owner } := by
  unfold create
  cases parent with
  | none => exact t.get_push_size _
  | some p =>
      have hne : t.size ≠ p := fun heq => h (congrArg some heq.symm)
      exact (get_modify_of_ne _ hne _).trans (t.get_push_size _)

/-- A new scope changes another one only by being one of its children. -/
theorem get_create_of_ne
    {id : Nat} (h : id ≠ t.size) (kind : ScopeKind) (parent owner : Option Nat) :
    ∃ children, (t.create kind parent owner).2.get id = { t.get id with children } := by
  unfold create
  cases parent with
  | none => exact ⟨_, t.get_push_of_ne h _⟩
  | some p =>
      dsimp only
      rcases get_modify_cases _ p id _ with heq | ⟨-, heq⟩
      · exact ⟨_, heq.trans (t.get_push_of_ne h _)⟩
      · rw [heq, t.get_push_of_ne h]
        exact ⟨_, rfl⟩

end

/-! ## Parents and storage -/

/-- Every scope comes after its parent and after the scope that keeps its bindings. -/
structure Ordered (t : ScopeTree) : Prop where
  parent_lt : ∀ {id p : Nat}, (t.get id).parent = some p → p < id
  target_lt : ∀ {id target : Nat}, (t.get id).writeTarget = some target → target < id

variable {t : ScopeTree}

/-- More steps than scopes below make no difference to a chain. -/
theorem Ordered.chain_eq (h : t.Ordered) (id : Nat) :
    ∀ {n m : Nat}, id < n → id < m → t.chain n id = t.chain m id := by
  induction id using Nat.strong_induction_on with
  | _ id ih =>
      intro n m hn hm
      obtain ⟨n, rfl⟩ := Nat.exists_eq_add_one_of_ne_zero (Nat.ne_zero_of_lt hn)
      obtain ⟨m, rfl⟩ := Nat.exists_eq_add_one_of_ne_zero (Nat.ne_zero_of_lt hm)
      unfold chain
      cases hparent : (t.get id).parent with
      | none => rfl
      | some p =>
          have hlt := h.parent_lt hparent
          dsimp only
          rw [ih p hlt (hlt.trans_le (Nat.le_of_lt_succ hn)) (hlt.trans_le (Nat.le_of_lt_succ hm))]

theorem ancestors_of_parent_eq_none {id : Nat} (hid : id < t.size)
    (hparent : (t.get id).parent = none) : t.ancestors id = [id] := by
  obtain ⟨n, hn⟩ := Nat.exists_eq_add_one_of_ne_zero (Nat.ne_zero_of_lt hid)
  unfold ancestors
  rw [hn, chain, hparent]

theorem Ordered.ancestors_of_parent (h : t.Ordered) {id p : Nat}
    (hparent : (t.get id).parent = some p) : t.ancestors id = id :: t.ancestors p := by
  have hid := t.lt_size_of_parent hparent
  have hp := h.parent_lt hparent
  obtain ⟨n, hn⟩ := Nat.exists_eq_add_one_of_ne_zero (Nat.ne_zero_of_lt hid)
  unfold ancestors
  rw [hn, chain, hparent]
  dsimp only
  rw [h.chain_eq p (n := n) (m := n + 1) (by omega) (by omega)]

theorem Ordered.storageWithin_eq (h : t.Ordered) (id : Nat) :
    ∀ {n m : Nat}, id ≤ n → id ≤ m → t.storageWithin n id = t.storageWithin m id := by
  have hnone : ∀ {id n : Nat}, (t.get id).writeTarget = none → t.storageWithin n id = id := by
    intro id n htarget
    cases n with
    | zero => rfl
    | succ n => rw [storageWithin, htarget]
  induction id using Nat.strong_induction_on with
  | _ id ih =>
      intro n m hn hm
      cases htarget : (t.get id).writeTarget with
      | none => rw [hnone htarget, hnone htarget]
      | some target =>
          have hlt := h.target_lt htarget
          obtain ⟨n, rfl⟩ := Nat.exists_eq_add_one_of_ne_zero (Nat.ne_zero_of_lt (hlt.trans_le hn))
          obtain ⟨m, rfl⟩ := Nat.exists_eq_add_one_of_ne_zero (Nat.ne_zero_of_lt (hlt.trans_le hm))
          rw [storageWithin, storageWithin, htarget]
          exact ih target hlt (by omega) (by omega)

/-- A scope without a write target keeps its bindings itself. -/
theorem storage_of_writeTarget_eq_none {id : Nat} (h : (t.get id).writeTarget = none) :
    t.storage id = id := by
  unfold storage
  cases t.size with
  | zero => rfl
  | succ n => rw [storageWithin, h]

/-- A new scope keeps its bindings itself. -/
theorem storage_create
    {parent : Option Nat} (h : parent ≠ some t.size) (kind : ScopeKind) (owner : Option Nat) :
    (t.create kind parent owner).2.storage t.size = t.size :=
  storage_of_writeTarget_eq_none (congrArg Scope.writeTarget (t.get_create_size h kind owner))

theorem Ordered.storage_of_writeTarget (h : t.Ordered) {id target : Nat}
    (htarget : (t.get id).writeTarget = some target) : t.storage id = t.storage target := by
  have hid := t.lt_size_of_writeTarget htarget
  have hlt := h.target_lt htarget
  obtain ⟨n, hn⟩ := Nat.exists_eq_add_one_of_ne_zero (Nat.ne_zero_of_lt hid)
  unfold storage
  rw [hn, storageWithin, htarget]
  exact h.storageWithin_eq target (by omega) (by omega)

theorem Ordered.storage_le (h : t.Ordered) (id : Nat) : t.storage id ≤ id := by
  induction id using Nat.strong_induction_on with
  | _ id ih =>
      cases htarget : (t.get id).writeTarget with
      | none => exact (storage_of_writeTarget_eq_none htarget).le
      | some target =>
          have hlt := h.target_lt htarget
          rw [h.storage_of_writeTarget htarget]
          exact (ih target hlt).trans hlt.le

theorem Ordered.storage_lt (h : t.Ordered) {scope : Nat} (hscope : scope < t.size) :
    t.storage scope < t.size :=
  (h.storage_le scope).trans_lt hscope

/-! ## Looking up -/

section

variable {α : Type} {pick : Bindings → Option α}

theorem lookup?_of_parent_eq_none {id : Nat} (hid : id < t.size)
    (hparent : (t.get id).parent = none) : t.lookup? pick id = t.local? pick id := by
  unfold lookup?
  rw [ancestors_of_parent_eq_none hid hparent, List.findSome?_singleton]

/-- What a scope does not bind is looked up in its parent. -/
theorem Ordered.lookup?_of_parent (h : t.Ordered) {id p : Nat}
    (hparent : (t.get id).parent = some p) :
    t.lookup? pick id = (t.local? pick id).or (t.lookup? pick p) := by
  unfold lookup?
  rw [h.ancestors_of_parent hparent, List.findSome?_cons]
  cases t.local? pick id with
  | none => rfl
  | some a => rfl

/-- Where nothing is bound differently and all parents stay, what is looked up stays the same. -/
theorem Ordered.lookup?_congr
    {t' : ScopeTree} (h : t.Ordered) (h' : t'.Ordered) (hsize : t.size ≤ t'.size)
    (hparent : ∀ id, id < t.size → (t'.get id).parent = (t.get id).parent)
    (hlocal : ∀ id, id < t.size → t'.local? pick id = t.local? pick id)
    {scope : Nat} (hscope : scope < t.size) : t'.lookup? pick scope = t.lookup? pick scope := by
  induction scope using Nat.strong_induction_on with
  | _ scope ih =>
      have hparent' := hparent scope hscope
      cases hp : (t.get scope).parent with
      | none =>
          rw [lookup?_of_parent_eq_none hscope hp,
            lookup?_of_parent_eq_none (hscope.trans_le hsize) (hparent'.trans hp),
            hlocal scope hscope]
      | some p =>
          have hlt := h.parent_lt hp
          rw [h.lookup?_of_parent hp, h'.lookup?_of_parent (hparent'.trans hp),
            hlocal scope hscope, ih p hlt (hlt.trans hscope)]

/-- Without imports, a scope binds what is bound where its bindings are kept. -/
theorem local?_of_imports_eq_nil {id : Nat} (h : (t.get id).imports = []) :
    t.local? pick id = pick (t.bindings id) := by
  unfold local?
  rw [h]
  cases pick (t.bindings id) with
  | none => rfl
  | some a => rfl

end

/-! ## Adding scopes without types -/

/-- What is looked up is the name of a class or namespace. -/
def PicksTypes {α : Type} (pick : Bindings → Option α) : Prop :=
  ∀ b b' : Bindings, b.classifiers = b'.classifiers → b.namespaces = b'.namespaces →
    pick b = pick b'

theorem picksTypes_classifiers (name : String) : PicksTypes (·.classifiers[name]?) := by
  intro b b' hclassifiers _
  dsimp only
  rw [hclassifiers]

theorem picksTypes_namespaces (name : String) : PicksTypes (·.namespaces[name]?) := by
  intro b b' _ hnamespaces
  dsimp only
  rw [hnamespaces]

/-- Scopes have been added in which no types are declared, and where names of types are
found has not changed. -/
structure Nests (t t' : ScopeTree) : Prop where
  size_le : t.size ≤ t'.size
  kind_eq : ∀ id, id < t.size → (t'.get id).kind = (t.get id).kind
  owner_eq : ∀ id, id < t.size → (t'.get id).owner = (t.get id).owner
  parent_eq : ∀ id, id < t.size → (t'.get id).parent = (t.get id).parent
  writeTarget_eq : ∀ id, (t'.get id).writeTarget = (t.get id).writeTarget
  imports_eq : ∀ id, (t'.get id).imports = (t.get id).imports
  classifiers_eq : ∀ id, (t'.get id).bindings.classifiers = (t.get id).bindings.classifiers
  namespaces_eq : ∀ id, (t'.get id).bindings.namespaces = (t.get id).bindings.namespaces

namespace Nests

variable {t' t'' : ScopeTree}

theorem refl (t : ScopeTree) : t.Nests t :=
  ⟨Nat.le_refl _, fun _ _ => rfl, fun _ _ => rfl, fun _ _ => rfl, fun _ => rfl, fun _ => rfl,
    fun _ => rfl, fun _ => rfl⟩

theorem trans (h : t.Nests t') (h' : t'.Nests t'') : t.Nests t'' where
  size_le := h.size_le.trans h'.size_le
  kind_eq id hid := (h'.kind_eq id (hid.trans_le h.size_le)).trans (h.kind_eq id hid)
  owner_eq id hid := (h'.owner_eq id (hid.trans_le h.size_le)).trans (h.owner_eq id hid)
  parent_eq id hid := (h'.parent_eq id (hid.trans_le h.size_le)).trans (h.parent_eq id hid)
  writeTarget_eq id := (h'.writeTarget_eq id).trans (h.writeTarget_eq id)
  imports_eq id := (h'.imports_eq id).trans (h.imports_eq id)
  classifiers_eq id := (h'.classifiers_eq id).trans (h.classifiers_eq id)
  namespaces_eq id := (h'.namespaces_eq id).trans (h.namespaces_eq id)

variable (h : t.Nests t')

include h

theorem storage_eq (ht : t.Ordered) (ht' : t'.Ordered) (id : Nat) :
    t'.storage id = t.storage id := by
  induction id using Nat.strong_induction_on with
  | _ id ih =>
      cases htarget : (t.get id).writeTarget with
      | none =>
          rw [storage_of_writeTarget_eq_none htarget,
            storage_of_writeTarget_eq_none ((h.writeTarget_eq id).trans htarget)]
      | some target =>
          rw [ht.storage_of_writeTarget htarget,
            ht'.storage_of_writeTarget ((h.writeTarget_eq id).trans htarget)]
          exact ih target (ht.target_lt htarget)

variable {α : Type} {pick : Bindings → Option α}

theorem pick_eq (hpick : PicksTypes pick) (id : Nat) :
    pick (t'.get id).bindings = pick (t.get id).bindings :=
  hpick _ _ (h.classifiers_eq id) (h.namespaces_eq id)

variable (hpick : ∀ id, pick (t'.get id).bindings = pick (t.get id).bindings)

include hpick

theorem local?_eq (ht : t.Ordered) (ht' : t'.Ordered) (id : Nat) :
    t'.local? pick id = t.local? pick id := by
  have hbindings : ∀ id, pick (t'.bindings id) = pick (t.bindings id) := by
    intro id
    unfold bindings
    rw [h.storage_eq ht ht']
    exact hpick _
  unfold local?
  rw [hbindings, h.imports_eq]
  simp only [hbindings]

theorem lookup?_eq (ht : t.Ordered) (ht' : t'.Ordered) {scope : Nat} (hscope : scope < t.size) :
    t'.lookup? pick scope = t.lookup? pick scope :=
  ht.lookup?_congr ht' h.size_le h.parent_eq (fun id _ => h.local?_eq hpick ht ht' id) hscope

end Nests

/-- A scope in which nothing is declared sees the types that its parent sees. -/
theorem Ordered.lookup?_inner
    {α : Type} {pick : Bindings → Option α} (h : t.Ordered) {id p : Nat}
    (hparent : (t.get id).parent = some p) (htarget : (t.get id).writeTarget = none)
    (himports : (t.get id).imports = []) (hbindings : pick (t.get id).bindings = none) :
    t.lookup? pick id = t.lookup? pick p := by
  have hlocal : t.local? pick id = none := by
    rw [local?_of_imports_eq_nil himports]
    unfold bindings
    rw [storage_of_writeTarget_eq_none htarget]
    exact hbindings
  rw [h.lookup?_of_parent hparent, hlocal, Option.none_or]

/-! ### Elementary changes -/

theorem Ordered.create
    (h : t.Ordered) {parent : Option Nat} (hparent : ∀ p, parent = some p → p < t.size)
    (kind : ScopeKind) (owner : Option Nat) : (t.create kind parent owner).2.Ordered := by
  have hne : parent ≠ some t.size := fun heq => (hparent _ heq).ne rfl
  refine ⟨fun {id p} hp => ?_, fun {id target} htarget => ?_⟩
  · by_cases hid : id = t.size
    · subst hid
      rw [t.get_create_size hne] at hp
      exact hparent p hp
    · obtain ⟨children, hget⟩ := t.get_create_of_ne hid kind parent owner
      rw [hget] at hp
      exact h.parent_lt hp
  · by_cases hid : id = t.size
    · subst hid
      rw [t.get_create_size hne] at htarget
      cases htarget
    · obtain ⟨children, hget⟩ := t.get_create_of_ne hid kind parent owner
      rw [hget] at htarget
      exact h.target_lt htarget

/-- Changing anything but the surroundings of a scope leaves the order alone. -/
theorem Ordered.modify
    (h : t.Ordered) (id : Nat) {f : Scope → Scope} (hparent : ∀ s, (f s).parent = s.parent)
    (htarget : ∀ s, (f s).writeTarget = s.writeTarget) : (t.modify id f).Ordered := by
  refine ⟨fun {id' p} hp => ?_, fun {id' target} hw => ?_⟩
  · rcases t.get_modify_cases id id' f with heq | ⟨-, heq⟩
    · rw [heq] at hp
      exact h.parent_lt hp
    · rw [heq, hparent] at hp
      exact h.parent_lt hp
  · rcases t.get_modify_cases id id' f with heq | ⟨-, heq⟩
    · rw [heq] at hw
      exact h.target_lt hw
    · rw [heq, htarget] at hw
      exact h.target_lt hw

theorem Ordered.bind (h : t.Ordered) (scope : Nat) (f : Bindings → Bindings) :
    (t.bind scope f).Ordered :=
  h.modify _ (fun _ => rfl) fun _ => rfl

theorem Nests.create
    {parent : Option Nat} (h : parent ≠ some t.size) (kind : ScopeKind) (owner : Option Nat) :
    t.Nests (t.create kind parent owner).2 := by
  have hget : ∀ {β : Type} (p : Scope → β), (∀ s children, p { s with children } = p s) →
      (p { kind, parent, owner } = p { kind := .root }) →
      ∀ id, p ((t.create kind parent owner).2.get id) = p (t.get id) := by
    intro β p hp hnew id
    by_cases hid : id = t.size
    · subst hid
      rw [t.get_create_size h, t.get_of_size_le le_rfl]
      exact hnew
    · obtain ⟨children, heq⟩ := t.get_create_of_ne hid kind parent owner
      rw [heq]
      exact hp _ _
  have hold : ∀ {β : Type} (p : Scope → β), (∀ s children, p { s with children } = p s) →
      ∀ id, id < t.size → p ((t.create kind parent owner).2.get id) = p (t.get id) := by
    intro β p hp id hid
    obtain ⟨children, heq⟩ := t.get_create_of_ne hid.ne kind parent owner
    rw [heq]
    exact hp _ _
  refine ⟨?_, hold Scope.kind fun _ _ => rfl, hold Scope.owner fun _ _ => rfl,
    hold Scope.parent fun _ _ => rfl, hget Scope.writeTarget (fun _ _ => rfl) rfl,
    hget Scope.imports (fun _ _ => rfl) rfl,
    hget (fun s => s.bindings.classifiers) (fun _ _ => rfl) rfl,
    hget (fun s => s.bindings.namespaces) (fun _ _ => rfl) rfl⟩
  rw [size_create]
  exact Nat.le_succ _

/-- Binding names of functions, values and fields. -/
theorem Nests.bind
    (scope : Nat) {f : Bindings → Bindings} (hclassifiers : ∀ b, (f b).classifiers = b.classifiers)
    (hnamespaces : ∀ b, (f b).namespaces = b.namespaces) : t.Nests (t.bind scope f) := by
  have hget : ∀ {β : Type} (p : Scope → β),
      (∀ s : Scope, p { s with bindings := f s.bindings } = p s) →
      ∀ id, p ((t.bind scope f).get id) = p (t.get id) := by
    intro β p hp id
    rcases t.get_bind_cases scope id f with heq | ⟨-, heq⟩
    · rw [heq]
    · rw [heq]
      exact hp _
  refine ⟨(t.size_bind ..).ge, fun id _ => hget Scope.kind (fun _ => rfl) id,
    fun id _ => hget Scope.owner (fun _ => rfl) id, fun id _ => hget Scope.parent (fun _ => rfl) id,
    hget Scope.writeTarget fun _ => rfl, hget Scope.imports fun _ => rfl,
    hget (fun s => s.bindings.classifiers) fun _ => hclassifiers _,
    hget (fun s => s.bindings.namespaces) fun _ => hnamespaces _⟩

end ScopeTree

end DeclAnalysis
