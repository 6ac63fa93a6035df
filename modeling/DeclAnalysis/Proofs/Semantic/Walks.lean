import DeclAnalysis.Proofs.Semantic.Widening
import DeclAnalysis.Semantic.Model

/-!
# Walks through the scopes

All scopes come about from the root scope by operations on scopes that are there already. So they
refer to one another only as far as they exist, and what is added later does not show in scopes that
do not refer to it.

Parents, write targets and imports lead from scope to scope. Every scope comes after its parent and
after its write target, whatever scopes are imported, so every walk along either of them comes to an
end. The walks are described here without a bound on their length, and so is what a look-up finds on
its way. The functions that walk only as many steps as there are scopes find the same.
-/

namespace DeclAnalysis

namespace ScopeTree

/-- Scopes that come about by operations on scopes that exist. -/
inductive Reachable : ScopeTree → Prop
  | initial : Reachable Model.initial.scopes
  | create {t : ScopeTree} (ht : Reachable t) (kind : ScopeKind) {parent : Option Nat}
      (hparent : ∀ p, parent = some p → p < t.size) (owner : Option Nat) :
      Reachable (t.create kind parent owner).2
  | createWriteThrough {t : ScopeTree} (ht : Reachable t) {outer target : Nat}
      (houter : outer < t.size) (htarget : target < t.size) :
      Reachable (t.createWriteThrough outer target).2
  | setOwner {t : ScopeTree} (ht : Reachable t) {scope : Nat} (hscope : scope < t.size)
      (owner : Nat) : Reachable (t.setOwner scope owner)
  | importScope {t : ScopeTree} (ht : Reachable t) {scope imported : Nat} (hscope : scope < t.size)
      (himported : imported < t.size) : Reachable (t.importScope scope imported)
  | addClassifier {t : ScopeTree} (ht : Reachable t) {scope : Nat} (hscope : scope < t.size)
      (name : String) (descriptor : Nat) : Reachable (t.addClassifier scope name descriptor)
  | addNamespace {t : ScopeTree} (ht : Reachable t) {scope : Nat} (hscope : scope < t.size)
      (name : String) (descriptor : Nat) : Reachable (t.addNamespace scope name descriptor)
  | addFunction {t : ScopeTree} (ht : Reachable t) {scope : Nat} (hscope : scope < t.size)
      (name : String) (descriptor : Nat) : Reachable (t.addFunction scope name descriptor)
  | addVariable {t : ScopeTree} (ht : Reachable t) {scope : Nat} (hscope : scope < t.size)
      (name : String) (descriptor : Nat) : Reachable (t.addVariable scope name descriptor)
  | addField {t : ScopeTree} (ht : Reachable t) {scope : Nat} (hscope : scope < t.size)
      (name : String) (property : Nat) : Reachable (t.addField scope name property)

/-- Scopes refer only to scopes that exist, and what is around a scope comes before it. -/
structure Closed (t : ScopeTree) : Prop extends Ordered t where
  import_lt : ∀ {id i : Nat}, i ∈ (t.get id).imports → i < t.size

namespace Closed

variable {t : ScopeTree}

theorem modify
    (h : t.Closed) (id : Nat) {f : Scope → Scope} (hparent : ∀ s, (f s).parent = s.parent)
    (htarget : ∀ s, (f s).writeTarget = s.writeTarget)
    (himports : ∀ s, ∀ i ∈ (f s).imports, i ∈ s.imports ∨ i < t.size) :
    (t.modify id f).Closed := by
  refine ⟨h.toOrdered.modify id hparent htarget, fun {id' i} hi => ?_⟩
  rw [size_modify]
  rcases t.get_modify_cases id id' f with heq | ⟨-, heq⟩
  · rw [heq] at hi
    exact h.import_lt hi
  · rw [heq] at hi
    exact (himports _ i hi).elim h.import_lt fun hlt => hlt

theorem bind (h : t.Closed) (scope : Nat) (f : Bindings → Bindings) : (t.bind scope f).Closed :=
  h.modify _ (fun _ => rfl) (fun _ => rfl) fun _ _ => .inl

theorem create
    (h : t.Closed) {parent : Option Nat} (hparent : ∀ p, parent = some p → p < t.size)
    (kind : ScopeKind) (owner : Option Nat) : (t.create kind parent owner).2.Closed := by
  have hne : parent ≠ some t.size := fun heq => (hparent _ heq).ne rfl
  refine ⟨h.toOrdered.create hparent kind owner, fun {id i} hi => ?_⟩
  rw [(Adds.create hne kind owner).imports_eq rfl] at hi
  rw [size_create]
  exact (h.import_lt hi).trans (Nat.lt_succ_self _)

theorem createWriteThrough
    (h : t.Closed) {outer target : Nat} (houter : outer < t.size) (htarget : target < t.size) :
    (t.createWriteThrough outer target).2.Closed := by
  refine ⟨h.toOrdered.createWriteThrough houter htarget, fun {id i} hi => ?_⟩
  rw [(Adds.createWriteThrough houter target).imports_eq rfl] at hi
  rw [size_createWriteThrough]
  exact (h.import_lt hi).trans (Nat.lt_succ_self _)

theorem importScope
    (h : t.Closed) (scope : Nat) {imported : Nat} (himported : imported < t.size) :
    (t.importScope scope imported).Closed := by
  refine h.modify scope (fun _ => rfl) (fun _ => rfl) fun s i hi => ?_
  rcases List.mem_append.mp hi with hi | hi
  · exact .inl hi
  · exact .inr (List.mem_singleton.mp hi ▸ himported)

end Closed

/-- Scopes that have come about refer only to scopes that exist. -/
theorem Reachable.closed {t : ScopeTree} (h : t.Reachable) : t.Closed := by
  induction h with
  | initial =>
      have hget : ∀ id, (Model.initial.scopes.get id) = { kind := .root } := by
        intro id
        cases id with
        | zero => rfl
        | succ id => rfl
      refine ⟨⟨fun {id p} hp => ?_, fun {id target} htarget => ?_⟩, fun {id i} hi => ?_⟩
      · rw [hget] at hp
        cases hp
      · rw [hget] at htarget
        cases htarget
      · rw [hget] at hi
        cases hi
  | create _ kind hparent owner ih => exact ih.create hparent kind owner
  | createWriteThrough _ houter htarget ih => exact ih.createWriteThrough houter htarget
  | setOwner _ _ owner ih =>
      exact ih.modify _ (fun _ => rfl) (fun _ => rfl) fun _ _ => .inl
  | importScope _ _ himported ih => exact ih.importScope _ himported
  | addClassifier _ _ _ _ ih | addNamespace _ _ _ _ ih | addFunction _ _ _ _ ih
  | addVariable _ _ _ _ ih | addField _ _ _ _ ih => exact ih.bind _ _

/-! ## Bindings elsewhere -/

section

variable {α : Type} {pick : Bindings → Option α} {t t' : ScopeTree} (h : t.Nests t')
  (ht : t.Closed) (ht' : t'.Ordered)
  (hpick : ∀ id, id < t.size → pick (t'.get id).bindings = pick (t.get id).bindings)

include h ht ht' hpick

/-- What is bound in a scope stays the same while nothing is bound in the scopes that were there. -/
theorem Closed.local?_eq {id : Nat} (hid : id < t.size) : t'.local? pick id = t.local? pick id := by
  have hbindings : ∀ id, id < t.size → pick (t'.bindings id) = pick (t.bindings id) := by
    intro id hid
    unfold bindings
    rw [h.storage_eq ht.toOrdered ht']
    exact hpick _ (ht.storage_lt hid)
  have himports : ∀ is : List Nat, (∀ i ∈ is, i < t.size) →
      is.findSome? (fun i => pick (t'.bindings i)) = is.findSome? fun i => pick (t.bindings i) := by
    intro is his
    induction is with
    | nil => rfl
    | cons i is ih =>
        obtain ⟨hi, his⟩ := List.forall_mem_cons.mp his
        rw [List.findSome?_cons, List.findSome?_cons, hbindings i hi, ih his]
  unfold local?
  rw [hbindings id hid, h.imports_eq, himports _ fun i => ht.import_lt]

/-- So does what is looked up. -/
theorem Closed.lookup?_eq
    {scope : Nat} (hscope : scope < t.size) : t'.lookup? pick scope = t.lookup? pick scope :=
  ht.lookup?_congr ht' h.size_le h.parent_eq (fun _ => Closed.local?_eq h ht ht' hpick) hscope

end

/-! ## Children -/

section

variable (t : ScopeTree) (kind : ScopeKind) (owner : Option Nat)

theorem parent_get_create {parent : Option Nat} (hparent : parent ≠ some t.size) (id : Nat) :
    ((t.create kind parent owner).2.get id).parent =
      if id = t.size then parent else (t.get id).parent := by
  by_cases hid : id = t.size
  · rw [if_pos hid, hid, t.get_create_size hparent]
  · obtain ⟨children, hget⟩ := t.get_create_of_ne hid kind parent owner
    rw [if_neg hid, hget]

/-- A new scope is the last child of its parent. -/
theorem children_get_create {parent : Option Nat} (hparent : ∀ p, parent = some p → p < t.size)
    (id : Nat) :
    ((t.create kind parent owner).2.get id).children =
      (t.get id).children ++ if parent = some id then [t.size] else [] := by
  have hpush : ((⟨t.scopes.push { kind, parent, owner }⟩ : ScopeTree).get id).children =
      (t.get id).children := by
    by_cases hid : id = t.size
    · rw [hid, t.get_push_size, t.get_of_size_le le_rfl]
    · rw [t.get_push_of_ne hid]
  cases parent with
  | none =>
      rw [if_neg nofun, List.append_nil]
      exact hpush
  | some p =>
      have hp : p < (⟨t.scopes.push { kind, parent := some p, owner }⟩ : ScopeTree).size :=
        (hparent p rfl).trans (Nat.lt_succ_self _ |>.trans_eq (Array.size_push _).symm)
      by_cases hid : p = id
      · subst hid
        rw [if_pos rfl]
        refine (congrArg Scope.children (get_modify_self _ hp _)).trans ?_
        exact congrArg (· ++ [t.size]) hpush
      · rw [if_neg fun heq => hid (Option.some.inj heq), List.append_nil]
        exact (congrArg Scope.children (get_modify_of_ne _ (Ne.symm hid) _)).trans hpush

end

/-- The children of a scope are the scopes whose parent it is, each once and in the order of
creation. -/
structure ListsChildren (t : ScopeTree) : Prop where
  mem_children_iff : ∀ p c, c ∈ (t.get p).children ↔ (t.get c).parent = some p
  pairwise_children : ∀ p, (t.get p).children.Pairwise (· < ·)

namespace ListsChildren

variable {t : ScopeTree} (h : t.ListsChildren)

include h

/-- Changing anything but what is around a scope. -/
theorem modify
    (id : Nat) {f : Scope → Scope} (hparent : ∀ s, (f s).parent = s.parent)
    (hchildren : ∀ s, (f s).children = s.children) : (t.modify id f).ListsChildren := by
  refine ⟨fun p c => ?_, fun p => ?_⟩
  · rw [t.apply_get_modify Scope.children f hchildren, t.apply_get_modify Scope.parent f hparent]
    exact h.mem_children_iff p c
  · rw [t.apply_get_modify Scope.children f hchildren]
    exact h.pairwise_children p

theorem create
    {parent : Option Nat} (hparent : ∀ p, parent = some p → p < t.size) (kind : ScopeKind)
    (owner : Option Nat) : (t.create kind parent owner).2.ListsChildren := by
  have hne : parent ≠ some t.size := fun heq => (hparent _ heq).ne rfl
  have hlt : ∀ {p c}, c ∈ (t.get p).children → c < t.size :=
    fun hc => t.lt_size_of_parent ((h.mem_children_iff _ _).mp hc)
  refine ⟨fun p c => ?_, fun p => ?_⟩
  · rw [t.children_get_create kind owner hparent, t.parent_get_create kind owner hne,
      List.mem_append, h.mem_children_iff]
    by_cases hc : c = t.size
    · have hnone : (t.get c).parent = none := by rw [t.get_of_size_le hc.ge]
      rw [if_pos hc, hnone]
      by_cases hp : parent = some p
      · simp [hp, hc]
      · simp [hp]
    · rw [if_neg hc]
      by_cases hp : parent = some p
      · simp [hp, hc]
      · simp [hp]
  · rw [t.children_get_create kind owner hparent]
    refine List.pairwise_append.mpr ⟨h.pairwise_children p, ?_, fun c hc new hnew => ?_⟩
    · split
      · exact List.pairwise_singleton _ _
      · exact .nil
    · split at hnew
      · exact (hlt hc).trans_eq (List.mem_singleton.mp hnew).symm
      · cases hnew

theorem createWriteThrough {outer : Nat} (houter : outer < t.size) (target : Nat) :
    (t.createWriteThrough outer target).2.ListsChildren := by
  have hparent : ∀ p, some outer = some p → p < t.size := by
    rintro _ ⟨⟩
    exact houter
  exact (h.create hparent .writeThrough (t.get target).owner).modify _ (fun _ => rfl) fun _ => rfl

end ListsChildren

theorem Reachable.listsChildren {t : ScopeTree} (h : t.Reachable) : t.ListsChildren := by
  induction h with
  | initial =>
      have hget : ∀ id, Model.initial.scopes.get id = { kind := .root } := by
        intro id
        cases id with
        | zero => rfl
        | succ id => rfl
      refine ⟨fun p c => ?_, fun p => ?_⟩
      · rw [hget, hget]
        exact ⟨nofun, nofun⟩
      · rw [hget]
        exact .nil
  | create _ kind hparent owner ih => exact ih.create hparent kind owner
  | createWriteThrough _ houter _ ih => exact ih.createWriteThrough houter _
  | setOwner _ _ _ ih | importScope _ _ _ ih | addClassifier _ _ _ _ ih
  | addNamespace _ _ _ _ ih | addFunction _ _ _ _ ih | addVariable _ _ _ _ ih
  | addField _ _ _ _ ih => exact ih.modify _ (fun _ => rfl) fun _ => rfl

/-! ## The root -/

/-- The first scope is the root: it lies inside no other and keeps its bindings itself. -/
structure Rooted (t : ScopeTree) : Prop where
  root_lt : Model.root < t.size
  kind_eq : (t.get Model.root).kind = .root
  parent_eq : (t.get Model.root).parent = none
  writeTarget_eq : (t.get Model.root).writeTarget = none

namespace Rooted

variable {t : ScopeTree} (h : t.Rooted)

include h

theorem modify
    (id : Nat) {f : Scope → Scope} (hkind : ∀ s, (f s).kind = s.kind)
    (hparent : ∀ s, (f s).parent = s.parent) (htarget : ∀ s, (f s).writeTarget = s.writeTarget) :
    (t.modify id f).Rooted where
  root_lt := h.root_lt.trans_eq (t.size_modify ..).symm
  kind_eq := (t.apply_get_modify Scope.kind f hkind id _).trans h.kind_eq
  parent_eq := (t.apply_get_modify Scope.parent f hparent id _).trans h.parent_eq
  writeTarget_eq := (t.apply_get_modify Scope.writeTarget f htarget id _).trans h.writeTarget_eq

/-- Other scopes are added. -/
theorem adds {t' : ScopeTree} {new : Scope} (hadds : Adds new t t') : t'.Rooted := by
  obtain ⟨children, bindings, hget⟩ := hadds.get_old _ h.root_lt.ne
  refine ⟨?_, ?_, ?_, ?_⟩
  · exact h.root_lt.trans_le hadds.widens.size_le
  · rw [hget]
    exact h.kind_eq
  · rw [hget]
    exact h.parent_eq
  · rw [hget]
    exact h.writeTarget_eq

end Rooted

theorem Reachable.rooted {t : ScopeTree} (h : t.Reachable) : t.Rooted := by
  induction h with
  | initial => exact ⟨Nat.zero_lt_one, rfl, rfl, rfl⟩
  | create _ kind hparent owner ih =>
      exact ih.adds (.create (fun heq => (hparent _ heq).ne rfl) kind owner)
  | createWriteThrough _ houter _ ih => exact ih.adds (.createWriteThrough houter _)
  | setOwner _ _ _ ih | importScope _ _ _ ih | addClassifier _ _ _ _ ih
  | addNamespace _ _ _ _ ih | addFunction _ _ _ _ ih | addVariable _ _ _ _ ih
  | addField _ _ _ _ ih => exact ih.modify _ (fun _ => rfl) (fun _ => rfl) fun _ => rfl

/-! ## Walks without a bound -/

/-- The walk from a scope to its parent and on, up to a scope that has none. -/
inductive Climbs (t : ScopeTree) : Nat → List Nat → Prop
  | top {id : Nat} (hparent : (t.get id).parent = none) : Climbs t id [id]
  | up {id p : Nat} {walk : List Nat} (hparent : (t.get id).parent = some p)
      (hp : Climbs t p walk) : Climbs t id (id :: walk)

/-- Following the write targets from a scope comes to an end at a scope that has none. -/
inductive KeptIn (t : ScopeTree) : Nat → Nat → Prop
  | here {id : Nat} (htarget : (t.get id).writeTarget = none) : KeptIn t id id
  | onward {id target store : Nat} (htarget : (t.get id).writeTarget = some target)
      (hstore : KeptIn t target store) : KeptIn t id store

section

variable {t : ScopeTree} (ht : t.Ordered)

theorem Climbs.functional
    {id : Nat} {walk walk' : List Nat} (h : t.Climbs id walk) (h' : t.Climbs id walk') :
    walk = walk' := by
  induction h generalizing walk' with
  | top hparent =>
      cases h' with
      | top => rfl
      | up hparent' => cases hparent.symm.trans hparent'
  | up hparent _ ih =>
      cases h' with
      | top hparent' => cases hparent.symm.trans hparent'
      | up hparent' hp' =>
          obtain rfl := Option.some.inj (hparent.symm.trans hparent')
          rw [ih hp']

theorem KeptIn.functional
    {id store store' : Nat} (h : t.KeptIn id store) (h' : t.KeptIn id store') : store = store' := by
  induction h with
  | here htarget =>
      cases h' with
      | here => rfl
      | onward htarget' => cases htarget.symm.trans htarget'
  | onward htarget _ ih =>
      cases h' with
      | here htarget' => cases htarget.symm.trans htarget'
      | onward htarget' hstore' =>
          obtain rfl := Option.some.inj (htarget.symm.trans htarget')
          exact ih hstore'

/-- The last scope on the way keeps its bindings itself. -/
theorem KeptIn.writeTarget_eq_none {id store : Nat} (h : t.KeptIn id store) :
    (t.get store).writeTarget = none := by
  induction h with
  | here htarget => exact htarget
  | onward _ _ ih => exact ih

include ht

theorem Ordered.climbs {id : Nat} (hid : id < t.size) : t.Climbs id (t.ancestors id) := by
  induction id using Nat.strong_induction_on with
  | _ id ih =>
      cases hparent : (t.get id).parent with
      | none =>
          rw [ancestors_of_parent_eq_none hid hparent]
          exact .top hparent
      | some p =>
          have hlt := ht.parent_lt hparent
          rw [ht.ancestors_of_parent hparent]
          exact .up hparent (ih p hlt (hlt.trans hid))

theorem Ordered.keptIn (id : Nat) : t.KeptIn id (t.storage id) := by
  induction id using Nat.strong_induction_on with
  | _ id ih =>
      cases htarget : (t.get id).writeTarget with
      | none =>
          rw [storage_of_writeTarget_eq_none htarget]
          exact .here htarget
      | some target =>
          rw [ht.storage_of_writeTarget htarget]
          exact .onward htarget (ih target (ht.target_lt htarget))

theorem Ordered.climbs_iff {id : Nat} (hid : id < t.size) {walk : List Nat} :
    t.Climbs id walk ↔ t.ancestors id = walk :=
  ⟨fun h => (ht.climbs hid).functional h, fun h => h ▸ ht.climbs hid⟩

theorem Ordered.keptIn_iff {id store : Nat} : t.KeptIn id store ↔ t.storage id = store :=
  ⟨fun h => (ht.keptIn id).functional h, fun h => h ▸ ht.keptIn id⟩

end

/-! ## What is found on the way -/

section

variable {α : Type} (t : ScopeTree) (pick : Bindings → Option α)

/-- What the scope that keeps the bindings of a scope binds. -/
def Holds (scope : Nat) (found : Option α) : Prop :=
  ∃ store, t.KeptIn scope store ∧ pick (t.get store).bindings = found

/-- What a scope offers by itself: what it holds or, failing that, what the first of its imports
holds that holds anything. -/
inductive Offers (scope : Nat) : Option α → Prop
  | own {a : α} (h : t.Holds pick scope (some a)) : Offers scope (some a)
  | imported {before : List Nat} {i : Nat} {after : List Nat} {a : α}
      (h : t.Holds pick scope none) (himports : (t.get scope).imports = before ++ i :: after)
      (hbefore : ∀ j ∈ before, t.Holds pick j none) (hi : t.Holds pick i (some a)) :
      Offers scope (some a)
  | nothing (h : t.Holds pick scope none)
      (himports : ∀ i ∈ (t.get scope).imports, t.Holds pick i none) : Offers scope none

/-- What the nearest scope offers that offers anything: the scope itself, its parent, and so on. -/
inductive Finds : Nat → Option α → Prop
  | here {scope : Nat} {a : α} (h : t.Offers pick scope (some a)) : Finds scope (some a)
  | outside {scope p : Nat} {found : Option α} (h : t.Offers pick scope none)
      (hparent : (t.get scope).parent = some p) (hp : Finds p found) : Finds scope found
  | nowhere {scope : Nat} (h : t.Offers pick scope none) (hparent : (t.get scope).parent = none) :
      Finds scope none

end

section

variable {α : Type} {t : ScopeTree} {pick : Bindings → Option α} (ht : t.Ordered)

include ht

theorem Ordered.holds_iff {scope : Nat} {found : Option α} :
    t.Holds pick scope found ↔ pick (t.bindings scope) = found := by
  refine ⟨fun ⟨store, hstore, hpick⟩ => ?_, fun h => ⟨_, ht.keptIn scope, h⟩⟩
  obtain rfl := ht.keptIn_iff.mp hstore
  exact hpick

theorem Ordered.offers_iff {scope : Nat} {found : Option α} :
    t.Offers pick scope found ↔ t.local? pick scope = found := by
  have hlocal : t.local? pick scope = (pick (t.bindings scope)).or
      ((t.get scope).imports.findSome? fun i => pick (t.bindings i)) := by
    unfold local?
    cases pick (t.bindings scope) <;> rfl
  rw [hlocal]
  constructor
  · intro h
    cases h with
    | own h => rw [ht.holds_iff.mp h, Option.some_or]
    | imported h himports hbefore hi =>
        rw [ht.holds_iff.mp h, Option.none_or]
        exact List.findSome?_eq_some_iff.mpr
          ⟨_, _, _, himports, ht.holds_iff.mp hi, fun j hj => ht.holds_iff.mp (hbefore j hj)⟩
    | nothing h himports =>
        rw [ht.holds_iff.mp h, Option.none_or]
        exact List.findSome?_eq_none_iff.mpr fun i hi => ht.holds_iff.mp (himports i hi)
  · intro h
    cases hown : pick (t.bindings scope) with
    | some a =>
        rw [hown, Option.some_or] at h
        exact h ▸ .own (ht.holds_iff.mpr hown)
    | none =>
        rw [hown, Option.none_or] at h
        cases found with
        | none =>
            exact .nothing (ht.holds_iff.mpr hown) fun i hi =>
              ht.holds_iff.mpr (List.findSome?_eq_none_iff.mp h i hi)
        | some a =>
            obtain ⟨before, i, after, himports, hi, hbefore⟩ := List.findSome?_eq_some_iff.mp h
            exact .imported (ht.holds_iff.mpr hown) himports
              (fun j hj => ht.holds_iff.mpr (hbefore j hj)) (ht.holds_iff.mpr hi)

theorem Ordered.finds {scope : Nat} (hscope : scope < t.size) :
    t.Finds pick scope (t.lookup? pick scope) := by
  induction scope using Nat.strong_induction_on with
  | _ scope ih =>
      cases hlocal : t.local? pick scope with
      | some a =>
          have hfound : t.lookup? pick scope = some a := by
            cases hparent : (t.get scope).parent with
            | none => rw [lookup?_of_parent_eq_none hscope hparent, hlocal]
            | some p => rw [ht.lookup?_of_parent hparent, hlocal, Option.some_or]
          rw [hfound]
          exact .here (ht.offers_iff.mpr hlocal)
      | none =>
          cases hparent : (t.get scope).parent with
          | none =>
              rw [lookup?_of_parent_eq_none hscope hparent, hlocal]
              exact .nowhere (ht.offers_iff.mpr hlocal) hparent
          | some p =>
              have hlt := ht.parent_lt hparent
              rw [ht.lookup?_of_parent hparent, hlocal, Option.none_or]
              exact .outside (ht.offers_iff.mpr hlocal) hparent (ih p hlt (hlt.trans hscope))

theorem Ordered.finds_functional
    {scope : Nat} {found found' : Option α} (h : t.Finds pick scope found)
    (h' : t.Finds pick scope found') : found = found' := by
  have hone : ∀ {scope} {r r' : Option α},
      t.Offers pick scope r → t.Offers pick scope r' → r = r' :=
    fun hr hr' => (ht.offers_iff.mp hr).symm.trans (ht.offers_iff.mp hr')
  induction h with
  | here h =>
      cases h' with
      | here h' => exact hone h h'
      | outside h' | nowhere h' => cases hone h h'
  | outside h hparent _ ih =>
      cases h' with
      | here h' => cases hone h h'
      | outside _ hparent' hp' =>
          obtain rfl := Option.some.inj (hparent.symm.trans hparent')
          exact ih hp'
      | nowhere _ hparent' => cases hparent.symm.trans hparent'
  | nowhere h hparent =>
      cases h' with
      | here h' => cases hone h h'
      | outside _ hparent' => cases hparent.symm.trans hparent'
      | nowhere => rfl

/-- A look-up that may take as many steps as there are scopes finds what one without a bound
finds. -/
theorem Ordered.finds_iff {scope : Nat} (hscope : scope < t.size) {found : Option α} :
    t.Finds pick scope found ↔ t.lookup? pick scope = found :=
  ⟨fun h => ht.finds_functional (ht.finds hscope) h, fun h => h ▸ ht.finds hscope⟩

end

/-- Whatever scopes come about, parents and write targets come before the scopes they belong to, a
scope has just the scopes for children whose parent it is, and the first scope is the root. So
walks and look-ups without a bound end, and they lead to what is computed. -/
theorem Reachable.wellFounded_and_finds_iff {t : ScopeTree} (ht : t.Reachable) :
    (∀ id p, (t.get id).parent = some p → p < id) ∧
    (∀ id target, (t.get id).writeTarget = some target → target < id) ∧
    (∀ p c, c ∈ (t.get p).children ↔ (t.get c).parent = some p) ∧
    (∀ p, (t.get p).children.Pairwise (· < ·)) ∧
    ((ScopeTree.create {} .root none none).1 = Model.root ∧ Model.root = 0 ∧ t.Rooted) ∧
    (∀ id store, t.KeptIn id store ↔ t.storage id = store) ∧
    (∀ id, (t.get (t.storage id)).writeTarget = none) ∧
    ∀ scope < t.size,
      (∀ walk, t.Climbs scope walk ↔ t.ancestors scope = walk) ∧
      ∀ name,
        (∀ found, t.Finds (·.classifiers[name]?) scope found ↔
          t.classifier? scope name = found) ∧
        (∀ found, t.Finds (·.namespaces[name]?) scope found ↔ t.namespace? scope name = found) ∧
        (∃ found, t.Finds (·.functions[name]?) scope found ∧
          t.functions scope name = found.getD []) ∧
        (∀ found, t.Finds (·.values[name]?) scope found ↔ t.value? scope name = found) ∧
        ∀ found, t.Finds (·.fields[name]?) scope found ↔ t.field? scope name = found := by
  have hordered := ht.closed.toOrdered
  have hchildren := ht.listsChildren
  refine ⟨fun _ _ => hordered.parent_lt, fun _ _ => hordered.target_lt,
    hchildren.mem_children_iff, hchildren.pairwise_children, ⟨rfl, rfl, ht.rooted⟩,
    fun _ _ => hordered.keptIn_iff, fun id => (hordered.keptIn id).writeTarget_eq_none,
    fun scope hscope => ⟨fun _ => hordered.climbs_iff hscope, fun name => ?_⟩⟩
  exact ⟨fun _ => hordered.finds_iff hscope, fun _ => hordered.finds_iff hscope,
    ⟨_, hordered.finds hscope, rfl⟩, fun _ => hordered.finds_iff hscope,
    fun _ => hordered.finds_iff hscope⟩

/-- The scopes of a file that imports the members of one namespace and has a part of another one
with a block in it. -/
def bridged : ScopeTree :=
  let t := (Model.initial.scopes.create .toplevel (some 0) none).2
  let t := (t.create .namespaceScope none none).2
  let t := (t.createWriteThrough 1 2).2
  let t := (t.create .namespaceScope none none).2
  let t := (t.create .block (some 3) none).2
  ((t.importScope 1 4).addVariable 3 "member" 7).addFunction 4 "helper" 8

theorem reachable_bridged : bridged.Reachable := by
  refine .addFunction (.addVariable (.importScope ?_ ?_ ?_) ?_ _ _) ?_ _ _
  · refine .create (.create (.createWriteThrough ?_ ?_ ?_) _ ?_ _) _ ?_ _
    · refine .create (.create .initial _ ?_ _) _ ?_ _
      · decide
      · decide
    all_goals decide
  all_goals decide

theorem wellFounded_and_finds_bridged :
    bridged.Reachable ∧ (bridged.get 3).children = [5] ∧ bridged.Climbs 5 [5, 3, 1, 0] ∧
    bridged.KeptIn 3 2 ∧ bridged.Finds (·.values["member"]?) 5 (some 7) ∧
    bridged.functions 5 "helper" = [8] := by
  obtain ⟨-, -, -, -, -, hkept, -, hwalks⟩ := reachable_bridged.wellFounded_and_finds_iff
  obtain ⟨hclimbs, hnames⟩ := hwalks 5 (by decide)
  exact ⟨reachable_bridged, by decide, (hclimbs _).mpr (by decide), (hkept 3 2).mpr (by decide),
    ((hnames "member").2.2.2.1 _).mpr (by decide), by decide⟩

end ScopeTree

end DeclAnalysis
