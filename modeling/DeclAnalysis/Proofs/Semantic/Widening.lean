import DeclAnalysis.Proofs.Session.Change
import DeclAnalysis.Proofs.Semantic.Surroundings

/-!
# Adding scopes

While declarations are collected, scopes are added and names are bound, but what is around a
scope, where its bindings are kept and what it belongs to never changes. So the declaration
that contains a scope stays the same as well.
-/

namespace DeclAnalysis

namespace ScopeTree

/-- Scopes have been added; what is around the others has not changed. -/
structure Widens (t t' : ScopeTree) : Prop where
  size_le : t.size ≤ t'.size
  parent_eq : ∀ id, id < t.size → (t'.get id).parent = (t.get id).parent
  writeTarget_eq : ∀ id, id < t.size → (t'.get id).writeTarget = (t.get id).writeTarget
  owner_eq : ∀ id, id < t.size → (t'.get id).owner = (t.get id).owner

variable {t t' t'' : ScopeTree}

theorem Nests.widens (h : t.Nests t') : t.Widens t' :=
  ⟨h.size_le, h.parent_eq, fun id _ => h.writeTarget_eq id, h.owner_eq⟩

theorem Ordered.containingDeclaration?_of_parent
    (h : t.Ordered) {id p : Nat} (hparent : (t.get id).parent = some p) :
    t.containingDeclaration? id = (t.get id).owner.or (t.containingDeclaration? p) := by
  unfold containingDeclaration?
  rw [h.ancestors_of_parent hparent, List.findSome?_cons]
  cases (t.get id).owner with
  | none => rfl
  | some owner => rfl

theorem containingDeclaration?_of_parent_eq_none
    {id : Nat} (hid : id < t.size) (hparent : (t.get id).parent = none) :
    t.containingDeclaration? id = (t.get id).owner := by
  unfold containingDeclaration?
  rw [ancestors_of_parent_eq_none hid hparent, List.findSome?_singleton]

namespace Widens

theorem refl (t : ScopeTree) : t.Widens t :=
  ⟨Nat.le_refl _, fun _ _ => rfl, fun _ _ => rfl, fun _ _ => rfl⟩

theorem trans (h : t.Widens t') (h' : t'.Widens t'') : t.Widens t'' where
  size_le := h.size_le.trans h'.size_le
  parent_eq id hid := (h'.parent_eq id (hid.trans_le h.size_le)).trans (h.parent_eq id hid)
  writeTarget_eq id hid :=
    (h'.writeTarget_eq id (hid.trans_le h.size_le)).trans (h.writeTarget_eq id hid)
  owner_eq id hid := (h'.owner_eq id (hid.trans_le h.size_le)).trans (h.owner_eq id hid)

/-- Changing anything but what is around a scope. -/
theorem modify
    (t : ScopeTree) (id : Nat) {f : Scope → Scope} (hparent : ∀ s, (f s).parent = s.parent)
    (htarget : ∀ s, (f s).writeTarget = s.writeTarget) (howner : ∀ s, (f s).owner = s.owner) :
    t.Widens (t.modify id f) :=
  ⟨(t.size_modify ..).ge, fun id' _ => t.apply_get_modify Scope.parent f hparent id id',
    fun id' _ => t.apply_get_modify Scope.writeTarget f htarget id id',
    fun id' _ => t.apply_get_modify Scope.owner f howner id id'⟩

theorem bind (t : ScopeTree) (scope : Nat) (f : Bindings → Bindings) :
    t.Widens (t.bind scope f) :=
  modify t _ (fun _ => rfl) (fun _ => rfl) fun _ => rfl

theorem create (t : ScopeTree) (kind : ScopeKind) (parent owner : Option Nat) :
    t.Widens (t.create kind parent owner).2 := by
  let grown : ScopeTree := ⟨t.scopes.push { kind, parent, owner }⟩
  have hgrown : t.Widens grown := by
    have hget : ∀ id, id < t.size → grown.get id = t.get id :=
      fun id hid => t.get_push_of_ne hid.ne _
    refine ⟨?_, fun id hid => ?_, fun id hid => ?_, fun id hid => ?_⟩
    · exact (Nat.le_succ _).trans_eq (Array.size_push _).symm
    · rw [hget id hid]
    · rw [hget id hid]
    · rw [hget id hid]
  cases parent with
  | none => exact hgrown
  | some p =>
      have hlisted := modify grown p (f := fun s => { s with children := s.children ++ [t.size] })
        (fun _ => rfl) (fun _ => rfl) fun _ => rfl
      exact hgrown.trans hlisted

theorem importScope (t : ScopeTree) (scope imported : Nat) :
    t.Widens (t.importScope scope imported) :=
  modify t _ (fun _ => rfl) (fun _ => rfl) fun _ => rfl

variable (h : t.Widens t') (ht : t.Ordered) (ht' : t'.Ordered) {id : Nat} (hid : id < t.size)

include h ht ht' hid

theorem storage_eq : t'.storage id = t.storage id := by
  induction id using Nat.strong_induction_on with
  | _ id ih =>
      have htarget' := h.writeTarget_eq id hid
      cases htarget : (t.get id).writeTarget with
      | none =>
          rw [storage_of_writeTarget_eq_none htarget,
            storage_of_writeTarget_eq_none (htarget'.trans htarget)]
      | some target =>
          have hlt := ht.target_lt htarget
          rw [ht.storage_of_writeTarget htarget,
            ht'.storage_of_writeTarget (htarget'.trans htarget)]
          exact ih target hlt (hlt.trans hid)

theorem containingDeclaration?_eq :
    t'.containingDeclaration? id = t.containingDeclaration? id := by
  induction id using Nat.strong_induction_on with
  | _ id ih =>
      have hparent' := h.parent_eq id hid
      have howner := h.owner_eq id hid
      cases hparent : (t.get id).parent with
      | none =>
          rw [containingDeclaration?_of_parent_eq_none hid hparent,
            containingDeclaration?_of_parent_eq_none (hid.trans_le h.size_le)
              (hparent'.trans hparent), howner]
      | some p =>
          have hlt := ht.parent_lt hparent
          rw [ht.containingDeclaration?_of_parent hparent,
            ht'.containingDeclaration?_of_parent (hparent'.trans hparent), howner,
            ih p hlt (hlt.trans hid)]

end Widens

/-! ## Write-through scopes -/

theorem Ordered.createWriteThrough
    (h : t.Ordered) {outer target : Nat} (houter : outer < t.size)
    (htarget : target < t.size) : (t.createWriteThrough outer target).2.Ordered := by
  have hparent : ∀ p, some outer = some p → p < t.size := by
    rintro _ ⟨⟩
    exact houter
  have hcreate := h.create hparent .writeThrough (t.get target).owner
  have hid : (t.create .writeThrough (some outer) (t.get target).owner).1 = t.size :=
    t.fst_create ..
  unfold ScopeTree.createWriteThrough
  dsimp only
  rw [hid]
  refine ⟨fun {id p} hp => ?_, fun {id target'} hw => ?_⟩
  · rcases get_modify_cases _ t.size id _ with heq | ⟨-, heq⟩
    · rw [heq] at hp
      exact hcreate.parent_lt hp
    · rw [heq] at hp
      exact hcreate.parent_lt hp
  · rcases get_modify_cases _ t.size id _ with heq | ⟨rfl, heq⟩
    · rw [heq] at hw
      exact hcreate.target_lt hw
    · rw [heq] at hw
      obtain rfl := Option.some.inj hw
      exact htarget

/-! ## Scopes that stay as they are -/

/-- Where bindings are kept depends on the write targets alone. -/
theorem storage_congr
    (hsize : t'.size = t.size)
    (htarget : ∀ id, (t'.get id).writeTarget = (t.get id).writeTarget) (scope : Nat) :
    t'.storage scope = t.storage scope := by
  have hwithin : ∀ steps id, t'.storageWithin steps id = t.storageWithin steps id := by
    intro steps
    induction steps with
    | zero => exact fun _ => rfl
    | succ steps ih =>
        intro id
        unfold storageWithin
        rw [htarget]
        split
        · rfl
        · exact ih _
  unfold storage
  rw [hsize, hwithin]

/-- The way upwards depends on the parents alone. -/
theorem ancestors_congr
    (hsize : t'.size = t.size) (hparent : ∀ id, (t'.get id).parent = (t.get id).parent)
    (scope : Nat) : t'.ancestors scope = t.ancestors scope := by
  have hchain : ∀ steps id, t'.chain steps id = t.chain steps id := by
    intro steps
    induction steps with
    | zero => exact fun _ => rfl
    | succ steps ih =>
        intro id
        unfold chain
        rw [hparent]
        split
        · rfl
        · rw [ih]
  unfold ancestors
  rw [hsize, hchain]

/-- No scopes have been added, and the others have changed at most in the names that are bound in
them. -/
structure SamePlaces (t t' : ScopeTree) : Prop where
  size_eq : t'.size = t.size
  get_eq : ∀ id, ∃ bindings, t'.get id = { t.get id with bindings }

namespace SamePlaces

theorem refl (t : ScopeTree) : t.SamePlaces t := ⟨rfl, fun id => ⟨(t.get id).bindings, rfl⟩⟩

theorem trans (h : t.SamePlaces t') (h' : t'.SamePlaces t'') : t.SamePlaces t'' := by
  refine ⟨h'.size_eq.trans h.size_eq, fun id => ?_⟩
  obtain ⟨bindings, hget⟩ := h.get_eq id
  obtain ⟨bindings', hget'⟩ := h'.get_eq id
  exact ⟨bindings', by rw [hget', hget]⟩

theorem bind (t : ScopeTree) (scope : Nat) (f : Bindings → Bindings) :
    t.SamePlaces (t.bind scope f) := by
  refine ⟨t.size_bind .., fun id => ?_⟩
  rcases t.get_bind_cases scope id f with hget | ⟨-, hget⟩
  · exact ⟨(t.get id).bindings, hget⟩
  · exact ⟨f (t.get id).bindings, hget⟩

theorem addFunction (t : ScopeTree) (scope : Nat) (name : String) (descriptor : Nat) :
    t.SamePlaces (t.addFunction scope name descriptor) :=
  bind ..

theorem addVariable (t : ScopeTree) (scope : Nat) (name : String) (descriptor : Nat) :
    t.SamePlaces (t.addVariable scope name descriptor) :=
  bind ..

variable (h : t.SamePlaces t')

include h

theorem parent_eq (id : Nat) : (t'.get id).parent = (t.get id).parent := by
  obtain ⟨bindings, hget⟩ := h.get_eq id
  rw [hget]

theorem owner_eq (id : Nat) : (t'.get id).owner = (t.get id).owner := by
  obtain ⟨bindings, hget⟩ := h.get_eq id
  rw [hget]

theorem writeTarget_eq (id : Nat) : (t'.get id).writeTarget = (t.get id).writeTarget := by
  obtain ⟨bindings, hget⟩ := h.get_eq id
  rw [hget]

theorem imports_eq (id : Nat) : (t'.get id).imports = (t.get id).imports := by
  obtain ⟨bindings, hget⟩ := h.get_eq id
  rw [hget]

theorem storage_eq (scope : Nat) : t'.storage scope = t.storage scope :=
  storage_congr h.size_eq h.writeTarget_eq scope

theorem ancestors_eq (scope : Nat) : t'.ancestors scope = t.ancestors scope :=
  ancestors_congr h.size_eq h.parent_eq scope

theorem containingDeclaration?_eq (scope : Nat) :
    t'.containingDeclaration? scope = t.containingDeclaration? scope := by
  unfold containingDeclaration?
  rw [h.ancestors_eq]
  simp only [h.owner_eq]

end SamePlaces

/-! ## A single new scope -/

/-- One scope has been added; others have changed at most in having it as a child and in the
names that are bound in them. -/
structure Adds (new : Scope) (t t' : ScopeTree) : Prop where
  size_eq : t'.size = t.size + 1
  get_new : t'.get t.size = new
  get_old : ∀ id, id ≠ t.size →
    ∃ children bindings, t'.get id = { t.get id with children, bindings }

namespace Adds

variable {new : Scope}

/-- A new scope, as it is created. -/
theorem create
    {parent : Option Nat} (hparent : parent ≠ some t.size) (kind : ScopeKind)
    (owner : Option Nat) : Adds { kind, parent, owner } t (t.create kind parent owner).2 := by
  refine ⟨t.size_create .., t.get_create_size hparent kind owner, fun id hid => ?_⟩
  obtain ⟨children, hget⟩ := t.get_create_of_ne hid kind parent owner
  exact ⟨children, (t.get id).bindings, hget⟩

/-- The new scope may still be changed. -/
theorem modify_new (h : Adds new t t') (f : Scope → Scope) :
    Adds (f new) t (t'.modify t.size f) := by
  refine ⟨(t'.size_modify ..).trans h.size_eq, ?_, fun id hid => ?_⟩
  · have hlt : t.size < t'.size := h.size_eq ▸ Nat.lt_succ_self _
    rw [t'.get_modify_self hlt, h.get_new]
  · rw [t'.get_modify_of_ne hid]
    exact h.get_old id hid

/-- Names may be bound in another scope. -/
theorem bind (h : Adds new t t') {scope : Nat} (hscope : t'.storage scope ≠ t.size)
    (f : Bindings → Bindings) : Adds new t (t'.bind scope f) := by
  refine ⟨(t'.size_bind ..).trans h.size_eq, ?_, fun id hid => ?_⟩
  · rcases t'.get_bind_cases scope t.size f with heq | ⟨hstorage, -⟩
    · exact heq.trans h.get_new
    · exact absurd hstorage.symm hscope
  · obtain ⟨children, bindings, hget⟩ := h.get_old id hid
    rcases t'.get_bind_cases scope id f with heq | ⟨-, heq⟩
    · exact ⟨children, bindings, heq.trans hget⟩
    · exact ⟨children, f bindings, by rw [heq, hget]⟩

theorem setOwner
    {parent : Option Nat} (hparent : parent ≠ some t.size) (kind : ScopeKind) (owner : Nat) :
    Adds { kind, parent, owner := some owner } t
      ((t.create kind parent none).2.setOwner t.size owner) :=
  (create hparent kind none).modify_new fun s => { s with owner := some owner }

theorem createWriteThrough {outer : Nat} (houter : outer < t.size) (target : Nat) :
    Adds { kind := .writeThrough, parent := some outer, owner := (t.get target).owner,
           writeTarget := some target } t (t.createWriteThrough outer target).2 := by
  have hparent : some outer ≠ some t.size := fun heq => houter.ne (Option.some.inj heq)
  have hid : (t.create .writeThrough (some outer) (t.get target).owner).1 = t.size :=
    t.fst_create ..
  unfold ScopeTree.createWriteThrough
  dsimp only
  rw [hid]
  exact (create hparent .writeThrough (t.get target).owner).modify_new
    fun s => { s with writeTarget := some target }

variable (h : Adds new t t')

include h

theorem widens : t.Widens t' := by
  have hold : ∀ {id}, id < t.size →
      ∃ children bindings, t'.get id = { t.get id with children, bindings } :=
    fun hid => h.get_old _ hid.ne
  refine ⟨h.size_eq ▸ Nat.le_succ _, fun id hid => ?_, fun id hid => ?_, fun id hid => ?_⟩
  · obtain ⟨children, bindings, hget⟩ := hold hid
    rw [hget]
  · obtain ⟨children, bindings, hget⟩ := hold hid
    rw [hget]
  · obtain ⟨children, bindings, hget⟩ := hold hid
    rw [hget]

/-- A scope without imports has been added. -/
theorem imports_eq (hnew : new.imports = []) (id : Nat) :
    (t'.get id).imports = (t.get id).imports := by
  by_cases hid : id = t.size
  · rw [hid, h.get_new, t.get_of_size_le le_rfl, hnew]
  · obtain ⟨children, bindings, hget⟩ := h.get_old id hid
    rw [hget]

end Adds

/-! ## A scope for the members of a declaration -/

/-- Creating a scope for a declaration binds no names. -/
theorem bindings_get_setOwner_create
    (t : ScopeTree) (kind : ScopeKind) (parent : Option Nat) (scope owner id : Nat) :
    (((t.create kind parent none).2.setOwner scope owner).get id).bindings =
      (t.get id).bindings :=
  ((t.create kind parent none).2.apply_get_modify Scope.bindings
    (fun s => { s with owner := some owner }) (fun _ => rfl) scope id).trans
    (t.bindings_get_create kind parent none id)

section

variable (ht : t.Ordered) {parent : Option Nat} (hparent : ∀ p, parent = some p → p < t.size)
  (kind : ScopeKind) (owner : Nat) {scope : Nat} (hscope : scope < t.size)

include ht hparent

theorem Ordered.setOwner_create :
    ((t.create kind parent none).2.setOwner t.size owner).Ordered :=
  (ht.create hparent kind none).modify _ (fun _ => rfl) fun _ => rfl

include hscope

theorem storage_setOwner_create_lt :
    ((t.create kind parent none).2.setOwner t.size owner).storage scope <
      ((t.create kind parent none).2.setOwner t.size owner).size :=
  (ht.setOwner_create hparent kind owner).storage_lt
    (hscope.trans_le (Adds.setOwner (fun heq => (hparent _ heq).ne rfl) kind owner).widens.size_le)

theorem storage_setOwner_create :
    ((t.create kind parent none).2.setOwner t.size owner).storage scope = t.storage scope :=
  (Adds.setOwner (fun heq => (hparent _ heq).ne rfl) kind owner).widens.storage_eq ht
    (ht.setOwner_create hparent kind owner) hscope

/-- The scope is added, and the declaration is made known in another one. -/
theorem adds_bind_setOwner_create (f : Bindings → Bindings) :
    Adds { kind, parent, owner := some owner } t
      (((t.create kind parent none).2.setOwner t.size owner).bind scope f) := by
  refine (Adds.setOwner (fun heq => (hparent _ heq).ne rfl) kind owner).bind ?_ f
  rw [storage_setOwner_create ht hparent kind owner hscope]
  exact (ht.storage_lt hscope).ne

end

end ScopeTree

end DeclAnalysis
