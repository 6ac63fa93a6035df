import DeclAnalysis.Proofs.Semantic.Surroundings

/-!
# Where backing fields are known

The backing field of a property is known under the name of the property in a scope that is made
for the purpose, and in the scopes inside it. Everywhere else no name of a field is bound. A view
says of the scopes of a tree what is found in them under the names of fields, and goes on holding
when scopes are added inside and variables are bound.
-/

namespace DeclAnalysis

namespace ScopeTree

variable {t : ScopeTree}

theorem fields_get_create
    (t : ScopeTree) {parent : Option Nat} (h : parent ≠ some t.size) (kind : ScopeKind)
    (owner : Option Nat) (id : Nat) :
    ((t.create kind parent owner).2.get id).bindings.fields = (t.get id).bindings.fields := by
  by_cases hid : id = t.size
  · subst hid
    rw [t.get_create_size h, t.get_of_size_le le_rfl]
  · obtain ⟨children, hget⟩ := t.get_create_of_ne hid kind parent owner
    rw [hget]

theorem fields_get_addVariable (t : ScopeTree) (scope : Nat) (name : String) (descriptor id : Nat) :
    ((t.addVariable scope name descriptor).get id).bindings.fields =
      (t.get id).bindings.fields := by
  unfold addVariable
  rcases t.get_bind_cases scope id _ with heq | ⟨-, heq⟩
  · rw [heq]
  · rw [heq]

theorem local?_eq_none
    {α : Type} {pick : Bindings → Option α} {id : Nat} (h : pick (t.bindings id) = none)
    (himports : ∀ i ∈ (t.get id).imports, pick (t.bindings i) = none) :
    t.local? pick id = none := by
  unfold local?
  rw [h, List.findSome?_eq_none_iff.mpr himports]
  rfl

/-! ## Where no field is known -/

/-- No name of a field is bound. -/
def Fieldless (t : ScopeTree) : Prop :=
  ∀ (id : Nat) (name : String), (t.get id).bindings.fields[name]? = none

theorem Fieldless.field?_eq_none (h : t.Fieldless) (scope : Nat) (name : String) :
    t.field? scope name = none := by
  refine List.findSome?_eq_none_iff.mpr fun id _ => ?_
  exact local?_eq_none (h _ name) fun i _ => h _ name

/-- In the scopes below a bound no name of a field is bound, and these import no others. -/
structure FieldlessBelow (bound : Nat) (t : ScopeTree) : Prop where
  ordered : t.Ordered
  bound_le : bound ≤ t.size
  fields_eq_none : ∀ {id : Nat}, id < bound → ∀ name : String,
    (t.get id).bindings.fields[name]? = none
  imports_lt : ∀ {id : Nat}, id < bound → ∀ i ∈ (t.get id).imports, i < bound

theorem FieldlessBelow.field?_eq_none
    {bound : Nat} (h : FieldlessBelow bound t) {scope : Nat} (hscope : scope < bound)
    (name : String) : t.field? scope name = none := by
  have hbindings : ∀ id, id < bound → (t.bindings id).fields[name]? = none := fun id hid =>
    h.fields_eq_none ((h.ordered.storage_le id).trans_lt hid) name
  have hlocal : ∀ id, id < bound → t.local? (·.fields[name]?) id = none := fun id hid =>
    local?_eq_none (hbindings id hid) fun i hi => hbindings i (h.imports_lt hid i hi)
  unfold field?
  induction scope using Nat.strong_induction_on with
  | _ scope ih =>
      cases hparent : (t.get scope).parent with
      | none =>
          rw [lookup?_of_parent_eq_none (hscope.trans_le h.bound_le) hparent, hlocal scope hscope]
      | some p =>
          have hlt := h.ordered.parent_lt hparent
          rw [h.ordered.lookup?_of_parent hparent, hlocal scope hscope,
            ih p hlt (hlt.trans hscope)]
          rfl

/-- Scopes may be added, and in those below the bound anything but fields may be bound. -/
theorem FieldlessBelow.of_nests
    {bound : Nat} (h : FieldlessBelow bound t) {t' : ScopeTree} (hnests : t.Nests t')
    (hordered : t'.Ordered)
    (hfields : ∀ id, id < bound → (t'.get id).bindings.fields = (t.get id).bindings.fields) :
    FieldlessBelow bound t' where
  ordered := hordered
  bound_le := h.bound_le.trans hnests.size_le
  fields_eq_none hid name := by
    rw [hfields _ hid]
    exact h.fields_eq_none hid name
  imports_lt hid i hi := by
    rw [hnests.imports_eq] at hi
    exact h.imports_lt hid i hi

/-! ## A scope for fields -/

/-- The scope stands in a scope below the bound, and what is known in it under the names of fields
is bound in it itself. -/
structure Fields (bound : Nat) (known : String → Option Nat) (scope : Nat) (t : ScopeTree) :
    Prop where
  below : FieldlessBelow bound t
  bound_le : bound ≤ scope
  lt_size : scope < t.size
  exists_parent : ∃ p, (t.get scope).parent = some p ∧ p < bound
  writeTarget_eq : (t.get scope).writeTarget = none
  imports_eq : (t.get scope).imports = []
  fields_eq : ∀ name : String, (t.get scope).bindings.fields[name]? = known name

theorem FieldlessBelow.create
    {bound : Nat} (h : FieldlessBelow bound t) {scope : Nat} (hscope : scope < bound)
    (kind : ScopeKind) (owner : Option Nat) :
    Fields bound (fun _ => none) t.size (t.create kind (some scope) owner).2 := by
  have hlt := hscope.trans_le h.bound_le
  have hne : some scope ≠ some t.size := fun heq => hlt.ne (Option.some.inj heq)
  have hget := t.get_create_size hne kind owner
  refine ⟨?_, h.bound_le, ?_, ⟨scope, ?_, hscope⟩, ?_, ?_, fun name => ?_⟩
  · refine h.of_nests (.create hne kind owner) (h.ordered.create ?_ kind owner) fun id _ => ?_
    · rintro _ ⟨⟩
      exact hlt
    · exact t.fields_get_create hne kind owner id
  · rw [size_create]
    exact Nat.lt_succ_self _
  all_goals rw [hget]
  exact Std.TreeMap.getElem?_emptyc

namespace Fields

variable {bound : Nat} {known : String → Option Nat} {scope : Nat}

theorem field?_eq (h : Fields bound known scope t) (name : String) :
    t.field? scope name = known name := by
  obtain ⟨p, hparent, hp⟩ := h.exists_parent
  have hlocal : t.local? (·.fields[name]?) scope = known name := by
    rw [local?_of_imports_eq_nil h.imports_eq]
    unfold bindings
    rw [storage_of_writeTarget_eq_none h.writeTarget_eq]
    exact h.fields_eq name
  have hnone : t.lookup? (·.fields[name]?) p = none := h.below.field?_eq_none hp name
  unfold field?
  rw [h.below.ordered.lookup?_of_parent hparent, hlocal, hnone, Option.or_none]

/-- One more field is made known, in place of an earlier one of the same name. -/
theorem addField (h : Fields bound known scope t) (name : String) (property : Nat) :
    Fields bound (fun x => if name = x then some property else known x) scope
      (t.addField scope name property) := by
  have hstorage := storage_of_writeTarget_eq_none h.writeTarget_eq
  have hget : (t.addField scope name property).get scope =
      { t.get scope with bindings :=
        { (t.get scope).bindings with
          fields := (t.get scope).bindings.fields.insert name property } } := by
    have hbind := t.get_bind_storage (hstorage.symm ▸ h.lt_size)
      fun b => { b with fields := b.fields.insert name property }
    rw [hstorage] at hbind
    exact hbind
  obtain ⟨p, hparent, hp⟩ := h.exists_parent
  refine ⟨?_, h.bound_le, ?_, ⟨p, ?_, hp⟩, ?_, ?_, fun x => ?_⟩
  · refine h.below.of_nests (.bind _ (fun _ => rfl) fun _ => rfl) (h.below.ordered.bind _ _) ?_
    intro id hid
    rcases t.get_bind_cases scope id _ with heq | ⟨hid', -⟩
    · exact congrArg (fun s : Scope => s.bindings.fields) heq
    · exact absurd (hid'.trans hstorage) (hid.trans_le h.bound_le).ne
  · exact h.lt_size.trans_eq (t.size_bind ..).symm
  · rw [hget]
    exact hparent
  · rw [hget]
    exact h.writeTarget_eq
  · rw [hget]
    exact h.imports_eq
  · rw [hget]
    dsimp only
    rw [Std.TreeMap.getElem?_insert, h.fields_eq]
    simp

/-- The properties that come later hide earlier ones of the same name. -/
theorem foldl_addField
    (name : Nat → String) (properties : List Nat) (h : Fields bound known scope t) :
    Fields bound
      (fun x => (properties.reverse.find? fun p => name p = x).or (known x)) scope
      (properties.foldl (fun t p => t.addField scope (name p) p) t) := by
  induction properties generalizing t known with
  | nil => exact h
  | cons p rest ih =>
      have hrest := ih (h.addField (name p) p)
      have hknown : ∀ x, ((p :: rest).reverse.find? fun p => name p = x).or (known x) =
          (rest.reverse.find? fun p => name p = x).or
            (if name p = x then some p else known x) := by
        intro x
        rw [List.reverse_cons, List.find?_append]
        by_cases hx : name p = x
        · simp [hx]
        · simp [hx]
      simp only [hknown]
      exact hrest

end Fields

/-! ## Views -/

/-- What is found in certain scopes under the names of fields. -/
structure View where
  /-- The property whose backing field is known under a name. -/
  known : String → Option Nat
  /-- The scopes of a tree in which the fields are known. -/
  holds : Nat → ScopeTree → Prop
  field?_eq : ∀ {scope : Nat} {t : ScopeTree}, holds scope t → ∀ name : String,
    t.field? scope name = known name
  create : ∀ {scope : Nat} {t : ScopeTree}, holds scope t → ∀ (kind : ScopeKind)
    (owner : Option Nat), holds t.size (t.create kind (some scope) owner).2 ∧
      ∀ {scope' : Nat}, holds scope' t → holds scope' (t.create kind (some scope) owner).2
  addVariable : ∀ {scope : Nat} {t : ScopeTree}, holds scope t → ∀ (scope' : Nat) (name : String)
    (descriptor : Nat), holds scope (t.addVariable scope' name descriptor)

namespace View

/-- As long as no name of a field is bound, none is found anywhere. -/
def nowhere : View where
  known _ := none
  holds _ t := t.Fieldless
  field?_eq h name := h.field?_eq_none _ name
  create {scope t} h kind owner := by
    have hcreate : (t.create kind (some scope) owner).2.Fieldless := by
      intro id name
      by_cases hid : id = t.size
      · subst hid
        by_cases hscope : scope = t.size
        · subst hscope
          have hget := get_modify_cases (⟨t.scopes.push { kind, parent := some t.size, owner }⟩)
            t.size t.size fun s => { s with children := s.children ++ [t.size] }
          rcases hget with heq | ⟨-, heq⟩
          all_goals
            refine (congrArg (fun s : Scope => s.bindings.fields[name]?) heq).trans ?_
            rw [get_push_size]
            exact Std.TreeMap.getElem?_emptyc
        · rw [t.fields_get_create (fun heq => hscope (Option.some.inj heq))]
          exact h _ name
      · obtain ⟨children, hget⟩ := t.get_create_of_ne hid kind (some scope) owner
        rw [hget]
        exact h id name
    exact ⟨hcreate, fun _ => hcreate⟩
  addVariable h scope' name descriptor id field := by
    rw [fields_get_addVariable]
    exact h id field

/-- The fields are known in a scope, and none are in the scopes below a bound. -/
structure Knows (bound : Nat) (known : String → Option Nat) (scope : Nat) (t : ScopeTree) :
    Prop where
  below : FieldlessBelow bound t
  lt_size : scope < t.size
  field?_eq : ∀ name : String, t.field? scope name = known name

/-- Scopes of which the surroundings stay as they are go on knowing the fields. -/
theorem Knows.of_nests
    {bound : Nat} {known : String → Option Nat} {scope : Nat} {t' : ScopeTree}
    (h : Knows bound known scope t) (hnests : t.Nests t') (hordered : t'.Ordered)
    (hfields : ∀ id, (t'.get id).bindings.fields = (t.get id).bindings.fields) :
    Knows bound known scope t' where
  below := h.below.of_nests hnests hordered fun id _ => hfields id
  lt_size := h.lt_size.trans_le hnests.size_le
  field?_eq name := by
    have hpick : ∀ id, (t'.get id).bindings.fields[name]? = (t.get id).bindings.fields[name]? :=
      fun id => congrArg (fun fields => fields[name]?) (hfields id)
    have hlookup : t'.field? scope name = t.field? scope name :=
      hnests.lookup?_eq hpick h.below.ordered hordered h.lt_size
    exact hlookup.trans (h.field?_eq name)

/-- The fields are known in a scope and inside it, but in no scope below the bound. -/
def inside (bound : Nat) (known : String → Option Nat) : View where
  known := known
  holds := Knows bound known
  field?_eq h := h.field?_eq
  create {scope t} h kind owner := by
    have hne : some scope ≠ some t.size := fun heq => h.lt_size.ne (Option.some.inj heq)
    have hordered : (t.create kind (some scope) owner).2.Ordered := by
      refine h.below.ordered.create ?_ kind owner
      rintro _ ⟨⟩
      exact h.lt_size
    have hkept : ∀ {scope'}, Knows bound known scope' t →
        Knows bound known scope' (t.create kind (some scope) owner).2 := fun h' =>
      h'.of_nests (.create hne kind owner) hordered (t.fields_get_create hne kind owner)
    refine ⟨⟨(hkept h).below, ?_, fun name => ?_⟩, hkept⟩
    · rw [size_create]
      exact Nat.lt_succ_self _
    · have hget := t.get_create_size hne kind owner
      have hinner : (t.create kind (some scope) owner).2.field? t.size name =
          (t.create kind (some scope) owner).2.field? scope name := by
        refine hordered.lookup?_inner ?_ ?_ ?_ ?_
        all_goals rw [hget]
        exact Std.TreeMap.getElem?_emptyc
      exact hinner.trans ((hkept h).field?_eq name)
  addVariable {scope t} h scope' name descriptor :=
    h.of_nests (.bind _ (fun _ => rfl) fun _ => rfl) (h.below.ordered.bind _ _)
      (t.fields_get_addVariable scope' name descriptor)

end View

theorem FieldlessBelow.knows
    {bound : Nat} (h : FieldlessBelow bound t) {scope : Nat} (hscope : scope < bound) :
    (View.inside bound fun _ => none).holds scope t :=
  ⟨h, hscope.trans_le h.bound_le, h.field?_eq_none hscope⟩

theorem Fields.knows
    {bound : Nat} {known : String → Option Nat} {scope : Nat} (h : Fields bound known scope t) :
    (View.inside bound known).holds scope t :=
  ⟨h.below, h.lt_size, h.field?_eq⟩

end ScopeTree

end DeclAnalysis
