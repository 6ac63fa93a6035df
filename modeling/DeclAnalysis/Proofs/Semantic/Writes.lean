import DeclAnalysis.Proofs.Semantic.Walks

/-!
# Where bindings are seen

A name that is bound in a scope is bound for every scope that keeps its bindings in the same place,
and for those that import such a scope and do not bind the name themselves. A scope that is imported
shows in the importing scope alone, and only names that are not bound there are looked up in it. So
no other look-up changes, whatever name it is for and wherever it begins.
-/

namespace DeclAnalysis

/-! ## Kinds of names -/

/-- The kinds of names that a scope binds. -/
inductive NameKind where
  | classifier
  | namespaceName
  | function
  | value
  | field
deriving DecidableEq, Repr

namespace NameKind

/-- What a name of a kind is bound to. Only functions share their names. -/
abbrev Entry : NameKind → Type
  | function => List Nat
  | _ => Nat

/-- What the name is bound to. -/
def pick (name : String) : (kind : NameKind) → Bindings → Option kind.Entry
  | classifier, b => b.classifiers[name]?
  | namespaceName, b => b.namespaces[name]?
  | function, b => b.functions[name]?
  | value, b => b.values[name]?
  | field, b => b.fields[name]?

/-- What a name is bound to when it is bound once more: a function stands beside the former ones,
and everything else takes their place. -/
def extend (descriptor : Nat) : (kind : NameKind) → Option kind.Entry → kind.Entry
  | function, former => former.getD [] ++ [descriptor]
  | classifier, _ | namespaceName, _ | value, _ | field, _ => descriptor

/-- The bindings in which the name is bound once more. -/
def bound (name : String) (descriptor : Nat) : NameKind → Bindings → Bindings
  | classifier, b => { b with classifiers := b.classifiers.insert name descriptor }
  | namespaceName, b => { b with namespaces := b.namespaces.insert name descriptor }
  | function, b =>
    { b with functions := b.functions.insert name (b.functions.getD name [] ++ [descriptor]) }
  | value, b => { b with values := b.values.insert name descriptor }
  | field, b => { b with fields := b.fields.insert name descriptor }

variable (name : String) (descriptor : Nat) (b : Bindings)

theorem pick_bound_self (kind : NameKind) :
    kind.pick name (kind.bound name descriptor b) =
      some (kind.extend descriptor (kind.pick name b)) := by
  cases kind with
  | function =>
      simp only [pick, bound, extend, Std.TreeMap.getElem?_insert_self,
        Std.TreeMap.getD_eq_getD_getElem?]
  | classifier | namespaceName | value | field => exact Std.TreeMap.getElem?_insert_self

theorem pick_bound_of_name_ne (kind : NameKind) {name' : String} (h : name' ≠ name) :
    kind.pick name' (kind.bound name descriptor b) = kind.pick name' b := by
  have hne : ¬compare name name' = .eq := by simpa using h.symm
  cases kind <;> simp only [pick, bound, Std.TreeMap.getElem?_insert, if_neg hne]

theorem pick_bound_of_kind_ne {kind kind' : NameKind} (h : kind' ≠ kind) (name' : String) :
    kind'.pick name' (kind.bound name descriptor b) = kind'.pick name' b := by
  cases kind <;> cases kind' <;> first | rfl | exact absurd rfl h

end NameKind

namespace ScopeTree

/-- Binds a name of a kind in a scope. -/
def add (t : ScopeTree) : NameKind → Nat → String → Nat → ScopeTree
  | .classifier => t.addClassifier
  | .namespaceName => t.addNamespace
  | .function => t.addFunction
  | .value => t.addVariable
  | .field => t.addField

theorem add_eq_bind (t : ScopeTree) (kind : NameKind) (scope : Nat) (name : String)
    (descriptor : Nat) :
    t.add kind scope name descriptor = t.bind scope (kind.bound name descriptor) := by
  cases kind <;> rfl

/-! ## What look-ups depend on -/

section

variable {α : Type} {pick : Bindings → Option α} {t t' : ScopeTree} {scope : Nat}

/-- Imports are asked only for what the scope itself does not bind. -/
theorem local?_congr
    (hown : pick (t'.bindings scope) = pick (t.bindings scope))
    (himports : (t'.get scope).imports = (t.get scope).imports)
    (himported : pick (t.bindings scope) = none →
      ∀ i ∈ (t.get scope).imports, pick (t'.bindings i) = pick (t.bindings i)) :
    t'.local? pick scope = t.local? pick scope := by
  unfold local?
  rw [hown, himports]
  cases hpick : pick (t.bindings scope) with
  | some a => rfl
  | none =>
      have hfound : ∀ is : List Nat, (∀ i ∈ is, i ∈ (t.get scope).imports) →
          is.findSome? (fun i => pick (t'.bindings i)) =
            is.findSome? fun i => pick (t.bindings i) := by
        intro is his
        induction is with
        | nil => rfl
        | cons i is ih =>
            obtain ⟨hi, his⟩ := List.forall_mem_cons.mp his
            rw [List.findSome?_cons, List.findSome?_cons, himported hpick i hi, ih his]
      rw [hfound _ fun _ hi => hi]

theorem local?_of_bindings {a : α} (h : pick (t.bindings scope) = some a) :
    t.local? pick scope = some a := by
  unfold local?
  rw [h]
  rfl

/-- A look-up changes only if what one of the scopes on the way binds does. -/
theorem exists_mem_of_lookup?_ne
    (hancestors : t'.ancestors scope = t.ancestors scope)
    (h : t'.lookup? pick scope ≠ t.lookup? pick scope) :
    ∃ nearer a farther, t.ancestors scope = nearer ++ a :: farther ∧
      (∀ b ∈ nearer, t.local? pick b = none) ∧ t'.local? pick a ≠ t.local? pick a := by
  unfold lookup? at h
  rw [hancestors] at h
  generalize t.ancestors scope = way at h
  induction way with
  | nil => exact absurd rfl h
  | cons a way ih =>
      by_cases ha : t'.local? pick a = t.local? pick a
      · rw [List.findSome?_cons, List.findSome?_cons, ha] at h
        cases hlocal : t.local? pick a with
        | some found =>
            rw [hlocal] at h
            exact absurd rfl h
        | none =>
            rw [hlocal] at h
            obtain ⟨nearer, c, farther, rfl, hnearer, hc⟩ := ih h
            exact ⟨a :: nearer, c, farther, rfl, List.forall_mem_cons.mpr ⟨hlocal, hnearer⟩, hc⟩
      · exact ⟨[], a, way, rfl, nofun, ha⟩

end

/-! ## Binding a name -/

section

variable (t : ScopeTree) {scope : Nat} (f : Bindings → Bindings) {id : Nat}

theorem bindings_bind_of_storage_eq
    (hscope : t.storage scope < t.size) (h : t.storage id = t.storage scope) :
    (t.bind scope f).bindings id = f (t.bindings id) := by
  unfold bindings
  rw [(SamePlaces.bind t scope f).storage_eq, h, t.get_bind_storage hscope]

theorem bindings_bind_of_storage_ne (h : t.storage id ≠ t.storage scope) :
    (t.bind scope f).bindings id = t.bindings id := by
  unfold bindings bind
  rw [← bind, (SamePlaces.bind t scope f).storage_eq, bind, get_modify_of_ne _ h]

end

/-- A scope in which a name of a kind that is bound in another one is seen: it keeps its bindings
where the other one does, or it does not bind the name and imports a scope that does so. -/
def Sees (t : ScopeTree) (kind : NameKind) (name : String) (scope id : Nat) : Prop :=
  t.storage id = t.storage scope ∨
    kind.pick name (t.bindings id) = none ∧
      ∃ i ∈ (t.get id).imports, t.storage i = t.storage scope

section

variable {t : ScopeTree} {kind kind' : NameKind} {scope id descriptor : Nat} {name name' : String}

theorem local?_add_of_storage_eq
    (hscope : t.storage scope < t.size) (h : t.storage id = t.storage scope) :
    (t.add kind scope name descriptor).local? (kind.pick name) id =
      some (kind.extend descriptor (kind.pick name (t.bindings scope))) := by
  have hsame : t.bindings id = t.bindings scope := by
    unfold bindings
    rw [h]
  apply local?_of_bindings
  rw [add_eq_bind, t.bindings_bind_of_storage_eq _ hscope h, NameKind.pick_bound_self, hsame]

/-- What is picked from the bindings of a scope stays the same unless the name is bound in it. -/
theorem pick_bindings_add
    (hscope : t.storage scope < t.size)
    (h : kind' = kind → name' = name → t.storage id ≠ t.storage scope) :
    kind'.pick name' ((t.add kind scope name descriptor).bindings id) =
      kind'.pick name' (t.bindings id) := by
  rw [add_eq_bind]
  by_cases hid : t.storage id = t.storage scope
  · rw [t.bindings_bind_of_storage_eq _ hscope hid]
    by_cases hkind : kind' = kind
    · subst hkind
      exact NameKind.pick_bound_of_name_ne _ _ _ _ fun hname => h rfl hname hid
    · exact NameKind.pick_bound_of_kind_ne _ _ _ hkind _
  · rw [t.bindings_bind_of_storage_ne _ hid]

theorem imports_add (id : Nat) :
    ((t.add kind scope name descriptor).get id).imports = (t.get id).imports := by
  rw [add_eq_bind]
  exact (SamePlaces.bind ..).imports_eq id

theorem ancestors_add (id : Nat) :
    (t.add kind scope name descriptor).ancestors id = t.ancestors id := by
  rw [add_eq_bind]
  exact (SamePlaces.bind ..).ancestors_eq id

theorem sees_of_local?_add_ne
    (hscope : t.storage scope < t.size)
    (h : (t.add kind scope name descriptor).local? (kind'.pick name') id ≠
      t.local? (kind'.pick name') id) :
    kind' = kind ∧ name' = name ∧ t.Sees kind name scope id := by
  by_contra hno
  apply h
  apply local?_congr _ (imports_add id)
  · intro hunbound i hi
    apply pick_bindings_add hscope
    rintro rfl rfl hstorage
    exact hno ⟨rfl, rfl, .inr ⟨hunbound, i, hi, hstorage⟩⟩
  · apply pick_bindings_add hscope
    rintro rfl rfl hstorage
    exact hno ⟨rfl, rfl, .inl hstorage⟩

theorem exists_sees_of_lookup?_add_ne
    (hscope : t.storage scope < t.size)
    (h : (t.add kind scope name descriptor).lookup? (kind'.pick name') id ≠
      t.lookup? (kind'.pick name') id) :
    kind' = kind ∧ name' = name ∧ ∃ a ∈ t.ancestors id, t.Sees kind name scope a := by
  obtain ⟨nearer, a, farther, hancestors, -, ha⟩ :=
    exists_mem_of_lookup?_ne (ancestors_add id) h
  obtain ⟨hkind, hname, hsees⟩ := sees_of_local?_add_ne hscope ha
  refine ⟨hkind, hname, a, ?_, hsees⟩
  rw [hancestors]
  exact List.mem_append_right _ List.mem_cons_self

end

/-! ## Importing a scope -/

section

variable {α : Type} {pick : Bindings → Option α} {t : ScopeTree} {scope imported id : Nat}

theorem apply_get_importScope
    {β : Type} (p : Scope → β) (hp : ∀ s imports, p { s with imports } = p s) (id : Nat) :
    p ((t.importScope scope imported).get id) = p (t.get id) :=
  t.apply_get_modify p (fun s => { s with imports := s.imports ++ [imported] })
    (fun s => hp s _) scope id

theorem ancestors_importScope (id : Nat) :
    (t.importScope scope imported).ancestors id = t.ancestors id :=
  ancestors_congr (t.size_modify ..) (apply_get_importScope Scope.parent fun _ _ => rfl) id

theorem bindings_importScope (id : Nat) :
    (t.importScope scope imported).bindings id = t.bindings id := by
  have hstorage : (t.importScope scope imported).storage id = t.storage id :=
    storage_congr (t.size_modify ..) (apply_get_importScope Scope.writeTarget fun _ _ => rfl) id
  unfold bindings
  rw [hstorage]
  exact apply_get_importScope Scope.bindings (fun _ _ => rfl) _

theorem eq_of_local?_importScope_ne
    (h : (t.importScope scope imported).local? pick id ≠ t.local? pick id) :
    id = scope ∧ pick (t.bindings scope) = none := by
  by_cases hid : id = scope
  · subst hid
    refine ⟨rfl, ?_⟩
    by_contra hbound
    obtain ⟨a, ha⟩ := Option.ne_none_iff_exists'.mp hbound
    apply h
    rw [local?_of_bindings ha]
    apply local?_of_bindings
    rw [bindings_importScope, ha]
  · refine absurd (local?_congr ?_ ?_ ?_) h
    · rw [bindings_importScope]
    · rw [importScope, get_modify_of_ne _ hid]
    · intro _ i _
      rw [bindings_importScope]

/-- A look-up is changed by an import only if it comes to the importing scope without having found
anything, and finds nothing among the bindings of that scope either. -/
theorem exists_of_lookup?_importScope_ne
    (h : (t.importScope scope imported).lookup? pick id ≠ t.lookup? pick id) :
    ∃ nearer farther, t.ancestors id = nearer ++ scope :: farther ∧
      (∀ a ∈ nearer, t.local? pick a = none) ∧ pick (t.bindings scope) = none := by
  obtain ⟨nearer, a, farther, hancestors, hnearer, ha⟩ :=
    exists_mem_of_lookup?_ne (ancestors_importScope id) h
  obtain ⟨rfl, hunbound⟩ := eq_of_local?_importScope_ne ha
  exact ⟨nearer, farther, hancestors, hnearer, hunbound⟩

end

/-- Binding a name in a scope is seen in all scopes that keep their bindings in the same place,
where functions are added to the former ones. Look-ups of members change for this kind and name alone, in
those scopes and in scopes that import one of them and do not bind the name, and look-ups of names
change only if they come by such a scope. An import changes what the importing scope alone has for
members, as far as it does not bind their names, and look-ups of names change only if they find
nothing up to that scope, nor among its bindings. -/
theorem Reachable.sees_of_ne {t : ScopeTree} (ht : t.Reachable) {scope : Nat}
    (hscope : scope < t.size) :
    (∀ (kind : NameKind) (name : String) (descriptor : Nat),
      (∀ id, t.storage id = t.storage scope →
        (t.add kind scope name descriptor).local? (kind.pick name) id =
          some (kind.extend descriptor (kind.pick name (t.bindings scope)))) ∧
      (∀ id name',
        (t.add kind scope name descriptor).local? (kind.pick name') id ≠
            t.local? (kind.pick name') id →
          name' = name ∧ t.Sees kind name scope id) ∧
      (∀ id name',
        (t.add kind scope name descriptor).lookup? (kind.pick name') id ≠
            t.lookup? (kind.pick name') id →
          name' = name ∧ ∃ a ∈ t.ancestors id, t.Sees kind name scope a) ∧
      ∀ kind', kind' ≠ kind → ∀ id name',
        (t.add kind scope name descriptor).local? (kind'.pick name') id =
            t.local? (kind'.pick name') id ∧
        (t.add kind scope name descriptor).lookup? (kind'.pick name') id =
            t.lookup? (kind'.pick name') id) ∧
    ∀ (imported : Nat) (kind : NameKind) (name : String) (id : Nat),
      ((t.importScope scope imported).local? (kind.pick name) id ≠ t.local? (kind.pick name) id →
        id = scope ∧ kind.pick name (t.bindings scope) = none) ∧
      ((t.importScope scope imported).lookup? (kind.pick name) id ≠
          t.lookup? (kind.pick name) id →
        ∃ nearer farther, t.ancestors id = nearer ++ scope :: farther ∧
          (∀ a ∈ nearer, t.local? (kind.pick name) a = none) ∧
          kind.pick name (t.bindings scope) = none) := by
  have hstorage : t.storage scope < t.size := ht.closed.storage_lt hscope
  constructor
  · intro kind name descriptor
    refine ⟨fun id hid => local?_add_of_storage_eq hstorage hid, ?_, ?_, ?_⟩
    · intro id name' hne
      exact (sees_of_local?_add_ne hstorage hne).2
    · intro id name' hne
      exact (exists_sees_of_lookup?_add_ne hstorage hne).2
    · intro kind' hkind id name'
      constructor
      · by_contra hne
        exact hkind (sees_of_local?_add_ne hstorage hne).1
      · by_contra hne
        exact hkind (exists_sees_of_lookup?_add_ne hstorage hne).1
  · intro imported kind name id
    exact ⟨eq_of_local?_importScope_ne, exists_of_lookup?_importScope_ne⟩

theorem sees_bridged :
    bridged.Reachable ∧ 3 < bridged.size ∧
    (bridged.addVariable 3 "member" 9).memberValue? 2 "member" = some 9 ∧
    (bridged.addFunction 3 "helper" 9).memberFunctions 2 "helper" = [9] ∧
    (bridged.addFunction 3 "helper" 9).functions 1 "helper" = bridged.functions 1 "helper" ∧
    (bridged.importScope 3 4).memberFunctions 2 "helper" =
      bridged.memberFunctions 2 "helper" := by
  have hlt : 3 < bridged.size := by decide
  obtain ⟨hadd, himport⟩ := reachable_bridged.sees_of_ne hlt
  obtain ⟨hvalue, -, -, -⟩ := hadd .value "member" 9
  obtain ⟨hfunction, -, hnames, -⟩ := hadd .function "helper" 9
  refine ⟨reachable_bridged, hlt, hvalue 2 (by decide), ?_, ?_, ?_⟩
  · exact congrArg (Option.getD · []) (hfunction 2 (by decide))
  · have hfar : ∀ a ∈ bridged.ancestors 1, bridged.storage a ≠ bridged.storage 3 ∧
        ∀ i ∈ (bridged.get a).imports, bridged.storage i ≠ bridged.storage 3 := by
      decide
    apply congrArg (Option.getD · [])
    by_contra hne
    obtain ⟨-, a, ha, hstorage | ⟨-, i, hi, hstorage⟩⟩ := hnames 1 "helper" hne
    · exact (hfar a ha).1 hstorage
    · exact (hfar a ha).2 i hi hstorage
  · apply congrArg (Option.getD · [])
    by_contra hne
    exact absurd ((himport 4 .function "helper" 2).1 hne).1 (by decide)

end ScopeTree

end DeclAnalysis
