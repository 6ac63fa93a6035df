import DeclAnalysis.Proofs.Resolve.Charting
import DeclAnalysis.Proofs.Resolve.SignatureFrame

/-!
# Places for declarations

Collecting makes a place for every declaration: a scope for the members of each class and for
the contents of each part of a namespace, which belongs to the descriptor of the class or
namespace. Places last, whatever is imported, and nothing is registered before all of them have
been made.
-/

namespace DeclAnalysis

namespace PassState

variable {s s' s'' : PassState}

/-! ## What the scopes of members belong to -/

/-- The members of classes and namespaces are in scopes that belong to them, and so are the
contents of the parts of a namespace. -/
structure Owned (s : PassState) : Prop where
  located : s.Located
  file_lt : Pass.toplevel < s.scopes.size
  file_eq : s.scopes.containingDeclaration? Pass.toplevel = none
  members : ∀ {d : Nat} {members : Nat ⊕ Nat}, (s.descriptors.get d).kind.memberScope? = some members →
    (s.scopes.get (members.elim id id)).owner = some d ∧
      (s.scopes.get (members.elim id id)).writeTarget = none
  parts : ∀ {node inner : Nat}, s.tables.namespaceScopes[node]? = some inner →
    ∃ d, s.descriptors.namespaceMembers? d = some (s.scopes.storage inner) ∧
      (s.scopes.get inner).owner = some d
  classes_nodup : (s.tables.classes.toList.map Prod.snd).Nodup
  classes_isSome : ∀ d ∈ s.tables.classes.toList.map Prod.snd, (s.descriptors.classData? d).isSome

/-- Places last while scopes and descriptors are added, if the new ones are places as well. -/
theorem Owned.widen
    (h : s.Owned) (hlocated : s'.Located) (hwidens : s.scopes.Widens s'.scopes)
    (htypes : s.descriptors.KeepsTypes s'.descriptors)
    (hmembers : ∀ {d : Nat} {members : Nat ⊕ Nat}, (s'.descriptors.get d).kind.memberScope? = some members →
      (s.descriptors.get d).kind.memberScope? = some members ∨
        (s'.scopes.get (members.elim id id)).owner = some d ∧
          (s'.scopes.get (members.elim id id)).writeTarget = none)
    (hparts : ∀ {node inner : Nat}, s'.tables.namespaceScopes[node]? = some inner →
      s.tables.namespaceScopes[node]? = some inner ∨
        ∃ d, s'.descriptors.namespaceMembers? d = some (s'.scopes.storage inner) ∧
          (s'.scopes.get inner).owner = some d)
    (hnodup : (s'.tables.classes.toList.map Prod.snd).Nodup)
    (hclasses : ∀ d ∈ s'.tables.classes.toList.map Prod.snd, (s'.descriptors.classData? d).isSome) :
    s'.Owned := by
  have hordered := h.located.model.formed.ordered
  have hordered' := hlocated.model.formed.ordered
  refine ⟨hlocated, h.file_lt.trans_le hwidens.size_le, ?_, fun hd => ?_, fun hinner => ?_, hnodup,
    hclasses⟩
  · rw [hwidens.containingDeclaration?_eq hordered hordered' h.file_lt]
    exact h.file_eq
  · rcases hmembers hd with hd | hd
    · have hmem := h.located.model.members_lt hd
      rw [hwidens.owner_eq _ hmem, hwidens.writeTarget_eq _ hmem]
      exact h.members hd
    · exact hd
  · rcases hparts hinner with hinner | hinner
    · have hmem := h.located.namespace_lt hinner
      obtain ⟨d, hd, howner⟩ := h.parts hinner
      rw [hwidens.storage_eq hordered hordered' hmem, hwidens.owner_eq _ hmem]
      exact ⟨d, htypes.namespaceMembers? hd, howner⟩
    · exact hinner

/-! ## Nothing is registered yet -/

/-- No function, property or constructor has been registered. -/
structure Unregistered (s : PassState) : Prop where
  outlines : ∀ {d : Nat} {data : ClassData}, (s.descriptors.get d).kind.outline? = some data →
    data.constructors = [] ∧ data.primaryConstructor = none
  unbound : ∀ scope, (s.scopes.get scope).bindings.functions = {}
  functions_eq : s.tables.functions = #[]
  properties_eq : s.tables.properties = #[]
  misplaced_eq : s.misplaced = []

/-! ## Steps that make places -/

/-- Places have been made but none have been lost, and nothing has been registered. What was
known about other nodes than the given ones is known still. -/
structure Prepares (nodes : List Nat) (s s' : PassState) : Prop where
  owned : s.Owned → s'.Owned
  unregistered : s.Unregistered → s'.Unregistered
  widens : s.scopes.Widens s'.scopes
  types : s.descriptors.KeepsTypes s'.descriptors
  declaration?_eq : ∀ {node : Nat}, node ∉ nodes →
    s'.trace.declaration? node = s.trace.declaration? node
  namespaceScopes_eq : ∀ {node : Nat}, node ∉ nodes →
    s'.tables.namespaceScopes[node]? = s.tables.namespaceScopes[node]?
  declaringScopes_eq : ∀ {node : Nat}, node ∉ nodes →
    s'.tables.declaringScopes[node]? = s.tables.declaringScopes[node]?

namespace Prepares

variable {nodes nodes' : List Nat}

theorem mono (h : Prepares nodes s s') (hsub : nodes ⊆ nodes') : Prepares nodes' s s' :=
  ⟨h.owned, h.unregistered, h.widens, h.types, fun hnode => h.declaration?_eq fun hmem =>
    hnode (hsub hmem), fun hnode => h.namespaceScopes_eq fun hmem => hnode (hsub hmem),
    fun hnode => h.declaringScopes_eq fun hmem => hnode (hsub hmem)⟩

theorem refl (nodes : List Nat) (s : PassState) : Prepares nodes s s :=
  ⟨id, id, .refl _, .refl _, fun _ => rfl, fun _ => rfl, fun _ => rfl⟩

theorem trans (h : Prepares nodes s s') (h' : Prepares nodes s' s'') : Prepares nodes s s'' :=
  ⟨fun hs => h'.owned (h.owned hs), fun hs => h'.unregistered (h.unregistered hs),
    h.widens.trans h'.widens, h.types.trans h'.types,
    fun hnode => (h'.declaration?_eq hnode).trans (h.declaration?_eq hnode),
    fun hnode => (h'.namespaceScopes_eq hnode).trans (h.namespaceScopes_eq hnode),
    fun hnode => (h'.declaringScopes_eq hnode).trans (h.declaringScopes_eq hnode)⟩

/-- Typing and resolving signatures neither make places nor register anything. -/
theorem of_reserves
    (h : Session.Reserves nodes s.toSession s'.toSession) (htables : s'.tables = s.tables)
    (hlocated : s.Located → s'.Located) : Prepares nodes s s' := by
  refine ⟨fun hs => ?_, fun hs => ?_, h.widens, h.sameClasses.toSameTypes.keepsTypes,
    h.declaration?_eq, fun _ => ?_, fun _ => ?_⟩
  · refine hs.widen (hlocated hs.located) h.widens h.sameClasses.toSameTypes.keepsTypes
      (fun {d members} hd => ?_) (fun hinner => ?_) ?_ ?_
    · exact .inl ((h.sameClasses.memberScope?_eq d).symm.trans hd)
    · exact .inl (htables ▸ hinner)
    · rw [htables]
      exact hs.classes_nodup
    · rw [htables]
      exact fun d hd => h.sameClasses.toSameTypes.keepsTypes.isSome_classData?
        (hs.classes_isSome d hd)
  · refine ⟨fun {d _} hd => ?_, fun scope => ?_, ?_, ?_, ?_⟩
    · exact hs.outlines ((h.sameClasses.outline?_eq d).symm.trans hd)
    · exact (h.functions_eq scope).trans (hs.unbound scope)
    · rw [htables]
      exact hs.functions_eq
    · rw [htables]
      exact hs.properties_eq
    · exact h.misplaced_eq.trans hs.misplaced_eq
  · rw [htables]
  · rw [htables]

variable {around : Option Declaration} {scope : Nat}

/-- The place of the members of a class or namespace lasts. -/
theorem houses
    (h : Prepares nodes s s') (hscope : s.Houses around scope)
    (haround : ∀ d ∈ around, d.id ∉ nodes) : s'.Houses around scope := by
  cases hscope with
  | file => exact .file
  | @classBody head members descriptor data hdescriptor hdata =>
      obtain ⟨data', hdata', hmembers⟩ := h.types.classData? hdata
      rw [← hmembers]
      refine .classBody ?_ hdata'
      exact (h.declaration?_eq (haround _ rfl)).trans hdescriptor
  | namespaceBody hinner =>
      refine .namespaceBody ?_
      exact (h.namespaceScopes_eq (haround _ rfl)).trans hinner

end Prepares

/-! ### Classes -/

theorem functions_declareClass (s : PassState) (scope : Nat) (head : ClassHead) (id : Nat) :
    ((s.declareClass scope head).scopes.get id).bindings.functions =
      (s.scopes.get id).bindings.functions := by
  refine (ScopeTree.functions_get_bind _ (f := fun b =>
    { b with classifiers := b.classifiers.insert head.knownName s.descriptors.size })
    (fun _ => rfl) scope id).trans ?_
  rw [ScopeTree.bindings_get_setOwner_create]

theorem functions_declareNamespace
    (s : PassState) (scope : Nat) (name : String) (node id : Nat) :
    ((s.declareNamespace scope name node).scopes.get id).bindings.functions =
      (s.scopes.get id).bindings.functions := by
  refine (ScopeTree.functions_get_bind _ (f := fun b =>
    { b with namespaces := b.namespaces.insert name s.descriptors.size })
    (fun _ => rfl) scope id).trans ?_
  rw [ScopeTree.bindings_get_setOwner_create]

section

variable (hs : s.Owned) (hscope : scope < s.scopes.size)

include hs hscope

theorem owned_declareClass (head : ClassHead) : (s.declareClass scope head).Owned := by
  have hordered := hs.located.model.formed.ordered
  have hadds := adds_declareClass hordered hscope head
  have hfresh : s.descriptors.size ∉ s.tables.classes.toList.map Prod.snd :=
    fun hmem => Nat.lt_irrefl _ (DescriptorTable.lt_size_of_classData? (hs.classes_isSome _ hmem))
  have hclasses : (s.declareClass scope head).tables.classes.toList.map Prod.snd =
      s.tables.classes.toList.map Prod.snd ++ [s.descriptors.size] := by
    simp [declareClass, Tables.addClass]
  refine hs.widen (HasScope.located_declareClass ⟨hs.located, hscope⟩ head) hadds.widens
    (.create ..) (fun hd => ?_) .inl ?_ ?_
  · refine (s.descriptors.memberScope?_create _ _ _ hd).imp_right ?_
    rintro ⟨rfl, ⟨⟩⟩
    change ((s.declareClass scope head).scopes.get s.scopes.size).owner = _ ∧
      ((s.declareClass scope head).scopes.get s.scopes.size).writeTarget = none
    rw [hadds.get_new]
    exact ⟨rfl, rfl⟩
  · rw [hclasses]
    exact List.nodup_append.mpr ⟨hs.classes_nodup, List.nodup_singleton _, fun d hd d' hd' heq =>
      hfresh (List.mem_singleton.mp hd' ▸ heq ▸ hd)⟩
  · rw [hclasses]
    intro d hd
    rcases List.mem_append.mp hd with hd | hd
    · exact (DescriptorTable.KeepsTypes.create ..).isSome_classData? (hs.classes_isSome d hd)
    · rw [List.mem_singleton.mp hd]
      change (DescriptorTable.classData? (s.descriptors.create _ _ _).2 _).isSome
      exact Option.isSome_of_eq_some (DescriptorTable.classData?_of_kind
        (congrArg Descriptor.kind (DescriptorTable.get_create_size ..)))

/-- A class makes a place for its members. -/
theorem prepares_declareClass (head : ClassHead) :
    Prepares [head.id] s (s.declareClass scope head) := by
  have hordered := hs.located.model.formed.ordered
  refine ⟨fun _ => owned_declareClass hs hscope head, fun hu => ?_,
    (adds_declareClass hordered hscope head).widens, .create .., fun {node} hnode => ?_,
    fun _ => rfl, fun {node} hnode => ?_⟩
  · refine ⟨fun {d data} hd => ?_, fun id => ?_, hu.functions_eq, hu.properties_eq,
      hu.misplaced_eq⟩
    · change (((s.descriptors.create _ _ _).2.get d).kind).outline? = _ at hd
      by_cases hnew : d = s.descriptors.size
      · rw [hnew, DescriptorTable.get_create_size] at hd
        obtain rfl := Option.some.inj hd
        exact ⟨rfl, rfl⟩
      · rw [DescriptorTable.get_create_of_ne _ _ _ _ hnew] at hd
        exact hu.outlines hd
    · exact (functions_declareClass s scope head id).trans (hu.unbound id)
  · have hne : head.id ≠ node := fun h => hnode (List.mem_singleton.mpr h.symm)
    rw [declaration?_declareClass, if_neg hne]
  · have hne : head.id ≠ node := fun h => hnode (List.mem_singleton.mpr h.symm)
    change (s.tables.declaringScopes.insert head.id scope)[node]? = _
    exact getElem?_insert_of_ne hne

/-! ### Namespaces -/

theorem owned_declareNamespace (name : String) (node : Nat) :
    (s.declareNamespace scope name node).Owned := by
  have hordered := hs.located.model.formed.ordered
  have hadds := adds_declareNamespace hordered hscope name node
  refine hs.widen (HasScope.located_declareNamespace ⟨hs.located, hscope⟩ name node) hadds.widens
    (.create ..) (fun hd => ?_) .inl hs.classes_nodup fun d hd => ?_
  · refine (s.descriptors.memberScope?_create _ _ _ hd).imp_right ?_
    rintro ⟨rfl, ⟨⟩⟩
    change ((s.declareNamespace scope name node).scopes.get s.scopes.size).owner = _ ∧
      ((s.declareNamespace scope name node).scopes.get s.scopes.size).writeTarget = none
    rw [hadds.get_new]
    exact ⟨rfl, rfl⟩
  · exact (DescriptorTable.KeepsTypes.create ..).isSome_classData? (hs.classes_isSome d hd)

/-- A namespace makes a place for its members. -/
theorem prepares_declareNamespace (name : String) (node : Nat) :
    Prepares [node] s (s.declareNamespace scope name node) := by
  have hordered := hs.located.model.formed.ordered
  refine ⟨fun _ => owned_declareNamespace hs hscope name node, fun hu => ?_,
    (adds_declareNamespace hordered hscope name node).widens, .create .., fun {node'} hnode => ?_,
    fun _ => rfl, fun _ => rfl⟩
  · refine ⟨fun {d data} hd => ?_, fun id => ?_, hu.functions_eq, hu.properties_eq,
      hu.misplaced_eq⟩
    · change (((s.descriptors.create _ _ _).2.get d).kind).outline? = _ at hd
      by_cases hnew : d = s.descriptors.size
      · rw [hnew, DescriptorTable.get_create_size] at hd
        cases hd
      · rw [DescriptorTable.get_create_of_ne _ _ _ _ hnew] at hd
        exact hu.outlines hd
    · exact (functions_declareNamespace s scope name node id).trans (hu.unbound id)
  · have hne : node ≠ node' := fun h => hnode (List.mem_singleton.mpr h.symm)
    rw [declaration?_declareNamespace, if_neg hne]

/-- A part of a namespace makes a place for its contents, which belongs to the namespace. -/
theorem prepares_openNamespace
    {d members : Nat} (hd : s.descriptors.namespaceMembers? d = some members) (node : Nat) :
    Prepares [node] s (s.openNamespace scope members node) := by
  have hordered := hs.located.model.formed.ordered
  have hkind := DescriptorTable.memberScope?_of_namespaceMembers? hd
  have hlt : members < s.scopes.size := hs.located.model.members_lt hkind
  have hadds := ScopeTree.Adds.createWriteThrough hscope members
  have hlocated := HasScope.located_openNamespace ⟨hs.located, hscope⟩ hlt node
  have hget : (s.openNamespace scope members node).scopes.get s.scopes.size = _ := hadds.get_new
  refine ⟨fun _ => hs.widen hlocated hadds.widens (.refl _) .inl (fun {node' inner} hinner => ?_)
    hs.classes_nodup hs.classes_isSome, fun hu => ?_, hadds.widens, .refl _, fun _ => rfl,
    fun {node'} hnode => ?_, fun _ => rfl⟩
  · change (s.tables.namespaceScopes.insert node s.scopes.size)[node']? = some inner at hinner
    rcases getElem?_insert_cases hinner with ⟨-, rfl⟩ | hold
    · refine .inr ⟨d, ?_, ?_⟩
      · rw [storage_openNamespace hordered hscope hlt (hs.members hkind).2]
        exact hd
      · rw [hget]
        exact (hs.members hkind).1
    · exact .inl hold
  · refine ⟨hu.outlines, fun id => ?_, hu.functions_eq, hu.properties_eq, hu.misplaced_eq⟩
    refine Eq.trans ?_ (hu.unbound id)
    exact congrArg Bindings.functions (ScopeTree.bindings_get_createWriteThrough ..)
  · have hne : node ≠ node' := fun h => hnode (List.mem_singleton.mpr h.symm)
    change (s.tables.namespaceScopes.insert node s.scopes.size)[node']? = _
    exact getElem?_insert_of_ne hne

end

/-! ## Places for the declarations of a tree -/

/-- The place of the members of a class or namespace is a scope. -/
theorem Owned.houses_lt (hs : s.Owned) (h : s.Houses around scope) : scope < s.scopes.size := by
  cases h with
  | file => exact hs.file_lt
  | classBody hdescriptor hdata =>
      exact hs.located.model.members_lt (DescriptorTable.memberScope?_of_classData? hdata)
  | namespaceBody hinner => exact hs.located.namespace_lt hinner

end PassState

/-- What has been recorded to be declared by the nodes of a list. -/
def Session.entries {α : Type} (s : Session) (id : α → Nat) (xs : List α) :
    List (α × Option Nat) :=
  xs.map fun x => (x, s.trace.declaration? (id x))

theorem Session.entries_congr
    {α : Type} {s s' : Session} {id : α → Nat} {xs : List α}
    (h : ∀ x ∈ xs, s'.trace.declaration? (id x) = s.trace.declaration? (id x)) :
    s'.entries id xs = s.entries id xs :=
  List.map_congr_left fun x hx => by rw [h x hx]

theorem Session.entries_append
    {α : Type} (s : Session) (id : α → Nat) (xs ys : List α) :
    s.entries id (xs ++ ys) = s.entries id xs ++ s.entries id ys :=
  List.map_append

section

variable {α : Type} {s : Session} {key : α → Nat} {xs : List α} {listed : List (α × Nat)}
  (h : listed.map (Prod.map id some) = s.entries key xs)

include h

/-- Where entries are listed, each comes with what its node declares. -/
theorem Session.declaration?_of_mem_listed
    {entry : α × Nat} (hentry : entry ∈ listed) :
    entry.1 ∈ xs ∧ s.trace.declaration? (key entry.1) = some entry.2 := by
  have hmem : (entry.1, some entry.2) ∈ s.entries key xs := by
    rw [← h]
    exact List.mem_map_of_mem (f := Prod.map id some) hentry
  obtain ⟨x, hx, heq⟩ := List.mem_map.mp hmem
  obtain ⟨rfl, hdeclaration⟩ := Prod.mk.inj heq
  exact ⟨hx, hdeclaration⟩

theorem Session.exists_mem_listed
    {x : α} (hx : x ∈ xs) : ∃ descriptor, (x, descriptor) ∈ listed := by
  have hmem : (x, s.trace.declaration? (key x)) ∈ listed.map (Prod.map id some) := by
    rw [h]
    exact List.mem_map_of_mem hx
  obtain ⟨⟨x', descriptor⟩, hentry, heq⟩ := List.mem_map.mp hmem
  obtain ⟨rfl, -⟩ := Prod.mk.inj heq
  exact ⟨descriptor, hentry⟩

theorem Session.map_fst_listed : listed.map Prod.fst = xs := by
  have hfst := congrArg (List.map Prod.fst) h
  rw [List.map_map, Session.entries, List.map_map] at hfst
  exact hfst.trans (List.map_id xs)

end

namespace PassState

variable {p p' : List (Option Declaration × Declaration)}

/-- Collecting makes places for declarations, given with what is around each: every class is
entered with the scope that it stands in. -/
structure Collects
    (p : List (Option Declaration × Declaration)) (nodes : List Nat) (s s' : PassState) :
    Prop where
  prepares : Prepares nodes s s'
  classes_eq : s'.tables.classes.toList.map (Prod.map id some) =
    s.tables.classes.toList.map (Prod.map id some) ++
      s'.entries ClassHead.id (p.filterMap fun q => q.2.classHead?)
  declaring : ∀ q ∈ p, q.2.classHead?.isSome → ∃ scope,
    s'.Houses q.1 scope ∧ s'.tables.declaringScopes[q.2.id]? = some scope

/-- Nothing but classes is entered. -/
theorem Collects.of_prepares
    {nodes : List Nat} (h : Prepares nodes s s') (hclasses : s'.tables.classes = s.tables.classes)
    (hp : ∀ q ∈ p, q.2.classHead? = none) : Collects p nodes s s' := by
  refine ⟨h, ?_, fun q hq hclass => ?_⟩
  · rw [hclasses, List.filterMap_eq_nil_iff.mpr hp]
    exact (List.append_nil _).symm
  · rw [hp q hq] at hclass
    cases hclass

theorem Collects.append
    {nodes nodes' : List Nat} (h : Collects p nodes s s') (h' : Collects p' nodes' s' s'')
    (hid : ∀ q ∈ p, q.2.id ∉ nodes') (haround : ∀ q ∈ p, ∀ e ∈ q.1, e.id ∉ nodes') :
    Collects (p ++ p') (nodes ++ nodes') s s'' := by
  refine ⟨(h.prepares.mono (List.subset_append_left ..)).trans
    (h'.prepares.mono (List.subset_append_right ..)), ?_, fun q hq hclass => ?_⟩
  · rw [h'.classes_eq, h.classes_eq, List.filterMap_append, Session.entries_append,
      List.append_assoc, Session.entries_congr fun head hhead => ?_]
    obtain ⟨q, hq, hhead⟩ := List.mem_filterMap.mp hhead
    refine (h'.prepares.declaration?_eq ?_).symm
    have hq' := hid q hq
    generalize q.2 = d at hhead hq'
    cases d with
    | classDecl head' members =>
        obtain rfl := Option.some.inj hhead
        exact hq'
    | _ => cases hhead
  · rcases List.mem_append.mp hq with hq | hq
    · obtain ⟨scope, hscope, hdeclaring⟩ := h.declaring q hq hclass
      exact ⟨scope, h'.prepares.houses hscope (haround q hq),
        (h'.prepares.declaringScopes_eq (hid q hq)).trans hdeclaring⟩
    · exact h'.declaring q hq hclass

/-- A class is entered with the scope that it stands in. -/
theorem collects_declareClass
    (hs : s.Owned) (hscope : s.Houses around scope) {head : ClassHead} (members : List Declaration)
    (haround : ∀ e ∈ around, e.id ∉ head.nodes) :
    Collects [(around, .classDecl head members)] head.nodes s (s.declareClass scope head) := by
  have hprepares : Prepares head.nodes s (s.declareClass scope head) :=
    (prepares_declareClass hs (hs.houses_lt hscope) head).mono
      (List.cons_subset_cons _ (List.nil_subset _))
  refine ⟨hprepares, ?_, fun q hq _ => ?_⟩
  · have hdeclaration := declaration?_declareClass s scope head head.id
    rw [if_pos rfl] at hdeclaration
    simp only [Session.entries, List.filterMap_cons, Declaration.classHead?, List.filterMap_nil,
      List.map_cons, List.map_nil, hdeclaration]
    simp [declareClass, Tables.addClass]
  · obtain rfl := List.mem_singleton.mp hq
    exact ⟨scope, hprepares.houses hscope haround, Std.TreeMap.getElem?_insert_self⟩

/-! ### Imports -/

/-- No places are made and nothing is registered, and the tables are left alone. -/
structure Reserves (nodes : List Nat) (s s' : PassState) : Prop where
  session : Session.Reserves nodes s.toSession s'.toSession
  tables_eq : s'.tables = s.tables

instance (nodes : List Nat) : IsPreorder PassState (Reserves nodes) where
  refl s := ⟨refl_of (Session.Reserves nodes) s.toSession, rfl⟩
  trans _ _ _ h h' := ⟨trans_of _ h.session h'.session, h'.tables_eq.trans h.tables_eq⟩

end PassState

namespace Pass

open Analysis
open PassState (Collects HasScope Prepares Reserves StaysLocated)

variable {nodes : List Nat} {α : Type}

theorem reserves_analysis {x : Analysis α} (h : Keeps (Session.Reserves nodes) x) :
    KeepsOr (Reserves nodes) (liftM x : Pass α) :=
  KeepsOr.of_afterOr fun s => afterOr_analysis.mpr ⟨h.after s.toSession, rfl⟩

theorem reserves_importMembers
    {imported : Expr} (hnodes : imported.nodes ⊆ nodes) (scope : Nat) :
    KeepsOr (Reserves nodes) (importMembers scope imported) := by
  have hinfer : Keeps (Session.Reserves nodes) (infer scope imported) :=
    (keepsFrom_inferWithin (g := .free) (R := Session.Reserves nodes) scope imported hnodes
      (List.Subset.refl _) (List.Subset.refl _)).mono fun _ _ h => h trivial
  refine KeepsOr.bind (reserves_analysis hinfer) fun type => ?_
  cases type with
  | none => exact KeepsOr.pure _
  | some type =>
      refine KeepsOr.of_afterOr fun s => afterOr_bind.mpr (afterOr_session.mpr ?_)
      split
      · rename_i members _
        refine afterOr_analysis.mpr ⟨.of_scopes (.importScope s.scopes scope members) ?_, rfl⟩
        intro id
        exact s.scopes.apply_get_modify (fun s => s.bindings.functions)
          (fun s => { s with imports := s.imports ++ [members] }) (fun _ => rfl) scope id
      · split
        · exact (reserves_analysis (keeps_reportOther (by decide) ..)).afterOr s
        · exact refl_of (Reserves nodes) s

theorem reserves_applyImport
    {i : ImportDirective} (hnodes : i.nodes ⊆ nodes) (scope : Nat) :
    KeepsOr (Reserves nodes) (applyImport scope i) := by
  refine applyImport_cases (p := KeepsOr _) scope i KeepsOr.throw (KeepsOr.pure _) ?_
  intro imported himported
  have hsub := ImportDirective.nodes_subset_of_imported himported
  exact reserves_importMembers (List.Subset.trans hsub hnodes) scope

/-! ### Declarations -/

variable {s : PassState} {scope : Nat}

/-- The scope of a part of a namespace is the place of its contents. -/
theorem afterOr_openPart_prepares
    (hs : s.Owned) (hscope : scope < s.scopes.size) {d members : Nat}
    (hd : s.descriptors.namespaceMembers? d = some members) (head : NamespaceHead) :
    AfterOr (head.imports.forM (applyImport s.scopes.size)) (s.openNamespace scope members head.id)
      (fun _ s' => Prepares head.nodes s s' ∧ s'.tables.classes = s.tables.classes ∧
        s'.tables.namespaceScopes[head.id]? = some s.scopes.size) fun _ _ => True := by
  let opened := s.openNamespace scope members head.id
  have hopen : Prepares head.nodes s opened :=
    (PassState.prepares_openNamespace hs hscope hd head.id).mono
      (List.cons_subset_cons _ (List.nil_subset _))
  have hinner : HasScope s.scopes.size opened := by
    refine ⟨(hopen.owned hs).located, ?_⟩
    rw [PassState.size_openNamespace]
    exact Nat.lt_succ_self _
  have hlocated : KeepsOr (From (HasScope s.scopes.size) StaysLocated)
      (head.imports.forM (applyImport s.scopes.size)) :=
    KeepsOr.forM _ fun i _ => keepsLocated_applyImport _ i
  have hreserves : KeepsOr (Reserves head.nodes)
      (head.imports.forM (applyImport s.scopes.size)) := by
    refine KeepsOr.forM _ fun i hi => reserves_applyImport (fun node hnode => ?_) _
    exact List.mem_cons_of_mem _ (List.mem_flatMap.mpr ⟨i, hi, hnode⟩)
  have hboth := AfterOr.of_keepsOr hreserves (hlocated.afterOr opened)
  refine AfterOr.relax hboth fun _ s' h' => ?_
  refine ⟨hopen.trans (.of_reserves h'.1.session h'.1.tables_eq (h'.2 hinner).located), ?_, ?_⟩
  · rw [h'.1.tables_eq]
    rfl
  · rw [h'.1.tables_eq]
    exact Std.TreeMap.getElem?_insert_self

theorem afterOr_collectNamespace_prepares
    (options : AnalysisOptions) (hs : s.Owned) (hscope : scope < s.scopes.size)
    (head : NamespaceHead) :
    AfterOr (collectNamespace options scope head) s
      (fun inner s' => Prepares head.nodes s s' ∧ s'.tables.classes = s.tables.classes ∧
        s'.tables.namespaceScopes[head.id]? = some inner) fun _ _ => True := by
  cases hknown : s.scopes.memberNamespace? scope (head.knownName options) with
  | none =>
      let declared := s.declareNamespace scope (head.knownName options) head.id
      have hsize : declared.scopes.size = s.scopes.size + 1 := s.size_declareNamespace ..
      have hdeclare : Prepares head.nodes s declared :=
        (PassState.prepares_declareNamespace hs hscope _ head.id).mono
          (List.cons_subset_cons _ (List.nil_subset _))
      have hopen := afterOr_openPart_prepares (hdeclare.owned hs)
        (hscope.trans_le hdeclare.widens.size_le)
        (namespaceMembers?_declareNamespace s scope (head.knownName options) head.id) head
      rw [hsize] at hopen
      refine (afterOr_collectNamespace_new hknown).mpr (AfterOr.relax hopen (fun _ s' h' => ?_))
      exact ⟨hdeclare.trans h'.1, h'.2⟩
  | some known =>
      cases hmembers : s.descriptors.namespaceMembers? known with
      | none =>
          refine afterOr_bind.mpr (afterOr_session.mpr ?_)
          unfold NamespaceHead.knownName at hknown
          dsimp only
          rw [hknown]
          refine afterOr_bind.mpr (afterOr_pure.mpr (afterOr_bind.mpr (afterOr_session.mpr ?_)))
          rw [hmembers]
          trivial
      | some members =>
          refine (afterOr_collectNamespace_known hknown hmembers).mpr ?_
          exact afterOr_openPart_prepares hs hscope hmembers head

mutual

/-- Collecting a declaration makes places for everything in it. -/
theorem afterOr_collect_collects
    (options : AnalysisOptions) (around : Option Declaration) (scope : Nat) (d : Declaration)
    (s : PassState) (hs : s.Owned) (hscope : s.Houses around scope)
    (haround : ∀ e ∈ around, e.id ∉ d.nodes) (hd : d.nodes.Nodup) :
    AfterOr (collect options scope d) s
      (fun _ => Collects (d.enclosed around) d.nodes s) fun _ _ => True := by
  match d with
  | .classDecl head members =>
      obtain ⟨-, hmembers, hdisjoint⟩ := List.nodup_append.mp hd
      have hself : Collects [(around, .classDecl head members)] head.nodes s
          (s.declareClass scope head) := PassState.collects_declareClass hs hscope members
        fun e he hmem => haround e he (List.mem_append_left _ hmem)
      have hid : head.id ∉ Declaration.nodesOf members :=
        fun hmem => hdisjoint _ List.mem_cons_self _ hmem rfl
      have hhouse : (s.declareClass scope head).Houses (some (.classDecl head members))
          s.scopes.size := by
        have hdeclaration := PassState.declaration?_declareClass s scope head head.id
        rw [if_pos rfl] at hdeclaration
        have hdata : (s.declareClass scope head).descriptors.classData? s.descriptors.size =
            some { memberScope := s.scopes.size, declaringScope := scope } :=
          DescriptorTable.classData?_of_kind
            (congrArg Descriptor.kind (DescriptorTable.get_create_size ..))
        exact .classBody hdeclaration hdata
      have hrest := afterOr_collectAll_collects options (some (.classDecl head members)) _ members
        _ (hself.prepares.owned hs) hhouse (by rintro _ ⟨⟩; exact hid) hmembers
      refine afterOr_bind.mpr (afterOr_collectClass.mpr ?_)
      refine AfterOr.relax hrest fun _ s' h' => ?_
      refine hself.append h' (fun q hq => ?_) fun q hq e he hmem => ?_
      · rw [List.mem_singleton.mp hq]
        exact hid
      · rw [List.mem_singleton.mp hq] at he
        exact haround e he (List.mem_append_right _ hmem)
  | .namespaceDecl head members =>
      obtain ⟨-, hmembers, hdisjoint⟩ := List.nodup_append.mp hd
      refine AfterOr.bind (afterOr_collectNamespace_prepares options hs (hs.houses_lt hscope) head)
        fun inner s₁ ⟨h₁, hclasses, hinner⟩ => ?_
      have hself : Collects [(around, .namespaceDecl head members)] head.nodes s s₁ :=
        .of_prepares h₁ hclasses fun q hq => by rw [List.mem_singleton.mp hq]; rfl
      have hid : head.id ∉ Declaration.nodesOf members :=
        fun hmem => hdisjoint _ List.mem_cons_self _ hmem rfl
      have hrest := afterOr_collectAll_collects options (some (.namespaceDecl head members)) inner
        members s₁ (h₁.owned hs) (.namespaceBody hinner) (by rintro _ ⟨⟩; exact hid) hmembers
      refine AfterOr.relax hrest fun _ s' h' => ?_
      refine hself.append h' (fun q hq => ?_) fun q hq e he hmem => ?_
      · rw [List.mem_singleton.mp hq]
        exact hid
      · rw [List.mem_singleton.mp hq] at he
        exact haround e he (List.mem_append_right _ hmem)
  | .classObject id members =>
      obtain ⟨hid, hmembers⟩ := List.nodup_cons.mp hd
      have hself : Collects [(around, .classObject id members)] [id] s s :=
        .of_prepares (.refl _ s) rfl fun q hq => by rw [List.mem_singleton.mp hq]; rfl
      have hrest := afterOr_collectAll_collects options around scope members s hs hscope
        (fun e he hmem => haround e he (List.mem_cons_of_mem _ hmem)) hmembers
      refine AfterOr.relax hrest fun _ s' h' => ?_
      refine hself.append h' (fun q hq => ?_) fun q hq e he hmem => ?_
      · rw [List.mem_singleton.mp hq]
        exact hid
      · rw [List.mem_singleton.mp hq] at he
        exact haround e he (List.mem_cons_of_mem _ hmem)
  | .typedefDecl .. | .extensionDecl .. => exact afterOr_throw.mpr trivial
  | .functionDecl _ | .propertyDecl _ | .constructorDecl _ =>
      refine afterOr_pure.mpr (.of_prepares (.refl _ s) rfl fun q hq => ?_)
      rw [List.mem_singleton.mp hq]
      rfl

theorem afterOr_collectAll_collects
    (options : AnalysisOptions) (around : Option Declaration) (scope : Nat)
    (ds : List Declaration) (s : PassState) (hs : s.Owned) (hscope : s.Houses around scope)
    (haround : ∀ e ∈ around, e.id ∉ Declaration.nodesOf ds)
    (hds : (Declaration.nodesOf ds).Nodup) :
    AfterOr (collectAll options scope ds) s
      (fun _ => Collects (Declaration.enclosedIn around ds) (Declaration.nodesOf ds) s)
      fun _ _ => True := by
  match ds with
  | [] => exact .of_prepares (.refl _ s) rfl nofun
  | d :: rest =>
      obtain ⟨hd, hrest, hdisjoint⟩ := List.nodup_append.mp hds
      have hfirst := afterOr_collect_collects options around scope d s hs hscope
        (fun e he hmem => haround e he (List.mem_append_left _ hmem)) hd
      refine AfterOr.bind hfirst fun _ s₁ h₁ => ?_
      have hfresh : ∀ e ∈ around, e.id ∉ Declaration.nodesOf rest :=
        fun e he hmem => haround e he (List.mem_append_right _ hmem)
      have hothers := afterOr_collectAll_collects options around scope rest s₁
        (h₁.prepares.owned hs) (h₁.prepares.houses hscope fun e he hmem =>
          haround e he (List.mem_append_left _ hmem)) hfresh hrest
      have hnested : ∀ e ∈ d.nested, e.id ∉ Declaration.nodesOf rest := fun e he hmem =>
        hdisjoint _ (Declaration.id_mem_nodes_of_mem_nested he) _ hmem rfl
      refine AfterOr.relax hothers fun _ s₂ h₂ => ?_
      refine h₁.append h₂ (fun q hq => ?_) fun q hq e he => ?_
      · exact hnested _ (Declaration.mem_nested_of_mem_enclosed hq)
      · rcases Declaration.around_of_mem_enclosed d hq with hq | ⟨e', he', hq⟩
        · exact hfresh e (hq ▸ he)
        · obtain rfl := Option.some.inj (hq.symm.trans he)
          exact hnested _ he'

end

end Pass

end DeclAnalysis
