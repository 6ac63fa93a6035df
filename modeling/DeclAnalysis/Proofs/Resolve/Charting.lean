import DeclAnalysis.Proofs.Resolve.Chart
import DeclAnalysis.Proofs.Resolve.Faults

/-!
# Charting while collecting

Collecting charts the declarations one after the other, in tree order. A class or a namespace
that is not known yet adds a space to the chart, every further part of a namespace gets a scope
that mirrors the space of the others, and everything else leaves the chart as it is. Import
directives could make a namespace known that is declared elsewhere; where the layout keeps
imports apart they do not.
-/

namespace DeclAnalysis

/-! ## What a declaration adds -/

namespace PassState

variable {s : PassState} {scope : Nat}

theorem declaration?_declareClass (s : PassState) (scope : Nat) (head : ClassHead) (node : Nat) :
    (s.declareClass scope head).trace.declaration? node =
      if head.id = node then some s.descriptors.size else s.trace.declaration? node := by
  change (s.trace.declarations.insert head.id s.descriptors.size)[node]? = _
  simp [Std.TreeMap.getElem?_insert, Trace.declaration?]

theorem declaration?_declareNamespace
    (s : PassState) (scope : Nat) (name : String) (id node : Nat) :
    (s.declareNamespace scope name id).trace.declaration? node =
      if id = node then some s.descriptors.size else s.trace.declaration? node := by
  change (s.trace.declarations.insert id s.descriptors.size)[node]? = _
  simp [Std.TreeMap.getElem?_insert, Trace.declaration?]

theorem namespaces_declareClass (s : PassState) (scope : Nat) (head : ClassHead) (id : Nat) :
    ((s.declareClass scope head).scopes.get id).bindings.namespaces =
      (s.scopes.get id).bindings.namespaces := by
  refine (ScopeTree.namespaces_get_bind _ (f := fun b =>
    { b with classifiers := b.classifiers.insert head.knownName s.descriptors.size })
    (fun _ => rfl) scope id).trans ?_
  rw [ScopeTree.bindings_get_setOwner_create]

theorem classifiers_declareNamespace
    (s : PassState) (scope : Nat) (name : String) (node id : Nat) :
    ((s.declareNamespace scope name node).scopes.get id).bindings.classifiers =
      (s.scopes.get id).bindings.classifiers := by
  refine (ScopeTree.classifiers_get_bind _ (f := fun b =>
    { b with namespaces := b.namespaces.insert name s.descriptors.size })
    (fun _ => rfl) scope id).trans ?_
  rw [ScopeTree.bindings_get_setOwner_create]

theorem ordered_declareNamespace
    (hs : s.scopes.Ordered) (scope : Nat) (name : String) (node : Nat) :
    (s.declareNamespace scope name node).scopes.Ordered := by
  refine (hs.setOwner_create ?_ .namespaceScope s.descriptors.size).bind scope
    fun b => { b with namespaces := b.namespaces.insert name s.descriptors.size }
  exact fun _ hp => nomatch hp

section

variable (hs : s.scopes.Ordered) (hscope : scope < s.scopes.size)

include hs hscope

theorem ordered_declareClass (head : ClassHead) : (s.declareClass scope head).scopes.Ordered := by
  refine (hs.setOwner_create ?_ .classScope s.descriptors.size).bind scope
    fun b => { b with classifiers := b.classifiers.insert head.knownName s.descriptors.size }
  rintro _ ⟨⟩
  exact hscope

theorem adds_declareClass (head : ClassHead) :
    ScopeTree.Adds { kind := .classScope, parent := some scope, owner := some s.descriptors.size }
      s.scopes (s.declareClass scope head).scopes := by
  refine ScopeTree.adds_bind_setOwner_create hs ?_ .classScope s.descriptors.size hscope
    fun b => { b with classifiers := b.classifiers.insert head.knownName s.descriptors.size }
  rintro _ ⟨⟩
  exact hscope

theorem adds_declareNamespace (name : String) (node : Nat) :
    ScopeTree.Adds { kind := .namespaceScope, owner := some s.descriptors.size } s.scopes
      (s.declareNamespace scope name node).scopes := by
  refine ScopeTree.adds_bind_setOwner_create hs ?_ .namespaceScope s.descriptors.size hscope
    fun b => { b with namespaces := b.namespaces.insert name s.descriptors.size }
  exact fun _ hp => nomatch hp

/-- A part of a namespace keeps its bindings among the members of the namespace. -/
theorem storage_openNamespace
    {members : Nat} (hmembers : members < s.scopes.size)
    (htarget : (s.scopes.get members).writeTarget = none) (node : Nat) :
    (s.openNamespace scope members node).scopes.storage s.scopes.size = members := by
  have hordered : (s.openNamespace scope members node).scopes.Ordered :=
    hs.createWriteThrough hscope hmembers
  have hadds := ScopeTree.Adds.createWriteThrough hscope members
  have hget : (s.openNamespace scope members node).scopes.get s.scopes.size = _ := hadds.get_new
  have hwrite : ((s.openNamespace scope members node).scopes.get s.scopes.size).writeTarget =
      some members := by rw [hget]
  rw [hordered.storage_of_writeTarget hwrite]
  exact ScopeTree.storage_of_writeTarget_eq_none
    ((hadds.widens.writeTarget_eq _ hmembers).trans htarget)

/-- The name of a class is bound where the bindings of the scope are kept. -/
theorem classifiers?_declareClass (head : ClassHead) (id : Nat) (name : String) :
    ((s.declareClass scope head).scopes.get id).bindings.classifiers[name]? =
      if id = s.scopes.storage scope ∧ head.knownName = name then some s.descriptors.size
      else (s.scopes.get id).bindings.classifiers[name]? := by
  have hparent : ∀ p, some scope = some p → p < s.scopes.size := by
    rintro _ ⟨⟩
    exact hscope
  have hlt := ScopeTree.storage_setOwner_create_lt hs hparent .classScope s.descriptors.size hscope
  refine (ScopeTree.classifiers?_addClassifier _ hlt head.knownName _ id name).trans ?_
  rw [ScopeTree.storage_setOwner_create hs hparent _ _ hscope,
    ScopeTree.bindings_get_setOwner_create]

theorem namespaces?_declareNamespace (name : String) (node id : Nat) (name' : String) :
    ((s.declareNamespace scope name node).scopes.get id).bindings.namespaces[name']? =
      if id = s.scopes.storage scope ∧ name = name' then some s.descriptors.size
      else (s.scopes.get id).bindings.namespaces[name']? := by
  have hparent : ∀ p, none = some p → p < s.scopes.size := fun _ hp => nomatch hp
  have hlt := ScopeTree.storage_setOwner_create_lt hs hparent .namespaceScope s.descriptors.size
    hscope
  refine (ScopeTree.namespaces?_addNamespace _ hlt name _ id name').trans ?_
  rw [ScopeTree.storage_setOwner_create hs hparent _ _ hscope,
    ScopeTree.bindings_get_setOwner_create]

end

end PassState

/-! ## The steps of the first pass -/

namespace PassState

variable {l : Layout} {home : Chart} {s : PassState} {space : Space} {scope : Nat}

theorem continues_declareClass
    (h : s.Charted l home) (hscope : s.scopes.Mirrors home space scope) {head : ClassHead}
    (hfresh : ∀ p ∈ l.placed, p.2.id ≠ head.id) :
    Session.Continues l home
      (Function.update home (.classBody head.id :: space) (some s.scopes.size)) s.toSession
        (s.declareClass scope head).toSession := by
  refine ⟨Chart.le_update (h.home_eq_none ?_) _, h.ordered,
    ordered_declareClass h.ordered hscope.lt_size head,
    (adds_declareClass h.ordered hscope.lt_size head).widens, .create ..,
    fun {space' head' members} hp => ?_⟩
  · rintro ⟨head', members, hp, hid⟩
    exact hfresh _ hp hid
  · have hne : head.id ≠ head'.id := fun heq => hfresh _ hp heq.symm
    rw [declaration?_declareClass, if_neg hne]

/-- A class that has just been made known is known as such. -/
theorem chartedClass_declareClass
    (h : s.Charted l home) (hscope : s.scopes.Mirrors home space scope) {head : ClassHead}
    (hfresh : ∀ p ∈ l.placed, p.2.id ≠ head.id) :
    (s.declareClass scope head).ChartedClass
      (Function.update home (.classBody head.id :: space) (some s.scopes.size)) space head
        s.descriptors.size { memberScope := s.scopes.size, declaringScope := scope } := by
  have hget := (adds_declareClass h.ordered hscope.lt_size head).get_new
  have hcontinues := continues_declareClass h hscope hfresh
  have hdescriptor := s.descriptors.get_create_size head.knownName
    (s.scopes.containingDeclaration? scope)
    (.classKind false { memberScope := s.scopes.size, declaringScope := scope })
  have hstorage : (s.declareClass scope head).scopes.storage s.scopes.size = s.scopes.size := by
    apply ScopeTree.storage_of_writeTarget_eq_none
    rw [hget]
  refine ⟨?_, ?_, congrArg Descriptor.name hdescriptor, ?_, ?_⟩
  · rw [declaration?_declareClass, if_pos rfl]
  · exact DescriptorTable.classData?_of_kind (congrArg Descriptor.kind hdescriptor)
  · exact congrArg Scope.owner hget
  · refine @ScopeTree.Mirrors.inner _ _ _ _ _ scope s.descriptors.size ?_ ?_ ?_ ?_
      (hcontinues.mirrors hscope)
    · rw [hstorage, Function.update_self]
    · rw [hget]
    · rw [hget]
    · rw [hstorage, hget]

/-- A class and the space of its body are added to the chart. -/
theorem charted_declareClass
    (h : s.Charted l home) (hscope : s.scopes.Mirrors home space scope) {head : ClassHead}
    {members : List Declaration} (hfresh : ∀ p ∈ l.placed, p.2.id ≠ head.id) :
    (s.declareClass scope head).Charted (l.extend [(space, .classDecl head members)])
      (Function.update home (.classBody head.id :: space) (some s.scopes.size)) := by
  have hcontinues := continues_declareClass h hscope hfresh
  have hclass := chartedClass_declareClass h hscope hfresh
  have hhome := hscope.home_eq
  have hnone : home (.classBody head.id :: space) = none := by
    refine h.home_eq_none ?_
    rintro ⟨head', members, hp, hid⟩
    exact hfresh _ hp hid
  refine h.addSpace (Option.isSome_of_eq_some hhome) hnone
    (adds_declareClass h.ordered hscope.lt_size head) hcontinues rfl rfl rfl
    ⟨head, members, List.mem_append_right _ List.mem_cons_self, rfl⟩ (fun name => ⟨?_, ?_⟩)
    (fun {space' kept} hkept name => ?_) (fun {space' kept} hkept name => ?_)
    (fun {space' kept name descriptor} hkept hns => ?_) (fun hdescriptor => ?_) fun heq => ?_
  · have hne : Model.root ≠ s.scopes.storage scope := (h.kept hhome).1.ne
    rw [classifiers?_declareClass h.ordered hscope.lt_size, if_neg fun h => hne h.1]
    exact h.root.2.2.2.1 name
  · rw [namespaces_declareClass]
    exact h.root.2.2.2.2 name
  · rw [classifiers?_declareClass h.ordered hscope.lt_size, Layout.classIn?_extend_singleton,
      h.classifiers hkept]
    have hold : ∀ head', l.classIn? space' name = some head' →
        (s.declareClass scope head).trace.declaration? head'.id =
          s.trace.declaration? head'.id := by
      intro head' hhead'
      obtain ⟨members', hp, -⟩ := Layout.exists_placed_of_classIn? hhead'
      exact hcontinues.declaration?_eq hp
    by_cases hspace : space = space'
    · subst hspace
      obtain rfl := Option.some.inj (hhome.symm.trans hkept)
      by_cases hname : head.knownName = name
      · simp [Declaration.classNamed?, hname, declaration?_declareClass]
      · simp only [hname, and_false, if_false, if_true, Declaration.classNamed?, Option.none_or]
        exact Option.bind_congr fun head' hhead' => (hold head' hhead').symm
    · have hne : kept ≠ s.scopes.storage scope := by
        rintro rfl
        exact hspace (h.injective hhome hkept)
      simp only [hne, false_and, if_false, hspace, Option.none_or]
      exact Option.bind_congr fun head' hhead' => (hold head' hhead').symm
  · rw [namespaces_declareClass, Layout.declaresNamespace_extend_singleton, h.declared hkept]
    simp [Declaration.isNamespaceNamed]
  · rw [namespaces_declareClass] at hns
    obtain ⟨members', hcharted⟩ := h.namespaces hkept hns
    exact ⟨members', hcontinues.chartedNamespace h hcharted⟩
  · refine (s.descriptors.memberScope?_create _ _ _ hdescriptor).imp_right ?_
    rintro ⟨rfl, ⟨⟩⟩
    exact ⟨rfl, rfl⟩
  · obtain ⟨rfl, -⟩ := Declaration.classDecl.inj heq
    exact ⟨_, _, hclass⟩

/-! ### Namespaces -/

section

variable (h : s.Charted l home) (hscope : s.scopes.Mirrors home space scope) {name : String}
  (hnew : l.declaresNamespace space name = false) {node : Nat}
  (hfresh : ∀ p ∈ l.placed, p.2.id ≠ node)

include h hscope hnew hfresh

theorem continues_declareNamespace :
    Session.Continues l home
      (Function.update home (.namespaceBody name :: space) (some s.scopes.size)) s.toSession
        (s.declareNamespace scope name node).toSession := by
  refine ⟨Chart.le_update (h.home_eq_none ?_) _, h.ordered,
    ordered_declareNamespace h.ordered scope name node,
    (adds_declareNamespace h.ordered hscope.lt_size name node).widens, .create ..,
    fun {space' head' members} hp => ?_⟩
  · intro hopens
    exact Bool.false_ne_true (hnew.symm.trans hopens)
  · have hne : node ≠ head'.id := fun heq => hfresh _ hp heq.symm
    rw [declaration?_declareNamespace, if_neg hne]

/-- A namespace that has just been made known is contained in what contains its scope. -/
theorem chartedNamespace_declareNamespace :
    (s.declareNamespace scope name node).ChartedNamespace
      (Function.update home (.namespaceBody name :: space) (some s.scopes.size)) space name
        s.descriptors.size s.scopes.size := by
  have hcontinues := continues_declareNamespace h hscope hnew hfresh
  have hdescriptor := s.descriptors.get_create_size name
    (s.scopes.containingDeclaration? scope) (.namespaceKind s.scopes.size)
  have hkept := hscope.home_eq
  refine ⟨Pass.namespaceMembers?_declareNamespace .., Function.update_self .., ?_,
    s.scopes.storage scope, hcontinues.home_le hkept, ?_⟩
  · rw [(adds_declareNamespace h.ordered hscope.lt_size name node).get_new]
  · rw [hcontinues.widens.owner_eq _ (h.kept hkept).2.1, ← h.containingDeclaration?_eq hscope]
    exact congrArg Descriptor.container hdescriptor

end

/-- A namespace that was not known and its space are added to the chart. -/
theorem charted_declareNamespace
    (h : s.Charted l home) (hscope : s.scopes.Mirrors home space scope) {head : NamespaceHead}
    {members : List Declaration}
    (hnew : l.declaresNamespace space (head.knownName l.options) = false)
    (hfresh : ∀ p ∈ l.placed, p.2.id ≠ head.id) :
    (s.declareNamespace scope (head.knownName l.options) head.id).Charted
      (l.extend [(space, .namespaceDecl head members)])
        (Function.update home (.namespaceBody (head.knownName l.options) :: space)
          (some s.scopes.size)) := by
  have hcontinues := continues_declareNamespace h hscope hnew hfresh
  have hns := chartedNamespace_declareNamespace h hscope hnew hfresh
  have hhome := hscope.home_eq
  have hnone : home (.namespaceBody (head.knownName l.options) :: space) = none := by
    refine h.home_eq_none fun hopens => ?_
    exact Bool.false_ne_true (hnew.symm.trans hopens)
  have hdeclared : (l.extend [(space, .namespaceDecl head members)]).declaresNamespace space
      (head.knownName l.options) = true :=
    Layout.declaresNamespace_of_mem_placed (List.mem_append_right _ List.mem_cons_self)
  refine h.addSpace (Option.isSome_of_eq_some hhome) hnone
    (adds_declareNamespace h.ordered hscope.lt_size _ head.id) hcontinues rfl rfl rfl hdeclared
    (fun name => ⟨?_, ?_⟩) (fun {space' kept} hkept name => ?_)
    (fun {space' kept} hkept name => ?_) (fun {space' kept name descriptor} hkept hbound => ?_)
    (fun hdescriptor => ?_) nofun
  · rw [classifiers_declareNamespace]
    exact h.root.2.2.2.1 name
  · have hne : Model.root ≠ s.scopes.storage scope := (h.kept hhome).1.ne
    rw [namespaces?_declareNamespace h.ordered hscope.lt_size, if_neg fun h => hne h.1]
    exact h.root.2.2.2.2 name
  · rw [classifiers_declareNamespace, Layout.classIn?_extend_singleton, h.classifiers hkept]
    simp only [Declaration.classNamed?, ite_self, Option.none_or]
    refine Option.bind_congr fun head' hhead' => ?_
    obtain ⟨members', hp, -⟩ := Layout.exists_placed_of_classIn? hhead'
    exact (hcontinues.declaration?_eq hp).symm
  · rw [namespaces?_declareNamespace h.ordered hscope.lt_size,
      Layout.declaresNamespace_extend_singleton, ← h.declared hkept]
    have hkept_iff : kept = s.scopes.storage scope ↔ space = space' := by
      constructor
      · rintro rfl
        exact h.injective hhome hkept
      · rintro rfl
        exact Option.some.inj (hkept.symm.trans hhome)
    simp only [hkept_iff, Declaration.isNamespaceNamed]
    by_cases hcond : space = space' ∧ head.knownName l.options = name
    · simp [hcond]
    · rw [if_neg hcond]
      simp [hcond]
  · rw [namespaces?_declareNamespace h.ordered hscope.lt_size] at hbound
    split at hbound
    · rename_i hcond
      obtain ⟨rfl, rfl⟩ := hcond
      obtain rfl := h.injective hhome hkept
      obtain rfl := Option.some.inj hbound
      exact ⟨_, hns⟩
    · obtain ⟨members', hcharted⟩ := h.namespaces hkept hbound
      exact ⟨members', hcontinues.chartedNamespace h hcharted⟩
  · refine (s.descriptors.memberScope?_create _ _ _ hdescriptor).imp_right ?_
    rintro ⟨rfl, ⟨⟩⟩
    exact ⟨rfl, rfl⟩

/-! ### Parts of namespaces -/

section

variable (h : s.Charted l home) (hscope : s.scopes.Mirrors home space scope) {name : String}
  {descriptor members : Nat} (hns : s.ChartedNamespace home space name descriptor members)
  (node : Nat)

include h hscope hns

theorem continues_openNamespace :
    Session.Continues l home home s.toSession (s.openNamespace scope members node).toSession :=
  ⟨id, h.ordered, h.ordered.createWriteThrough hscope.lt_size (h.kept hns.home_eq).2.1,
    (ScopeTree.Adds.createWriteThrough hscope.lt_size members).widens, .refl _, fun _ => rfl⟩

/-- The scope of a part adds no space: it mirrors that of the namespace. -/
theorem charted_openNamespace : (s.openNamespace scope members node).Charted l home := by
  have hadds := ScopeTree.Adds.createWriteThrough hscope.lt_size members
  refine h.of_continues (continues_openNamespace h hscope hns node) (fun id => ?_) (fun id => ?_)
    (fun _ => rfl) fun {scope' imported} himported => .inl ?_
  · exact congrArg Bindings.classifiers (ScopeTree.bindings_get_createWriteThrough ..)
  · exact congrArg Bindings.namespaces (ScopeTree.bindings_get_createWriteThrough ..)
  · exact (hadds.imports_eq rfl scope') ▸ himported

theorem mirrors_openNamespace :
    (s.openNamespace scope members node).scopes.Mirrors home (.namespaceBody name :: space)
      s.scopes.size := by
  have hcontinues := continues_openNamespace h hscope hns node
  have hget : (s.openNamespace scope members node).scopes.get s.scopes.size = _ :=
    (ScopeTree.Adds.createWriteThrough hscope.lt_size members).get_new
  obtain ⟨-, hlt, htarget⟩ := h.kept hns.home_eq
  have hstorage : (s.openNamespace scope members node).scopes.storage s.scopes.size = members :=
    storage_openNamespace h.ordered hscope.lt_size hlt htarget node
  refine @ScopeTree.Mirrors.inner _ _ _ _ _ scope descriptor ?_ ?_ ?_ ?_ (hcontinues.mirrors hscope)
  · rw [hstorage]
    exact hns.home_eq
  · rw [hget]
  · rw [hget]
    exact hns.owner_eq
  · rw [hstorage, hcontinues.widens.owner_eq _ hlt]
    exact hns.owner_eq

end

/-! ### Finding namespaces -/

/-- Where the names of namespaces are apart, what is imported makes no difference to whether a
namespace is known. -/
theorem memberNamespace?_eq
    {l' : Layout} (h : s.Charted l home) (hscope : s.scopes.Mirrors home space scope)
    (hoptions : l.options = l'.options) (hplaced : l.placed ⊆ l'.placed)
    (hapart : l'.ImportsApart) {name : String} (hname : l'.declaresNamespace space name = true) :
    s.scopes.memberNamespace? scope name =
      (s.scopes.get (s.scopes.storage scope)).bindings.namespaces[name]? := by
  unfold ScopeTree.memberNamespace? ScopeTree.local? ScopeTree.bindings
  dsimp only
  cases hbound : (s.scopes.get (s.scopes.storage scope)).bindings.namespaces[name]? with
  | some descriptor => rfl
  | none =>
      refine List.findSome?_eq_none_iff.mpr fun imported himported => ?_
      obtain ⟨⟨space', hspace'⟩, space'', head, members, hp, hne, hmirrors⟩ := h.imports himported
      obtain rfl : space = _ := h.injective hscope.home_eq hmirrors.home_eq
      rw [ScopeTree.storage_of_writeTarget_eq_none (h.kept hspace').2.2]
      by_contra hsome
      have hdeclares : l.declaresNamespace space' name = true := by
        rw [← h.declared hspace']
        exact Option.isSome_iff_ne_none.mpr hsome
      have hapart := @hapart _ _ _ (hplaced hp) hne
      rw [← hoptions] at hapart
      obtain rfl := hapart hname (Layout.declaresNamespace_mono hoptions hplaced hdeclares)
      obtain rfl := Option.some.inj (hspace'.symm.trans hscope.home_eq)
      exact hsome hbound

/-! ## The tables -/

/-- What is entered in the tables agrees with the chart. -/
structure Entered (l : Layout) (home : Chart) (s : PassState) : Prop where
  entries : ∀ entry ∈ s.tables.classes.toList, s.trace.declaration? entry.1.id = some entry.2 ∧
    ∃ space members, (space, .classDecl entry.1 members) ∈ l.placed
  declaring : ∀ {node scope}, s.tables.declaringScopes[node]? = some scope →
    ∃ space head members, (space, .classDecl head members) ∈ l.placed ∧ head.id = node ∧
      s.scopes.Mirrors home space scope
  parts : ∀ {node scope}, s.tables.namespaceScopes[node]? = some scope →
    ∃ space head members, (space, .namespaceDecl head members) ∈ l.placed ∧ head.id = node ∧
      s.scopes.Mirrors home (.namespaceBody (head.knownName l.options) :: space) scope

/-- The state is located and charted, and so are the tables. -/
structure Sound (l : Layout) (home : Chart) (s : PassState) : Prop where
  located : s.Located
  charted : s.Charted l home
  entered : s.Entered l home

variable {home' : Chart} {s' : PassState}

theorem Entered.mono
    (h : s.Entered l home) (hcontinues : Session.Continues l home home' s.toSession s'.toSession)
    (htables : s'.tables = s.tables) (new : List (Space × Declaration)) :
    s'.Entered (l.extend new) home' := by
  refine ⟨fun entry hentry => ?_, fun hscope => ?_, fun hscope => ?_⟩
  · rw [htables] at hentry
    obtain ⟨hdeclared, space, members, hp⟩ := h.entries entry hentry
    exact ⟨(hcontinues.declaration?_eq hp).trans hdeclared, space, members,
      List.mem_append_left _ hp⟩
  · rw [htables] at hscope
    obtain ⟨space, head, members, hp, hid, hmirrors⟩ := h.declaring hscope
    exact ⟨space, head, members, List.mem_append_left _ hp, hid, hcontinues.mirrors hmirrors⟩
  · rw [htables] at hscope
    obtain ⟨space, head, members, hp, hid, hmirrors⟩ := h.parts hscope
    exact ⟨space, head, members, List.mem_append_left _ hp, hid, hcontinues.mirrors hmirrors⟩

/-- A class is entered with the scope that it stands in. -/
theorem Entered.addClass
    (h : s.Entered l home) {head : ClassHead} {members : List Declaration}
    (hp : (space, .classDecl head members) ∈ l.placed) {descriptor : Nat}
    (hdeclared : s.trace.declaration? head.id = some descriptor)
    (hscope : s.scopes.Mirrors home space scope) :
    { s with tables := s.tables.addClass head descriptor scope }.Entered l home := by
  refine ⟨fun entry hentry => ?_, fun {node scope'} hscope' => ?_, h.parts⟩
  · simp only [Tables.addClass, Array.toList_push, List.mem_append, List.mem_singleton] at hentry
    rcases hentry with hentry | rfl
    · exact h.entries entry hentry
    · exact ⟨hdeclared, space, members, hp⟩
  · rcases getElem?_insert_cases hscope' with ⟨hid, rfl⟩ | hold
    · exact ⟨space, head, members, hp, hid, hscope⟩
    · exact h.declaring hold

/-- A part of a namespace is entered with the scope of its contents. -/
theorem Entered.addPart
    (h : s.Entered l home) {head : NamespaceHead} {members : List Declaration}
    (hp : (space, .namespaceDecl head members) ∈ l.placed) {inner : Nat}
    (hinner : s.scopes.Mirrors home (.namespaceBody (head.knownName l.options) :: space) inner) :
    { s with
      tables :=
        { s.tables with
          namespaceScopes := s.tables.namespaceScopes.insert head.id inner } }.Entered l home := by
  refine ⟨h.entries, h.declaring, fun {node scope'} hscope' => ?_⟩
  rcases getElem?_insert_cases hscope' with ⟨hid, rfl⟩ | hold
  · exact ⟨space, head, members, hp, hid, hinner⟩
  · exact h.parts hold

theorem sound_declareClass
    (h : s.Sound l home) (hscope : s.scopes.Mirrors home space scope) {head : ClassHead}
    (members : List Declaration) (hfresh : ∀ p ∈ l.placed, p.2.id ≠ head.id) :
    (s.declareClass scope head).Sound (l.extend [(space, .classDecl head members)])
      (Function.update home (.classBody head.id :: space) (some s.scopes.size)) := by
  have hcontinues := continues_declareClass h.charted hscope hfresh
  have hclass := chartedClass_declareClass h.charted hscope hfresh
  refine ⟨HasScope.located_declareClass ⟨h.located, hscope.lt_size⟩ head,
    charted_declareClass h.charted hscope hfresh, ?_⟩
  let bare : PassState := { s.declareClass scope head with tables := s.tables }
  have hbare : Session.Continues l home _ s.toSession bare.toSession := hcontinues
  have hentered := h.entered.mono hbare rfl [(space, .classDecl head members)]
  exact hentered.addClass (List.mem_append_right _ List.mem_cons_self) hclass.declaration?_eq
    (hcontinues.mirrors hscope)

/-- A part of a namespace that is known, with its scope. -/
theorem sound_openNamespace
    (h : s.Sound l home) (hscope : s.scopes.Mirrors home space scope) {head : NamespaceHead}
    {members : List Declaration} (hp : (space, .namespaceDecl head members) ∈ l.placed)
    {descriptor kept : Nat}
    (hns : s.ChartedNamespace home space (head.knownName l.options) descriptor kept) :
    (s.openNamespace scope kept head.id).Sound l home := by
  have hcontinues := continues_openNamespace h.charted hscope hns head.id
  refine ⟨HasScope.located_openNamespace ⟨h.located, hscope.lt_size⟩
    (h.charted.kept hns.home_eq).2.1 head.id, charted_openNamespace h.charted hscope hns head.id, ?_⟩
  let bare : PassState := { s.openNamespace scope kept head.id with tables := s.tables }
  have hbare : Session.Continues l home _ s.toSession bare.toSession := hcontinues
  have hentered := h.entered.mono hbare rfl []
  rw [Layout.extend_nil] at hentered
  exact hentered.addPart hp (mirrors_openNamespace h.charted hscope hns head.id)

theorem sound_declareNamespace
    (h : s.Sound l home) (hscope : s.scopes.Mirrors home space scope) {head : NamespaceHead}
    (members : List Declaration)
    (hnew : l.declaresNamespace space (head.knownName l.options) = false)
    (hfresh : ∀ p ∈ l.placed, p.2.id ≠ head.id) :
    (s.declareNamespace scope (head.knownName l.options) head.id).Sound
      (l.extend [(space, .namespaceDecl head members)])
        (Function.update home (.namespaceBody (head.knownName l.options) :: space)
          (some s.scopes.size)) :=
  ⟨HasScope.located_declareNamespace ⟨h.located, hscope.lt_size⟩ _ head.id,
    charted_declareNamespace h.charted hscope hnew hfresh,
    h.entered.mono (continues_declareNamespace h.charted hscope hnew hfresh) rfl _⟩

/-- A declaration that declares neither a class nor a new namespace. -/
theorem Sound.extend
    (h : s.Sound l home) {d : Declaration} (hspace : (home space).isSome)
    (hclass : ∀ head members, d ≠ .classDecl head members)
    (hns : ∀ name, d.isNamespaceNamed l.options name = true → l.declaresNamespace space name = true) :
    s.Sound (l.extend [(space, d)]) home :=
  ⟨h.located, h.charted.extend hspace hclass hns,
    h.entered.mono (.refl home h.charted.ordered) rfl _⟩

end PassState

/-! ## Imports -/

namespace Pass

open Analysis
open PassState (HasScope Sound StaysLocated)

variable {l : Layout} {home : Chart} {s : PassState} {space : Space} {scope : Nat}
  {head : NamespaceHead} {members : List Declaration}

/-- A step that leaves the layout and the chart as they are. -/
structure KeepsChart (l : Layout) (home : Chart) (s s' : PassState) : Prop where
  continues : Session.Continues l home home s.toSession s'.toSession
  charted : s'.Charted l home
  tables_eq : s'.tables = s.tables

/-- What an import directive makes visible are the names of a space. -/
theorem afterOr_importMembers_charted
    (hs : s.Sound l home) (hp : (space, .namespaceDecl head members) ∈ l.placed)
    (himports : head.imports ≠ [])
    (hscope : s.scopes.Mirrors home (.namespaceBody (head.knownName l.options) :: space) scope)
    {imported : Expr}
    (hnodes : ∀ {space head members}, (space, .classDecl head members) ∈ l.placed →
      head.id ∉ imported.nodes) :
    AfterOr (importMembers scope imported) s (fun _ => KeepsChart l home s) fun _ _ => True := by
  -- Whatever the expression declares and refers to.
  let fr : Session.Frame := ⟨imported.nodes, 0, fun _ _ => True, fun _ _ => True⟩
  have hinfer : AfterOr (liftM (infer scope imported) : Pass (Option Ty)) s
      (fun _ => KeepsChart l home s) fun _ _ => True := by
    have hadmits : fr.ground.admits imported.openLocals imported.typeRefs scope s.toSession :=
      ⟨hs.located.model.formed, hscope.lt_size, Nat.zero_le _, fun _ _ => .inl (Nat.zero_le _),
        fun _ _ => .inr trivial⟩
    have hkeeps := keepsFrom_inferWithin (g := fr.ground) (R := fr.Within) scope imported
      (List.Subset.refl _) (List.Subset.refl _) (List.Subset.refl _)
    have hwithin := hkeeps.after s.toSession hadmits
    exact afterOr_analysis.mpr ⟨hs.charted.continues_of_within hwithin hnodes,
      hs.charted.of_within hwithin hnodes, rfl⟩
  refine AfterOr.bind hinfer fun type s₁ h₁ => ?_
  cases type with
  | none => exact h₁
  | some type =>
      refine afterOr_bind.mpr (afterOr_session.mpr ?_)
      split
      · rename_i imported' hmembers
        obtain ⟨d, kept, hkept, rfl⟩ := DescriptorTable.exists_kind_of_memberScope? hmembers
        have hordered : (s₁.scopes.importScope scope (kept.elim id id)).Ordered :=
          h₁.charted.ordered.modify scope (fun _ => rfl) fun _ => rfl
        let s₂ : Session := { s₁.toSession with
          model.scopes := s₁.scopes.importScope scope (kept.elim id id) }
        have hcontinues : Session.Continues l home home s₁.toSession s₂ :=
          ⟨id, h₁.charted.ordered, hordered, .importScope .., .refl _, fun _ => rfl⟩
        have hcharted : s₂.Charted l home := by
          refine h₁.charted.of_continues hcontinues (fun id' => ?_) (fun id' => ?_) (fun _ => rfl)
            fun {scope' imported'} himported => ?_
          · exact s₁.scopes.apply_get_modify (fun s => s.bindings.classifiers)
              (fun s => { s with imports := s.imports ++ [kept.elim id id] }) (fun _ => rfl) scope id'
          · exact s₁.scopes.apply_get_modify (fun s => s.bindings.namespaces)
              (fun s => { s with imports := s.imports ++ [kept.elim id id] }) (fun _ => rfl) scope id'
          · change imported' ∈ ((s₁.scopes.modify scope _).get scope').imports at himported
            rcases s₁.scopes.get_modify_cases scope scope' fun s =>
              { s with imports := s.imports ++ [kept.elim id id] } with heq | ⟨rfl, heq⟩
            · rw [heq] at himported
              exact .inl himported
            · rw [heq] at himported
              rcases List.mem_append.mp himported with himported | himported
              · exact .inl himported
              · obtain rfl := List.mem_singleton.mp himported
                exact .inr ⟨(h₁.charted.members hkept).1, space, head, members, hp, himports,
                  h₁.continues.mirrors hscope⟩
        refine afterOr_analysis.mpr ⟨?_, hcharted, h₁.tables_eq⟩
        exact h₁.continues.trans hcontinues (List.Subset.refl _)
      · split
        · have hreport : Keeps fr.Within (reportCode .semanticError imported.id
              ("Cannot import members of '" ++ type.text ++ "'")) :=
            keeps_reportOther (by decide) ..
          have hwithin := hreport.after s₁.toSession
          refine afterOr_analysis.mpr ⟨?_, h₁.charted.of_within hwithin hnodes, h₁.tables_eq⟩
          exact h₁.continues.trans (h₁.charted.continues_of_within hwithin hnodes)
            (List.Subset.refl _)
        · exact h₁

theorem afterOr_applyImport_charted
    (hs : s.Sound l home) (hp : (space, .namespaceDecl head members) ∈ l.placed)
    (hscope : s.scopes.Mirrors home (.namespaceBody (head.knownName l.options) :: space) scope)
    {i : ImportDirective} (hi : i ∈ head.imports)
    (hnodes : ∀ {space head members}, (space, .classDecl head members) ∈ l.placed →
      head.id ∉ i.nodes) :
    AfterOr (applyImport scope i) s (fun _ => KeepsChart l home s) fun _ _ => True := by
  have himports : head.imports ≠ [] := List.ne_nil_of_mem hi
  refine applyImport_cases (p := (AfterOr · s _ _)) scope i (fun _ => afterOr_throw.mpr trivial)
    ⟨.refl home hs.charted.ordered, hs.charted, rfl⟩ ?_
  intro imported himported
  refine afterOr_importMembers_charted hs hp himports hscope fun hclass hmem => ?_
  exact hnodes hclass (ImportDirective.nodes_subset_of_imported himported hmem)

/-- The import directives of a part leave the layout and the chart as they are. -/
theorem afterOr_imports_sound
    (hs : s.Sound l home) (hp : (space, .namespaceDecl head members) ∈ l.placed)
    (hscope : s.scopes.Mirrors home (.namespaceBody (head.knownName l.options) :: space) scope)
    (hnodes : ∀ {space head' members}, (space, .classDecl head' members) ∈ l.placed →
      head'.id ∉ head.nodes) :
    AfterOr (head.imports.forM (applyImport scope)) s
      (fun _ s' => Session.Continues l home home s.toSession s'.toSession ∧ s'.Sound l home)
      fun _ _ => True := by
  refine AfterOr.forM (p := fun s' : PassState =>
    Session.Continues l home home s.toSession s'.toSession ∧ s'.Sound l home) _
      (fun i hi s₁ h₁ => ?_) ⟨.refl home hs.charted.ordered, hs⟩
  have hscope₁ := h₁.1.mirrors hscope
  have happly := afterOr_applyImport_charted h₁.2 hp hscope₁ hi fun hclass hmem =>
    hnodes hclass (List.mem_cons_of_mem _ (List.mem_flatMap.mpr ⟨i, hi, hmem⟩))
  refine AfterOr.relax (AfterOr.of_keepsOr (keepsLocated_applyImport scope i) happly)
    fun _ s₂ h₂ => ?_
  have hlocated := (h₂.1 ⟨h₁.2.located, hscope₁.lt_size⟩).located h₁.2.located
  have hentered := h₁.2.entered.mono h₂.2.continues h₂.2.tables_eq []
  rw [Layout.extend_nil] at hentered
  exact ⟨h₁.1.trans h₂.2.continues (List.Subset.refl _), hlocated, h₂.2.charted, hentered⟩

/-! ## Declarations -/

/-- Declarations have been collected and charted. -/
def Charts (l : Layout) (home : Chart) (new : List (Space × Declaration)) (s s' : PassState) :
    Prop :=
  ∃ home', Session.Continues l home home' s.toSession s'.toSession ∧ s'.Sound (l.extend new) home'

/-- The scope of a part is opened, and its import directives are applied. -/
theorem afterOr_openPart_charted
    (hs : s.Sound l home) (hscope : s.scopes.Mirrors home space scope)
    (hp : (space, .namespaceDecl head members) ∈ l.placed) {descriptor kept : Nat}
    (hns : s.ChartedNamespace home space (head.knownName l.options) descriptor kept)
    (hnodes : ∀ {space head' members}, (space, .classDecl head' members) ∈ l.placed →
      head'.id ∉ head.nodes) :
    AfterOr (head.imports.forM (applyImport s.scopes.size)) (s.openNamespace scope kept head.id)
      (fun _ s' => Session.Continues l home home s.toSession s'.toSession ∧ s'.Sound l home ∧
        s'.scopes.Mirrors home (.namespaceBody (head.knownName l.options) :: space) s.scopes.size)
      fun _ _ => True := by
  have hcontinues := PassState.continues_openNamespace hs.charted hscope hns head.id
  have hmirrors := PassState.mirrors_openNamespace hs.charted hscope hns head.id
  have hsound := PassState.sound_openNamespace hs hscope hp hns
  refine AfterOr.relax (afterOr_imports_sound hsound hp hmirrors hnodes) fun _ s' h' => ?_
  exact ⟨hcontinues.trans h'.1 (List.Subset.refl _), h'.2, h'.1.mirrors hmirrors⟩

/-- A part of a namespace is collected: its namespace is found or declared, its scope is opened
and its import directives are applied. -/
theorem afterOr_collectNamespace_charted
    {l' : Layout} (hoptions : l.options = l'.options) (hapart : l'.ImportsApart)
    (hs : s.Sound l home) (hscope : s.scopes.Mirrors home space scope)
    (hplaced : l.placed ++ [(space, .namespaceDecl head members)] ⊆ l'.placed)
    (hfresh : ∀ p ∈ l.placed, p.2.id ∉ head.nodes) :
    AfterOr (collectNamespace l.options scope head) s
      (fun inner s' => ∃ home', Session.Continues l home home' s.toSession s'.toSession ∧
        s'.Sound (l.extend [(space, .namespaceDecl head members)]) home' ∧
          s'.scopes.Mirrors home' (.namespaceBody (head.knownName l.options) :: space) inner)
      fun _ _ => True := by
  let l₁ := l.extend [(space, .namespaceDecl head members)]
  have hp : (space, .namespaceDecl head members) ∈ l₁.placed :=
    List.mem_append_right _ List.mem_cons_self
  have hsub : l.placed ⊆ l₁.placed := List.subset_append_left ..
  have hnodes : ∀ {space' head' members'}, (space', .classDecl head' members') ∈ l₁.placed →
      head'.id ∉ head.nodes := by
    intro space' head' members' hclass
    rcases List.mem_append.mp hclass with hclass | hclass
    · exact hfresh _ hclass
    · exact absurd (List.mem_singleton.mp hclass) (by simp)
  have hname : l'.declaresNamespace space (head.knownName l.options) = true := by
    rw [hoptions]
    exact Layout.declaresNamespace_of_mem_placed (hplaced hp)
  have hfound := PassState.memberNamespace?_eq hs.charted hscope hoptions
    (List.Subset.trans hsub hplaced) hapart hname
  cases hknown : s.scopes.memberNamespace? scope (head.knownName l.options) with
  | none =>
      rw [hknown] at hfound
      have hnew : l.declaresNamespace space (head.knownName l.options) = false := by
        rw [← hs.charted.declared hscope.home_eq, ← hfound]
        rfl
      have hid : ∀ p ∈ l.placed, p.2.id ≠ head.id := by
        intro p hp heq
        exact hfresh p hp (heq ▸ List.mem_cons_self)
      have hcontinues := PassState.continues_declareNamespace hs.charted hscope hnew hid
      have hns := PassState.chartedNamespace_declareNamespace hs.charted hscope hnew hid
      have hsound := PassState.sound_declareNamespace hs hscope members hnew hid
      have hopen := afterOr_openPart_charted hsound (hcontinues.mirrors hscope) hp hns hnodes
      rw [PassState.size_declareNamespace] at hopen
      refine (afterOr_collectNamespace_new hknown).mpr (AfterOr.relax hopen (fun _ s' h' => ?_))
      exact ⟨_, hcontinues.trans h'.1 hsub, h'.2⟩
  | some known =>
      rw [hknown] at hfound
      obtain ⟨kept, hns⟩ := hs.charted.namespaces hscope.home_eq hfound.symm
      have hdeclares : l.declaresNamespace space (head.knownName l.options) = true := by
        rw [← hs.charted.declared hscope.home_eq, ← hfound]
        rfl
      have hsound : s.Sound l₁ home := by
        refine hs.extend (Option.isSome_of_eq_some hscope.home_eq) nofun fun name hname => ?_
        rw [← of_decide_eq_true hname]
        exact hdeclares
      have hopen := afterOr_openPart_charted hsound hscope hp hns hnodes
      refine (afterOr_collectNamespace_known hknown hns.namespaceMembers?_eq).mpr
        (AfterOr.relax hopen (fun _ s' h' => ?_))
      exact ⟨home, (Session.Continues.refl home hs.charted.ordered).trans h'.1 hsub, h'.2⟩

theorem Charts.refl (hs : s.Sound l home) : Charts l home [] s s :=
  ⟨home, .refl home hs.charted.ordered, by rwa [Layout.extend_nil]⟩

theorem Charts.trans
    {home' : Chart} {s' s'' : PassState} {new new' : List (Space × Declaration)}
    (hcontinues : Session.Continues l home home' s.toSession s'.toSession)
    (h : Charts (l.extend new) home' new' s' s'') : Charts l home (new ++ new') s s'' := by
  obtain ⟨home'', hcontinues', hsound⟩ := h
  refine ⟨home'', hcontinues.trans hcontinues' (List.subset_append_left ..), ?_⟩
  rwa [Layout.extend_append]

theorem id_mem_nodes_of_mem_placed
    {options : AnalysisOptions} {d : Declaration} {p : Space × Declaration}
    (hp : p ∈ d.placed options space) : p.2.id ∈ d.nodes := by
  refine Declaration.id_mem_nodes_of_mem_nested ?_
  rw [← Declaration.map_snd_placed options space]
  exact List.mem_map_of_mem hp

mutual

/-- Collecting a declaration charts it, with all declarations inside it. -/
theorem afterOr_collect_charted
    {l' : Layout} (hapart : l'.ImportsApart) (l : Layout) (home : Chart) (s : PassState)
    (space : Space) (scope : Nat) (d : Declaration) (hoptions : l.options = l'.options)
    (hs : s.Sound l home) (hscope : s.scopes.Mirrors home space scope)
    (hplaced : l.placed ++ d.placed l.options space ⊆ l'.placed)
    (hfresh : ∀ p ∈ l.placed, p.2.id ∉ d.nodes) (hd : d.nodes.Nodup) :
    AfterOr (collect l.options scope d) s
      (fun _ => Charts l home (d.placed l.options space) s) fun _ _ => True := by
  -- A declaration that declares no types.
  have hother : d.placed l.options space = [(space, d)] →
      (∀ head members, d ≠ .classDecl head members) →
        (∀ name, d.isNamespaceNamed l.options name = false) →
          Charts l home (d.placed l.options space) s s := by
    intro hself hclass hns
    rw [hself]
    refine ⟨home, .refl home hs.charted.ordered, ?_⟩
    refine hs.extend (Option.isSome_of_eq_some hscope.home_eq) hclass fun name hname => ?_
    exact absurd ((hns name).symm.trans hname) Bool.false_ne_true
  match d with
  | .classDecl head members =>
      obtain ⟨-, hmembers, hdisjoint⟩ := List.nodup_append.mp hd
      have hid : ∀ p ∈ l.placed, p.2.id ≠ head.id := by
        intro p hp heq
        exact hfresh p hp (heq ▸ List.mem_append_left _ List.mem_cons_self)
      have hcontinues := PassState.continues_declareClass hs.charted hscope hid
      have hsound := PassState.sound_declareClass hs hscope members hid
      have hclass := PassState.chartedClass_declareClass hs.charted hscope hid
      have hplaced' : (l.extend [(space, .classDecl head members)]).placed ++
          Declaration.placedIn l.options (.classBody head.id :: space) members ⊆ l'.placed := by
        simpa [Layout.extend, Declaration.placed] using hplaced
      have hrest := afterOr_collectAll_charted hapart
        (l.extend [(space, .classDecl head members)]) _ _ _ _ members hoptions hsound
        hclass.mirrors hplaced' (fun p hp hmem => ?_) hmembers
      · refine afterOr_bind.mpr (afterOr_collectClass.mpr ?_)
        exact AfterOr.relax hrest fun _ _ h => Charts.trans hcontinues h
      · rcases List.mem_append.mp hp with hp | hp
        · exact hfresh p hp (List.mem_append_right _ hmem)
        · obtain rfl := List.mem_singleton.mp hp
          exact hdisjoint _ List.mem_cons_self _ hmem rfl
  | .namespaceDecl head members =>
      obtain ⟨-, hmembers, hdisjoint⟩ := List.nodup_append.mp hd
      have hplaced' : (l.extend [(space, .namespaceDecl head members)]).placed ++
          Declaration.placedIn l.options (.namespaceBody (head.knownName l.options) :: space)
            members ⊆ l'.placed := by
        simpa [Layout.extend, Declaration.placed] using hplaced
      have hself : l.placed ++ [(space, .namespaceDecl head members)] ⊆ l'.placed :=
        (List.append_subset.mp hplaced').1
      have hpart := afterOr_collectNamespace_charted hoptions hapart hs hscope hself fun p hp hmem =>
        hfresh p hp (List.mem_append_left _ hmem)
      refine AfterOr.bind hpart fun inner s₁ ⟨home₁, hcontinues, hsound, hmirrors⟩ => ?_
      have hrest := afterOr_collectAll_charted hapart
        (l.extend [(space, .namespaceDecl head members)]) _ _ _ _ members hoptions hsound
        hmirrors hplaced' (fun p hp hmem => ?_) hmembers
      · exact AfterOr.relax hrest fun _ _ h => Charts.trans hcontinues h
      · rcases List.mem_append.mp hp with hp | hp
        · exact hfresh p hp (List.mem_append_right _ hmem)
        · obtain rfl := List.mem_singleton.mp hp
          exact hdisjoint _ List.mem_cons_self _ hmem rfl
  | .classObject id members =>
      obtain ⟨hid, hmembers⟩ := List.nodup_cons.mp hd
      have hsound : s.Sound (l.extend [(space, .classObject id members)]) home :=
        hs.extend (Option.isSome_of_eq_some hscope.home_eq) nofun nofun
      have hplaced' : (l.extend [(space, .classObject id members)]).placed ++
          Declaration.placedIn l.options space members ⊆ l'.placed := by
        simpa [Layout.extend, Declaration.placed] using hplaced
      have hrest := afterOr_collectAll_charted hapart
        (l.extend [(space, .classObject id members)]) _ _ _ _ members hoptions hsound
        hscope hplaced' (fun p hp hmem => ?_) hmembers
      · exact AfterOr.relax hrest fun _ _ h => Charts.trans (.refl home hs.charted.ordered) h
      · rcases List.mem_append.mp hp with hp | hp
        · exact hfresh p hp (List.mem_cons_of_mem _ hmem)
        · obtain rfl := List.mem_singleton.mp hp
          exact hid hmem
  | .typedefDecl .. | .extensionDecl .. => exact afterOr_throw.mpr trivial
  | .functionDecl _ | .propertyDecl _ | .constructorDecl _ =>
      exact hother rfl nofun fun _ => rfl

theorem afterOr_collectAll_charted
    {l' : Layout} (hapart : l'.ImportsApart) (l : Layout) (home : Chart) (s : PassState)
    (space : Space) (scope : Nat) (ds : List Declaration) (hoptions : l.options = l'.options)
    (hs : s.Sound l home) (hscope : s.scopes.Mirrors home space scope)
    (hplaced : l.placed ++ Declaration.placedIn l.options space ds ⊆ l'.placed)
    (hfresh : ∀ p ∈ l.placed, p.2.id ∉ Declaration.nodesOf ds)
    (hds : (Declaration.nodesOf ds).Nodup) :
    AfterOr (collectAll l.options scope ds) s
      (fun _ => Charts l home (Declaration.placedIn l.options space ds) s) fun _ _ => True := by
  match ds with
  | [] => exact Charts.refl hs
  | d :: rest =>
      obtain ⟨hd, hrest, hdisjoint⟩ := List.nodup_append.mp hds
      have hboth : l.placed ++ d.placed l.options space ++
          Declaration.placedIn l.options space rest ⊆ l'.placed := by
        rwa [List.append_assoc]
      have hfirst := afterOr_collect_charted hapart l home s space scope d hoptions hs hscope
        (List.append_subset.mp hboth).1
        (fun p hp hmem => hfresh p hp (List.mem_append_left _ hmem)) hd
      refine AfterOr.bind hfirst fun _ s₁ ⟨home₁, hcontinues, hsound⟩ => ?_
      have hothers := afterOr_collectAll_charted hapart (l.extend (d.placed l.options space)) home₁ s₁
        space scope rest hoptions hsound (hcontinues.mirrors hscope) hboth (fun p hp hmem => ?_) hrest
      · exact AfterOr.relax hothers fun _ _ h => Charts.trans hcontinues h
      · rcases List.mem_append.mp hp with hp | hp
        · exact hfresh p hp (List.mem_append_right _ hmem)
        · exact hdisjoint _ (id_mem_nodes_of_mem_placed hp) _ hmem rfl

end

/-! ## Files -/

/-- The chart before anything is declared: the names of the file are kept in its scope. -/
def fileChart : Chart := Function.update (fun _ => none) [] (some toplevel)

theorem eq_of_fileChart {kept : Nat} (h : fileChart space = some kept) :
    space = [] ∧ kept = toplevel := by
  by_cases hspace : space = []
  · subst hspace
    exact ⟨rfl, (Option.some.inj h).symm⟩
  · rw [fileChart, Function.update_of_ne hspace] at h
    cases h

theorem imports_get_initialState (scope : Nat) : (initialState.scopes.get scope).imports = [] := by
  match scope with
  | 0 => rfl
  | 1 => rfl
  | scope + 2 => rfl

theorem charted_initialState (options : AnalysisOptions) :
    initialState.Charted ⟨options, []⟩ fileChart := by
  have hclassifiers : ∀ scope, ∀ name : String,
      (initialState.scopes.get scope).bindings.classifiers[name]? = none := by
    intro scope name
    rw [bindings_get_initialState]
    exact Std.TreeMap.getElem?_emptyc
  have hnamespaces : ∀ scope, ∀ name : String,
      (initialState.scopes.get scope).bindings.namespaces[name]? = none := by
    intro scope name
    rw [bindings_get_initialState]
    exact Std.TreeMap.getElem?_emptyc
  refine ⟨hasScope_toplevel.located.model.formed.ordered, ?_, ?_, fun hkept => ?_,
    fun hkept hkept' => ?_, fun hkept => ?_, nofun, fun _ name => hclassifiers _ name,
    fun _ name => ?_, fun _ hbound => ?_, nofun, fun hmembers => ?_, fun himported => ?_⟩
  · exact ⟨rfl, rfl, rfl, hclassifiers _, hnamespaces _⟩
  · exact .file (Function.update_self ..) rfl rfl rfl
  · obtain ⟨-, rfl⟩ := eq_of_fileChart hkept
    exact ⟨Nat.zero_lt_one, hasScope_toplevel.lt_size, rfl⟩
  · exact (eq_of_fileChart hkept).1.trans (eq_of_fileChart hkept').1.symm
  · cases (eq_of_fileChart hkept).1
  · rw [hnamespaces]
    rfl
  · rw [hnamespaces] at hbound
    cases hbound
  · rw [get_initialState] at hmembers
    cases hmembers
  · rw [imports_get_initialState] at himported
    cases himported

theorem sound_initialState (options : AnalysisOptions) :
    initialState.Sound ⟨options, []⟩ fileChart := by
  refine ⟨hasScope_toplevel.located, charted_initialState options, nofun, fun h => ?_, fun h => ?_⟩
  · simp [initialState] at h
  · simp [initialState] at h

/-- The declarations of a file have been charted once they have been collected. -/
theorem afterOr_collectAll_sound
    (options : AnalysisOptions) {ds : List Declaration}
    (hapart : (Layout.ofFile options ds).ImportsApart) (hds : (Declaration.nodesOf ds).Nodup) :
    AfterOr (collectAll options toplevel ds) initialState
      (fun _ s => ∃ home, s.Sound (Layout.ofFile options ds) home) fun _ _ => True := by
  have hcollect := afterOr_collectAll_charted hapart ⟨options, []⟩ fileChart initialState []
    toplevel ds rfl (sound_initialState options) (charted_initialState options).file
    (List.Subset.refl _) nofun hds
  refine AfterOr.relax hcollect fun _ s h => ?_
  obtain ⟨home, -, hsound⟩ := h
  exact ⟨home, hsound⟩

end Pass

end DeclAnalysis
