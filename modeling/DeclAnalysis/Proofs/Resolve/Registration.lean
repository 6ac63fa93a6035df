import DeclAnalysis.Proofs.Resolve.Placement

/-!
# Registering declarations

Registering goes through the tree once more. What it does about a declaration depends on the
place that collecting has made for it: functions and properties are entered with the scope of
that place, constructors are attached to the class around them or else reported, and the primary
constructor of a class comes before all others. So the tables list the declarations in the order
of the tree, none of them twice and none left out.
-/

namespace DeclAnalysis

/-- The report about a constructor outside of classes. -/
def Diagnostic.misplaced (decl : ConstructorDecl) : Diagnostic :=
  .ofCode .misplacedConstructor decl.id "Constructors are only allowed inside classes"

namespace ScopeTree

variable (t : ScopeTree)

/-- The functions of a name that are bound in a scope itself. -/
def functionsAt (kept : Nat) (name : String) : List Nat :=
  (t.get kept).bindings.functions.getD name []

theorem functionsAt_addFunction
    {scope : Nat} (h : t.storage scope < t.size) (name : String) (descriptor kept : Nat)
    (name' : String) :
    (t.addFunction scope name descriptor).functionsAt kept name' =
      t.functionsAt kept name' ++
        if t.storage scope = kept ∧ name = name' then [descriptor] else [] := by
  unfold functionsAt addFunction
  by_cases hkept : t.storage scope = kept
  · subst hkept
    rw [t.get_bind_storage h]
    dsimp only
    rw [Std.TreeMap.getD_insert]
    by_cases hname : name = name'
    · subst hname
      simp
    · simp [hname]
  · rcases t.get_bind_cases scope kept _ with heq | ⟨hstorage, -⟩
    · rw [heq, if_neg fun h => hkept h.1, List.append_nil]
    · exact absurd hstorage.symm hkept

theorem functionsAt_addVariable
    (scope : Nat) (name : String) (descriptor kept : Nat) (name' : String) :
    (t.addVariable scope name descriptor).functionsAt kept name' = t.functionsAt kept name' := by
  unfold functionsAt addVariable
  rw [t.functions_get_bind (f := fun b => { b with values := b.values.insert name descriptor })
    fun _ => rfl]

/-- A scope that belongs to a declaration is contained in it. -/
theorem Ordered.containingDeclaration?_of_owner
    {t : ScopeTree} (h : t.Ordered) {scope d : Nat} (hscope : scope < t.size)
    (howner : (t.get scope).owner = some d) : t.containingDeclaration? scope = some d := by
  cases hparent : (t.get scope).parent with
  | none => rw [containingDeclaration?_of_parent_eq_none hscope hparent, howner]
  | some p => rw [h.containingDeclaration?_of_parent hparent, howner, Option.some_or]

end ScopeTree

namespace PassState

variable {s₀ s s' s'' : PassState} {around : Option Declaration} {scope : Nat}
  {p P : List (Option Declaration × Declaration)} {q : Option Declaration × Declaration}

/-! ## Places and what they belong to -/

/-- The scope in which the members of a class or namespace, or else the declarations of the
file, appear. -/
def scopeOf? (s : PassState) : Option Declaration → Option Nat
  | none => some Pass.toplevel
  | some (.classDecl head _) =>
    (s.trace.declaration? head.id).bind fun d => (s.descriptors.classData? d).map ClassData.memberScope
  | some (.namespaceDecl head _) => s.tables.namespaceScopes[head.id]?
  | some _ => none

theorem scopeOf?_eq (h : s.Houses around scope) : s.scopeOf? around = some scope := by
  cases h with
  | file => rfl
  | @classBody head members descriptor data hdescriptor hdata =>
      change (s.trace.declaration? head.id).bind _ = _
      rw [hdescriptor, Option.bind_some, hdata, Option.map_some]
  | namespaceBody hinner => exact hinner

theorem Owned.containingDeclaration?_file (hs : s.Owned) (h : s.Houses none scope) :
    s.scopes.containingDeclaration? scope = none := by
  cases h
  exact hs.file_eq

/-- The members of a class or namespace appear in a scope that is contained in the descriptor of
the class or namespace. -/
theorem Owned.exists_binds (hs : s.Owned) {d : Declaration} (h : s.Houses (some d) scope) :
    ∃ descriptor, s.Binds d descriptor ∧
      s.scopes.containingDeclaration? scope = some descriptor := by
  have hlt := hs.houses_lt h
  have hordered := hs.located.model.formed.ordered
  cases h with
  | @classBody head members descriptor data hdescriptor hdata =>
      have howner := (hs.members (DescriptorTable.memberScope?_of_classData? hdata)).1
      exact ⟨descriptor, .classDecl hdescriptor,
        hordered.containingDeclaration?_of_owner hlt howner⟩
  | namespaceBody hinner =>
      obtain ⟨descriptor, hmembers, howner⟩ := hs.parts hinner
      exact ⟨descriptor, .namespaceDecl hinner hmembers,
        hordered.containingDeclaration?_of_owner hlt howner⟩

/-- The function of a name that is kept in a scope, if the declaration is one. -/
def functionAt? (s : PassState) (kept : Nat) (name : String)
    (q : Option Declaration × Declaration) : Option FunctionDecl :=
  if (s.scopeOf? q.1).map s.scopes.storage = some kept then q.2.functionNamed? name else none

theorem functionAt?_eq_none (hq : ∀ name, q.2.functionNamed? name = none) (kept : Nat)
    (name : String) : s.functionAt? kept name q = none := by
  unfold functionAt?
  rw [hq, ite_self]

/-! ## Places that are kept -/

/-- All places are as they were, and so is what is known about other nodes than the given ones.
No expression has been remarked upon. -/
structure KeepsPlaces (nodes : List Nat) (s s' : PassState) : Prop where
  places : s.scopes.SamePlaces s'.scopes
  types : s.descriptors.SameTypes s'.descriptors
  classes_eq : s'.tables.classes = s.tables.classes
  namespaceScopes_eq : s'.tables.namespaceScopes = s.tables.namespaceScopes
  declaration?_eq : ∀ {node}, node ∉ nodes →
    s'.trace.declaration? node = s.trace.declaration? node
  declaringScopes_eq : ∀ {node : Nat}, node ∉ nodes →
    s'.tables.declaringScopes[node]? = s.tables.declaringScopes[node]?
  reports_eq : ∀ {code : DiagnosticCode}, code.IsRemark → s'.reports code = s.reports code

namespace KeepsPlaces

variable {nodes nodes' : List Nat}

theorem mono (h : KeepsPlaces nodes s s') (hsub : nodes ⊆ nodes') : KeepsPlaces nodes' s s' :=
  ⟨h.places, h.types, h.classes_eq, h.namespaceScopes_eq,
    fun hnode => h.declaration?_eq fun hmem => hnode (hsub hmem),
    fun hnode => h.declaringScopes_eq fun hmem => hnode (hsub hmem), h.reports_eq⟩

theorem refl (nodes : List Nat) (s : PassState) : KeepsPlaces nodes s s :=
  ⟨.refl _, .refl _, rfl, rfl, fun _ => rfl, fun _ => rfl, fun _ => rfl⟩

theorem trans (h : KeepsPlaces nodes s s') (h' : KeepsPlaces nodes s' s'') :
    KeepsPlaces nodes s s'' :=
  ⟨h.places.trans h'.places, h.types.trans h'.types, h'.classes_eq.trans h.classes_eq,
    h'.namespaceScopes_eq.trans h.namespaceScopes_eq,
    fun hnode => (h'.declaration?_eq hnode).trans (h.declaration?_eq hnode),
    fun hnode => (h'.declaringScopes_eq hnode).trans (h.declaringScopes_eq hnode),
    fun hcode => (h'.reports_eq hcode).trans (h.reports_eq hcode)⟩

theorem of_signs
    (h : Session.Signs nodes s.toSession s'.toSession) (htables : s'.tables = s.tables) :
    KeepsPlaces nodes s s' := by
  refine ⟨?_, h.sameClasses.toSameTypes, congrArg Tables.classes htables,
    congrArg Tables.namespaceScopes htables, h.declaration?_eq, fun _ => ?_, h.reports_eq⟩
  · rw [h.scopes_eq]
    exact .refl _
  · rw [htables]

end KeepsPlaces

/-! ## One declaration -/

/-- What registering a declaration attaches to a class: a primary constructor if the declaration
is the class itself, and else a constructor if it stands in the class. -/
inductive Attaches (s : Session) (head : ClassHead) (q : Option Declaration × Declaration)
    (data data' : ClassData) : Prop
  | self {members : List Declaration} {constructor : Option Nat}
      (hself : q.2 = .classDecl head members)
      (hconstructor : constructor.isSome = head.primaryConstructor.isSome)
      (hconstructors : data'.constructors = data.constructors ++ constructor.toList)
      (hprimary : data'.primaryConstructor = constructor.or data.primaryConstructor)
  | member (hother : ∀ members, q.2 ≠ .classDecl head members)
      (hconstructors : data'.constructors.map some = data.constructors.map some ++
        (Declaration.constructorOf? head.id q).toList.map fun c => s.trace.declaration? c.id)
      (hprimary : data'.primaryConstructor = data.primaryConstructor)

/-- What registering a declaration does, given with what is around it and with the state in which
all places have been made. -/
structure Enters (s₀ : PassState) (q : Option Declaration × Declaration) (s s' : PassState) :
    Prop where
  keeps : KeepsPlaces q.2.innerNodes s s'
  functions_eq : s'.tables.functions.toList.map (Prod.map id some) =
    s.tables.functions.toList.map (Prod.map id some) ++
      s'.entries FunctionLike.id (Declaration.functionLike? q).toList
  properties_eq : s'.tables.properties.toList.map (Prod.map id some) =
    s.tables.properties.toList.map (Prod.map id some) ++
      s'.entries PropertyDecl.id q.2.property?.toList
  misplaced_eq : s'.misplaced =
    s.misplaced ++ (Declaration.misplacedConstructor? q).toList.map Diagnostic.misplaced
  declaring : (Declaration.functionLike? q).isSome ∨ q.2.property?.isSome → ∃ scope,
    s₀.Houses q.1 scope ∧ s'.tables.declaringScopes[q.2.id]? = some scope
  outlines : ∀ {head : ClassHead} {d : Nat} {data : ClassData},
    (head, d) ∈ s₀.tables.classes.toList → (s.descriptors.get d).kind.outline? = some data →
      ∃ data', (s'.descriptors.get d).kind.outline? = some data' ∧
        Attaches s'.toSession head q data data'
  functionsAt_eq : ∀ (kept : Nat) (name : String),
    (s'.scopes.functionsAt kept name).map some = (s.scopes.functionsAt kept name).map some ++
      (s₀.functionAt? kept name q).toList.map fun f => s'.trace.declaration? f.id

/-- Nothing is attached to a class that has nothing to do with the declaration. -/
theorem Attaches.refl
    {s : Session} {head : ClassHead} (hclass : q.2.classHead? = none)
    (hconstructor : Declaration.constructorOf? head.id q = none) (data : ClassData) :
    Attaches s head q data data := by
  refine .member (fun members hself => ?_) ?_ rfl
  · rw [hself] at hclass
    cases hclass
  · rw [hconstructor]
    exact (List.append_nil _).symm

/-- A declaration that is not registered itself. -/
theorem Enters.of_signs
    (h : Session.Signs q.2.innerNodes s.toSession s'.toSession) (htables : s'.tables = s.tables)
    (hq : q.2.Inert) : Enters s₀ q s s' := by
  have hnone : Declaration.functionLike? q = none ∧ q.2.property? = none ∧
      Declaration.misplacedConstructor? q = none ∧ q.2.classHead? = none ∧
        (∀ node, Declaration.constructorOf? node q = none) ∧
          ∀ name, q.2.functionNamed? name = none := by
    obtain ⟨around, d⟩ := q
    cases hq <;> exact ⟨rfl, rfl, rfl, rfl, fun _ => rfl, fun _ => rfl⟩
  obtain ⟨hfunction, hproperty, hmisplaced, hclass, hconstructor, hnamed⟩ := hnone
  refine ⟨.of_signs h htables, ?_, ?_, ?_, ?_, fun {head d data} _ hdata => ⟨data, ?_, ?_⟩,
    fun kept name => ?_⟩
  · rw [htables, hfunction]
    exact (List.append_nil _).symm
  · rw [htables, hproperty]
    exact (List.append_nil _).symm
  · rw [h.misplaced_eq, hmisplaced]
    exact (List.append_nil _).symm
  · rw [hfunction, hproperty]
    simp
  · exact (h.sameClasses.outline?_eq d).trans hdata
  · exact .refl hclass (hconstructor _) data
  · rw [h.scopes_eq, functionAt?_eq_none hnamed]
    exact (List.append_nil _).symm

/-! ## Several declarations -/

/-- Places have been made for all declarations, which are given with what is around each, and
the classes among them have been entered in their order; nothing has been registered. -/
structure Ready (P : List (Option Declaration × Declaration)) (s : PassState) : Prop where
  distinct : (P.flatMap fun q => q.2.ownNodes).Nodup
  owned : s.Owned
  unregistered : s.Unregistered
  classes_eq : s.tables.classes.toList.map (Prod.map id some) =
    s.entries ClassHead.id (P.filterMap fun q => q.2.classHead?)
  declaring : ∀ q ∈ P, q.2.classHead?.isSome → ∃ scope,
    s.Houses q.1 scope ∧ s.tables.declaringScopes[q.2.id]? = some scope

namespace Ready

variable (h : Ready P s)

include h

theorem declaration?_eq {head : ClassHead} {d : Nat} (hd : (head, d) ∈ s.tables.classes.toList) :
    s.trace.declaration? head.id = some d :=
  (Session.declaration?_of_mem_listed h.classes_eq hd).2

theorem exists_mem_classes
    (hq : q ∈ P) {head : ClassHead} {members : List Declaration}
    (hself : q.2 = .classDecl head members) : ∃ d, (head, d) ∈ s.tables.classes.toList := by
  have hhead : head ∈ P.filterMap fun q => q.2.classHead? :=
    List.mem_filterMap.mpr ⟨q, hq, by rw [hself]; rfl⟩
  exact Session.exists_mem_listed h.classes_eq hhead

theorem mem_classes
    (hq : q ∈ P) {head : ClassHead} {members : List Declaration}
    (hself : q.2 = .classDecl head members) {d : Nat}
    (hd : s.trace.declaration? head.id = some d) : (head, d) ∈ s.tables.classes.toList := by
  obtain ⟨d', hd'⟩ := h.exists_mem_classes hq hself
  obtain rfl := Option.some.inj ((h.declaration?_eq hd').symm.trans hd)
  exact hd'

/-- A descriptor is that of one class only. -/
theorem head_eq
    {head head' : ClassHead} {d : Nat} (hd : (head, d) ∈ s.tables.classes.toList)
    (hd' : (head', d) ∈ s.tables.classes.toList) : head = head' :=
  congrArg Prod.fst (List.inj_on_of_nodup_map h.owned.classes_nodup hd hd' rfl)

end Ready

/-- What has been attached to a class when some declarations have been registered: a primary
constructor if the class is one of them, and the constructors that stand in it. -/
structure Attached (s : Session) (p : List (Option Declaration × Declaration)) (head : ClassHead)
    (data : ClassData) : Prop where
  isSome_iff : data.primaryConstructor.isSome ↔
    head.primaryConstructor.isSome ∧ ∃ q ∈ p, ∃ members, q.2 = .classDecl head members
  constructors_eq : data.constructors.map some = data.primaryConstructor.toList.map some ++
    (p.filterMap (Declaration.constructorOf? head.id)).map fun c => s.trace.declaration? c.id

/-- The state after some of the declarations have been registered. -/
structure Registers
    (P : List (Option Declaration × Declaration)) (s₀ : PassState)
    (p : List (Option Declaration × Declaration)) (s : PassState) : Prop where
  keeps : KeepsPlaces (P.flatMap fun q => q.2.innerNodes) s₀ s
  functions_eq : s.tables.functions.toList.map (Prod.map id some) =
    s.entries FunctionLike.id (p.filterMap Declaration.functionLike?)
  properties_eq : s.tables.properties.toList.map (Prod.map id some) =
    s.entries PropertyDecl.id (p.filterMap fun q => q.2.property?)
  misplaced_eq : s.misplaced =
    (p.filterMap Declaration.misplacedConstructor?).map Diagnostic.misplaced
  declaring : ∀ q ∈ p, (Declaration.functionLike? q).isSome ∨ q.2.property?.isSome → ∃ scope,
    s₀.Houses q.1 scope ∧ s.tables.declaringScopes[q.2.id]? = some scope
  outlines : ∀ {head : ClassHead} {d : Nat}, (head, d) ∈ s₀.tables.classes.toList →
    ∃ data, (s.descriptors.get d).kind.outline? = some data ∧ Attached s.toSession p head data
  functionsAt_eq : ∀ (kept : Nat) (name : String), (s.scopes.functionsAt kept name).map some =
    (p.filterMap (s₀.functionAt? kept name)).map fun f => s.trace.declaration? f.id
  closed : ∀ q ∈ p, ∀ e ∈ q.1, e ∈ p.map Prod.snd

/-! ### One more declaration -/

theorem filterMap_append_singleton
    {α β : Type} (f : α → Option β) (xs : List α) (x : α) :
    (xs ++ [x]).filterMap f = xs.filterMap f ++ (f x).toList := by
  rw [List.filterMap_append]
  cases hx : f x <;> simp [hx]

/-- The declarations that come first have other nodes than the next one. -/
theorem Ready.not_mem_ownNodes
    (h : Ready P s) (hp : p ++ [q] <+: P) :
    ∀ q' ∈ p, ∀ node ∈ q'.2.ownNodes, node ∉ q.2.ownNodes := by
  have hnodup : ((p ++ [q]).flatMap fun q => q.2.ownNodes).Nodup := by
    obtain ⟨rest, rfl⟩ := hp
    have hdistinct := h.distinct
    rw [List.flatMap_append] at hdistinct
    exact (List.nodup_append.mp hdistinct).1
  rw [List.flatMap_append, List.flatMap_singleton] at hnodup
  intro q' hq' node hnode hmem
  refine (List.nodup_append.mp hnodup).2.2 _ ?_ _ hmem rfl
  exact List.mem_flatMap.mpr ⟨q', hq', hnode⟩

theorem Ready.id_not_mem
    (h : Ready P s) (hp : p ++ [q] <+: P) : ∀ q' ∈ p, q'.2.id ∉ q.2.ownNodes :=
  fun q' hq' => h.not_mem_ownNodes hp q' hq' _ q'.2.id_mem_ownNodes

section

variable (hfresh : ∀ q' ∈ p, q'.2.id ∉ q.2.ownNodes) (hkeeps : KeepsPlaces q.2.innerNodes s s')

include hfresh

include hkeeps in
/-- What has been recorded about the declarations that came before is still the same. -/
theorem KeepsPlaces.declaration?_of_mem
    {α : Type} {f : Option Declaration × Declaration → Option α} {id : α → Nat}
    (hid : ∀ {q x}, f q = some x → id x = q.2.id) :
    ∀ x ∈ p.filterMap f, s'.trace.declaration? (id x) = s.trace.declaration? (id x) := by
  intro x hx
  obtain ⟨q', hq', hx⟩ := List.mem_filterMap.mp hx
  refine hkeeps.declaration?_eq fun hmem => hfresh q' hq' (q.2.innerNodes_subset ?_)
  exact hid hx ▸ hmem

/-- Nothing has been attached to a class before the class itself is registered: what stands in
it comes after it. -/
theorem Attached.eq_nil_of_self
    {head : ClassHead} {members : List Declaration} (hself : q.2 = .classDecl head members)
    (hclosed : ∀ q ∈ p, ∀ e ∈ q.1, e ∈ p.map Prod.snd) {data : ClassData}
    (h : Attached s.toSession p head data) :
    p.filterMap (Declaration.constructorOf? head.id) = [] ∧ data.primaryConstructor = none ∧
      data.constructors = [] := by
  have hother : ∀ q' ∈ p, ∀ head' members', q'.2 = .classDecl head' members' →
      head'.id ≠ head.id := by
    intro q' hq' head' members' hself' hid
    have hmem := hfresh q' hq'
    rw [hself', hself] at hmem
    exact hmem (List.mem_cons.mpr (.inl hid))
  have hnone : p.filterMap (Declaration.constructorOf? head.id) = [] := by
    refine List.filterMap_eq_nil_iff.mpr fun q' hq' => ?_
    refine Option.eq_none_iff_forall_ne_some.mpr fun c hc => ?_
    obtain ⟨-, head', members', haround, hid⟩ :=
      Declaration.exists_classDecl_of_constructorOf? hc
    obtain ⟨q'', hq'', heq⟩ := List.mem_map.mp (hclosed q' hq' _ haround)
    exact hother q'' hq'' head' members' heq hid
  have hprimary : data.primaryConstructor = none := by
    rw [← Option.not_isSome_iff_eq_none, h.isSome_iff]
    rintro ⟨-, q', hq', members', hself'⟩
    exact hother q' hq' head members' hself' rfl
  have hconstructors := h.constructors_eq
  rw [hprimary, hnone] at hconstructors
  exact ⟨hnone, hprimary, List.map_eq_nil_iff.mp hconstructors⟩

include hkeeps in
theorem Attached.step
    (hclosed : ∀ q ∈ p, ∀ e ∈ q.1, e ∈ p.map Prod.snd) {head : ClassHead} {data data' : ClassData}
    (h : Attached s.toSession p head data) (hattaches : Attaches s'.toSession head q data data') :
    Attached s'.toSession (p ++ [q]) head data' := by
  cases hattaches with
  | @self members constructor hself hconstructor hconstructors hprimary =>
      obtain ⟨hnone, hbare, hnil⟩ := h.eq_nil_of_self hfresh hself hclosed
      rw [hbare, Option.or_none] at hprimary
      rw [hnil, List.nil_append] at hconstructors
      have hother : Declaration.constructorOf? head.id q = none :=
        Declaration.constructorOf?_eq_none (fun _ hc => by cases hself.symm.trans hc) _
      refine ⟨?_, ?_⟩
      · rw [hprimary, hconstructor]
        refine ⟨fun hsome => ⟨hsome, q, ?_, members, hself⟩, fun hsome => hsome.1⟩
        exact List.mem_append_right _ List.mem_cons_self
      · rw [filterMap_append_singleton, hnone, hother, hconstructors, hprimary]
        exact (List.append_nil _).symm
  | member hother hconstructors hprimary =>
      refine ⟨?_, ?_⟩
      · rw [hprimary, h.isSome_iff]
        refine and_congr_right fun _ => ⟨?_, ?_⟩
        · rintro ⟨q', hq', hself⟩
          exact ⟨q', List.mem_append_left _ hq', hself⟩
        · rintro ⟨q', hq', members, hself⟩
          rcases List.mem_append.mp hq' with hq' | hq'
          · exact ⟨q', hq', members, hself⟩
          · rw [List.mem_singleton.mp hq'] at hself
            exact absurd hself (hother members)
      · have hid : ∀ {q : Option Declaration × Declaration} {c : ConstructorDecl},
            Declaration.constructorOf? head.id q = some c → c.id = q.2.id := by
          intro q c hc
          rw [(Declaration.exists_classDecl_of_constructorOf? hc).1]
          rfl
        rw [hconstructors, h.constructors_eq, filterMap_append_singleton, List.map_append,
          hprimary, List.append_assoc,
          List.map_congr_left (hkeeps.declaration?_of_mem hfresh hid)]

end

namespace Registers

theorem refl (h₀ : Ready P s₀) : Registers P s₀ [] s₀ := by
  refine ⟨.refl _ s₀, ?_, ?_, h₀.unregistered.misplaced_eq, nofun, fun {head d} hd => ?_,
    fun kept name => ?_, nofun⟩
  · rw [h₀.unregistered.functions_eq]
    rfl
  · rw [h₀.unregistered.properties_eq]
    rfl
  · have hclass := h₀.owned.classes_isSome d (List.mem_map_of_mem (f := Prod.snd) hd)
    obtain ⟨data, hdata⟩ := Option.isSome_iff_exists.mp hclass
    have houtline := DescriptorTable.outline?_of_classData? hdata
    obtain ⟨hconstructors, hprimary⟩ := h₀.unregistered.outlines houtline
    refine ⟨_, houtline, ?_, ?_⟩
    · rw [hprimary]
      simp
    · rw [hprimary, hconstructors]
      rfl
  · unfold ScopeTree.functionsAt
    rw [h₀.unregistered.unbound]
    rfl

/-- One more declaration is registered, after what is around it. -/
theorem step
    (h₀ : Ready P s₀) (h : Registers P s₀ p s) (hp : p ++ [q] <+: P)
    (haround : ∀ e ∈ q.1, e ∈ p.map Prod.snd) (henters : Enters s₀ q s s') :
    Registers P s₀ (p ++ [q]) s' := by
  have hfresh := h₀.id_not_mem hp
  have hq : q.2.innerNodes ⊆ P.flatMap fun q => q.2.innerNodes := fun node hnode =>
    List.mem_flatMap.mpr ⟨q, hp.subset (List.mem_append_right _ List.mem_cons_self), hnode⟩
  refine ⟨h.keeps.trans (henters.keeps.mono hq), ?_, ?_, ?_, fun q' hq' hlisted => ?_,
    fun {head d} hd => ?_, fun kept name => ?_, fun q' hq' e he => ?_⟩
  · rw [henters.functions_eq, h.functions_eq, filterMap_append_singleton, Session.entries_append,
      Session.entries_congr (henters.keeps.declaration?_of_mem hfresh
        Declaration.id_of_functionLike?)]
  · have hid : ∀ {q : Option Declaration × Declaration} {decl : PropertyDecl},
        q.2.property? = some decl → decl.id = q.2.id := by
      intro q decl hdecl
      rw [Declaration.eq_of_property? hdecl]
      rfl
    rw [henters.properties_eq, h.properties_eq, filterMap_append_singleton, Session.entries_append,
      Session.entries_congr (henters.keeps.declaration?_of_mem hfresh hid)]
  · rw [henters.misplaced_eq, h.misplaced_eq, filterMap_append_singleton, List.map_append]
  · rcases List.mem_append.mp hq' with hq' | hq'
    · obtain ⟨scope, hscope, hdeclaring⟩ := h.declaring q' hq' hlisted
      have hkept := henters.keeps.declaringScopes_eq fun hmem =>
        hfresh q' hq' (q.2.innerNodes_subset hmem)
      exact ⟨scope, hscope, hkept.trans hdeclaring⟩
    · obtain rfl := List.mem_singleton.mp hq'
      exact henters.declaring hlisted
  · obtain ⟨data, hdata, hattached⟩ := h.outlines hd
    obtain ⟨data', hdata', hattaches⟩ := henters.outlines hd hdata
    exact ⟨data', hdata', hattached.step hfresh henters.keeps h.closed hattaches⟩
  · have hid : ∀ {q : Option Declaration × Declaration} {f : FunctionDecl},
        s₀.functionAt? kept name q = some f → f.id = q.2.id := by
      intro q f hf
      unfold functionAt? at hf
      split at hf
      · rw [Declaration.eq_of_functionNamed? hf]
        rfl
      · cases hf
    rw [henters.functionsAt_eq, h.functionsAt_eq, filterMap_append_singleton, List.map_append,
      List.map_congr_left (henters.keeps.declaration?_of_mem hfresh hid)]
  · rw [List.map_append]
    rcases List.mem_append.mp hq' with hq' | hq'
    · exact List.mem_append_left _ (h.closed q' hq' e he)
    · rw [List.mem_singleton.mp hq'] at he
      exact List.mem_append_left _ (haround e he)

end Registers

end PassState

end DeclAnalysis
