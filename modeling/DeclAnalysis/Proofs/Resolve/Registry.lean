import DeclAnalysis.Proofs.Resolve.Denotation
import DeclAnalysis.Proofs.Resolve.Entering
import DeclAnalysis.Proofs.Resolve.NamespaceIdentity

/-!
# What is registered

Collecting and registering a tree go through it separately, and with different cases. Together
they lose nothing and enter nothing twice: the tables list the declarations of the tree in its
order, each with the scope it stands in, constructors are attached to their classes or reported,
and the functions of a class or namespace are those that are declared in its space.
-/

namespace DeclAnalysis

namespace PassState

variable {s s' : PassState} {around : Option Declaration} {scope : Nat}
  {P : List (Option Declaration × Declaration)} {nodes : List Nat}

/-- The class or namespace around a declaration is what contains a scope, or else nothing does. -/
def ContainedIn (s : PassState) (around : Option Declaration) (scope : Nat) : Prop :=
  match around with
  | none => s.scopes.containingDeclaration? scope = none
  | some d => ∃ descriptor, s.Binds d descriptor ∧
      s.scopes.containingDeclaration? scope = some descriptor

/-- All declarations have been registered, which are given with what is around each: everything
is entered once, in the order of the declarations. -/
structure Registry (P : List (Option Declaration × Declaration)) (s : PassState) : Prop where
  classes_eq : s.tables.classes.toList.map (Prod.map id some) =
    s.entries ClassHead.id (P.filterMap fun q => q.2.classHead?)
  functions_eq : s.tables.functions.toList.map (Prod.map id some) =
    s.entries FunctionLike.id (P.filterMap Declaration.functionLike?)
  properties_eq : s.tables.properties.toList.map (Prod.map id some) =
    s.entries PropertyDecl.id (P.filterMap fun q => q.2.property?)
  misplaced_eq : s.misplaced =
    (P.filterMap Declaration.misplacedConstructor?).map Diagnostic.misplaced
  declaring : ∀ q ∈ P,
    q.2.classHead?.isSome ∨ (Declaration.functionLike? q).isSome ∨ q.2.property?.isSome →
      ∃ scope, s.tables.declaringScopes[q.2.id]? = some scope ∧ s.ContainedIn q.1 scope
  constructors : ∀ {head : ClassHead} {d : Nat}, (head, d) ∈ s.tables.classes.toList →
    ∃ data, s.descriptors.classData? d = some data ∧
      data.primaryConstructor.isSome = head.primaryConstructor.isSome ∧
        data.constructors.map some = data.primaryConstructor.toList.map some ++
          (P.filterMap (Declaration.constructorOf? head.id)).map fun c =>
            s.trace.declaration? c.id

/-! ## Places that last -/

namespace KeepsPlaces

variable (h : KeepsPlaces nodes s s')

include h

theorem houses
    (hscope : s.Houses around scope)
    (haround : ∀ head ∈ around.bind Declaration.classHead?, head.id ∉ nodes) :
    s'.Houses around scope := by
  cases hscope with
  | file => exact .file
  | @classBody head members descriptor data hdescriptor hdata =>
      obtain ⟨data', hdata', hmembers⟩ := h.types.classData? hdata
      rw [← hmembers]
      exact .classBody ((h.declaration?_eq (haround head rfl)).trans hdescriptor) hdata'
  | namespaceBody hinner =>
      refine .namespaceBody ?_
      rw [h.namespaceScopes_eq]
      exact hinner

theorem binds_iff
    {d : Declaration} (hd : ∀ head ∈ d.classHead?, head.id ∉ nodes) {descriptor : Nat} :
    s'.Binds d descriptor ↔ s.Binds d descriptor := by
  constructor
  · rintro (hdescriptor | ⟨hinner, hmembers⟩)
    · refine .classDecl ?_
      rw [← h.declaration?_eq (hd _ rfl)]
      exact hdescriptor
    · refine .namespaceDecl (h.namespaceScopes_eq ▸ hinner) ?_
      rw [← h.types.namespaceMembers?_eq, ← h.places.storage_eq]
      exact hmembers
  · rintro (hdescriptor | ⟨hinner, hmembers⟩)
    · refine .classDecl ?_
      rw [h.declaration?_eq (hd _ rfl)]
      exact hdescriptor
    · refine .namespaceDecl (h.namespaceScopes_eq ▸ hinner) ?_
      rw [h.types.namespaceMembers?_eq, h.places.storage_eq]
      exact hmembers

/-- The scope of a place is still contained in what it belongs to. -/
theorem containedIn
    (hs : s.Owned) (hscope : s.Houses around scope)
    (haround : ∀ head ∈ around.bind Declaration.classHead?, head.id ∉ nodes) :
    s'.ContainedIn around scope := by
  cases around with
  | none =>
      exact (h.places.containingDeclaration?_eq scope).trans (hs.containingDeclaration?_file hscope)
  | some d =>
      obtain ⟨descriptor, hbinds, hcontaining⟩ := hs.exists_binds hscope
      refine ⟨descriptor, (h.binds_iff fun head hhead => haround head hhead).mpr hbinds, ?_⟩
      rw [h.places.containingDeclaration?_eq]
      exact hcontaining

end KeepsPlaces

end PassState

namespace Pass

open Analysis
open PassState (Collects KeepsPlaces Owned Ready Registers Registry Unregistered)

/-! ## Before registration -/

theorem owned_initialState : initialState.Owned := by
  refine ⟨hasScope_toplevel.located, hasScope_toplevel.lt_size, rfl, fun hmembers => ?_,
    fun hinner => ?_, List.nodup_nil, nofun⟩
  · rw [get_initialState] at hmembers
    cases hmembers
  · simp [initialState] at hinner

theorem unregistered_initialState : initialState.Unregistered := by
  refine ⟨fun houtline => ?_, fun scope => ?_, rfl, rfl, rfl⟩
  · rw [get_initialState] at houtline
    cases houtline
  · rw [bindings_get_initialState]

/-- Resolving supertypes leaves alone all that registration is about. -/
theorem afterOr_resolveClasses_signs
    {s : PassState} {nodes : List Nat}
    (hnodes : ∀ entry ∈ s.tables.classes.toList, entry.1.nodes.tail ⊆ nodes) :
    AfterOr resolveClasses s
      (fun _ s' => Session.Signs nodes s.toSession s'.toSession ∧ s'.tables = s.tables)
      fun _ _ => True := by
  refine afterOr_bind.mpr (afterOr_tables.mpr ?_)
  let Signed : PassState → Prop := fun s' =>
    Session.Signs nodes s.toSession s'.toSession ∧ s'.tables = s.tables
  refine AfterOr.forM (p := Signed) _ (fun entry hentry s₁ h₁ => ?_)
    ⟨refl_of (Session.Signs nodes) s.toSession, rfl⟩
  have hfound : AfterOr (ofExcept (s.tables.declaringScope entry.1.id)) s₁
      (fun _ => Signed) fun _ => Signed := afterOr_declaringScope h₁ fun _ _ => h₁
  refine AfterOr.bind (AfterOr.forget hfound)
    fun scope s₂ h₂ => ?_
  have hresolve : KeepsOr (Session.Signs nodes) (resolveClass scope entry.1 entry.2) :=
    Session.Ground.free_keepsOr (keepsFrom_resolveClass
      (List.Subset.trans entry.1.supertypeRefs_subset (hnodes entry hentry))
      (List.Subset.refl _) scope entry.2)
  refine afterOr_faultyAnalysis.mpr (AfterOr.relax (hresolve.afterOr s₂.toSession)
    (fun _ s₃ h₃ => ?_))
  exact ⟨trans_of (Session.Signs nodes) h₂.1 h₃, h₂.2⟩

section

variable {P : List (Option Declaration × Declaration)} {s s' : PassState}

/-- Only classes of the tree have been entered. -/
theorem nodes_tail_subset_of_collects
    {nodes : List Nat} (hs : Collects P nodes initialState s) :
    ∀ entry ∈ s.tables.classes.toList,
      entry.1.nodes.tail ⊆ P.flatMap fun q => q.2.innerNodes := by
  intro entry hentry node hnode
  have hclasses : s.tables.classes.toList.map (Prod.map id some) =
      s.entries ClassHead.id (P.filterMap fun q => q.2.classHead?) := hs.classes_eq
  obtain ⟨hhead, -⟩ := Session.declaration?_of_mem_listed hclasses hentry
  obtain ⟨q, hq, hclass⟩ := List.mem_filterMap.mp hhead
  obtain ⟨members, hself⟩ := Declaration.exists_members_of_classHead? hclass
  refine List.mem_flatMap.mpr ⟨q, hq, ?_⟩
  rw [hself]
  exact hnode

variable (hdistinct : (P.flatMap fun q => q.2.ownNodes).Nodup)

include hdistinct

/-- The node of a class is not among the inner nodes of any declaration. -/
theorem id_not_mem_innerNodes_of_mem
    {head : ClassHead} (hhead : head ∈ P.filterMap fun q => q.2.classHead?) :
    head.id ∉ P.flatMap fun q => q.2.innerNodes := by
  obtain ⟨q, hq, hclass⟩ := List.mem_filterMap.mp hhead
  obtain ⟨members, hself⟩ := Declaration.exists_members_of_classHead? hclass
  intro hmem
  obtain ⟨q', hq', hnode⟩ := List.mem_flatMap.mp hmem
  exact Declaration.id_not_mem_innerNodes (f := Prod.snd) hdistinct hq hq' hself hnode

theorem id_not_mem_innerNodes_of_around
    {around : Option Declaration} (haround : ∀ e ∈ around, e ∈ P.map Prod.snd) :
    ∀ head ∈ around.bind Declaration.classHead?,
      head.id ∉ P.flatMap fun q => q.2.innerNodes := by
  intro head hhead
  obtain ⟨members, rfl⟩ := Declaration.exists_classDecl_of_classHead? hhead
  obtain ⟨q, hq, heq⟩ := List.mem_map.mp (haround _ rfl)
  refine id_not_mem_innerNodes_of_mem hdistinct (List.mem_filterMap.mpr ⟨q, hq, ?_⟩)
  rw [heq]
  rfl

/-- Everything is ready for registration once supertypes have been resolved. -/
theorem ready_of_collects
    {nodes : List Nat} (hs : Collects P nodes initialState s)
    (hclosed : ∀ q ∈ P, ∀ e ∈ q.1, e ∈ P.map Prod.snd)
    (hsigns : Session.Signs (P.flatMap fun q => q.2.innerNodes) s.toSession s'.toSession)
    (htables : s'.tables = s.tables) : Ready P s' := by
  have howned := hs.prepares.owned owned_initialState
  have hunregistered := hs.prepares.unregistered unregistered_initialState
  have hkeeps : KeepsPlaces _ s s' := .of_signs hsigns htables
  have hprepares : PassState.Prepares (P.flatMap fun q => q.2.innerNodes) s s' := by
    refine .of_reserves hsigns.reserves htables fun hlocated => ?_
    have hmodel : s'.model.Located := by
      have hwith : (⟨s.model.scopes, s'.model.descriptors⟩ : Model).Located :=
        hlocated.model.of_sameTypes hsigns.sameClasses.toSameTypes
      have hscopes : s'.model.scopes = s.model.scopes := hsigns.scopes_eq
      rw [← hscopes] at hwith
      exact hwith
    exact hlocated.of_model hmodel (hsigns.scopes_eq ▸ Nat.le_refl _) htables
  have hclasses := hs.classes_eq
  refine ⟨hdistinct, hprepares.owned howned, hprepares.unregistered hunregistered, ?_,
    fun q hq hclass => ?_⟩
  · rw [htables, hclasses]
    exact (Session.entries_congr fun head hhead =>
      hsigns.declaration?_eq (id_not_mem_innerNodes_of_mem hdistinct hhead)).symm
  · obtain ⟨scope, hscope, hdeclaring⟩ := hs.declaring q hq hclass
    exact ⟨scope, hkeeps.houses hscope (id_not_mem_innerNodes_of_around hdistinct (hclosed q hq)),
      htables ▸ hdeclaring⟩

end

/-- Resolving supertypes gets everything ready for registration. -/
theorem afterOr_resolveClasses_ready
    {ds : List Declaration} (hds : (Declaration.nodesOf ds).Nodup) {s : PassState}
    (hs : Collects (Declaration.enclosedIn none ds) (Declaration.nodesOf ds) initialState s) :
    AfterOr resolveClasses s (fun _ s' => Ready (Declaration.enclosedIn none ds) s' ∧
      KeepsPlaces ((Declaration.enclosedIn none ds).flatMap fun q => q.2.innerNodes) s s')
      fun _ _ => True := by
  have hdistinct : ((Declaration.enclosedIn none ds).flatMap fun q => q.2.ownNodes).Nodup := by
    rw [Declaration.flatMap_ownNodes_enclosedIn]
    exact hds
  refine AfterOr.relax (afterOr_resolveClasses_signs (nodes_tail_subset_of_collects hs))
    fun _ s' h => ?_
  obtain ⟨hsigns, htables⟩ := h
  refine ⟨ready_of_collects hdistinct hs (fun q hq e he => ?_) hsigns htables,
    .of_signs hsigns htables⟩
  exact Declaration.mem_map_snd_of_mem_around hq he

/-- Registration enters the declarations of a file that everything is ready for. -/
theorem afterOr_registerAll_file
    {ds : List Declaration} {s : PassState} (hs : Ready (Declaration.enclosedIn none ds) s) :
    AfterOr (registerAll toplevel ds) s
      (fun _ s' => Registers (Declaration.enclosedIn none ds) s (Declaration.enclosedIn none ds) s')
      fun _ _ => True :=
  afterOr_registerAll_registers hs none toplevel ds [] s (List.prefix_refl _) nofun .file (.refl hs)

end Pass

/-! ## After registration -/

/-- The functions of a name that are declared directly in a space, in the order of their
declarations. -/
def Layout.functionsIn (l : Layout) (space : Space) (name : String) : List FunctionDecl :=
  l.placed.filterMap fun p => if p.1 = space then p.2.functionNamed? name else none

namespace PassState

variable {P : List (Option Declaration × Declaration)} {s₀ s₁ s : PassState}

/-- When all declarations have been registered, all of them are entered. -/
theorem Registers.registry
    (h₀ : Ready P s₀) (h : Registers P s₀ P s) : s.Registry P := by
  have hclassOf : ∀ {q : Option Declaration × Declaration}, q ∈ P → q.2.classHead?.isSome →
      q.2.id ∉ P.flatMap fun q => q.2.innerNodes := by
    intro q hq hclass
    obtain ⟨head, hhead⟩ := Option.isSome_iff_exists.mp hclass
    obtain ⟨members, hself⟩ := Declaration.exists_members_of_classHead? hhead
    rw [hself]
    exact Pass.id_not_mem_innerNodes_of_mem h₀.distinct (List.mem_filterMap.mpr ⟨q, hq, hhead⟩)
  refine ⟨?_, h.functions_eq, h.properties_eq, h.misplaced_eq, fun q hq hlisted => ?_,
    fun {head d} hd => ?_⟩
  · rw [h.keeps.classes_eq, h₀.classes_eq]
    exact (Session.entries_congr fun head hhead =>
      h.keeps.declaration?_eq (Pass.id_not_mem_innerNodes_of_mem h₀.distinct hhead)).symm
  · have hplace : ∃ scope, s₀.Houses q.1 scope ∧
        s.tables.declaringScopes[q.2.id]? = some scope := by
      rcases hlisted with hclass | hlisted
      · obtain ⟨scope, hscope, hdeclaring⟩ := h₀.declaring q hq hclass
        exact ⟨scope, hscope, (h.keeps.declaringScopes_eq (hclassOf hq hclass)).trans hdeclaring⟩
      · exact h.declaring q hq hlisted
    obtain ⟨scope, hscope, hdeclaring⟩ := hplace
    exact ⟨scope, hdeclaring, h.keeps.containedIn h₀.owned hscope
      (Pass.id_not_mem_innerNodes_of_around h₀.distinct (h.closed q hq))⟩
  · rw [h.keeps.classes_eq] at hd
    obtain ⟨data, hdata, hattached⟩ := h.outlines hd
    obtain ⟨supertypes, hclass⟩ := DescriptorTable.exists_classData?_of_outline? hdata
    refine ⟨_, hclass, ?_, hattached.constructors_eq⟩
    have hself : ∃ q ∈ P, ∃ members, q.2 = .classDecl head members := by
      have hhead := (Session.declaration?_of_mem_listed h₀.classes_eq hd).1
      obtain ⟨q, hq, hclass⟩ := List.mem_filterMap.mp hhead
      obtain ⟨members, hself⟩ := Declaration.exists_members_of_classHead? hclass
      exact ⟨q, hq, members, hself⟩
    exact Bool.eq_iff_iff.mpr (hattached.isSome_iff.trans (and_iff_left hself))

section

variable {l : Layout} {home : Chart} (hs : s.Sound l home) (hl : l.Distinct)
  (hknown : ∀ p ∈ l.placed, p.2.Known s) {space : Space} {d : Declaration}
  (hplaced : (space, d) ∈ l.placed) {enclosure : Enclosure}
  (henclosure : d.enclosure? l.options = some enclosure)

include hs hl hknown hplaced henclosure

/-- Every class or namespace is bound to a descriptor with members. -/
theorem Sound.exists_memberScope? :
    ∃ descriptor members, s.Binds d descriptor ∧
      (s.descriptors.get descriptor).kind.memberScope? = some members := by
  cases d with
  | classDecl head members' =>
      obtain ⟨descriptor, data, hclass⟩ := hs.charted.classes hplaced
      exact ⟨descriptor, _, .classDecl hclass.declaration?_eq,
        DescriptorTable.memberScope?_of_classData? hclass.classData?_eq⟩
  | namespaceDecl head members' =>
      have hdeclares := Layout.declaresNamespace_of_mem_placed hplaced
      obtain ⟨kept, hkept⟩ := Option.isSome_iff_exists.mp (hs.charted.placed hplaced)
      rw [← hs.charted.declared hkept] at hdeclares
      obtain ⟨descriptor, hbound⟩ := Option.isSome_iff_exists.mp hdeclares
      obtain ⟨members, hns⟩ := hs.charted.namespaces hkept hbound
      exact ⟨descriptor, _, (hs.binds_iff hl hknown hplaced).mpr ⟨members, hns⟩,
        DescriptorTable.memberScope?_of_namespaceMembers? hns.namespaceMembers?_eq⟩
  | _ => cases henclosure

/-- The scope that keeps the members of a class or namespace keeps the names of its space. -/
theorem Sound.home_of_binds
    {descriptor : Nat} (hbinds : s.Binds d descriptor) {members : Nat ⊕ Nat}
    (hmembers : (s.descriptors.get descriptor).kind.memberScope? = some members) :
    home (enclosure :: space) = some (members.elim id id) := by
  cases d with
  | classDecl head members' =>
      obtain rfl := Option.some.inj henclosure
      obtain ⟨descriptor', data, hclass⟩ := hs.charted.classes hplaced
      obtain ⟨hdescriptor⟩ := hbinds
      obtain rfl := Option.some.inj (hdescriptor.symm.trans hclass.declaration?_eq)
      have hkind := DescriptorTable.memberScope?_of_classData? hclass.classData?_eq
      obtain rfl := Option.some.inj (hkind.symm.trans hmembers)
      obtain ⟨⟨space', hkept⟩, -⟩ := hs.charted.members hmembers
      have hstorage : s.scopes.storage data.memberScope = data.memberScope :=
        ScopeTree.storage_of_writeTarget_eq_none (hs.charted.kept hkept).2.2
      exact hclass.mirrors.home_eq.trans (congrArg some hstorage)
  | namespaceDecl head members' =>
      obtain rfl := Option.some.inj henclosure
      obtain ⟨kept, hns⟩ := (hs.binds_iff hl hknown hplaced).mp hbinds
      have hkind := DescriptorTable.memberScope?_of_namespaceMembers? hns.namespaceMembers?_eq
      obtain rfl := Option.some.inj (hkind.symm.trans hmembers)
      exact hns.home_eq
  | _ => cases henclosure

end

theorem filterMap_eq_of_forall₂
    {α β γ : Type} {R : α → β → Prop} {f : α → Option γ} {g : β → Option γ}
    (hfg : ∀ {x y}, R x y → f x = g y) {xs : List α} {ys : List β} (h : List.Forall₂ R xs ys) :
    xs.filterMap f = ys.filterMap g := by
  induction h with
  | nil => rfl
  | cons hxy _ ih => rw [List.filterMap_cons, List.filterMap_cons, hfg hxy, ih]

section

variable {l : Layout} {home : Chart} (hsound : s₁.Sound l home) (hl : l.Distinct)
  (hknown : ∀ p ∈ l.placed, p.2.Known s₁) (hkeeps : KeepsPlaces l.innerNodes s₁ s₀)
  {space : Space} {kept : Nat} (hkept : home space = some kept)

include hsound hl hknown hkeeps hkept

/-- The functions of a name that are kept in a scope are those of the space of which the scope
keeps the names. -/
theorem Sound.functionAt?_eq
    {q : Option Declaration × Declaration} {p : Space × Declaration} (hagrees : l.Agrees q p)
    (name : String) : s₀.functionAt? kept name q =
      if p.1 = space then p.2.functionNamed? name else none := by
  obtain ⟨hspace, hself⟩ := hagrees
  obtain ⟨scope, hscope⟩ := hsound.exists_houses hknown hspace
  have hhome := (hsound.mirrors_of_surrounds hl hspace hscope).home_eq
  have haround := hspace.id_not_mem_innerNodes hl
  have hiff : s₀.scopes.storage scope = kept ↔ p.1 = space := by
    rw [hkeeps.places.storage_eq]
    constructor
    · rintro rfl
      exact hsound.charted.injective hhome hkept
    · rintro rfl
      exact Option.some.inj (hhome.symm.trans hkept)
  unfold functionAt?
  rw [scopeOf?_eq (hkeeps.houses hscope haround), Option.map_some, hself]
  simp only [Option.some.injEq, hiff]

/-- Without import directives the functions that are found under a name among the members of a
space are those of that name that are declared in the space. -/
theorem Registers.memberFunctions_eq
    (hfree : l.ImportFree) (hagrees : List.Forall₂ l.Agrees P l.placed)
    (h : Registers P s₀ P s) (name : String) :
    (s.scopes.memberFunctions kept name).map some =
      (l.functionsIn space name).map fun f => s.trace.declaration? f.id := by
  have hplaces := hkeeps.places.trans h.keeps.places
  have himports : (s.scopes.get kept).imports = [] := by
    rw [hplaces.imports_eq]
    refine List.eq_nil_iff_forall_not_mem.mpr fun imported himported => ?_
    obtain ⟨-, space', head, members, hplaced, hsome, -⟩ := hsound.charted.imports himported
    exact hsome (hfree hplaced)
  have hstorage : s.scopes.storage kept = kept := by
    rw [hplaces.storage_eq]
    exact ScopeTree.storage_of_writeTarget_eq_none (hsound.charted.kept hkept).2.2
  have hmembers : s.scopes.memberFunctions kept name = s.scopes.functionsAt kept name := by
    unfold ScopeTree.memberFunctions ScopeTree.functionsAt
    rw [ScopeTree.local?_of_imports_eq_nil himports, ScopeTree.bindings, hstorage,
      Std.TreeMap.getD_eq_getD_getElem?]
  rw [hmembers, h.functionsAt_eq]
  refine congrArg _ (filterMap_eq_of_forall₂ (fun hqp => ?_) hagrees)
  exact hsound.functionAt?_eq hl hknown hkeeps hkept hqp name

end

end PassState

namespace SourceFile

open Pass (collectAll initialState registerAll resolveClasses toplevel)

/-- Registration loses nothing and enters nothing twice. After the declarations of a file have
been collected and registered, the tables list the classes, the functions with the constructors
that stand in classes, and the properties, each in the order of the tree and with the scope that
it stands in; all other constructors have been reported, and nothing else has been reported as
such a constructor; and the constructors of a class are its primary one, if it has a list of
parameters, followed by those that stand in it. Without import directives the functions that are
found under a name in a class or namespace are those of that name that are declared in its
space, in the order of the tree. -/
theorem registry_of_registerAll
    (name : String) (ds : List Declaration) (options : AnalysisOptions) {s : PassState}
    (hrun : (do
      collectAll options toplevel (ofDeclarations name ds).declarations
      resolveClasses
      registerAll toplevel (ofDeclarations name ds).declarations : Pass Unit).run.run
        initialState = (.ok (), s)) :
    s.Registry (Declaration.enclosedIn none (ofDeclarations name ds).declarations) ∧
      ((Layout.ofFile options (ofDeclarations name ds).declarations).ImportFree →
        ∀ {space d enclosure},
          (space, d) ∈ (Layout.ofFile options (ofDeclarations name ds).declarations).placed →
            d.enclosure? options = some enclosure →
              (∃ descriptor members, s.Binds d descriptor ∧
                (s.descriptors.get descriptor).kind.memberScope? = some members) ∧
              ∀ {descriptor members}, s.Binds d descriptor →
                (s.descriptors.get descriptor).kind.memberScope? = some members → ∀ function,
                  (s.scopes.memberFunctions (members.elim id id) function).map some =
                    ((Layout.ofFile options (ofDeclarations name ds).declarations).functionsIn
                      (enclosure :: space) function).map fun f => s.trace.declaration? f.id) := by
  let declarations := (ofDeclarations name ds).declarations
  let l := Layout.ofFile options declarations
  let P := Declaration.enclosedIn none declarations
  have hnodes : (Declaration.nodesOf declarations).Nodup :=
    (pairwise_nodes_ofDeclarations name ds).imp Nat.ne_of_lt
  have hl : l.Distinct := Layout.distinct_ofFile options hnodes
  have hsame : P.map Prod.snd = l.placed.map Prod.snd :=
    (Declaration.map_snd_enclosedIn none declarations).trans
      (Declaration.map_snd_placedIn options [] declarations).symm
  have hinner : (P.flatMap fun q => q.2.innerNodes) = l.innerNodes := by
    have hflatMap := congrArg (List.flatMap Declaration.innerNodes) hsame
    rw [List.flatMap_map, List.flatMap_map] at hflatMap
    exact hflatMap
  obtain ⟨_, s₁, hcollect, hrest⟩ := exists_run_of_bind hrun
  obtain ⟨_, s₀, hresolve, hregister⟩ := exists_run_of_bind hrest
  have hcollects := (Pass.afterOr_collectAll_collects options none toplevel declarations
    initialState Pass.owned_initialState .file nofun hnodes).of_run_eq hcollect
  obtain ⟨hready, hkept⟩ :=
    (Pass.afterOr_resolveClasses_ready hnodes hcollects).of_run_eq hresolve
  have hregisters := (Pass.afterOr_registerAll_file hready).of_run_eq hregister
  refine ⟨hregisters.registry hready, fun hfree {space d enclosure} hplaced henclosure => ?_⟩
  obtain ⟨home, hsound⟩ := (Pass.afterOr_collectAll_sound options
    (Layout.ImportFree.importsApart hfree) hnodes).of_run_eq hcollect
  have hcollected := (Pass.stopsAtFirst_collectAll options toplevel declarations initialState
    Pass.consistent_initialState Pass.namespacesBound_initialState hnodes).of_run_eq hcollect
  have hknown : ∀ p ∈ l.placed, p.2.Known s₁ := by
    intro p hp
    refine hcollected.2.known _ ?_
    rw [← Declaration.map_snd_placedIn options []]
    exact List.mem_map_of_mem hp
  have hkeeps : PassState.KeepsPlaces l.innerNodes s₁ s₀ := hinner ▸ hkept
  have hall : PassState.KeepsPlaces l.innerNodes s₁ s := hkeeps.trans (hinner ▸ hregisters.keeps)
  have hhead : ∀ head ∈ d.classHead?, head.id ∉ l.innerNodes := by
    intro head hhead
    obtain ⟨members, rfl⟩ := Declaration.exists_members_of_classHead? hhead
    exact hl.id_not_mem_innerNodes hplaced
  refine ⟨?_, fun {descriptor members} hbinds hmembers function => ?_⟩
  · obtain ⟨descriptor, members, hbinds, hmembers⟩ :=
      hsound.exists_memberScope? hl hknown hplaced henclosure
    exact ⟨descriptor, members, (hall.binds_iff hhead).mpr hbinds,
      (hall.types.memberScope?_eq descriptor).trans hmembers⟩
  · have hkept := hsound.home_of_binds hl hknown hplaced henclosure
      ((hall.binds_iff hhead).mp hbinds)
      ((hall.types.memberScope?_eq descriptor).symm.trans hmembers)
    have hagrees : List.Forall₂ l.Agrees P l.placed :=
      Declaration.forall₂_enclosedIn .file declarations (List.Subset.refl _)
    exact hregisters.memberFunctions_eq hsound hl hknown hkeeps hkept hfree hagrees function

/-- Two parts of a namespace; the first one holds a class with constructors, and a constructor
outside of classes. -/
def scattered : SourceFile :=
  ofDeclarations "scattered"
    [.namespaceDecl { name := some "app" }
       [.classDecl { name := some "Box", primaryConstructor := some [] }
          [.classObject 0 [.constructorDecl {}], .functionDecl { name := "open" }],
        .constructorDecl {},
        .functionDecl { name := "make" }],
     .namespaceDecl { name := some "app" } [.functionDecl { name := "make" }]]

/-- The computation that collects and registers the declarations of that file. -/
def registerScattered : Pass Unit := do
  collectAll {} toplevel scattered.declarations
  resolveClasses
  registerAll toplevel scattered.declarations

/-- The state in which the declarations of that file have been registered. -/
def scatteredRegistered : PassState := (registerScattered.run.run initialState).2

/-- A declaration without import directives of its own. -/
def isFreeOfImports : Declaration → Bool
  | .namespaceDecl head _ => head.imports.isEmpty
  | _ => true

theorem importFree_scattered : (Layout.ofFile {} scattered.declarations).ImportFree := by
  intro space head members hplaced
  have hall : (Layout.ofFile {} scattered.declarations).placed.all fun p =>
      isFreeOfImports p.2 := by
    decide +kernel
  exact List.isEmpty_iff.mp (List.all_eq_true.mp hall _ hplaced)

set_option maxRecDepth 20000 in
theorem registry_scattered :
    registerScattered.run.run initialState = (.ok (), scatteredRegistered) ∧
      scatteredRegistered.Registry (Declaration.enclosedIn none scattered.declarations) ∧
        (Layout.ofFile {} scattered.declarations).ImportFree ∧
          ∃ (app : Declaration) (descriptor : Nat) (members : Nat ⊕ Nat),
            scatteredRegistered.Binds app descriptor ∧
              (scatteredRegistered.descriptors.get descriptor).kind.memberScope? = some members ∧
                (scatteredRegistered.scopes.memberFunctions (members.elim id id) "make").length =
                  2 := by
  have hok : (registerScattered.run.run initialState).1 = .ok () := by
    decide +kernel
  have hrun : registerScattered.run.run initialState = (.ok (), scatteredRegistered) := by
    unfold scatteredRegistered
    exact run_eq_of_fst_run hok
  have hfree : (Layout.ofFile {} scattered.declarations).ImportFree :=
    importFree_scattered
  have happ : ([], scattered.declarations[0]) ∈
      (Layout.ofFile {} scattered.declarations).placed := .head _
  refine ⟨hrun, ?_⟩
  unfold registerScattered scattered at hrun
  obtain ⟨hregistry, hmembers⟩ := registry_of_registerAll _ _ {} hrun
  obtain ⟨⟨descriptor, members, hbinds, hkind⟩, hfound⟩ := hmembers hfree happ rfl
  refine ⟨hregistry, hfree, _, descriptor, members, hbinds, hkind, ?_⟩
  have hmake := congrArg List.length (hfound hbinds hkind "make")
  rw [List.length_map, List.length_map] at hmake
  rw [hmake]
  decide +kernel

end SourceFile

end DeclAnalysis
