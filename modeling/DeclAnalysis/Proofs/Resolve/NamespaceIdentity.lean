import DeclAnalysis.Proofs.Resolve.Charting
import DeclAnalysis.Proofs.Resolve.Outcome

/-!
# The identity of namespaces

A namespace is identified by its name and the space in which it is declared: all parts of it
share one descriptor, and it is contained in what contains the scope in which its parts appear.
This holds where the layout keeps imports apart. Otherwise a namespace declaration may be taken
for a further part of a namespace that has only been imported.
-/

namespace DeclAnalysis

namespace PassState

variable {l : Layout} {home : Chart} {s : PassState} {space : Space}

namespace Sound

/-- Scopes in which declarations appear mirror the spaces of these declarations. -/
theorem mirrors_of_surrounds
    (h : s.Sound l home) (hl : l.Distinct) {around : Option Declaration}
    (hspace : l.Surrounds around space) {scope : Nat} (hscope : s.Houses around scope) :
    s.scopes.Mirrors home space scope := by
  cases hscope with
  | file =>
      cases hspace with
      | file => exact h.charted.file
  | @classBody head members descriptor data hdescriptor hdata =>
      cases hspace with
      | inside hplaced henclosure =>
          obtain rfl := Option.some.inj henclosure
          obtain ⟨descriptor', data', hclass⟩ := h.charted.classes hplaced
          obtain rfl := Option.some.inj (hdescriptor.symm.trans hclass.declaration?_eq)
          obtain rfl := Option.some.inj (hdata.symm.trans hclass.classData?_eq)
          exact hclass.mirrors
  | @namespaceBody head members inner hinner =>
      cases hspace with
      | inside hplaced henclosure =>
          obtain rfl := Option.some.inj henclosure
          obtain ⟨space', head', members', hplaced', hid, hmirrors⟩ := h.entered.parts hinner
          obtain heq := hl.eq_of_id_eq hplaced' hplaced hid
          obtain ⟨rfl, hdecl⟩ := Prod.mk.inj heq
          obtain ⟨rfl, -⟩ := Declaration.namespaceDecl.inj hdecl
          exact hmirrors

/-- What is around a declaration has a scope in which the declaration appears. -/
theorem exists_houses
    (h : s.Sound l home) (hknown : ∀ p ∈ l.placed, p.2.Known s) {around : Option Declaration}
    (hspace : l.Surrounds around space) : ∃ scope, s.Houses around scope := by
  cases hspace with
  | file => exact ⟨_, .file⟩
  | @inside d enclosure space hplaced henclosure =>
      cases d with
      | classDecl head members =>
          obtain ⟨descriptor, data, hclass⟩ := h.charted.classes hplaced
          exact ⟨_, .classBody hclass.declaration?_eq hclass.classData?_eq⟩
      | namespaceDecl head members =>
          have hinner : head.id ∈ s.tables.namespaceScopes := hknown _ hplaced
          exact ⟨_, .namespaceBody (Std.TreeMap.getElem?_eq_some_getElem hinner)⟩
      | _ => cases henclosure

/-- A namespace declaration is bound to the namespace of its name and space, and to no other
one. -/
theorem binds_iff
    (h : s.Sound l home) (hl : l.Distinct) (hknown : ∀ p ∈ l.placed, p.2.Known s)
    {head : NamespaceHead} {members : List Declaration}
    (hplaced : (space, .namespaceDecl head members) ∈ l.placed) {descriptor : Nat} :
    s.Binds (.namespaceDecl head members) descriptor ↔
      ∃ kept, s.ChartedNamespace home space (head.knownName l.options) descriptor kept := by
  have hspace : l.Surrounds (some (.namespaceDecl head members))
      (.namespaceBody (head.knownName l.options) :: space) := .inside hplaced rfl
  have hdeclares := Layout.declaresNamespace_of_mem_placed hplaced
  obtain ⟨kept, hkept⟩ := Option.isSome_iff_exists.mp (h.charted.placed hplaced)
  rw [← h.charted.declared hkept] at hdeclares
  obtain ⟨known, hbound⟩ := Option.isSome_iff_exists.mp hdeclares
  obtain ⟨within, hns⟩ := h.charted.namespaces hkept hbound
  have hstorage : ∀ {inner}, s.tables.namespaceScopes[head.id]? = some inner →
      s.scopes.storage inner = within := by
    intro inner hinner
    have hmirrors := h.mirrors_of_surrounds hl hspace (.namespaceBody hinner)
    exact Option.some.inj (hmirrors.home_eq.symm.trans hns.home_eq)
  constructor
  · rintro (_ | ⟨hinner, hmembers⟩)
    rw [hstorage hinner] at hmembers
    have howner := (h.charted.members
      (DescriptorTable.memberScope?_of_namespaceMembers? hmembers)).2
    obtain rfl := Option.some.inj (howner.symm.trans hns.owner_eq)
    exact ⟨within, hns⟩
  · rintro ⟨within', hns'⟩
    have hinner : head.id ∈ s.tables.namespaceScopes := hknown _ hplaced
    have hinner' := Std.TreeMap.getElem?_eq_some_getElem hinner
    refine .namespaceDecl hinner' ?_
    rw [hstorage hinner', hns'.namespaceMembers?_eq]
    exact hns'.home_eq.symm.trans hns.home_eq

/-- A namespace is contained in what contains the scope in which its declaration appears. -/
theorem container_eq
    (h : s.Sound l home) {name : String} {descriptor kept scope : Nat}
    (hns : s.ChartedNamespace home space name descriptor kept)
    (hscope : s.scopes.Mirrors home space scope) :
    (s.descriptors.get descriptor).container = s.scopes.containingDeclaration? scope := by
  obtain ⟨around, haround, hcontainer⟩ := hns.container_eq
  obtain rfl := Option.some.inj (haround.symm.trans hscope.home_eq)
  exact hcontainer.trans (h.charted.containingDeclaration?_eq hscope).symm

/-- Namespaces are the same if their names and spaces are. -/
theorem descriptor_eq_iff
    (h : s.Sound l home) {space' : Space} {name name' : String}
    {descriptor descriptor' kept kept' : Nat}
    (hns : s.ChartedNamespace home space name descriptor kept)
    (hns' : s.ChartedNamespace home space' name' descriptor' kept') :
    descriptor = descriptor' ↔ name = name' ∧ space = space' := by
  constructor
  · rintro rfl
    obtain rfl := Option.some.inj
      (hns.namespaceMembers?_eq.symm.trans hns'.namespaceMembers?_eq)
    obtain ⟨henclosure, rfl⟩ := List.cons_eq_cons.mp (h.charted.injective hns.home_eq hns'.home_eq)
    exact ⟨Enclosure.namespaceBody.inj henclosure, rfl⟩
  · rintro ⟨rfl, rfl⟩
    obtain rfl := Option.some.inj (hns.home_eq.symm.trans hns'.home_eq)
    exact Option.some.inj (hns.owner_eq.symm.trans hns'.owner_eq)

end Sound

end PassState

namespace SourceFile

open Pass (collectAll initialState toplevel)

/-- Where imports are kept apart, they make no difference to the identity of namespaces. After
the declarations of a file have been collected, every namespace declaration is bound to a
descriptor that is contained in what contains the scope in which the declaration appears, and
two namespace declarations are bound to the same descriptor just if they have the same name and
stand in the same space. -/
theorem binds_namespaces_of_importsApart
    (name : String) (ds : List Declaration) (options : AnalysisOptions) {s : PassState}
    (hcollect : (collectAll options toplevel (ofDeclarations name ds).declarations).run.run
      initialState = (.ok (), s))
    (hapart : (Layout.ofFile options (ofDeclarations name ds).declarations).ImportsApart) :
    (∀ {around head members}, (around, .namespaceDecl head members) ∈
        Declaration.enclosedIn none (ofDeclarations name ds).declarations →
      ∃ scope descriptor, s.Houses around scope ∧
        s.Binds (.namespaceDecl head members) descriptor ∧
          (s.descriptors.get descriptor).container = s.scopes.containingDeclaration? scope) ∧
    ∀ {space space' head head' members members' descriptor descriptor'},
      (space, .namespaceDecl head members) ∈
          (Layout.ofFile options (ofDeclarations name ds).declarations).placed →
        (space', .namespaceDecl head' members') ∈
            (Layout.ofFile options (ofDeclarations name ds).declarations).placed →
          s.Binds (.namespaceDecl head members) descriptor →
            s.Binds (.namespaceDecl head' members') descriptor' →
              (descriptor = descriptor' ↔
                head.knownName options = head'.knownName options ∧ space = space') := by
  let declarations := (ofDeclarations name ds).declarations
  let l := Layout.ofFile options declarations
  have hnodes : (Declaration.nodesOf declarations).Nodup :=
    (pairwise_nodes_ofDeclarations name ds).imp Nat.ne_of_lt
  have hl : l.Distinct := Layout.distinct_ofFile options hnodes
  obtain ⟨home, hsound⟩ := (Pass.afterOr_collectAll_sound options hapart hnodes).of_run_eq hcollect
  have hcollected := (Pass.stopsAtFirst_collectAll options toplevel declarations initialState
    Pass.consistent_initialState Pass.namespacesBound_initialState hnodes).of_run_eq hcollect
  have hknown : ∀ p ∈ l.placed, p.2.Known s := by
    intro p hp
    refine hcollected.2.known _ ?_
    rw [← Declaration.map_snd_placedIn options []]
    exact List.mem_map_of_mem hp
  refine ⟨fun {around head members} hmem => ?_, fun hplaced hplaced' hbinds hbinds' => ?_⟩
  · obtain ⟨space, hspace, hplaced⟩ := Declaration.exists_placed_of_mem_enclosedIn (l := l)
      .file declarations (List.Subset.refl _) hmem
    obtain ⟨scope, hscope⟩ := hsound.exists_houses hknown hspace
    have hmirrors := hsound.mirrors_of_surrounds hl hspace hscope
    have hdeclares := Layout.declaresNamespace_of_mem_placed hplaced
    rw [← hsound.charted.declared hmirrors.home_eq] at hdeclares
    obtain ⟨descriptor, hbound⟩ := Option.isSome_iff_exists.mp hdeclares
    obtain ⟨kept, hns⟩ := hsound.charted.namespaces hmirrors.home_eq hbound
    exact ⟨scope, descriptor, hscope, (hsound.binds_iff hl hknown hplaced).mpr ⟨kept, hns⟩,
      hsound.container_eq hns hmirrors⟩
  · obtain ⟨kept, hns⟩ := (hsound.binds_iff hl hknown hplaced).mp hbinds
    obtain ⟨kept', hns'⟩ := (hsound.binds_iff hl hknown hplaced').mp hbinds'
    exact hsound.descriptor_eq_iff hns hns'

/-- A namespace that imports all members of another one, where both declare namespaces. -/
def importing : SourceFile :=
  ofDeclarations "importing"
    [.namespaceDecl { name := some "lib" } [.namespaceDecl { name := some "inner" } []],
     .namespaceDecl {
       name := some "app"
       imports := [{ imported := some (.name 0 "lib"), allUnder := true }] }
       [.namespaceDecl { name := some "other" } []]]

/-- The state in which the declarations of that file have been collected. -/
def importingCollected : PassState :=
  ((collectAll {} toplevel importing.declarations).run.run initialState).2

theorem importsApart_importing : (Layout.ofFile {} importing.declarations).ImportsApart := by
  intro space head members hplaced himports name space' hname hname'
  have hcases : ∀ {space head members}, (space, .namespaceDecl head members) ∈
      (Layout.ofFile {} importing.declarations).placed →
        space = [] ∧ head.name = some "lib" ∧ head.imports = [] ∨
        space = [.namespaceBody "lib"] ∧ head.name = some "inner" ∧ head.imports = [] ∨
        space = [] ∧ head.name = some "app" ∨
        space = [.namespaceBody "app"] ∧ head.name = some "other" ∧ head.imports = [] := by
    intro space head members hplaced
    rcases hplaced with _ | ⟨_, _ | ⟨_, _ | ⟨_, _ | ⟨_, hplaced⟩⟩⟩⟩
    · exact .inl ⟨rfl, rfl, rfl⟩
    · exact .inr (.inl ⟨rfl, rfl, rfl⟩)
    · exact .inr (.inr (.inl ⟨rfl, rfl⟩))
    · exact .inr (.inr (.inr ⟨rfl, rfl, rfl⟩))
    · cases hplaced
  obtain ⟨inner, _, hinner, rfl⟩ := Layout.exists_placed_of_declaresNamespace hname
  obtain ⟨inner', _, hinner', heq⟩ := Layout.exists_placed_of_declaresNamespace hname'
  have hhead := hcases hplaced
  have hinner := hcases hinner
  have hinner' := hcases hinner'
  unfold NamespaceHead.knownName at heq hinner ⊢
  grind

set_option maxRecDepth 20000 in
theorem binds_importing :
    (collectAll {} toplevel importing.declarations).run.run initialState =
        (.ok (), importingCollected) ∧
      (Layout.ofFile {} importing.declarations).ImportsApart ∧
        ∃ app : Declaration, ∃ other : NamespaceHead, ∃ scope descriptor : Nat,
          other.name = some "other" ∧ importingCollected.Houses (some app) scope ∧
            importingCollected.Binds (.namespaceDecl other []) descriptor ∧
              (importingCollected.descriptors.get descriptor).container =
                importingCollected.scopes.containingDeclaration? scope := by
  have hok : ((collectAll {} toplevel importing.declarations).run.run initialState).1 = .ok () := by
    decide +kernel
  have hrun : (collectAll {} toplevel importing.declarations).run.run initialState =
      (.ok (), importingCollected) := by
    unfold importingCollected
    exact run_eq_of_fst_run hok
  obtain ⟨hbinds, -⟩ := binds_namespaces_of_importsApart _ _ {} hrun importsApart_importing
  obtain ⟨scope, descriptor, hother⟩ := hbinds (.tail _ (.tail _ (.tail _ (.head _))))
  exact ⟨hrun, importsApart_importing, _, _, scope, descriptor, rfl, hother⟩

/-- Two namespaces that both declare a namespace of one name; the second one imports all members
of the first one. -/
def capturing : SourceFile :=
  ofDeclarations "capturing"
    [.namespaceDecl { name := some "lib" } [.namespaceDecl { name := some "inner" } []],
     .namespaceDecl {
       name := some "app"
       imports := [{ imported := some (.name 0 "lib"), allUnder := true }] }
       [.namespaceDecl { name := some "inner" } []]]

/-- The state in which the declarations of that file have been collected. -/
def capturingCollected : PassState :=
  ((collectAll {} toplevel capturing.declarations).run.run initialState).2

set_option maxRecDepth 20000 in
/-- The two namespaces get one descriptor: the members of the imported namespace receive what is
declared in the other one, although that stands in a scope contained in the importing one. -/
theorem binds_capturing :
    (collectAll {} toplevel capturing.declarations).run.run initialState =
        (.ok (), capturingCollected) ∧
      ∃ lib app : Declaration, ∃ inner inner' : NamespaceHead, ∃ scope : Nat,
        (some lib, .namespaceDecl inner []) ∈
            Declaration.enclosedIn none capturing.declarations ∧
          (some app, .namespaceDecl inner' []) ∈
              Declaration.enclosedIn none capturing.declarations ∧
            capturingCollected.Binds lib 0 ∧ capturingCollected.Binds app 2 ∧
              capturingCollected.Binds (.namespaceDecl inner []) 1 ∧
                capturingCollected.Binds (.namespaceDecl inner' []) 1 ∧
                  (capturingCollected.descriptors.get 1).container = some 0 ∧
                    capturingCollected.Houses (some app) scope ∧
                      capturingCollected.scopes.containingDeclaration? scope = some 2 := by
  have hok : ((collectAll {} toplevel capturing.declarations).run.run initialState).1 = .ok () := by
    decide +kernel
  have hrun : (collectAll {} toplevel capturing.declarations).run.run initialState =
      (.ok (), capturingCollected) := by
    unfold capturingCollected
    exact run_eq_of_fst_run hok
  have hscope : ∀ entry ∈ [(1, 3), (2, 5), (3, 7), (6, 8)],
      capturingCollected.tables.namespaceScopes[entry.1]? = some entry.2 := by
    decide +kernel
  refine ⟨hrun, _, _, _, _, 7, .tail _ (.head _), .tail _ (.tail _ (.tail _ (.head _))),
    .namespaceDecl (hscope (1, 3) (by decide)) ?_, .namespaceDecl (hscope (3, 7) (by decide)) ?_,
      .namespaceDecl (hscope (2, 5) (by decide)) ?_, .namespaceDecl (hscope (6, 8) (by decide)) ?_, ?_,
        .namespaceBody (hscope (3, 7) (by decide)), ?_⟩
  all_goals decide +kernel

end SourceFile

end DeclAnalysis
