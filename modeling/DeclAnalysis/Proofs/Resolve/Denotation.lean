import DeclAnalysis.Proofs.Resolve.Charting
import DeclAnalysis.Proofs.Resolve.Outcome
import DeclAnalysis.Proofs.Resolve.SurveyedPasses
import DeclAnalysis.Proofs.Tree.TypeReferences

/-!
# What type names denote

Once the declarations of a file without import directives have been collected, looking up the
name of a type in a scope finds what the name denotes in the space that the scope mirrors. The
passes that follow resolve every type reference in a scope of its space, and so resolve it to
the type that its name denotes there, wherever the class is declared.
-/

namespace DeclAnalysis

/-- There are no import directives. -/
def Layout.ImportFree (l : Layout) : Prop :=
  ∀ {space : Space} {head : NamespaceHead} {members : List Declaration},
    (space, .namespaceDecl head members) ∈ l.placed → head.imports = []

theorem Layout.ImportFree.importsApart {l : Layout} (h : l.ImportFree) : l.ImportsApart :=
  fun hplaced himports => absurd (h hplaced) himports

/-- The names of built-in types are not dotted. -/
theorem Ty.parts_of_builtin? {name : String} {type : Ty} (h : builtin? name = some type) :
    Text.parts '.' name = [name] := by
  unfold builtin? at h
  split at h
  case h_8 => cases h
  all_goals rfl

namespace Session.Charted

variable {l : Layout} {home : Chart} {s : Session} {space : Space} {scope : Nat}

section

variable (h : s.Charted l home) (hfree : l.ImportFree)

include h hfree

/-- Without import directives only what is bound in a scope is found in it. -/
theorem local?_eq {α : Type} (pick : Bindings → Option α) (scope : Nat) :
    s.scopes.local? pick scope = pick (s.scopes.get (s.scopes.storage scope)).bindings := by
  refine ScopeTree.local?_of_imports_eq_nil (List.eq_nil_iff_forall_not_mem.mpr ?_)
  intro imported himported
  obtain ⟨-, space, head, members, hplaced, himports, -⟩ := h.imports himported
  exact himports (hfree hplaced)

/-- Nothing is found in the root. -/
theorem lookup?_root
    {α : Type} {pick : Bindings → Option α} (hpick : pick (s.scopes.get Model.root).bindings = none) :
    s.scopes.lookup? pick Model.root = none := by
  have hlt : Model.root < s.scopes.size := (h.kept h.file.home_eq).1.trans (h.kept h.file.home_eq).2.1
  rw [ScopeTree.lookup?_of_parent_eq_none hlt h.root.1, h.local?_eq hfree,
    ScopeTree.storage_of_writeTarget_eq_none h.root.2.2.1]
  exact hpick

/-- The class of a name is found that is declared in the nearest space around. -/
theorem classifier?_eq (hscope : s.scopes.Mirrors home space scope) (name : String) :
    s.scopes.classifier? scope name =
      (space.tails.findSome? fun around => l.classIn? around name).bind fun head =>
        s.trace.declaration? head.id := by
  induction hscope with
  | @file scope hhome hparent =>
      unfold ScopeTree.classifier?
      rw [h.ordered.lookup?_of_parent hparent, h.lookup?_root hfree (h.root.2.2.2.1 name),
        h.local?_eq hfree, h.classifiers hhome, Option.or_none]
      exact congrArg (Option.bind · _) List.findSome?_singleton.symm
  | @inner enclosure space scope around descriptor hhome hparent howner hkept outer ih =>
      unfold ScopeTree.classifier? at ih ⊢
      rw [h.ordered.lookup?_of_parent hparent, ih, h.local?_eq hfree, h.classifiers hhome,
        List.tails_cons, List.findSome?_cons]
      cases hclass : l.classIn? (enclosure :: space) name with
      | none => rfl
      | some head =>
          obtain ⟨members, hplaced, -⟩ := Layout.exists_placed_of_classIn? hclass
          obtain ⟨descriptor, data, hcharted⟩ := h.classes hplaced
          simp only [Option.bind_some, hcharted.declaration?_eq, Option.some_or]

omit hfree

theorem namespaces?_eq_none
    {kept : Nat} (hkept : home space = some kept) {name : String}
    (hdeclares : l.declaresNamespace space name = false) :
    (s.scopes.get kept).bindings.namespaces[name]? = none := by
  rw [← h.declared hkept] at hdeclares
  exact Option.isNone_iff_eq_none.mp (Option.isSome_eq_false_iff.mp hdeclares)

theorem exists_namespaces?_eq
    {kept : Nat} (hkept : home space = some kept) {name : String}
    (hdeclares : l.declaresNamespace space name = true) :
    ∃ descriptor members, (s.scopes.get kept).bindings.namespaces[name]? = some descriptor ∧
      s.ChartedNamespace home space name descriptor members := by
  rw [← h.declared hkept] at hdeclares
  obtain ⟨descriptor, hbound⟩ := Option.isSome_iff_exists.mp hdeclares
  obtain ⟨members, hns⟩ := h.namespaces hkept hbound
  exact ⟨descriptor, members, hbound, hns⟩

include hfree

/-- No namespace of a name is found if none is declared in the spaces around. -/
theorem namespace?_eq_none
    (hscope : s.scopes.Mirrors home space scope) {name : String}
    (hnone : ∀ around ∈ space.tails, l.declaresNamespace around name = false) :
    s.scopes.namespace? scope name = none := by
  induction hscope with
  | @file scope hhome hparent =>
      unfold ScopeTree.namespace?
      rw [h.ordered.lookup?_of_parent hparent, h.lookup?_root hfree (h.root.2.2.2.2 name),
        h.local?_eq hfree, h.namespaces?_eq_none hhome (hnone [] List.mem_cons_self)]
      rfl
  | @inner enclosure space scope around descriptor hhome hparent howner hkept outer ih =>
      rw [List.tails_cons, List.forall_mem_cons] at hnone
      unfold ScopeTree.namespace? at ih ⊢
      rw [h.ordered.lookup?_of_parent hparent, ih hnone.2, h.local?_eq hfree,
        h.namespaces?_eq_none hhome hnone.1]
      rfl

/-- The namespace of a name is found that is declared in the nearest space around. -/
theorem exists_namespace?_eq
    (hscope : s.scopes.Mirrors home space scope) {name : String} {nearest : Space}
    (hnearest : space.tails.find? (fun around => l.declaresNamespace around name) = some nearest) :
    ∃ descriptor kept, s.scopes.namespace? scope name = some descriptor ∧
      s.ChartedNamespace home nearest name descriptor kept := by
  induction hscope with
  | @file scope hhome hparent =>
      obtain rfl := List.mem_singleton.mp (List.mem_of_find?_eq_some hnearest)
      have hdeclares := List.find?_some hnearest
      obtain ⟨descriptor, members, hbound, hns⟩ := h.exists_namespaces?_eq hhome hdeclares
      refine ⟨descriptor, members, ?_, hns⟩
      unfold ScopeTree.namespace?
      rw [h.ordered.lookup?_of_parent hparent, h.local?_eq hfree, hbound]
      rfl
  | @inner enclosure space scope outside descriptor hhome hparent howner hkept outer ih =>
      rw [List.tails_cons, List.find?_cons] at hnearest
      unfold ScopeTree.namespace? at ih ⊢
      rw [h.ordered.lookup?_of_parent hparent, h.local?_eq hfree]
      cases hdeclares : l.declaresNamespace (enclosure :: space) name with
      | true =>
          rw [hdeclares] at hnearest
          obtain rfl := Option.some.inj hnearest
          obtain ⟨descriptor, members, hbound, hns⟩ := h.exists_namespaces?_eq hhome hdeclares
          refine ⟨descriptor, members, ?_, hns⟩
          rw [hbound]
          rfl
      | false =>
          rw [hdeclares] at hnearest
          obtain ⟨descriptor, members, houter, hns⟩ := ih hnearest
          refine ⟨descriptor, members, ?_, hns⟩
          rw [h.namespaces?_eq_none hhome hdeclares, houter]
          rfl

/-- A path below a namespace leads to the class at the end of the path in its space. -/
theorem classBelow?_eq
    {space : Space} {name : String} {descriptor kept : Nat}
    (hns : s.ChartedNamespace home space name descriptor kept) (path : List String) :
    s.model.classBelow? descriptor path =
      (l.classAt? (.namespaceBody name :: space) path).bind fun head =>
        s.trace.declaration? head.id := by
  have hstorage : s.scopes.storage kept = kept :=
    ScopeTree.storage_of_writeTarget_eq_none (h.kept hns.home_eq).2.2
  have hmembers : s.model.descriptors.namespaceMembers? descriptor = some kept :=
    hns.namespaceMembers?_eq
  match path with
  | [] => rfl
  | [simple] =>
      unfold Model.classBelow?
      rw [hmembers]
      refine (h.local?_eq hfree (·.classifiers[simple]?) kept).trans ?_
      rw [hstorage]
      exact h.classifiers hns.home_eq simple
  | segment :: next :: rest =>
      have hlocal := h.local?_eq hfree (·.namespaces[segment]?) kept
      rw [hstorage] at hlocal
      have hdeclared := h.declared hns.home_eq segment
      unfold Model.classBelow? Layout.classAt?
      rw [hmembers, ← hdeclared]
      change (s.scopes.local? (·.namespaces[segment]?) kept).bind _ = _
      rw [hlocal]
      cases hbound : (s.scopes.get kept).bindings.namespaces[segment]? with
      | none => rfl
      | some inner =>
          obtain ⟨members, hinner⟩ := h.namespaces hns.home_eq hbound
          exact classBelow?_eq hinner (next :: rest)

end

end Session.Charted

/-- The class at the end of a path stands in the layout. -/
theorem Layout.exists_placed_of_classAt?
    {l : Layout} {space : Space} {path : List String} {head : ClassHead}
    (h : l.classAt? space path = some head) :
    ∃ space members, (space, .classDecl head members) ∈ l.placed := by
  match path with
  | [] => cases h
  | [simple] =>
      obtain ⟨members, hplaced, -⟩ := exists_placed_of_classIn? h
      exact ⟨_, members, hplaced⟩
  | segment :: next :: rest =>
      unfold classAt? at h
      split at h
      · exact exists_placed_of_classAt? h
      · cases h

theorem Layout.exists_placed_of_denoted?
    {l : Layout} {space : Space} {name : String} {head : ClassHead}
    (h : l.denoted? space name = some head) :
    ∃ space members, (space, .classDecl head members) ∈ l.placed := by
  unfold denoted? at h
  split at h
  · obtain ⟨around, -, h⟩ := Option.bind_eq_some_iff.mp h
    exact exists_placed_of_classAt? h
  · obtain ⟨around, -, h⟩ := List.exists_of_findSome?_eq_some h
    obtain ⟨members, hplaced, -⟩ := exists_placed_of_classIn? h
    exact ⟨around, members, hplaced⟩

/-- What a name denotes depends on the descriptors of the classes of the layout only. -/
theorem Layout.Denotes.congr
    {l : Layout} {declared declared' : Nat → Option Nat} {space : Space} {name : String} {type : Ty}
    (h : l.Denotes declared space name type)
    (hdeclared : ∀ {space head members}, (space, .classDecl head members) ∈ l.placed →
      declared' head.id = declared head.id) : l.Denotes declared' space name type := by
  cases h with
  | «class» hclass hdescriptor =>
      obtain ⟨outside, members, hplaced⟩ := Layout.exists_placed_of_denoted? hclass
      exact .class hclass ((hdeclared hplaced).trans hdescriptor)
  | builtin hclass hbuiltin => exact .builtin hclass hbuiltin
  | unresolved hclass hbuiltin => exact .unresolved hclass hbuiltin

namespace Session.Charted

variable {l : Layout} {home : Chart} {s : Session} {space : Space} {scope : Nat}

/-- What is found for the name of a type is the class that the name denotes, or else a built-in
type. -/
theorem lookupType?_eq
    (h : s.Charted l home) (hfree : l.ImportFree) (hscope : s.scopes.Mirrors home space scope)
    (name : String) :
    s.model.lookupType? scope name =
      (((l.denoted? space name).bind fun head => s.trace.declaration? head.id).map
        s.model.descriptors.classType).or (Ty.builtin? name) := by
  by_cases hdotted : ∃ first second rest, Text.parts '.' name = first :: second :: rest
  · obtain ⟨first, second, rest, hparts⟩ := hdotted
    have hbuiltin : Ty.builtin? name = none := by
      cases htype : Ty.builtin? name with
      | none => rfl
      | some type =>
          have hsimple := Ty.parts_of_builtin? htype
          rw [hparts] at hsimple
          cases hsimple
    rw [hbuiltin, Option.or_none]
    unfold Model.lookupType? Layout.denoted?
    rw [hparts]
    dsimp only
    cases hnearest : space.tails.find? fun around => l.declaresNamespace around first with
    | none =>
        have hnone : s.model.scopes.namespace? scope first = none :=
          h.namespace?_eq_none hfree hscope fun around haround =>
            Bool.eq_false_of_not_eq_true (List.find?_eq_none.mp hnearest around haround)
        rw [hnone]
        rfl
    | some nearest =>
        obtain ⟨descriptor, kept, hfound, hns⟩ := h.exists_namespace?_eq hfree hscope hnearest
        change s.model.scopes.namespace? scope first = some descriptor at hfound
        rw [hfound]
        change ((s.model.classBelow? descriptor (second :: rest)).bind _) = _
        rw [h.classBelow?_eq hfree hns]
        exact Option.map_eq_bind.symm
  · have hfound := h.classifier?_eq hfree hscope name
    change s.model.scopes.classifier? scope name = _ at hfound
    unfold Model.lookupType? Layout.denoted?
    cases hparts : Text.parts '.' name with
    | nil => rw [hfound, Option.orElse_eq_orElse, Option.orElse_eq_or]
    | cons first following =>
        cases following with
        | nil => rw [hfound, Option.orElse_eq_orElse, Option.orElse_eq_or]
        | cons second rest => exact absurd ⟨first, second, rest, hparts⟩ hdotted

/-- Every scope sees the types that names denote in its space. -/
theorem denotes_typeOf
    (h : s.Charted l home) (hfree : l.ImportFree) (hscope : s.scopes.Mirrors home space scope)
    (name : String) : l.Denotes s.trace.declaration? space name (s.model.typeOf scope name) := by
  unfold Model.typeOf
  rw [h.lookupType?_eq hfree hscope]
  cases hdenoted : l.denoted? space name with
  | none =>
      cases hbuiltin : Ty.builtin? name with
      | none => exact .unresolved hdenoted hbuiltin
      | some type => exact .builtin hdenoted hbuiltin
  | some head =>
      obtain ⟨outside, members, hplaced⟩ := Layout.exists_placed_of_denoted? hdenoted
      obtain ⟨descriptor, data, hclass⟩ := h.classes hplaced
      have hname : s.model.descriptors.name descriptor = head.knownName := hclass.name_eq
      simp only [Option.bind_some, hclass.declaration?_eq, Option.map_some, Option.some_or,
        Option.getD_some, DescriptorTable.classType, hname]
      exact .class hdenoted hclass.declaration?_eq

theorem sees_denotes
    (h : s.Charted l home) (hfree : l.ImportFree) (hformed : s.model.Formed)
    (hscope : s.scopes.Mirrors home space scope) :
    s.Sees (l.Denotes s.trace.declaration?) space scope :=
  ⟨hformed, hscope.lt_size, h.denotes_typeOf hfree hscope⟩

end Session.Charted

/-! ## The survey of a chart -/

namespace PassState

variable {l : Layout} {home : Chart} {s : PassState}

/-- Collecting leads to a survey in which every type reference has the type that its name
denotes. -/
theorem Sound.surveyed
    (h : s.Sound l home) (hl : l.Distinct) (hfree : l.ImportFree)
    (hfunctions : s.tables.functions = #[]) (hproperties : s.tables.properties = #[]) :
    s.Surveyed l (l.Denotes s.trace.declaration?) := by
  have hsees : ∀ {space scope}, s.scopes.Mirrors home space scope →
      s.Sees (l.Denotes s.trace.declaration?) space scope :=
    h.charted.sees_denotes hfree h.located.model.formed
  have hmembers : ∀ {space head members descriptor data},
      (space, .classDecl head members) ∈ l.placed →
        s.trace.declaration? head.id = some descriptor →
          s.descriptors.classData? descriptor = some data →
            s.Sees (l.Denotes s.trace.declaration?) (.classBody head.id :: space)
              data.memberScope := by
    intro space head members descriptor data hplaced hdescriptor hdata
    obtain ⟨descriptor', data', hclass⟩ := h.charted.classes hplaced
    obtain rfl := Option.some.inj (hdescriptor.symm.trans hclass.declaration?_eq)
    obtain rfl := Option.some.inj (hdata.symm.trans hclass.classData?_eq)
    exact hsees hclass.mirrors
  refine ⟨hmembers, fun hplaced hinner => ?_, fun hplaced hscope => ?_, fun entry hentry => ?_,
    fun entry hentry => ?_, fun entry hentry => ?_⟩
  · obtain ⟨space', head', members', hplaced', hid, hmirrors⟩ := h.entered.parts hinner
    obtain ⟨rfl, hdecl⟩ := Prod.mk.inj (hl.eq_of_id_eq hplaced' hplaced hid)
    obtain ⟨rfl, -⟩ := Declaration.namespaceDecl.inj hdecl
    exact hsees hmirrors
  · obtain ⟨space', head', members', hplaced', hid, hmirrors⟩ := h.entered.declaring hscope
    obtain ⟨rfl, -⟩ := Prod.mk.inj (hl.eq_of_id_eq hplaced' hplaced hid)
    exact hsees hmirrors
  · obtain ⟨hdescriptor, space, members, hplaced⟩ := h.entered.entries entry hentry
    exact ⟨space, members, hplaced, fun data hdata => hmembers hplaced hdescriptor hdata⟩
  · rw [hfunctions] at hentry
    cases hentry
  · rw [hproperties] at hentry
    cases hentry

/-- No type reference has been resolved, and nothing has been reported. -/
structure SameTypeReferences (s s' : PassState) : Prop where
  typeReferences_eq : s'.trace.typeReferences = s.trace.typeReferences
  diagnostics_eq : s'.diagnostics = s.diagnostics

instance : IsPreorder PassState SameTypeReferences where
  refl _ := ⟨rfl, rfl⟩
  trans _ _ _ h h' := ⟨h'.typeReferences_eq.trans h.typeReferences_eq,
    h'.diagnostics_eq.trans h.diagnostics_eq⟩

end PassState

namespace Pass

open PassState (SameTypeReferences Surveyed Carries StaysWithin)

theorem keepsOr_collectNamespace_sameTypeReferences
    (options : AnalysisOptions) (scope : Nat) {head : NamespaceHead} (hfree : head.imports = []) :
    KeepsOr SameTypeReferences (collectNamespace options scope head) := by
  refine KeepsOr.of_afterOr fun s => ?_
  have hopened : ∀ (s' : PassState) members inner, SameTypeReferences s s' →
      AfterOr (head.imports.forM (applyImport inner)) (s'.openNamespace scope members head.id)
        (fun _ => SameTypeReferences s) fun _ => SameTypeReferences s := by
    intro s' members inner h
    rw [hfree]
    exact ⟨h.typeReferences_eq, h.diagnostics_eq⟩
  cases hknown : s.scopes.memberNamespace? scope (head.knownName options) with
  | none => exact (afterOr_collectNamespace_new hknown).mpr (hopened _ _ _ ⟨rfl, rfl⟩)
  | some known =>
      cases hmembers : s.descriptors.namespaceMembers? known with
      | some members =>
          exact (afterOr_collectNamespace_known hknown hmembers).mpr (hopened _ _ _ ⟨rfl, rfl⟩)
      | none =>
          refine afterOr_bind.mpr (afterOr_session.mpr ?_)
          unfold NamespaceHead.knownName at hknown
          dsimp only
          rw [hknown]
          refine afterOr_bind.mpr (afterOr_pure.mpr (afterOr_bind.mpr (afterOr_session.mpr ?_)))
          rw [hmembers]
          exact refl_of SameTypeReferences s

mutual

theorem keepsOr_collect_sameTypeReferences
    (options : AnalysisOptions) (scope : Nat) (d : Declaration)
    (hfree : ∀ {head members}, .namespaceDecl head members ∈ d.nested → head.imports = []) :
    KeepsOr SameTypeReferences (collect options scope d) := by
  match d with
  | .classDecl head members =>
      refine KeepsOr.bind (KeepsOr.of_afterOr fun s => afterOr_collectClass.mpr ⟨rfl, rfl⟩)
        fun inner => ?_
      exact keepsOr_collectAll_sameTypeReferences options inner members fun hmem =>
        hfree (List.mem_cons_of_mem _ hmem)
  | .namespaceDecl head members =>
      refine KeepsOr.bind (keepsOr_collectNamespace_sameTypeReferences options scope
        (hfree List.mem_cons_self)) fun inner => ?_
      exact keepsOr_collectAll_sameTypeReferences options inner members fun hmem =>
        hfree (List.mem_cons_of_mem _ hmem)
  | .classObject id members =>
      exact keepsOr_collectAll_sameTypeReferences options scope members fun hmem =>
        hfree (List.mem_cons_of_mem _ hmem)
  | .typedefDecl .. | .extensionDecl .. => exact KeepsOr.throw _
  | .functionDecl _ | .propertyDecl _ | .constructorDecl _ => exact KeepsOr.pure _

/-- Collecting resolves no type reference where there are no import directives. -/
theorem keepsOr_collectAll_sameTypeReferences
    (options : AnalysisOptions) (scope : Nat) (ds : List Declaration)
    (hfree : ∀ {head members}, .namespaceDecl head members ∈ Declaration.nestedIn ds →
      head.imports = []) :
    KeepsOr SameTypeReferences (collectAll options scope ds) := by
  match ds with
  | [] => exact KeepsOr.pure _
  | d :: rest =>
      refine KeepsOr.bind (keepsOr_collect_sameTypeReferences options scope d fun hmem =>
        hfree (List.mem_append_left _ hmem)) fun _ => ?_
      exact keepsOr_collectAll_sameTypeReferences options scope rest fun hmem =>
        hfree (List.mem_append_right _ hmem)

end

/-! ## The whole analysis -/

/-- Every type reference that has been resolved has the type that its name denotes, and those
that denote no type have been reported, each once. -/
structure TypesDenoted (l : Layout) (s : Session) : Prop where
  recorded : ∀ {node type}, s.trace.typeReference? node = some type →
    ∃ p ∈ l.typeRefs, p.2.id = node ∧ l.Denotes s.trace.declaration? p.1 p.2.name type
  balanced : s.Balanced

theorem afterOr_allPasses_typesDenoted
    (options : AnalysisOptions) {ds : List Declaration} (hds : (Declaration.nodesOf ds).Nodup)
    (hfree : (Layout.ofFile options ds).ImportFree) :
    AfterOr (allPasses options ds) initialState
      (fun _ s => TypesDenoted (Layout.ofFile options ds) s.toSession) fun _ _ => True := by
  let l := Layout.ofFile options ds
  have hl : l.Distinct := Layout.distinct_ofFile options hds
  have hfree' : ∀ {head members}, .namespaceDecl head members ∈ Declaration.nestedIn ds →
      head.imports = [] := by
    intro head members hmem
    rw [← Declaration.map_snd_placedIn options []] at hmem
    obtain ⟨⟨space, _⟩, hplaced, rfl⟩ := List.mem_map.mp hmem
    exact hfree hplaced
  have hcollect := AfterOr.of_keepsOr (keepsLocated_collectAll options toplevel ds)
    (AfterOr.of_keepsOr (keepsOr_collectAll_sameTypeReferences options toplevel ds hfree')
      (afterOr_collectAll_sound options hfree.importsApart hds))
  refine AfterOr.bind (AfterOr.forget hcollect) fun _ s₁ h₁ => ?_
  obtain ⟨hlocated, hsame, home, hsound⟩ := h₁
  have hstays := hlocated hasScope_toplevel
  have hsurveyed := hsound.surveyed hl hfree hstays.functions_eq hstays.properties_eq
  have hformed := hsound.located.model.formed
  have htop := hsound.charted.sees_denotes hfree hformed hsound.charted.file
  -- The passes that declare types no more stay within one frame, in which any variable may be
  -- bound.
  have hassoc : (do
      resolveClasses
      registerAll toplevel ds
      let _ ← finalizeClasses
      resolveBodies options : Pass Unit) = (do
      resolveClasses
      registerAll toplevel ds
      let _ ← finalizeClasses) >>= fun _ => resolveBodies options := by
    simp only [bind_assoc, pure_bind]
  rw [hassoc]
  have hregistered := afterOr_registered_within hl hsurveyed htop (List.Subset.refl _)
  refine AfterOr.bind (AfterOr.forget hregistered) fun _ s₂ h₂ => ?_
  have hleak : ∀ {id name}, s₂.MayLeak id name → 0 ≤ id ∨ True := fun _ => .inr trivial
  have hbodies := afterAny_resolveBodies_within options hl (h₂.1.surveyed hsurveyed) h₂.2
    (h₂.1.within.formed hformed) (Nat.zero_le _) hleak
  refine AfterOr.relax hbodies fun _ s₃ h₃ => ?_
  have hwithin := h₂.1.within.trans h₃.within
  have hnone : ∀ node, s₁.trace.typeReference? node = none := by
    intro node
    unfold Trace.typeReference?
    rw [hsame.typeReferences_eq]
    exact Std.TreeMap.getElem?_emptyc
  refine ⟨fun {node type} htype => ?_, hwithin.balanced fun node text => ?_⟩
  · rcases hwithin.recorded htype with hold | ⟨p, hp, hnode, hdenotes⟩
    · rw [hnone] at hold
      cases hold
    · refine ⟨p, hp, hnode, hdenotes.congr fun hplaced => ?_⟩
      exact hwithin.declaration?_eq (hl.id_not_mem_innerNodes hplaced)
  · rw [hnone, hsame.diagnostics_eq]
    rfl

end Pass

namespace SourceFile

/-- Type names resolve lexically. In an analysis without a fault of a file without import
directives, only type references of the file are resolved. Each of them has the type that its
name denotes in the space in which it stands, and the names that denote no type are reported at
their nodes, each once. -/
theorem typeReferences_denote
    (name : String) (ds : List Declaration) (options : AnalysisOptions)
    (hfault : ((ofDeclarations name ds).analyze options).fault = none)
    (hfree : (Layout.ofFile options (ofDeclarations name ds).declarations).ImportFree) :
    (∀ {node type},
      ((ofDeclarations name ds).analyze options).session.trace.typeReference? node = some type →
        ∃ p ∈ (Layout.ofFile options (ofDeclarations name ds).declarations).typeRefs,
          p.2.id = node) ∧
    (∀ p ∈ (Layout.ofFile options (ofDeclarations name ds).declarations).typeRefs, ∀ {type},
      ((ofDeclarations name ds).analyze options).session.trace.typeReference? p.2.id = some type →
        (Layout.ofFile options (ofDeclarations name ds).declarations).Denotes
          ((ofDeclarations name ds).analyze options).session.trace.declaration? p.1 p.2.name
            type) ∧
    ∀ node text, ((ofDeclarations name ds).analyze options).session.diagnostics.toList.count
        (.unresolvedType node text) =
      if ((ofDeclarations name ds).analyze options).session.trace.typeReference? node =
        some (.unresolved text) then 1 else 0 := by
  let l := Layout.ofFile options (ofDeclarations name ds).declarations
  have hnodes : (Declaration.nodesOf (ofDeclarations name ds).declarations).Nodup :=
    (pairwise_nodes_ofDeclarations name ds).imp Nat.ne_of_lt
  have hl : l.Distinct := Layout.distinct_ofFile options hnodes
  have hdenoted : Pass.TypesDenoted l ((ofDeclarations name ds).analyze options).session :=
    session_of_afterOr_allPasses (Pass.afterOr_allPasses_typesDenoted options hnodes hfree) hfault
  refine ⟨fun htype => ?_, fun p hp type htype => ?_, hdenoted.balanced⟩
  · obtain ⟨p, hp, hnode, -⟩ := hdenoted.recorded htype
    exact ⟨p, hp, hnode⟩
  · obtain ⟨q, hq, hnode, hdenotes⟩ := hdenoted.recorded htype
    obtain rfl := hl.typeRef_eq hq hp hnode
    exact hdenotes

/-- Two properties with declared types in front of the namespace of a class: the name of the
first type denotes the class, and the other one nothing. -/
def forward : SourceFile :=
  ofDeclarations "forward"
    [.propertyDecl { name := "x", typeRef := some { name := "n.C" } },
     .propertyDecl { name := "y", typeRef := some { name := "C" } },
     .namespaceDecl { name := some "n" } [.classDecl { name := some "C" } []]]

theorem importFree_forward : (Layout.ofFile {} forward.declarations).ImportFree := by
  intro space head members hplaced
  rcases hplaced with _ | ⟨_, _ | ⟨_, _ | ⟨_, _ | ⟨_, hplaced⟩⟩⟩⟩
  · rfl
  · cases hplaced

set_option maxRecDepth 20000 in
theorem typeReferences_denote_forward :
    (forward.analyze {}).fault = none ∧ (Layout.ofFile {} forward.declarations).ImportFree ∧
      (Layout.ofFile {} forward.declarations).Denotes (forward.analyze {}).session.trace.declaration?
        [] "n.C" (.classType 1 "C") ∧
      (forward.analyze {}).session.diagnostics.toList.count (.unresolvedType 4 "C") = 1 := by
  have hfault : (forward.analyze {}).fault = none := by decide +kernel
  have himports : (Layout.ofFile {} forward.declarations).ImportFree := importFree_forward
  have hmem : ([], ⟨2, "n.C"⟩) ∈ (Layout.ofFile {} forward.declarations).typeRefs := by
    decide +kernel
  have htype : (forward.analyze {}).session.trace.typeReference? 2 = some (.classType 1 "C") := by
    decide +kernel
  have hunresolved : (forward.analyze {}).session.trace.typeReference? 4 =
      some (.unresolved "C") := by
    decide +kernel
  unfold forward at hfault himports hmem htype hunresolved ⊢
  obtain ⟨-, hdenotes, hcount⟩ := typeReferences_denote _ _ {} hfault himports
  have hreported := hcount 4 "C"
  rw [if_pos hunresolved] at hreported
  exact ⟨hfault, himports, hdenotes _ hmem htype, hreported⟩

end SourceFile

end DeclAnalysis
