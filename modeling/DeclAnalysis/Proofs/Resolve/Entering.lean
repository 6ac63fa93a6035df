import DeclAnalysis.Proofs.Resolve.Registration

/-!
# What is entered

Each kind of declaration is registered in its own way: it is entered, attached or reported, or
it has no effect of its own. Together these steps are what registering a tree does, in the order
of the tree.
-/

namespace DeclAnalysis

namespace Analysis

open Session (Ground Signs)

variable {s : Session}

/-! ## Resolving what a declaration declares -/

/-- What a node declares is what has just been recorded for it. -/
theorem afterOr_recordDeclaration {α : Type} (node descriptor : Nat) (a : α) (s : Session) :
    AfterOr (do recordDeclaration node descriptor; return a : FaultyAnalysis α) s
      (fun b s' => b = a ∧ s'.trace.declaration? node = some descriptor) fun _ _ => True :=
  AfterOr.bind (AfterOr.lift (after_recordDeclaration (List.mem_singleton_self node) descriptor))
    fun _ _ h => ⟨rfl, h.2⟩

theorem afterOr_resolveFunction_declares
    (scope : Nat) (container : Option Nat) (decl : FunctionDecl) :
    AfterOr (resolveFunction scope container decl) s
      (fun function s' => Signs decl.nodes s s' ∧
        s'.trace.declaration? decl.id = some function) fun _ _ => True := by
  have hsigns : KeepsOr (Signs decl.nodes) (resolveFunction scope container decl) :=
    Ground.free_keepsOr (keepsFrom_resolveFunction (List.Subset.refl _) (List.Subset.refl _) ..)
  have hrecord : ∀ function s₁, AfterOr (do
      recordDeclaration decl.id function
      return function : FaultyAnalysis Nat) s₁
        (fun function s' => s'.trace.declaration? decl.id = some function) fun _ _ => True :=
    fun function s₁ => AfterOr.imp (afterOr_recordDeclaration decl.id function function s₁)
      fun _ _ h => h.1 ▸ h.2
  have hdeclares : AfterOr (resolveFunction scope container decl) s
      (fun function s' => s'.trace.declaration? decl.id = some function) fun _ _ => True := by
    refine AfterOr.bind (AfterOr.trivial _ s) fun function s₁ _ => ?_
    dsimp only
    split
    · refine AfterOr.bind (AfterOr.trivial _ s₁) fun type s₂ _ => ?_
      exact AfterOr.bind (AfterOr.trivial _ s₂) fun _ s₃ _ => hrecord function s₃
    · exact hrecord function s₁
  exact AfterOr.forget (AfterOr.of_keepsOr hsigns hdeclares)

theorem afterOr_resolveConstructor_declares
    (scope classId : Nat) (decl : ConstructorDecl) :
    AfterOr (resolveConstructor scope classId decl) s
      (fun constructor s' => Signs decl.nodes s s' ∧
        s'.trace.declaration? decl.id = some constructor) fun _ _ => True := by
  have hsigns : KeepsOr (Signs decl.nodes) (resolveConstructor scope classId decl) :=
    Ground.free_keepsOr (keepsFrom_resolveConstructor (List.Subset.refl _) (List.Subset.refl _) ..)
  have hdeclares : AfterOr (resolveConstructor scope classId decl) s
      (fun constructor s' => s'.trace.declaration? decl.id = some constructor)
      fun _ _ => True := by
    refine AfterOr.bind (AfterOr.trivial _ s) fun constructor s₁ _ => ?_
    refine afterOr_bind.mpr (afterOr_get.mpr ?_)
    refine AfterOr.bind (AfterOr.trivial _ s₁) fun _ s₂ _ => ?_
    exact AfterOr.imp (afterOr_recordDeclaration decl.id constructor constructor s₂)
      fun _ _ h => h.1 ▸ h.2
  exact AfterOr.forget (AfterOr.of_keepsOr hsigns hdeclares)

/-- The accessors of a property are recorded after the property, under their own nodes. -/
theorem afterOr_resolveProperty_declares
    (scope : Nat) (container : Option Nat) {decl : PropertyDecl} (hdecl : decl.nodes.Nodup) :
    AfterOr (resolveProperty scope container decl) s
      (fun property s' => Signs decl.nodes s s' ∧
        s'.trace.declaration? decl.id = some property) fun _ _ => True := by
  have hsigns : KeepsOr (Signs decl.nodes) (resolveProperty scope container decl) :=
    Ground.free_keepsOr (keepsFrom_resolveProperty (List.Subset.refl _) (List.Subset.refl _) ..)
  have hdeclares : AfterOr (resolveProperty scope container decl) s
      (fun property s' => s'.trace.declaration? decl.id = some property) fun _ _ => True := by
    refine AfterOr.bind (AfterOr.trivial _ s) fun type s₁ _ => ?_
    refine AfterOr.bind (AfterOr.trivial _ s₁) fun property s₂ _ => ?_
    have hrecord := after_recordDeclaration (List.mem_singleton_self decl.id) property (s := s₂)
    refine AfterOr.bind (AfterOr.lift hrecord) fun _ s₃ h₃ => ?_
    let inner := decl.nodes.tail
    have haccessor : ∀ {resolve : Accessor → FaultyAnalysis Nat} {accessor : Option Accessor},
        (∀ a ∈ accessor, KeepsOr (Signs inner) (resolve a)) → ∀ s₄,
          s₄.trace.declaration? decl.id = some property →
            AfterOr (accessor.mapM resolve) s₄
              (fun _ s' => s'.trace.declaration? decl.id = some property) fun _ _ => True := by
      intro resolve accessor h s₄ h₄
      refine AfterOr.relax ((KeepsOr.optionMapM accessor h).afterOr s₄) fun _ s' h' => ?_
      rw [h'.declaration?_eq (List.nodup_cons.mp hdecl).1]
      exact h₄
    refine AfterOr.bind (haccessor (fun a ha => ?_) s₃ h₃.2) fun getter s₄ h₄ => ?_
    · refine Ground.free_keepsOr (keepsFrom_resolveGetter (fun node hnode => ?_)
        (List.Subset.refl _) scope property decl.name type)
      refine List.mem_append_left _ (List.mem_append_right _ ?_)
      exact List.mem_flatMap.mpr ⟨a, Option.mem_toList.mpr ha, hnode⟩
    refine AfterOr.bind (haccessor (fun a ha => ?_) s₄ h₄) fun setter s₅ h₅ => h₅
    refine Ground.free_keepsOr (keepsFrom_resolveSetter (fun node hnode => ?_)
      (List.Subset.refl _) scope property decl.name type)
    refine List.mem_append_right _ ?_
    exact List.mem_flatMap.mpr ⟨a, Option.mem_toList.mpr ha, hnode⟩
  exact AfterOr.forget (AfterOr.of_keepsOr hsigns hdeclares)

/-- A class has a primary constructor if it has a list of parameters for one. -/
theorem afterOr_resolvePrimaryConstructor_isSome (classId : Nat) (head : ClassHead) :
    AfterOr (resolvePrimaryConstructor classId head) s
      (fun resolved s' => Signs head.nodes.tail s s' ∧
        resolved.1.isSome = head.primaryConstructor.isSome) fun _ _ => True := by
  have hfrom : KeepsOr (From (fun s => ∀ data, s.descriptors.classData? classId = some data →
      Ground.free.admits [] (parameterTypeRefs (head.primaryConstructor.getD [])) data.memberScope s)
      (Signs head.nodes.tail)) (resolvePrimaryConstructor classId head) :=
    keepsFrom_resolvePrimaryConstructor (List.subset_append_left ..) (List.Subset.refl _) classId
  have hsigns : KeepsOr (Signs head.nodes.tail) (resolvePrimaryConstructor classId head) :=
    hfrom.mono fun _ _ h => h fun _ _ => trivial
  have hresolved : AfterOr (resolvePrimaryConstructor classId head) s
      (fun resolved _ => resolved.1.isSome = head.primaryConstructor.isSome)
      fun _ _ => True := by
    unfold resolvePrimaryConstructor
    cases head.primaryConstructor with
    | none => rfl
    | some parameters =>
        refine afterOr_bind.mpr (afterOr_get.mpr ?_)
        split
        · trivial
        refine AfterOr.bind (AfterOr.trivial _ s) fun constructor s₁ _ => ?_
        refine afterOr_bind.mpr (afterOr_get.mpr ?_)
        refine AfterOr.bind (AfterOr.trivial _ s₁) fun _ s₂ _ => ?_
        refine afterOr_bind.mpr (afterOr_get.mpr ?_)
        exact AfterOr.bind (AfterOr.trivial _ s₂) fun _ s₃ _ => rfl
  exact AfterOr.forget (AfterOr.of_keepsOr hsigns hresolved)

end Analysis

namespace PassState

variable {P : List (Option Declaration × Declaration)} {s₀ s s' s'' : PassState}
  {around : Option Declaration} {scope : Nat} {nodes : List Nat}

/-! ## What scopes belong to -/

/-- A function of a name is kept where the scope that it stands in keeps its bindings. -/
theorem KeepsPlaces.functionAt?_eq
    (h : KeepsPlaces nodes s₀ s) (hscope : s₀.Houses around scope) (kept : Nat) (name : String)
    (decl : FunctionDecl) :
    s₀.functionAt? kept name (around, .functionDecl decl) =
      if s.scopes.storage scope = kept ∧ decl.name = name then some decl else none := by
  unfold functionAt? Declaration.functionNamed?
  rw [scopeOf?_eq hscope, Option.map_some, h.places.storage_eq]
  by_cases hkept : s₀.scopes.storage scope = kept
  · simp [hkept]
  · simp [hkept]

section

variable (hs : s₀.Owned) (h : KeepsPlaces nodes s₀ s)

include hs h

theorem KeepsPlaces.storage_lt (hscope : s₀.Houses around scope) :
    s.scopes.storage scope < s.scopes.size := by
  rw [h.places.storage_eq, h.places.size_eq]
  exact hs.located.model.formed.ordered.storage_lt (hs.houses_lt hscope)

/-- Nothing outside of classes belongs to a class. -/
theorem KeepsPlaces.owningClass?_eq_none
    (hscope : s₀.Houses around scope)
    (haround : ∀ head members, around ≠ some (.classDecl head members)) :
    Pass.owningClass? s.toSession scope = none := by
  unfold Pass.owningClass?
  rw [h.places.containingDeclaration?_eq]
  cases hscope with
  | file =>
      rw [hs.containingDeclaration?_file .file]
      rfl
  | @classBody head members => exact absurd rfl (haround head members)
  | @namespaceBody head members inner hinner =>
      have hscope : s₀.Houses (some (.namespaceDecl head members)) scope := .namespaceBody hinner
      obtain ⟨descriptor, hbinds, hcontaining⟩ := hs.exists_binds hscope
      rw [hcontaining]
      cases hbinds with
      | namespaceDecl _ hmembers =>
          have hkind := DescriptorTable.memberScope?_of_namespaceMembers? hmembers
          refine Option.filter_eq_none_iff.mpr fun d hd hclass => ?_
          obtain rfl := Option.some.inj hd
          obtain ⟨data, hdata⟩ := Option.isSome_iff_exists.mp hclass
          have hkind' := DescriptorTable.memberScope?_of_classData? hdata
          rw [h.types.memberScope?_eq, hkind] at hkind'
          cases hkind'

/-- What stands in a class belongs to it. -/
theorem KeepsPlaces.owningClass?_eq_some
    {head : ClassHead} {members : List Declaration}
    (hscope : s₀.Houses (some (.classDecl head members)) scope) :
    ∃ descriptor, s₀.trace.declaration? head.id = some descriptor ∧
      Pass.owningClass? s.toSession scope = some descriptor := by
  obtain ⟨descriptor, hbinds, hcontaining⟩ := hs.exists_binds hscope
  cases hbinds with
  | classDecl hdescriptor =>
      refine ⟨descriptor, hdescriptor, ?_⟩
      unfold Pass.owningClass?
      rw [h.places.containingDeclaration?_eq, hcontaining]
      cases hscope with
      | classBody hdescriptor' hdata =>
          obtain rfl := Option.some.inj (hdescriptor'.symm.trans hdescriptor)
          obtain ⟨data', hdata', -⟩ := h.types.classData? hdata
          exact Option.filter_eq_some_iff.mpr ⟨rfl, Option.isSome_of_eq_some hdata'⟩

end

/-- What has been recorded about a class is not about any node inside of a declaration. -/
theorem KeepsPlaces.declaration?_of_mem_classes
    (h₀ : Ready P s₀) (h : KeepsPlaces (P.flatMap fun q => q.2.innerNodes) s₀ s)
    {head : ClassHead} {members : List Declaration} (hq : (around, .classDecl head members) ∈ P)
    {d : Nat} (hd : (head, d) ∈ s₀.tables.classes.toList) :
    s.trace.declaration? head.id = some d := by
  refine (h.declaration?_eq fun hmem => ?_).trans (h₀.declaration?_eq hd)
  obtain ⟨q, hq', hnode⟩ := List.mem_flatMap.mp hmem
  exact Declaration.id_not_mem_innerNodes (f := Prod.snd) h₀.distinct hq hq' rfl hnode

/-! ## Values -/

/-- Values have been bound and indexed, and nothing else has been registered. -/
structure BindsValues (s s' : PassState) : Prop where
  keeps : KeepsPlaces [] s s'
  descriptors_eq : s'.descriptors = s.descriptors
  bindings_eq : ∀ id, (s'.scopes.get id).bindings.functions = (s.scopes.get id).bindings.functions
  functions_eq : s'.tables.functions = s.tables.functions
  properties_eq : s'.tables.properties = s.tables.properties
  misplaced_eq : s'.misplaced = s.misplaced

instance : IsPreorder PassState BindsValues where
  refl s := ⟨.refl [] s, rfl, fun _ => rfl, rfl, rfl, rfl⟩
  trans _ _ _ h h' := ⟨h.keeps.trans h'.keeps, h'.descriptors_eq.trans h.descriptors_eq,
    fun id => (h'.bindings_eq id).trans (h.bindings_eq id), h'.functions_eq.trans h.functions_eq,
    h'.properties_eq.trans h.properties_eq, h'.misplaced_eq.trans h.misplaced_eq⟩

end PassState

namespace Pass

open Analysis
open PassState (Attaches BindsValues KeepsPlaces Ready Registers Enters)

variable {P : List (Option Declaration × Declaration)} {s₀ s : PassState}
  {around : Option Declaration} {scope : Nat}

theorem bindsValues_registerParameterProperty
    (members classId : Nat) (property : String × Nat) :
    KeepsOr BindsValues (registerParameterProperty members classId property) := by
  refine KeepsOr.of_afterOr fun s => ?_
  refine afterOr_bind.mpr (afterOr_analysis.mpr (after_onScopes.mpr ?_))
  refine afterOr_bind.mpr (afterOr_analysis.mpr (after_onRecorder.mpr (afterOr_onTables.mpr ?_)))
  refine ⟨⟨.addVariable .., .refl _, rfl, rfl, fun _ => rfl, fun _ => rfl, fun _ => rfl⟩, rfl,
    fun id => ?_, rfl, rfl, rfl⟩
  exact ScopeTree.functions_get_bind s.scopes
    (f := fun b => { b with values := b.values.insert property.1 property.2 }) (fun _ => rfl) _ id

section

variable (h₀ : Ready P s₀) (h : KeepsPlaces (P.flatMap fun q => q.2.innerNodes) s₀ s)
  (hscope : s₀.Houses around scope)

include hscope

/-! ## Functions and properties -/

include h₀ h in
theorem afterOr_registerFunction_enters (decl : FunctionDecl) :
    AfterOr (registerFunction scope decl) s
      (fun _ => Enters s₀ (around, .functionDecl decl) s) fun _ _ => True := by
  refine afterOr_bind.mpr (afterOr_session.mpr ?_)
  refine AfterOr.bind (AfterOr.faultyAnalysis (afterOr_resolveFunction_declares ..))
    fun function s₁ ⟨⟨hsigns, hdeclared⟩, htables⟩ => ?_
  refine afterOr_bind.mpr (afterOr_analysis.mpr (after_onScopes.mpr (afterOr_onTables.mpr ?_)))
  have hkeeps : KeepsPlaces decl.nodes s s₁ := .of_signs hsigns htables
  refine ⟨hkeeps.trans ⟨.addFunction .., .refl _, rfl, rfl, fun _ => rfl, fun {node} hnode => ?_,
    fun _ => rfl⟩, ?_, ?_, ?_, fun _ => ⟨scope, hscope, Std.TreeMap.getElem?_insert_self⟩,
    fun {head d data} _ hdata => ⟨data, ?_, .refl rfl rfl data⟩, fun kept name => ?_⟩
  · have hne : decl.id ≠ node := fun heq => hnode (heq ▸ List.mem_cons_self)
    change (s₁.tables.declaringScopes.insert decl.id scope)[node]? = _
    exact getElem?_insert_of_ne hne
  · change (s₁.tables.functions.push _).toList.map _ = _ ++ [(_, s₁.trace.declaration? decl.id)]
    rw [hdeclared, htables, Array.toList_push, List.map_append]
    rfl
  · change s₁.tables.properties.toList.map _ = _ ++ []
    rw [htables, List.append_nil]
  · change s₁.misplaced = _ ++ []
    rw [hsigns.misplaced_eq, List.append_nil]
  · exact (hsigns.sameClasses.outline?_eq d).trans hdata
  · have hlt : s₁.scopes.storage scope < s₁.scopes.size := by
      rw [hsigns.scopes_eq]
      exact h.storage_lt h₀.owned hscope
    change ((s₁.scopes.addFunction scope decl.name function).functionsAt kept name).map some = _
    rw [ScopeTree.functionsAt_addFunction _ hlt, hsigns.scopes_eq, List.map_append,
      h.functionAt?_eq hscope]
    split
    · exact congrArg _ (congrArg (fun o => [o]) hdeclared.symm)
    · rfl

theorem afterOr_registerProperty_enters {decl : PropertyDecl} (hdecl : decl.nodes.Nodup) :
    AfterOr (registerProperty scope decl) s
      (fun _ => Enters s₀ (around, .propertyDecl decl) s) fun _ _ => True := by
  refine afterOr_bind.mpr (afterOr_session.mpr ?_)
  refine AfterOr.bind (AfterOr.faultyAnalysis (afterOr_resolveProperty_declares _ _ hdecl))
    fun property s₁ ⟨⟨hsigns, hdeclared⟩, htables⟩ => ?_
  refine afterOr_bind.mpr (afterOr_analysis.mpr (after_onScopes.mpr (afterOr_onTables.mpr ?_)))
  let container := s.scopes.containingDeclaration? scope
  let entered := s₁.tables.addProperty decl property scope container
  have hentered : entered.classes = s₁.tables.classes ∧
      entered.namespaceScopes = s₁.tables.namespaceScopes ∧
        entered.functions = s₁.tables.functions ∧
          entered.properties = s₁.tables.properties.push (decl, property) ∧
            entered.declaringScopes = s₁.tables.declaringScopes.insert decl.id scope := by
    unfold entered Tables.addProperty
    cases container <;> exact ⟨rfl, rfl, rfl, rfl, rfl⟩
  obtain ⟨hclasses, hnamespaces, hfunctions, hproperties, hdeclaring⟩ := hentered
  have hkeeps : KeepsPlaces decl.nodes s s₁ := .of_signs hsigns htables
  refine ⟨hkeeps.trans ⟨.addVariable .., .refl _, hclasses, hnamespaces, fun _ => rfl,
    fun {node} hnode => ?_, fun _ => rfl⟩, ?_, ?_, ?_, fun _ => ⟨scope, hscope, ?_⟩,
    fun {head d data} _ hdata => ⟨data, ?_, .refl rfl rfl data⟩, fun kept name => ?_⟩
  · have hne : decl.id ≠ node := fun heq => hnode (heq ▸ List.mem_cons_self)
    change entered.declaringScopes[node]? = _
    rw [hdeclaring]
    exact getElem?_insert_of_ne hne
  · change entered.functions.toList.map _ = _ ++ []
    rw [hfunctions, htables, List.append_nil]
  · change entered.properties.toList.map _ = _ ++ [(_, s₁.trace.declaration? decl.id)]
    rw [hproperties, hdeclared, htables, Array.toList_push, List.map_append]
    rfl
  · change s₁.misplaced = _ ++ []
    rw [hsigns.misplaced_eq, List.append_nil]
  · change entered.declaringScopes[decl.id]? = _
    rw [hdeclaring]
    exact Std.TreeMap.getElem?_insert_self
  · exact (hsigns.sameClasses.outline?_eq d).trans hdata
  · change ((s₁.scopes.addVariable scope decl.name property).functionsAt kept name).map some = _
    rw [ScopeTree.functionsAt_addVariable, hsigns.scopes_eq,
      PassState.functionAt?_eq_none fun _ => rfl]
    exact (List.append_nil _).symm

include h₀ h

/-! ## Constructors -/

/-- A constructor outside of classes is reported. -/
theorem afterOr_registerConstructor_misplaced
    (haround : around.bind Declaration.classHead? = none) (decl : ConstructorDecl) :
    AfterOr (registerConstructor scope decl) s
      (fun _ => Enters s₀ (around, .constructorDecl decl) s) fun _ _ => True := by
  refine afterOr_bind.mpr (afterOr_session.mpr ?_)
  have hother : ∀ head members, around ≠ some (.classDecl head members) := by
    rintro head members rfl
    cases haround
  rw [h.owningClass?_eq_none h₀.owned hscope hother]
  refine afterOr_analysis.mpr ?_
  have hfunction : Declaration.functionLike? (around, .constructorDecl decl) = none := by
    unfold Declaration.functionLike?
    dsimp only
    rw [haround, Option.map_none]
  have hmisplaced : Declaration.misplacedConstructor? (around, .constructorDecl decl) =
      some decl := by
    unfold Declaration.misplacedConstructor?
    dsimp only
    rw [haround]
    rfl
  have hconstructor : ∀ node, Declaration.constructorOf? node (around, .constructorDecl decl) =
      none := by
    intro node
    unfold Declaration.constructorOf?
    dsimp only
    rw [haround, Option.map_none, if_neg nofun]
  have hremark : ¬DiagnosticCode.misplacedConstructor.IsRemark := by decide
  refine ⟨⟨.refl _, .refl _, rfl, rfl, fun _ => rfl, fun _ => rfl,
    s.reports_push_of_not_isRemark (d := .misplaced decl) hremark⟩, ?_, ?_, ?_, fun hlisted => ?_,
    fun {head d data} _ hdata => ⟨data, hdata, .refl rfl (hconstructor _) data⟩,
    fun kept name => ?_⟩
  · rw [hfunction]
    exact (List.append_nil _).symm
  · exact (List.append_nil _).symm
  · rw [hmisplaced]
    exact s.misplaced_push (.misplaced decl)
  · rw [hfunction] at hlisted
    rcases hlisted with hlisted | hlisted <;> cases hlisted
  · rw [PassState.functionAt?_eq_none fun _ => rfl]
    exact (List.append_nil _).symm

/-- A constructor in a class is attached to the class. -/
theorem afterOr_registerConstructor_attached
    {head : ClassHead} {members : List Declaration} (haround : around = some (.classDecl head members))
    (hmem : .classDecl head members ∈ P.map Prod.snd) (decl : ConstructorDecl) :
    AfterOr (registerConstructor scope decl) s
      (fun _ => Enters s₀ (around, .constructorDecl decl) s) fun _ _ => True := by
  subst haround
  obtain ⟨q, hq, hself⟩ := List.mem_map.mp hmem
  obtain ⟨classId, hclassId, howning⟩ := h.owningClass?_eq_some h₀.owned hscope
  have hentry := h₀.mem_classes hq hself hclassId
  refine afterOr_bind.mpr (afterOr_session.mpr ?_)
  rw [howning]
  refine AfterOr.bind (AfterOr.faultyAnalysis (afterOr_resolveConstructor_declares ..))
    fun constructor s₁ h₁ => ?_
  obtain ⟨⟨hsigns, hdeclared⟩, htables⟩ := h₁
  refine afterOr_bind.mpr (afterOr_faultyAnalysis.mpr (afterOr_tryDescriptors fun t ht => ?_))
  refine afterOr_onTables.mpr ?_
  let attach : ClassData → ClassData := fun data =>
    { data with constructors := data.constructors ++ [constructor] }
  have htypes : s₁.descriptors.SameTypes t := .editClass (f := attach) (fun _ => rfl) ht
  have hkeeps : KeepsPlaces decl.nodes s s₁ := .of_signs hsigns htables
  refine ⟨hkeeps.trans ⟨.refl _, htypes, rfl, rfl, fun _ => rfl, fun {node} hnode => ?_,
    fun _ => rfl⟩, ?_, ?_, ?_, fun _ => ⟨scope, hscope, Std.TreeMap.getElem?_insert_self⟩,
    fun {head' d data} hd hdata => ?_, fun kept name => ?_⟩
  · have hne : decl.id ≠ node := fun heq => hnode (heq ▸ List.mem_cons_self)
    change (s₁.tables.declaringScopes.insert decl.id scope)[node]? = _
    exact getElem?_insert_of_ne hne
  · change (s₁.tables.functions.push _).toList.map _ = _ ++ [(_, s₁.trace.declaration? decl.id)]
    rw [hdeclared, htables, Array.toList_push, List.map_append]
    rfl
  · change s₁.tables.properties.toList.map _ = _ ++ []
    rw [htables, List.append_nil]
  · change s₁.misplaced = _ ++ []
    rw [hsigns.misplaced_eq, List.append_nil]
  · have houtline : (t.get d).kind.outline? = if d = classId
        then (s₁.descriptors.get classId).kind.outline?.map attach
        else (s₁.descriptors.get d).kind.outline? :=
      DescriptorTable.outline?_editClass (fun _ => rfl) ht d
    have hother : Declaration.constructorOf? head'.id (some (.classDecl head members),
        .constructorDecl decl) = if head.id = head'.id then some decl else none := by
      simp [Declaration.constructorOf?, Declaration.classHead?]
    change ∃ data', (t.get d).kind.outline? = some data' ∧ _
    rw [houtline, hsigns.sameClasses.outline?_eq, hsigns.sameClasses.outline?_eq]
    by_cases hd' : d = classId
    · subst hd'
      obtain rfl := h₀.head_eq hd hentry
      rw [if_pos rfl, hdata]
      refine ⟨_, rfl, .member (fun _ hclass => by cases hclass) ?_ rfl⟩
      rw [hother, if_pos rfl]
      change List.map some (_ ++ [constructor]) = _ ++ [s₁.trace.declaration? decl.id]
      rw [hdeclared, List.map_append]
      rfl
    · rw [if_neg hd']
      refine ⟨data, hdata, .refl rfl ?_ data⟩
      rw [hother, if_neg fun hid => hd' ?_]
      have hdeclaration := h₀.declaration?_eq hd
      rw [← hid, hclassId] at hdeclaration
      exact (Option.some.inj hdeclaration).symm
  · rw [PassState.functionAt?_eq_none fun _ => rfl]
    change (s₁.scopes.functionsAt kept name).map some = _ ++ []
    rw [hsigns.scopes_eq, List.append_nil]

/-! ## Classes -/

omit hscope in
/-- A class with parameters gets a primary constructor, whose parameters are values of the class. -/
theorem afterOr_registerClass_enters
    {head : ClassHead} {members : List Declaration} (hq : (around, .classDecl head members) ∈ P) :
    AfterOr (registerClass head) s
      (fun inner s' => Enters s₀ (around, .classDecl head members) s s' ∧
        s₀.Houses (some (.classDecl head members)) inner) fun _ _ => True := by
  obtain ⟨d, hd⟩ := h₀.exists_mem_classes hq rfl
  have hd₀ := h₀.declaration?_eq hd
  have hdeclared := h.declaration?_of_mem_classes h₀ hq hd
  refine afterOr_bind.mpr (afterOr_session.mpr ?_)
  rw [hdeclared]
  refine afterOr_bind.mpr (afterOr_session.mpr ?_)
  split
  · trivial
  rename_i data hdata
  have hhouse : s₀.Houses (some (.classDecl head members)) data.memberScope := by
    obtain ⟨data₀, hdata₀, hmembers⟩ := h.types.exists_classData? hdata
    rw [hmembers]
    exact .classBody hd₀ hdata₀
  refine AfterOr.bind (AfterOr.faultyAnalysis (afterOr_resolvePrimaryConstructor_isSome d head))
    fun (constructor, properties) s₁ ⟨⟨hsigns, hsome⟩, htables⟩ => ?_
  have hvalues : KeepsOr BindsValues
      (properties.forM (registerParameterProperty data.memberScope d)) :=
    KeepsOr.forM _ fun property _ => bindsValues_registerParameterProperty _ _ property
  refine hvalues.bind_after fun _ s₂ h₂ => ?_
  -- What is left is to attach the primary constructor, if there is one.
  have hconclude : ∀ s' : PassState, s₂.descriptors.SameTypes s'.descriptors →
      s'.scopes = s₂.scopes → s'.trace = s₂.trace → s'.diagnostics = s₂.diagnostics →
        s'.tables = s₂.tables → (∀ d', (s'.descriptors.get d').kind.outline? = if d' = d
          then (s₂.descriptors.get d).kind.outline?.map fun data =>
            { data with
              constructors := data.constructors ++ constructor.toList
              primaryConstructor := constructor.or data.primaryConstructor }
          else (s₂.descriptors.get d').kind.outline?) →
            Enters s₀ (around, .classDecl head members) s s' := by
    intro s' htypes hscopes htrace hdiagnostics htables' houtlines
    have hlast : KeepsPlaces [] s₂ s' := by
      refine ⟨?_, htypes, congrArg Tables.classes htables',
        congrArg Tables.namespaceScopes htables', fun _ => ?_, fun _ => ?_, fun {code} _ => ?_⟩
      · rw [hscopes]
        exact .refl _
      · rw [htrace]
      · rw [htables']
      · exact congrArg (fun ds => ds.toList.filter fun d => d.code = code) hdiagnostics
    have hkeeps : KeepsPlaces head.nodes.tail s s₁ := .of_signs hsigns htables
    refine ⟨hkeeps.trans ((h₂.keeps.trans hlast).mono (List.nil_subset _)), ?_, ?_, ?_,
      fun hlisted => ?_, fun {head' d' data'} hd' hdata' => ?_, fun kept name => ?_⟩
    · rw [htables', h₂.functions_eq, htables]
      exact (List.append_nil _).symm
    · rw [htables', h₂.properties_eq, htables]
      exact (List.append_nil _).symm
    · have hmisplaced : s'.misplaced = s₂.misplaced :=
        congrArg (fun ds => ds.toList.filter fun d => d.code = .misplacedConstructor) hdiagnostics
      rw [hmisplaced, h₂.misplaced_eq, hsigns.misplaced_eq]
      exact (List.append_nil _).symm
    · rcases hlisted with hlisted | hlisted <;> cases hlisted
    · rw [houtlines, h₂.descriptors_eq, hsigns.sameClasses.outline?_eq,
        hsigns.sameClasses.outline?_eq]
      by_cases heq : d' = d
      · subst heq
        obtain rfl := h₀.head_eq hd hd'
        rw [if_pos rfl, hdata']
        exact ⟨_, rfl, .self rfl hsome rfl rfl⟩
      · rw [if_neg heq]
        refine ⟨data', hdata', .member (fun members' hself => ?_) (List.append_nil _).symm rfl⟩
        obtain ⟨rfl, -⟩ := Declaration.classDecl.inj hself
        exact heq (Option.some.inj ((h₀.declaration?_eq hd').symm.trans hd₀))
    · rw [hscopes, PassState.functionAt?_eq_none fun _ => rfl]
      unfold ScopeTree.functionsAt
      rw [h₂.bindings_eq, hsigns.scopes_eq]
      exact (List.append_nil _).symm
  cases constructor with
  | none =>
      refine ⟨hconclude s₂ (.refl _) rfl rfl rfl rfl fun d' => ?_, hhouse⟩
      split
      · rename_i heq
        rw [heq]
        cases (s₂.descriptors.get d).kind.outline? with
        | none => rfl
        | some data => simp
      · rfl
  | some constructor =>
      refine afterOr_bind.mpr (afterOr_faultyAnalysis.mpr (afterOr_tryDescriptors fun t ht => ?_))
      let attach : ClassData → ClassData := fun data =>
        { data with
          primaryConstructor := some constructor
          constructors := data.constructors ++ [constructor] }
      have houtlines := DescriptorTable.outline?_editClass (f := attach) (fun _ => rfl) ht
      exact ⟨hconclude _ (.editClass (f := attach) (fun _ => rfl) ht) rfl rfl rfl rfl houtlines,
        hhouse⟩

end

/-! ## Trees -/

variable {p : List (Option Declaration × Declaration)}

/-- The declaration comes after those that have been registered, and what is around it is one of
these. -/
structure Next (P p : List (Option Declaration × Declaration))
    (q : Option Declaration × Declaration) : Prop where
  comes : p ++ [q] <+: P
  around_mem : ∀ e ∈ q.1, e ∈ p.map Prod.snd

/-- While one declaration after the other is registered, something goes on holding of those that
have been registered and of the state: each kind of declarations has an effect that ensures it. -/
structure Steps (P : List (Option Declaration × Declaration)) (s₀ : PassState)
    (holds : List (Option Declaration × Declaration) → PassState → Prop)
    (effect : Option Declaration × Declaration → PassState → PassState → Prop) : Prop where
  keeps : ∀ {p s}, holds p s → KeepsPlaces (P.flatMap fun q => q.2.innerNodes) s₀ s
  step : ∀ {p q s s'}, Next P p q → holds p s → effect q s s' → holds (p ++ [q]) s'
  namespaceDecl : ∀ {p s around head members}, Next P p (around, .namespaceDecl head members) →
    holds p s → effect (around, .namespaceDecl head members) s s
  unsupported : ∀ {p s around d}, Next P p (around, d) → d.Inert → holds p s →
    ∀ (node : Nat) (message : String),
      AfterOr (liftM (reportCode .unsupportedConstruct node message) : Pass Unit) s
        (fun _ => effect (around, d) s) fun _ _ => True
  classDecl : ∀ {p s around head members}, Next P p (around, .classDecl head members) →
    holds p s → AfterOr (registerClass head) s
      (fun inner s' => effect (around, .classDecl head members) s s' ∧
        s₀.Houses (some (.classDecl head members)) inner) fun _ _ => True
  functionDecl : ∀ {p s around scope decl}, Next P p (around, .functionDecl decl) →
    s₀.Houses around scope → holds p s → AfterOr (registerFunction scope decl) s
      (fun _ => effect (around, .functionDecl decl) s) fun _ _ => True
  propertyDecl : ∀ {p s around scope decl}, Next P p (around, .propertyDecl decl) →
    s₀.Houses around scope → holds p s → AfterOr (registerProperty scope decl) s
      (fun _ => effect (around, .propertyDecl decl) s) fun _ _ => True
  constructorDecl : ∀ {p s around scope decl}, Next P p (around, .constructorDecl decl) →
    s₀.Houses around scope → holds p s → AfterOr (registerConstructor scope decl) s
      (fun _ => effect (around, .constructorDecl decl) s) fun _ _ => True

section

variable {holds : List (Option Declaration × Declaration) → PassState → Prop}
  {effect : Option Declaration × Declaration → PassState → PassState → Prop}

mutual

theorem Steps.afterOr_register
    (h : Steps P s₀ holds effect) (around : Option Declaration) (scope : Nat) (d : Declaration)
    (p : List (Option Declaration × Declaration)) (s : PassState)
    (hp : p ++ d.enclosed around <+: P) (haround : ∀ e ∈ around, e ∈ p.map Prod.snd)
    (hscope : s₀.Houses around scope) (hs : holds p s) :
    AfterOr (register scope d) s (fun _ => holds (p ++ d.enclosed around)) fun _ _ => True := by
  -- What a declaration holds comes after the declaration itself.
  have hself : ∀ {rest : List (Option Declaration × Declaration)},
      d.enclosed around = (around, d) :: rest → Next P p (around, d) ∧
        p ++ [(around, d)] ++ rest <+: P := by
    intro rest heq
    rw [heq, List.append_cons] at hp
    exact ⟨⟨(List.prefix_append ..).trans hp, haround⟩, hp⟩
  match d with
  | .classDecl head members =>
      obtain ⟨hnext, hrest⟩ := hself rfl
      refine AfterOr.bind (h.classDecl hnext hs) fun inner s₁ ⟨heffect, hinner⟩ => ?_
      have hmembers := h.afterOr_registerAll _ inner members _ s₁ hrest
        (by rintro _ ⟨⟩; simp) hinner (h.step hnext hs heffect)
      rw [Declaration.enclosed, List.append_cons]
      exact hmembers
  | .namespaceDecl head members =>
      obtain ⟨hnext, hrest⟩ := hself rfl
      refine afterOr_bind.mpr (afterOr_tables.mpr ?_)
      split
      · trivial
      · rename_i inner hinner
        rw [(h.keeps hs).namespaceScopes_eq] at hinner
        have hmembers := h.afterOr_registerAll _ inner members _ s hrest
          (by rintro _ ⟨⟩; simp) (.namespaceBody hinner)
          (h.step hnext hs (h.namespaceDecl hnext hs))
        rw [Declaration.enclosed, List.append_cons]
        exact hmembers
  | .classObject id members =>
      obtain ⟨hnext, hrest⟩ := hself rfl
      have hreport := h.unsupported hnext (.classObject id members) hs id
        "Class objects are not supported yet"
      refine AfterOr.bind hreport fun _ s₁ heffect => ?_
      have hmembers := h.afterOr_registerAll around scope members _ s₁ hrest
        (fun e he => List.map_append ▸ List.mem_append_left _ (haround e he)) hscope
        (h.step hnext hs heffect)
      rw [Declaration.enclosed, List.append_cons]
      exact hmembers
  | .functionDecl decl =>
      exact AfterOr.imp (h.functionDecl ⟨hp, haround⟩ hscope hs)
        fun _ _ heffect => h.step ⟨hp, haround⟩ hs heffect
  | .propertyDecl decl =>
      exact AfterOr.imp (h.propertyDecl ⟨hp, haround⟩ hscope hs)
        fun _ _ heffect => h.step ⟨hp, haround⟩ hs heffect
  | .constructorDecl decl =>
      exact AfterOr.imp (h.constructorDecl ⟨hp, haround⟩ hscope hs)
        fun _ _ heffect => h.step ⟨hp, haround⟩ hs heffect
  | .typedefDecl id name =>
      exact AfterOr.imp (h.unsupported ⟨hp, haround⟩ (.typedefDecl id name) hs id _)
        fun _ _ heffect => h.step ⟨hp, haround⟩ hs heffect
  | .extensionDecl id name =>
      exact AfterOr.imp (h.unsupported ⟨hp, haround⟩ (.extensionDecl id name) hs id _)
        fun _ _ heffect => h.step ⟨hp, haround⟩ hs heffect

theorem Steps.afterOr_registerAll
    (h : Steps P s₀ holds effect) (around : Option Declaration) (scope : Nat) (ds : List Declaration)
    (p : List (Option Declaration × Declaration)) (s : PassState)
    (hp : p ++ Declaration.enclosedIn around ds <+: P) (haround : ∀ e ∈ around, e ∈ p.map Prod.snd)
    (hscope : s₀.Houses around scope) (hs : holds p s) :
    AfterOr (registerAll scope ds) s (fun _ => holds (p ++ Declaration.enclosedIn around ds))
      fun _ _ => True := by
  match ds with
  | [] =>
      rw [Declaration.enclosedIn, List.append_nil]
      exact hs
  | d :: rest =>
      rw [Declaration.enclosedIn, ← List.append_assoc] at hp ⊢
      refine AfterOr.bind (h.afterOr_register around scope d p s
        ((List.prefix_append ..).trans hp) haround hscope hs) fun _ s₁ h₁ => ?_
      refine h.afterOr_registerAll around scope rest _ s₁ hp (fun e he => ?_) hscope h₁
      rw [List.map_append]
      exact List.mem_append_left _ (haround e he)

end

end

/-! ## Everything is entered -/

/-- Each declaration is entered in its own way. -/
theorem steps_registers (h₀ : Ready P s₀) : Steps P s₀ (Registers P s₀) (Enters s₀) where
  keeps h := h.keeps
  step hnext h heffect := h.step h₀ hnext.comes hnext.around_mem heffect
  namespaceDecl {p s around head members} _ _ :=
    .of_signs (refl_of (Session.Signs _) s.toSession) rfl (.namespaceDecl head members)
  unsupported {p s around d} _ hd _ node message := by
    have hsigns : Keeps (Session.Signs d.innerNodes)
        (reportCode .unsupportedConstruct node message) := keeps_reportOther (by decide) ..
    exact afterOr_analysis.mpr ((hsigns.after s.toSession).mono fun _ _ h => .of_signs h rfl hd)
  classDecl hnext h := afterOr_registerClass_enters h₀ h.keeps
    (hnext.comes.subset (List.mem_append_right _ List.mem_cons_self))
  functionDecl _ hscope h := afterOr_registerFunction_enters h₀ h.keeps hscope _
  propertyDecl {p s around scope decl} hnext hscope _ := by
    have hmem : (around, .propertyDecl decl) ∈ P :=
      hnext.comes.subset (List.mem_append_right _ List.mem_cons_self)
    exact afterOr_registerProperty_enters hscope ((List.nodup_flatMap.mp h₀.distinct).1 _ hmem)
  constructorDecl {p s around scope decl} hnext hscope h := by
    cases hclass : around.bind Declaration.classHead? with
    | none => exact afterOr_registerConstructor_misplaced h₀ h.keeps hscope hclass decl
    | some head =>
        obtain ⟨members, heq⟩ := Declaration.exists_classDecl_of_classHead? hclass
        have hmem : .classDecl head members ∈ P.map Prod.snd :=
          ((List.prefix_append ..).trans hnext.comes).map Prod.snd |>.subset
            (hnext.around_mem _ heq)
        exact afterOr_registerConstructor_attached h₀ h.keeps hscope heq hmem decl

/-- Registering a tree registers everything in it. -/
theorem afterOr_registerAll_registers
    (h₀ : Ready P s₀) (around : Option Declaration) (scope : Nat) (ds : List Declaration)
    (p : List (Option Declaration × Declaration)) (s : PassState)
    (hp : p ++ Declaration.enclosedIn around ds <+: P) (haround : ∀ e ∈ around, e ∈ p.map Prod.snd)
    (hscope : s₀.Houses around scope) (h : Registers P s₀ p s) :
    AfterOr (registerAll scope ds) s
      (fun _ => Registers P s₀ (p ++ Declaration.enclosedIn around ds)) fun _ _ => True :=
  (steps_registers h₀).afterOr_registerAll around scope ds p s hp haround hscope h

end Pass

end DeclAnalysis
