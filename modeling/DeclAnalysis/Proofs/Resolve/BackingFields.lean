import DeclAnalysis.Proofs.Resolve.Storage

/-!
# Which properties have backing fields

When an analysis ends without a fault, a property has a backing field if it is declared by a
parameter, if no accessor of it has a body, or if an accessor refers to the field. This can be read
off the tree, and so can everything that is said about backing fields.
-/

namespace DeclAnalysis

namespace PropertySite

/-- The last property of a name. -/
def lastNamed? (sites : List PropertySite) (name : String) : Option PropertySite :=
  sites.reverse.find? fun x => x.name = name

theorem of_lastNamed?
    {sites : List PropertySite} {name : String} {x : PropertySite}
    (h : lastNamed? sites name = some x) : x ∈ sites ∧ x.name = name := by
  have hname := List.find?_some h
  exact ⟨List.mem_reverse.mp (List.mem_of_find?_eq_some h), of_decide_eq_true hname⟩

end PropertySite

open PropertySite (lastNamed?)

/-- What is said about the names of fields in a constructor of a class with the properties. -/
def ConstructorDecl.fieldRemarks (decl : ConstructorDecl) (sites : List PropertySite) :
    List Diagnostic :=
  (decl.fieldAccesses.filter fun a => (lastNamed? sites a.property).isNone).map .missingField ++
    (decl.fieldAccesses.filter fun a => (lastNamed? sites a.property).any fun x => !x.stored).map
      fun a => .fieldMisuse a.node

namespace Declaration

/-- What is said about backing fields in a declaration, among declarations that are given with what
is around each. -/
def fieldRemarks (P : List (Option Declaration × Declaration))
    (q : Option Declaration × Declaration) : List Diagnostic :=
  match q.2 with
  | classDecl head _ => head.fieldAccesses.map .missingField
  | propertyDecl decl => decl.fieldRemarks
  | functionDecl decl => (Expr.optionalAccesses decl.body).map .missingField
  | constructorDecl decl =>
    (q.1.bind classHead?).toList.flatMap fun head => decl.fieldRemarks (sitesAmong P head.id)
  | _ => []

variable {P : List (Option Declaration × Declaration)} {q q' : Option Declaration × Declaration}

theorem fieldRemarks_of_constructor
    {head : ClassHead} {decl : ConstructorDecl} (hclass : q.1.bind classHead? = some head)
    (hself : q.2 = .constructorDecl decl) :
    fieldRemarks P q = decl.fieldRemarks (sitesAmong P head.id) := by
  unfold fieldRemarks
  rw [hself, hclass]
  exact List.flatMap_singleton ..

/-! ## Nodes -/

/-- How often a node is the name of a backing field, another node of a body, or a node of the
signature. -/
def countParts (node : Nat) (d : Declaration) : Nat :=
  (d.fieldAccesses.map FieldAccess.node).count node +
    (d.plainNodes.count node + d.signatureNodes.count node)

theorem countParts_pos_of_access
    {d : Declaration} {a : FieldAccess} (ha : a ∈ d.fieldAccesses) : 0 < countParts a.node d :=
  Nat.add_pos_left (List.count_pos_iff.mpr (List.mem_map_of_mem ha)) _

section

variable (hdistinct : (P.flatMap fun q => q.2.ownNodes).Nodup)

include hdistinct

/-- No node is a part of two declarations, or a part of one in two ways. -/
theorem eq_of_countParts_pos
    (hq : q ∈ P) (hq' : q' ∈ P) {node : Nat} (h : 0 < countParts node q.2)
    (h' : 0 < countParts node q'.2) : q = q' ∧ countParts node q.2 ≤ 1 := by
  have hcount : countParts node q.2 ≤ q.2.ownNodes.count node := count_parts_le node q.2
  have hcount' : countParts node q'.2 ≤ q'.2.ownNodes.count node := count_parts_le node q'.2
  have hown := List.count_pos_iff.mp (h.trans_le hcount)
  have hown' := List.count_pos_iff.mp (h'.trans_le hcount')
  refine ⟨eq_of_mem_ownNodes (f := Prod.snd) hdistinct hq hq' hown hown', hcount.trans ?_⟩
  exact List.nodup_iff_count_le_one.mp ((List.nodup_flatMap.mp hdistinct).1 q hq) node

/-- The name of a backing field is no other node. -/
theorem node_not_mem_plainNodesIn
    (hq : q ∈ P) {a : FieldAccess} (ha : a ∈ q.2.fieldAccesses) : a.node ∉ plainNodesIn P := by
  intro hmem
  obtain ⟨q', hq', hnode⟩ := List.mem_flatMap.mp hmem
  have haccess := List.count_pos_iff.mpr (List.mem_map_of_mem (f := FieldAccess.node) ha)
  have hplain := List.count_pos_iff.mpr hnode
  rw [List.count_append] at hplain
  obtain ⟨rfl, hle⟩ := eq_of_countParts_pos hdistinct hq hq' (countParts_pos_of_access ha)
    (Nat.add_pos_right _ hplain)
  unfold countParts at hle
  omega

/-- A node of a signature is none of a body. -/
theorem node_not_mem_plainNodes
    (hq : q ∈ P) {node : Nat} (hnode : node ∈ q.2.signatureNodes) :
    node ∉ P.flatMap fun q => q.2.plainNodes := by
  intro hmem
  obtain ⟨q', hq', hplain⟩ := List.mem_flatMap.mp hmem
  have hsignature := List.count_pos_iff.mpr hnode
  have hplain := List.count_pos_iff.mpr hplain
  have hpos : 0 < countParts node q.2 := by
    unfold countParts
    omega
  have hpos' : 0 < countParts node q'.2 := by
    unfold countParts
    omega
  obtain ⟨rfl, hle⟩ := eq_of_countParts_pos hdistinct hq hq' hpos hpos'
  unfold countParts at hle
  omega

theorem separates_plainNodesIn : Separates (plainNodesIn P) P where
  plainNodes_subset q hq _ hnode := List.mem_flatMap.mpr ⟨q, hq, List.mem_append_left _ hnode⟩
  accesses_not_mem _ hq _ ha := node_not_mem_plainNodesIn hdistinct hq ha

theorem separates_plainNodes : Separates (P.flatMap fun q => q.2.plainNodes) P where
  plainNodes_subset q hq _ hnode := List.mem_flatMap.mpr ⟨q, hq, hnode⟩
  accesses_not_mem _ hq _ ha hmem := by
    obtain ⟨q', hq', hplain⟩ := List.mem_flatMap.mp hmem
    exact node_not_mem_plainNodesIn hdistinct hq ha
      (List.mem_flatMap.mpr ⟨q', hq', List.mem_append_left _ hplain⟩)

/-- No node is the name of a backing field in two places. -/
theorem eq_of_node_eq
    (hq : q ∈ P) (hq' : q' ∈ P) {a a' : FieldAccess} (ha : a ∈ q.2.fieldAccesses)
    (ha' : a' ∈ q'.2.fieldAccesses) (h : a.node = a'.node) : q = q' ∧ a = a' := by
  have hpos' := countParts_pos_of_access ha'
  rw [← h] at hpos'
  obtain ⟨rfl, -⟩ := eq_of_countParts_pos hdistinct hq hq' (countParts_pos_of_access ha) hpos'
  refine ⟨rfl, List.inj_on_of_nodup_map (f := FieldAccess.node) ?_ ha ha' h⟩
  refine List.nodup_iff_count_le_one.mpr fun node => ?_
  by_contra hlt
  have hpos : 0 < countParts node q.2 := Nat.add_pos_left (by omega) _
  have hle := (eq_of_countParts_pos hdistinct hq hq hpos hpos).2
  unfold countParts at hle
  omega

end

theorem stored_of_mem_parameterSites {d : Declaration} {x : PropertySite}
    (hx : x ∈ d.parameterSites) : x.stored = true := by
  obtain ⟨head, -, hx⟩ := List.mem_flatMap.mp hx
  obtain ⟨p, -, rfl⟩ := List.mem_map.mp hx
  rfl

end Declaration

/-- Among things that are listed by what is found about others, the last one of a name is found
about the last of these. -/
theorem find?_reverse_of_map_eq
    {α β : Type} {f : α → Option β} {name : α → String} {name' : β → String} {xs : List α}
    {ys : List β} (h : ys.map some = xs.map f)
    (hname : ∀ x ∈ xs, ∀ y, f x = some y → name' y = name x) (n : String) :
    ys.reverse.find? (fun y => name' y = n) = (xs.reverse.find? fun x => name x = n).bind f := by
  induction xs generalizing ys with
  | nil =>
      rw [List.map_eq_nil_iff.mp h]
      rfl
  | cons x rest ih =>
      cases ys with
      | nil => cases h
      | cons y ys =>
          obtain ⟨hy, hrest⟩ := List.cons_eq_cons.mp h
          have hyx := hname x List.mem_cons_self y hy.symm
          have ih := ih hrest fun x hx => hname x (List.mem_cons_of_mem _ hx)
          rw [List.reverse_cons, List.reverse_cons, List.find?_append, List.find?_append, ih]
          cases hfound : rest.reverse.find? fun x => name x = n with
          | some x' =>
              obtain ⟨y', -, hy'⟩ : ∃ y' ∈ ys, some y' = f x' := by
                have hmem := List.mem_map_of_mem (f := f)
                  (List.mem_reverse.mp (List.mem_of_find?_eq_some hfound))
                rw [← hrest] at hmem
                exact List.mem_map.mp hmem
              rw [Option.bind_some, ← hy', Option.some_or, Option.some_or, Option.bind_some, ← hy']
          | none =>
              by_cases hn : name x = n
              · simp [hyx, hn, ← hy]
              · simp [hyx, hn]

namespace PassState

variable {P : List (Option Declaration × Declaration)} {s : PassState}
  {q : Option Declaration × Declaration}

/-- The last property of a name that has been registered for a class is declared by the last site
of that name. -/
theorem fieldOf?_eq_bind
    {classId : Nat} {sites : List PropertySite}
    (hlisted : (s.tables.propertiesOf classId).map some = s.declared sites)
    (hnamed : ∀ x ∈ sites, ∃ p, s.trace.declaration? x.node = some p ∧
      s.descriptors.Names .propertySort x.name p) (name : String) :
    s.fieldOf? classId name =
      (lastNamed? sites name).bind fun x => s.trace.declaration? x.node := by
  refine find?_reverse_of_map_eq hlisted (fun x hx p hp => ?_) name
  obtain ⟨p', hp', hnames⟩ := hnamed x hx
  obtain rfl := Option.some.inj (hp.symm.trans hp')
  exact hnames.name_eq

section

variable (hs : s.Poised P) (hi : s.Indexed P)

include hs hi

/-- A property has a backing field in the end if it is declared where such ones are. -/
theorem stores_iff (p : Nat) : s.stores p = true ↔
    ∃ x ∈ P.flatMap fun q => q.2.sites, x.stored = true ∧ s.trace.declaration? x.node = some p := by
  unfold stores
  rw [Bool.or_eq_true, hi.hasBackingField_iff, List.contains_iff_mem]
  constructor
  · rintro (hparameter | hlater)
    · obtain ⟨x, hx, hp⟩ := List.mem_map.mp hparameter
      obtain ⟨q, hq, hx⟩ := List.mem_flatMap.mp hx
      exact ⟨x, Declaration.sites_subset hq (List.mem_append_left _ hx),
        Declaration.stored_of_mem_parameterSites hx, hp⟩
    · obtain ⟨entry, hentry, rfl⟩ := List.mem_map.mp hlater
      obtain ⟨hentry, hstores⟩ := List.mem_filter.mp hentry
      obtain ⟨hlisted, hp⟩ := Session.declaration?_of_mem_listed hs.listed.properties_eq hentry
      obtain ⟨q, hq, hproperty⟩ := List.mem_filterMap.mp hlisted
      refine ⟨entry.1.site, Declaration.sites_subset hq ?_, hstores, hp⟩
      rw [Declaration.sites_of_property? hproperty]
      exact List.mem_singleton_self _
  · rintro ⟨x, hx, hstored, hp⟩
    obtain ⟨q, hq, hx⟩ := List.mem_flatMap.mp hx
    rcases List.mem_append.mp hx with hx | hx
    · exact .inl (List.mem_map.mpr ⟨x, List.mem_flatMap.mpr ⟨q, hq, hx⟩, hp⟩)
    · obtain ⟨decl, hdecl, rfl⟩ := List.mem_map.mp hx
      have hlisted : decl ∈ P.filterMap fun q => q.2.property? :=
        List.mem_filterMap.mpr ⟨q, hq, Option.mem_toList.mp hdecl⟩
      obtain ⟨p', hentry⟩ := Session.exists_mem_listed hs.listed.properties_eq hlisted
      have hp' := (Session.declaration?_of_mem_listed hs.listed.properties_eq hentry).2
      obtain rfl := Option.some.inj (hp.symm.trans hp')
      exact .inr (List.mem_map.mpr ⟨_, List.mem_filter.mpr ⟨hentry, hstored⟩, rfl⟩)

theorem stores_eq
    {x : PropertySite} (hx : x ∈ P.flatMap fun q => q.2.sites) {p : Nat}
    (hp : s.trace.declaration? x.node = some p) : s.stores p = x.stored := by
  rw [Bool.eq_iff_iff, stores_iff hs hi]
  constructor
  · rintro ⟨x', hx', hstored, hp'⟩
    obtain rfl := List.inj_on_of_nodup_map hi.distinct hx hx' (hp.trans hp'.symm)
    exact hstored
  · intro hstored
    exact ⟨x, hx, hstored, hp⟩

/-- What is said in a function or constructor can be read off the tree. -/
theorem functionRemarks_eq
    (hclosed : ∀ q ∈ P, ∀ e ∈ q.1, e ∈ P.map Prod.snd) (hq : q ∈ P) {entry : FunctionLike × Nat}
    (hentry : entry ∈ s.tables.functions.toList)
    (hfunction : Declaration.functionLike? q = some entry.1) :
    s.functionRemarks entry = Declaration.fieldRemarks P q := by
  obtain ⟨f, descriptor⟩ := entry
  cases f with
  | function decl =>
      have hself := Declaration.eq_of_functionLike? hfunction
      unfold functionRemarks Declaration.fieldRemarks
      rw [hself]
  | constructor decl =>
      obtain ⟨head, hclass, hself⟩ := Declaration.eq_of_functionLike?_constructor hfunction
      obtain ⟨classId, constructor, hclassId, hconstructor, hown⟩ :=
        hs.constructors q hq hclass hself
      have hdeclared := (Session.declaration?_of_mem_listed hs.listed.functions_eq hentry).2
      obtain rfl := Option.some.inj (hconstructor.symm.trans hdeclared)
      have hhead : head ∈ P.filterMap fun q => q.2.classHead? := by
        obtain ⟨around, haround, hhead⟩ := Option.bind_eq_some_iff.mp hclass
        obtain ⟨q', hq', heq⟩ := List.mem_map.mp (hclosed q hq around haround)
        exact List.mem_filterMap.mpr ⟨q', hq', heq ▸ hhead⟩
      have hlisted : (s.tables.propertiesOf classId).map some =
          s.declared (Declaration.sitesAmong P head.id) := by
        obtain ⟨classId', hentry'⟩ := Session.exists_mem_listed hs.listed.classes_eq hhead
        have hclassId' := (Session.declaration?_of_mem_listed hs.listed.classes_eq hentry').2
        obtain rfl := Option.some.inj (hclassId.symm.trans hclassId')
        exact hi.propertiesOf_eq hentry'
      have hsites := Declaration.sitesAmong_subset (P := P) head.id
      have hfield := fieldOf?_eq_bind hlisted fun x hx => hi.named x (hsites hx)
      have hcases : ∀ name, (s.fieldOf? classId name).isNone =
            (lastNamed? (Declaration.sitesAmong P head.id) name).isNone ∧
          ((s.fieldOf? classId name).any fun p => !s.stores p) =
            (lastNamed? (Declaration.sitesAmong P head.id) name).any fun x => !x.stored := by
        intro name
        rw [hfield]
        cases hlast : lastNamed? (Declaration.sitesAmong P head.id) name with
        | none => exact ⟨rfl, rfl⟩
        | some x =>
            have hx := hsites (PropertySite.of_lastNamed? hlast).1
            obtain ⟨p, hp, -⟩ := hi.named x hx
            rw [Option.bind_some, hp]
            exact ⟨rfl, congrArg not (stores_eq hs hi hx hp)⟩
      rw [Declaration.fieldRemarks_of_constructor hclass hself]
      unfold functionRemarks ConstructorDecl.fieldRemarks
      dsimp only
      rw [hown.container_eq, Option.getD_some]
      simp only [hcases]

/-- The log of the last pass says what can be read off the tree. -/
theorem mem_fieldLog_iff
    (hclosed : ∀ q ∈ P, ∀ e ∈ q.1, e ∈ P.map Prod.snd) (d : Diagnostic) :
    d ∈ s.fieldLog ↔ ∃ q ∈ P, d ∈ Declaration.fieldRemarks P q := by
  unfold fieldLog
  rw [List.mem_append, List.mem_append]
  constructor
  · rintro (hd | hd | hd)
    · obtain ⟨entry, hentry, hd⟩ := List.mem_flatMap.mp hd
      have hlisted := (Session.declaration?_of_mem_listed hs.listed.classes_eq hentry).1
      obtain ⟨q, hq, hclass⟩ := List.mem_filterMap.mp hlisted
      obtain ⟨members, hself⟩ := Declaration.exists_members_of_classHead? hclass
      refine ⟨q, hq, ?_⟩
      unfold Declaration.fieldRemarks
      rw [hself]
      exact hd
    · obtain ⟨entry, hentry, hd⟩ := List.mem_flatMap.mp hd
      have hlisted := (Session.declaration?_of_mem_listed hs.listed.properties_eq hentry).1
      obtain ⟨q, hq, hproperty⟩ := List.mem_filterMap.mp hlisted
      refine ⟨q, hq, ?_⟩
      unfold Declaration.fieldRemarks
      rw [Declaration.eq_of_property? hproperty]
      exact hd
    · obtain ⟨entry, hentry, hd⟩ := List.mem_flatMap.mp hd
      have hlisted := (Session.declaration?_of_mem_listed hs.listed.functions_eq hentry).1
      obtain ⟨q, hq, hfunction⟩ := List.mem_filterMap.mp hlisted
      exact ⟨q, hq, functionRemarks_eq hs hi hclosed hq hentry hfunction ▸ hd⟩
  · rintro ⟨q, hq, hd⟩
    have hfunctions : ∀ f, Declaration.functionLike? q = some f →
        d ∈ s.tables.functions.toList.flatMap s.functionRemarks := by
      intro f hf
      obtain ⟨descriptor, hentry⟩ := Session.exists_mem_listed hs.listed.functions_eq
        (List.mem_filterMap.mpr ⟨q, hq, hf⟩)
      have heq := functionRemarks_eq hs hi hclosed hq hentry hf
      exact List.mem_flatMap.mpr ⟨_, hentry, heq ▸ hd⟩
    cases hself : q.2 with
    | classDecl head members =>
        have hhead : head ∈ P.filterMap fun q => q.2.classHead? :=
          List.mem_filterMap.mpr ⟨q, hq, by rw [hself]; rfl⟩
        obtain ⟨classId, hentry⟩ := Session.exists_mem_listed hs.listed.classes_eq hhead
        unfold Declaration.fieldRemarks at hd
        rw [hself] at hd
        exact .inl (List.mem_flatMap.mpr ⟨_, hentry, hd⟩)
    | propertyDecl decl =>
        have hproperty : decl ∈ P.filterMap fun q => q.2.property? :=
          List.mem_filterMap.mpr ⟨q, hq, by rw [hself]; rfl⟩
        obtain ⟨property, hentry⟩ := Session.exists_mem_listed hs.listed.properties_eq hproperty
        unfold Declaration.fieldRemarks at hd
        rw [hself] at hd
        exact .inr (.inl (List.mem_flatMap.mpr ⟨_, hentry, hd⟩))
    | functionDecl decl =>
        refine .inr (.inr (hfunctions (.function decl) ?_))
        unfold Declaration.functionLike?
        rw [hself]
    | constructorDecl decl =>
        unfold Declaration.fieldRemarks at hd
        rw [hself] at hd
        obtain ⟨head, hhead, -⟩ := List.mem_flatMap.mp hd
        refine .inr (.inr (hfunctions (.constructor decl) ?_))
        unfold Declaration.functionLike?
        rw [hself, Option.mem_toList.mp hhead]
        rfl
    | _ =>
        unfold Declaration.fieldRemarks at hd
        rw [hself] at hd
        cases hd

end

end PassState

end DeclAnalysis
