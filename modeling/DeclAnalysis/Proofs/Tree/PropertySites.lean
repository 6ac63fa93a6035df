import DeclAnalysis.Proofs.Tree.Enclosing
import DeclAnalysis.Proofs.Tree.FieldAccesses
import DeclAnalysis.Resolve.Body

/-!
# Where properties are declared

A property is declared by a parameter of a primary constructor or by a declaration of its own. The
tree tells which properties are stored in a backing field, and which ones a class has.
-/

namespace DeclAnalysis

/-- What declares a property: its node, the name of the property, and whether the property is
stored in a backing field. -/
structure PropertySite where
  node : Nat
  name : String
  stored : Bool

namespace PropertyDecl

/-- The property has a backing field: no accessor has a body, or one of them refers to it. -/
def storesValue (decl : PropertyDecl) : Bool :=
  !Analysis.hasAccessorBody decl || decl.accessorAccesses.any fun a => a.property = decl.name

theorem storesValue_iff {decl : PropertyDecl} : decl.storesValue = true ↔
    (∀ a ∈ decl.getter.toList ++ decl.setter.toList, a.body = none) ∨
      ∃ a ∈ decl.getter.toList ++ decl.setter.toList, ∃ body, a.body = some body ∧
        ∃ node, ⟨node, decl.name⟩ ∈ body.fieldAccesses := by
  unfold storesValue Analysis.hasAccessorBody accessorAccesses
  rw [Bool.or_eq_true, ← List.flatMap_append, Bool.not_eq_true', List.any_eq_false,
    List.any_eq_true]
  refine or_congr ⟨fun h a ha => Option.not_isSome_iff_eq_none.mp (h a ha), fun h a ha => ?_⟩
    ⟨?_, ?_⟩
  · rw [h a ha]
    exact Bool.false_ne_true
  · rintro ⟨access, haccess, hname⟩
    obtain ⟨a, ha, haccess⟩ := List.mem_flatMap.mp haccess
    unfold Accessor.fieldAccesses at haccess
    cases hbody : a.body with
    | none =>
        rw [hbody] at haccess
        cases haccess
    | some body =>
        rw [hbody] at haccess
        exact ⟨a, ha, body, hbody, access.node, of_decide_eq_true hname ▸ haccess⟩
  · rintro ⟨a, ha, body, hbody, node, haccess⟩
    refine ⟨⟨node, decl.name⟩, List.mem_flatMap.mpr ⟨a, ha, ?_⟩, decide_eq_true rfl⟩
    unfold Accessor.fieldAccesses
    rw [hbody]
    exact haccess

/-- What declares the property. -/
def site (decl : PropertyDecl) : PropertySite := ⟨decl.id, decl.name, decl.storesValue⟩

end PropertyDecl

/-- What declares the properties of the primary parameters. All of these are stored. -/
def ClassHead.sites (head : ClassHead) : List PropertySite :=
  (head.primaryConstructor.getD []).map fun p => ⟨p.id, p.name, true⟩

namespace Declaration

/-- What declares properties in the head of a declaration. -/
def parameterSites (d : Declaration) : List PropertySite :=
  d.classHead?.toList.flatMap ClassHead.sites

/-- What declares properties in a declaration itself. -/
def sites (d : Declaration) : List PropertySite :=
  d.parameterSites ++ d.property?.toList.map PropertyDecl.site

/-- The property declaration that stands in the class of a node. -/
def propertyOf? (node : Nat) (q : Option Declaration × Declaration) : Option PropertyDecl :=
  match q.2 with
  | propertyDecl decl =>
    if (q.1.bind classHead?).map ClassHead.id = some node then some decl else none
  | _ => none

/-- What declares properties of the class of a node, among declarations that are given with what is
around each: the parameters if the class is one of them, and the properties that stand in it. -/
def sitesAmong (P : List (Option Declaration × Declaration)) (node : Nat) : List PropertySite :=
  ((P.filterMap fun q => q.2.classHead?).filter fun head => head.id = node).flatMap
      ClassHead.sites ++
    (P.filterMap (propertyOf? node)).map PropertyDecl.site

variable {P : List (Option Declaration × Declaration)}

theorem sites_of_property? {d : Declaration} {decl : PropertyDecl} (h : d.property? = some decl) :
    d.sites = [decl.site] := by
  rw [eq_of_property? h]
  rfl

theorem sites_of_classHead? {d : Declaration} {head : ClassHead} (h : d.classHead? = some head) :
    d.sites = head.sites := by
  obtain ⟨members, rfl⟩ := exists_members_of_classHead? h
  exact (List.append_nil _).trans (List.flatMap_singleton ..)

theorem exists_of_propertyOf?
    {node : Nat} {q : Option Declaration × Declaration} {decl : PropertyDecl}
    (h : propertyOf? node q = some decl) :
    q.2 = .propertyDecl decl ∧ ∃ head, q.1.bind classHead? = some head ∧ head.id = node := by
  obtain ⟨around, d⟩ := q
  cases d with
  | propertyDecl decl' =>
      unfold propertyOf? at h
      dsimp only at h
      split at h
      · rename_i hnode
        obtain rfl := Option.some.inj h
        exact ⟨rfl, Option.map_eq_some_iff.mp hnode⟩
      · cases h
  | _ => cases h

theorem property?_of_propertyOf?
    {node : Nat} {q : Option Declaration × Declaration} {decl : PropertyDecl}
    (h : propertyOf? node q = some decl) : q.2.property? = some decl := by
  rw [(exists_of_propertyOf? h).1]
  rfl

/-- The nodes that declare properties are nodes of the signature. -/
theorem node_mem_signatureNodes {d : Declaration} {x : PropertySite} (hx : x ∈ d.sites) :
    x.node ∈ d.signatureNodes := by
  rcases List.mem_append.mp hx with hx | hx
  · obtain ⟨head, hhead, hparameter⟩ := List.mem_flatMap.mp hx
    obtain ⟨members, rfl⟩ := exists_members_of_classHead? (Option.mem_toList.mp hhead)
    obtain ⟨p, hp, rfl⟩ := List.mem_map.mp hparameter
    exact List.mem_cons_of_mem _ (List.mem_flatMap.mpr ⟨p, hp, List.mem_cons_self⟩)
  · obtain ⟨decl, hdecl, rfl⟩ := List.mem_map.mp hx
    rw [eq_of_property? (Option.mem_toList.mp hdecl)]
    exact List.mem_cons_self

theorem sitesAmong_property (around : Option Declaration) (decl : PropertyDecl) (node : Nat) :
    sitesAmong [(around, .propertyDecl decl)] node =
      if (around.bind classHead?).map ClassHead.id = some node then [decl.site] else [] := by
  by_cases hown : (around.bind classHead?).map ClassHead.id = some node
  · have hsome : propertyOf? node (around, .propertyDecl decl) = some decl := if_pos hown
    rw [if_pos hown]
    simp [sitesAmong, classHead?, hsome]
  · have hnone : propertyOf? node (around, .propertyDecl decl) = none := if_neg hown
    rw [if_neg hown]
    simp [sitesAmong, classHead?, hnone]

theorem sitesAmong_class
    (around : Option Declaration) (head : ClassHead) (members : List Declaration) (node : Nat) :
    sitesAmong [(around, .classDecl head members)] node =
      if head.id = node then head.sites else [] := by
  by_cases hnode : head.id = node
  · simp [sitesAmong, classHead?, propertyOf?, hnode]
  · simp [sitesAmong, classHead?, propertyOf?, hnode]

/-- The parameters of a class have nodes of their own. -/
theorem nodup_parameterIds
    {head : ClassHead} {members : List Declaration}
    (h : (Declaration.classDecl head members).ownNodes.Nodup) :
    ((head.primaryConstructor.getD []).map Parameter.id).Nodup := by
  have hparameters : (parameterNodes (head.primaryConstructor.getD [])).Nodup :=
    (List.nodup_append.mp (List.nodup_cons.mp h).2).1
  refine List.pairwise_map.mpr ((List.nodup_flatMap.mp hparameters).2.imp ?_)
  intro p p' hdisjoint heq
  exact hdisjoint List.mem_cons_self (heq ▸ List.mem_cons_self)

theorem sites_subset {q : Option Declaration × Declaration} (hq : q ∈ P) :
    q.2.sites ⊆ P.flatMap fun q => q.2.sites :=
  fun _ hx => List.mem_flatMap.mpr ⟨q, hq, hx⟩

/-- What declares a property of a class declares a property. -/
theorem sitesAmong_subset (node : Nat) : sitesAmong P node ⊆ P.flatMap fun q => q.2.sites := by
  intro x hx
  rcases List.mem_append.mp hx with hx | hx
  · obtain ⟨head, hhead, hx⟩ := List.mem_flatMap.mp hx
    obtain ⟨q, hq, hclass⟩ := List.mem_filterMap.mp (List.mem_of_mem_filter hhead)
    apply sites_subset hq
    rw [sites_of_classHead? hclass]
    exact hx
  · obtain ⟨decl, hdecl, rfl⟩ := List.mem_map.mp hx
    obtain ⟨q, hq, hproperty⟩ := List.mem_filterMap.mp hdecl
    apply sites_subset hq
    rw [sites_of_property? (property?_of_propertyOf? hproperty)]
    exact List.mem_singleton_self _

/-! ### The members of a class -/

mutual

/-- The property that a member of a class declares, or those of a class object among its members. -/
def properties : Declaration → List PropertyDecl
  | propertyDecl decl => [decl]
  | classObject _ members => propertiesIn members
  | _ => []

/-- The properties that the members of a class declare, in their order. -/
def propertiesIn : List Declaration → List PropertyDecl
  | [] => []
  | d :: rest => d.properties ++ propertiesIn rest

end

/-- The declaration is not the class of the node. -/
def Lacks (node : Nat) (d : Declaration) : Prop := d.classHead?.map ClassHead.id ≠ some node

theorem lacks_of_mem_some {node : Nat} {d : Declaration} (h : d.Lacks node) :
    ∀ e ∈ some d, e.Lacks node := by
  intro e he
  obtain rfl := Option.mem_some.mp he
  exact h

/-- Declarations with other nodes are not the class. -/
theorem lacks_of_disjoint
    {ds ds' : List Declaration} (h : (ds.flatMap ownNodes).Disjoint (ds'.flatMap ownNodes))
    {head : ClassHead} {members : List Declaration} (hmem : .classDecl head members ∈ ds) :
    ∀ d ∈ ds', d.Lacks head.id := by
  intro d hd hid
  obtain ⟨head', hclass, heq⟩ := Option.map_eq_some_iff.mp hid
  obtain ⟨members', rfl⟩ := exists_members_of_classHead? hclass
  refine h (a := head.id) ?_ ?_
  · exact List.mem_flatMap.mpr ⟨_, hmem, List.mem_cons_self⟩
  · exact List.mem_flatMap.mpr ⟨_, hd, heq ▸ List.mem_cons_self⟩

section

variable {around : Option Declaration} {node : Nat}

theorem propertyOf?_eq_none
    {q : Option Declaration × Declaration} (haround : ∀ e ∈ q.1, e.Lacks node) :
    propertyOf? node q = none := by
  refine Option.eq_none_iff_forall_ne_some.mpr fun decl hdecl => ?_
  obtain ⟨-, head, hclass, hid⟩ := exists_of_propertyOf? hdecl
  obtain ⟨e, he, hhead⟩ := Option.bind_eq_some_iff.mp hclass
  exact haround e he (Option.map_eq_some_iff.mpr ⟨head, hhead, hid⟩)

/-- Nothing stands in the class that lies outside of it. -/
theorem filterMap_propertyOf?_enclosed_eq_nil
    (haround : ∀ e ∈ around, e.Lacks node) {d : Declaration} (hd : ∀ e ∈ d.nested, e.Lacks node) :
    (d.enclosed around).filterMap (propertyOf? node) = [] := by
  refine List.filterMap_eq_nil_iff.mpr fun q hq => propertyOf?_eq_none fun e he => ?_
  rcases around_of_mem_enclosed d hq with heq | ⟨e', he', heq⟩
  · exact haround e (heq ▸ he)
  · rw [heq] at he
    exact Option.mem_some.mp he ▸ hd e' he'

theorem filterMap_propertyOf?_enclosedIn_eq_nil
    (haround : ∀ e ∈ around, e.Lacks node) {ds : List Declaration}
    (hds : ∀ e ∈ nestedIn ds, e.Lacks node) :
    (enclosedIn around ds).filterMap (propertyOf? node) = [] := by
  refine List.filterMap_eq_nil_iff.mpr fun q hq => propertyOf?_eq_none fun e he => ?_
  rcases around_of_mem_enclosedIn ds hq with heq | ⟨e', he', heq⟩
  · exact haround e (heq ▸ he)
  · rw [heq] at he
    exact Option.mem_some.mp he ▸ hds e' he'

mutual

/-- Directly in the class stand the properties of its members. -/
theorem filterMap_propertyOf?_enclosed
    (haround : (around.bind classHead?).map ClassHead.id = some node) (d : Declaration)
    (hd : ∀ e ∈ d.nested, e.Lacks node) :
    (d.enclosed around).filterMap (propertyOf? node) = d.properties := by
  match d with
  | propertyDecl decl =>
      have hown : propertyOf? node (around, .propertyDecl decl) = some decl := if_pos haround
      simp [enclosed, properties, hown]
  | classDecl head members =>
      obtain ⟨hself, hmembers⟩ := List.forall_mem_cons.mp hd
      have hnone := filterMap_propertyOf?_enclosedIn_eq_nil
        (lacks_of_mem_some hself) hmembers
      exact hnone
  | namespaceDecl head members =>
      obtain ⟨hself, hmembers⟩ := List.forall_mem_cons.mp hd
      have hnone := filterMap_propertyOf?_enclosedIn_eq_nil
        (lacks_of_mem_some hself) hmembers
      exact hnone
  | classObject id members =>
      exact filterMap_propertyOf?_enclosedIn haround members (List.forall_mem_cons.mp hd).2
  | typedefDecl .. | extensionDecl .. | functionDecl _ | constructorDecl _ => rfl

theorem filterMap_propertyOf?_enclosedIn
    (haround : (around.bind classHead?).map ClassHead.id = some node) (ds : List Declaration)
    (hds : ∀ e ∈ nestedIn ds, e.Lacks node) :
    (enclosedIn around ds).filterMap (propertyOf? node) = propertiesIn ds := by
  match ds with
  | [] => rfl
  | d :: rest =>
      rw [nestedIn] at hds
      obtain ⟨hd, hrest⟩ := List.forall_mem_append.mp hds
      rw [enclosedIn, List.filterMap_append, filterMap_propertyOf?_enclosed haround d hd,
        filterMap_propertyOf?_enclosedIn haround rest hrest, propertiesIn]

end

end

section

variable {head : ClassHead} {members : List Declaration}

/-- What a class lies in is not the class itself. -/
theorem lacks_of_mem_inside
    {d : Declaration} {ds : List Declaration} (hnested : d.nested = d :: nestedIn ds)
    (hd : (d.nested.flatMap ownNodes).Nodup) (hmem : .classDecl head members ∈ nestedIn ds) :
    ((nestedIn ds).flatMap ownNodes).Nodup ∧ d.Lacks head.id := by
  rw [hnested, List.flatMap_cons] at hd
  have hdisjoint : ((nestedIn ds).flatMap ownNodes).Disjoint ([d].flatMap ownNodes) := by
    rw [List.flatMap_singleton]
    exact fun _ hnode hself => List.disjoint_of_nodup_append hd hself hnode
  exact ⟨(List.nodup_append.mp hd).2.1, lacks_of_disjoint hdisjoint hmem d List.mem_cons_self⟩

mutual

/-- Wherever a class is declared, what stands in it are the properties of its members. -/
theorem filterMap_propertyOf?_enclosed_of_mem
    {around : Option Declaration} (haround : ∀ e ∈ around, e.Lacks head.id) (d : Declaration)
    (hd : (d.nested.flatMap ownNodes).Nodup) (hmem : .classDecl head members ∈ d.nested) :
    (d.enclosed around).filterMap (propertyOf? head.id) = propertiesIn members := by
  match d with
  | classDecl head' members' =>
      rcases List.mem_cons.mp hmem with heq | hmem
      · obtain ⟨rfl, rfl⟩ := classDecl.inj heq
        have hdisjoint : ([classDecl head members].flatMap ownNodes).Disjoint
            ((nestedIn members).flatMap ownNodes) := by
          rw [List.flatMap_singleton]
          exact List.disjoint_of_nodup_append hd
        have hself : ((some (classDecl head members)).bind classHead?).map ClassHead.id =
            some head.id := rfl
        exact filterMap_propertyOf?_enclosedIn hself members
          (lacks_of_disjoint hdisjoint List.mem_cons_self)
      · obtain ⟨hmembers, hself⟩ := lacks_of_mem_inside rfl hd hmem
        have hrest := filterMap_propertyOf?_enclosedIn_of_mem (lacks_of_mem_some hself) members'
          hmembers hmem
        exact hrest
  | namespaceDecl head' members' =>
      obtain hmem := (List.mem_cons.mp hmem).resolve_left nofun
      obtain ⟨hmembers, hself⟩ := lacks_of_mem_inside rfl hd hmem
      have hrest := filterMap_propertyOf?_enclosedIn_of_mem (lacks_of_mem_some hself) members'
        hmembers hmem
      exact hrest
  | classObject id members' =>
      obtain hmem := (List.mem_cons.mp hmem).resolve_left nofun
      have hrest := filterMap_propertyOf?_enclosedIn_of_mem haround members'
        (lacks_of_mem_inside rfl hd hmem).1 hmem
      exact hrest
  | typedefDecl .. | extensionDecl .. | functionDecl _ | propertyDecl _ | constructorDecl _ =>
      cases List.mem_singleton.mp hmem

theorem filterMap_propertyOf?_enclosedIn_of_mem
    {around : Option Declaration} (haround : ∀ e ∈ around, e.Lacks head.id) (ds : List Declaration)
    (hds : ((nestedIn ds).flatMap ownNodes).Nodup) (hmem : .classDecl head members ∈ nestedIn ds) :
    (enclosedIn around ds).filterMap (propertyOf? head.id) = propertiesIn members := by
  match ds with
  | [] => cases hmem
  | d :: rest =>
      rw [nestedIn, List.flatMap_append] at hds
      obtain ⟨hd, hrest, -⟩ := List.nodup_append.mp hds
      have hdisjoint := List.disjoint_of_nodup_append hds
      rw [enclosedIn, List.filterMap_append]
      rcases List.mem_append.mp hmem with hmem | hmem
      · rw [filterMap_propertyOf?_enclosed_of_mem haround d hd hmem,
          filterMap_propertyOf?_enclosedIn_eq_nil haround (lacks_of_disjoint hdisjoint hmem),
          List.append_nil]
      · rw [filterMap_propertyOf?_enclosedIn_of_mem haround rest hrest hmem,
          filterMap_propertyOf?_enclosed_eq_nil haround
            (lacks_of_disjoint (fun _ hnode hother => hdisjoint hother hnode) hmem),
          List.nil_append]

end

end

end Declaration

/-- The properties of a class: first those of its parameters, then those of its members. -/
def ClassHead.sitesWith (head : ClassHead) (members : List Declaration) : List PropertySite :=
  head.sites ++ (Declaration.propertiesIn members).map PropertyDecl.site

namespace Declaration

/-- What declares the properties of a class are its own parameters and members, wherever the class
stands. -/
theorem sitesAmong_eq
    {ds : List Declaration} (hds : (nodesOf ds).Nodup) {head : ClassHead}
    {members : List Declaration} (hmem : .classDecl head members ∈ nestedIn ds) :
    sitesAmong (enclosedIn none ds) head.id = head.sitesWith members := by
  have hown : ((nestedIn ds).flatMap ownNodes).Nodup := by
    rw [flatMap_ownNodes_nestedIn]
    exact hds
  have hdistinct : ((enclosedIn none ds).flatMap fun q => q.2.ownNodes).Nodup := by
    rw [flatMap_ownNodes_enclosedIn]
    exact hds
  have hkeys :
      (((enclosedIn none ds).filterMap fun q => q.2.classHead?).map ClassHead.id).Nodup := by
    refine nodup_keys_filterMap hdistinct fun {q head} hclass => ?_
    obtain ⟨members, hself⟩ := exists_members_of_classHead? hclass
    rw [hself]
    rfl
  have hhead : head ∈ (enclosedIn none ds).filterMap fun q => q.2.classHead? := by
    rw [← map_snd_enclosedIn none ds] at hmem
    obtain ⟨q, hq, hself⟩ := List.mem_map.mp hmem
    exact List.mem_filterMap.mpr ⟨q, hq, by rw [hself]; rfl⟩
  unfold sitesAmong ClassHead.sitesWith
  rw [filter_key_eq hkeys hhead, List.flatMap_singleton,
    filterMap_propertyOf?_enclosedIn_of_mem (fun _ h => absurd h (Option.not_mem_none _)) ds hown
      hmem]

end Declaration

end DeclAnalysis
