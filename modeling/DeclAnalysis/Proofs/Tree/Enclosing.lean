import Mathlib.Data.List.Forall2
import DeclAnalysis.Proofs.Tree.Spaces

/-!
# What encloses a declaration

A declaration stands in the body of the nearest class or namespace around it, or else in the
file. Class objects are transparent.
-/

namespace DeclAnalysis

namespace Declaration

/-- What stands around the members of a class or namespace. -/
def enclosure? (options : AnalysisOptions) : Declaration → Option Enclosure
  | namespaceDecl head _ => some (.namespaceBody (head.knownName options))
  | classDecl head _ => some (.classBody head.id)
  | _ => none

mutual

/-- The declaration and all declarations inside it, every one before those inside it and with
the nearest class or namespace around it. -/
def enclosed (around : Option Declaration) : Declaration → List (Option Declaration × Declaration)
  | d@(namespaceDecl _ members) => (around, d) :: enclosedIn (some d) members
  | d@(classDecl _ members) => (around, d) :: enclosedIn (some d) members
  | d@(classObject _ members) => (around, d) :: enclosedIn around members
  | d@(typedefDecl ..) | d@(extensionDecl ..) | d@(functionDecl ..) | d@(propertyDecl ..)
  | d@(constructorDecl ..) => [(around, d)]

/-- The declarations in a list, with all inside them. -/
def enclosedIn (around : Option Declaration) :
    List Declaration → List (Option Declaration × Declaration)
  | [] => []
  | d :: rest => enclosed around d ++ enclosedIn around rest

end

mutual

theorem map_snd_enclosed (around : Option Declaration) (d : Declaration) :
    (enclosed around d).map Prod.snd = d.nested := by
  match d with
  | namespaceDecl head members =>
      rw [enclosed, List.map_cons, map_snd_enclosedIn, nested]
  | classDecl head members =>
      rw [enclosed, List.map_cons, map_snd_enclosedIn, nested]
  | classObject id members =>
      rw [enclosed, List.map_cons, map_snd_enclosedIn, nested]
  | typedefDecl .. | extensionDecl .. | functionDecl _ | propertyDecl _ | constructorDecl _ => rfl

theorem map_snd_enclosedIn (around : Option Declaration) (ds : List Declaration) :
    (enclosedIn around ds).map Prod.snd = nestedIn ds := by
  match ds with
  | [] => rfl
  | d :: rest =>
      rw [enclosedIn, List.map_append, map_snd_enclosed, map_snd_enclosedIn, nestedIn]

end

mutual

theorem around_of_mem_enclosed
    {around : Option Declaration} (d : Declaration) {q : Option Declaration × Declaration}
    (hq : q ∈ enclosed around d) : q.1 = around ∨ ∃ e ∈ d.nested, q.1 = some e := by
  -- The members of a declaration are around themselves or lie in the declaration.
  have hmembers : ∀ {head : Declaration} {members : List Declaration},
      head.nested = head :: nestedIn members →
        (q.1 = some head ∨ ∃ e ∈ nestedIn members, q.1 = some e) →
          q.1 = around ∨ ∃ e ∈ head.nested, q.1 = some e := by
    intro head members hnested hq
    rw [hnested]
    rcases hq with hq | ⟨e, he, hq⟩
    · exact .inr ⟨head, List.mem_cons_self, hq⟩
    · exact .inr ⟨e, List.mem_cons_of_mem _ he, hq⟩
  match d with
  | namespaceDecl head members =>
      rcases List.mem_cons.mp hq with rfl | hq
      · exact .inl rfl
      · exact hmembers rfl (around_of_mem_enclosedIn members hq)
  | classDecl head members =>
      rcases List.mem_cons.mp hq with rfl | hq
      · exact .inl rfl
      · exact hmembers rfl (around_of_mem_enclosedIn members hq)
  | classObject id members =>
      rcases List.mem_cons.mp hq with rfl | hq
      · exact .inl rfl
      · refine (around_of_mem_enclosedIn members hq).imp_right ?_
        rintro ⟨e, he, hq⟩
        exact ⟨e, List.mem_cons_of_mem _ he, hq⟩
  | typedefDecl .. | extensionDecl .. | functionDecl _ | propertyDecl _ | constructorDecl _ =>
      obtain rfl := List.mem_singleton.mp hq
      exact .inl rfl

/-- What is around a declaration in a list is what is around the list, or lies in it. -/
theorem around_of_mem_enclosedIn
    {around : Option Declaration} (ds : List Declaration) {q : Option Declaration × Declaration}
    (hq : q ∈ enclosedIn around ds) : q.1 = around ∨ ∃ e ∈ nestedIn ds, q.1 = some e := by
  match ds with
  | [] => cases hq
  | d :: rest =>
      rcases List.mem_append.mp hq with hq | hq
      · refine (around_of_mem_enclosed d hq).imp_right ?_
        rintro ⟨e, he, hq⟩
        exact ⟨e, List.mem_append_left _ he, hq⟩
      · refine (around_of_mem_enclosedIn rest hq).imp_right ?_
        rintro ⟨e, he, hq⟩
        exact ⟨e, List.mem_append_right _ he, hq⟩

end

/-- What is around a declaration of a file is a declaration of that file. -/
theorem mem_map_snd_of_mem_around
    {ds : List Declaration} {q : Option Declaration × Declaration}
    (hq : q ∈ enclosedIn none ds) {e : Declaration} (he : e ∈ q.1) :
    e ∈ (enclosedIn none ds).map Prod.snd := by
  rw [map_snd_enclosedIn]
  rcases around_of_mem_enclosedIn ds hq with hnone | ⟨e', he', hsome⟩
  · rw [hnone] at he
    cases he
  · obtain rfl := Option.some.inj (hsome.symm.trans he)
    exact he'

theorem flatMap_ownNodes_enclosedIn (around : Option Declaration) (ds : List Declaration) :
    ((enclosedIn around ds).flatMap fun q => q.2.ownNodes) = nodesOf ds := by
  rw [← flatMap_ownNodes_nestedIn, ← map_snd_enclosedIn around, List.flatMap_map]

theorem mem_nested_of_mem_enclosed
    {around : Option Declaration} {d : Declaration} {q : Option Declaration × Declaration}
    (hq : q ∈ enclosed around d) : q.2 ∈ d.nested := by
  rw [← map_snd_enclosed around]
  exact List.mem_map_of_mem hq

end Declaration

/-! ## What is to be registered -/

/-- The nodes of a function or constructor. -/
def FunctionLike.nodes : FunctionLike → List Nat
  | .function decl => decl.nodes
  | .constructor decl => decl.nodes

namespace Declaration

/-- The function, or the constructor that stands in a class. -/
def functionLike? (q : Option Declaration × Declaration) : Option FunctionLike :=
  match q.2 with
  | functionDecl decl => some (.function decl)
  | constructorDecl decl => (q.1.bind classHead?).map fun _ => .constructor decl
  | _ => none

/-- The constructor that does not stand in a class. -/
def misplacedConstructor? (q : Option Declaration × Declaration) : Option ConstructorDecl :=
  match q.2 with
  | constructorDecl decl => if (q.1.bind classHead?).isNone then some decl else none
  | _ => none

/-- The constructor that stands in the class of a node. -/
def constructorOf? (node : Nat) (q : Option Declaration × Declaration) : Option ConstructorDecl :=
  match q.2 with
  | constructorDecl decl =>
    if (q.1.bind classHead?).map ClassHead.id = some node then some decl else none
  | _ => none

/-- What a property declaration says. -/
def property? : Declaration → Option PropertyDecl
  | propertyDecl decl => some decl
  | _ => none

/-- What a function declaration of a name says. -/
def functionNamed? (name : String) : Declaration → Option FunctionDecl
  | functionDecl decl => if decl.name = name then some decl else none
  | _ => none

/-- A declaration that is not registered itself, though its members are. -/
inductive Inert : Declaration → Prop
  | namespaceDecl (head : NamespaceHead) (members : List Declaration) :
      Inert (namespaceDecl head members)
  | classObject (id : Nat) (members : List Declaration) : Inert (classObject id members)
  | typedefDecl (id : Nat) (name : Option String) : Inert (typedefDecl id name)
  | extensionDecl (id : Nat) (name : Option String) : Inert (extensionDecl id name)

theorem exists_members_of_classHead?
    {d : Declaration} {head : ClassHead} (h : d.classHead? = some head) :
    ∃ members, d = .classDecl head members := by
  cases d with
  | classDecl head' members =>
      obtain rfl := Option.some.inj h
      exact ⟨members, rfl⟩
  | _ => cases h

theorem exists_classDecl_of_classHead?
    {around : Option Declaration} {head : ClassHead} (h : around.bind classHead? = some head) :
    ∃ members, around = some (.classDecl head members) := by
  obtain ⟨d, rfl, hd⟩ := Option.bind_eq_some_iff.mp h
  obtain ⟨members, rfl⟩ := exists_members_of_classHead? hd
  exact ⟨members, rfl⟩

/-- What is entered as a function is a function, or a constructor that stands in a class. -/
theorem functionLike?_cases
    {q : Option Declaration × Declaration} {f : FunctionLike} (h : functionLike? q = some f) :
    (∃ decl, q.2 = .functionDecl decl ∧ f = .function decl) ∨
      ∃ head decl, q.1.bind classHead? = some head ∧ q.2 = .constructorDecl decl ∧
        f = .constructor decl := by
  unfold functionLike? at h
  split at h
  · rename_i decl hq
    exact .inl ⟨decl, hq, (Option.some.inj h).symm⟩
  · rename_i decl hq
    obtain ⟨head, hclass, rfl⟩ := Option.map_eq_some_iff.mp h
    exact .inr ⟨head, decl, hclass, hq, rfl⟩
  · cases h

theorem id_of_functionLike?
    {q : Option Declaration × Declaration} {f : FunctionLike} (h : functionLike? q = some f) :
    f.id = q.2.id := by
  rcases functionLike?_cases h with ⟨decl, hq, rfl⟩ | ⟨-, decl, -, hq, rfl⟩ <;> rw [hq] <;> rfl

theorem nodes_of_functionLike?
    {q : Option Declaration × Declaration} {f : FunctionLike} (h : functionLike? q = some f) :
    f.nodes = q.2.ownNodes := by
  rcases functionLike?_cases h with ⟨decl, hq, rfl⟩ | ⟨-, decl, -, hq, rfl⟩ <;> rw [hq] <;> rfl

theorem eq_of_functionLike?
    {q : Option Declaration × Declaration} {decl : FunctionDecl}
    (h : functionLike? q = some (.function decl)) : q.2 = .functionDecl decl := by
  rcases functionLike?_cases h with ⟨_, hq, ⟨⟩⟩ | ⟨_, _, _, _, ⟨⟩⟩
  exact hq

theorem eq_of_functionLike?_constructor
    {q : Option Declaration × Declaration} {decl : ConstructorDecl}
    (h : functionLike? q = some (.constructor decl)) :
    ∃ head, q.1.bind classHead? = some head ∧ q.2 = .constructorDecl decl := by
  rcases functionLike?_cases h with ⟨_, _, ⟨⟩⟩ | ⟨head, _, hclass, hq, ⟨⟩⟩
  exact ⟨head, hclass, hq⟩

/-- A constructor that stands in a class is a member of that class. -/
theorem exists_classDecl_of_constructorOf?
    {node : Nat} {q : Option Declaration × Declaration} {c : ConstructorDecl}
    (h : constructorOf? node q = some c) : q.2 = .constructorDecl c ∧
      ∃ head members, q.1 = some (.classDecl head members) ∧ head.id = node := by
  unfold constructorOf? at h
  split at h
  · rename_i hq
    split at h
    · rename_i hnode
      obtain rfl := Option.some.inj h
      obtain ⟨head, hhead, hid⟩ := Option.map_eq_some_iff.mp hnode
      obtain ⟨members, haround⟩ := exists_classDecl_of_classHead? hhead
      exact ⟨hq, head, members, haround, hid⟩
    · cases h
  · cases h

/-- What is no constructor does not stand in a class as a constructor. -/
theorem constructorOf?_eq_none
    {q : Option Declaration × Declaration} (hq : ∀ c, q.2 ≠ .constructorDecl c) (node : Nat) :
    constructorOf? node q = none :=
  Option.eq_none_iff_forall_ne_some.mpr fun c hc =>
    hq c (exists_classDecl_of_constructorOf? hc).1

theorem eq_of_property? {d : Declaration} {p : PropertyDecl} (h : d.property? = some p) :
    d = .propertyDecl p := by
  unfold property? at h
  split at h
  · obtain rfl := Option.some.inj h
    rfl
  · cases h

theorem id_of_property? {d : Declaration} {p : PropertyDecl} (h : d.property? = some p) :
    p.id = d.id := by
  rw [eq_of_property? h]
  rfl

theorem eq_of_functionNamed?
    {name : String} {d : Declaration} {f : FunctionDecl} (h : d.functionNamed? name = some f) :
    d = .functionDecl f := by
  unfold functionNamed? at h
  split at h
  · split at h
    · obtain rfl := Option.some.inj h
      rfl
    · cases h
  · cases h

end Declaration

/-! ## Spaces -/

namespace Layout

/-- The space that a declaration stands in is that of the members of what is around it. -/
inductive Surrounds (l : Layout) : Option Declaration → Space → Prop
  | file : Surrounds l none []
  | inside {d : Declaration} {enclosure : Enclosure} {space : Space}
      (hplaced : (space, d) ∈ l.placed) (henclosure : d.enclosure? l.options = some enclosure) :
      Surrounds l (some d) (enclosure :: space)

/-- The node of a class around a space is not among the inner nodes of any declaration. -/
theorem Surrounds.id_not_mem_innerNodes
    {l : Layout} {around : Option Declaration} {space : Space} (h : l.Surrounds around space)
    (hl : l.Distinct) : ∀ head ∈ around.bind Declaration.classHead?, head.id ∉ l.innerNodes := by
  intro head hhead
  obtain ⟨members, rfl⟩ := Declaration.exists_classDecl_of_classHead? hhead
  cases h with
  | inside hplaced => exact hl.id_not_mem_innerNodes hplaced

end Layout

/-- The declaration is the same on both sides, and the space is that of what is around it. -/
def Layout.Agrees (l : Layout) (q : Option Declaration × Declaration) (p : Space × Declaration) :
    Prop :=
  l.Surrounds q.1 p.1 ∧ q.2 = p.2

namespace Declaration

variable {l : Layout}

mutual

theorem forall₂_enclosed
    {around : Option Declaration} {space : Space} (hspace : l.Surrounds around space)
    (d : Declaration) (hplaced : d.placed l.options space ⊆ l.placed) :
    List.Forall₂ l.Agrees (d.enclosed around) (d.placed l.options space) := by
  match d with
  | namespaceDecl head members =>
      obtain ⟨hself, hmembers⟩ := List.cons_subset.mp hplaced
      exact .cons ⟨hspace, rfl⟩ (forall₂_enclosedIn (.inside hself rfl) members hmembers)
  | classDecl head members =>
      obtain ⟨hself, hmembers⟩ := List.cons_subset.mp hplaced
      exact .cons ⟨hspace, rfl⟩ (forall₂_enclosedIn (.inside hself rfl) members hmembers)
  | classObject id members =>
      obtain ⟨-, hmembers⟩ := List.cons_subset.mp hplaced
      exact .cons ⟨hspace, rfl⟩ (forall₂_enclosedIn hspace members hmembers)
  | typedefDecl .. | extensionDecl .. | functionDecl _ | propertyDecl _ | constructorDecl _ =>
      exact .cons ⟨hspace, rfl⟩ .nil

/-- The declarations in a list are the same with what is around them as with the spaces that
they stand in. -/
theorem forall₂_enclosedIn
    {around : Option Declaration} {space : Space} (hspace : l.Surrounds around space)
    (ds : List Declaration) (hplaced : placedIn l.options space ds ⊆ l.placed) :
    List.Forall₂ l.Agrees (enclosedIn around ds) (placedIn l.options space ds) := by
  match ds with
  | [] => exact .nil
  | d :: rest =>
      obtain ⟨hd, hrest⟩ := List.append_subset.mp hplaced
      exact List.rel_append (forall₂_enclosed hspace d hd) (forall₂_enclosedIn hspace rest hrest)

end

/-- Every declaration stands in the space of the members of what is around it. -/
theorem exists_placed_of_mem_enclosedIn
    {around : Option Declaration} {space : Space} (hspace : l.Surrounds around space)
    (ds : List Declaration) (hplaced : placedIn l.options space ds ⊆ l.placed)
    {q : Option Declaration × Declaration} (hq : q ∈ enclosedIn around ds) :
    ∃ space', l.Surrounds q.1 space' ∧ (space', q.2) ∈ l.placed := by
  have hagree := forall₂_enclosedIn hspace ds hplaced
  have hzip := List.forall₂_iff_zip.mp hagree
  obtain ⟨p, hp⟩ : ∃ p, (q, p) ∈ (enclosedIn around ds).zip (placedIn l.options space ds) := by
    rw [← List.map_fst_zip (Nat.le_of_eq hzip.1)] at hq
    obtain ⟨⟨q, p⟩, hp, rfl⟩ := List.mem_map.mp hq
    exact ⟨p, hp⟩
  obtain ⟨hsurrounds, hd⟩ := hzip.2 hp
  exact ⟨p.1, hsurrounds, hd ▸ hplaced (List.of_mem_zip hp).2⟩

end Declaration

/-! ## Entries -/

section

variable {β : Type} {key : β → Nat}

/-- Entries that come from different declarations have different nodes. -/
theorem nodup_keys_filterMap
    {P : List (Option Declaration × Declaration)}
    (hdistinct : (P.flatMap fun q => q.2.ownNodes).Nodup)
    {f : Option Declaration × Declaration → Option β}
    (hkey : ∀ {q y}, f q = some y → key y = q.2.id) : ((P.filterMap f).map key).Nodup := by
  refine List.pairwise_map.mpr (List.Pairwise.filterMap f ?_ (List.nodup_flatMap.mp hdistinct).2)
  intro q q' hdisjoint y hy y' hy' heq
  rw [hkey hy, hkey hy'] at heq
  exact hdisjoint q.2.id_mem_ownNodes (heq ▸ q'.2.id_mem_ownNodes)

theorem filter_key_eq {ys : List β} (h : (ys.map key).Nodup) {y : β} (hy : y ∈ ys) :
    ys.filter (fun y' => key y' = key y) = [y] := by
  induction ys with
  | nil => cases hy
  | cons first rest ih =>
      obtain ⟨hfirst, hrest⟩ := List.nodup_cons.mp h
      rcases List.mem_cons.mp hy with rfl | hy
      · have hnone : rest.filter (fun y' => key y' = key y) = [] := by
          refine List.filter_eq_nil_iff.mpr fun y' hy' heq => hfirst ?_
          rw [← of_decide_eq_true heq]
          exact List.mem_map_of_mem hy'
        rw [List.filter_cons, if_pos (decide_eq_true rfl), hnone]
      · rw [List.filter_cons_of_neg, ih hrest hy]
        intro heq
        exact hfirst (of_decide_eq_true heq ▸ List.mem_map_of_mem hy)

end

end DeclAnalysis
