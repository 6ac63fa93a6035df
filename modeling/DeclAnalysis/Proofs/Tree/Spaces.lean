import DeclAnalysis.Resolve.Tables
import DeclAnalysis.Text.Parts
import DeclAnalysis.Proofs.Tree.Contents

/-!
# Spaces

Declarations stand in spaces: the bodies of classes, namespaces and the file itself. Which
class a name denotes depends on the space in which the name stands and on what is declared
where, but not on the order of declarations, apart from classes of one name in one space.
-/

namespace DeclAnalysis

/-- What is around a declaration: the body of a class, or a namespace of some name. -/
inductive Enclosure where
  | classBody (node : Nat)
  | namespaceBody (name : String)
deriving DecidableEq, Repr

/-- A space in which declarations stand, given by all that is around them from the inside out.
The empty list is the file. The parts of a namespace form one space. -/
abbrev Space := List Enclosure

/-! ## What stands where -/

/-- The name under which a class is known. -/
def ClassHead.knownName (head : ClassHead) : String := head.name.getD noNameProvided

/-- The name under which a namespace is known. -/
def NamespaceHead.knownName (options : AnalysisOptions) (head : NamespaceHead) : String :=
  head.name.getD options.defaultNamespace

namespace DelegationSpecifier

/-- The type references in the expressions of an entry. -/
def expressionTypeRefs (specifier : DelegationSpecifier) : List TypeRef :=
  Expr.typeRefsOf specifier.expressions

theorem typeRefs_eq (specifier : DelegationSpecifier) :
    specifier.typeRefs = specifier.typeRef?.toList ++ specifier.expressionTypeRefs := by
  cases specifier with
  | byExpression id typeRef delegate =>
      cases delegate with
      | none => rfl
      | some delegate => exact congrArg (typeRef :: ·) (List.append_nil _).symm
  | _ => rfl

end DelegationSpecifier

namespace ClassHead

/-- The types that a class names as its supertypes. -/
def supertypeRefs (head : ClassHead) : List TypeRef :=
  head.delegationSpecifiers.filterMap DelegationSpecifier.typeRef?

/-- The type references in front of the members of a class that belong to its body: those of
the primary parameters and of the expressions in the delegation list. -/
def innerTypeRefs (head : ClassHead) : List TypeRef :=
  parameterTypeRefs (head.primaryConstructor.getD [])
    ++ head.delegationSpecifiers.flatMap DelegationSpecifier.expressionTypeRefs

theorem typeRefs_delegationSpecifiers_subset (head : ClassHead) :
    head.delegationSpecifiers.flatMap DelegationSpecifier.typeRefs ⊆
      head.supertypeRefs ++ head.innerTypeRefs := by
  intro ref href
  obtain ⟨specifier, hspecifier, href⟩ := List.mem_flatMap.mp href
  rw [specifier.typeRefs_eq] at href
  rcases List.mem_append.mp href with href | href
  · refine List.mem_append_left _ (List.mem_filterMap.mpr ⟨specifier, hspecifier, ?_⟩)
    exact Option.mem_toList.mp href
  · refine List.mem_append_right _ (List.mem_append_right _ ?_)
    exact List.mem_flatMap.mpr ⟨specifier, hspecifier, href⟩

end ClassHead

namespace Declaration

section

variable (options : AnalysisOptions)

mutual

/-- The declaration and all declarations inside it, every one before those inside it and with
the space that it stands in. A class object is no space of its own. -/
def placed (space : Space) : Declaration → List (Space × Declaration)
  | d@(namespaceDecl head members) =>
    (space, d) :: placedIn (.namespaceBody (head.knownName options) :: space) members
  | d@(classDecl head members) => (space, d) :: placedIn (.classBody head.id :: space) members
  | d@(classObject _ members) => (space, d) :: placedIn space members
  | d@(typedefDecl ..) | d@(extensionDecl ..) | d@(functionDecl ..) | d@(propertyDecl ..)
  | d@(constructorDecl ..) => [(space, d)]

/-- The declarations in a list, with all inside them. -/
def placedIn (space : Space) : List Declaration → List (Space × Declaration)
  | [] => []
  | d :: rest => placed space d ++ placedIn space rest

end

mutual

theorem map_snd_placed (space : Space) (d : Declaration) :
    (placed options space d).map Prod.snd = d.nested := by
  match d with
  | namespaceDecl head members =>
      rw [placed, List.map_cons, map_snd_placedIn, nested]
  | classDecl head members =>
      rw [placed, List.map_cons, map_snd_placedIn, nested]
  | classObject id members =>
      rw [placed, List.map_cons, map_snd_placedIn, nested]
  | typedefDecl .. | extensionDecl .. | functionDecl _ | propertyDecl _ | constructorDecl _ => rfl

theorem map_snd_placedIn (space : Space) (ds : List Declaration) :
    (placedIn options space ds).map Prod.snd = nestedIn ds := by
  match ds with
  | [] => rfl
  | d :: rest =>
      rw [placedIn, List.map_append, map_snd_placed, map_snd_placedIn, nestedIn]

end

end

/-- The type references of a declaration without its members, each with the space in which it
stands. The supertypes of a class are named outside of its body. -/
def typeRefsIn (space : Space) : Declaration → List (Space × TypeRef)
  | classDecl head _ =>
    head.supertypeRefs.map (space, ·) ++ head.innerTypeRefs.map (.classBody head.id :: space, ·)
  | functionDecl decl => decl.typeRefs.map (space, ·)
  | propertyDecl decl => decl.typeRefs.map (space, ·)
  | constructorDecl decl => decl.typeRefs.map (space, ·)
  | namespaceDecl .. | classObject .. | typedefDecl .. | extensionDecl .. => []

/-- The nodes of a declaration without those of its members and without that of a class. -/
def innerNodes : Declaration → List Nat
  | classDecl head _ => head.nodes.tail
  | d => d.ownNodes

theorem innerNodes_subset (d : Declaration) : d.innerNodes ⊆ d.ownNodes := by
  cases d with
  | classDecl head members => exact List.subset_cons_self ..
  | _ => exact List.Subset.refl _

section

variable {α : Type} {f : α → Declaration} {xs : List α}
  (h : (xs.flatMap fun x => (f x).ownNodes).Nodup)

include h

/-- A node belongs to one declaration only. -/
theorem eq_of_mem_ownNodes
    {x y : α} (hx : x ∈ xs) (hy : y ∈ xs) {node : Nat} (hnode : node ∈ (f x).ownNodes)
    (hnode' : node ∈ (f y).ownNodes) : x = y :=
  eq_of_nodup_flatMap h hx hy hnode hnode'

/-- The node of a class is not among the inner nodes of any declaration. -/
theorem id_not_mem_innerNodes
    {x y : α} (hx : x ∈ xs) (hy : y ∈ xs) {head : ClassHead} {members : List Declaration}
    (hclass : f x = .classDecl head members) : head.id ∉ (f y).innerNodes := by
  intro hmem
  have hid : head.id ∈ (f x).ownNodes := by
    rw [hclass]
    exact List.mem_cons_self
  obtain rfl := eq_of_mem_ownNodes h hx hy hid ((f y).innerNodes_subset hmem)
  have hnodup : (f x).ownNodes.Nodup := (List.nodup_flatMap.mp h).1 _ hx
  rw [hclass] at hnodup hmem
  exact (List.nodup_cons.mp hnodup).1 hmem

end

/-- The class of a name, if the declaration is one. -/
def classNamed? (name : String) : Declaration → Option ClassHead
  | classDecl head _ => if head.knownName = name then some head else none
  | _ => none

/-- The declaration is a part of a namespace of a name. -/
def isNamespaceNamed (options : AnalysisOptions) (name : String) : Declaration → Bool
  | namespaceDecl head _ => head.knownName options = name
  | _ => false

end Declaration

/-! ## What names denote -/

/-- Declarations with the spaces in which they stand. -/
structure Layout where
  options : AnalysisOptions
  placed : List (Space × Declaration)

namespace Layout

/-- The layout of the declarations of a file. -/
def ofFile (options : AnalysisOptions) (ds : List Declaration) : Layout :=
  ⟨options, Declaration.placedIn options [] ds⟩

variable (l : Layout)

/-- The class of a name that is declared directly in a space, the last one if there are
several. -/
def classIn? (space : Space) (name : String) : Option ClassHead :=
  l.placed.reverse.findSome? fun p => if p.1 = space then p.2.classNamed? name else none

/-- A namespace of the name is declared directly in the space. -/
def declaresNamespace (space : Space) (name : String) : Bool :=
  l.placed.any fun p => p.1 = space && p.2.isNamespaceNamed l.options name

/-- The class at the end of a path of namespaces, each declared directly in the one before. -/
def classAt? (space : Space) : List String → Option ClassHead
  | [] => none
  | [simple] => l.classIn? space simple
  | segment :: rest =>
    if l.declaresNamespace space segment then classAt? (.namespaceBody segment :: space) rest
    else none

/-- The class that a name denotes in a space. A simple name denotes a class of the nearest space
around in which there is one of that name; a dotted name begins with a namespace of the nearest
space around in which there is one of that name. -/
def denoted? (space : Space) (name : String) : Option ClassHead :=
  match Text.parts '.' name with
  | first :: second :: rest => do
    let around ← space.tails.find? fun around => l.declaresNamespace around first
    l.classAt? (.namespaceBody first :: around) (second :: rest)
  | _ => space.tails.findSome? fun around => l.classIn? around name

/-- The type that a name denotes in a space, where `declared` gives the descriptors of classes. A
name that denotes neither a class nor a built-in type denotes an error type. -/
inductive Denotes (declared : Nat → Option Nat) (space : Space) (name : String) : Ty → Prop
  | class {head : ClassHead} {descriptor : Nat} (hclass : l.denoted? space name = some head)
      (hdescriptor : declared head.id = some descriptor) :
      Denotes declared space name (.classType descriptor head.knownName)
  | builtin {type : Ty} (hclass : l.denoted? space name = none)
      (hbuiltin : Ty.builtin? name = some type) : Denotes declared space name type
  | unresolved (hclass : l.denoted? space name = none) (hbuiltin : Ty.builtin? name = none) :
      Denotes declared space name (.error ("Unresolved type: " ++ name))

/-- The type references of all declarations, each with the space in which it stands. -/
def typeRefs : List (Space × TypeRef) := l.placed.flatMap fun p => p.2.typeRefsIn p.1

/-- The nodes of all declarations apart from those of classes. -/
def innerNodes : List Nat := l.placed.flatMap fun p => p.2.innerNodes

/-- The nodes of the declarations differ. -/
def Distinct : Prop := (l.placed.flatMap fun p => p.2.ownNodes).Nodup

variable {l}

/-- A layout with further declarations after the others. -/
def extend (l : Layout) (placed : List (Space × Declaration)) : Layout :=
  { l with placed := l.placed ++ placed }

@[simp] theorem extend_nil (l : Layout) : l.extend [] = l := by
  simp [extend]

@[simp] theorem extend_append (l : Layout) (placed placed' : List (Space × Declaration)) :
    l.extend (placed ++ placed') = (l.extend placed).extend placed' := by
  simp [extend]

/-- A class that is added hides the other ones of its name. -/
theorem classIn?_extend_singleton
    (l : Layout) (space space' : Space) (d : Declaration) (name : String) :
    (l.extend [(space, d)]).classIn? space' name =
      (if space = space' then d.classNamed? name else none).or (l.classIn? space' name) := by
  simp only [classIn?, extend, List.reverse_append, List.reverse_singleton, List.singleton_append,
    List.findSome?_cons]
  split
  · rename_i head hhead
    rw [hhead, Option.some_or]
  · rename_i hnone
    rw [hnone, Option.none_or]

theorem declaresNamespace_extend_singleton
    (l : Layout) (space space' : Space) (d : Declaration) (name : String) :
    (l.extend [(space, d)]).declaresNamespace space' name =
      (l.declaresNamespace space' name ||
        (space = space' && d.isNamespaceNamed l.options name)) := by
  simp [declaresNamespace, extend, List.any_append]

/-- A class that is found stands in the space. -/
theorem exists_placed_of_classIn?
    {space : Space} {name : String} {head : ClassHead} (h : l.classIn? space name = some head) :
    ∃ members, (space, .classDecl head members) ∈ l.placed ∧ head.knownName = name := by
  obtain ⟨⟨space', d⟩, hplaced, hfound⟩ := List.exists_of_findSome?_eq_some h
  rw [List.mem_reverse] at hplaced
  dsimp only at hfound
  split at hfound
  · rename_i hspace
    subst hspace
    cases d with
    | classDecl head' members =>
        dsimp only [Declaration.classNamed?] at hfound
        split at hfound
        · rename_i hname
          obtain rfl := Option.some.inj hfound
          exact ⟨members, hplaced, hname⟩
        · cases hfound
    | _ => cases hfound
  · cases hfound

theorem exists_placed_of_declaresNamespace
    {space : Space} {name : String} (h : l.declaresNamespace space name = true) :
    ∃ head members, (space, .namespaceDecl head members) ∈ l.placed ∧
      head.knownName l.options = name := by
  obtain ⟨⟨space', d⟩, hplaced, hfound⟩ := List.any_eq_true.mp h
  rw [Bool.and_eq_true, decide_eq_true_eq] at hfound
  obtain ⟨rfl, hname⟩ := hfound
  cases d with
  | namespaceDecl head members => exact ⟨head, members, hplaced, of_decide_eq_true hname⟩
  | _ => cases hname

theorem declaresNamespace_of_mem_placed
    {space : Space} {head : NamespaceHead} {members : List Declaration}
    (hplaced : (space, .namespaceDecl head members) ∈ l.placed) :
    l.declaresNamespace space (head.knownName l.options) = true := by
  refine List.any_eq_true.mpr ⟨_, hplaced, ?_⟩
  simp [Declaration.isNamespaceNamed]

theorem declaresNamespace_mono
    {l l' : Layout} (hoptions : l.options = l'.options) (hplaced : l.placed ⊆ l'.placed)
    {space : Space} {name : String} (h : l.declaresNamespace space name = true) :
    l'.declaresNamespace space name = true := by
  obtain ⟨p, hp, hfound⟩ := List.any_eq_true.mp h
  rw [hoptions] at hfound
  exact List.any_eq_true.mpr ⟨p, hplaced hp, hfound⟩

/-- A namespace that is declared in a space with import directives shares its name with none
that is declared elsewhere. -/
def ImportsApart (l : Layout) : Prop :=
  ∀ {space : Space} {head : NamespaceHead} {members : List Declaration},
    (space, .namespaceDecl head members) ∈ l.placed → head.imports ≠ [] →
      ∀ {name : String} {space' : Space},
        l.declaresNamespace (.namespaceBody (head.knownName l.options) :: space) name = true →
          l.declaresNamespace space' name = true →
            space' = .namespaceBody (head.knownName l.options) :: space

theorem mem_typeRefs
    {space space' : Space} {d : Declaration} {ref : TypeRef} (hplaced : (space, d) ∈ l.placed)
    (href : (space', ref) ∈ d.typeRefsIn space) : (space', ref) ∈ l.typeRefs :=
  List.mem_flatMap.mpr ⟨(space, d), hplaced, href⟩

theorem innerNodes_subset
    {space : Space} {d : Declaration} (hplaced : (space, d) ∈ l.placed) :
    d.innerNodes ⊆ l.innerNodes :=
  fun _ hnode => List.mem_flatMap.mpr ⟨(space, d), hplaced, hnode⟩

theorem distinct_ofFile
    (options : AnalysisOptions) {ds : List Declaration} (h : (Declaration.nodesOf ds).Nodup) :
    (ofFile options ds).Distinct := by
  have hflatMap : (Declaration.placedIn options [] ds).flatMap (fun p => p.2.ownNodes) =
      Declaration.nodesOf ds := by
    rw [← Declaration.flatMap_ownNodes_nestedIn, ← Declaration.map_snd_placedIn options [],
      List.flatMap_map]
  unfold Distinct ofFile
  rw [hflatMap]
  exact h

/-- A node belongs to one declaration only. -/
theorem Distinct.eq_of_mem
    (h : l.Distinct) {p q : Space × Declaration} (hp : p ∈ l.placed) (hq : q ∈ l.placed)
    {node : Nat} (hnode : node ∈ p.2.ownNodes) (hnode' : node ∈ q.2.ownNodes) : p = q :=
  Declaration.eq_of_mem_ownNodes (f := Prod.snd) h hp hq hnode hnode'

theorem Distinct.eq_of_id_eq
    (h : l.Distinct) {p q : Space × Declaration} (hp : p ∈ l.placed) (hq : q ∈ l.placed)
    (hid : p.2.id = q.2.id) : p = q :=
  h.eq_of_mem hp hq p.2.id_mem_ownNodes (hid ▸ q.2.id_mem_ownNodes)

/-- The nodes of classes are not among the inner nodes of any declaration. -/
theorem Distinct.id_not_mem_innerNodes
    (h : l.Distinct) {space : Space} {head : ClassHead} {members : List Declaration}
    (hclass : (space, .classDecl head members) ∈ l.placed) : head.id ∉ l.innerNodes := by
  intro hmem
  obtain ⟨p, hp, hnode⟩ := List.mem_flatMap.mp hmem
  exact Declaration.id_not_mem_innerNodes (f := Prod.snd) h hclass hp rfl hnode

end Layout

end DeclAnalysis
