import Mathlib.Logic.Function.Basic
import DeclAnalysis.Proofs.Resolve.Located
import DeclAnalysis.Proofs.Semantic.Widening
import DeclAnalysis.Proofs.Tree.Enclosing

/-!
# A chart of the spaces

Every space has one scope that keeps the names declared in it, however many parts of a
namespace make up the space and however many scopes stand for these parts. A chart says which
scope that is. While declarations are collected the chart grows along with the scopes: a class
or namespace that is declared adds a space, and every scope that is opened for a declaration
mirrors the space of its contents, and so on up to the file.
-/

namespace DeclAnalysis

/-!
## Where declarations are made known

The members of a class are made known in its member scope and those of a namespace declaration
in the scope of the declaration, which keeps what is declared in it among the members of the
namespace. Everything else is made known in the scope of the file.
-/

namespace PassState

/-- The scope in which the members of a class or namespace, or else the declarations of the
file, appear. -/
inductive Houses (s : PassState) : Option Declaration → Nat → Prop
  | file : Houses s none Pass.toplevel
  | classBody {head : ClassHead} {members : List Declaration} {descriptor : Nat}
      {data : ClassData} (hdescriptor : s.trace.declaration? head.id = some descriptor)
      (hdata : s.descriptors.classData? descriptor = some data) :
      Houses s (some (.classDecl head members)) data.memberScope
  | namespaceBody {head : NamespaceHead} {members : List Declaration} {inner : Nat}
      (hinner : s.tables.namespaceScopes[head.id]? = some inner) :
      Houses s (some (.namespaceDecl head members)) inner

/-- The descriptor to which the declaration of a class or namespace is bound: that of a
namespace is the one whose members receive what the declaration contains. -/
inductive Binds (s : PassState) : Declaration → Nat → Prop
  | classDecl {head : ClassHead} {members : List Declaration} {descriptor : Nat}
      (hdescriptor : s.trace.declaration? head.id = some descriptor) :
      Binds s (.classDecl head members) descriptor
  | namespaceDecl {head : NamespaceHead} {members : List Declaration} {inner descriptor : Nat}
      (hinner : s.tables.namespaceScopes[head.id]? = some inner)
      (hmembers : s.descriptors.namespaceMembers? descriptor = some (s.scopes.storage inner)) :
      Binds s (.namespaceDecl head members) descriptor

end PassState

/-! ## Charts -/

/-- Which scope keeps the names that are declared in a space, for the spaces known so far. -/
abbrev Chart := Space → Option Nat

/-- The second chart has all spaces of the first one. -/
def Chart.Le (home home' : Chart) : Prop :=
  ∀ {space kept}, home space = some kept → home' space = some kept

theorem Chart.le_update {home : Chart} {space : Space} (h : home space = none) (kept : Nat) :
    home.Le (Function.update home space (some kept)) := by
  intro space' kept' hkept
  have hne : space' ≠ space := by
    rintro rfl
    rw [h] at hkept
    cases hkept
  rw [Function.update_of_ne hne]
  exact hkept

/-! ## Scopes that mirror spaces -/

namespace ScopeTree

/-- The scope has its bindings where those of the space are kept, belongs to the same
declaration, and lies in a scope that mirrors the space around. -/
inductive Mirrors (t : ScopeTree) (home : Chart) : Space → Nat → Prop
  | file {scope : Nat} (hhome : home [] = some (t.storage scope))
      (hparent : (t.get scope).parent = some Model.root) (howner : (t.get scope).owner = none)
      (hkept : (t.get (t.storage scope)).owner = none) : Mirrors t home [] scope
  | inner {enclosure : Enclosure} {space : Space} {scope around descriptor : Nat}
      (hhome : home (enclosure :: space) = some (t.storage scope))
      (hparent : (t.get scope).parent = some around)
      (howner : (t.get scope).owner = some descriptor)
      (hkept : (t.get (t.storage scope)).owner = some descriptor)
      (outer : Mirrors t home space around) : Mirrors t home (enclosure :: space) scope

namespace Mirrors

variable {t t' : ScopeTree} {home home' : Chart} {space : Space} {scope : Nat}

theorem home_eq (h : t.Mirrors home space scope) : home space = some (t.storage scope) := by
  cases h with
  | file hhome => exact hhome
  | inner hhome => exact hhome

theorem lt_size (h : t.Mirrors home space scope) : scope < t.size := by
  cases h with
  | file _ hparent => exact t.lt_size_of_parent hparent
  | inner _ hparent => exact t.lt_size_of_parent hparent

/-- Adding scopes and spaces leaves alone what a scope mirrors. -/
theorem mono
    (h : t.Mirrors home space scope) (hwidens : t.Widens t') (ht : t.Ordered) (ht' : t'.Ordered)
    (hhome : home.Le home') : t'.Mirrors home' space scope := by
  induction h with
  | @file scope hfile hparent howner hkept =>
      have hlt := t.lt_size_of_parent hparent
      have hstorage := hwidens.storage_eq ht ht' hlt
      refine .file ?_ ?_ ?_ ?_
      · rw [hstorage]
        exact hhome hfile
      · rw [hwidens.parent_eq _ hlt, hparent]
      · rw [hwidens.owner_eq _ hlt, howner]
      · rw [hstorage, hwidens.owner_eq _ (ht.storage_lt hlt), hkept]
  | @inner enclosure space scope around descriptor hspace hparent howner hkept outer ih =>
      have hlt := t.lt_size_of_parent hparent
      have hstorage := hwidens.storage_eq ht ht' hlt
      refine @Mirrors.inner _ _ _ _ _ around descriptor ?_ ?_ ?_ ?_ ?_
      · rw [hstorage]
        exact hhome hspace
      · rw [hwidens.parent_eq _ hlt, hparent]
      · rw [hwidens.owner_eq _ hlt, howner]
      · rw [hstorage, hwidens.owner_eq _ (ht.storage_lt hlt), hkept]
      · exact ih

/-- A scope is contained in the declaration to which the names of its space belong. -/
theorem containingDeclaration?_eq
    (h : t.Mirrors home space scope) (ht : t.Ordered)
    (hroot : t.containingDeclaration? Model.root = none) :
    t.containingDeclaration? scope = (t.get (t.storage scope)).owner := by
  cases h with
  | file _ hparent howner hkept =>
      rw [ht.containingDeclaration?_of_parent hparent, howner, hkept, hroot]
      rfl
  | inner _ hparent howner hkept =>
      rw [ht.containingDeclaration?_of_parent hparent, howner, hkept]
      rfl

end Mirrors

end ScopeTree

/-! ## Charted sessions -/

/-- The enclosure is that of a class or namespace declared in the space. -/
def Layout.Opens (l : Layout) (space : Space) : Enclosure → Prop
  | .classBody node => ∃ head members, (space, .classDecl head members) ∈ l.placed ∧ head.id = node
  | .namespaceBody name => l.declaresNamespace space name = true

namespace Session

/-- The class of a head is known, and the scope of its members mirrors its body. -/
structure ChartedClass (s : Session) (home : Chart) (space : Space) (head : ClassHead)
    (descriptor : Nat) (data : ClassData) : Prop where
  declaration?_eq : s.trace.declaration? head.id = some descriptor
  classData?_eq : s.descriptors.classData? descriptor = some data
  name_eq : s.descriptors.name descriptor = head.knownName
  owner_eq : (s.scopes.get data.memberScope).owner = some descriptor
  mirrors : s.scopes.Mirrors home (.classBody head.id :: space) data.memberScope

/-- The namespace of a name in a space: its members are kept where the chart says, and it is
contained in the declaration that the names of the space belong to. -/
structure ChartedNamespace (s : Session) (home : Chart) (space : Space) (name : String)
    (descriptor members : Nat) : Prop where
  namespaceMembers?_eq : s.descriptors.namespaceMembers? descriptor = some members
  home_eq : home (.namespaceBody name :: space) = some members
  owner_eq : (s.scopes.get members).owner = some descriptor
  container_eq : ∃ kept, home space = some kept ∧
    (s.descriptors.get descriptor).container = (s.scopes.get kept).owner

/-- The chart agrees with the declarations collected so far and with the session. -/
structure Charted (l : Layout) (home : Chart) (s : Session) : Prop where
  ordered : s.scopes.Ordered
  root : (s.scopes.get Model.root).parent = none ∧ (s.scopes.get Model.root).owner = none ∧
    (s.scopes.get Model.root).writeTarget = none ∧
      (∀ name : String, (s.scopes.get Model.root).bindings.classifiers[name]? = none) ∧
        ∀ name : String, (s.scopes.get Model.root).bindings.namespaces[name]? = none
  file : s.scopes.Mirrors home [] Pass.toplevel
  kept : ∀ {space kept}, home space = some kept →
    Model.root < kept ∧ kept < s.scopes.size ∧ (s.scopes.get kept).writeTarget = none
  injective : ∀ {space space' kept}, home space = some kept → home space' = some kept →
    space = space'
  opens : ∀ {enclosure space kept}, home (enclosure :: space) = some kept →
    l.Opens space enclosure
  placed : ∀ {space d}, (space, d) ∈ l.placed → (home space).isSome
  classifiers : ∀ {space kept}, home space = some kept → ∀ name,
    (s.scopes.get kept).bindings.classifiers[name]? =
      (l.classIn? space name).bind fun head => s.trace.declaration? head.id
  declared : ∀ {space kept}, home space = some kept → ∀ name,
    ((s.scopes.get kept).bindings.namespaces[name]?).isSome = l.declaresNamespace space name
  namespaces : ∀ {space kept name descriptor}, home space = some kept →
    (s.scopes.get kept).bindings.namespaces[name]? = some descriptor →
      ∃ members, s.ChartedNamespace home space name descriptor members
  classes : ∀ {space head members}, (space, .classDecl head members) ∈ l.placed →
    ∃ descriptor data, s.ChartedClass home space head descriptor data
  members : ∀ {descriptor members}, (s.descriptors.get descriptor).kind.memberScope? =
    some members → (∃ space, home space = some (members.elim id id)) ∧
      (s.scopes.get (members.elim id id)).owner = some descriptor
  imports : ∀ {scope imported}, imported ∈ (s.scopes.get scope).imports →
    (∃ space, home space = some imported) ∧
      ∃ space head members, (space, .namespaceDecl head members) ∈ l.placed ∧
        head.imports ≠ [] ∧
          s.scopes.Mirrors home (.namespaceBody (head.knownName l.options) :: space) scope

/-- What is known stays known from one session to the next. -/
structure Continues (l : Layout) (home home' : Chart) (s s' : Session) : Prop where
  home_le : home.Le home'
  ordered : s.scopes.Ordered
  ordered' : s'.scopes.Ordered
  widens : s.scopes.Widens s'.scopes
  types : s.descriptors.KeepsTypes s'.descriptors
  declaration?_eq : ∀ {space head members}, (space, .classDecl head members) ∈ l.placed →
    s'.trace.declaration? head.id = s.trace.declaration? head.id

namespace Continues

variable {l l' : Layout} {home home' home'' : Chart} {s s' s'' : Session} {space : Space}

theorem refl (home : Chart) (hs : s.scopes.Ordered) : Continues l home home s s :=
  ⟨id, hs, hs, .refl _, .refl _, fun _ => rfl⟩

theorem trans
    (h : Continues l home home' s s') (h' : Continues l' home' home'' s' s'')
    (hplaced : l.placed ⊆ l'.placed) : Continues l home home'' s s'' where
  home_le hhome := h'.home_le (h.home_le hhome)
  ordered := h.ordered
  ordered' := h'.ordered'
  widens := h.widens.trans h'.widens
  types := h.types.trans h'.types
  declaration?_eq hp := (h'.declaration?_eq (hplaced hp)).trans (h.declaration?_eq hp)

theorem mirrors
    (h : Continues l home home' s s') {scope : Nat} (hscope : s.scopes.Mirrors home space scope) :
    s'.scopes.Mirrors home' space scope :=
  hscope.mono h.widens h.ordered h.ordered' h.home_le

theorem chartedClass
    (h : Continues l home home' s s') {head : ClassHead} {members : List Declaration}
    (hplaced : (space, .classDecl head members) ∈ l.placed) {descriptor : Nat} {data : ClassData}
    (hclass : s.ChartedClass home space head descriptor data) :
    ∃ data', s'.ChartedClass home' space head descriptor data' := by
  obtain ⟨data', hdata', hmembers⟩ := h.types.classData? hclass.classData?_eq
  have hlt : descriptor < s.descriptors.size :=
    DescriptorTable.lt_size_of_classData? (Option.isSome_of_eq_some hclass.classData?_eq)
  refine ⟨data', ?_, hdata', ?_, ?_, ?_⟩
  · exact (h.declaration?_eq hplaced).trans hclass.declaration?_eq
  · exact (h.types.name_eq _ hlt).trans hclass.name_eq
  · rw [hmembers, h.widens.owner_eq _ hclass.mirrors.lt_size]
    exact hclass.owner_eq
  · rw [hmembers]
    exact h.mirrors hclass.mirrors

theorem chartedNamespace
    (h : Continues l home home' s s') (hs : s.Charted l home) {name : String}
    {descriptor members : Nat}
    (hns : s.ChartedNamespace home space name descriptor members) :
    s'.ChartedNamespace home' space name descriptor members := by
  have hlt : descriptor < s.descriptors.size :=
    DescriptorTable.lt_size_of_namespaceMembers? (Option.isSome_of_eq_some hns.namespaceMembers?_eq)
  obtain ⟨kept, hkept, hcontainer⟩ := hns.container_eq
  refine ⟨h.types.namespaceMembers? hns.namespaceMembers?_eq, h.home_le hns.home_eq, ?_, kept,
    h.home_le hkept, ?_⟩
  · rw [h.widens.owner_eq _ (hs.kept hns.home_eq).2.1]
    exact hns.owner_eq
  · rw [h.types.container_eq _ hlt, h.widens.owner_eq _ (hs.kept hkept).2.1]
    exact hcontainer

end Continues

namespace Charted

variable {l : Layout} {home home' : Chart} {s s' : Session} {space : Space}

theorem containingDeclaration?_eq
    (h : s.Charted l home) {scope : Nat} (hscope : s.scopes.Mirrors home space scope) :
    s.scopes.containingDeclaration? scope = (s.scopes.get (s.scopes.storage scope)).owner := by
  refine hscope.containingDeclaration?_eq h.ordered ?_
  have hlt : Model.root < s.scopes.size := (h.kept h.file.home_eq).1.trans (h.kept h.file.home_eq).2.1
  rw [ScopeTree.containingDeclaration?_of_parent_eq_none hlt h.root.1]
  exact h.root.2.1

/-- A chart of a layout in which a space is declared that is not there yet knows nothing that
stands in the space. -/
theorem home_eq_none
    (h : s.Charted l home) {enclosure : Enclosure} (hopens : ¬l.Opens space enclosure) :
    home (enclosure :: space) = none := by
  cases hhome : home (enclosure :: space) with
  | none => rfl
  | some kept => exact absurd (h.opens hhome) hopens

theorem classIn?_eq_none
    (h : s.Charted l home) (hhome : home space = none) (name : String) :
    l.classIn? space name = none := by
  cases hclass : l.classIn? space name with
  | none => rfl
  | some head =>
      obtain ⟨members, hplaced, -⟩ := Layout.exists_placed_of_classIn? hclass
      have hsome := h.placed hplaced
      rw [hhome] at hsome
      cases hsome

theorem declaresNamespace_eq_false
    (h : s.Charted l home) (hhome : home space = none) (name : String) :
    l.declaresNamespace space name = false := by
  cases hdeclares : l.declaresNamespace space name with
  | false => rfl
  | true =>
      obtain ⟨head, members, hplaced, -⟩ := Layout.exists_placed_of_declaresNamespace hdeclares
      have hsome := h.placed hplaced
      rw [hhome] at hsome
      cases hsome

/-! ### Steps that declare nothing -/

/-- A declaration that is neither a class nor a new namespace adds nothing to the chart. -/
theorem extend
    (h : s.Charted l home) {d : Declaration} (hspace : (home space).isSome)
    (hclass : ∀ head members, d ≠ .classDecl head members)
    (hns : ∀ name, d.isNamespaceNamed l.options name = true → l.declaresNamespace space name = true) :
    s.Charted (l.extend [(space, d)]) home := by
  have hclassIn : ∀ space' name, (l.extend [(space, d)]).classIn? space' name =
      l.classIn? space' name := by
    intro space' name
    rw [Layout.classIn?_extend_singleton]
    cases d with
    | classDecl head members => exact absurd rfl (hclass head members)
    | _ => simp [Declaration.classNamed?]
  have hdeclares : ∀ space' name, (l.extend [(space, d)]).declaresNamespace space' name =
      l.declaresNamespace space' name := by
    intro space' name
    rw [Layout.declaresNamespace_extend_singleton, Bool.or_eq_left_iff_imp, Bool.and_eq_true,
      decide_eq_true_eq]
    rintro ⟨rfl, hname⟩
    exact hns name hname
  have hold : ∀ {p}, p ∈ l.placed → p ∈ (l.extend [(space, d)]).placed :=
    fun hp => List.mem_append_left _ hp
  refine ⟨h.ordered, h.root, h.file, h.kept, h.injective, fun {enclosure _ _} hhome => ?_,
    fun hp => ?_, fun hhome name => ?_, fun hhome name => ?_, h.namespaces, fun hp => ?_,
    h.members, fun himported => ?_⟩
  · have hopens := h.opens hhome
    cases enclosure with
    | classBody node =>
        obtain ⟨head, members, hp, hid⟩ := hopens
        exact ⟨head, members, hold hp, hid⟩
    | namespaceBody name => exact (hdeclares _ _).trans hopens
  · rcases List.mem_append.mp hp with hp | hp
    · exact h.placed hp
    · obtain ⟨rfl, -⟩ := Prod.mk.inj (List.mem_singleton.mp hp)
      exact hspace
  · rw [hclassIn]
    exact h.classifiers hhome name
  · rw [hdeclares]
    exact h.declared hhome name
  · rcases List.mem_append.mp hp with hp | hp
    · exact h.classes hp
    · obtain ⟨-, rfl⟩ := Prod.mk.inj (List.mem_singleton.mp hp)
      exact absurd rfl (hclass _ _)
  · obtain ⟨hspace, space', head, members, hp, hhead⟩ := h.imports himported
    exact ⟨hspace, space', head, members, hold hp, hhead⟩

/-- Adding scopes in which no types are declared does not concern the chart. -/
theorem of_continues
    (h : s.Charted l home) (hcontinues : Continues l home home s s')
    (hclassifiers : ∀ id, (s'.scopes.get id).bindings.classifiers =
      (s.scopes.get id).bindings.classifiers)
    (hnamespaces : ∀ id, (s'.scopes.get id).bindings.namespaces =
      (s.scopes.get id).bindings.namespaces)
    (hmembers : ∀ id, (s'.descriptors.get id).kind.memberScope? =
      (s.descriptors.get id).kind.memberScope?)
    (himports : ∀ {scope imported}, imported ∈ (s'.scopes.get scope).imports →
      imported ∈ (s.scopes.get scope).imports ∨ (∃ space, home space = some imported) ∧
        ∃ space head members, (space, .namespaceDecl head members) ∈ l.placed ∧
          head.imports ≠ [] ∧
            s.scopes.Mirrors home (.namespaceBody (head.knownName l.options) :: space) scope) :
    s'.Charted l home := by
  have hwidens := hcontinues.widens
  have hroot : Model.root < s.scopes.size :=
    (h.kept h.file.home_eq).1.trans (h.kept h.file.home_eq).2.1
  refine ⟨hcontinues.ordered', ⟨?_, ?_, ?_, fun name => ?_, fun name => ?_⟩,
    hcontinues.mirrors h.file, fun hhome => ?_, h.injective, h.opens, h.placed,
    fun {space _} hhome name => ?_, fun hhome name => ?_, fun hhome hns => ?_, fun hp => ?_,
    fun hdescriptor => ?_, fun himported => ?_⟩
  · exact (hwidens.parent_eq _ hroot).trans h.root.1
  · exact (hwidens.owner_eq _ hroot).trans h.root.2.1
  · exact (hwidens.writeTarget_eq _ hroot).trans h.root.2.2.1
  · rw [hclassifiers]
    exact h.root.2.2.2.1 name
  · rw [hnamespaces]
    exact h.root.2.2.2.2 name
  · obtain ⟨hpos, hlt, htarget⟩ := h.kept hhome
    exact ⟨hpos, hlt.trans_le hwidens.size_le, (hwidens.writeTarget_eq _ hlt).trans htarget⟩
  · rw [hclassifiers, h.classifiers hhome]
    refine Option.bind_congr fun head hhead => ?_
    obtain ⟨members, hp, -⟩ := Layout.exists_placed_of_classIn? hhead
    exact (hcontinues.declaration?_eq hp).symm
  · rw [hnamespaces]
    exact h.declared hhome name
  · rw [hnamespaces] at hns
    obtain ⟨members, hcharted⟩ := h.namespaces hhome hns
    exact ⟨members, hcontinues.chartedNamespace h hcharted⟩
  · obtain ⟨descriptor, data, hclass⟩ := h.classes hp
    obtain ⟨data', hclass'⟩ := hcontinues.chartedClass hp hclass
    exact ⟨descriptor, data', hclass'⟩
  · rw [hmembers] at hdescriptor
    obtain ⟨⟨space, hspace⟩, howner⟩ := h.members hdescriptor
    exact ⟨⟨space, hspace⟩, (hwidens.owner_eq _ (h.kept hspace).2.1).trans howner⟩
  · rcases himports himported with himported | ⟨hspace, space', head, members, hp, hne, hscope⟩
    · obtain ⟨hspace, space', head, members, hp, hne, hscope⟩ := h.imports himported
      exact ⟨hspace, space', head, members, hp, hne, hcontinues.mirrors hscope⟩
    · exact ⟨hspace, space', head, members, hp, hne, hcontinues.mirrors hscope⟩

/-- What an analysis does within a frame leaves what is known alone. -/
theorem continues_of_within
    {fr : Frame} (h : s.Charted l home) (hwithin : fr.Within s s')
    (hnodes : ∀ {space head members}, (space, .classDecl head members) ∈ l.placed →
      head.id ∉ fr.nodes) : Continues l home home s s' :=
  ⟨id, h.ordered, hwithin.ordered h.ordered, hwithin.nests.widens, hwithin.sameTypes.keepsTypes,
    fun hp => hwithin.declaration?_eq (hnodes hp)⟩

theorem of_within
    {fr : Frame} (h : s.Charted l home) (hwithin : fr.Within s s')
    (hnodes : ∀ {space head members}, (space, .classDecl head members) ∈ l.placed →
      head.id ∉ fr.nodes) : s'.Charted l home := by
  refine h.of_continues (h.continues_of_within hwithin hnodes) hwithin.nests.classifiers_eq
    hwithin.nests.namespaces_eq hwithin.sameTypes.memberScope?_eq fun himported => .inl ?_
  rw [hwithin.nests.imports_eq] at himported
  exact himported

/-! ### A new space -/

/-- A space is added with a new scope to keep its names. What remains to be known is what is
declared in the spaces that were there. -/
theorem addSpace
    (h : s.Charted l home) (hspace : (home space).isSome) {enclosure : Enclosure}
    (hnone : home (enclosure :: space) = none) {d : Declaration} {new : Scope}
    (hadds : ScopeTree.Adds new s.scopes s'.scopes)
    (hcontinues : Continues l home
      (Function.update home (enclosure :: space) (some s.scopes.size)) s s')
    (htarget : new.writeTarget = none) (himports : new.imports = []) (hbindings : new.bindings = {})
    (hopens : (l.extend [(space, d)]).Opens space enclosure)
    (hroot : ∀ name : String,
      (s'.scopes.get Model.root).bindings.classifiers[name]? = none ∧
        (s'.scopes.get Model.root).bindings.namespaces[name]? = none)
    (hclassifiers : ∀ {space' kept}, home space' = some kept → ∀ name,
      (s'.scopes.get kept).bindings.classifiers[name]? =
        ((l.extend [(space, d)]).classIn? space' name).bind fun head =>
          s'.trace.declaration? head.id)
    (hdeclared : ∀ {space' kept}, home space' = some kept → ∀ name,
      ((s'.scopes.get kept).bindings.namespaces[name]?).isSome =
        (l.extend [(space, d)]).declaresNamespace space' name)
    (hnamespaces : ∀ {space' kept name descriptor}, home space' = some kept →
      (s'.scopes.get kept).bindings.namespaces[name]? = some descriptor →
        ∃ members, s'.ChartedNamespace
          (Function.update home (enclosure :: space) (some s.scopes.size)) space' name descriptor
            members)
    (hmembers : ∀ {descriptor members}, (s'.descriptors.get descriptor).kind.memberScope? =
      some members → (s.descriptors.get descriptor).kind.memberScope? = some members ∨
        members.elim id id = s.scopes.size ∧ new.owner = some descriptor)
    (hclass : ∀ {head members}, d = .classDecl head members → ∃ descriptor data,
      s'.ChartedClass (Function.update home (enclosure :: space) (some s.scopes.size)) space head
        descriptor data) :
    s'.Charted (l.extend [(space, d)])
      (Function.update home (enclosure :: space) (some s.scopes.size)) := by
  have hold : ∀ {p}, p ∈ l.placed → p ∈ (l.extend [(space, d)]).placed :=
    fun hp => List.mem_append_left _ hp
  have hlt : Model.root < s.scopes.size :=
    (h.kept h.file.home_eq).1.trans (h.kept h.file.home_eq).2.1
  -- Spaces other than the new one were there before.
  have hcases : ∀ {space' kept}, Function.update home (enclosure :: space)
      (some s.scopes.size) space' = some kept →
        home space' = some kept ∨ space' = enclosure :: space ∧ kept = s.scopes.size := by
    intro space' kept hkept
    by_cases heq : space' = enclosure :: space
    · rw [heq, Function.update_self] at hkept
      exact .inr ⟨heq, (Option.some.inj hkept).symm⟩
    · rw [Function.update_of_ne heq] at hkept
      exact .inl hkept
  -- Nothing has been declared in the new space yet.
  have hclassIn : ∀ name, (l.extend [(space, d)]).classIn? (enclosure :: space) name = none := by
    intro name
    have hne : space ≠ enclosure :: space := (List.cons_ne_self _ _).symm
    rw [Layout.classIn?_extend_singleton, if_neg hne, Option.none_or]
    exact h.classIn?_eq_none hnone name
  have hdeclares : ∀ name,
      (l.extend [(space, d)]).declaresNamespace (enclosure :: space) name = false := by
    intro name
    have hne : space ≠ enclosure :: space := (List.cons_ne_self _ _).symm
    rw [Layout.declaresNamespace_extend_singleton, h.declaresNamespace_eq_false hnone name]
    simp [hne]
  have hempty : (s'.scopes.get s.scopes.size).bindings = {} := by rw [hadds.get_new, hbindings]
  refine ⟨hcontinues.ordered', ⟨?_, ?_, ?_, fun name => (hroot name).1, fun name => (hroot name).2⟩,
    hcontinues.mirrors h.file, fun hhome => ?_, fun hhome hhome' => ?_, fun {enclosure' _ _} hhome => ?_,
    fun hp => ?_, fun hhome name => ?_, fun hhome name => ?_, fun hhome hns => ?_, fun hp => ?_,
    fun hdescriptor => ?_, fun himported => ?_⟩
  · exact (hcontinues.widens.parent_eq _ hlt).trans h.root.1
  · exact (hcontinues.widens.owner_eq _ hlt).trans h.root.2.1
  · exact (hcontinues.widens.writeTarget_eq _ hlt).trans h.root.2.2.1
  · rcases hcases hhome with hhome | ⟨-, rfl⟩
    · obtain ⟨hpos, hlt, hnone⟩ := h.kept hhome
      exact ⟨hpos, hlt.trans_le hcontinues.widens.size_le,
        (hcontinues.widens.writeTarget_eq _ hlt).trans hnone⟩
    · refine ⟨hlt, hadds.size_eq ▸ Nat.lt_succ_self _, ?_⟩
      rw [hadds.get_new]
      exact htarget
  · rcases hcases hhome with hhome | ⟨rfl, rfl⟩
    · rcases hcases hhome' with hhome' | ⟨-, rfl⟩
      · exact h.injective hhome hhome'
      · exact absurd (h.kept hhome).2.1 (Nat.lt_irrefl _)
    · rcases hcases hhome' with hhome' | ⟨rfl, -⟩
      · exact absurd (h.kept hhome').2.1 (Nat.lt_irrefl _)
      · rfl
  · rcases hcases hhome with hhome | ⟨heq, -⟩
    · have hopened := h.opens hhome
      cases enclosure' with
      | classBody node =>
          obtain ⟨head, members, hp, hid⟩ := hopened
          exact ⟨head, members, hold hp, hid⟩
      | namespaceBody name =>
          refine (Layout.declaresNamespace_extend_singleton ..).trans ?_
          rw [Bool.or_eq_true]
          exact .inl hopened
    · obtain ⟨rfl, rfl⟩ := List.cons_eq_cons.mp heq
      exact hopens
  · rcases List.mem_append.mp hp with hp | hp
    · obtain ⟨kept, hkept⟩ := Option.isSome_iff_exists.mp (h.placed hp)
      exact Option.isSome_of_eq_some (hcontinues.home_le hkept)
    · obtain ⟨rfl, -⟩ := Prod.mk.inj (List.mem_singleton.mp hp)
      obtain ⟨kept, hkept⟩ := Option.isSome_iff_exists.mp hspace
      exact Option.isSome_of_eq_some (hcontinues.home_le hkept)
  · rcases hcases hhome with hhome | ⟨rfl, rfl⟩
    · exact hclassifiers hhome name
    · rw [hclassIn, hempty]
      exact Std.TreeMap.getElem?_emptyc
  · rcases hcases hhome with hhome | ⟨rfl, rfl⟩
    · exact hdeclared hhome name
    · rw [hdeclares, hempty]
      simp
  · rcases hcases hhome with hhome | ⟨rfl, rfl⟩
    · exact hnamespaces hhome hns
    · rw [hempty] at hns
      simp at hns
  · rcases List.mem_append.mp hp with hp | hp
    · obtain ⟨descriptor, data, hclass⟩ := h.classes hp
      obtain ⟨data', hclass'⟩ := hcontinues.chartedClass hp hclass
      exact ⟨descriptor, data', hclass'⟩
    · obtain ⟨rfl, heq⟩ := Prod.mk.inj (List.mem_singleton.mp hp)
      exact hclass heq.symm
  · rcases hmembers hdescriptor with hdescriptor | ⟨hnew, howner⟩
    · obtain ⟨⟨space', hspace'⟩, howner⟩ := h.members hdescriptor
      refine ⟨⟨space', hcontinues.home_le hspace'⟩, ?_⟩
      exact (hcontinues.widens.owner_eq _ (h.kept hspace').2.1).trans howner
    · rw [hnew, hadds.get_new]
      exact ⟨⟨enclosure :: space, Function.update_self ..⟩, howner⟩
  · rw [hadds.imports_eq himports] at himported
    obtain ⟨⟨space', hspace'⟩, space'', head, members, hp, hne, hscope⟩ := h.imports himported
    exact ⟨⟨space', hcontinues.home_le hspace'⟩, space'', head, members, hold hp, hne,
      hcontinues.mirrors hscope⟩

end Charted

end Session

end DeclAnalysis
