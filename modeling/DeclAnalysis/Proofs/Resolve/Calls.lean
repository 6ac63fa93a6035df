import DeclAnalysis.Proofs.Resolve.Journal

/-!
# What calls refer to

When an analysis ends without a fault, what is recorded at a call is the first candidate that
accepts the arguments. It was selected while types were still being filled in; the final model
justifies the choice all the same.
-/

namespace DeclAnalysis

namespace Declaration

/-- What the delegation list or the body of a declaration stands in: the list of a class stands in
the class itself, and everything else in what is around the declaration. -/
def bodyPlace (q : Option Declaration × Declaration) : Option Declaration :=
  match q.2 with
  | classDecl .. => some q.2
  | _ => q.1

variable {P : List (Option Declaration × Declaration)}

/-- A declaration is a class, a property, or a function or constructor, or none of these. -/
theorem count_parts_of_listed_le (node : Nat) (q : Option Declaration × Declaration) :
    (q.2.classHead?.toList.flatMap ClassHead.nodes).count node +
      ((q.2.property?.toList.flatMap PropertyDecl.nodes).count node +
        ((functionLike? q).toList.flatMap FunctionLike.nodes).count node) ≤
      q.2.ownNodes.count node := by
  obtain ⟨around, d⟩ := q
  cases d with
  | constructorDecl decl =>
      unfold functionLike?
      cases hclass : around.bind classHead? with
      | none => simp [classHead?, property?]
      | some head => simp [classHead?, property?, ownNodes, FunctionLike.nodes]
  | _ => simp [functionLike?, classHead?, property?, ownNodes, FunctionLike.nodes]

/-- Among all declarations, no node is counted as that of two of these. -/
theorem count_listed_le (node : Nat) (P : List (Option Declaration × Declaration)) :
    ((P.filterMap fun q => q.2.classHead?).flatMap ClassHead.nodes).count node +
      (((P.filterMap fun q => q.2.property?).flatMap PropertyDecl.nodes).count node +
        ((P.filterMap functionLike?).flatMap FunctionLike.nodes).count node) ≤
      (P.flatMap fun q => q.2.ownNodes).count node := by
  induction P with
  | nil => exact Nat.le_refl _
  | cons q rest ih =>
      have hq := count_parts_of_listed_le node q
      simp only [List.filterMap_eq_flatMap_toList, List.flatMap_cons, List.flatMap_append,
        List.count_append] at ih ⊢
      omega

theorem importNodes_eq_nil_of_recordings
    {d : Declaration} {named : String → List Nat} {own : List Nat} {x : Recording}
    (hx : x ∈ d.recordings named own) : d.importNodes = [] := by
  cases d with
  | namespaceDecl head members => cases hx
  | _ => rfl

theorem importNodes_eq_nil_of_calls {d : Declaration} {site : CallSite} (h : site ∈ d.calls) :
    d.importNodes = [] := by
  cases d with
  | namespaceDecl head members => cases h
  | _ => rfl

/-- What is recorded about a declaration is recorded at its own nodes. -/
theorem slot_mem_ownNodes
    {d : Declaration} {named : String → List Nat} {own : List Nat} {x : Recording}
    (hx : x ∈ d.recordings named own) : x.slot.node ∈ d.ownNodes := by
  have hcount := d.count_recordings_le named own x.slot
  have hpos := List.count_pos_iff.mpr (List.mem_map_of_mem (f := Recording.slot) hx)
  exact List.count_pos_iff.mp (hpos.trans_le hcount)

theorem node_mem_ownNodes_of_calls {d : Declaration} {site : CallSite} (h : site ∈ d.calls) :
    site.node ∈ d.ownNodes := by
  have hmem : site.node ∈ d.callNodes := by
    rcases List.mem_append.mp h with h | h
    · obtain ⟨specifier, hspecifier, hcall⟩ := List.mem_filterMap.mp h
      rw [← DelegationSpecifier.id_of_callSite? hcall]
      exact List.mem_append_left _ (List.mem_map_of_mem hspecifier)
    · obtain ⟨sub, hsub, hcall⟩ := List.mem_filterMap.mp h
      obtain ⟨e, he, hsub⟩ := List.mem_flatMap.mp hsub
      rw [← Expr.id_of_callSite? hcall]
      refine List.mem_append_right _ (List.mem_flatMap.mpr ⟨e, he, ?_⟩)
      exact Expr.nodes_subset_of_mem_subexpressions hsub sub.id_mem_nodes
  have hcount := d.count_callNodes_le site.node
  exact List.count_pos_iff.mp ((List.count_pos_iff.mpr hmem).trans_le hcount)

/-- Other declarations than those of namespaces have no node in an import directive. -/
theorem not_mem_importNodesIn
    (hdistinct : (P.flatMap fun q => q.2.ownNodes).Nodup)
    {q : Option Declaration × Declaration} (hq : q ∈ P) (hnone : q.2.importNodes = []) {node : Nat}
    (hnode : node ∈ q.2.ownNodes) : node ∉ importNodesIn P := by
  intro hmem
  obtain ⟨q', hq', himport⟩ := List.mem_flatMap.mp hmem
  have hown := q'.2.importNodes_subset_ownNodes himport
  obtain rfl := eq_of_mem_ownNodes (f := Prod.snd) hdistinct hq hq' hnode hown
  rw [hnone] at himport
  cases himport

theorem ownNodes_eq_cons (d : Declaration) : d.ownNodes = d.id :: d.ownNodes.tail := by
  cases d <;> rfl

/-- The node that stands for a declaration is not among the nodes inside of any. -/
theorem id_not_mem_tails
    (hdistinct : (P.flatMap fun q => q.2.ownNodes).Nodup)
    {q : Option Declaration × Declaration} (hq : q ∈ P) :
    q.2.id ∉ P.flatMap fun q => q.2.ownNodes.tail := by
  intro hmem
  obtain ⟨q', hq', htail⟩ := List.mem_flatMap.mp hmem
  have hown := List.mem_of_mem_tail htail
  obtain rfl := eq_of_mem_ownNodes (f := Prod.snd) hdistinct hq hq' q.2.id_mem_ownNodes hown
  have hnodup : q.2.ownNodes.Nodup := (List.nodup_flatMap.mp hdistinct).1 q hq
  rw [q.2.ownNodes_eq_cons] at hnodup htail
  exact (List.nodup_cons.mp hnodup).1 htail

end Declaration

namespace PassState

variable {P : List (Option Declaration × Declaration)} {s : PassState}

/-! ## The log once more -/

theorem flatMap_listed
    {α : Type} {key : α → Nat} {xs : List α} {listed : List (α × Nat)}
    (h : listed.map (Prod.map id some) = s.entries key xs) (f : α → List Nat) :
    (listed.flatMap fun entry => f entry.1) = xs.flatMap f := by
  rw [← Session.map_fst_listed h, List.flatMap_map]

section

variable (hs : s.Listed P) (hdistinct : (P.flatMap fun q => q.2.ownNodes).Nodup)

include hs hdistinct

/-- Nothing is recorded twice. -/
theorem Listed.nodup_journal : (s.journal.map Recording.slot).Nodup := by
  refine List.nodup_iff_count_le_one.mpr fun slot => ?_
  have hclasses := count_map_flatMap_le (f := s.classLog) (g := fun entry => entry.1.nodes) slot
    s.tables.classes.toList fun entry =>
      Declaration.count_recordings_le _ [] slot (.classDecl entry.1 [])
  have hproperties := count_map_flatMap_le (f := s.propertyLog) (g := fun entry => entry.1.nodes)
    slot s.tables.properties.toList fun entry =>
      Declaration.count_recordings_le _ [] slot (.propertyDecl entry.1)
  have hfunctions := count_map_flatMap_le (f := s.functionLog) (g := fun entry => entry.1.nodes)
    slot s.tables.functions.toList fun entry => by
      obtain ⟨f, descriptor⟩ := entry
      cases f with
      | function decl => exact Declaration.count_recordings_le _ [] slot (.functionDecl decl)
      | constructor decl => exact Declaration.count_recordings_le _ _ slot (.constructorDecl decl)
  rw [flatMap_listed hs.classes_eq ClassHead.nodes] at hclasses
  rw [flatMap_listed hs.properties_eq PropertyDecl.nodes] at hproperties
  rw [flatMap_listed hs.functions_eq FunctionLike.nodes] at hfunctions
  have hlisted := Declaration.count_listed_le slot.node P
  have hle := List.nodup_iff_count_le_one.mp hdistinct slot.node
  unfold journal
  rw [List.map_append, List.map_append, List.count_append, List.count_append]
  omega

end

/-- The constructors that a call of the own class may refer to. Outside of classes, and in the
delegation list of a class, there are none. -/
def OwnConstructors (s : PassState) (q : Option Declaration × Declaration) (own : List Nat) : Prop :=
  own = [] ∨ ∃ head classId, q.1.bind Declaration.classHead? = some head ∧
    s.trace.declaration? head.id = some classId ∧ own = s.descriptors.constructorsOf classId

/-- An entry is made for a declaration, with names taken as they are meant in the scope that its
body stands in. -/
structure Accounts
    (s : PassState) (q : Option Declaration × Declaration) (x : Recording) (scope : Nat)
    (own : List Nat) : Prop where
  houses : s.Houses (Declaration.bodyPlace q) scope
  lt_size : scope < s.scopes.size
  ownConstructors : s.OwnConstructors q own
  mem : x ∈ q.2.recordings (s.model.candidates scope) own

section

variable (hs : s.Poised P) {x : Recording}

include hs

theorem Poised.exists_accounts_of_mem_classLog
    {entry : ClassHead × Nat} (hentry : entry ∈ s.tables.classes.toList)
    (hx : x ∈ s.classLog entry) : ∃ q ∈ P, ∃ scope own, s.Accounts q x scope own := by
  obtain ⟨hlisted, hdeclared⟩ :=
    Session.declaration?_of_mem_listed hs.listed.classes_eq hentry
  obtain ⟨q, hq, hclass⟩ := List.mem_filterMap.mp hlisted
  obtain ⟨members, hself⟩ := Declaration.exists_members_of_classHead? hclass
  have hhas := (hs.kinded.tables.classes entry hentry).toHas
  obtain ⟨data, hdata⟩ := Option.isSome_iff_exists.mp (DescriptorTable.has_classSort_iff.mp hhas)
  unfold classLog at hx
  rw [hdata] at hx
  refine ⟨q, hq, data.memberScope, [], ?_, ?_, .inl rfl, ?_⟩
  · unfold Declaration.bodyPlace
    rw [hself]
    exact .classBody hdeclared hdata
  · exact (hs.kinded.session.descriptors.classData hhas.lt_size hdata).memberScope_lt
  · rw [hself]
    exact hx

theorem Poised.exists_accounts_of_mem_propertyLog
    {entry : PropertyDecl × Nat} (hentry : entry ∈ s.tables.properties.toList)
    (hx : x ∈ s.propertyLog entry) : ∃ q ∈ P, ∃ scope own, s.Accounts q x scope own := by
  have hlisted := Session.declaration?_of_mem_listed hs.listed.properties_eq hentry
  obtain ⟨q, hq, hproperty⟩ := List.mem_filterMap.mp hlisted.1
  have hself := Declaration.eq_of_property? hproperty
  obtain ⟨scope, hhouses, hscope⟩ :=
    hs.declaring q hq (.inr (Option.isSome_of_eq_some hproperty))
  rw [hself] at hscope
  unfold propertyLog at hx
  rw [Std.TreeMap.getD_eq_getD_getElem?, show s.tables.declaringScopes[entry.1.id]? = some scope
    from hscope] at hx
  refine ⟨q, hq, scope, [], ?_, hs.kinded.tables.declaringScopes_lt hscope, .inl rfl, ?_⟩
  · unfold Declaration.bodyPlace
    rw [hself]
    exact hhouses
  · rw [hself]
    exact hx

theorem Poised.exists_accounts_of_mem_functionLog
    {entry : FunctionLike × Nat} (hentry : entry ∈ s.tables.functions.toList)
    (hx : x ∈ s.functionLog entry) : ∃ q ∈ P, ∃ scope own, s.Accounts q x scope own := by
  obtain ⟨hlisted, hdeclared⟩ :=
    Session.declaration?_of_mem_listed hs.listed.functions_eq hentry
  obtain ⟨q, hq, hfunction⟩ := List.mem_filterMap.mp hlisted
  obtain ⟨scope, hhouses, hscope⟩ :=
    hs.declaring q hq (.inl (Option.isSome_of_eq_some hfunction))
  have hlt := hs.kinded.tables.declaringScopes_lt hscope
  rw [← Declaration.id_of_functionLike? hfunction] at hscope
  obtain ⟨f, descriptor⟩ := entry
  unfold functionLog at hx
  dsimp only at hx hscope hfunction
  rw [Std.TreeMap.getD_eq_getD_getElem?, hscope, Option.getD_some] at hx
  cases f with
  | function decl =>
      have hself := Declaration.eq_of_functionLike? hfunction
      refine ⟨q, hq, scope, [], ?_, hlt, .inl rfl, ?_⟩
      · unfold Declaration.bodyPlace
        rw [hself]
        exact hhouses
      · rw [hself]
        exact hx
  | constructor decl =>
      obtain ⟨head, hclass, hself⟩ := Declaration.eq_of_functionLike?_constructor hfunction
      obtain ⟨classId, constructor, hclassId, hconstructor, hown⟩ :=
        hs.constructors q hq hclass hself
      obtain rfl := Option.some.inj (hconstructor.symm.trans hdeclared)
      rw [hown.container_eq, Option.getD_some] at hx
      refine ⟨q, hq, scope, _, ?_, hlt, .inr ⟨head, classId, hclass, hclassId, rfl⟩, ?_⟩
      · unfold Declaration.bodyPlace
        rw [hself]
        exact hhouses
      · rw [hself]
        exact hx

/-- Every entry of the log is made for a declaration. -/
theorem Poised.exists_accounts (hx : x ∈ s.journal) :
    ∃ q ∈ P, ∃ scope own, s.Accounts q x scope own := by
  unfold journal at hx
  simp only [List.mem_append, List.mem_flatMap] at hx
  rcases hx with ⟨entry, hentry, hx⟩ | ⟨entry, hentry, hx⟩ | ⟨entry, hentry, hx⟩
  · exact hs.exists_accounts_of_mem_classLog hentry hx
  · exact hs.exists_accounts_of_mem_propertyLog hentry hx
  · exact hs.exists_accounts_of_mem_functionLog hentry hx

end

end PassState

/-! ## Calls in the final model -/

/-- The constructor of a class is the first one of it that accepts the arguments. -/
structure DescriptorTable.Constructs
    (t : DescriptorTable) (classId : Nat) (types : List (Option Ty)) (r : Nat) : Prop where
  isConstructorOf : t.IsConstructorOf classId r
  selects : t.Selects (t.constructorsOf classId) types r

/-- What a call refers to, in a scope and with arguments of some types: the first function of the
name that accepts the arguments, where functions are those of the nearest scope that has any; or
the first constructor that accepts them of the class called, which is the class of the name, the
one that a type reference denotes, or the one around. -/
inductive Session.CallsRightly
    (s : Session) (scope : Nat) (around : Option Declaration) (types : List (Option Ty))
    (r : Nat) : CallTarget → Prop
  | function {name : String} (hname : s.descriptors.Names (.functionSort .plain) name r)
      (hselects : s.descriptors.Selects (s.scopes.functions scope name) types r) :
      CallsRightly s scope around types r (.named name)
  | namedClass {name : String} {classId : Nat} (hfunctions : s.scopes.functions scope name = [])
      (hclass : s.scopes.classifier? scope name = some classId)
      (hconstructs : s.descriptors.Constructs classId types r) :
      CallsRightly s scope around types r (.named name)
  | superclass {ref : TypeRef} {classId : Nat} {name : String}
      (hdenotes : s.trace.typeReference? ref.id = some (.classType classId name))
      (hconstructs : s.descriptors.Constructs classId types r) :
      CallsRightly s scope around types r (.super (some ref))
  | ownClass {head : ClassHead} {classId : Nat}
      (haround : around.bind Declaration.classHead? = some head)
      (hclass : s.trace.declaration? head.id = some classId)
      (hconstructs : s.descriptors.Constructs classId types r) :
      CallsRightly s scope around types r .this

theorem DescriptorTable.Selects.mem
    {t : DescriptorTable} {candidates : List Nat} {types : List (Option Ty)} {r : Nat}
    (h : t.Selects candidates types r) : r ∈ candidates := by
  obtain ⟨before, after, rfl, -⟩ := h.first
  exact List.mem_append_right before List.mem_cons_self

theorem DescriptorTable.WellKinded.constructs
    {t : DescriptorTable} {scopes : Nat} (h : t.WellKinded scopes) {classId : Nat}
    {types : List (Option Ty)} {r : Nat} (hselects : t.Selects (t.constructorsOf classId) types r) :
    t.Constructs classId types r :=
  ⟨h.isConstructorOf_of_mem hselects.mem, hselects⟩

/-- A call that is resolved by the candidates that the final model has is right. -/
theorem Session.WellKinded.callsRightly
    {s : Session} (hs : s.WellKinded) {scope : Nat} {around : Option Declaration}
    {own : List Nat}
    (hown : own = [] ∨ ∃ head classId, around.bind Declaration.classHead? = some head ∧
      s.trace.declaration? head.id = some classId ∧ own = s.descriptors.constructorsOf classId)
    {site : CallSite} {r : Nat} (h : s.ResolvesCall (site.call (s.model.candidates scope) own) r) :
    s.CallsRightly scope around (site.arguments.map fun e => s.trace.expressionType? e.id) r
      site.target := by
  obtain ⟨candidates, hnames, -, hselects⟩ := h
  have htypes : (site.call (s.model.candidates scope) own).arguments.map s.trace.expressionType? =
      site.arguments.map fun e => s.trace.expressionType? e.id := List.map_map
  rw [htypes] at hselects
  clear htypes
  obtain ⟨node, target, arguments⟩ := site
  cases target with
  | named name =>
      obtain rfl : candidates = s.model.candidates scope name := hnames
      unfold Model.candidates at hselects
      split at hselects
      · rename_i hfunctions
        cases hclass : s.model.scopes.classifier? scope name with
        | none =>
            rw [hclass] at hselects
            cases hselects.mem
        | some classId =>
            rw [hclass] at hselects
            exact .namedClass hfunctions hclass (hs.descriptors.constructs hselects)
      · rename_i function rest hfunctions
        rw [← hfunctions] at hselects
        exact .function (hs.scopes.functions r hselects.mem) hselects
  | super ref =>
      cases ref with
      | none =>
          obtain rfl : candidates = [] := hnames
          cases hselects.mem
      | some ref =>
          obtain ⟨classId, name, hdenotes, rfl⟩ := hnames
          exact .superclass hdenotes (hs.descriptors.constructs hselects)
  | this =>
      obtain rfl : candidates = own := hnames
      rcases hown with rfl | ⟨head, classId, haround, hclass, rfl⟩
      · cases hselects.mem
      · exact .ownClass haround hclass (hs.descriptors.constructs hselects)

namespace PassState

variable {P : List (Option Declaration × Declaration)} {s s' : PassState} {xs : List Recording}
  (hdistinct : (P.flatMap fun q => q.2.ownNodes).Nodup)
  (h : Journals (P.flatMap fun q => q.2.ownNodes.tail) xs s s')

include hdistinct h

/-- The last pass does not record anew what a declaration declares. -/
theorem Journals.declaration?_id_eq {q : Option Declaration × Declaration} (hq : q ∈ P) :
    s'.trace.declaration? q.2.id = s.trace.declaration? q.2.id :=
  h.advances.proceeds.follows.declaration?_eq (Declaration.id_not_mem_tails hdistinct hq)

theorem Journals.declaration?_head_eq
    {d : Declaration} (hd : d ∈ P.map Prod.snd) {head : ClassHead}
    (hclass : d.classHead? = some head) :
    s'.trace.declaration? head.id = s.trace.declaration? head.id := by
  obtain ⟨q, hq, rfl⟩ := List.mem_map.mp hd
  obtain ⟨members, hself⟩ := Declaration.exists_members_of_classHead? hclass
  have hsame := h.declaration?_id_eq hdistinct hq
  rw [hself] at hsame
  exact hsame

/-- Classes and namespaces keep their scopes. -/
theorem Journals.houses
    {around : Option Declaration} (haround : ∀ d ∈ around, d ∈ P.map Prod.snd) {scope : Nat}
    (hscope : s.Houses around scope) : s'.Houses around scope := by
  cases hscope with
  | file => exact .file
  | classBody hdescriptor hdata =>
      refine .classBody ((h.declaration?_head_eq hdistinct (haround _ rfl) rfl).trans hdescriptor) ?_
      exact (h.records.signatures.classData?_eq _).trans hdata
  | namespaceBody hinner =>
      refine .namespaceBody ?_
      rw [h.advances.tables_eq]
      exact hinner

theorem Journals.ownConstructors
    {q : Option Declaration × Declaration} (haround : ∀ d ∈ q.1, d ∈ P.map Prod.snd)
    {own : List Nat} (hown : s.OwnConstructors q own) : s'.OwnConstructors q own := by
  rcases hown with rfl | ⟨head, classId, hhead, hclass, rfl⟩
  · exact .inl rfl
  · obtain ⟨d, hd, hdclass⟩ := Option.bind_eq_some_iff.mp hhead
    refine .inr ⟨head, classId, hhead, ?_, (h.records.signatures.constructorsOf_eq classId).symm⟩
    exact (h.declaration?_head_eq hdistinct (haround d hd) hdclass).trans hclass

end PassState

/-- What is recorded at a call when the last pass ends is right. -/
theorem PassState.Poised.callsRightly
    {P : List (Option Declaration × Declaration)} {s s' : PassState} (hs : s.Poised P)
    (hdistinct : (P.flatMap fun q => q.2.ownNodes).Nodup)
    (hclosed : ∀ q ∈ P, ∀ d ∈ q.1, d ∈ P.map Prod.snd)
    (h : Journals (P.flatMap fun q => q.2.ownNodes.tail) s.journal s s')
    (hkinded : s'.toSession.WellKinded) {q : Option Declaration × Declaration} (hq : q ∈ P)
    {site : CallSite} (hsite : site ∈ q.2.calls) {r : Nat}
    (hr : s'.trace.reference? site.node = some r) :
    ∃ scope, s'.Houses (Declaration.bodyPlace q) scope ∧
      s'.CallsRightly scope q.1 (site.arguments.map fun e => s'.trace.expressionType? e.id) r
        site.target := by
  have hvacant : ∀ q' ∈ P, q'.2.importNodes = [] → ∀ slot : Slot, slot.node ∈ q'.2.ownNodes →
      s.Vacant slot := fun q' hq' hnone slot hslot =>
    hs.vacant (Declaration.not_mem_importNodesIn hdistinct hq' hnone hslot)
  have hnode := Declaration.node_mem_ownNodes_of_calls hsite
  have hempty : s.Vacant (.reference site.node) :=
    hvacant q hq (Declaration.importNodes_eq_nil_of_calls hsite) (.reference site.node) hnode
  by_cases hslot : Slot.reference site.node ∈ s.journal.map Recording.slot
  · obtain ⟨x, hx, hxslot⟩ := List.mem_map.mp hslot
    obtain ⟨q', hq', scope, own, haccounts⟩ := hs.exists_accounts hx
    have hown := Declaration.slot_mem_ownNodes haccounts.mem
    rw [hxslot] at hown
    obtain rfl := Declaration.eq_of_mem_ownNodes (f := Prod.snd) hdistinct hq hq' hnode hown
    have hdistinctOwn : q.2.ownNodes.Nodup := (List.nodup_flatMap.mp hdistinct).1 q hq
    obtain rfl := Declaration.eq_call_of_mem_recordings _ _ hdistinctOwn hsite haccounts.mem hxslot
    have hplace : ∀ d ∈ Declaration.bodyPlace q, d ∈ P.map Prod.snd := by
      intro d hd
      unfold Declaration.bodyPlace at hd
      split at hd
      · obtain rfl := Option.mem_some.mp hd
        exact List.mem_map_of_mem hq
      · exact hclosed q hq d hd
    refine ⟨scope, h.houses hdistinct hplace haccounts.houses, ?_⟩
    have hjustifies := h.records.justifies (hs.listed.nodup_journal hdistinct) (fun y hy => ?_) hx
    · have hresolves := hjustifies r hr
      have hnamed : s'.model.candidates scope = s.model.candidates scope :=
        funext (h.records.offers (hs.offers haccounts.lt_size)).candidates_eq
      rw [← hnamed] at hresolves
      exact hkinded.callsRightly (h.ownConstructors hdistinct (hclosed q hq)
        haccounts.ownConstructors) hresolves
    · obtain ⟨q', hq', scope', own', haccounts'⟩ := hs.exists_accounts hy
      exact hvacant q' hq' (Declaration.importNodes_eq_nil_of_recordings haccounts'.mem) y.slot
        (Declaration.slot_mem_ownNodes haccounts'.mem)
  · -- Nothing is recorded at a call that is not typed.
    have hnone : s'.trace.reference? site.node = none := (h.records.same hslot).vacant hempty
    rw [hnone] at hr
    cases hr

namespace SourceFile

/-- What is recorded at calls is justified by the final model. When an analysis ends without a
fault, whatever is recorded at a call outside of import directives is a plain function of the name
called, or a constructor of the class called; it has as many parameters as there are arguments, and
every argument of recorded type is convertible to the type of its parameter in the final class
hierarchy; and no candidate in front of it is like this. -/
theorem call_references_justified
    {file : SourceFile} (hfile : file.Obtained) (options : AnalysisOptions) {s : PassState}
    (hrun : (Pass.allPasses options file.declarations).run.run Pass.initialState = (.ok (), s))
    {q : Option Declaration × Declaration} (hq : q ∈ Declaration.enclosedIn none file.declarations)
    {site : CallSite} (hsite : site ∈ q.2.calls) {r : Nat}
    (hr : s.trace.reference? site.node = some r) :
    ∃ scope, s.Houses (Declaration.bodyPlace q) scope ∧
      s.CallsRightly scope q.1 (site.arguments.map fun e => s.trace.expressionType? e.id) r
        site.target := by
  obtain ⟨name, ds, rfl⟩ := hfile.exists_eq_ofDeclarations
  let declarations := (ofDeclarations name ds).declarations
  have hnodes : (Declaration.nodesOf declarations).Nodup :=
    (pairwise_nodes_ofDeclarations name ds).imp Nat.ne_of_lt
  have hdistinct := nodup_ownNodes_ofDeclarations name ds
  have hkinded : s.toSession.WellKinded := by
    obtain ⟨c, hreaches, -, hanalyze⟩ := Config.exists_reaches_analyze (ofDeclarations name ds) options
    have hstate := ((Config.wellKinded_start declarations).reaches hreaches).state.session
    have hsession := session_analyze (ofDeclarations name ds) options
    rw [hanalyze, hrun] at hsession
    exact hsession ▸ hstate
  rw [Pass.allPasses_eq] at hrun
  obtain ⟨_, s₀, hbefore, hlast⟩ := exists_run_of_bind hrun
  have hs₀ := (Pass.afterOr_declarationPasses_poised options hnodes).of_run_eq hbefore
  have hbodies : AfterOr (Pass.resolveBodies options) s₀ _ _ :=
    Pass.afterOr_resolveBodies_journals hs₀ (List.Subset.refl _)
  have hjournals := hbodies.of_run_eq hlast
  exact hs₀.callsRightly hdistinct (fun q hq d hd => Declaration.mem_map_snd_of_mem_around hq hd)
    hjournals hkinded hq hsite hr

/-- Two functions share a name. A call hands an instance of a class to them that only the second
one accepts, for the parameter of the first one is of a subtype. -/
def overloaded : SourceFile :=
  ofDeclarations "overloaded"
    [.classDecl { name := some "A", primaryConstructor := some [] } [],
     .classDecl
      { name := some "B", delegationSpecifiers := [.superClass 0 { name := "A" }] } [],
     .functionDecl
      { name := "pick", parameters := [{ name := "b", typeRef := some { name := "B" } }] },
     .functionDecl
      { name := "pick", parameters := [{ name := "a", typeRef := some { name := "A" } }],
        returnType := some { name := "A" } },
     .propertyDecl
      { name := "picked", initializer := some (.call 0 "pick" [.call 0 "A" []]) }]

/-- The state in which that file has been analyzed. -/
def overloadedAnalyzed : PassState :=
  ((Pass.allPasses {} overloaded.declarations).run.run Pass.initialState).2

set_option maxRecDepth 20000 in
theorem call_references_justified_overloaded :
    overloaded.Obtained ∧
      (Pass.allPasses {} overloaded.declarations).run.run Pass.initialState =
        (.ok (), overloadedAnalyzed) ∧
      (none, overloaded.declarations[4]) ∈ Declaration.enclosedIn none overloaded.declarations ∧
      CallSite.mk 13 (.named "pick") [.call 14 "A" []] ∈ overloaded.declarations[4].calls ∧
      overloadedAnalyzed.trace.reference? 13 = some 5 ∧
        ∃ scope, overloadedAnalyzed.Houses none scope ∧
          overloadedAnalyzed.CallsRightly scope none [some (.classType 0 "A")] 5
            (.named "pick") := by
  have hok : ((Pass.allPasses {} overloaded.declarations).run.run Pass.initialState).1 = .ok () := by
    decide +kernel
  have hrun : (Pass.allPasses {} overloaded.declarations).run.run Pass.initialState =
      (.ok (), overloadedAnalyzed) := by
    unfold overloadedAnalyzed
    exact run_eq_of_fst_run hok
  have hfile : overloaded.Obtained := .ofDeclarations ..
  have hplace : (none, overloaded.declarations[4]) ∈
      Declaration.enclosedIn none overloaded.declarations :=
    .tail _ (.tail _ (.tail _ (.tail _ (.head _))))
  have hcall : CallSite.mk 13 (.named "pick") [.call 14 "A" []] ∈
      overloaded.declarations[4].calls := .head _
  have hreference : overloadedAnalyzed.trace.reference? 13 = some 5 := by decide +kernel
  have htype : overloadedAnalyzed.trace.expressionType? 14 = some (.classType 0 "A") := by
    decide +kernel
  refine ⟨hfile, hrun, hplace, hcall, hreference, ?_⟩
  rw [← htype]
  exact call_references_justified hfile {} hrun hplace hcall hreference

end SourceFile

end DeclAnalysis
