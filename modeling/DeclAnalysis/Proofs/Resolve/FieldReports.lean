import DeclAnalysis.Proofs.Resolve.BackingFields
import DeclAnalysis.Proofs.Resolve.ReportedOnce

/-!
# What is reported about backing fields

When an analysis ends without a fault, the properties that have backing fields are those of which
the tree says so. An initializer is refused exactly where the property can neither be set nor
store it, and what is said at the name of a field in a constructor follows from the properties of
the class alone.
-/

namespace DeclAnalysis

open PropertySite (lastNamed?)

/-! ## Remarks -/

theorem ConstructorDecl.mem_fieldRemarks_iff
    {decl : ConstructorDecl} {sites : List PropertySite} {d : Diagnostic} :
    d ∈ decl.fieldRemarks sites ↔ ∃ a ∈ decl.fieldAccesses,
      lastNamed? sites a.property = none ∧ d = .missingField a ∨
        ∃ x, lastNamed? sites a.property = some x ∧ x.stored = false ∧ d = .fieldMisuse a.node := by
  unfold fieldRemarks
  rw [List.mem_append]
  constructor
  · rintro (hd | hd)
    · obtain ⟨a, ha, rfl⟩ := List.mem_map.mp hd
      obtain ⟨ha, hnone⟩ := List.mem_filter.mp ha
      exact ⟨a, ha, .inl ⟨Option.isNone_iff_eq_none.mp hnone, rfl⟩⟩
    · obtain ⟨a, ha, rfl⟩ := List.mem_map.mp hd
      obtain ⟨ha, hany⟩ := List.mem_filter.mp ha
      obtain ⟨x, hx, hstored⟩ := (Option.any_eq_true _ _).mp hany
      exact ⟨a, ha, .inr ⟨x, hx, Bool.not_eq_true' _ ▸ hstored, rfl⟩⟩
  · rintro ⟨a, ha, ⟨hnone, rfl⟩ | ⟨x, hx, hstored, rfl⟩⟩
    · refine .inl (List.mem_map_of_mem (List.mem_filter.mpr ⟨ha, ?_⟩))
      rw [hnone]
      rfl
    · refine .inr (List.mem_map.mpr ⟨a, List.mem_filter.mpr ⟨ha, ?_⟩, rfl⟩)
      rw [hx, Option.any_some, hstored]
      rfl

theorem PropertyDecl.mem_storageRemarks_iff
    {decl : PropertyDecl} {d : Diagnostic} :
    d ∈ decl.storageRemarks ↔ decl.mutable = false ∧ decl.storesValue = false ∧
      ∃ e, decl.initializer = some e ∧ d = .initializerRefused e.id := by
  unfold storageRemarks
  split
  · rename_i hor
    refine ⟨nofun, fun h => ?_⟩
    rw [h.1, h.2.1] at hor
    cases hor
  · rename_i hor
    obtain ⟨hmutable, hstores⟩ := Bool.or_eq_false_iff.mp (Bool.eq_false_of_not_eq_true hor)
    rw [List.mem_map]
    constructor
    · rintro ⟨e, he, rfl⟩
      exact ⟨hmutable, hstores, e, Option.mem_toList.mp he, rfl⟩
    · rintro ⟨-, -, e, he, rfl⟩
      exact ⟨e, Option.mem_toList.mpr he, rfl⟩

namespace Declaration

variable {P : List (Option Declaration × Declaration)} {q : Option Declaration × Declaration}
  {d : Diagnostic}

/-- A remark says that a name refers to nothing, that it refers to a field which there is not, or
that an initializer is refused. -/
theorem fieldRemarks_cases (hd : d ∈ fieldRemarks P q) :
    (∃ a ∈ q.2.fieldAccesses, d = .missingField a) ∨
      (∃ head decl, q.1.bind classHead? = some head ∧ q.2 = .constructorDecl decl ∧
        ∃ a ∈ decl.fieldAccesses, d = .fieldMisuse a.node) ∨
        ∃ decl, q.2 = .propertyDecl decl ∧ d ∈ decl.storageRemarks := by
  unfold fieldRemarks at hd
  cases hself : q.2 with
  | classDecl head members =>
      rw [hself] at hd
      obtain ⟨a, ha, rfl⟩ := List.mem_map.mp hd
      exact .inl ⟨a, ha, rfl⟩
  | functionDecl decl =>
      rw [hself] at hd
      obtain ⟨a, ha, rfl⟩ := List.mem_map.mp hd
      exact .inl ⟨a, ha, rfl⟩
  | propertyDecl decl =>
      rw [hself] at hd
      rcases List.mem_append.mp hd with hd | hd
      · obtain ⟨a, ha, rfl⟩ := List.mem_map.mp hd
        exact .inl ⟨a, List.mem_append_left _ ha, rfl⟩
      · rcases List.mem_append.mp hd with hd | hd
        · obtain ⟨a, ha, rfl⟩ := List.mem_map.mp hd
          exact .inl ⟨a, List.mem_append_right _ (List.mem_of_mem_filter ha), rfl⟩
        · exact .inr (.inr ⟨decl, rfl, hd⟩)
  | constructorDecl decl =>
      rw [hself] at hd
      obtain ⟨head, hhead, hd⟩ := List.mem_flatMap.mp hd
      obtain ⟨a, ha, ⟨-, rfl⟩ | ⟨x, -, -, rfl⟩⟩ := ConstructorDecl.mem_fieldRemarks_iff.mp hd
      · exact .inl ⟨a, ha, rfl⟩
      · exact .inr (.inl ⟨head, decl, Option.mem_toList.mp hhead, rfl, a, ha, rfl⟩)
  | _ =>
      rw [hself] at hd
      cases hd

/-- A remark that does not refuse an initializer is made at the name of a field. -/
theorem exists_access_of_mem_fieldRemarks
    (hd : d ∈ fieldRemarks P q) (hcode : d.code ≠ .initializerNotAllowed) :
    ∃ a ∈ q.2.fieldAccesses, d.node = a.node := by
  rcases fieldRemarks_cases hd with ⟨a, ha, rfl⟩ | ⟨head, decl, -, hself, a, ha, rfl⟩ |
    ⟨decl, -, hd⟩
  · exact ⟨a, ha, rfl⟩
  · rw [hself]
    exact ⟨a, ha, rfl⟩
  · obtain ⟨-, -, e, -, rfl⟩ := PropertyDecl.mem_storageRemarks_iff.mp hd
    exact absurd rfl hcode

end Declaration

/-! ## Reports of a code at a node -/

namespace Session

variable {s : Session} {code : DiagnosticCode} {node : Nat} {d : Diagnostic}

theorem mem_reportsAt_iff :
    d ∈ s.reportsAt code node ↔ d ∈ s.diagnostics.toList ∧ d.code = code ∧ d.node = node := by
  unfold reportsAt reports
  rw [List.mem_filter, List.mem_filter, decide_eq_true_iff, decide_eq_true_iff, and_assoc]

theorem mem_fieldReports_iff
    (nodes : List Nat) :
    d ∈ s.fieldReports nodes ↔ d ∈ s.diagnostics.toList ∧ d.concernsField nodes = true :=
  List.mem_filter

/-- The only report that there can be has been made once, if there is a reason for it. -/
theorem reportsAt_eq_ite
    {p : Prop} [Decidable p] (hs : s.diagnostics.toList.Nodup)
    (h : ∀ d', d' ∈ s.reportsAt code node ↔ p ∧ d' = d) :
    s.reportsAt code node = if p then [d] else [] := by
  have hnodup : (s.reportsAt code node).Nodup := (hs.filter _).filter _
  split
  · rename_i hp
    refine List.perm_singleton.mp ((List.perm_ext_iff_of_nodup hnodup (List.nodup_singleton d)).mpr
      fun d' => (h d').trans ?_)
    rw [and_iff_right hp, List.mem_singleton]
  · rename_i hp
    exact List.eq_nil_iff_forall_not_mem.mpr fun d' hd' => hp ((h d').mp hd').1

/-- What the name of a field in a constructor means, and what is said there: an unresolved
reference if the class has no property of the name, and a misuse if the last one of it has no
backing field. -/
inductive JudgesField
    (s : Session) (sites : List PropertySite) (field : Option Nat) (a : FieldAccess) : Prop
  | missing (hsite : lastNamed? sites a.property = none) (hfield : field = none)
      (hmissing : s.reportsAt .unresolvedReference a.node = [.missingField a])
      (hmisuse : s.reportsAt .backingFieldMisuse a.node = [])
  | unstored {x : PropertySite} {p : Nat} (hsite : lastNamed? sites a.property = some x)
      (hfield : field = some p) (hdeclares : s.trace.declaration? x.node = some p)
      (hnames : s.descriptors.Names .propertySort a.property p)
      (hunstored : s.trace.hasBackingField p = false ∧ x.stored = false)
      (hmissing : s.reportsAt .unresolvedReference a.node = [])
      (hmisuse : s.reportsAt .backingFieldMisuse a.node = [.fieldMisuse a.node])
  | stored {x : PropertySite} {p : Nat} (hsite : lastNamed? sites a.property = some x)
      (hfield : field = some p) (hdeclares : s.trace.declaration? x.node = some p)
      (hnames : s.descriptors.Names .propertySort a.property p)
      (hstored : s.trace.hasBackingField p = true ∧ x.stored = true)
      (hmissing : s.reportsAt .unresolvedReference a.node = [])
      (hmisuse : s.reportsAt .backingFieldMisuse a.node = [])

/-- Why a property has a backing field: a parameter of a primary constructor declares it, or none
of its accessors has a body, or the body of an accessor refers to the field. -/
inductive StoresField (s : Session) (ds : List Declaration) (p : Nat) : Prop
  | parameter {head : ClassHead} {members : List Declaration} {parameters : List Parameter}
      {parameter : Parameter} (hclass : .classDecl head members ∈ Declaration.nestedIn ds)
      (hprimary : head.primaryConstructor = some parameters) (hparameter : parameter ∈ parameters)
      (hdeclares : s.trace.declaration? parameter.id = some p)
  | bodiless {decl : PropertyDecl} (hproperty : .propertyDecl decl ∈ Declaration.nestedIn ds)
      (hdeclares : s.trace.declaration? decl.id = some p)
      (hbodies : ∀ a ∈ decl.getter.toList ++ decl.setter.toList, a.body = none)
  | accessed {decl : PropertyDecl} {accessor : Accessor} {body : Expr} {node : Nat}
      (hproperty : .propertyDecl decl ∈ Declaration.nestedIn ds)
      (hdeclares : s.trace.declaration? decl.id = some p)
      (haccessor : accessor ∈ decl.getter.toList ++ decl.setter.toList)
      (hbody : accessor.body = some body)
      (haccess : ⟨node, s.descriptors.name p⟩ ∈ body.fieldAccesses)

/-- The property has a backing field if what declares it says so. -/
theorem storesField_iff
    {ds : List Declaration} (hnamed : ∀ x ∈ (Declaration.nestedIn ds).flatMap Declaration.sites,
      ∃ p, s.trace.declaration? x.node = some p ∧ s.descriptors.Names .propertySort x.name p)
    (p : Nat) : s.StoresField ds p ↔
      ∃ x ∈ (Declaration.nestedIn ds).flatMap Declaration.sites,
        x.stored = true ∧ s.trace.declaration? x.node = some p := by
  have hsite : ∀ decl : PropertyDecl, .propertyDecl decl ∈ Declaration.nestedIn ds →
      decl.site ∈ (Declaration.nestedIn ds).flatMap Declaration.sites := fun decl hdecl =>
    List.mem_flatMap.mpr ⟨_, hdecl, List.mem_singleton_self _⟩
  constructor
  · intro h
    cases h with
    | @parameter head members parameters parameter hclass hprimary hparameter hdeclares =>
        refine ⟨⟨parameter.id, parameter.name, true⟩, List.mem_flatMap.mpr ⟨_, hclass, ?_⟩, rfl,
          hdeclares⟩
        rw [Declaration.sites_of_classHead? (d := .classDecl head members) rfl]
        unfold ClassHead.sites
        rw [hprimary]
        exact List.mem_map_of_mem hparameter
    | @bodiless decl hproperty hdeclares hbodies =>
        exact ⟨decl.site, hsite decl hproperty, PropertyDecl.storesValue_iff.mpr (.inl hbodies),
          hdeclares⟩
    | @accessed decl accessor body node hproperty hdeclares haccessor hbody haccess =>
        obtain ⟨p', hp', hnames⟩ := hnamed decl.site (hsite decl hproperty)
        obtain rfl := Option.some.inj (hdeclares.symm.trans hp')
        rw [hnames.name_eq] at haccess
        exact ⟨decl.site, hsite decl hproperty,
          PropertyDecl.storesValue_iff.mpr (.inr ⟨accessor, haccessor, body, hbody, node, haccess⟩),
          hdeclares⟩
  · rintro ⟨x, hx, hstored, hdeclares⟩
    obtain ⟨p', hp', hnames⟩ := hnamed x hx
    obtain rfl := Option.some.inj (hdeclares.symm.trans hp')
    obtain ⟨d, hd, hx⟩ := List.mem_flatMap.mp hx
    rcases List.mem_append.mp hx with hx | hx
    · obtain ⟨head, hhead, hsite⟩ := List.mem_flatMap.mp hx
      obtain ⟨members, rfl⟩ :=
        Declaration.exists_members_of_classHead? (Option.mem_toList.mp hhead)
      obtain ⟨parameter, hparameter, rfl⟩ := List.mem_map.mp hsite
      cases hprimary : head.primaryConstructor with
      | none =>
          rw [hprimary] at hparameter
          cases hparameter
      | some parameters =>
          rw [hprimary] at hparameter
          exact .parameter hd hprimary hparameter hdeclares
    · obtain ⟨decl, hdecl, rfl⟩ := List.mem_map.mp hx
      rw [Declaration.eq_of_property? (Option.mem_toList.mp hdecl)] at hd
      rcases PropertyDecl.storesValue_iff.mp hstored with hbodies |
        ⟨accessor, haccessor, body, hbody, node, haccess⟩
      · exact .bodiless hd hdeclares hbodies
      · have hname : s.descriptors.name p = decl.name := hnames.name_eq
        rw [← hname] at haccess
        exact .accessed hd hdeclares haccessor hbody haccess

end Session

namespace PassState

variable {P : List (Option Declaration × Declaration)} {s : PassState}
  {q : Option Declaration × Declaration}

/-- What an analysis that ends without a fault has found out about backing fields, for declarations
that are given with what is around each. -/
structure Concluded (P : List (Option Declaration × Declaration)) (s : PassState) : Prop where
  nodup : s.diagnostics.toList.Nodup
  named : ∀ x ∈ P.flatMap fun q => q.2.sites, ∃ p, s.trace.declaration? x.node = some p ∧
    s.descriptors.Names .propertySort x.name p ∧ s.trace.hasBackingField p = x.stored
  hasBackingField_iff : ∀ p, s.trace.hasBackingField p = true ↔
    ∃ x ∈ P.flatMap fun q => q.2.sites, x.stored = true ∧ s.trace.declaration? x.node = some p
  propertiesOf_eq : ∀ q ∈ P, ∀ {head : ClassHead}, q.2.classHead? = some head →
    ∃ classId, s.trace.declaration? head.id = some classId ∧
      (s.tables.propertiesOf classId).map some = s.declared (Declaration.sitesAmong P head.id)
  mem_fieldReports_iff : ∀ d, d ∈ s.fieldReports (Declaration.plainNodesIn P) ↔
    ∃ q ∈ P, d ∈ Declaration.fieldRemarks P q

namespace Concluded

variable (hs : s.Concluded P) {d : Diagnostic}

include hs

/-- Initializers are refused where a property says so. -/
theorem mem_diagnostics_iff_of_initializerNotAllowed (hcode : d.code = .initializerNotAllowed) :
    d ∈ s.diagnostics.toList ↔
      ∃ decl, .propertyDecl decl ∈ P.map Prod.snd ∧ d ∈ decl.storageRemarks := by
  have hconcerns : d.concernsField (Declaration.plainNodesIn P) = true := by
    simp [Diagnostic.concernsField, hcode]
  have hreports := Session.mem_fieldReports_iff (s := s.toSession) (d := d)
    (Declaration.plainNodesIn P)
  rw [hs.mem_fieldReports_iff, and_iff_left hconcerns] at hreports
  rw [← hreports]
  constructor
  · rintro ⟨q, hq, hd⟩
    rcases Declaration.fieldRemarks_cases hd with ⟨a, -, rfl⟩ | ⟨head, decl, -, -, a, -, rfl⟩ |
      ⟨decl, hself, hd⟩
    · cases hcode
    · cases hcode
    · exact ⟨decl, List.mem_map.mpr ⟨q, hq, hself⟩, hd⟩
  · rintro ⟨decl, hdecl, hd⟩
    obtain ⟨q, hq, hself⟩ := List.mem_map.mp hdecl
    refine ⟨q, hq, ?_⟩
    unfold Declaration.fieldRemarks
    rw [hself]
    exact List.mem_append_right _ (List.mem_append_right _ hd)

/-- A declared property has a backing field if its declaration says so. -/
theorem storesValue_eq
    {decl : PropertyDecl} (hdecl : .propertyDecl decl ∈ P.map Prod.snd) :
    ∃ p, s.trace.declaration? decl.id = some p ∧ s.trace.hasBackingField p = decl.storesValue := by
  obtain ⟨q, hq, hself⟩ := List.mem_map.mp hdecl
  have hsite : decl.site ∈ q.2.sites := by
    rw [hself]
    exact List.mem_singleton_self _
  obtain ⟨p, hp, -, hstored⟩ := hs.named _ (Declaration.sites_subset hq hsite)
  exact ⟨p, hp, hstored⟩

/-- The initializer of an immutable property without a backing field is refused once. -/
theorem reportsAt_initializerNotAllowed
    {decl : PropertyDecl} (hdecl : .propertyDecl decl ∈ P.map Prod.snd)
    (hmutable : decl.mutable = false) {e : Expr} (he : decl.initializer = some e) {p : Nat}
    (hp : s.trace.declaration? decl.id = some p) (hunstored : s.trace.hasBackingField p = false) :
    s.reportsAt .initializerNotAllowed e.id = [.initializerRefused e.id] := by
  obtain ⟨p', hp', hstored⟩ := hs.storesValue_eq hdecl
  obtain rfl := Option.some.inj (hp.symm.trans hp')
  refine (Session.reportsAt_eq_ite hs.nodup fun d => ?_).trans (if_pos trivial)
  rw [Session.mem_reportsAt_iff, true_and]
  constructor
  · rintro ⟨hd, hcode, hnode⟩
    obtain ⟨decl', -, hd⟩ := (hs.mem_diagnostics_iff_of_initializerNotAllowed hcode).mp hd
    obtain ⟨-, -, e', -, rfl⟩ := PropertyDecl.mem_storageRemarks_iff.mp hd
    exact congrArg Diagnostic.initializerRefused hnode
  · rintro rfl
    refine ⟨(hs.mem_diagnostics_iff_of_initializerNotAllowed rfl).mpr ⟨decl, hdecl, ?_⟩, rfl, rfl⟩
    exact PropertyDecl.mem_storageRemarks_iff.mpr
      ⟨hmutable, hstored.symm.trans hunstored, e, he, rfl⟩

/-- A misuse is reported at a name in a constructor. -/
theorem exists_of_backingFieldMisuse
    (hd : d ∈ s.diagnostics.toList) (hcode : d.code = .backingFieldMisuse) :
    ∃ q ∈ P, ∃ head decl, q.1.bind Declaration.classHead? = some head ∧
      q.2 = .constructorDecl decl ∧ ∃ a ∈ decl.fieldAccesses, d = .fieldMisuse a.node := by
  have hconcerns : d.concernsField (Declaration.plainNodesIn P) = true := by
    simp [Diagnostic.concernsField, hcode]
  obtain ⟨q, hq, hd⟩ :=
    (hs.mem_fieldReports_iff d).mp ((Session.mem_fieldReports_iff _).mpr ⟨hd, hconcerns⟩)
  refine ⟨q, hq, ?_⟩
  rcases Declaration.fieldRemarks_cases hd with ⟨a, -, rfl⟩ | hd | ⟨decl, -, hd⟩
  · cases hcode
  · exact hd
  · obtain ⟨-, -, e, -, rfl⟩ := PropertyDecl.mem_storageRemarks_iff.mp hd
    cases hcode

section

variable (hdistinct : (P.flatMap fun q => q.2.ownNodes).Nodup) (hq : q ∈ P) {head : ClassHead}
  {decl : ConstructorDecl} (hclass : q.1.bind Declaration.classHead? = some head)
  (hself : q.2 = .constructorDecl decl) {a : FieldAccess} (ha : a ∈ decl.fieldAccesses)

include hdistinct hq hclass hself ha

/-- At the name of a field in a constructor nothing is said but what the properties of the class
give reason to. -/
theorem mem_reportsAt_iff
    {code : DiagnosticCode} (hcode : code = .unresolvedReference ∨ code = .backingFieldMisuse) :
    d ∈ s.reportsAt code a.node ↔ d.code = code ∧
      (lastNamed? (Declaration.sitesAmong P head.id) a.property = none ∧ d = .missingField a ∨
        ∃ x, lastNamed? (Declaration.sitesAmong P head.id) a.property = some x ∧
          x.stored = false ∧ d = .fieldMisuse a.node) := by
  have haccess : a ∈ q.2.fieldAccesses := by
    rw [hself]
    exact ha
  have hplain := Declaration.node_not_mem_plainNodesIn hdistinct hq haccess
  have hremarks := Declaration.fieldRemarks_of_constructor (P := P) hclass hself
  rw [Session.mem_reportsAt_iff]
  constructor
  · rintro ⟨hd, rfl, hnode⟩
    have hconcerns : d.concernsField (Declaration.plainNodesIn P) = true := by
      rcases hcode with hcode | hcode
      · simp [Diagnostic.concernsField, hcode, hnode, hplain]
      · simp [Diagnostic.concernsField, hcode]
    have hother : d.code ≠ .initializerNotAllowed := by
      rcases hcode with hcode | hcode
      · rw [hcode]
        decide
      · rw [hcode]
        decide
    obtain ⟨q', hq', hd⟩ :=
      (hs.mem_fieldReports_iff d).mp ((Session.mem_fieldReports_iff _).mpr ⟨hd, hconcerns⟩)
    obtain ⟨a', ha', hnode'⟩ := Declaration.exists_access_of_mem_fieldRemarks hd hother
    obtain ⟨rfl, -⟩ :=
      Declaration.eq_of_node_eq hdistinct hq hq' haccess ha' (hnode.symm.trans hnode')
    rw [hremarks] at hd
    obtain ⟨a', ha', hsaid⟩ := ConstructorDecl.mem_fieldRemarks_iff.mp hd
    have haccess' : a' ∈ q.2.fieldAccesses := by
      rw [hself]
      exact ha'
    have hnode' : d.node = a'.node := by
      rcases hsaid with ⟨-, rfl⟩ | ⟨x, -, -, rfl⟩
      · rfl
      · rfl
    obtain ⟨-, rfl⟩ :=
      Declaration.eq_of_node_eq hdistinct hq hq haccess haccess' (hnode.symm.trans hnode')
    exact ⟨rfl, hsaid⟩
  · rintro ⟨rfl, hsaid⟩
    have hd : d ∈ Declaration.fieldRemarks P q := by
      rw [hremarks]
      exact ConstructorDecl.mem_fieldRemarks_iff.mpr ⟨a, ha, hsaid⟩
    have hreport := (hs.mem_fieldReports_iff d).mpr ⟨q, hq, hd⟩
    refine ⟨((Session.mem_fieldReports_iff _).mp hreport).1, rfl, ?_⟩
    rcases hsaid with ⟨-, rfl⟩ | ⟨x, -, -, rfl⟩
    · rfl
    · rfl

theorem reportsAt_unresolvedReference :
    s.reportsAt .unresolvedReference a.node =
      if (lastNamed? (Declaration.sitesAmong P head.id) a.property).isNone then [.missingField a]
      else [] := by
  refine Session.reportsAt_eq_ite hs.nodup fun d => ?_
  rw [hs.mem_reportsAt_iff hdistinct hq hclass hself ha (.inl rfl), Option.isNone_iff_eq_none]
  constructor
  · rintro ⟨hcode, hmissing | ⟨x, -, -, rfl⟩⟩
    · exact hmissing
    · cases hcode
  · rintro ⟨hnone, rfl⟩
    exact ⟨rfl, .inl ⟨hnone, rfl⟩⟩

theorem reportsAt_backingFieldMisuse :
    s.reportsAt .backingFieldMisuse a.node =
      if (lastNamed? (Declaration.sitesAmong P head.id) a.property).any fun x => !x.stored then
        [.fieldMisuse a.node]
      else [] := by
  refine Session.reportsAt_eq_ite hs.nodup fun d => ?_
  rw [hs.mem_reportsAt_iff hdistinct hq hclass hself ha (.inr rfl), Option.any_eq_true]
  constructor
  · rintro ⟨hcode, ⟨-, rfl⟩ | ⟨x, hx, hstored, rfl⟩⟩
    · cases hcode
    · exact ⟨⟨x, hx, congrArg not hstored⟩, rfl⟩
  · rintro ⟨⟨x, hx, hstored⟩, rfl⟩
    exact ⟨rfl, .inr ⟨x, hx, (Bool.not_eq_true' _).mp hstored, rfl⟩⟩

/-- The name of a field in a constructor is judged by the properties of the class. -/
theorem judgesField
    {classId : Nat} (hlisted : (s.tables.propertiesOf classId).map some =
      s.declared (Declaration.sitesAmong P head.id)) :
    s.JudgesField (Declaration.sitesAmong P head.id) (s.fieldOf? classId a.property) a := by
  have hsites := Declaration.sitesAmong_subset (P := P) head.id
  have hfield := fieldOf?_eq_bind hlisted (fun x hx => by
    obtain ⟨p, hp, hnames, -⟩ := hs.named x (hsites hx)
    exact ⟨p, hp, hnames⟩) a.property
  have hmissing := hs.reportsAt_unresolvedReference hdistinct hq hclass hself ha
  have hmisuse := hs.reportsAt_backingFieldMisuse hdistinct hq hclass hself ha
  cases hlast : lastNamed? (Declaration.sitesAmong P head.id) a.property with
  | none =>
      rw [hlast] at hfield hmissing hmisuse
      exact .missing hlast hfield hmissing hmisuse
  | some x =>
      obtain ⟨hmem, hname⟩ := PropertySite.of_lastNamed? hlast
      obtain ⟨p, hp, hnames, hstored⟩ := hs.named x (hsites hmem)
      rw [hname] at hnames
      rw [hlast, Option.bind_some, hp] at hfield
      rw [hlast] at hmissing hmisuse
      rw [Option.any_some] at hmisuse
      cases hx : x.stored with
      | true =>
          rw [hx] at hmisuse
          exact .stored hlast hfield hp hnames ⟨hstored.trans hx, hx⟩ hmissing hmisuse
      | false =>
          rw [hx] at hmisuse
          exact .unstored hlast hfield hp hnames ⟨hstored.trans hx, hx⟩ hmissing hmisuse

end

end Concluded

/-- The last pass brings everything about backing fields to an end. -/
theorem Underway.concluded
    {inner : List Nat} {s₀ : PassState} (hs₀ : s₀.Poised P) (hi : s₀.Indexed P)
    (hdistinct : (P.flatMap fun q => q.2.ownNodes).Nodup)
    (hclosed : ∀ q ∈ P, ∀ e ∈ q.1, e ∈ P.map Prod.snd) (h : Underway inner s₀ s)
    (hreports : Session.Settles s₀.scopes.size (Declaration.plainNodesIn P) s₀.storedLater
      s₀.fieldLog s₀.toSession s.toSession)
    (hdeclares : Session.Settles s₀.scopes.size (P.flatMap fun q => q.2.plainNodes) s₀.storedLater
      s₀.fieldLog s₀.toSession s.toSession)
    (hnodup : s.diagnostics.toList.Nodup) : s.Concluded P := by
  have hsame : ∀ x ∈ P.flatMap fun q => q.2.sites,
      s.trace.declaration? x.node = s₀.trace.declaration? x.node := by
    intro x hx
    obtain ⟨q, hq, hx⟩ := List.mem_flatMap.mp hx
    exact hdeclares.declaration?_eq
      (Declaration.node_not_mem_plainNodes hdistinct hq (Declaration.node_mem_signatureNodes hx))
  have hstored : ∀ p, s.trace.hasBackingField p = s₀.stores p := hreports.hasBackingField_eq
  refine ⟨hnodup, fun x hx => ?_, fun p => ?_, fun q hq {head} hclass => ?_, fun d => ?_⟩
  · obtain ⟨p, hp, hnames⟩ := hi.named x hx
    exact ⟨p, (hsame x hx).trans hp, h.matures.descriptors.names hnames,
      (hstored p).trans (stores_eq hs₀ hi hx hp)⟩
  · rw [hstored, stores_iff hs₀ hi]
    refine exists_congr fun x => and_congr_right fun hx => and_congr_right fun _ => ?_
    rw [hsame x hx]
  · obtain ⟨members, hself⟩ := Declaration.exists_members_of_classHead? hclass
    have hnode : head.id ∈ q.2.signatureNodes := by
      rw [hself]
      exact List.mem_cons_self
    have hhead : head ∈ P.filterMap fun q => q.2.classHead? :=
      List.mem_filterMap.mpr ⟨q, hq, hclass⟩
    obtain ⟨classId, hentry⟩ := Session.exists_mem_listed hs₀.listed.classes_eq hhead
    have hdeclared := (Session.declaration?_of_mem_listed hs₀.listed.classes_eq hentry).2
    refine ⟨classId, ?_, ?_⟩
    · rw [hdeclares.declaration?_eq (Declaration.node_not_mem_plainNodes hdistinct hq hnode)]
      exact hdeclared
    · obtain ⟨ys, hys⟩ := h.reached
      rw [hys.advances.tables_eq, hi.propertiesOf_eq hentry]
      refine List.map_congr_left fun x hx => ?_
      exact (hsame x (Declaration.sitesAmong_subset head.id hx)).symm
  · rw [hreports.fieldReports_eq, hs₀.fieldReports_eq, List.nil_append,
      mem_fieldLog_iff hs₀ hi hclosed]

end PassState

namespace SourceFile

open Declaration (enclosedIn nestedIn)

theorem Obtained.nodup_ownNodes {file : SourceFile} (hfile : file.Obtained) :
    ((enclosedIn none file.declarations).flatMap fun q => q.2.ownNodes).Nodup := by
  obtain ⟨name, ds, rfl⟩ := hfile.exists_eq_ofDeclarations
  exact nodup_ownNodes_ofDeclarations name ds

/-- However a file is obtained, an analysis that ends without a fault brings everything about
backing fields to an end. -/
theorem Obtained.concluded
    {file : SourceFile} (hfile : file.Obtained) (options : AnalysisOptions) {s : PassState}
    (hrun : (Pass.allPasses options file.declarations).run.run Pass.initialState = (.ok (), s)) :
    s.Concluded (enclosedIn none file.declarations) := by
  obtain ⟨name, ds, rfl⟩ := hfile.exists_eq_ofDeclarations
  have hnodes : (Declaration.nodesOf (SourceFile.ofDeclarations name ds).declarations).Nodup :=
    (pairwise_nodes_ofDeclarations name ds).imp Nat.ne_of_lt
  have hdistinct := nodup_ownNodes_ofDeclarations name ds
  have hnodup : s.diagnostics.toList.Nodup := by
    have hposts := posts_analyze name ds options
    rw [session_analyze, hrun] at hposts
    have hplaces := (spread_places_ofDeclarations name ds).nodup
    exact (hposts.nodup_content rfl Pass.balanced_initialState hplaces).of_map _
  rw [Pass.allPasses_eq] at hrun
  obtain ⟨_, s₀, hbefore, hlast⟩ := exists_run_of_bind hrun
  have hs₀ := (Pass.afterOr_declarationPasses_poised options hnodes).of_run_eq hbefore
  have hi := (Pass.afterOr_declarationPasses_indexed options hnodes).of_run_eq hbefore
  have hreports := (Pass.afterOr_resolveBodies_storage options hs₀ hi
    (Declaration.separates_plainNodesIn hdistinct) (List.Subset.refl _)).of_run_eq hlast
  have hdeclares := (Pass.afterOr_resolveBodies_storage options hs₀ hi
    (Declaration.separates_plainNodes hdistinct) (List.Subset.refl _)).of_run_eq hlast
  exact hreports.1.concluded hs₀ hi hdistinct
    (fun q hq d hd => Declaration.mem_map_snd_of_mem_around hq hd) hreports.2 hdeclares.2 hnodup

/-- Backing fields are characterised by the tree. When an analysis ends without a fault, every
parameter of a primary constructor and every property declaration declares a property of its name.
A property has a backing field if and only if a parameter declares it, none of its accessors has a
body, or the body of an accessor refers to the field where it is typed. The initializer of an
immutable property without backing field is refused once, and no other initializer is refused. -/
theorem backing_fields_characterised
    {file : SourceFile} (hfile : file.Obtained) (options : AnalysisOptions) {s : PassState}
    (hrun : (Pass.allPasses options file.declarations).run.run Pass.initialState = (.ok (), s)) :
    (∀ x ∈ (nestedIn file.declarations).flatMap Declaration.sites, ∃ p,
        s.trace.declaration? x.node = some p ∧ s.descriptors.Names .propertySort x.name p) ∧
      (∀ p, s.trace.hasBackingField p = true ↔ s.StoresField file.declarations p) ∧
        (∀ (decl : PropertyDecl) (e : Expr) (p : Nat),
          .propertyDecl decl ∈ nestedIn file.declarations → decl.mutable = false →
            decl.initializer = some e → s.trace.declaration? decl.id = some p →
              s.trace.hasBackingField p = false →
                s.reportsAt .initializerNotAllowed e.id = [.initializerRefused e.id]) ∧
          ∀ d ∈ s.diagnostics.toList, d.code = .initializerNotAllowed →
            ∃ (decl : PropertyDecl) (e : Expr) (p : Nat),
              .propertyDecl decl ∈ nestedIn file.declarations ∧ decl.mutable = false ∧
                decl.initializer = some e ∧ s.trace.declaration? decl.id = some p ∧
                  s.trace.hasBackingField p = false ∧ d = .initializerRefused e.id := by
  have hs := hfile.concluded options hrun
  have hsites : (nestedIn file.declarations).flatMap Declaration.sites =
      (enclosedIn none file.declarations).flatMap fun q => q.2.sites := by
    rw [← Declaration.map_snd_enclosedIn none, List.flatMap_map]
  have hnamed : ∀ x ∈ (nestedIn file.declarations).flatMap Declaration.sites, ∃ p,
      s.trace.declaration? x.node = some p ∧ s.descriptors.Names .propertySort x.name p := by
    intro x hx
    obtain ⟨p, hp, hnames, -⟩ := hs.named x (hsites ▸ hx)
    exact ⟨p, hp, hnames⟩
  rw [← Declaration.map_snd_enclosedIn none file.declarations] at hnamed ⊢
  refine ⟨hnamed, fun p => ?_, fun decl e p hdecl hmutable he hp hunstored => ?_,
    fun d hd hcode => ?_⟩
  · rw [Declaration.map_snd_enclosedIn] at hnamed
    rw [Session.storesField_iff hnamed, hsites, hs.hasBackingField_iff]
  · exact hs.reportsAt_initializerNotAllowed hdecl hmutable he hp hunstored
  · obtain ⟨decl, hdecl, hd⟩ := (hs.mem_diagnostics_iff_of_initializerNotAllowed hcode).mp hd
    obtain ⟨hmutable, hstores, e, he, rfl⟩ := PropertyDecl.mem_storageRemarks_iff.mp hd
    obtain ⟨p, hp, hstored⟩ := hs.storesValue_eq hdecl
    exact ⟨decl, e, p, hdecl, hmutable, he, hp, hstored.trans hstores, rfl⟩

/-- A class with three properties. The one of the parameter and the one that its getter refers to
are stored, and the one between them is not. A constructor in front of the latter two names a field
of each sort, and one that there is not. -/
def box : SourceFile :=
  ofDeclarations "box"
    [.classDecl
      { name := some "Box",
        primaryConstructor := some [{ name := "lid", typeRef := some { name := "Box" } }] }
      [.constructorDecl
        { body := some (.block 0 [.name 0 "$lid", .name 0 "$size", .name 0 "$hinge"]) },
       .propertyDecl
        { name := "size", initializer := some (.constant 0 (.int 1)),
          getter := some { body := some (.constant 0 (.int 2)) } },
       .propertyDecl
        { name := "shade", getter := some { body := some (.name 0 "$shade") } }]]

/-- The state in which that file has been analyzed. -/
def boxAnalyzed : PassState :=
  ((Pass.allPasses {} box.declarations).run.run Pass.initialState).2

set_option maxRecDepth 20000 in
theorem backing_fields_characterised_box :
    box.Obtained ∧
      (Pass.allPasses {} box.declarations).run.run Pass.initialState = (.ok (), boxAnalyzed) ∧
      (boxAnalyzed.trace.declaration? 9 = some 5 ∧
        boxAnalyzed.trace.hasBackingField 5 = false) ∧
        ¬ boxAnalyzed.StoresField box.declarations 5 ∧
          boxAnalyzed.StoresField box.declarations 7 ∧
            boxAnalyzed.reportsAt .initializerNotAllowed 10 = [.initializerRefused 10] := by
  have hok : ((Pass.allPasses {} box.declarations).run.run Pass.initialState).1 = .ok () := by
    decide +kernel
  have hrun : (Pass.allPasses {} box.declarations).run.run Pass.initialState =
      (.ok (), boxAnalyzed) := by
    unfold boxAnalyzed
    exact run_eq_of_fst_run hok
  have hfile : box.Obtained := .ofDeclarations ..
  have hsize : boxAnalyzed.trace.declaration? 9 = some 5 := by decide +kernel
  have hunstored : boxAnalyzed.trace.hasBackingField 5 = false := by decide +kernel
  have hstored : boxAnalyzed.trace.hasBackingField 7 = true := by decide +kernel
  obtain ⟨-, hfields, hrefused, -⟩ := backing_fields_characterised hfile {} hrun
  refine ⟨hfile, hrun, ⟨hsize, hunstored⟩, fun h => ?_, (hfields 7).mp hstored, ?_⟩
  · have hcontra := (hfields 5).mpr h
    rw [hunstored] at hcontra
    cases hcontra
  · exact hrefused _ (.constant 10 (.int 1)) 5 (.tail _ (.tail _ (.head _))) rfl rfl hsize hunstored

/-- The names of fields in constructors are judged by the properties of the class, which come from
the parameters of its primary constructor and then from its members. When an analysis ends without
a fault, a name that no property of the class has is reported once as unresolved. If the last
property of the name has no backing field in the end, a misuse is reported once. Otherwise neither
is reported; and no misuse is reported anywhere else. What is around the class, and in which order
things are declared there, does not matter. -/
theorem constructor_fields_judged
    {file : SourceFile} (hfile : file.Obtained) (options : AnalysisOptions) {s : PassState}
    (hrun : (Pass.allPasses options file.declarations).run.run Pass.initialState = (.ok (), s)) :
    (∀ (head : ClassHead) (members : List Declaration) (decl : ConstructorDecl),
        (some (.classDecl head members), .constructorDecl decl) ∈
            enclosedIn none file.declarations →
          ∃ classId, s.trace.declaration? head.id = some classId ∧
            (s.tables.propertiesOf classId).map some = s.declared (head.sitesWith members) ∧
              ∀ a ∈ decl.fieldAccesses,
                s.JudgesField (head.sitesWith members) (s.fieldOf? classId a.property) a) ∧
      ∀ d ∈ s.diagnostics.toList, d.code = .backingFieldMisuse →
        ∃ (head : ClassHead) (members : List Declaration) (decl : ConstructorDecl),
          (some (.classDecl head members), .constructorDecl decl) ∈
              enclosedIn none file.declarations ∧
            ∃ a ∈ decl.fieldAccesses, d = .fieldMisuse a.node := by
  have hs := hfile.concluded options hrun
  have hdistinct := hfile.nodup_ownNodes
  refine ⟨fun head members decl hq => ?_, fun d hd hcode => ?_⟩
  · have haround := Declaration.mem_map_snd_of_mem_around hq rfl
    obtain ⟨q, hq', hself⟩ := List.mem_map.mp haround
    have hclass : q.2.classHead? = some head := by
      rw [hself]
      rfl
    obtain ⟨classId, hclassId, hlisted⟩ := hs.propertiesOf_eq q hq' hclass
    have hsites : Declaration.sitesAmong (enclosedIn none file.declarations) head.id =
        head.sitesWith members := by
      apply Declaration.sitesAmong_eq
      · rwa [Declaration.flatMap_ownNodes_enclosedIn] at hdistinct
      · rwa [Declaration.map_snd_enclosedIn] at haround
    rw [← hsites]
    exact ⟨classId, hclassId, hlisted, fun a ha =>
      hs.judgesField hdistinct hq rfl rfl ha hlisted⟩
  · obtain ⟨q, hq, head, decl, hclass, hself, a, ha, rfl⟩ :=
      hs.exists_of_backingFieldMisuse hd hcode
    obtain ⟨members, haround⟩ := Declaration.exists_classDecl_of_classHead? hclass
    refine ⟨head, members, decl, ?_, a, ha, rfl⟩
    rw [← haround, ← hself]
    exact hq

set_option maxRecDepth 20000 in
theorem constructor_fields_judged_box :
    box.Obtained ∧
      (Pass.allPasses {} box.declarations).run.run Pass.initialState = (.ok (), boxAnalyzed) ∧
        boxAnalyzed.trace.declaration? 1 = some 0 ∧
          boxAnalyzed.reportsAt .unresolvedReference 8 = [.missingField ⟨8, "hinge"⟩] ∧
            boxAnalyzed.reportsAt .backingFieldMisuse 7 = [.fieldMisuse 7] := by
  have hok : ((Pass.allPasses {} box.declarations).run.run Pass.initialState).1 = .ok () := by
    decide +kernel
  have hrun : (Pass.allPasses {} box.declarations).run.run Pass.initialState =
      (.ok (), boxAnalyzed) := by
    unfold boxAnalyzed
    exact run_eq_of_fst_run hok
  have hfile : box.Obtained := .ofDeclarations ..
  have hclass : boxAnalyzed.trace.declaration? 1 = some 0 := by decide +kernel
  obtain ⟨hjudged, -⟩ := constructor_fields_judged hfile {} hrun
  obtain ⟨classId, hclassId, -, hjudges⟩ := hjudged _ _ _ (.tail _ (.head _))
  refine ⟨hfile, hrun, hclass, ?_, ?_⟩
  · cases hjudges ⟨8, "hinge"⟩ (.tail _ (.tail _ (.head _))) with
    | missing _ _ hmissing _ => exact hmissing
    | unstored hsite => cases hsite
    | stored hsite => cases hsite
  · cases hjudges ⟨7, "size"⟩ (.tail _ (.head _)) with
    | missing hsite => cases hsite
    | unstored _ _ _ _ _ _ hmisuse => exact hmisuse
    | stored hsite _ _ _ hstored =>
        obtain rfl := Option.some.inj hsite
        cases hstored.2

end SourceFile

end DeclAnalysis
