import DeclAnalysis.Proofs.Semantic.Filling
import DeclAnalysis.Proofs.Semantic.Hierarchy
import DeclAnalysis.Proofs.Semantic.Kinds
import DeclAnalysis.Proofs.Semantic.Surroundings
import DeclAnalysis.Typing.Infer

/-!
# Overloads

A call names several candidates, of which the first one is selected that accepts the arguments.
Once the parameters of all candidates have types, this choice does not change any more: neither
what is added to a model nor what is filled in makes another candidate the first one.
-/

namespace DeclAnalysis

namespace DescriptorTable

/-! ## Accepted arguments -/

/-- A value of the first type may stand where the second one is expected: one of them is an error
type, the classes inherit, or an integer is widened. -/
def Convertible (t : DescriptorTable) (actual expected : Ty) : Prop :=
  actual.isError ∨ expected.isError ∨ t.Subtype actual expected ∨
    (actual = .int ∧ expected = .double)

/-- The candidate has as many parameters as there are arguments, and each argument of known type
is convertible to its parameter. -/
structure Accepts (t : DescriptorTable) (arguments : List (Option Ty)) (candidate : Nat) : Prop where
  length_eq : (t.parameterTypes candidate).length = arguments.length
  convertible : ∀ {expected actual : Ty},
    (expected, some actual) ∈ (t.parameterTypes candidate).zip arguments →
      t.Convertible actual expected

/-- The candidate accepts the arguments, and no candidate before it does. -/
structure Selects
    (t : DescriptorTable) (candidates : List Nat) (arguments : List (Option Ty)) (selected : Nat) :
    Prop where
  accepts : t.Accepts arguments selected
  first : ∃ before after, candidates = before ++ selected :: after ∧
    ∀ candidate ∈ before, ¬t.Accepts arguments candidate

variable {t t' t'' : DescriptorTable} {arguments : List (Option Ty)} {candidate id : Nat}

theorem isConvertible_iff (hclosed : t.HierarchyClosed) (actual expected : Ty) :
    t.isConvertible actual expected = true ↔ t.Convertible actual expected := by
  rw [isConvertible_eq_true_iff, isSubtype_iff hclosed, or_assoc, or_assoc]
  exact Iff.rfl

theorem accepts_iff (hclosed : t.HierarchyClosed) :
    Analysis.accepts t arguments candidate = true ↔ t.Accepts arguments candidate := by
  unfold Analysis.accepts
  simp only [Bool.and_eq_true, decide_eq_true_eq, List.all_eq_true, Prod.forall]
  constructor
  · rintro ⟨hlength, hall⟩
    refine ⟨hlength, fun {expected actual} hmem => ?_⟩
    have hactual := hall expected (some actual) hmem
    exact (isConvertible_iff hclosed actual expected).mp hactual
  · rintro ⟨hlength, hconvertible⟩
    refine ⟨hlength, fun expected actual hmem => ?_⟩
    cases actual with
    | none => rfl
    | some actual => exact (isConvertible_iff hclosed actual expected).mpr (hconvertible hmem)

theorem selects_of_find?_eq_some
    (hclosed : t.HierarchyClosed) {candidates : List Nat}
    (h : candidates.find? (Analysis.accepts t arguments) = some candidate) :
    t.Selects candidates arguments candidate := by
  obtain ⟨haccepts, before, after, hsplit, hbefore⟩ := List.find?_eq_some_iff_append.mp h
  refine ⟨(accepts_iff hclosed).mp haccepts, before, after, hsplit, fun earlier hearlier h => ?_⟩
  have hrefused := hbefore earlier hearlier
  rw [(accepts_iff hclosed).mpr h] at hrefused
  cases hrefused

/-! ## Signatures that are kept -/

theorem parameterTypes_eq_map (t : DescriptorTable) (id : Nat) :
    t.parameterTypes id = (t.parametersOf id).map fun p => (t.valueType? p).getD .any := by
  unfold parameterTypes parametersOf
  cases t.signature? id with
  | none => rfl
  | some s => rfl

theorem propertyData?_editSignature
    (t : DescriptorTable) (id id' : Nat) (f : Signature → Signature) :
    (t.editSignature id f).propertyData? id' = t.propertyData? id' := by
  unfold propertyData? editSignature
  rcases t.kind_modifyKind_cases id id' _ with heq | ⟨-, heq⟩
  · rw [heq]
  · rw [heq]
    cases (t.get id').kind <;> rfl

/-- The constructors of a class; nothing else has any. -/
def constructorsOf (t : DescriptorTable) (id : Nat) : List Nat :=
  (t.classData? id).elim [] ClassData.constructors

/-- A function or constructor whose parameters all have types. -/
structure Typed (t : DescriptorTable) (id : Nat) : Prop where
  signature? : (t.signature? id).isSome
  parameters : ∀ p ∈ t.parametersOf id, (t.valueType? p).isSome

/-- Classes, parameters and accessors are as they were, and no type that was known has changed. -/
structure KeepsSignatures (t t' : DescriptorTable) : Prop extends SameClassData t t' where
  parameters_eq : ∀ {id : Nat} {s : Signature}, t.signature? id = some s →
    ∃ s', t'.signature? id = some s' ∧ s'.parameters = s.parameters
  accessors_eq : ∀ {id : Nat} {data : PropertyData}, t.propertyData? id = some data →
    ∃ data', t'.propertyData? id = some data' ∧ data'.getter = data.getter ∧
      data'.setter = data.setter
  valueType?_eq : ∀ {id : Nat} {type : Ty}, t.valueType? id = some type →
    t'.valueType? id = some type

theorem Convertible.congr (h : t.SameClassData t') (actual expected : Ty) :
    t'.Convertible actual expected ↔ t.Convertible actual expected := by
  unfold Convertible
  rw [h.subtype_iff]

namespace KeepsSignatures

theorem refl (t : DescriptorTable) : t.KeepsSignatures t where
  toSameClassData := .refl t
  parameters_eq hs := ⟨_, hs, rfl⟩
  accessors_eq h := ⟨_, h, rfl, rfl⟩
  valueType?_eq h := h

theorem trans (h : t.KeepsSignatures t') (h' : t'.KeepsSignatures t'') : t.KeepsSignatures t'' where
  toSameClassData := h.toSameClassData.trans h'.toSameClassData
  parameters_eq hs := by
    obtain ⟨s', hs', hparameters⟩ := h.parameters_eq hs
    obtain ⟨s'', hs'', hparameters'⟩ := h'.parameters_eq hs'
    exact ⟨s'', hs'', hparameters'.trans hparameters⟩
  accessors_eq hdata := by
    obtain ⟨data', hdata', hgetter, hsetter⟩ := h.accessors_eq hdata
    obtain ⟨data'', hdata'', hgetter', hsetter'⟩ := h'.accessors_eq hdata'
    exact ⟨data'', hdata'', hgetter'.trans hgetter, hsetter'.trans hsetter⟩
  valueType?_eq hid := h'.valueType?_eq (h.valueType?_eq hid)

/-- Filling in types keeps signatures. -/
theorem of_fills (hfills : t.Fills t') (hclasses : t.SameClassData t') : t.KeepsSignatures t' where
  toSameClassData := hclasses
  parameters_eq hs := by
    obtain ⟨s', hs', hparameters, -⟩ := hfills.signature? hs
    exact ⟨s', hs', hparameters⟩
  accessors_eq hdata := by
    obtain ⟨data', hdata', hgetter, hsetter, -⟩ := hfills.propertyData? hdata
    exact ⟨data', hdata', hgetter, hsetter⟩
  valueType?_eq := hfills.valueType?_eq

theorem createVariable
    (t : DescriptorTable) (name : String) (container : Option Nat) (type : Ty) (mutable : Bool) :
    t.KeepsSignatures (t.create name container (.variableKind ⟨some type, mutable⟩)).2 := by
  have hcomplete : (DescriptorKind.variableKind ⟨some type, mutable⟩).Complete := rfl
  exact of_fills (Extends.create t name container hcomplete).fills (.create t name container rfl)

theorem fillPropertyType (t : DescriptorTable) (property : Nat) (type : Ty) :
    t.KeepsSignatures (t.fillPropertyType property type) :=
  of_fills (.fillPropertyType t property type) (.fillPropertyType t property type)

/-- Return types are not what signatures are selected by. -/
theorem setReturnType {type : Ty} (h : t.setReturnType id type = .ok t') :
    t.KeepsSignatures t' := by
  unfold DescriptorTable.setReturnType at h
  split at h
  · obtain rfl := Except.ok.inj h
    refine ⟨.editSignature t id _, fun {id' s} hs => ?_, fun {id' data} hdata => ?_,
      fun {id' type'} htype => ?_⟩
    · by_cases heq : id' = id
      · subst heq
        exact ⟨_, signature?_editSignature_self hs _, rfl⟩
      · refine ⟨s, ?_, rfl⟩
        unfold signature?
        rw [t.get_editSignature_of_ne heq]
        exact hs
    · refine ⟨data, ?_, rfl, rfl⟩
      rw [propertyData?_editSignature]
      exact hdata
    · rw [valueType?_editSignature]
      exact htype
  · cases h

variable (h : t.KeepsSignatures t')

include h

theorem constructorsOf_eq (id : Nat) : t'.constructorsOf id = t.constructorsOf id := by
  unfold constructorsOf
  rw [h.classData?_eq]

theorem parametersOf_eq (hid : (t.signature? id).isSome) : t'.parametersOf id = t.parametersOf id := by
  obtain ⟨s, hs⟩ := Option.isSome_iff_exists.mp hid
  obtain ⟨s', hs', hparameters⟩ := h.parameters_eq hs
  unfold parametersOf
  rw [hs, hs', Option.map_some, Option.map_some, hparameters]

theorem typed (hid : t.Typed id) : t'.Typed id where
  signature? := by
    obtain ⟨s, hs⟩ := Option.isSome_iff_exists.mp hid.signature?
    obtain ⟨s', hs', -⟩ := h.parameters_eq hs
    exact Option.isSome_of_eq_some hs'
  parameters p hp := by
    rw [h.parametersOf_eq hid.signature?] at hp
    obtain ⟨type, htype⟩ := Option.isSome_iff_exists.mp (hid.parameters p hp)
    exact Option.isSome_of_eq_some (h.valueType?_eq htype)

/-- The types of the parameters stay, once they are known. -/
theorem parameterTypes_eq (hid : t.Typed id) : t'.parameterTypes id = t.parameterTypes id := by
  have hparameters := h.parametersOf_eq hid.signature?
  rw [parameterTypes_eq_map, parameterTypes_eq_map, hparameters]
  refine List.map_congr_left fun p hp => ?_
  obtain ⟨type, htype⟩ := Option.isSome_iff_exists.mp (hid.parameters p hp)
  rw [htype, h.valueType?_eq htype]

theorem accepts_iff (hid : t.Typed candidate) :
    t'.Accepts arguments candidate ↔ t.Accepts arguments candidate := by
  have htypes := h.parameterTypes_eq hid
  constructor
  · rintro ⟨hlength, hconvertible⟩
    rw [htypes] at hlength
    refine ⟨hlength, fun {expected actual} hmem => ?_⟩
    rw [← htypes] at hmem
    exact (Convertible.congr h.toSameClassData actual expected).mp (hconvertible hmem)
  · rintro ⟨hlength, hconvertible⟩
    rw [← htypes] at hlength
    refine ⟨hlength, fun {expected actual} hmem => ?_⟩
    rw [htypes] at hmem
    exact (Convertible.congr h.toSameClassData actual expected).mpr (hconvertible hmem)

/-- What is selected among candidates with typed parameters stays selected. -/
theorem selects
    {candidates : List Nat} (htyped : ∀ candidate ∈ candidates, t.Typed candidate) {selected : Nat}
    (hselects : t.Selects candidates arguments selected) :
    t'.Selects candidates arguments selected := by
  obtain ⟨haccepts, before, after, rfl, hbefore⟩ := hselects
  have hselected : t.Typed selected :=
    htyped selected (List.mem_append_right before List.mem_cons_self)
  refine ⟨(h.accepts_iff hselected).mpr haccepts, before, after, rfl, fun candidate hmem hc => ?_⟩
  have hcandidate : t.Typed candidate := htyped candidate (List.mem_append_left _ hmem)
  exact hbefore candidate hmem ((h.accepts_iff hcandidate).mp hc)

end KeepsSignatures

end DescriptorTable

/-! ## Candidates -/

/-- What a call of a name can mean in a scope: one of the functions of that name or, where there
are none, a constructor of the class of that name. -/
def Model.candidates (m : Model) (scope : Nat) (name : String) : List Nat :=
  match m.scopes.functions scope name with
  | [] => (m.scopes.classifier? scope name).elim [] m.descriptors.constructorsOf
  | function :: rest => function :: rest

/-- The names mean the candidates in a scope, and whatever can be called has typed parameters. -/
structure Model.Offers (m : Model) (scope : Nat) (named : String → List Nat) : Prop where
  ordered : m.scopes.Ordered
  closed : m.descriptors.HierarchyClosed
  lt_size : scope < m.scopes.size
  constructors : ∀ {id : Nat}, ∀ c ∈ m.descriptors.constructorsOf id, m.descriptors.Typed c
  candidates_eq : ∀ name : String, m.candidates scope name = named name
  typed : ∀ {name : String}, ∀ c ∈ named name, m.descriptors.Typed c

namespace Model.Offers

variable {m : Model} {scope scope' : Nat} {named : String → List Nat} (h : m.Offers scope named)

include h

/-- Descriptors may be added and filled in. -/
theorem of_descriptors {t : DescriptorTable} (ht : m.descriptors.KeepsSignatures t) :
    { m with descriptors := t }.Offers scope named where
  ordered := h.ordered
  closed := ht.hierarchyClosed h.closed
  lt_size := h.lt_size
  constructors {id} c hc := by
    rw [ht.constructorsOf_eq] at hc
    exact ht.typed (h.constructors c hc)
  candidates_eq name := by
    have hconstructors : t.constructorsOf = m.descriptors.constructorsOf :=
      funext ht.constructorsOf_eq
    refine Eq.trans ?_ (h.candidates_eq name)
    unfold candidates
    dsimp only
    rw [hconstructors]
  typed c hc := ht.typed (h.typed c hc)

/-- Scopes may be added, as long as no function or class is bound. -/
theorem of_nests
    {t : ScopeTree} (hnests : m.scopes.Nests t) (hordered : t.Ordered)
    (hfunctions : ∀ id, (t.get id).bindings.functions = (m.scopes.get id).bindings.functions) :
    { m with scopes := t }.Offers scope named where
  ordered := hordered
  closed := h.closed
  lt_size := h.lt_size.trans_le hnests.size_le
  constructors := h.constructors
  candidates_eq name := by
    have hclassifier : t.classifier? scope name = m.scopes.classifier? scope name :=
      hnests.lookup?_eq (fun id => hnests.pick_eq (ScopeTree.picksTypes_classifiers name) id)
        h.ordered hordered h.lt_size
    have hlookup : t.lookup? (·.functions[name]?) scope =
        m.scopes.lookup? (·.functions[name]?) scope :=
      hnests.lookup?_eq (fun id => congrArg (fun functions => functions[name]?) (hfunctions id))
        h.ordered hordered h.lt_size
    refine Eq.trans ?_ (h.candidates_eq name)
    unfold candidates ScopeTree.functions
    dsimp only
    rw [hclassifier, hlookup]
  typed := h.typed

theorem bind
    (scope' : Nat) {f : Bindings → Bindings} (hclassifiers : ∀ b, (f b).classifiers = b.classifiers)
    (hnamespaces : ∀ b, (f b).namespaces = b.namespaces)
    (hfunctions : ∀ b, (f b).functions = b.functions) :
    { m with scopes := m.scopes.bind scope' f }.Offers scope named := by
  refine h.of_nests (.bind scope' hclassifiers hnamespaces) (h.ordered.bind scope' f) fun id => ?_
  rcases m.scopes.get_bind_cases scope' id f with heq | ⟨-, heq⟩
  · rw [heq]
  · rw [heq]
    exact hfunctions _

/-- A new scope is offered what its surroundings are offered. -/
theorem create (kind : ScopeKind) (owner : Option Nat) :
    { m with scopes := (m.scopes.create kind (some scope) owner).2 }.Offers m.scopes.size named ∧
      ∀ {scope' : Nat} {named' : String → List Nat}, m.Offers scope' named' →
        { m with scopes := (m.scopes.create kind (some scope) owner).2 }.Offers scope' named' := by
  have hne : some scope ≠ some m.scopes.size := fun heq => h.lt_size.ne (Option.some.inj heq)
  have hordered : (m.scopes.create kind (some scope) owner).2.Ordered := by
    refine h.ordered.create ?_ kind owner
    rintro _ ⟨⟩
    exact h.lt_size
  have hfunctions : ∀ id, ((m.scopes.create kind (some scope) owner).2.get id).bindings.functions =
      (m.scopes.get id).bindings.functions := by
    intro id
    by_cases hid : id = m.scopes.size
    · subst hid
      rw [m.scopes.get_create_size hne, m.scopes.get_of_size_le le_rfl]
    · obtain ⟨children, hget⟩ := m.scopes.get_create_of_ne hid kind (some scope) owner
      rw [hget]
  have hkept : ∀ {scope' : Nat} {named' : String → List Nat}, m.Offers scope' named' →
      { m with scopes := (m.scopes.create kind (some scope) owner).2 }.Offers scope' named' :=
    fun h' => h'.of_nests (.create hne kind owner) hordered hfunctions
  refine ⟨{ hkept h with lt_size := ?_, candidates_eq := fun name => ?_ }, hkept⟩
  · rw [ScopeTree.size_create]
    exact Nat.lt_succ_self _
  · refine Eq.trans ?_ ((hkept h).candidates_eq name)
    have hget := m.scopes.get_create_size hne kind owner
    have hinner : ∀ {α : Type} (pick : Bindings → Option α), pick {} = none →
        (m.scopes.create kind (some scope) owner).2.lookup? pick m.scopes.size =
          (m.scopes.create kind (some scope) owner).2.lookup? pick scope := by
      intro α pick hpick
      refine hordered.lookup?_inner ?_ ?_ ?_ ?_
      all_goals rw [hget]
      exact hpick
    unfold candidates ScopeTree.functions ScopeTree.classifier?
    dsimp only
    rw [hinner (·.functions[name]?) Std.TreeMap.getElem?_emptyc,
      hinner (·.classifiers[name]?) Std.TreeMap.getElem?_emptyc]

end Model.Offers

end DeclAnalysis
