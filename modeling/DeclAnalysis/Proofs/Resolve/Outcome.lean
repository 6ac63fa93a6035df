import DeclAnalysis.Proofs.Resolve.Faults

/-!
# The outcome of an analysis

The outcome of an analysis is decided by syntax alone: which construct stops it, if any, is
read off the tree.
-/

namespace DeclAnalysis

namespace SourceFile

/-- The file contains, at any nesting, a construct that is not handled. Of an import
directive, that it is made from the root namespace comes first. -/
inductive Unhandled (file : SourceFile) : Nat → Construct → Prop
  | typedef
      {id : Nat} {name : Option String}
      (hd : .typedefDecl id name ∈ Declaration.nestedIn file.declarations) :
      Unhandled file id .typedef
  | extension
      {id : Nat} {name : Option String}
      (hd : .extensionDecl id name ∈ Declaration.nestedIn file.declarations) :
      Unhandled file id .extension
  | importFromRoot
      {head : NamespaceHead} {members : List Declaration} {i : ImportDirective}
      (hd : .namespaceDecl head members ∈ Declaration.nestedIn file.declarations)
      (hi : i ∈ head.imports) (habsolute : i.absoluteInRoot = true) :
      Unhandled file i.id .importFromRoot
  | singleNameImport
      {head : NamespaceHead} {members : List Declaration} {i : ImportDirective}
      (hd : .namespaceDecl head members ∈ Declaration.nestedIn file.declarations)
      (hi : i ∈ head.imports) (habsolute : i.absoluteInRoot = false)
      (hall : i.allUnder = false) :
      Unhandled file i.id .singleNameImport

/-- The delegation list of some class of the file calls the own constructor. -/
def CallsThisInClass (file : SourceFile) (id : Nat) : Prop :=
  ∃ head members arguments,
    .classDecl head members ∈ Declaration.nestedIn file.declarations ∧
      .thisCall id arguments ∈ head.delegationSpecifiers

end SourceFile

namespace Fault

/-- The number by which faults about nodes are ordered. -/
def position (fault : Fault) : Nat := fault.node?.getD 0

end Fault

/-! ## Faults in the order of the tree -/

section Order

variable {α β γ : Type}

theorem map_flatMap_sublist
    {f : α → List β} {g : α → List γ} {key : β → γ} (xs : List α)
    (h : ∀ x, ((f x).map key).Sublist (g x)) :
    ((xs.flatMap f).map key).Sublist (xs.flatMap g) := by
  induction xs with
  | nil => exact List.Sublist.refl []
  | cons x xs ih =>
      rw [List.flatMap_cons, List.map_append, List.flatMap_cons]
      exact (h x).append ih

/-- The first of several elements that are ordered by a key is the one with the least
key. -/
theorem head?_eq_some_iff_of_pairwise
    {key : α → Nat} {xs : List α} (h : (xs.map key).Pairwise (· < ·)) {a : α} :
    xs.head? = some a ↔ a ∈ xs ∧ ∀ b ∈ xs, key a ≤ key b := by
  cases xs with
  | nil => simp
  | cons x xs =>
      obtain ⟨hx, -⟩ := List.pairwise_cons.mp h
      have hlt : ∀ b ∈ xs, key x < key b := fun b hb => hx _ (List.mem_map_of_mem hb)
      rw [List.head?_cons, Option.some.injEq]
      constructor
      · rintro rfl
        refine ⟨List.mem_cons_self, fun b hb => ?_⟩
        rcases List.mem_cons.mp hb with rfl | hb
        · exact Nat.le_refl _
        · exact Nat.le_of_lt (hlt b hb)
      · rintro ⟨ha, hle⟩
        rcases List.mem_cons.mp ha with rfl | ha
        · rfl
        · exact absurd (hle x List.mem_cons_self) (Nat.not_le_of_lt (hlt a ha))

/-- The same where the elements are made from things of which something holds. -/
theorem head?_eq_some_iff_exists_least
    {ι : Type} {key : α → Nat} {xs : List α} (h : (xs.map key).Pairwise (· < ·)) {p : ι → Prop}
    {make : ι → α} (hmem : ∀ a, a ∈ xs ↔ ∃ i, p i ∧ a = make i) {a : α} :
    xs.head? = some a ↔
      ∃ i, a = make i ∧ p i ∧ ∀ i', p i' → key (make i) ≤ key (make i') := by
  rw [head?_eq_some_iff_of_pairwise h]
  constructor
  · rintro ⟨ha, hle⟩
    obtain ⟨i, hi, rfl⟩ := (hmem a).mp ha
    exact ⟨i, rfl, hi, fun i' hi' => hle _ ((hmem _).mpr ⟨i', hi', rfl⟩)⟩
  · rintro ⟨i, rfl, hi, hle⟩
    refine ⟨(hmem _).mpr ⟨i, hi, rfl⟩, fun other hother => ?_⟩
    obtain ⟨i', hi', rfl⟩ := (hmem other).mp hother
    exact hle i' hi'

end Order

theorem ImportDirective.position_unhandled_sublist (i : ImportDirective) :
    (i.unhandled.map Fault.position).Sublist i.nodes := by
  unfold unhandled
  split
  · exact (List.nil_sublist _).cons_cons i.id
  · split
    · exact (List.nil_sublist _).cons_cons i.id
    · exact List.nil_sublist _

theorem ImportDirective.mem_unhandled_iff (i : ImportDirective) {fault : Fault} :
    fault ∈ i.unhandled ↔
      (i.absoluteInRoot = true ∧ fault = .notImplemented i.id .importFromRoot) ∨
        (i.absoluteInRoot = false ∧ i.allUnder = false ∧
          fault = .notImplemented i.id .singleNameImport) := by
  unfold unhandled
  cases i.absoluteInRoot <;> cases i.allUnder <;> simp

theorem ClassHead.mem_thisCallFaults_iff (head : ClassHead) {fault : Fault} :
    fault ∈ head.thisCallFaults ↔
      ∃ id arguments, .thisCall id arguments ∈ head.delegationSpecifiers ∧
        fault = .at_ id .thisCallInClass := by
  unfold thisCallFaults
  rw [List.mem_flatMap]
  constructor
  · rintro ⟨specifier, hspecifier, hfault⟩
    cases specifier with
    | thisCall id arguments =>
        exact ⟨id, arguments, hspecifier, List.mem_singleton.mp hfault⟩
    | _ => exact absurd hfault List.not_mem_nil
  · rintro ⟨id, arguments, hspecifier, rfl⟩
    exact ⟨_, hspecifier, List.mem_singleton.mpr rfl⟩

theorem DelegationSpecifier.position_thisCall_sublist (specifier : DelegationSpecifier) :
    ((specifier.thisCall?.toList.map (Fault.at_ · .thisCallInClass)).map
      Fault.position).Sublist specifier.nodes := by
  cases specifier with
  | thisCall id arguments => exact (List.nil_sublist _).cons_cons id
  | _ => exact List.nil_sublist _

namespace Declaration

theorem position_unhandled_sublist (d : Declaration) :
    (d.unhandled.map Fault.position).Sublist d.ownNodes := by
  cases d with
  | namespaceDecl head members =>
      exact (map_flatMap_sublist _ ImportDirective.position_unhandled_sublist).cons head.id
  | typedefDecl id _ | extensionDecl id _ => exact List.Sublist.refl [id]
  | _ => exact List.nil_sublist _

theorem position_thisCallFaults_sublist (d : Declaration) :
    (d.thisCallFaults.map Fault.position).Sublist d.ownNodes := by
  cases d with
  | classDecl head members =>
      refine List.Sublist.cons head.id ?_
      refine List.Sublist.trans ?_ (List.sublist_append_right ..)
      exact map_flatMap_sublist _ DelegationSpecifier.position_thisCall_sublist
  | _ => exact List.nil_sublist _

end Declaration

/-! ## The fault of an analysis -/

namespace SourceFile

/-- An analysis stops at the first construct that is not handled or else at the first call of
the own constructor in the delegation list of a class. -/
theorem fault_analyze
    {file : SourceFile} (hnodup : (Declaration.nodesOf file.declarations).Nodup)
    (options : AnalysisOptions) :
    (file.analyze options).fault =
      (Pass.unhandledIn file.declarations ++ Pass.thisCallFaultsIn file.declarations).head? := by
  have h := Pass.stopsAtFirst_allPasses options hnodup
  unfold StopsAtFirst AfterOr After at h
  unfold analyze
  cases hrun : StateT.run (ExceptT.run (Pass.allPasses options file.declarations))
      Pass.initialState with
  | mk result state =>
      rw [hrun] at h
      cases result with
      | ok =>
          rw [h.1]
          rfl
      | error fault => exact h.symm

theorem mem_unhandledIn_iff (file : SourceFile) (fault : Fault) :
    fault ∈ Pass.unhandledIn file.declarations ↔
      ∃ id construct, file.Unhandled id construct ∧ fault = .notImplemented id construct := by
  unfold Pass.unhandledIn
  rw [List.mem_flatMap]
  constructor
  · rintro ⟨d, hd, hfault⟩
    cases d with
    | namespaceDecl head members =>
        obtain ⟨i, hi, hfault⟩ := List.mem_flatMap.mp hfault
        rcases i.mem_unhandled_iff.mp hfault with ⟨habsolute, rfl⟩ | ⟨habsolute, hall, rfl⟩
        · exact ⟨i.id, .importFromRoot, .importFromRoot hd hi habsolute, rfl⟩
        · exact ⟨i.id, .singleNameImport, .singleNameImport hd hi habsolute hall, rfl⟩
    | typedefDecl id name => exact ⟨id, .typedef, .typedef hd, List.mem_singleton.mp hfault⟩
    | extensionDecl id name =>
        exact ⟨id, .extension, .extension hd, List.mem_singleton.mp hfault⟩
    | _ => exact absurd hfault List.not_mem_nil
  · rintro ⟨id, construct, h, rfl⟩
    cases h with
    | typedef hd | «extension» hd => exact ⟨_, hd, List.mem_singleton.mpr rfl⟩
    | importFromRoot hd hi habsolute =>
        refine ⟨_, hd, List.mem_flatMap.mpr ⟨_, hi, ?_⟩⟩
        exact (ImportDirective.mem_unhandled_iff _).mpr (.inl ⟨habsolute, rfl⟩)
    | singleNameImport hd hi habsolute hall =>
        refine ⟨_, hd, List.mem_flatMap.mpr ⟨_, hi, ?_⟩⟩
        exact (ImportDirective.mem_unhandled_iff _).mpr (.inr ⟨habsolute, hall, rfl⟩)

theorem mem_thisCallFaultsIn_iff (file : SourceFile) (fault : Fault) :
    fault ∈ Pass.thisCallFaultsIn file.declarations ↔
      ∃ id, file.CallsThisInClass id ∧ fault = .at_ id .thisCallInClass := by
  unfold Pass.thisCallFaultsIn
  rw [List.mem_flatMap]
  constructor
  · rintro ⟨d, hd, hfault⟩
    cases d with
    | classDecl head members =>
        obtain ⟨id, arguments, hspecifier, rfl⟩ := head.mem_thisCallFaults_iff.mp hfault
        exact ⟨id, ⟨head, members, arguments, hd, hspecifier⟩, rfl⟩
    | _ => exact absurd hfault List.not_mem_nil
  · rintro ⟨id, ⟨head, members, arguments, hd, hspecifier⟩, rfl⟩
    exact ⟨_, hd, head.mem_thisCallFaults_iff.mpr ⟨id, arguments, hspecifier, rfl⟩⟩

/-- The nodes of a numbered file are in order. -/
theorem pairwise_nodes_ofDeclarations (name : String) (declarations : List Declaration) :
    (Declaration.nodesOf (ofDeclarations name declarations).declarations).Pairwise (· < ·) := by
  unfold ofDeclarations
  rw [Declaration.nodesOf_number]
  exact List.pairwise_lt_range' ..

theorem pairwise_position_unhandledIn (name : String) (declarations : List Declaration) :
    ((Pass.unhandledIn (ofDeclarations name declarations).declarations).map
      Fault.position).Pairwise (· < ·) := by
  have h := pairwise_nodes_ofDeclarations name declarations
  rw [← Declaration.flatMap_ownNodes_nestedIn] at h
  exact h.sublist (map_flatMap_sublist _ Declaration.position_unhandled_sublist)

theorem pairwise_position_thisCallFaultsIn (name : String) (declarations : List Declaration) :
    ((Pass.thisCallFaultsIn (ofDeclarations name declarations).declarations).map
      Fault.position).Pairwise (· < ·) := by
  have h := pairwise_nodes_ofDeclarations name declarations
  rw [← Declaration.flatMap_ownNodes_nestedIn] at h
  exact h.sublist (map_flatMap_sublist _ Declaration.position_thisCallFaults_sublist)

/-- The first construct that is not handled is the one with the least number. -/
theorem head?_unhandledIn_eq_iff
    (name : String) (declarations : List Declaration) (fault : Fault) :
    let file := ofDeclarations name declarations
    (Pass.unhandledIn file.declarations).head? = some fault ↔
      ∃ id construct, fault = .notImplemented id construct ∧ file.Unhandled id construct ∧
        ∀ id' construct', file.Unhandled id' construct' → id ≤ id' := by
  intro file
  have hmem : ∀ fault, fault ∈ Pass.unhandledIn file.declarations ↔
      ∃ i : Nat × Construct, file.Unhandled i.1 i.2 ∧ fault = .notImplemented i.1 i.2 := by
    intro fault
    rw [mem_unhandledIn_iff, Prod.exists]
  rw [head?_eq_some_iff_exists_least (pairwise_position_unhandledIn name declarations) hmem]
  simp only [Prod.exists, Prod.forall]
  rfl

/-- The first call of the own constructor is the one with the least number. -/
theorem head?_thisCallFaultsIn_eq_iff
    (name : String) (declarations : List Declaration) (fault : Fault) :
    let file := ofDeclarations name declarations
    (Pass.thisCallFaultsIn file.declarations).head? = some fault ↔
      ∃ id, fault = .at_ id .thisCallInClass ∧ file.CallsThisInClass id ∧
        ∀ id', file.CallsThisInClass id' → id ≤ id' := by
  intro file
  exact head?_eq_some_iff_exists_least (pairwise_position_thisCallFaultsIn name declarations)
    (mem_thisCallFaultsIn_iff file)

/-- A fault is that of the first construct that is not handled or, when there is none, that
of the first call of the own constructor. -/
theorem fault_analyze_eq_some_iff
    (name : String) (declarations : List Declaration) (options : AnalysisOptions)
    (fault : Fault) :
    let file := ofDeclarations name declarations
    (file.analyze options).fault = some fault ↔
      (Pass.unhandledIn file.declarations).head? = some fault ∨
        (∀ id construct, ¬file.Unhandled id construct) ∧
          (Pass.thisCallFaultsIn file.declarations).head? = some fault := by
  intro file
  have hnodup := (pairwise_nodes_ofDeclarations name declarations).imp Nat.ne_of_lt
  have hnone :
      Pass.unhandledIn file.declarations = [] ↔
        ∀ id construct, ¬file.Unhandled id construct := by
    rw [List.eq_nil_iff_forall_not_mem]
    constructor
    · intro h id construct hunhandled
      exact h _ ((mem_unhandledIn_iff file _).mpr ⟨id, construct, hunhandled, rfl⟩)
    · intro h other hother
      obtain ⟨id, construct, hunhandled, -⟩ := (mem_unhandledIn_iff file other).mp hother
      exact h id construct hunhandled
  rw [fault_analyze hnodup options, List.head?_append, Option.or_eq_some_iff,
    List.head?_eq_none_iff, hnone]

theorem isSome_fault_analyze_iff
    (name : String) (declarations : List Declaration) (options : AnalysisOptions) :
    let file := ofDeclarations name declarations
    (file.analyze options).fault.isSome ↔
      (∃ id construct, file.Unhandled id construct) ∨ ∃ id, file.CallsThisInClass id := by
  intro file
  have hnodup := (pairwise_nodes_ofDeclarations name declarations).imp Nat.ne_of_lt
  rw [fault_analyze hnodup options, List.isSome_head?]
  constructor
  · intro hne
    obtain ⟨f, hf⟩ := List.exists_mem_of_ne_nil _ hne
    rcases List.mem_append.mp hf with hf | hf
    · obtain ⟨id, construct, h, -⟩ := (mem_unhandledIn_iff file f).mp hf
      exact .inl ⟨id, construct, h⟩
    · obtain ⟨id, h, -⟩ := (mem_thisCallFaultsIn_iff file f).mp hf
      exact .inr ⟨id, h⟩
  · rintro (⟨id, construct, h⟩ | ⟨id, h⟩)
    · have hmem := (mem_unhandledIn_iff file _).mpr ⟨id, construct, h, rfl⟩
      exact List.ne_nil_of_mem (List.mem_append_left _ hmem)
    · have hmem := (mem_thisCallFaultsIn_iff file _).mpr ⟨id, h, rfl⟩
      exact List.ne_nil_of_mem (List.mem_append_right _ hmem)

/-- The outcome of an analysis is decided by syntax alone. An analysis stops with a fault just
if the file contains a construct that is not handled or a call of the own constructor in the
delegation list of a class. If there is a construct of the first kind, the fault is about the
one with the least number, otherwise about the call with the least number. There are no other
faults. -/
theorem fault_analyze_ofDeclarations
    (name : String) (declarations : List Declaration) (options : AnalysisOptions) :
    let file := ofDeclarations name declarations
    let fault := (file.analyze options).fault
    (fault.isSome ↔
      (∃ id construct, file.Unhandled id construct) ∨ ∃ id, file.CallsThisInClass id) ∧
    (∀ id construct, fault = some (.notImplemented id construct) ↔
      file.Unhandled id construct ∧
        ∀ id' construct', file.Unhandled id' construct' → id ≤ id') ∧
    (∀ id, fault = some (.at_ id .thisCallInClass) ↔
      (∀ id' construct', ¬file.Unhandled id' construct') ∧ file.CallsThisInClass id ∧
        ∀ id', file.CallsThisInClass id' → id ≤ id') ∧
    ∀ f, fault = some f →
      (∃ id construct, f = .notImplemented id construct) ∨ ∃ id, f = .at_ id .thisCallInClass := by
  intro file fault
  have hfault : ∀ f, fault = some f ↔ _ := fault_analyze_eq_some_iff name declarations options
  have hunhandled := head?_unhandledIn_eq_iff name declarations
  have hcalls := head?_thisCallFaultsIn_eq_iff name declarations
  refine ⟨?some, ?notImplemented, ?thisCall, ?others⟩
  case notImplemented =>
    intro id construct
    rw [hfault]
    constructor
    · rintro (h | ⟨-, h⟩)
      · obtain ⟨id', construct', heq, h⟩ := (hunhandled _).mp h
        cases heq
        exact h
      · obtain ⟨id', heq, -⟩ := (hcalls _).mp h
        cases heq
    · intro h
      exact .inl ((hunhandled _).mpr ⟨id, construct, rfl, h⟩)
  case thisCall =>
    intro id
    rw [hfault]
    constructor
    · rintro (h | ⟨hnone, h⟩)
      · obtain ⟨id', construct', heq, -⟩ := (hunhandled _).mp h
        cases heq
      · obtain ⟨id', heq, h⟩ := (hcalls _).mp h
        cases heq
        exact ⟨hnone, h⟩
    · rintro ⟨hnone, h⟩
      exact .inr ⟨hnone, (hcalls _).mpr ⟨id, rfl, h⟩⟩
  case others =>
    intro f hf
    rcases (hfault f).mp hf with h | ⟨-, h⟩
    · obtain ⟨id, construct, heq, -⟩ := (hunhandled f).mp h
      exact .inl ⟨id, construct, heq⟩
    · obtain ⟨id, heq, -⟩ := (hcalls f).mp h
      exact .inr ⟨id, heq⟩
  case some => exact isSome_fault_analyze_iff name declarations options

end SourceFile

end DeclAnalysis
