import Mathlib.Data.List.Perm.Basic
import DeclAnalysis.Proofs.Semantic.Kinds
import DeclAnalysis.Proofs.Semantic.Hierarchy
import DeclAnalysis.Proofs.Typing.ReturnTypes

/-!
# Joins of types

The join of two types is the one that the other is a subtype of, or else the greatest type. The
join of several types lies above all of them, for subtyping is transitive. It is one of them or the
greatest type, but which one may depend on their order: as soon as two unrelated types come one
after the other, the greatest type takes over, even if there is a common supertype later in the
list. This is the only way in which the order matters.
-/

namespace DeclAnalysis

namespace DescriptorTable

variable {t : DescriptorTable}

/-- No two different classes inherit from one another. -/
def HierarchyAcyclic (t : DescriptorTable) : Prop :=
  ∀ d e, t.InheritsFrom d e → t.InheritsFrom e d → d = e

/-- There are no cycles if every class names only classes that were declared before it. -/
theorem HierarchyAcyclic.of_lt (h : ∀ d e, t.DirectlyInherits d e → e < d) :
    t.HierarchyAcyclic := by
  have hle : ∀ d e, t.InheritsFrom d e → e ≤ d := by
    intro d e hinherits
    induction hinherits with
    | refl => exact Nat.le_refl d
    | tail _ hnames ih => exact (h _ _ hnames).le.trans ih
  exact fun d e hde hed => Nat.le_antisymm (hle e d hed) (hle d e hde)

/-- Without cycles two types of a table that are subtypes of one another are the same. -/
theorem isSubtype_antisymm
    (hacyclic : t.HierarchyAcyclic) {a b : Ty} (hwell : a.WellKinded t) (hwell' : b.WellKinded t)
    (ha : a.isError = false) (hb : b.isError = false) (hab : t.isSubtype a b = true)
    (hba : t.isSubtype b a = true) : a = b := by
  rw [isSubtype_eq_true_iff, ha, hb] at hab hba
  simp only [Bool.false_eq_true, false_or] at hab hba
  rcases hab with rfl | rfl | rfl | ⟨d, name, e, name', rfl, rfl, hde⟩
  · rfl
  · rcases hba with h | h | h | ⟨_, _, _, _, -, h, -⟩
    · exact h.symm
    · exact h.symm
    · cases h
    · cases h
  · rcases hba with h | h | h | ⟨_, _, _, _, h, -, -⟩
    · exact h.symm
    · cases h
    · exact h
    · cases h
  · have hed := (isSubtype_classType_iff e d name' name).mp ((isSubtype_eq_true_iff _ _).mpr
      (.inr (.inr hba)))
    rw [inherits_iff_of_lt_size d hwell'.lt_size] at hde
    rw [inherits_iff_of_lt_size e hwell.lt_size] at hed
    obtain rfl := hacyclic d e hde hed
    exact congrArg (Ty.classType d) (hwell.name_eq.symm.trans hwell'.name_eq)

/-! ## The join of two types -/

theorem isSubtype_join_left (t : DescriptorTable) (a b : Ty) :
    t.isSubtype a (t.join a b) = true := by
  unfold join
  split
  · assumption
  · split
    · exact t.isSubtype_refl a
    · exact t.isSubtype_any a

theorem isSubtype_join_right (t : DescriptorTable) (a b : Ty) :
    t.isSubtype b (t.join a b) = true := by
  unfold join
  split
  · exact t.isSubtype_refl b
  · split
    · assumption
    · exact t.isSubtype_any b

theorem join_cases (t : DescriptorTable) (a b : Ty) :
    t.join a b = a ∨ t.join a b = b ∨ t.join a b = .any := by
  unfold join
  split
  · exact .inr (.inl rfl)
  · split
    · exact .inl rfl
    · exact .inr (.inr rfl)

/-- The order of two types does not matter. -/
theorem join_comm
    (hacyclic : t.HierarchyAcyclic) {a b : Ty} (hwell : a.WellKinded t) (hwell' : b.WellKinded t)
    (ha : a.isError = false) (hb : b.isError = false) : t.join a b = t.join b a := by
  unfold join
  by_cases hab : t.isSubtype a b = true
  · by_cases hba : t.isSubtype b a = true
    · rw [if_pos hab, if_pos hba]
      exact isSubtype_antisymm hacyclic hwell' hwell hb ha hba hab
    · rw [if_pos hab, if_neg hba, if_pos hab]
  · by_cases hba : t.isSubtype b a = true
    · rw [if_neg hab, if_pos hba, if_pos hba]
    · rw [if_neg hab, if_neg hba, if_neg hba, if_neg hab]

end DescriptorTable

namespace Analysis

open DescriptorTable (isSubtype_join_left isSubtype_join_right isSubtype_trans isSubtype_antisymm)

variable {t : DescriptorTable} {types : List Ty}

/-! ## The join of several types -/

/-- The join of several types is one of them or the greatest type. -/
theorem joinAll_cases {type : Ty} (h : joinAll t types = some type) :
    type ∈ types ∨ type = .any := by
  cases types with
  | nil => cases h
  | cons first rest =>
      induction rest generalizing first with
      | nil => exact .inl (Option.some.inj h ▸ List.mem_cons_self)
      | cons next rest ih =>
          rcases ih (t.join first next) h with hmem | hany
          · rcases List.mem_cons.mp hmem with heq | hmem
            · rcases t.join_cases first next with hjoin | hjoin | hjoin
              · exact .inl (heq.trans hjoin ▸ List.mem_cons_self)
              · exact .inl (heq.trans hjoin ▸ List.mem_cons_of_mem _ List.mem_cons_self)
              · exact .inr (heq.trans hjoin)
            · exact .inl (List.mem_cons_of_mem _ (List.mem_cons_of_mem _ hmem))
          · exact .inr hany

theorem isError_joinAll
    (htypes : ∀ a ∈ types, a.isError = false) {type : Ty} (h : joinAll t types = some type) :
    type.isError = false := by
  rcases joinAll_cases h with hmem | rfl
  · exact htypes type hmem
  · rfl

/-- All of the types are subtypes of their join. -/
theorem isSubtype_joinAll
    (htypes : ∀ a ∈ types, a.isError = false) {type : Ty} (h : joinAll t types = some type) :
    ∀ a ∈ types, t.isSubtype a type = true := by
  cases types with
  | nil => cases h
  | cons first rest =>
      induction rest generalizing first with
      | nil =>
          obtain rfl := Option.some.inj h
          intro a ha
          obtain rfl := List.mem_singleton.mp ha
          exact t.isSubtype_refl a
      | cons next rest ih =>
          have hrest : ∀ a ∈ rest, a.isError = false := fun a ha =>
            htypes a (List.mem_cons_of_mem _ (List.mem_cons_of_mem _ ha))
          have hjoin : (t.join first next).isError = false := by
            rcases t.join_cases first next with hjoin | hjoin | hjoin
            · rw [hjoin]
              exact htypes first List.mem_cons_self
            · rw [hjoin]
              exact htypes next (List.mem_cons_of_mem _ List.mem_cons_self)
            · rw [hjoin]
              rfl
          have hall := ih (t.join first next) (List.forall_mem_cons.mpr ⟨hjoin, hrest⟩) h
          have habove := hall _ List.mem_cons_self
          intro a ha
          rcases List.mem_cons.mp ha with rfl | ha
          · exact isSubtype_trans hjoin (t.isSubtype_join_left _ next) habove
          · rcases List.mem_cons.mp ha with rfl | ha
            · exact isSubtype_trans hjoin (t.isSubtype_join_right first _) habove
            · exact hall a (List.mem_cons_of_mem _ ha)

/-! ## Return types -/

section ReturnTypes

variable (data : FlowData) (node n : Nat) (e : Expr) (scope : Nat) (s : Session)

/-- The return type of a body is the join of the types that are recorded for its return points once
the body has been typed. -/
theorem afterOk_inferReturnType :
    AfterOk (inferReturnType (.data (data.add node (e.number n))) scope node (some (e.number n))) s
      fun result s' => result = joinAll s'.descriptors
        (returnTypes s'.trace (FlowGraph.ofBody node (e.number n)).returned) := by
  unfold inferReturnType
  have hinfer : After (infer scope (e.number n)) s fun _ _ => True := trivial
  refine AfterOr.bind (AfterOr.lift hinfer) fun _ s₁ _ => ?_
  have hrun : AfterOk (returnPoints (.data (data.add node (e.number n))) node) s₁
      fun info _ => info = (FlowGraph.ofBody node (e.number n)).returned := by
    unfold AfterOk AfterOr After
    rw [run_returnPoints (FlowInformation.returned_add data node (e.number n)) s₁]
  refine AfterOr.bind hrun fun info s₂ hinfo => ?_
  subst hinfo
  exact (rfl : _ = joinAll s₂.descriptors _)

/-- The return type that is found for a body covers its return points, whatever the hierarchy is.
If no error type is recorded for a return point with a value, then the return type is no error type
either, the types that are recorded for these points are subtypes of it, and so is the unit type if
the body may end without a value. -/
theorem isSubtype_inferReturnType :
    ∃ result s',
      (inferReturnType (.data (data.add node (e.number n))) scope node (some (e.number n))).run.run s =
        (.ok result, s') ∧
      ∀ returnType, result = some returnType →
        (∀ x type, (e.number n).IsReturnPoint ⟨.read, x⟩ ∨ (e.number n).IsReturnPoint ⟨.readUnit, x⟩ →
          s'.trace.expressionType? x = some type → type.isError = false) →
        returnType.isError = false ∧
          (∀ x type,
            (e.number n).IsReturnPoint ⟨.read, x⟩ ∨ (e.number n).IsReturnPoint ⟨.readUnit, x⟩ →
            s'.trace.expressionType? x = some type →
              s'.descriptors.isSubtype type returnType = true) ∧
          ((∃ x, (e.number n).IsReturnPoint ⟨.write, x⟩ ∨
            (e.number n).IsReturnPoint ⟨.returnUnit, x⟩) →
              s'.descriptors.isSubtype .unit returnType = true) := by
  have hlists := FlowGraph.lists_returned_ofBody node n e
  have hjoin := afterOk_inferReturnType data node n e scope s
  unfold AfterOk AfterOr After at hjoin
  generalize (inferReturnType (.data (data.add node (e.number n))) scope node
    (some (e.number n))).run.run s = outcome at hjoin ⊢
  obtain ⟨fault | result, s'⟩ := outcome
  · exact hjoin.elim
  refine ⟨result, s', rfl, fun returnType hreturn hknown => ?_⟩
  have hresult := hjoin.symm.trans hreturn
  have htypes : ∀ type ∈ returnTypes s'.trace (FlowGraph.ofBody node (e.number n)).returned,
      type.isError = false := by
    intro type htype
    rcases List.mem_append.mp htype with htype | htype
    · obtain ⟨x, hx, hrecorded⟩ := List.mem_filterMap.mp htype
      exact hknown x type ((hlists.mem_expressions x).mp hx) hrecorded
    · split at htype
      · cases htype
      · rw [List.mem_singleton.mp htype]
        rfl
  have habove := isSubtype_joinAll htypes hresult
  refine ⟨isError_joinAll htypes hresult, fun x type hx hrecorded => ?_, fun ⟨x, hx⟩ => ?_⟩
  · refine habove type (List.mem_append_left _ (List.mem_filterMap.mpr ⟨x, ?_, hrecorded⟩))
    exact (hlists.mem_expressions x).mpr hx
  · have hunit := (hlists.mem_unitReturning x).mpr hx
    refine habove .unit (List.mem_append_right _ ?_)
    rw [if_neg (by simp [List.ne_nil_of_mem hunit])]
    exact List.mem_singleton_self _

end ReturnTypes

/-! ## The order of the types -/

/-- The greatest type swallows everything that is no error type. -/
theorem joinAll_any (htypes : ∀ a ∈ types, a.isError = false) :
    joinAll t (.any :: types) = some .any := by
  have htypes' : ∀ a ∈ Ty.any :: types, a.isError = false :=
    List.forall_mem_cons.mpr ⟨rfl, htypes⟩
  obtain ⟨type, htype⟩ := Option.isSome_iff_exists.mp
    (isSome_joinAll t (List.cons_ne_nil Ty.any types))
  have habove := isSubtype_joinAll htypes' htype .any List.mem_cons_self
  rw [DescriptorTable.isSubtype_eq_true_iff, isError_joinAll htypes' htype] at habove
  rw [htype]
  rcases habove with h | h | h | h | h | ⟨_, _, _, _, h, -, -⟩
  · cases h
  · cases h
  · rw [h]
  · cases h
  · rw [h]
  · cases h

/-- Two unrelated types at the beginning make the greatest type of the join. -/
theorem joinAll_of_unrelated
    {a b : Ty} (hab : t.isSubtype a b = false) (hba : t.isSubtype b a = false)
    (htypes : ∀ type ∈ types, type.isError = false) : joinAll t (a :: b :: types) = some .any := by
  have hjoin : t.join a b = .any := by simp [DescriptorTable.join, hab, hba]
  rw [← joinAll_any (t := t) htypes, ← hjoin]
  rfl

/-- If no two types are unrelated, their join is one of them. -/
theorem mem_of_joinAll_of_related
    (hrelated : ∀ a ∈ types, ∀ b ∈ types, t.isSubtype a b = true ∨ t.isSubtype b a = true)
    {type : Ty} (h : joinAll t types = some type) : type ∈ types := by
  cases types with
  | nil => cases h
  | cons first rest =>
      induction rest generalizing first with
      | nil => exact Option.some.inj h ▸ List.mem_cons_self
      | cons next rest ih =>
          have hjoin : t.join first next = first ∨ t.join first next = next := by
            rcases hrelated first List.mem_cons_self next
              (List.mem_cons_of_mem _ List.mem_cons_self) with hle | hle
            · exact .inr (if_pos hle)
            · by_cases hle' : t.isSubtype first next = true
              · exact .inr (if_pos hle')
              · exact .inl ((if_neg hle').trans (if_pos hle))
          have hsubset : t.join first next :: rest ⊆ first :: next :: rest := by
            rcases hjoin with hjoin | hjoin
            · rw [hjoin]
              exact List.cons_subset_cons first (List.subset_cons_self next rest)
            · rw [hjoin]
              exact List.subset_cons_self first (next :: rest)
          refine hsubset (ih (t.join first next) (fun a ha b hb => ?_) h)
          exact hrelated a (hsubset ha) b (hsubset hb)

section Order

variable (hacyclic : t.HierarchyAcyclic)
  (htypes : ∀ type ∈ types, type.WellKinded t ∧ type.isError = false)

include hacyclic htypes

/-- If the join is one of the types, it is the one above all others. -/
theorem eq_of_joinAll_of_above
    {m : Ty} (hm : m ∈ types) (habove : ∀ a ∈ types, t.isSubtype a m = true) {type : Ty}
    (hmem : type ∈ types) (h : joinAll t types = some type) : type = m := by
  obtain ⟨hwell, herror⟩ := htypes type hmem
  obtain ⟨hwell', herror'⟩ := htypes m hm
  have hmtype := isSubtype_joinAll (fun a ha => (htypes a ha).2) h m hm
  exact isSubtype_antisymm hacyclic hwell hwell' herror herror' (habove type hmem) hmtype

/-- A type above all others is the join if it comes first. -/
theorem joinAll_of_above
    {m : Ty} (hm : m.WellKinded t) (herror : m.isError = false)
    (habove : ∀ a ∈ types, t.isSubtype a m = true) : joinAll t (m :: types) = some m := by
  induction types with
  | nil => rfl
  | cons a rest ih =>
      obtain ⟨⟨hwell, herror'⟩, hrest⟩ := List.forall_mem_cons.mp htypes
      obtain ⟨ha, habove'⟩ := List.forall_mem_cons.mp habove
      have hjoin : t.join m a = m := by
        unfold DescriptorTable.join
        by_cases hle : t.isSubtype m a = true
        · rw [if_pos hle]
          exact isSubtype_antisymm hacyclic hwell hm herror' herror ha hle
        · rw [if_neg hle, if_pos ha]
      have hfirst : joinAll t (m :: a :: rest) = joinAll t (t.join m a :: rest) := rfl
      rw [hfirst, hjoin]
      exact ih hrest habove'

/-- The join does not depend on the order of the types if no two of them are unrelated. -/
theorem joinAll_perm_of_related
    (hrelated : ∀ a ∈ types, ∀ b ∈ types, t.isSubtype a b = true ∨ t.isSubtype b a = true)
    {types' : List Ty} (hperm : types'.Perm types) : joinAll t types' = joinAll t types := by
  cases hjoin : joinAll t types with
  | none =>
      cases types with
      | nil => rw [List.Perm.eq_nil hperm, hjoin]
      | cons => cases hjoin
  | some type =>
      have hmem := mem_of_joinAll_of_related hrelated hjoin
      obtain ⟨type', hjoin'⟩ := Option.isSome_iff_exists.mp
        (isSome_joinAll t (List.ne_nil_of_mem (hperm.mem_iff.mpr hmem)))
      have hmem' := mem_of_joinAll_of_related (fun a ha b hb =>
        hrelated a (hperm.mem_iff.mp ha) b (hperm.mem_iff.mp hb)) hjoin'
      have habove' := isSubtype_joinAll (fun a ha => (htypes a (hperm.mem_iff.mp ha)).2) hjoin'
      have heq := eq_of_joinAll_of_above hacyclic htypes (hperm.mem_iff.mp hmem')
        (fun a ha => habove' a (hperm.mem_iff.mpr ha)) hmem hjoin
      rw [hjoin', heq]

omit hacyclic in
/-- The join is the greatest type, in whatever order, if no other type is above all. -/
theorem joinAll_eq_any
    (hne : types ≠ [])
    (hnone : ∀ m ∈ types, m ≠ .any → ∃ a ∈ types, t.isSubtype a m = false) :
    joinAll t types = some .any := by
  obtain ⟨type, htype⟩ := Option.isSome_iff_exists.mp (isSome_joinAll t hne)
  rcases joinAll_cases htype with hmem | rfl
  · by_cases hany : type = .any
    · rw [htype, hany]
    · obtain ⟨a, ha, hunrelated⟩ := hnone type hmem hany
      have habove := isSubtype_joinAll (fun a ha => (htypes a ha).2) htype a ha
      rw [hunrelated] at habove
      cases habove
  · exact htype

/-- Two unrelated types and one above all others are enough for the order to matter. -/
theorem exists_perm_joinAll_ne
    {a b m : Ty} (ha : a ∈ types) (hb : b ∈ types) (hab : t.isSubtype a b = false)
    (hba : t.isSubtype b a = false) (hm : m ∈ types) (hany : m ≠ .any)
    (habove : ∀ type ∈ types, t.isSubtype type m = true) :
    ∃ types', types'.Perm types ∧ joinAll t types' ≠ joinAll t types := by
  have hne : b ≠ a := by
    rintro rfl
    rw [t.isSubtype_refl] at hab
    cases hab
  have hfirst : (m :: types.erase m).Perm types := (List.perm_cons_erase hm).symm
  have hb' : b ∈ types.erase a := (List.mem_erase_of_ne hne).mpr hb
  have hpair : (a :: b :: (types.erase a).erase b).Perm types :=
    (((List.perm_cons_erase hb').symm.cons a).trans (List.perm_cons_erase ha).symm)
  have hmjoin : joinAll t (m :: types.erase m) = some m :=
    joinAll_of_above hacyclic (fun type h => htypes type (List.mem_of_mem_erase h)) (htypes m hm).1
      (htypes m hm).2 fun type h => habove type (List.mem_of_mem_erase h)
  have hpjoin : joinAll t (a :: b :: (types.erase a).erase b) = some .any :=
    joinAll_of_unrelated hab hba fun type h =>
      (htypes type (List.mem_of_mem_erase (List.mem_of_mem_erase h))).2
  -- One of the two orders differs from the one that is given.
  by_cases hjoin : joinAll t types = some m
  · refine ⟨_, hpair, fun h => hany ?_⟩
    exact Option.some.inj ((hjoin.symm.trans h.symm).trans hpjoin)
  · exact ⟨_, hfirst, fun h => hjoin (h.symm.trans hmjoin)⟩

end Order

/-- Two classes with a common supertype. -/
def forked : DescriptorTable where
  entries := #[
    ⟨"Base", none, .classKind true ⟨2, 1, [], [], none⟩⟩,
    ⟨"Left", none, .classKind true ⟨3, 1, [.classType 0 "Base"], [], none⟩⟩,
    ⟨"Right", none, .classKind true ⟨4, 1, [.classType 0 "Base"], [], none⟩⟩]

theorem hierarchyAcyclic_forked : forked.HierarchyAcyclic := by
  refine .of_lt fun d e hnames => ?_
  match d with
  | 0 => exact absurd hnames List.not_mem_nil
  | 1 | 2 =>
      obtain rfl := List.mem_singleton.mp hnames
      decide
  | d + 3 =>
      have hmem : e ∈ forked.superclasses (d + 3) := hnames
      exact absurd hmem List.not_mem_nil

/-- The three classes, each under its name. -/
theorem wellKinded_forked :
    ∀ type ∈ [Ty.classType 1 "Left", .classType 2 "Right", .classType 0 "Base"],
      type.WellKinded forked ∧ type.isError = false := by
  have hnames : ∀ id name, id < forked.size → (forked.get id).kind.sort = .classSort →
      forked.name id = name → (Ty.classType id name).WellKinded forked :=
    fun id name hid hsort hname => ⟨⟨hid, hsort⟩, hname⟩
  intro type htype
  simp only [List.mem_cons, List.not_mem_nil, or_false] at htype
  rcases htype with rfl | rfl | rfl
  · exact ⟨hnames 1 _ (by decide) rfl rfl, rfl⟩
  · exact ⟨hnames 2 _ (by decide) rfl rfl, rfl⟩
  · exact ⟨hnames 0 _ (by decide) rfl rfl, rfl⟩

end Analysis

end DeclAnalysis
