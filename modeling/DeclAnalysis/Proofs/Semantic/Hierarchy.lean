import Mathlib.Logic.Relation
import DeclAnalysis.Typing.Subtyping
import DeclAnalysis.Proofs.Marking
import DeclAnalysis.Proofs.Semantic.Filling
import DeclAnalysis.Proofs.Semantic.Lookup

/-!
# The class hierarchy

The supertypes that classes name make up a hierarchy, in which one class inherits from another if
a chain of supertypes leads from the one to the other. Types are subtypes of one another as the
hierarchy says. The search through the table comes to the same answer, unless one of the types is
an error type. Changes that leave all classes as they are leave the hierarchy alone.
-/

namespace DeclAnalysis

namespace DescriptorTable

variable {t t' : DescriptorTable} {d e : Nat}

/-- A class names another one as a supertype. -/
def DirectlyInherits (t : DescriptorTable) (d e : Nat) : Prop := e ∈ t.superclasses d

/-- A class is another one, or a chain of supertypes leads from it to the other one. -/
def InheritsFrom (t : DescriptorTable) : Nat → Nat → Prop := Relation.ReflTransGen t.DirectlyInherits

/-- One type is a subtype of another in the class hierarchy. -/
inductive Subtype (t : DescriptorTable) : Ty → Ty → Prop where
  | refl (type : Ty) : Subtype t type type
  | nothing (type : Ty) : Subtype t .nothing type
  | any (type : Ty) : Subtype t type .any
  | inherits {d e : Nat} (name name' : String) (h : t.InheritsFrom d e) :
      Subtype t (.classType d name) (.classType e name')

/-- All classes that are named as supertypes are in the table. -/
def HierarchyClosed (t : DescriptorTable) : Prop := ∀ d e, t.DirectlyInherits d e → e < t.size

/-! ## The search for a supertype -/

theorem DirectlyInherits.lt_size (h : t.DirectlyInherits d e) : d < t.size := by
  unfold DirectlyInherits superclasses at h
  split at h
  · rename_i data hdata
    exact lt_size_of_classData? (Option.isSome_of_eq_some hdata)
  · exact absurd h List.not_mem_nil

theorem InheritsFrom.reaches (h : t.InheritsFrom d e) (he : e < t.size) :
    (Marks.none t.size).Reaches t.superclasses d e := by
  have hfree : ∀ c, c < t.size → (Marks.none t.size).has c = false := by
    intro c hc
    rw [Marks.has_none]
    exact decide_eq_false (Nat.not_le_of_lt hc)
  induction h with
  | refl => exact .start (hfree d he)
  | tail _ hnames ih => exact .step (ih hnames.lt_size) hnames (hfree _ he)

theorem inheritsFrom_of_reaches {m : Marks} (h : m.Reaches t.superclasses d e) :
    t.InheritsFrom d e := by
  induction h with
  | start _ => exact .refl
  | step _ hnames _ ih => exact .tail ih hnames

/-- The search finds the classes of the table that a class inherits from. -/
theorem inherits_iff_of_lt_size (d : Nat) (he : e < t.size) :
    t.inherits d e = true ↔ t.InheritsFrom d e := by
  unfold inherits
  rw [Bool.or_eq_true, Bool.and_eq_true, decide_eq_true_iff, decide_eq_true_iff,
    Marks.has_collect_iff]
  constructor
  · rintro (rfl | ⟨-, hmarked | hreaches⟩)
    · exact .refl
    · rw [Marks.has_none, decide_eq_true_iff] at hmarked
      exact absurd he (Nat.not_lt_of_le hmarked)
    · exact inheritsFrom_of_reaches hreaches
  · exact fun h => .inr ⟨he, .inr (h.reaches he)⟩

/-- Nothing but itself is found to inherit from what is not in the table. -/
theorem inherits_iff_of_size_le (d : Nat) (he : t.size ≤ e) : t.inherits d e = true ↔ d = e := by
  simp [inherits, Nat.not_lt_of_le he]

/-- The search finds the classes that a class inherits from. -/
theorem inherits_iff (hclosed : t.HierarchyClosed) (d e : Nat) :
    t.inherits d e = true ↔ t.InheritsFrom d e := by
  rcases Nat.lt_or_ge e t.size with he | he
  · exact inherits_iff_of_lt_size d he
  · rw [inherits_iff_of_size_le d he]
    constructor
    · rintro rfl
      exact .refl
    · intro h
      rcases Relation.ReflTransGen.cases_tail h with heq | ⟨c, -, hnames⟩
      · exact heq.symm
      · exact absurd (hclosed c e hnames) (Nat.not_lt_of_le he)

/-- A type is found to be a subtype of another one if one of them is an error type, if they are
equal, and if the hierarchy or one of the outermost types makes it one. -/
theorem isSubtype_eq_true_iff (sub super : Ty) :
    t.isSubtype sub super = true ↔
      sub.isError = true ∨ super.isError = true ∨ sub = super ∨ sub = .nothing ∨ super = .any ∨
        ∃ d name e name', sub = .classType d name ∧ super = .classType e name' ∧
          t.inherits d e = true := by
  unfold isSubtype
  split
  · rename_i h
    simp only [Bool.or_eq_true, decide_eq_true_iff, or_assoc] at h
    refine iff_of_true rfl ?_
    rcases h with h | h | h
    · exact .inl h
    · exact .inr (.inl h)
    · exact .inr (.inr (.inl h))
  · rename_i h
    simp only [Bool.or_eq_true, decide_eq_true_iff, not_or] at h
    obtain ⟨⟨hsub, hsuper⟩, hne⟩ := h
    rw [or_iff_right hsub, or_iff_right hsuper, or_iff_right hne]
    split
    · exact iff_of_true rfl (.inl rfl)
    · exact iff_of_true rfl (.inr (.inl rfl))
    · simp
    · rename_i hnothing hany hclass
      refine iff_of_false Bool.false_ne_true ?_
      rintro (h | h | ⟨d, name, e, name', hd, he, -⟩)
      · exact hnothing h
      · exact hany h
      · exact hclass d name e name' hd he

/-- Nothing is found wrong about error types, and otherwise what the hierarchy says. -/
theorem isSubtype_iff (hclosed : t.HierarchyClosed) (sub super : Ty) :
    t.isSubtype sub super = true ↔
      sub.isError = true ∨ super.isError = true ∨ t.Subtype sub super := by
  rw [isSubtype_eq_true_iff]
  refine or_congr_right (or_congr_right ⟨?_, fun h => ?_⟩)
  · rintro (rfl | rfl | rfl | ⟨d, name, e, name', rfl, rfl, hinherits⟩)
    · exact .refl _
    · exact .nothing _
    · exact .any _
    · exact .inherits name name' ((inherits_iff hclosed d e).mp hinherits)
  · cases h with
    | refl => exact .inl rfl
    | nothing => exact .inr (.inl rfl)
    | any => exact .inr (.inr (.inl rfl))
    | inherits name name' h =>
        exact .inr (.inr (.inr ⟨_, name, _, name', rfl, rfl, (inherits_iff hclosed _ _).mpr h⟩))

/-! ## Tables with the same classes -/

/-- Descriptors have been added and changed, but neither namespaces nor classes. -/
structure SameClassData (t t' : DescriptorTable) : Prop extends SameClasses t t' where
  classData?_eq : ∀ id, t'.classData? id = t.classData? id

namespace SameClassData

theorem refl (t : DescriptorTable) : t.SameClassData t := ⟨.refl t, fun _ => rfl⟩

theorem trans {t'' : DescriptorTable} (h : t.SameClassData t') (h' : t'.SameClassData t'') :
    t.SameClassData t'' :=
  ⟨h.toSameClasses.trans h'.toSameClasses,
    fun id => (h'.classData?_eq id).trans (h.classData?_eq id)⟩

theorem create
    (t : DescriptorTable) (name : String) (container : Option Nat) {kind : DescriptorKind}
    (hkind : kind.memberScope? = none) : t.SameClassData (t.create name container kind).2 := by
  refine ⟨.create t name container hkind, fun id => ?_⟩
  unfold classData?
  by_cases hid : id = t.size
  · rw [hid, get_create_size]
    have hold : (t.get t.size).kind = .variableKind ⟨none, false⟩ := by simp [get, size]
    rw [hold]
    cases kind with
    | classKind finalized data => cases hkind
    | _ => rfl
  · rw [t.get_create_of_ne name container kind hid]

theorem editSignature (t : DescriptorTable) (id : Nat) (f : Signature → Signature) :
    t.SameClassData (t.editSignature id f) := by
  refine ⟨.editSignature t id f, fun id' => ?_⟩
  unfold classData? DescriptorTable.editSignature
  rcases t.kind_modifyKind_cases id id' _ with heq | ⟨-, heq⟩
  · rw [heq]
  · rw [heq]
    cases (t.get id').kind <;> rfl

theorem editProperty (t : DescriptorTable) (id : Nat) (f : PropertyData → PropertyData) :
    t.SameClassData (t.editProperty id f) := by
  refine ⟨.editProperty t id f, fun id' => ?_⟩
  unfold classData? DescriptorTable.editProperty
  rcases t.kind_modifyKind_cases id id' _ with heq | ⟨-, heq⟩
  · rw [heq]
  · rw [heq]
    cases (t.get id').kind <;> rfl

theorem editVariable (t : DescriptorTable) (id : Nat) (f : VariableData → VariableData) :
    t.SameClassData (t.editVariable id f) := by
  have hsame : t.SameClasses (t.editVariable id f) := by
    refine .modifyKind t id ?_ ?_
    · cases (t.get id).kind <;> rfl
    · cases (t.get id).kind <;> rfl
  refine ⟨hsame, fun id' => ?_⟩
  unfold classData? DescriptorTable.editVariable
  rcases t.kind_modifyKind_cases id id' _ with heq | ⟨-, heq⟩
  · rw [heq]
  · rw [heq]
    cases (t.get id').kind <;> rfl

theorem fillPropertyType (t : DescriptorTable) (property : Nat) (type : Ty) :
    t.SameClassData (t.fillPropertyType property type) := by
  refine fillPropertyType_steps (p := fun t' => t.SameClassData t') (.refl t)
    (fun t' h => ?_) (fun t' g h => ?_) fun t' v h => ?_
  · exact h.trans (editProperty t' property _)
  · exact h.trans (editSignature t' g _)
  · exact h.trans (editVariable t' v _)

variable (h : t.SameClassData t')

include h

theorem superclasses_eq (d : Nat) : t'.superclasses d = t.superclasses d := by
  unfold superclasses
  rw [h.classData?_eq]

theorem directlyInherits_eq : t'.DirectlyInherits = t.DirectlyInherits := by
  funext d e
  unfold DirectlyInherits
  rw [h.superclasses_eq]

theorem inheritsFrom_eq : t'.InheritsFrom = t.InheritsFrom := by
  unfold InheritsFrom
  rw [h.directlyInherits_eq]

theorem subtype_iff (sub super : Ty) : t'.Subtype sub super ↔ t.Subtype sub super := by
  constructor
  · intro hsubtype
    cases hsubtype with
    | refl => exact .refl _
    | nothing => exact .nothing _
    | any => exact .any _
    | inherits name name' hinherits => exact .inherits name name' (h.inheritsFrom_eq ▸ hinherits)
  · intro hsubtype
    cases hsubtype with
    | refl => exact .refl _
    | nothing => exact .nothing _
    | any => exact .any _
    | inherits name name' hinherits =>
        exact .inherits name name' (h.inheritsFrom_eq.symm ▸ hinherits)

theorem hierarchyClosed (hclosed : t.HierarchyClosed) : t'.HierarchyClosed := by
  intro d e hnames
  rw [h.directlyInherits_eq] at hnames
  exact (hclosed d e hnames).trans_le h.size_le

end SameClassData

end DescriptorTable

/-!
## The order of types

Subtyping is reflexive, and it is transitive unless the type in the middle is an error type. The
same holds of convertibility, although it is not only a matter of subtyping: what is a subtype of
the integers is one of the doubles' own, and only the greatest type lies above the doubles. None of
this needs a hierarchy without cycles.
-/

/-- The type has a name of its own, under which it is known everywhere. -/
def Ty.IsBuiltin (type : Ty) : Prop := ∃ name, Ty.builtin? name = some type

namespace Ty.IsBuiltin

variable {type : Ty} (h : type.IsBuiltin)

include h

theorem isError_eq_false : type.isError = false := by
  obtain ⟨name, hname⟩ := h
  unfold builtin? at hname
  split at hname <;> cases hname <;> rfl

theorem ne_classType (d : Nat) (name : String) : type ≠ .classType d name := by
  rintro rfl
  obtain ⟨name', hname⟩ := h
  unfold builtin? at hname
  split at hname <;> cases hname

end Ty.IsBuiltin

namespace DescriptorTable

variable {t : DescriptorTable} {a b c : Ty}

/-! ## Inheritance -/

theorem inherits_refl (t : DescriptorTable) (d : Nat) : t.inherits d d = true := by
  simp [inherits]

theorem inherits_trans
    {d e f : Nat} (hde : t.inherits d e = true) (hef : t.inherits e f = true) :
    t.inherits d f = true := by
  rcases Nat.lt_or_ge f t.size with hf | hf
  · rcases Nat.lt_or_ge e t.size with he | he
    · rw [inherits_iff_of_lt_size _ he] at hde
      rw [inherits_iff_of_lt_size _ hf] at hef ⊢
      exact hde.trans hef
    · obtain rfl := (inherits_iff_of_size_le d he).mp hde
      exact hef
  · obtain rfl := (inherits_iff_of_size_le e hf).mp hef
    exact hde

/-! ## Subtypes -/

theorem isSubtype_refl (t : DescriptorTable) (a : Ty) : t.isSubtype a a = true :=
  (isSubtype_eq_true_iff a a).mpr (.inr (.inr (.inl rfl)))

theorem nothing_isSubtype (t : DescriptorTable) (a : Ty) : t.isSubtype .nothing a = true :=
  (isSubtype_eq_true_iff _ a).mpr (.inr (.inr (.inr (.inl rfl))))

theorem isSubtype_any (t : DescriptorTable) (a : Ty) : t.isSubtype a .any = true :=
  (isSubtype_eq_true_iff a _).mpr (.inr (.inr (.inr (.inr (.inl rfl)))))

theorem isSubtype_classType_iff (d e : Nat) (name name' : String) :
    t.isSubtype (.classType d name) (.classType e name') = true ↔ t.inherits d e = true := by
  rw [isSubtype_eq_true_iff]
  constructor
  · rintro (h | h | h | h | h | ⟨_, _, _, _, hd, he, h⟩)
    · cases h
    · cases h
    · cases h
      exact t.inherits_refl d
    · cases h
    · cases h
    · cases hd
      cases he
      exact h
  · exact fun h => .inr (.inr (.inr (.inr (.inr ⟨d, name, e, name', rfl, rfl, h⟩))))

/-- What lies between two types relates them, unless it is an error type, which is compatible with
everything. -/
theorem isSubtype_trans
    (hb : b.isError = false) (hab : t.isSubtype a b = true) (hbc : t.isSubtype b c = true) :
    t.isSubtype a c = true := by
  rw [isSubtype_eq_true_iff, hb] at hab hbc
  simp only [Bool.false_eq_true, false_or] at hab hbc
  rcases hab with ha | rfl | rfl | rfl | ⟨d, name, e, name', rfl, rfl, hde⟩
  · exact (isSubtype_eq_true_iff a c).mpr (.inl ha)
  · exact (isSubtype_eq_true_iff a c).mpr (.inr hbc)
  · exact t.nothing_isSubtype c
  · rcases hbc with hc | rfl | h | rfl | ⟨d, name, e, name', h, -, -⟩
    · exact (isSubtype_eq_true_iff a c).mpr (.inr (.inl hc))
    · exact t.isSubtype_any a
    · cases h
    · exact t.isSubtype_any a
    · cases h
  · rcases hbc with hc | rfl | h | rfl | ⟨e', name'', f, name''', h, rfl, hef⟩
    · exact (isSubtype_eq_true_iff _ c).mpr (.inr (.inl hc))
    · exact (isSubtype_classType_iff d e name name').mpr hde
    · cases h
    · exact t.isSubtype_any _
    · cases h
      exact (isSubtype_classType_iff d f name name''').mpr (inherits_trans hde hef)

/-- Nothing but the least and the greatest type relates two builtin types. -/
theorem isSubtype_eq_false_of_isBuiltin
    (ha : a.IsBuiltin) (hb : b.IsBuiltin) (hne : a ≠ b) (hnothing : a ≠ .nothing) (hany : b ≠ .any) :
    t.isSubtype a b = false := by
  rw [Bool.eq_false_iff, ne_eq, isSubtype_eq_true_iff, ha.isError_eq_false, hb.isError_eq_false]
  rintro (h | h | h | h | h | ⟨d, name, _, _, h, -, -⟩)
  · cases h
  · cases h
  · exact hne h
  · exact hnothing h
  · exact hany h
  · exact ha.ne_classType d name h

/-! ## Conversions -/

theorem isConvertible_eq_true_iff (a b : Ty) :
    t.isConvertible a b = true ↔ t.isSubtype a b = true ∨ (a = .int ∧ b = .double) := by
  unfold isConvertible
  rw [Bool.or_eq_true]
  refine or_congr_right ?_
  split
  · simp
  · rename_i hwidens
    simp only [Bool.false_eq_true, false_iff, not_and]
    rintro rfl rfl
    exact hwidens rfl rfl

theorem isConvertible_of_isSubtype (h : t.isSubtype a b = true) : t.isConvertible a b = true :=
  (isConvertible_eq_true_iff a b).mpr (.inl h)

/-- Only the least type and error types are subtypes of a builtin type other than itself. -/
theorem eq_of_isSubtype_int (h : t.isSubtype a .int = true) :
    a.isError = true ∨ a = .int ∨ a = .nothing := by
  rw [isSubtype_eq_true_iff] at h
  rcases h with h | h | h | h | h | ⟨_, _, _, _, -, h, -⟩
  · exact .inl h
  · cases h
  · exact .inr (.inl h)
  · exact .inr (.inr h)
  · cases h
  · cases h

/-- Only the greatest type and error types lie above the doubles. -/
theorem eq_of_double_isSubtype (h : t.isSubtype .double a = true) :
    a.isError = true ∨ a = .double ∨ a = .any := by
  rw [isSubtype_eq_true_iff] at h
  rcases h with h | h | h | h | h | ⟨_, _, _, _, h, -, -⟩
  · cases h
  · exact .inl h
  · exact .inr (.inl h.symm)
  · cases h
  · exact .inr (.inr h)
  · cases h

theorem isConvertible_trans
    (hb : b.isError = false) (hab : t.isConvertible a b = true) (hbc : t.isConvertible b c = true) :
    t.isConvertible a c = true := by
  rw [isConvertible_eq_true_iff] at hab hbc
  rcases hab with hab | ⟨rfl, rfl⟩
  · rcases hbc with hbc | ⟨rfl, rfl⟩
    · exact isConvertible_of_isSubtype (isSubtype_trans hb hab hbc)
    · rcases eq_of_isSubtype_int hab with ha | rfl | rfl
      · exact isConvertible_of_isSubtype ((isSubtype_eq_true_iff a _).mpr (.inl ha))
      · exact (isConvertible_eq_true_iff _ _).mpr (.inr ⟨rfl, rfl⟩)
      · exact isConvertible_of_isSubtype (t.nothing_isSubtype _)
  · rcases hbc with hbc | ⟨h, -⟩
    · rcases eq_of_double_isSubtype hbc with hc | rfl | rfl
      · exact isConvertible_of_isSubtype ((isSubtype_eq_true_iff _ c).mpr (.inr (.inl hc)))
      · exact (isConvertible_eq_true_iff _ _).mpr (.inr ⟨rfl, rfl⟩)
      · exact isConvertible_of_isSubtype (t.isSubtype_any _)
    · cases h

/-! ## The order -/

/-- Whatever the supertypes of its classes are, a table orders types as follows. The search for a
class among the supertypes of another one is over after as many steps as there are descriptors. It
makes a class a subtype of a class of the table exactly if they are the same or a chain of
supertypes leads from the one to the other. Subtyping and convertibility are reflexive, and they are
transitive unless the type in the middle is an error type. The least type is below and the greatest
one above every type. Any other two builtin types are not related, except that integers can be
converted to doubles. -/
theorem isSubtype_iff_inheritsFrom_and_preorder (t : DescriptorTable) :
    (∀ d, d < t.size → ∀ steps, t.size < steps → ∀ e,
      (Marks.spread t.superclasses steps [d] ((Marks.none t.size).insert d)).has e =
        ((Marks.none t.size).collect t.superclasses d).has e) ∧
      (∀ d name e name', e < t.size →
        (t.isSubtype (.classType d name) (.classType e name') = true ↔ t.InheritsFrom d e)) ∧
      ((∀ a, t.isSubtype a a = true) ∧
        ∀ a b c, b.isError = false → t.isSubtype a b = true → t.isSubtype b c = true →
          t.isSubtype a c = true) ∧
      ((∀ a, t.isConvertible a a = true) ∧
        ∀ a b c, b.isError = false → t.isConvertible a b = true → t.isConvertible b c = true →
          t.isConvertible a c = true) ∧
      (∀ a, t.isSubtype .nothing a = true ∧ t.isSubtype a .any = true ∧
        t.isConvertible .nothing a = true ∧ t.isConvertible a .any = true) ∧
      ∀ a b : Ty, a.IsBuiltin → b.IsBuiltin → a ≠ b → a ≠ .nothing → b ≠ .any →
        t.isSubtype a b = false ∧ (t.isConvertible a b = true ↔ a = .int ∧ b = .double) := by
  refine ⟨fun d hd steps hsteps e => ?_, fun d name e name' he => ?_, ⟨t.isSubtype_refl, ?_⟩,
    ⟨fun a => isConvertible_of_isSubtype (t.isSubtype_refl a), ?_⟩, fun a => ?_, ?_⟩
  · have hfree : (Marks.none t.size).has d = false := by
      rw [Marks.has_none]
      exact decide_eq_false (Nat.not_le_of_lt hd)
    have hspread : _ ↔ _ ∨ (Marks.none t.size).Reaches t.superclasses d e :=
      Marks.has_spread_insert_iff hfree ((Marks.size_none t.size).symm ▸ hsteps) e
    exact Bool.eq_iff_iff.mpr (hspread.trans (Marks.has_collect_iff _ d _ e).symm)
  · rw [isSubtype_classType_iff, inherits_iff_of_lt_size d he]
  · exact fun a b c => isSubtype_trans
  · exact fun a b c => isConvertible_trans
  · exact ⟨t.nothing_isSubtype a, t.isSubtype_any a,
      isConvertible_of_isSubtype (t.nothing_isSubtype a),
      isConvertible_of_isSubtype (t.isSubtype_any a)⟩
  · intro a b ha hb hne hnothing hany
    have hunrelated := isSubtype_eq_false_of_isBuiltin (t := t) ha hb hne hnothing hany
    refine ⟨hunrelated, ?_⟩
    rw [isConvertible_eq_true_iff, hunrelated, or_iff_right Bool.false_ne_true]

end DescriptorTable

end DeclAnalysis
