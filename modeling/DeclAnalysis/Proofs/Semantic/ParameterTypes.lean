import DeclAnalysis.Proofs.Semantic.Filling
import DeclAnalysis.Proofs.Semantic.Growth
import DeclAnalysis.Proofs.Semantic.Kinds

/-!
# The types of parameters

While signatures are resolved, a parameter gets its type before it is attached to a function or
constructor. The one exception is what a setter takes, of which the type may be that of a property
and be found later.
-/

namespace DeclAnalysis

/-- The signature that a descriptor stands for. -/
def DescriptorKind.signature? : DescriptorKind → Option Signature
  | functionKind s | constructorKind s => some s
  | _ => none

/-- The type of a value that a descriptor stands for. -/
def DescriptorKind.valueType? : DescriptorKind → Option Ty
  | variableKind data => data.type
  | propertyKind data => data.type
  | _ => none

namespace DescriptorTable

/-- The parameters of everything that can be called have types, apart from those of setters. -/
def TypesParameters (t : DescriptorTable) : Prop :=
  ∀ {id : Nat} {s : Signature}, t.signature? id = some s →
    (t.get id).kind.sort ≠ .functionSort .setter → ∀ p ∈ s.parameters, (t.valueType? p).isSome

variable {t t' t'' : DescriptorTable}

theorem signature?_eq (t : DescriptorTable) (id : Nat) :
    t.signature? id = (t.get id).kind.signature? := by
  unfold signature? DescriptorKind.signature?
  cases (t.get id).kind <;> rfl

theorem valueType?_eq (t : DescriptorTable) (id : Nat) :
    t.valueType? id = (t.get id).kind.valueType? := by
  unfold valueType? DescriptorKind.valueType?
  cases (t.get id).kind <;> rfl

/-- Values have kept their types and functions and constructors their sorts, and the parameters have
types if they had types before. -/
structure Declares (t t' : DescriptorTable) : Prop where
  known : ∀ {id : Nat}, (t.valueType? id).isSome → (t'.valueType? id).isSome
  sort_eq : ∀ {id : Nat}, (t.signature? id).isSome →
    (t'.signature? id).isSome ∧ (t'.get id).kind.sort = (t.get id).kind.sort
  typed : t.TypesParameters → t'.TypesParameters

namespace Declares

theorem refl (t : DescriptorTable) : t.Declares t := ⟨id, fun hs => ⟨hs, rfl⟩, id⟩

theorem trans (h : t.Declares t') (h' : t'.Declares t'') : t.Declares t'' where
  known hid := h'.known (h.known hid)
  sort_eq hs := by
    obtain ⟨hs', hsort⟩ := h.sort_eq hs
    obtain ⟨hs'', hsort'⟩ := h'.sort_eq hs'
    exact ⟨hs'', hsort'.trans hsort⟩
  typed ht := h'.typed (h.typed ht)

/-- It is enough that the signatures and sorts stay. -/
theorem of_signatures
    (hknown : ∀ {id : Nat}, (t.valueType? id).isSome → (t'.valueType? id).isSome)
    (hsignature : ∀ id, t'.signature? id = t.signature? id)
    (hsort : ∀ id, (t'.get id).kind.sort = (t.get id).kind.sort) : t.Declares t' where
  known := hknown
  sort_eq {id} hs := ⟨(hsignature id).symm ▸ hs, hsort id⟩
  typed ht id s hs hplain p hp := by
    rw [hsignature] at hs
    rw [hsort] at hplain
    exact hknown (ht hs hplain p hp)

/-- A descriptor is added to which no parameters have been attached. -/
theorem create
    (t : DescriptorTable) (name : String) (container : Option Nat) {kind : DescriptorKind}
    (hkind : ∀ s, kind.signature? = some s → s.parameters = []) :
    t.Declares (t.create name container kind).2 := by
  have hkept : ∀ {id : Nat}, id < t.size → (t.create name container kind).2.get id = t.get id :=
    fun hid => t.get_create_of_ne name container kind hid.ne
  have hknown : ∀ {id : Nat}, (t.valueType? id).isSome →
      ((t.create name container kind).2.valueType? id).isSome := by
    intro id hid
    obtain ⟨type, htype⟩ := Option.isSome_iff_exists.mp hid
    rw [valueType?_eq, hkept (lt_size_of_valueType? htype), ← valueType?_eq]
    exact hid
  refine ⟨hknown, fun {id} hs => ?_, fun ht {id s} hs hplain p hp => ?_⟩
  · have hget := hkept (lt_size_of_signature? hs)
    rw [signature?_eq, hget, ← signature?_eq]
    exact ⟨hs, rfl⟩
  · rw [signature?_eq] at hs
    by_cases hid : id = t.size
    · subst hid
      rw [t.get_create_size] at hs
      rw [hkind s hs] at hp
      cases hp
    · rw [t.get_create_of_ne _ _ _ hid] at hs hplain
      rw [← signature?_eq] at hs
      exact hknown (ht hs hplain p hp)

theorem sort_modifyKind
    (t : DescriptorTable) (id id' : Nat) {f : DescriptorKind → DescriptorKind}
    (hsort : (f (t.get id).kind).sort = (t.get id).kind.sort) :
    ((t.modifyKind id f).get id').kind.sort = (t.get id').kind.sort := by
  rcases t.kind_modifyKind_cases id id' f with heq | ⟨rfl, heq⟩
  · rw [heq]
  · rw [heq, hsort]

/-- The kind of a descriptor changes in a way in which its sort, type and signature stay. -/
theorem modifyKind
    (t : DescriptorTable) (id : Nat) {f : DescriptorKind → DescriptorKind}
    (htype : ∀ kind, (f kind).valueType? = kind.valueType?)
    (hsignature : ∀ kind, (f kind).signature? = kind.signature?)
    (hsort : ∀ kind, (f kind).sort = kind.sort) :
    t.Declares (t.modifyKind id f) := by
  refine of_signatures (fun {id'} hid' => ?_) (fun id' => ?_) fun id' =>
    sort_modifyKind t id id' (hsort _)
  · rw [valueType?_eq] at hid' ⊢
    rcases t.kind_modifyKind_cases id id' f with heq | ⟨-, heq⟩
    · rwa [heq]
    · rwa [heq, htype]
  · rw [signature?_eq, signature?_eq]
    rcases t.kind_modifyKind_cases id id' f with heq | ⟨-, heq⟩
    · rw [heq]
    · rw [heq, hsignature]

theorem editProperty
    (t : DescriptorTable) (id : Nat) {f : PropertyData → PropertyData}
    (hf : ∀ data, (f data).type = data.type) : t.Declares (t.editProperty id f) := by
  refine modifyKind t id (fun kind => ?_) (fun kind => ?_) fun kind => ?_
  · cases kind with
    | propertyKind data => exact hf data
    | _ => rfl
  · cases kind <;> rfl
  · cases kind <;> rfl

theorem sort_editSignature
    (t : DescriptorTable) (id id' : Nat) {f : Signature → Signature}
    (hrole : ∀ s, (f s).role = s.role) :
    ((t.editSignature id f).get id').kind.sort = (t.get id').kind.sort := by
  refine sort_modifyKind t id id' ?_
  generalize (t.get id).kind = kind
  cases kind with
  | functionKind s => exact congrArg DescriptorSort.functionSort (hrole s)
  | _ => rfl

/-- Parameters that have types are attached to a function or constructor, or any to a setter. -/
theorem editSignature
    (t : DescriptorTable) (id : Nat) {f : Signature → Signature} (hrole : ∀ s, (f s).role = s.role)
    (hparameters : ∀ {s}, t.signature? id = some s → (t.get id).kind.sort ≠ .functionSort .setter →
      (∀ p ∈ s.parameters, (t.valueType? p).isSome) → ∀ p ∈ (f s).parameters,
        (t.valueType? p).isSome) :
    t.Declares (t.editSignature id f) := by
  have hsort : ∀ id', ((t.editSignature id f).get id').kind.sort = (t.get id').kind.sort :=
    fun id' => sort_editSignature t id id' hrole
  have hother : ∀ {id' : Nat}, id' ≠ id →
      (t.editSignature id f).signature? id' = t.signature? id' := by
    intro id' hne
    rw [signature?_eq, signature?_eq, t.get_editSignature_of_ne hne]
  refine ⟨fun {id'} hid' => ?_, fun {id'} hs => ⟨?_, hsort id'⟩,
    fun ht {id' s} hs hplain p hp => ?_⟩
  · rw [valueType?_editSignature]
    exact hid'
  · by_cases heq : id' = id
    · subst heq
      obtain ⟨s, hs⟩ := Option.isSome_iff_exists.mp hs
      exact Option.isSome_of_eq_some (signature?_editSignature_self hs f)
    · rw [hother heq]
      exact hs
  · rw [valueType?_editSignature]
    rw [hsort] at hplain
    by_cases heq : id' = id
    · subst heq
      cases hold : t.signature? id' with
      | none =>
          have hsignature : (t.editSignature id' f).signature? id' = none := by
            rw [signature?_eq] at hold ⊢
            unfold DescriptorTable.editSignature
            rcases t.kind_modifyKind_cases id' id' _ with heq | ⟨-, heq⟩
            · rw [heq]
              exact hold
            · rw [heq]
              generalize (t.get id').kind = kind at hold ⊢
              cases kind with
              | functionKind | constructorKind => cases hold
              | _ => rfl
          cases hsignature.symm.trans hs
      | some s₀ =>
          obtain rfl := Option.some.inj ((signature?_editSignature_self hold f).symm.trans hs)
          exact hparameters hold hplain (ht hold hplain) p hp
    · exact ht ((hother heq).symm.trans hs) hplain p hp

theorem setReturnType {id : Nat} {type : Ty} (h : t.setReturnType id type = .ok t') :
    t.Declares t' := by
  unfold DescriptorTable.setReturnType at h
  split at h
  · obtain rfl := Except.ok.inj h
    exact editSignature t id (fun _ => rfl) fun _ _ hparameters => hparameters
  · cases h

theorem editClass {id : Nat} {f : ClassData → ClassData} (h : t.editClass id f = .ok t') :
    t.Declares t' := by
  unfold DescriptorTable.editClass at h
  split at h
  · rename_i data hkind
    obtain rfl := Except.ok.inj h
    refine of_signatures (fun {id'} hid' => ?_) (fun id' => ?_) fun id' => ?_
    · rw [valueType?_eq] at hid' ⊢
      rcases t.kind_modifyKind_cases id id' _ with heq | ⟨rfl, heq⟩
      · rwa [heq]
      · rw [hkind] at hid'
        cases hid'
    · rw [signature?_eq, signature?_eq]
      rcases t.kind_modifyKind_cases id id' _ with heq | ⟨rfl, heq⟩
      · rw [heq]
      · rw [heq, hkind]
        rfl
    · refine sort_modifyKind t id id' ?_
      rw [hkind]
      rfl
  · cases h
  · cases h

theorem finalizeClasses (t : DescriptorTable) : t.Declares t.finalizeClasses.2 := by
  refine of_signatures (fun hid => by rwa [valueType?_finalizeClasses])
    (fun _ => signature?_finalizeClasses t _) fun id => ?_
  rw [get_finalizeClasses, kind_finalized]
  cases (t.get id).kind <;> rfl

end Declares

end DescriptorTable

end DeclAnalysis
