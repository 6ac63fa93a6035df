import DeclAnalysis.Typing.Infer
import DeclAnalysis.Proofs.Semantic.Growth
import DeclAnalysis.Proofs.Session.Operations

/-!
# Error types that nobody hears of

An error type suppresses whatever else there is to say about an expression. Types are honest if
error types among them stand only for types that are not known: that of a property or function
that is referred to before its type has been found out, and that of a body that has none.
-/

namespace DeclAnalysis

namespace Ty

/-- The error types of what has a type that is found out too late, or not at all. -/
inductive IsOpen : Ty → Prop
  | value (name : String) : IsOpen (Analysis.notKnownYet "Type" name)
  | call (name : String) : IsOpen (Analysis.notKnownYet "Return type" name)
  | body : IsOpen (error "Unable to infer body type")

/-- The type is no error type, except for one that stands for a type that is not known. -/
def Honest (type : Ty) : Prop := type.isError = true → type.IsOpen

variable {type : Ty}

theorem honest_of_isError_eq_false (h : type.isError = false) : type.Honest :=
  fun herror => absurd (h.symm.trans herror) Bool.false_ne_true

theorem IsOpen.honest (h : type.IsOpen) : type.Honest := fun _ => h

end Ty

/-- The type, if there is one, is honest. -/
def HonestType (type : Option Ty) : Prop := ∀ t ∈ type, t.Honest

theorem honestType_none : HonestType none := fun _ ht => nomatch ht

theorem honestType_some {type : Ty} (h : type.Honest) : HonestType (some type) := by
  intro t ht
  obtain rfl := Option.some.inj ht
  exact h

theorem HonestType.orElse {type type' : Option Ty} (h : HonestType type) (h' : HonestType type') :
    HonestType (type <|> type') := by
  cases type with
  | none => exact h'
  | some t => exact h

namespace DescriptorKind

/-- The types that are stored in a descriptor are honest, and the supertypes of a class are no
error types at all. -/
def Honest : DescriptorKind → Prop
  | namespaceKind _ => True
  | classKind _ data => ∀ t ∈ data.supertypes, t.isError = false
  | constructorKind signature | functionKind signature => HonestType signature.returnType
  | propertyKind data => HonestType data.type
  | variableKind data => HonestType data.type

theorem honest_namespaceKind (memberScope : Nat) : (namespaceKind memberScope).Honest := trivial

theorem honest_variableKind {data : VariableData} (h : HonestType data.type) :
    (variableKind data).Honest := h

theorem honest_propertyKind {data : PropertyData} (h : HonestType data.type) :
    (propertyKind data).Honest := h

end DescriptorKind

namespace DescriptorTable

/-- All descriptors are honest. -/
def Honest (t : DescriptorTable) : Prop := ∀ id, (t.get id).kind.Honest

variable {t : DescriptorTable} {id : Nat}

theorem Honest.create
    (h : t.Honest) (name : String) (container : Option Nat) {kind : DescriptorKind}
    (hkind : kind.Honest) :
    (t.create name container kind).2.Honest := by
  intro d
  by_cases hd : d = t.size
  · rw [hd, get_create_size]
    exact hkind
  · rw [get_create_of_ne t name container kind hd]
    exact h d

theorem Honest.modifyKind
    (h : t.Honest) (id : Nat) {f : DescriptorKind → DescriptorKind}
    (hf : ∀ kind, kind.Honest → (f kind).Honest) :
    (t.modifyKind id f).Honest := by
  intro d
  rcases t.kind_modifyKind_cases id d f with heq | ⟨rfl, heq⟩
  · rw [heq]
    exact h d
  · rw [heq]
    exact hf _ (h d)

theorem Honest.editSignature
    (h : t.Honest) (id : Nat) {f : Signature → Signature}
    (hf : ∀ s, HonestType s.returnType → HonestType (f s).returnType) :
    (t.editSignature id f).Honest := by
  refine h.modifyKind id fun kind hkind => ?_
  cases kind with
  | functionKind s => exact hf s hkind
  | constructorKind s => exact hf s hkind
  | _ => exact hkind

theorem Honest.editProperty
    (h : t.Honest) (id : Nat) {f : PropertyData → PropertyData}
    (hf : ∀ data, HonestType data.type → HonestType (f data).type) :
    (t.editProperty id f).Honest := by
  refine h.modifyKind id fun kind hkind => ?_
  cases kind with
  | propertyKind data => exact hf data hkind
  | _ => exact hkind

theorem Honest.editVariable
    (h : t.Honest) (id : Nat) {f : VariableData → VariableData}
    (hf : ∀ data, HonestType data.type → HonestType (f data).type) :
    (t.editVariable id f).Honest := by
  refine h.modifyKind id fun kind hkind => ?_
  cases kind with
  | variableKind data => exact hf data hkind
  | _ => exact hkind

theorem Honest.setReturnType
    (h : t.Honest) {type : Ty} (htype : type.Honest) {t' : DescriptorTable}
    (ht' : t.setReturnType id type = .ok t') : t'.Honest := by
  unfold DescriptorTable.setReturnType at ht'
  split at ht'
  · obtain rfl := Except.ok.inj ht'
    exact h.editSignature id fun _ _ => honestType_some htype
  · cases ht'

theorem Honest.editClass
    (h : t.Honest) {f : ClassData → ClassData}
    (hf : ∀ data, (∀ type ∈ data.supertypes, type.isError = false) →
      ∀ type ∈ (f data).supertypes, type.isError = false)
    {t' : DescriptorTable} (ht' : t.editClass id f = .ok t') : t'.Honest := by
  have hid := h id
  unfold DescriptorTable.editClass at ht'
  split at ht'
  · rename_i data hkind
    rw [hkind] at hid
    obtain rfl := Except.ok.inj ht'
    exact h.modifyKind id fun _ _ => hf data hid
  · cases ht'
  · cases ht'

theorem Honest.setSupertypes
    (h : t.Honest) {supertypes : List Ty} (hsupertypes : ∀ type ∈ supertypes, type.isError = false)
    {t' : DescriptorTable} (ht' : t.setSupertypes id supertypes = .ok t') : t'.Honest :=
  h.editClass (fun _ _ => hsupertypes) ht'

theorem Honest.addConstructor
    (h : t.Honest) {constructor : Nat} {t' : DescriptorTable}
    (ht' : t.addConstructor id constructor = .ok t') : t'.Honest := by
  refine h.editClass ?_ ht'
  exact fun _ hdata => hdata

theorem Honest.setPrimaryConstructor
    (h : t.Honest) {constructor : Nat} {t' : DescriptorTable}
    (ht' : t.setPrimaryConstructor id constructor = .ok t') : t'.Honest := by
  refine h.editClass ?_ ht'
  exact fun _ hdata => hdata

theorem Honest.finalizeClasses (h : t.Honest) : t.finalizeClasses.2.Honest := by
  intro d
  have hd := h d
  rw [get_finalizeClasses]
  unfold finalized
  split
  · rename_i hkind
    rw [hkind] at hd
    exact hd
  · exact hd

theorem Honest.valueType? (h : t.Honest) (id : Nat) : HonestType (t.valueType? id) := by
  have hid := h id
  unfold DescriptorTable.valueType?
  cases hkind : (t.get id).kind with
  | variableKind data =>
      rw [hkind] at hid
      exact hid
  | propertyKind data =>
      rw [hkind] at hid
      exact hid
  | _ => exact honestType_none

theorem Honest.returnType? (h : t.Honest) (id : Nat) : HonestType (t.returnType? id) := by
  have hid := h id
  unfold DescriptorTable.returnType? DescriptorTable.signature?
  cases hkind : (t.get id).kind with
  | functionKind signature =>
      rw [hkind] at hid
      exact hid
  | constructorKind signature =>
      rw [hkind] at hid
      exact hid
  | _ => exact honestType_none

theorem Honest.supertypes (h : t.Honest) {data : ClassData} (hdata : t.classData? id = some data) :
    ∀ type ∈ data.supertypes, type.isError = false := by
  obtain ⟨finalized, hkind⟩ := kind_of_classData? hdata
  have hid := h id
  rw [hkind] at hid
  exact hid

theorem Honest.parameterTypes (h : t.Honest) (id : Nat) :
    ∀ type ∈ t.parameterTypes id, type.Honest := by
  unfold DescriptorTable.parameterTypes
  split
  · intro type htype
    obtain ⟨p, -, rfl⟩ := List.mem_map.mp htype
    cases hp : t.valueType? p with
    | none => exact Ty.honest_of_isError_eq_false rfl
    | some type => exact h.valueType? p type hp
  · exact fun _ htype => nomatch htype

theorem honest_join {a b : Ty} (ha : a.Honest) (hb : b.Honest) : (t.join a b).Honest := by
  unfold join
  split
  · exact hb
  · split
    · exact ha
    · exact Ty.honest_of_isError_eq_false rfl

end DescriptorTable

/-!
## Computations that report what they hide

A session is honest if all types in it are and nothing is resolved by name to an error type.
Computations lead from honest sessions to honest ones unless they report something; what is
reported stays reported.
-/

namespace Session

/-- Something has been reported. -/
def Reported (s : Session) : Prop := s.diagnostics ≠ #[]

/-- Nothing is resolved to an error type, and all other types are honest. -/
structure Honest (s : Session) : Prop where
  typeReferences : ∀ {node type}, s.trace.typeReference? node = some type → type.isError = false
  expressionTypes : ∀ {node type}, s.trace.expressionType? node = some type → type.Honest
  descriptors : s.descriptors.Honest

variable {nodes : List Nat} {s s' : Session}

theorem reported_push (s : Session) (d : Diagnostic) :
    Reported { s with diagnostics := s.diagnostics.push d } := by
  intro hempty
  exact absurd (congrArg Array.size hempty) (by simp)

theorem Honest.of_trace
    (h : s.Honest) {r : Recorder} (htypes : r.trace.typeReferences = s.trace.typeReferences)
    (hexpressions : r.trace.expressionTypes = s.trace.expressionTypes) :
    Honest { s with recorder := r } := by
  refine ⟨fun {node type} hnode => ?_, fun {node type} hnode => ?_, h.descriptors⟩
  · exact h.typeReferences ((congrArg (·[node]?) htypes).symm.trans hnode)
  · exact h.expressionTypes ((congrArg (·[node]?) hexpressions).symm.trans hnode)

theorem Honest.recordReference (h : s.Honest) (node : Nat) (kind : ReferenceKind) (d : Nat) :
    Honest { s with recorder := s.recorder.recordReference node kind d } := by
  obtain ⟨fields, htrace⟩ := trace_recordReference s.recorder node kind d
  refine h.of_trace ?_ ?_
  · rw [htrace]
    rfl
  · rw [htrace]
    rfl

theorem Honest.recordExpressionType (h : s.Honest) (node : Nat) {type : Ty} (htype : type.Honest) :
    Honest { s with recorder := s.recorder.recordExpressionType node type } := by
  refine ⟨h.typeReferences, fun {node' type'} hnode' => ?_, h.descriptors⟩
  change (s.trace.expressionTypes.insert node type)[node']? = some type' at hnode'
  rcases getElem?_insert_cases hnode' with ⟨-, rfl⟩ | hold
  · exact htype
  · exact h.expressionTypes hold

theorem Honest.recordTypeReference
    (h : s.Honest) (node : Nat) {type : Ty} (htype : type.isError = false) :
    Honest { s with recorder := s.recorder.recordTypeReference node type } := by
  refine ⟨fun {node' type'} hnode' => ?_, h.expressionTypes, h.descriptors⟩
  change (s.trace.typeReferences.insert node type)[node']? = some type' at hnode'
  rcases getElem?_insert_cases hnode' with ⟨-, rfl⟩ | hold
  · exact htype
  · exact h.typeReferences hold

theorem Honest.of_descriptors (h : s.Honest) {t : DescriptorTable} (ht : t.Honest) :
    Honest { s with model.descriptors := t } :=
  ⟨h.typeReferences, h.expressionTypes, ht⟩

theorem Honest.of_scopes (h : s.Honest) (t : ScopeTree) :
    Honest { s with model.scopes := t } :=
  ⟨h.typeReferences, h.expressionTypes, h.descriptors⟩

end Session

/-! ## Computations that report what they hide -/

namespace Analysis

open Session (Follows Reported)

variable {α β : Type} {p : Prop} {q : α → Prop} {r : β → Prop}

/-- From an honest session, and if `p` holds, the computation leads to an honest one and to a
result with `q`, unless it reports something. Reports are not taken back. -/
structure Honestly (p : Prop) (x : Analysis α) (q : α → Prop) : Prop where
  reported : ∀ s : Session, s.Reported → After x s fun _ => Reported
  honest : p → ∀ s : Session, s.Honest → After x s fun a s' => s'.Reported ∨ s'.Honest ∧ q a

theorem Honestly.pure {a : α} (h : p → q a) : Honestly p (Pure.pure a) q :=
  ⟨fun _ hs => hs, fun hp _ hs => .inr ⟨hs, h hp⟩⟩

theorem Honestly.mono
    {x : Analysis α} {q' : α → Prop} (h : Honestly p x q) (himp : ∀ a, q a → q' a) :
    Honestly p x q' :=
  ⟨h.reported, fun hp s hs => (h.honest hp s hs).mono fun a _ h =>
    h.imp_right fun h => ⟨h.1, himp a h.2⟩⟩

theorem Honestly.of_imp
    {x : Analysis α} {p' : Prop} (h : Honestly p x q) (himp : p' → p) : Honestly p' x q :=
  ⟨h.reported, fun hp => h.honest (himp hp)⟩

theorem Honestly.bind
    {x : Analysis α} {f : α → Analysis β} (hx : Honestly p x q)
    (hf : ∀ a, Honestly (p ∧ q a) (f a) r) : Honestly p (x >>= f) r := by
  constructor
  · exact fun s hs => (hx.reported s hs).bind fun a s' hs' => (hf a).reported s' hs'
  · intro hp s hs
    refine (hx.honest hp s hs).bind fun a s' hs' => ?_
    rcases hs' with hs' | ⟨hs', hq⟩
    · exact ((hf a).reported s' hs').mono fun _ _ => .inl
    · exact (hf a).honest ⟨hp, hq⟩ s' hs'

theorem Honestly.get_bind
    {f : Session → Analysis β} (hf : ∀ s, Honestly (p ∧ s.Honest) (f s) r) :
    Honestly p (get >>= f) r :=
  ⟨fun s hs => (hf s).reported s hs, fun hp s hs => (hf s).honest ⟨hp, hs⟩ s hs⟩

theorem Honestly.map {x : Analysis α} {f : α → β} (h : Honestly p x fun a => r (f a)) :
    Honestly p (f <$> x) r :=
  ⟨h.reported, h.honest⟩

theorem Honestly.mapM {ι : Type} {f : ι → Analysis α} (xs : List ι)
    (h : ∀ a ∈ xs, Honestly p (f a) q) : Honestly p (xs.mapM f) fun bs => ∀ b ∈ bs, q b := by
  induction xs with
  | nil => exact .pure fun _ _ hb => nomatch hb
  | cons a xs ih =>
      rw [List.mapM_cons]
      refine (h a List.mem_cons_self).bind fun b => ?_
      refine ((ih fun c hc => h c (List.mem_cons_of_mem a hc)).of_imp And.left).bind fun bs => ?_
      refine .pure fun hp c hc => ?_
      rcases List.mem_cons.mp hc with rfl | hc
      · exact hp.1.2
      · exact hp.2 c hc

theorem honestly_report (d : Diagnostic) (q : PUnit → Prop) : Honestly p (report d) q :=
  ⟨fun s _ => s.reported_push d, fun _ s _ => .inl (s.reported_push d)⟩

theorem honestly_reportCode (code : DiagnosticCode) (node : Nat) (message : String)
    (q : PUnit → Prop) : Honestly p (reportCode code node message) q :=
  honestly_report _ q

theorem honestly_onScopes (f : ScopeTree → ScopeTree) : Honestly p (onScopes f) fun _ => True :=
  ⟨fun _ hs => hs, fun _ _ hs => .inr ⟨hs.of_scopes _, trivial⟩⟩

theorem honestly_onDescriptors
    {f : DescriptorTable → DescriptorTable} (hf : p → ∀ t, t.Honest → (f t).Honest) :
    Honestly p (onDescriptors f) fun _ => True :=
  ⟨fun _ hs => hs, fun hp _ hs => .inr ⟨hs.of_descriptors (hf hp _ hs.descriptors), trivial⟩⟩

theorem honestly_createScope (kind : ScopeKind) (parent owner : Option Nat) :
    Honestly p (createScope kind parent owner) fun _ => True :=
  ⟨fun _ hs => hs, fun _ _ hs => .inr ⟨hs.of_scopes _, trivial⟩⟩

theorem honestly_createDescriptor
    (name : String) (container : Option Nat) {kind : DescriptorKind} (hkind : p → kind.Honest) :
    Honestly p (createDescriptor name container kind) fun _ => True :=
  ⟨fun _ hs => hs, fun hp _ hs =>
    .inr ⟨hs.of_descriptors (hs.descriptors.create name container (hkind hp)), trivial⟩⟩

theorem honestly_recordDeclaration (node descriptor : Nat) :
    Honestly p (recordDeclaration node descriptor) fun _ => True :=
  ⟨fun _ hs => hs, fun _ _ hs => .inr ⟨hs.of_trace rfl rfl, trivial⟩⟩

theorem honestly_recordReference (node : Nat) (kind : ReferenceKind) (descriptor : Nat) :
    Honestly p (recordReference node kind descriptor) fun _ => True :=
  ⟨fun _ hs => hs, fun _ _ hs => .inr ⟨hs.recordReference node kind descriptor, trivial⟩⟩

theorem honestly_recordExpressionType (node : Nat) {type : Ty} (htype : p → type.Honest) :
    Honestly p (recordExpressionType node type) fun _ => True :=
  ⟨fun _ hs => hs, fun hp _ hs => .inr ⟨hs.recordExpressionType node (htype hp), trivial⟩⟩

theorem honestly_recordTypeReference (node : Nat) {type : Ty} (htype : p → type.isError = false) :
    Honestly p (recordTypeReference node type) fun _ => True :=
  ⟨fun _ hs => hs, fun hp _ hs => .inr ⟨hs.recordTypeReference node (htype hp), trivial⟩⟩

theorem honestly_recordBackingField (property : Nat) :
    Honestly p (recordBackingField property) fun _ => True :=
  ⟨fun _ hs => hs, fun _ _ hs => .inr ⟨hs.of_trace rfl rfl, trivial⟩⟩

/-! ### Computations that may stop with a fault -/

/-- From an honest session, and if `p` holds, the computation leads to an honest one and to a
result with `q`, unless it reports something or stops with a fault. A session in which it stops
is honest, too. -/
structure HonestlyOr (p : Prop) (x : FaultyAnalysis α) (q : α → Prop) : Prop where
  reported : ∀ s : Session, s.Reported → AfterAny x s Reported
  honest : p → ∀ s : Session, s.Honest →
    AfterOr x s (fun a s' => s'.Reported ∨ s'.Honest ∧ q a) fun _ s' => s'.Reported ∨ s'.Honest

theorem HonestlyOr.lift {x : Analysis α} (h : Honestly p x q) : HonestlyOr p (liftM x) q :=
  ⟨h.reported, h.honest⟩

theorem HonestlyOr.pure {a : α} (h : p → q a) : HonestlyOr p (Pure.pure a) q :=
  ⟨fun _ hs => hs, fun hp _ hs => .inr ⟨hs, h hp⟩⟩

theorem HonestlyOr.throw (fault : Fault) : HonestlyOr p (throw fault) q :=
  ⟨fun _ hs => hs, fun _ _ hs => .inr hs⟩

theorem HonestlyOr.of_imp
    {x : FaultyAnalysis α} {p' : Prop} (h : HonestlyOr p x q) (himp : p' → p) :
    HonestlyOr p' x q :=
  ⟨h.reported, fun hp => h.honest (himp hp)⟩

theorem HonestlyOr.bind
    {x : FaultyAnalysis α} {f : α → FaultyAnalysis β} (hx : HonestlyOr p x q)
    (hf : ∀ a, HonestlyOr (p ∧ q a) (f a) r) : HonestlyOr p (x >>= f) r := by
  constructor
  · exact fun s hs => AfterOr.bind (hx.reported s hs) fun a s' hs' => (hf a).reported s' hs'
  · intro hp s hs
    refine AfterOr.bind (hx.honest hp s hs) fun a s' hs' => ?_
    rcases hs' with hs' | ⟨hs', hq⟩
    · exact AfterOr.mono ((hf a).reported s' hs') (fun _ _ => .inl) fun _ _ => .inl
    · exact (hf a).honest ⟨hp, hq⟩ s' hs'

theorem HonestlyOr.get_bind
    {f : Session → FaultyAnalysis β} (hf : ∀ s, HonestlyOr (p ∧ s.Honest) (f s) r) :
    HonestlyOr p (get >>= f) r :=
  ⟨fun s hs => (hf s).reported s hs, fun hp s hs => (hf s).honest ⟨hp, hs⟩ s hs⟩

theorem HonestlyOr.forM {ι : Type} {f : ι → FaultyAnalysis PUnit} (xs : List ι)
    (h : ∀ a ∈ xs, HonestlyOr p (f a) fun _ => True) : HonestlyOr p (xs.forM f) fun _ => True := by
  induction xs with
  | nil => exact .pure fun _ => trivial
  | cons a xs ih =>
      refine (h a List.mem_cons_self).bind fun _ => ?_
      exact (ih fun c hc => h c (List.mem_cons_of_mem a hc)).of_imp And.left

theorem HonestlyOr.mapM_lift {ι : Type} {f : ι → Analysis α} (xs : List ι)
    (h : ∀ a ∈ xs, Honestly p (f a) q) :
    HonestlyOr p (xs.mapM fun a => (f a : FaultyAnalysis α)) fun bs => ∀ b ∈ bs, q b := by
  rw [mapM_liftM]
  exact .lift (.mapM xs h)

theorem honestlyOr_tryDescriptors
    {f : DescriptorTable → Except Fault DescriptorTable}
    (hf : p → ∀ t t', t.Honest → f t = .ok t' → t'.Honest) :
    HonestlyOr p (tryDescriptors f) fun _ => True := by
  refine .get_bind fun s => ?_
  cases h : f s.model.descriptors with
  | error fault => exact .throw fault
  | ok t =>
      refine .lift (honestly_onDescriptors fun hp _ _ => ?_)
      exact hf hp.1 _ t hp.2.descriptors h

theorem honestlyOr_setReturnType (function : Nat) {type : Ty} (htype : p → type.Honest) :
    HonestlyOr p (tryDescriptors (·.setReturnType function type)) fun _ => True :=
  honestlyOr_tryDescriptors fun hp _ _ ht ht' => ht.setReturnType (htype hp) ht'

theorem honestlyOr_functionInnerScope (outer function : Nat) :
    HonestlyOr p (functionInnerScope outer function) fun _ => True := by
  unfold functionInnerScope Model.functionInnerScope
  refine .get_bind fun s => ?_
  cases s.model.descriptors.signature? function with
  | none => exact .throw _
  | some signature =>
      -- the whole model is replaced, but only its scopes differ
      constructor
      · exact fun _ hs => hs
      · exact fun hp s' hs' => .inr ⟨⟨hs'.typeReferences, hs'.expressionTypes, hp.2.descriptors⟩,
          trivial⟩

/-- Watching a computation changes only who watches. -/
theorem honestlyOr_observed (o : Observer) {run : FaultyAnalysis Unit}
    (h : HonestlyOr p run fun _ => True) : HonestlyOr p (observed o run) fun _ => True := by
  have hwatch : ∀ s : Session, s.Honest → Session.Honest { s with recorder := s.recorder.watch o } :=
    fun s hs => hs.of_trace rfl rfl
  have hunwatch : ∀ s : Session, s.Honest →
      Session.Honest { s with recorder := s.recorder.unwatch.2 } := by
    intro s hs
    have htrace := Session.trace_unwatch s.recorder
    exact hs.of_trace (congrArg Trace.typeReferences htrace) (congrArg Trace.expressionTypes htrace)
  constructor
  · intro s hs
    exact AfterOr.observed (h.reported { s with recorder := s.recorder.watch o } hs)
  · intro hp s hs
    refine AfterOr.observed ((h.honest hp _ (hwatch s hs)).mono (fun _ s' hs' => ?_) fun _ s' => ?_)
    · exact hs'.imp_right fun h => ⟨hunwatch s' h.1, trivial⟩
    · exact Or.imp_right (hunwatch s')

end Analysis

end DeclAnalysis
