import Mathlib.Logic.Relation
import DeclAnalysis.Typing.Session
import DeclAnalysis.Proofs.Computation
import DeclAnalysis.Proofs.Semantic.Evolution

/-!
# How sessions change

All that an analysis does to a session consists of elementary changes, which are listed
here once. What holds along every run follows from what each of them keeps: reports stay,
what is recorded about a node changes only while that node is being looked at, descriptors
evolve, and every name of a namespace is bound to a namespace.
-/

namespace DeclAnalysis

/-- What is found after an insertion is what has been inserted, or it was there before. -/
theorem getElem?_insert_cases
    {α β : Type} [Ord α] [Std.TransOrd α] [Std.LawfulEqOrd α] {map : Std.TreeMap α β}
    {key key' : α} {value value' : β} (h : (map.insert key value)[key']? = some value') :
    key = key' ∧ value = value' ∨ map[key']? = some value' := by
  rw [Std.TreeMap.getElem?_insert] at h
  split at h
  · rename_i heq
    exact .inl ⟨Std.LawfulEqCmp.eq_of_compare heq, Option.some.inj h⟩
  · exact .inr h

theorem getElem?_insert_of_ne
    {α β : Type} [Ord α] [Std.TransOrd α] [Std.LawfulEqOrd α] {map : Std.TreeMap α β}
    {key key' : α} {value : β} (h : key ≠ key') : (map.insert key value)[key']? = map[key']? := by
  rw [Std.TreeMap.getElem?_insert, if_neg fun heq => h (Std.LawfulEqCmp.eq_of_compare heq)]

namespace ScopeTree

variable (t : ScopeTree)

/-- What a change of one scope leaves alone in every scope. -/
theorem apply_get_modify
    {α : Type} (p : Scope → α) (f : Scope → Scope) (hf : ∀ s, p (f s) = p s)
    (id id' : Nat) :
    p ((t.modify id f).get id') = p (t.get id') := by
  unfold modify get
  rw [Array.getD_eq_getD_getElem?, Array.getD_eq_getD_getElem?, Array.getElem?_modify]
  by_cases h : id = id'
  · rw [if_pos h]
    cases t.scopes[id']? with
    | none => rfl
    | some s => exact hf s
  · rw [if_neg h]

/-- A new scope binds no names. -/
theorem bindings_get_create
    (kind : ScopeKind) (parent owner : Option Nat) (id : Nat) :
    ((t.create kind parent owner).2.get id).bindings = (t.get id).bindings := by
  have hpush : ((⟨t.scopes.push { kind, parent, owner }⟩ : ScopeTree).get id).bindings =
      (t.get id).bindings := by
    unfold get
    rw [Array.getD_eq_getD_getElem?, Array.getD_eq_getD_getElem?, Array.getElem?_push]
    by_cases h : id = t.scopes.size
    · simp [h]
    · rw [if_neg h]
  cases parent with
  | none => exact hpush
  | some p =>
      refine Eq.trans ?_ hpush
      exact apply_get_modify _ Scope.bindings
        (fun s => { s with children := s.children ++ [t.size] }) (fun _ => rfl) p id

theorem bindings_get_createWriteThrough (outer target id : Nat) :
    ((t.createWriteThrough outer target).2.get id).bindings = (t.get id).bindings := by
  refine Eq.trans ?_ (t.bindings_get_create .writeThrough (some outer) (t.get target).owner id)
  exact apply_get_modify _ Scope.bindings
    (fun s => { s with writeTarget := some target }) (fun _ => rfl) _ id

theorem namespaces_get_bind
    {f : Bindings → Bindings} (hf : ∀ b, (f b).namespaces = b.namespaces) (scope id : Nat) :
    ((t.bind scope f).get id).bindings.namespaces = (t.get id).bindings.namespaces :=
  t.apply_get_modify (fun s => s.bindings.namespaces)
    (fun s => { s with bindings := f s.bindings }) (fun s => hf s.bindings) _ id

theorem mem_namespaces_addNamespace
    {scope id descriptor d : Nat} {name name' : String}
    (h : ((t.addNamespace scope name descriptor).get id).bindings.namespaces[name']? = some d) :
    d = descriptor ∨ (t.get id).bindings.namespaces[name']? = some d := by
  unfold addNamespace bind modify get at h
  rw [Array.getD_eq_getD_getElem?, Array.getElem?_modify] at h
  unfold get
  rw [Array.getD_eq_getD_getElem?]
  by_cases hid : t.storage scope = id
  · rw [if_pos hid] at h
    cases hs : t.scopes[id]? with
    | none => simp [hs] at h
    | some s =>
        simp only [hs, Option.map_some, Option.getD_some] at h
        exact (getElem?_insert_cases h).imp_left fun h => h.2.symm
  · rw [if_neg hid] at h
    exact .inr h

end ScopeTree

/-- The code of a remark on an expression: it has the wrong type, or it is never reached. -/
def DiagnosticCode.IsRemark (code : DiagnosticCode) : Prop :=
  code = .typeMismatch ∨ code = .unreachableCode

instance : DecidablePred DiagnosticCode.IsRemark :=
  fun _ => inferInstanceAs (Decidable (_ ∨ _))

namespace Diagnostic

/-- The diagnostic of a reference to a type that there is not. -/
def unresolvedType (node : Nat) (name : String) : Diagnostic :=
  .ofCode .unresolvedReference node ("Unresolved type: " ++ name)

/-- The diagnostic is neither that of a reference to a type nor that of a constructor outside
of classes, nor a remark on an expression. -/
structure Quiet (d : Diagnostic) : Prop where
  ne_unresolvedType : ∀ node name, d ≠ .unresolvedType node name
  code_ne : d.code ≠ .misplacedConstructor
  not_isRemark : ¬d.code.IsRemark

theorem quiet_of_code
    {d : Diagnostic} (h : d.code ≠ .unresolvedReference ∧ d.code ≠ .misplacedConstructor ∧
      ¬d.code.IsRemark) :
    d.Quiet := by
  refine ⟨?_, h.2.1, h.2.2⟩
  rintro node name rfl
  exact h.1 rfl

theorem quiet_unsupportedElement (node : Nat) : (unsupportedElement node).Quiet := by
  have hcode : ¬DiagnosticCode.unsupportedConstruct.IsRemark := by decide
  exact ⟨nofun, nofun, hcode⟩

/-- A reference to a value or function is told apart by the message. -/
theorem quiet_unresolvedReference (node : Nat) (name : String) :
    (ofCode .unresolvedReference node ("Unresolved reference: " ++ name)).Quiet := by
  have hcode : ¬DiagnosticCode.unresolvedReference.IsRemark := by decide
  refine ⟨fun node' name' h => ?_, nofun, hcode⟩
  have hmessage := congrArg (fun d => d.message.toList[11]?) h
  simp [unresolvedType, ofCode] at hmessage

end Diagnostic

namespace Session

/-- The elementary changes of a session. What is recorded about nodes is recorded about
the given ones only, and only they are remarked upon. -/
inductive Change (nodes : List Nat) : Session → Session → Prop
  | report {s : Session} (d : Diagnostic) (hnode : d.code.IsRemark → d.node ∈ nodes) :
      Change nodes s { s with diagnostics := s.diagnostics.push d }
  | recordDeclaration {s : Session} {node : Nat} (hnode : node ∈ nodes) (descriptor : Nat) :
      Change nodes s { s with recorder := s.recorder.recordDeclaration node descriptor }
  | recordReference
      {s : Session} {node : Nat} (hnode : node ∈ nodes) (kind : ReferenceKind)
      (descriptor : Nat) :
      Change nodes s { s with recorder := s.recorder.recordReference node kind descriptor }
  | recordExpressionType {s : Session} {node : Nat} (hnode : node ∈ nodes) (type : Ty) :
      Change nodes s { s with recorder := s.recorder.recordExpressionType node type }
  | recordTypeReference {s : Session} {node : Nat} (hnode : node ∈ nodes) (type : Ty) :
      Change nodes s { s with recorder := s.recorder.recordTypeReference node type }
  | recordBackingField {s : Session} (property : Nat) :
      Change nodes s { s with recorder := s.recorder.recordBackingField property }
  | watch {s : Session} (o : Observer) :
      Change nodes s { s with recorder := s.recorder.watch o }
  | unwatch {s : Session} : Change nodes s { s with recorder := s.recorder.unwatch.2 }
  | createScope {s : Session} (kind : ScopeKind) (parent owner : Option Nat) :
      Change nodes s { s with model.scopes := (s.model.scopes.create kind parent owner).2 }
  | createWriteThrough {s : Session} (outer target : Nat) :
      Change nodes s
        { s with model.scopes := (s.model.scopes.createWriteThrough outer target).2 }
  | setOwner {s : Session} (scope owner : Nat) :
      Change nodes s { s with model.scopes := s.model.scopes.setOwner scope owner }
  | importScope {s : Session} (scope imported : Nat) :
      Change nodes s { s with model.scopes := s.model.scopes.importScope scope imported }
  | bind
      {s : Session} (scope : Nat) {f : Bindings → Bindings}
      (hf : ∀ b, (f b).namespaces = b.namespaces) :
      Change nodes s { s with model.scopes := s.model.scopes.bind scope f }
  | addNamespace
      {s : Session} (scope : Nat) (name : String) {descriptor : Nat}
      (hns : (s.descriptors.namespaceMembers? descriptor).isSome) :
      Change nodes s
        { s with model.scopes := s.model.scopes.addNamespace scope name descriptor }
  | createDescriptor
      {s : Session} (name : String) (container : Option Nat) {kind : DescriptorKind}
      (hkind : kind.IsNew) :
      Change nodes s
        { s with model.descriptors := (s.model.descriptors.create name container kind).2 }
  | changeKind
      {s : Session} {id : Nat} {kind : DescriptorKind}
      (hkind : (s.descriptors.get id).kind.Evolves kind)
      (haccessor : ∀ function, kind.HasAccessor function →
        (s.descriptors.get id).kind.HasAccessor function ∨
          (s.descriptors.signature? function).isSome) :
      Change nodes s
        { s with model.descriptors := s.model.descriptors.modifyKind id fun _ => kind }

/-- The second session comes from the first one by elementary changes. -/
def Follows (nodes : List Nat) : Session → Session → Prop :=
  Relation.ReflTransGen (Change nodes)

theorem Follows.refl (nodes : List Nat) (s : Session) : Follows nodes s s :=
  Relation.ReflTransGen.refl

theorem Follows.single {nodes : List Nat} {s s' : Session} (h : Change nodes s s') :
    Follows nodes s s' :=
  Relation.ReflTransGen.single h

theorem Follows.trans
    {nodes : List Nat} {s s' s'' : Session} (h : Follows nodes s s')
    (h' : Follows nodes s' s'') :
    Follows nodes s s'' :=
  Relation.ReflTransGen.trans h h'

instance (nodes : List Nat) : IsPreorder Session (Follows nodes) where
  refl _ := Relation.ReflTransGen.refl
  trans _ _ _ := Relation.ReflTransGen.trans

variable {nodes nodes' : List Nat} {s s' : Session}

theorem Change.mono (h : Change nodes s s') (hsub : nodes ⊆ nodes') :
    Change nodes' s s' := by
  cases h with
  | report d hnode => exact .report d fun h => hsub (hnode h)
  | recordDeclaration hnode d => exact .recordDeclaration (hsub hnode) d
  | recordReference hnode kind d => exact .recordReference (hsub hnode) kind d
  | recordExpressionType hnode type => exact .recordExpressionType (hsub hnode) type
  | recordTypeReference hnode type => exact .recordTypeReference (hsub hnode) type
  | recordBackingField p => exact .recordBackingField p
  | watch o => exact .watch o
  | unwatch => exact .unwatch
  | createScope kind parent owner => exact .createScope kind parent owner
  | createWriteThrough outer target => exact .createWriteThrough outer target
  | setOwner scope owner => exact .setOwner scope owner
  | importScope scope imported => exact .importScope scope imported
  | bind scope hf => exact .bind scope hf
  | addNamespace scope name hns => exact .addNamespace scope name hns
  | createDescriptor name container hkind => exact .createDescriptor name container hkind
  | changeKind hkind haccessor => exact .changeKind hkind haccessor

theorem Follows.mono (h : Follows nodes s s') (hsub : nodes ⊆ nodes') :
    Follows nodes' s s' := by
  induction h with
  | refl => exact .refl nodes' _
  | tail _ hc ih => exact ih.trans (.single (hc.mono hsub))

/-! ### What every change keeps -/

theorem Follows.keeps {p : Session → Prop}
    (hstep : ∀ {s s'}, Change nodes s s' → p s → p s') (h : Follows nodes s s')
    (hs : p s) : p s' := by
  induction h with
  | refl => exact hs
  | tail _ hc ih => exact hstep hc ih

/-- What has been reported stays reported. -/
theorem Follows.diagnostics_prefix (h : Follows nodes s s') :
    s.diagnostics.toList <+: s'.diagnostics.toList := by
  induction h with
  | refl => exact List.prefix_rfl
  | tail _ hc ih =>
      refine ih.trans ?_
      cases hc with
      | report d => simp
      | _ => exact List.prefix_rfl

theorem Follows.evolves (h : Follows nodes s s') : s.descriptors.Evolves s'.descriptors := by
  induction h with
  | refl => exact .refl _
  | tail _ hc ih =>
      refine ih.trans ?_
      cases hc with
      | createDescriptor name container => exact .create _ name container _
      | changeKind hkind _ => exact .modifyKind hkind
      | _ => exact .refl _

/-- The watchers of references record at most backing fields. -/
theorem trace_seeAll (node : Nat) (kind : ReferenceKind) (descriptor : Nat)
    (observers : List Observer) (t : Trace) :
    ∃ fields, (Observer.seeAll node kind descriptor observers t).2 =
      { t with backingFields := fields } := by
  induction observers generalizing t with
  | nil => exact ⟨t.backingFields, rfl⟩
  | cons o rest ih =>
      have hsee : ∃ fields,
          (o.see t node kind descriptor).2 = { t with backingFields := fields } := by
        cases o with
        | tracker property =>
            dsimp only [Observer.see]
            split
            · exact ⟨_, rfl⟩
            · exact ⟨_, rfl⟩
        | guard violations =>
            dsimp only [Observer.see]
            split
            · exact ⟨_, rfl⟩
            · exact ⟨_, rfl⟩
      obtain ⟨fields, hfields⟩ := hsee
      obtain ⟨fields', hfields'⟩ := ih (o.see t node kind descriptor).2
      refine ⟨fields', hfields'.trans ?_⟩
      rw [hfields]

/-- A reference is recorded, and perhaps a backing field. -/
theorem trace_recordReference (r : Recorder) (node : Nat) (kind : ReferenceKind)
    (descriptor : Nat) :
    ∃ fields, (r.recordReference node kind descriptor).trace =
      { r.trace with
        references := r.trace.references.insert node (kind, descriptor)
        backingFields := fields } := by
  obtain ⟨fields, hfields⟩ := trace_seeAll node kind descriptor r.observers r.trace
  refine ⟨fields, ?_⟩
  unfold Recorder.recordReference Trace.recordReference
  dsimp only
  rw [hfields]

@[simp] theorem trace_unwatch (r : Recorder) : r.unwatch.2.trace = r.trace := by
  unfold Recorder.unwatch
  split
  · rfl
  · rfl

/-- What is recorded about a node changes only while that node is looked at. -/
theorem Change.recorded_eq {node : Nat} (h : Change nodes s s') (hnode : node ∉ nodes) :
    s'.trace.declaration? node = s.trace.declaration? node ∧
      s'.trace.expressionType? node = s.trace.expressionType? node ∧
        s'.trace.reference? node = s.trace.reference? node := by
  unfold trace Trace.declaration? Trace.expressionType? Trace.reference?
  cases h with
  | recordDeclaration hnode' d =>
      have hne : node ≠ _ := fun h => hnode (h ▸ hnode')
      refine ⟨?_, rfl, rfl⟩
      exact getElem?_insert_of_ne hne.symm
  | recordExpressionType hnode' type =>
      have hne : node ≠ _ := fun h => hnode (h ▸ hnode')
      refine ⟨rfl, ?_, rfl⟩
      exact getElem?_insert_of_ne hne.symm
  | recordReference hnode' kind d =>
      have hne : node ≠ _ := fun h => hnode (h ▸ hnode')
      obtain ⟨fields, htrace⟩ := trace_recordReference _ _ kind d
      rw [htrace]
      refine ⟨rfl, rfl, ?_⟩
      dsimp only
      rw [getElem?_insert_of_ne hne.symm]
  | unwatch =>
      rw [trace_unwatch]
      exact ⟨rfl, rfl, rfl⟩
  | _ => exact ⟨rfl, rfl, rfl⟩

theorem Follows.declaration?_eq {node : Nat} (h : Follows nodes s s') (hnode : node ∉ nodes) :
    s'.trace.declaration? node = s.trace.declaration? node :=
  h.keeps (p := fun s' => s'.trace.declaration? node = s.trace.declaration? node)
    (fun hc ih => (hc.recorded_eq hnode).1.trans ih) rfl

theorem Follows.expressionType?_eq {node : Nat} (h : Follows nodes s s') (hnode : node ∉ nodes) :
    s'.trace.expressionType? node = s.trace.expressionType? node :=
  h.keeps (p := fun s' => s'.trace.expressionType? node = s.trace.expressionType? node)
    (fun hc ih => (hc.recorded_eq hnode).2.1.trans ih) rfl

theorem Follows.reference?_eq {node : Nat} (h : Follows nodes s s') (hnode : node ∉ nodes) :
    s'.trace.reference? node = s.trace.reference? node :=
  h.keeps (p := fun s' => s'.trace.reference? node = s.trace.reference? node)
    (fun hc ih => (hc.recorded_eq hnode).2.2.trans ih) rfl

/-- An expression that has a type keeps one. -/
theorem Follows.isSome_expressionType? {node : Nat} (h : Follows nodes s s')
    (htype : (s.trace.expressionType? node).isSome) :
    (s'.trace.expressionType? node).isSome := by
  refine h.keeps (p := fun s => (s.trace.expressionType? node).isSome) ?_ htype
  intro s s' hc htype
  unfold trace Trace.expressionType? at htype ⊢
  cases hc with
  | recordExpressionType _ type =>
      simp only [Recorder.recordExpressionType, Trace.recordExpressionType,
        Std.TreeMap.getElem?_insert]
      split
      · rfl
      · exact htype
  | recordReference _ kind d =>
      obtain ⟨fields, htrace⟩ := trace_recordReference _ _ kind d
      rw [htrace]
      exact htype
  | unwatch =>
      rw [trace_unwatch]
      exact htype
  | _ => exact htype

/-- No class has been finalized. -/
def Unfinalized (s : Session) : Prop := ∀ id, (s.descriptors.get id).kind.Unfinalized

theorem Change.unfinalized (h : Change nodes s s') (hs : s.Unfinalized) : s'.Unfinalized := by
  intro id
  cases h with
  | createDescriptor name container hkind =>
      by_cases hid : id = s.descriptors.size
      · subst hid
        exact (s.descriptors.get_create_size name container _).symm ▸ hkind.unfinalized
      · exact (s.descriptors.get_create_of_ne name container _ hid).symm ▸ hs id
  | changeKind hkind haccessor =>
      rename_i id' kind
      rcases s.descriptors.kind_modifyKind_cases id' id fun _ => kind with heq | ⟨rfl, heq⟩
      · exact heq.symm ▸ hs id
      · exact heq.symm ▸ hkind.unfinalized (hs id)
  | _ => exact hs id

theorem Follows.unfinalized (h : Follows nodes s s') (hs : s.Unfinalized) : s'.Unfinalized :=
  h.keeps Change.unfinalized hs

/-- The accessors of properties are functions. -/
def AccessorsResolved (s : Session) : Prop :=
  ∀ id function, (s.descriptors.get id).kind.HasAccessor function →
    (s.descriptors.signature? function).isSome

theorem Change.accessorsResolved (h : Change nodes s s') (hs : s.AccessorsResolved) :
    s'.AccessorsResolved := by
  have hevolves : s.descriptors.Evolves s'.descriptors := (Follows.single h).evolves
  intro id function hid
  refine hevolves.isSome_signature? ?_
  cases h with
  | createDescriptor name container hkind =>
      by_cases hnew : id = s.model.descriptors.size
      · subst hnew
        simp only [descriptors, DescriptorTable.get_create_size] at hid
        exact absurd hid (hkind.not_hasAccessor function)
      · simp only [descriptors, DescriptorTable.get_create_of_ne _ _ _ _ hnew] at hid
        exact hs id function hid
  | changeKind hkind haccessor =>
      rename_i id' kind
      rcases s.descriptors.kind_modifyKind_cases id' id fun _ => kind with heq | ⟨rfl, heq⟩
      · exact hs id function (heq ▸ hid)
      · rcases haccessor function (heq ▸ hid) with hold | hsignature
        · exact hs id function hold
        · exact hsignature
  | _ => exact hs id function hid

theorem Follows.accessorsResolved (h : Follows nodes s s') (hs : s.AccessorsResolved) :
    s'.AccessorsResolved :=
  h.keeps Change.accessorsResolved hs

/-- Names of namespaces are bound to namespaces. -/
def NamespacesBound (s : Session) : Prop :=
  ∀ (scope : Nat) (name : String) (descriptor : Nat),
    (s.scopes.get scope).bindings.namespaces[name]? = some descriptor →
      (s.descriptors.namespaceMembers? descriptor).isSome

/-- Neither new names of other things than namespaces nor the evolution of descriptors
makes a difference to the names of namespaces. -/
theorem NamespacesBound.of_evolves
    (hs : s.NamespacesBound)
    (hscopes : ∀ scope, (s'.scopes.get scope).bindings.namespaces =
      (s.scopes.get scope).bindings.namespaces)
    (hevolves : s.descriptors.Evolves s'.descriptors) :
    s'.NamespacesBound := by
  intro scope name descriptor hbound
  rw [hscopes] at hbound
  obtain ⟨members, hmembers⟩ := Option.isSome_iff_exists.mp (hs scope name descriptor hbound)
  rw [hevolves.namespaceMembers? hmembers]
  rfl

theorem Change.namespacesBound (h : Change nodes s s') (hs : s.NamespacesBound) :
    s'.NamespacesBound := by
  have hevolves : s.descriptors.Evolves s'.descriptors := (Follows.single h).evolves
  cases h with
  | addNamespace scope name hns =>
      intro scope' name' descriptor' hbound
      rcases s.scopes.mem_namespaces_addNamespace hbound with rfl | hold
      · exact hns
      · exact hs scope' name' descriptor' hold
  | createScope kind parent owner =>
      refine hs.of_evolves (fun scope => ?_) hevolves
      exact congrArg Bindings.namespaces (s.scopes.bindings_get_create kind parent owner scope)
  | createWriteThrough outer target =>
      refine hs.of_evolves (fun scope => ?_) hevolves
      exact congrArg Bindings.namespaces
        (s.scopes.bindings_get_createWriteThrough outer target scope)
  | setOwner scope owner =>
      refine hs.of_evolves (fun scope' => ?_) hevolves
      exact s.scopes.apply_get_modify (fun s => s.bindings.namespaces)
        (fun s => { s with owner := some owner }) (fun _ => rfl) scope scope'
  | importScope scope imported =>
      refine hs.of_evolves (fun scope' => ?_) hevolves
      exact s.scopes.apply_get_modify (fun s => s.bindings.namespaces)
        (fun s => { s with imports := s.imports ++ [imported] }) (fun _ => rfl) scope scope'
  | bind scope hf =>
      exact hs.of_evolves (s.scopes.namespaces_get_bind hf scope) hevolves
  | _ => exact hs.of_evolves (fun _ => rfl) hevolves

theorem Follows.namespacesBound (h : Follows nodes s s') (hs : s.NamespacesBound) :
    s'.NamespacesBound :=
  h.keeps Change.namespacesBound hs

/-! ### Sessions that change little

Typing leaves all descriptors alone that exist, and resolving bodies at most fills in types. -/

/-- The second session comes from the first one by changes that leave all descriptors alone
that exist and add complete ones. -/
structure Types (nodes : List Nat) (s s' : Session) : Prop where
  follows : Follows nodes s s'
  extends_ : s.descriptors.Extends s'.descriptors

/-- The second session comes from the first one by changes that at most fill in types, those
of properties together with those of the parameters of their setters. -/
structure Proceeds (nodes : List Nat) (s s' : Session) : Prop where
  follows : Follows nodes s s'
  fills : s.descriptors.Fills s'.descriptors
  fillsTogether : s.descriptors.FillsTogether s'.descriptors

theorem Types.proceeds (h : Types nodes s s') : Proceeds nodes s s' :=
  ⟨h.follows, h.extends_.fills, h.extends_.fillsTogether⟩

theorem Types.refl (nodes : List Nat) (s : Session) : Types nodes s s :=
  ⟨.refl nodes s, .refl s.descriptors⟩

theorem Types.trans {s'' : Session} (h : Types nodes s s') (h' : Types nodes s' s'') :
    Types nodes s s'' :=
  ⟨h.follows.trans h'.follows, h.extends_.trans h'.extends_⟩

theorem Proceeds.refl (nodes : List Nat) (s : Session) : Proceeds nodes s s :=
  (Types.refl nodes s).proceeds

theorem Proceeds.trans {s'' : Session} (h : Proceeds nodes s s') (h' : Proceeds nodes s' s'') :
    Proceeds nodes s s'' :=
  ⟨h.follows.trans h'.follows, h.fills.trans h'.fills,
    h.fillsTogether.trans h'.fillsTogether h.fills h'.fills⟩

instance (nodes : List Nat) : IsPreorder Session (Types nodes) where
  refl := .refl nodes
  trans _ _ _ := .trans

instance (nodes : List Nat) : IsPreorder Session (Proceeds nodes) where
  refl := .refl nodes
  trans _ _ _ := .trans

/-- What has been reported under a code. -/
def reports (s : Session) (code : DiagnosticCode) : List Diagnostic :=
  s.diagnostics.toList.filter fun d => d.code = code

theorem reports_push (s : Session) (d : Diagnostic) (code : DiagnosticCode) :
    { s with diagnostics := s.diagnostics.push d }.reports code =
      s.reports code ++ if d.code = code then [d] else [] := by
  unfold reports
  rw [Array.toList_push, List.filter_append, List.filter_cons, List.filter_nil]
  simp only [decide_eq_true_eq]

/-- A report that is not a remark leaves the remarks alone. -/
theorem reports_push_of_not_isRemark
    (s : Session) {d : Diagnostic} (hd : ¬d.code.IsRemark) {code : DiagnosticCode}
    (hcode : code.IsRemark) :
    { s with diagnostics := s.diagnostics.push d }.reports code = s.reports code := by
  have hne : d.code ≠ code := fun heq => hd (heq ▸ hcode)
  rw [reports_push, if_neg hne, List.append_nil]

/-- Only the nodes that are looked at are remarked upon. -/
theorem Follows.filter_reports_eq
    {code : DiagnosticCode} {p : Nat → Bool} (h : Follows nodes s s') (hcode : code.IsRemark)
    (hnodes : ∀ node ∈ nodes, p node = false) :
    (s'.reports code).filter (fun d => p d.node) =
      (s.reports code).filter fun d => p d.node := by
  induction h with
  | refl => rfl
  | tail _ hc ih =>
      refine Eq.trans ?_ ih
      cases hc with
      | report d hnode =>
          rw [reports_push, List.filter_append]
          split
          · rename_i heq
            rw [List.filter_cons, hnodes _ (hnode (heq ▸ hcode))]
            exact List.append_nil _
          · exact List.append_nil _
      | _ => rfl

theorem Follows.mem_reports
    {code : DiagnosticCode} (h : Follows nodes s s') (hcode : code.IsRemark) {d : Diagnostic}
    (hd : d ∈ s'.reports code) : d ∈ s.reports code ∨ d.node ∈ nodes := by
  by_cases hnode : d.node ∈ nodes
  · exact .inr hnode
  · have hfilter := h.filter_reports_eq (p := (· ∉ nodes)) hcode fun node hmem => by simpa
    have hmem : d ∈ (s'.reports code).filter fun d => d.node ∉ nodes :=
      List.mem_filter.mpr ⟨hd, by simpa⟩
    rw [hfilter] at hmem
    exact .inl (List.mem_filter.mp hmem).1

/-- What has been reported about constructors outside of classes. -/
def misplaced (s : Session) : List Diagnostic :=
  s.diagnostics.toList.filter fun d => d.code = .misplacedConstructor

theorem misplaced_push (s : Session) (d : Diagnostic) :
    { s with diagnostics := s.diagnostics.push d }.misplaced =
      s.misplaced ++ if d.code = .misplacedConstructor then [d] else [] := by
  unfold misplaced
  rw [Array.toList_push, List.filter_append, List.filter_cons, List.filter_nil]
  simp only [decide_eq_true_eq]

/-- The second session comes from the first one by taking notes: something may have been
recorded and reported, but nothing about type references or misplaced constructors, and no
expression has been remarked upon. -/
structure Notes (nodes : List Nat) (s s' : Session) : Prop where
  types : Types nodes s s'
  model_eq : s'.model = s.model
  typeReferences_eq : s'.trace.typeReferences = s.trace.typeReferences
  count_eq : ∀ node name, s'.diagnostics.toList.count (.unresolvedType node name) =
    s.diagnostics.toList.count (.unresolvedType node name)
  misplaced_eq : s'.misplaced = s.misplaced
  reports_eq : ∀ {code : DiagnosticCode}, code.IsRemark → s'.reports code = s.reports code

/-- One note is taken of an expression: it is recorded about one of the nodes what it declares,
what it refers to or which type it has, or something is reported that is no remark. What is reported
to refer to nothing is one of the nodes, too. -/
inductive Entry (nodes : List Nat) : Session → Session → Prop
  | report
      {s : Session} {d : Diagnostic} (h : d.Quiet)
      (hnode : d.code = .unresolvedReference → d.node ∈ nodes) :
      Entry nodes s { s with diagnostics := s.diagnostics.push d }
  | recordDeclaration {s : Session} {node : Nat} (hnode : node ∈ nodes) (descriptor : Nat) :
      Entry nodes s { s with recorder := s.recorder.recordDeclaration node descriptor }
  | recordReference
      {s : Session} {node : Nat} (hnode : node ∈ nodes) (kind : ReferenceKind)
      (descriptor : Nat) :
      Entry nodes s { s with recorder := s.recorder.recordReference node kind descriptor }
  | recordExpressionType {s : Session} {node : Nat} (hnode : node ∈ nodes) (type : Ty) :
      Entry nodes s { s with recorder := s.recorder.recordExpressionType node type }

/-- A relation that holds between the sessions before and after one note is taken. -/
class AllowsEntries (nodes : outParam (List Nat)) (R : Session → Session → Prop) : Prop
    extends IsPreorder Session R where
  of_entry : ∀ {s s' : Session}, Entry nodes s s' → R s s'

/-- A relation that holds between the sessions before and after taking notes. -/
class AllowsNotes (nodes : outParam (List Nat)) (R : Session → Session → Prop) : Prop
    extends IsPreorder Session R where
  of_notes : ∀ {s s' : Session}, Notes nodes s s' → R s s'

/-- A relation that holds between the sessions before and after something is reported under a
code about some nodes. -/
class AllowsRemarks (code : DiagnosticCode) (nodes : List Nat) (R : Session → Session → Prop) :
    Prop where
  of_remark : ∀ {s : Session} {node : Nat}, node ∈ nodes → ∀ message : String,
    R s { s with diagnostics := s.diagnostics.push (.ofCode code node message) }

/-- A relation that holds between the sessions before and after typing. -/
class AllowsTyping (nodes : outParam (List Nat)) (R : Session → Session → Prop) : Prop
    extends IsPreorder Session R where
  of_types : ∀ {s s' : Session}, Types nodes s s' → R s s'

instance (nodes : List Nat) : AllowsTyping nodes (Types nodes) where
  of_types h := h

instance (nodes : List Nat) : AllowsTyping nodes (Proceeds nodes) where
  of_types := Types.proceeds

instance (nodes : List Nat) : AllowsTyping nodes (Follows nodes) where
  of_types := Types.follows

theorem Notes.of_change
    {r : Recorder} (h : Change nodes s { s with recorder := r })
    (htypeReferences : r.trace.typeReferences = s.trace.typeReferences) :
    Notes nodes s { s with recorder := r } :=
  ⟨⟨.single h, .refl _⟩, rfl, htypeReferences, fun _ _ => rfl, rfl, fun _ => rfl⟩

theorem Notes.of_report {d : Diagnostic} (h : d.Quiet) :
    Notes nodes s { s with diagnostics := s.diagnostics.push d } := by
  have hreport : d.code.IsRemark → d.node ∈ nodes := fun hcode => absurd hcode h.not_isRemark
  refine ⟨⟨.single (.report d hreport), .refl _⟩, rfl, rfl, fun node name => ?_, ?_,
    fun hcode => s.reports_push_of_not_isRemark h.not_isRemark hcode⟩
  · change (s.diagnostics.push d).toList.count _ = _
    rw [Array.toList_push, List.count_append, List.count_eq_zero_of_not_mem (l := [d]),
      Nat.add_zero]
    exact fun hmem => h.ne_unresolvedType node name (List.mem_singleton.mp hmem).symm
  · refine (s.misplaced_push d).trans ?_
    rw [if_neg h.code_ne, List.append_nil]

theorem Entry.notes (h : Entry nodes s s') : Notes nodes s s' := by
  cases h with
  | report hquiet _ => exact .of_report hquiet
  | recordDeclaration hnode descriptor =>
      exact .of_change (.recordDeclaration hnode descriptor) rfl
  | recordReference hnode kind descriptor =>
      refine .of_change (.recordReference hnode kind descriptor) ?_
      obtain ⟨fields, htrace⟩ := trace_recordReference _ _ kind descriptor
      rw [htrace]
      rfl
  | recordExpressionType hnode type => exact .of_change (.recordExpressionType hnode type) rfl

variable {R : Session → Session → Prop}

instance [AllowsTyping nodes R] : AllowsNotes nodes R where
  of_notes h := AllowsTyping.of_types h.types

/-- Recording something that is not about type references. -/
theorem AllowsNotes.of_change
    [AllowsNotes nodes R] {r : Recorder} (h : Change nodes s { s with recorder := r })
    (htypeReferences : r.trace.typeReferences = s.trace.typeReferences) :
    R s { s with recorder := r } :=
  of_notes (.of_change h htypeReferences)

instance [AllowsNotes nodes R] : AllowsEntries nodes R where
  of_entry h := AllowsNotes.of_notes h.notes

variable [AllowsTyping nodes R]

/-- A change that does not concern descriptors. -/
theorem AllowsTyping.of_change
    (h : Change nodes s s') (hdescriptors : s'.model.descriptors = s.model.descriptors) :
    R s s' := by
  refine of_types ⟨.single h, ?_⟩
  unfold descriptors
  rw [hdescriptors]
  exact .refl _

instance (code : DiagnosticCode) : AllowsRemarks code nodes R where
  of_remark hnode _ := AllowsTyping.of_change (.report _ fun _ => hnode) rfl

end Session

/-! ### Watching -/

/-- A computation that is watched runs with one observer more, and then that observer is gone. -/
theorem AfterOr.observed
    {o : Observer} {run : FaultyAnalysis Unit} {s : Session} {post : List Nat → Session → Prop}
    {stopped : Fault → Session → Prop}
    (h : AfterOr run { s with recorder := s.recorder.watch o }
      (fun _ s' => post s'.recorder.unwatch.1 { s' with recorder := s'.recorder.unwatch.2 })
      fun fault s' => stopped fault { s' with recorder := s'.recorder.unwatch.2 }) :
    AfterOr (Analysis.observed o run) s post stopped := by
  unfold Analysis.observed Analysis.onRecorder
  refine afterOr_mk.mpr (after_bind.mpr (after_modify.mpr ?_))
  refine after_bind.mpr (After.mono h ?_)
  rintro (fault | _) s' hs'
  · exact hs'
  · exact hs'

end DeclAnalysis
