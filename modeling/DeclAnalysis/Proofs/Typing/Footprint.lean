import DeclAnalysis.Proofs.Semantic.Walks
import DeclAnalysis.Proofs.Session.Frame
import DeclAnalysis.Proofs.Session.Observers
import DeclAnalysis.Proofs.Typing.Follows

/-!
# The footprint of typing

Typing an expression in a scope leaves alone what was there. Variables are bound only where the
scope keeps its bindings, and only those that the expression declares outside of its blocks; the
blocks are opened inside of the scope. Apart from that there are new variables, reports, and what
has been recorded about the nodes of the expression.
-/

namespace DeclAnalysis

/-- A scope without its variables and without what lies inside of it. -/
def Scope.outline (s : Scope) : Scope :=
  { s with children := [], bindings := { s.bindings with values := {} } }

/-! ## Scopes -/

namespace ScopeTree

/-- The scope is a block inside of another one, and nothing is bound in it but variables. -/
def IsBlock (t : ScopeTree) (parent id : Nat) : Prop :=
  (t.get id).outline = { kind := .block, parent := some parent }

/-- Variables have been bound and blocks have been opened. Of the scopes below the bound, only
`home` contains blocks that it did not contain before, and only variables have been bound in them
that may be bound. -/
structure Opens (bound home : Nat) (mayBind : Nat → String → Prop) (t t' : ScopeTree) : Prop where
  size_le : t.size ≤ t'.size
  outline_eq : ∀ id, id < t.size → (t'.get id).outline = (t.get id).outline
  values_eq : ∀ id, id < bound → ∀ name, ¬mayBind id name →
    (t'.get id).bindings.values[name]? = (t.get id).bindings.values[name]?
  children_eq : ∀ id, id < bound → id ≠ home → (t'.get id).children = (t.get id).children
  exists_opened : ∃ opened, (t'.get home).children = (t.get home).children ++ opened ∧
    ∀ id ∈ opened, t.size ≤ id ∧ t'.IsBlock home id
  exists_isBlock : ∀ id, t.size ≤ id → id < t'.size →
    ∃ p, p < id ∧ (p = home ∨ bound ≤ p) ∧ t'.IsBlock p id

variable {t t' t'' : ScopeTree} {bound home : Nat} {mayBind : Nat → String → Prop}

theorem IsBlock.lt_size {p id : Nat} (h : t.IsBlock p id) : id < t.size :=
  t.lt_size_of_parent (congrArg Scope.parent h)

namespace Opens

theorem of_get_eq
    (hsize : t'.size = t.size)
    (houtline : ∀ id, (t'.get id).outline = (t.get id).outline)
    (hchildren : ∀ id, (t'.get id).children = (t.get id).children)
    (hvalues : ∀ id, id < bound → ∀ name, ¬mayBind id name →
      (t'.get id).bindings.values[name]? = (t.get id).bindings.values[name]?) :
    Opens bound home mayBind t t' where
  size_le := hsize.ge
  outline_eq id _ := houtline id
  values_eq := hvalues
  children_eq id _ _ := hchildren id
  exists_opened := ⟨[], (hchildren home).trans (List.append_nil _).symm, nofun⟩
  exists_isBlock _ hle hlt := absurd (hlt.trans_le (hsize.le.trans hle)) (lt_irrefl _)

theorem refl (t : ScopeTree) : Opens bound home mayBind t t :=
  of_get_eq rfl (fun _ => rfl) (fun _ => rfl) fun _ _ _ _ => rfl

theorem isBlock (h : Opens bound home mayBind t t') {p id : Nat} (hid : t.IsBlock p id) :
    t'.IsBlock p id :=
  (h.outline_eq id hid.lt_size).trans hid

theorem trans (h : Opens bound home mayBind t t') (h' : Opens bound home mayBind t' t'') :
    Opens bound home mayBind t t'' where
  size_le := h.size_le.trans h'.size_le
  outline_eq id hid := (h'.outline_eq id (hid.trans_le h.size_le)).trans (h.outline_eq id hid)
  values_eq id hid name hname :=
    (h'.values_eq id hid name hname).trans (h.values_eq id hid name hname)
  children_eq id hid hne := (h'.children_eq id hid hne).trans (h.children_eq id hid hne)
  exists_opened := by
    obtain ⟨opened, hchildren, hopened⟩ := h.exists_opened
    obtain ⟨opened', hchildren', hopened'⟩ := h'.exists_opened
    refine ⟨opened ++ opened', ?_, fun id hid => ?_⟩
    · rw [hchildren', hchildren, List.append_assoc]
    · rcases List.mem_append.mp hid with hid | hid
      · exact ⟨(hopened id hid).1, h'.isBlock (hopened id hid).2⟩
      · exact ⟨h.size_le.trans (hopened' id hid).1, (hopened' id hid).2⟩
  exists_isBlock id hle hlt := by
    by_cases hid : id < t'.size
    · obtain ⟨p, hp, hwhere, hblock⟩ := h.exists_isBlock id hle hid
      exact ⟨p, hp, hwhere, h'.isBlock hblock⟩
    · exact h'.exists_isBlock id (Nat.le_of_not_lt hid) hlt

/-- A block is opened inside of `home`, or inside of a scope that is not below the bound. -/
theorem create
    {scope : Nat} (hscope : scope < t.size) (hwhere : scope = home ∨ bound ≤ scope) :
    Opens bound home mayBind t (t.create .block (some scope) none).2 := by
  have hparent : ∀ p, some scope = some p → p < t.size := by
    rintro _ ⟨⟩
    exact hscope
  have hne : some scope ≠ some t.size := fun heq => hscope.ne (Option.some.inj heq)
  have hblock : (t.create .block (some scope) none).2.IsBlock scope t.size :=
    congrArg Scope.outline (t.get_create_size hne .block none)
  have hchildren := t.children_get_create .block none hparent
  refine ⟨?_, fun id hid => ?_, fun id _ name _ => ?_, fun id hid hhome => ?_, ?_,
    fun id hle hlt => ?_⟩
  · rw [size_create]
    exact Nat.le_succ _
  · obtain ⟨children, hget⟩ := t.get_create_of_ne hid.ne .block (some scope) none
    exact (congrArg Scope.outline hget).trans rfl
  · rw [t.bindings_get_create]
  · have hother : some scope ≠ some id := by
      rintro ⟨⟩
      exact hwhere.elim hhome hid.not_ge
    rw [hchildren, if_neg hother, List.append_nil]
  · rw [hchildren]
    refine ⟨_, rfl, fun id hid => ?_⟩
    split at hid
    · rename_i heq
      obtain rfl := Option.some.inj heq
      obtain rfl := List.mem_singleton.mp hid
      exact ⟨le_rfl, hblock⟩
    · cases hid
  · rw [size_create] at hlt
    obtain rfl := Nat.le_antisymm (Nat.le_of_lt_succ hlt) hle
    exact ⟨scope, hscope, hwhere, hblock⟩

/-- A variable is bound that may be bound. -/
theorem addVariable
    {scope : Nat} {name : String}
    (h : bound ≤ t.storage scope ∨ mayBind (t.storage scope) name) (descriptor : Nat) :
    Opens bound home mayBind t (t.addVariable scope name descriptor) := by
  have hspares : t.Spares bound mayBind (t.addVariable scope name descriptor) :=
    .addVariable h descriptor
  refine of_get_eq (t.size_bind ..) (fun id => ?_) (fun id => ?_) hspares.values_eq
  · rcases t.get_bind_cases scope id _ with hget | ⟨-, hget⟩
    · exact congrArg Scope.outline hget
    · exact (congrArg Scope.outline hget).trans rfl
  · rcases t.get_bind_cases scope id _ with hget | ⟨-, hget⟩
    · exact congrArg Scope.children hget
    · exact (congrArg Scope.children hget).trans rfl

variable (h : Opens bound home mayBind t t')

include h

/-- A scope that was not there is a block now, or still not there. -/
theorem outline_of_size_le {id : Nat} (hid : t.size ≤ id) :
    ∃ kind parent, (t'.get id).outline = { kind, parent } ∧ ∀ p, parent = some p → p < id := by
  by_cases hlt : id < t'.size
  · obtain ⟨p, hp, -, hblock⟩ := h.exists_isBlock id hid hlt
    refine ⟨_, _, hblock, ?_⟩
    rintro _ ⟨⟩
    exact hp
  · rw [t'.get_of_size_le (Nat.le_of_not_lt hlt)]
    exact ⟨.root, none, rfl, nofun⟩

theorem nests : t.Nests t' := by
  have hold : ∀ {β : Type} (f : Scope → β) (id : Nat), id < t.size →
      f (t'.get id).outline = f (t.get id).outline :=
    fun f id hid => congrArg f (h.outline_eq id hid)
  have hall : ∀ {β : Type} (f : Scope → β),
      (∀ kind parent, f { kind, parent } = f { kind := .root }) →
        ∀ id, f (t'.get id).outline = f (t.get id).outline := by
    intro β f hf id
    by_cases hid : id < t.size
    · exact hold f id hid
    · obtain ⟨kind, parent, houtline, -⟩ := h.outline_of_size_le (Nat.le_of_not_lt hid)
      rw [houtline, t.get_of_size_le (Nat.le_of_not_lt hid)]
      exact hf kind parent
  exact ⟨h.size_le, hold Scope.kind, hold Scope.owner, hold Scope.parent,
    hall Scope.writeTarget fun _ _ => rfl, hall Scope.imports fun _ _ => rfl,
    hall (·.bindings.classifiers) fun _ _ => rfl, hall (·.bindings.namespaces) fun _ _ => rfl⟩

theorem ordered (ht : t.Ordered) : t'.Ordered := by
  refine ⟨fun {id p} hp => ?_, fun {id target} htarget => ?_⟩
  · by_cases hid : id < t.size
    · exact ht.parent_lt ((h.nests.parent_eq id hid).symm.trans hp)
    · obtain ⟨kind, parent, houtline, hlt⟩ := h.outline_of_size_le (Nat.le_of_not_lt hid)
      exact hlt p ((congrArg Scope.parent houtline).symm.trans hp)
  · exact ht.target_lt ((h.nests.writeTarget_eq id).symm.trans htarget)

end Opens

end ScopeTree

/-! ## Descriptors -/

namespace DescriptorTable

/-- Variables have been added, and everything else is as it was. -/
structure AddsVariables (t t' : DescriptorTable) : Prop where
  size_le : t.size ≤ t'.size
  get_eq : ∀ id, id < t.size → t'.get id = t.get id
  exists_variable : ∀ id, t.size ≤ id → id < t'.size →
    ∃ data, (t'.get id).kind = .variableKind data

namespace AddsVariables

variable {t t' t'' : DescriptorTable}

theorem refl (t : DescriptorTable) : t.AddsVariables t :=
  ⟨le_rfl, fun _ _ => rfl, fun _ hle hlt => absurd hlt hle.not_gt⟩

theorem trans (h : t.AddsVariables t') (h' : t'.AddsVariables t'') : t.AddsVariables t'' where
  size_le := h.size_le.trans h'.size_le
  get_eq id hid := (h'.get_eq id (hid.trans_le h.size_le)).trans (h.get_eq id hid)
  exists_variable id hle hlt := by
    by_cases hid : id < t'.size
    · rw [h'.get_eq id hid]
      exact h.exists_variable id hle hid
    · exact h'.exists_variable id (Nat.le_of_not_lt hid) hlt

theorem create (t : DescriptorTable) (name : String) (container : Option Nat)
    (data : VariableData) : t.AddsVariables (t.create name container (.variableKind data)).2 := by
  refine ⟨?_, fun id hid => t.get_create_of_ne _ _ _ hid.ne, fun id hle hlt => ?_⟩
  · rw [size_create]
    exact Nat.le_succ _
  · rw [size_create] at hlt
    obtain rfl := Nat.le_antisymm (Nat.le_of_lt_succ hlt) hle
    rw [t.get_create_size]
    exact ⟨data, rfl⟩

end AddsVariables

end DescriptorTable

/-! ## What is recorded -/

/-- About a node the same has been recorded. -/
structure Trace.SameAt (node : Nat) (t t' : Trace) : Prop where
  declarations_eq : t'.declarations[node]? = t.declarations[node]?
  references_eq : t'.references[node]? = t.references[node]?
  expressionTypes_eq : t'.expressionTypes[node]? = t.expressionTypes[node]?
  typeReferences_eq : t'.typeReferences[node]? = t.typeReferences[node]?

theorem Trace.SameAt.trans {node : Nat} {t t' t'' : Trace} (h : SameAt node t t')
    (h' : SameAt node t' t'') : SameAt node t t'' :=
  ⟨h'.declarations_eq.trans h.declarations_eq, h'.references_eq.trans h.references_eq,
    h'.expressionTypes_eq.trans h.expressionTypes_eq,
    h'.typeReferences_eq.trans h.typeReferences_eq⟩

/-- It records something about one of the nodes. -/
def TraceOperation.RecordsAbout (nodes : List Nat) : TraceOperation → Prop
  | recordDeclaration node _ | recordReference node _ _ | recordExpressionType node _
  | recordTypeReference node _ => node ∈ nodes
  | _ => False

namespace Recorder

variable {r r' r'' : Recorder} {nodes : List Nat} {op : TraceOperation} {ops : List TraceOperation}

theorem performAll_append (r : Recorder) (ops ops' : List TraceOperation) :
    (r.performAll (ops ++ ops')).2 = ((r.performAll ops).2.performAll ops').2 := by
  induction ops generalizing r with
  | nil => rfl
  | cons op ops ih => exact ih _

theorem sameAt_perform (hop : op.RecordsAbout nodes) {node : Nat} (hnode : node ∉ nodes) :
    r.trace.SameAt node (r.perform op).2.trace := by
  have hinsert : ∀ {α : Type} {node' : Nat} (m : Std.TreeMap Nat α) (a : α), node' ∈ nodes →
      (m.insert node' a)[node]? = m[node]? := by
    intro α node' m a hnode'
    have hne : node' ≠ node := fun heq => hnode (heq ▸ hnode')
    exact getElem?_insert_of_ne hne
  cases op with
  | recordDeclaration node' descriptor =>
      exact ⟨hinsert _ _ hop, rfl, rfl, rfl⟩
  | recordReference node' kind descriptor =>
      obtain ⟨fields, htrace⟩ := Session.trace_recordReference r node' kind descriptor
      change r.trace.SameAt node (r.recordReference node' kind descriptor).trace
      rw [htrace]
      exact ⟨rfl, hinsert _ _ hop, rfl, rfl⟩
  | recordExpressionType node' type => exact ⟨rfl, rfl, hinsert _ _ hop, rfl⟩
  | recordTypeReference node' type => exact ⟨rfl, rfl, rfl, hinsert _ _ hop⟩
  | _ => exact hop.elim

theorem sameAt_performAll (hops : ∀ op ∈ ops, op.RecordsAbout nodes) {node : Nat}
    (hnode : node ∉ nodes) : r.trace.SameAt node (r.performAll ops).2.trace := by
  induction ops generalizing r with
  | nil => exact ⟨rfl, rfl, rfl, rfl⟩
  | cons op ops ih =>
      obtain ⟨hop, hops⟩ := List.forall_mem_cons.mp hops
      exact (sameAt_perform hop hnode).trans (ih hops)

theorem tracker_mem_perform_iff {property : Nat} :
    .tracker property ∈ (r.perform op).2.observers ↔ .tracker property ∈ r.observers := by
  cases op with
  | recordReference node kind descriptor => exact Observer.tracker_mem_seeAll_iff
  | _ => exact .rfl

/-- A backing field is recorded only for a property that is referred to and tracked. -/
theorem hasBackingField_perform (hop : op.RecordsAbout nodes) (property : Nat) :
    (r.perform op).2.trace.hasBackingField property =
      (r.trace.hasBackingField property ||
        (decide (.tracker property ∈ r.observers) && op.refersTo property)) := by
  cases op with
  | recordReference node kind descriptor =>
      cases kind with
      | identifier =>
          simp only [perform, recordReference_identifier, TraceOperation.refersTo, Bool.and_false,
            Bool.or_false]
          rfl
      | fieldIdentifier =>
          simp only [perform, hasBackingField_recordReference, TraceOperation.refersTo]
          by_cases hproperty : property = descriptor
          · simp [hproperty]
          · simp [hproperty, Ne.symm hproperty]
  | recordDeclaration | recordExpressionType | recordTypeReference =>
      simp only [TraceOperation.refersTo, Bool.and_false, Bool.or_false]
      rfl
  | _ => exact hop.elim

theorem hasBackingField_performAll (hops : ∀ op ∈ ops, op.RecordsAbout nodes) (property : Nat) :
    (r.performAll ops).2.trace.hasBackingField property =
      (r.trace.hasBackingField property ||
        (decide (.tracker property ∈ r.observers) && ops.any (·.refersTo property))) := by
  induction ops generalizing r with
  | nil => simp [performAll]
  | cons op ops ih =>
      obtain ⟨hop, hops⟩ := List.forall_mem_cons.mp hops
      simp only [performAll, ih hops, hasBackingField_perform hop, tracker_mem_perform_iff,
        List.any_cons, Bool.or_assoc, Bool.and_or_distrib_left]

/-- Something has been recorded about the nodes, and nothing else has been done. -/
def GoesOn (nodes : List Nat) (r r' : Recorder) : Prop :=
  ∃ ops : List TraceOperation, (∀ op ∈ ops, op.RecordsAbout nodes) ∧ r' = (r.performAll ops).2

theorem GoesOn.refl (nodes : List Nat) (r : Recorder) : GoesOn nodes r r := ⟨[], nofun, rfl⟩

theorem GoesOn.trans (h : GoesOn nodes r r') (h' : GoesOn nodes r' r'') : GoesOn nodes r r'' := by
  obtain ⟨ops, hops, rfl⟩ := h
  obtain ⟨ops', hops', rfl⟩ := h'
  exact ⟨ops ++ ops', List.forall_mem_append.mpr ⟨hops, hops'⟩, (r.performAll_append ops ops').symm⟩

theorem GoesOn.perform (hop : op.RecordsAbout nodes) : GoesOn nodes r (r.perform op).2 :=
  ⟨[op], List.forall_mem_singleton.mpr hop, rfl⟩

end Recorder

namespace Session

/-- What may be left behind by typing. -/
structure Footprint where
  /-- The nodes about which something may be recorded. -/
  nodes : List Nat
  /-- The number of scopes that were there at the beginning. -/
  bound : Nat
  /-- The one of these scopes inside of which blocks may be opened. -/
  home : Nat
  /-- The variables that may be bound in these scopes. -/
  mayBind : Nat → String → Prop

namespace Footprint

/-- What has happened between two sessions stays within the footprint. -/
structure Within (fp : Footprint) (s s' : Session) : Prop where
  scopes : s.scopes.Opens fp.bound fp.home fp.mayBind s'.scopes
  descriptors : s.descriptors.AddsVariables s'.descriptors
  recorder : s.recorder.GoesOn fp.nodes s'.recorder
  diagnostics : s.diagnostics.toList <+: s'.diagnostics.toList

variable {fp : Footprint} {s s' s'' : Session}

namespace Within

theorem refl (fp : Footprint) (s : Session) : fp.Within s s :=
  ⟨.refl _, .refl _, .refl _ _, List.prefix_rfl⟩

theorem trans (h : fp.Within s s') (h' : fp.Within s' s'') : fp.Within s s'' :=
  ⟨h.scopes.trans h'.scopes, h.descriptors.trans h'.descriptors, h.recorder.trans h'.recorder,
    h.diagnostics.trans h'.diagnostics⟩

instance (fp : Footprint) : IsPreorder Session fp.Within where
  refl := .refl fp
  trans _ _ _ := .trans

theorem of_report (d : Diagnostic) :
    fp.Within s { s with diagnostics := s.diagnostics.push d } := by
  refine ⟨.refl _, .refl _, .refl _ _, ?_⟩
  rw [Array.toList_push]
  exact List.prefix_append ..

theorem of_perform {op : TraceOperation} (hop : op.RecordsAbout fp.nodes) :
    fp.Within s { s with recorder := (s.recorder.perform op).2 } :=
  ⟨.refl _, .refl _, .perform hop, List.prefix_rfl⟩

theorem of_scopes {t : ScopeTree} (h : s.scopes.Opens fp.bound fp.home fp.mayBind t) :
    fp.Within s { s with model.scopes := t } :=
  ⟨h, .refl _, .refl _ _, List.prefix_rfl⟩

theorem of_entry (h : Entry fp.nodes s s') : fp.Within s s' := by
  cases h with
  | report => exact of_report _
  | @recordDeclaration node hnode descriptor =>
      have hop : (TraceOperation.recordDeclaration node descriptor).RecordsAbout fp.nodes := hnode
      exact of_perform hop
  | @recordReference node hnode kind descriptor =>
      have hop : (TraceOperation.recordReference node kind descriptor).RecordsAbout fp.nodes :=
        hnode
      exact of_perform hop
  | @recordExpressionType node hnode type =>
      have hop : (TraceOperation.recordExpressionType node type).RecordsAbout fp.nodes := hnode
      exact of_perform hop

theorem of_recordTypeReference {node : Nat} (hnode : node ∈ fp.nodes) (type : Ty) :
    fp.Within s { s with recorder := s.recorder.recordTypeReference node type } :=
  have hop : (TraceOperation.recordTypeReference node type).RecordsAbout fp.nodes := hnode
  of_perform hop

instance (fp : Footprint) : AllowsEntries fp.nodes fp.Within where
  of_entry := of_entry

instance (fp : Footprint) (nodes : List Nat) : AllowsMismatches nodes fp.Within where
  of_mismatch _ _ := of_report _

end Within

/-! ## The ground of a footprint -/

/-- The variables may be declared in the scope, and blocks may be opened in it. -/
structure Admits (fp : Footprint) (locals : List String) (scope : Nat) (s : Session) : Prop where
  ordered : s.scopes.Ordered
  lt_size : scope < s.scopes.size
  bound_le : fp.bound ≤ s.scopes.size
  isInside : scope = fp.home ∨ fp.bound ≤ scope
  mayBind : ∀ name ∈ locals,
    fp.bound ≤ s.scopes.storage scope ∨ fp.mayBind (s.scopes.storage scope) name

/-- Any variables may be declared in the scope. -/
structure AdmitsAll (fp : Footprint) (scope : Nat) (s : Session) : Prop where
  admits : fp.Admits [] scope s
  bound_le_storage : fp.bound ≤ s.scopes.storage scope

/-- What a footprint allows in the scopes of a session. -/
def ground (fp : Footprint) : Ground :=
  ⟨fun locals _ scope s => fp.Admits locals scope s, fun _ scope s => fp.AdmitsAll scope s⟩

variable {locals : List String} {scope : Nat}

theorem Within.storage_eq (h : fp.Within s s') (hs : s.scopes.Ordered) (scope : Nat) :
    s'.scopes.storage scope = s.scopes.storage scope :=
  h.scopes.nests.storage_eq hs (h.scopes.ordered hs) scope

theorem Admits.of_within (h : fp.Admits locals scope s) (hwithin : fp.Within s s') :
    fp.Admits locals scope s' where
  ordered := hwithin.scopes.ordered h.ordered
  lt_size := h.lt_size.trans_le hwithin.scopes.size_le
  bound_le := h.bound_le.trans hwithin.scopes.size_le
  isInside := h.isInside
  mayBind := by
    rw [hwithin.storage_eq h.ordered]
    exact h.mayBind

theorem AdmitsAll.of_within (h : fp.AdmitsAll scope s) (hwithin : fp.Within s s') :
    fp.AdmitsAll scope s' := by
  refine ⟨h.admits.of_within hwithin, ?_⟩
  rw [hwithin.storage_eq h.admits.ordered]
  exact h.bound_le_storage

/-- A block is opened in the scope, and what is declared in it is new. -/
theorem Admits.createBlock (h : fp.Admits locals scope s) :
    After (Analysis.createScope .block (some scope) none) s fun inner s' =>
      fp.Within s s' ∧ fp.AdmitsAll inner s' := by
  have hne : some scope ≠ some s.scopes.size := fun heq => h.lt_size.ne (Option.some.inj heq)
  let t := (s.scopes.create .block (some scope) none).2
  have hwithin : fp.Within s { s with model.scopes := t } :=
    .of_scopes (.create h.lt_size h.isInside)
  have hsize : t.size = s.scopes.size + 1 := s.scopes.size_create ..
  have hstorage : t.storage s.scopes.size = s.scopes.size :=
    s.scopes.storage_create hne .block none
  refine ⟨hwithin, ?_⟩
  change fp.AdmitsAll ((s.scopes.create .block (some scope) none).1) _
  rw [s.scopes.fst_create]
  refine ⟨⟨hwithin.scopes.ordered h.ordered, ?_, h.bound_le.trans hwithin.scopes.size_le,
    .inr h.bound_le, nofun⟩, h.bound_le.trans hstorage.ge⟩
  exact (Nat.lt_succ_self _).trans_eq hsize.symm

instance (fp : Footprint) : fp.ground.Infers fp.nodes fp.Within where
  stable_admits h hs := Admits.of_within hs h
  stable_fresh h hs := AdmitsAll.of_within hs h
  admits_of_fresh h _ := ⟨h.admits.ordered, h.admits.lt_size, h.admits.bound_le,
    h.admits.isInside, fun _ _ => .inl h.bound_le_storage⟩
  createVariable name container _ _ := ⟨fun s =>
    ⟨.refl _, .create s.descriptors name container _, .refl _ _, List.prefix_rfl⟩⟩
  resolveTypeRef _ _ hnode :=
    (Analysis.keeps_resolveTypeRef_of (fun _ => ⟨fun _ => .of_report _⟩)
      (fun type => ⟨fun _ => .of_recordTypeReference hnode type⟩) _).after _
  createBlock h := Admits.createBlock h
  addVariable h hname descriptor := .of_scopes (.addVariable (Admits.mayBind h _ hname) descriptor)

end Footprint

end Session

namespace Analysis

open Session (Footprint)

/-- Typing an expression in a scope leaves all descriptors alone that exist. It leaves the scopes
alone that exist, apart from the variables where the scope keeps its bindings, among which only
those change that the expression declares outside of its blocks, and from new blocks that are
appended to the children of the scope. What is new are variables, blocks, reports after those that
there were, and what is recorded about the nodes of the expression. -/
theorem infer_footprint (s : Session) (scope : Nat) (e : Expr) (hreachable : s.scopes.Reachable)
    (hscope : scope < s.scopes.size) :
    let s' := ((infer scope e).run s).2
    (s.descriptors.size ≤ s'.descriptors.size ∧
      ∀ id, id < s.descriptors.size → s'.descriptors.get id = s.descriptors.get id) ∧
    (∀ id, s.descriptors.size ≤ id → id < s'.descriptors.size →
      ∃ data, (s'.descriptors.get id).kind = .variableKind data) ∧
    s.scopes.size ≤ s'.scopes.size ∧
    (∀ id, id < s.scopes.size →
      (s'.scopes.get id).outline = (s.scopes.get id).outline ∧
      (∀ name, id ≠ s.scopes.storage scope ∨ name ∉ e.openLocals →
        (s'.scopes.get id).bindings.values[name]? = (s.scopes.get id).bindings.values[name]?) ∧
      (id ≠ scope → (s'.scopes.get id).children = (s.scopes.get id).children)) ∧
    (∃ opened, (s'.scopes.get scope).children = (s.scopes.get scope).children ++ opened ∧
      ∀ id ∈ opened, s.scopes.size ≤ id ∧ s'.scopes.IsBlock scope id) ∧
    (∀ id, s.scopes.size ≤ id → id < s'.scopes.size →
      ∃ p, p < id ∧ (p = scope ∨ s.scopes.size ≤ p) ∧ s'.scopes.IsBlock p id) ∧
    s.diagnostics.toList <+: s'.diagnostics.toList ∧
    ∃ ops : List TraceOperation, (∀ op ∈ ops, op.RecordsAbout e.nodes) ∧
      s'.recorder = (s.recorder.performAll ops).2 ∧
      (∀ node, node ∉ e.nodes → s.trace.SameAt node s'.trace) ∧
      ∀ property, s'.trace.hasBackingField property =
        (s.trace.hasBackingField property ||
          (decide (.tracker property ∈ s.recorder.observers) &&
            ops.any (·.refersTo property))) := by
  let fp : Footprint :=
    { nodes := e.nodes
      bound := s.scopes.size
      home := scope
      mayBind := fun id name => id = s.scopes.storage scope ∧ name ∈ e.openLocals }
  have hadmits : fp.ground.admits e.openLocals e.typeRefs scope s :=
    ⟨hreachable.closed.toOrdered, hscope, le_rfl, .inl rfl, fun name hname => .inr ⟨rfl, hname⟩⟩
  have hinfer : Keeps (From (fp.ground.admits e.openLocals e.typeRefs scope) fp.Within)
      (infer scope e) :=
    keepsFrom_inferWithin scope e (List.Subset.refl _) (List.Subset.refl _) (List.Subset.refl _)
  obtain ⟨hscopes, hdescriptors, ⟨ops, hops, hrecorder⟩, hdiagnostics⟩ := hinfer.after s hadmits
  intro s'
  refine ⟨⟨hdescriptors.size_le, hdescriptors.get_eq⟩, hdescriptors.exists_variable,
    hscopes.size_le, fun id hid => ⟨hscopes.outline_eq id hid, fun name hname => ?_,
      hscopes.children_eq id hid⟩, hscopes.exists_opened, hscopes.exists_isBlock, hdiagnostics,
    ops, hops, hrecorder, fun node hnode => ?_, fun property => ?_⟩
  · exact hscopes.values_eq id hid name fun hmay => hname.elim (· hmay.1) (· hmay.2)
  · change s.trace.SameAt node s'.recorder.trace
    rw [hrecorder]
    exact Recorder.sameAt_performAll hops hnode
  · change s'.recorder.trace.hasBackingField property = _
    rw [hrecorder]
    exact Recorder.hasBackingField_performAll hops property

/-- The body of a namespace, which keeps its bindings in the scope of the members. -/
def bodyOfNamespace : Session :=
  let members := Model.initial.scopes.create .namespaceScope (some Model.root) none
  { model := { Model.initial with
      scopes := (members.2.createWriteThrough Model.root members.1).2 } }

/-- A variable is declared in the one branch, and another one inside of the block that is the other
branch. -/
def branches : Expr :=
  .cond 1 (.constant 2 (.bool true)) (.localVariable 3 "x" false none (some (.constant 4 (.int 1))))
    (some (.block 5 [.localVariable 6 "y" false none (some (.constant 7 (.int 2)))]))

theorem infer_footprint_branches :
    let s' := ((infer 2 branches).run bodyOfNamespace).2
    bodyOfNamespace.scopes.Reachable ∧ 2 < bodyOfNamespace.scopes.size ∧
    bodyOfNamespace.scopes.storage 2 = 1 ∧ branches.openLocals = ["x"] ∧
    ((s'.scopes.get 1).bindings.values["x"]?).isSome ∧ (s'.scopes.get 2).children = [3] ∧
    (∀ name, name ≠ "x" → (s'.scopes.get 1).bindings.values[name]? =
      (bodyOfNamespace.scopes.get 1).bindings.values[name]?) ∧
    ∃ opened, (s'.scopes.get 2).children = (bodyOfNamespace.scopes.get 2).children ++ opened ∧
      ∀ id ∈ opened, bodyOfNamespace.scopes.size ≤ id ∧ s'.scopes.IsBlock 2 id := by
  intro s'
  have hmembers :
      (Model.initial.scopes.create .namespaceScope (some Model.root) none).2.Reachable :=
    .create .initial _ (fun p hp => Option.some.inj hp ▸ Nat.zero_lt_one) _
  have hreachable : bodyOfNamespace.scopes.Reachable :=
    .createWriteThrough hmembers (by decide) (by decide)
  have hscope : 2 < bodyOfNamespace.scopes.size := by decide
  obtain ⟨-, -, -, hold, hopened, -⟩ :=
    infer_footprint bodyOfNamespace 2 branches hreachable hscope
  refine ⟨hreachable, hscope, by decide, by decide, by decide +kernel, by decide +kernel,
    fun name hname => ?_, hopened⟩
  refine (hold 1 (by decide)).2.1 name (.inr ?_)
  exact fun hmem => hname (List.mem_singleton.mp hmem)

end Analysis

end DeclAnalysis
