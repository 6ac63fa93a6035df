import DeclAnalysis.Proofs.Logs
import DeclAnalysis.Proofs.Semantic.Walks
import DeclAnalysis.Proofs.Session.Operations
import DeclAnalysis.Proofs.Tree.NameEvents

/-!
# What names refer to

Typing keeps no list of the local variables that are in scope; it creates scopes and binds names in
them. At every point what is looked up from the current scope agrees with the frames of the blocks
that are open: a name that has a variable in the frames is bound to it, and any other name means
what it meant at the beginning. Blocks that have been left no longer show, for nothing refers to
their scopes.
-/

namespace DeclAnalysis

namespace ScopeTree

variable {t : ScopeTree}

theorem lookup?_eq_some_of_local?
    {α : Type} {pick : Bindings → Option α} {id : Nat} (hid : id < t.size) {a : α}
    (h : t.local? pick id = some a) : t.lookup? pick id = some a := by
  obtain ⟨n, hn⟩ := Nat.exists_eq_add_one_of_ne_zero (Nat.ne_zero_of_lt hid)
  unfold lookup? ancestors
  rw [hn, chain, List.findSome?_cons, h]

/-- A variable hides what its name meant before, and nothing else. -/
theorem Closed.value?_addVariable
    (h : t.Closed) {scope : Nat} (hscope : scope < t.size) (name : String) (v : Nat)
    (name' : String) :
    (t.addVariable scope name v).value? scope name' =
      if name' = name then some v else t.value? scope name' := by
  have hnests : t.Nests (t.addVariable scope name v) := .bind scope (fun _ => rfl) fun _ => rfl
  have hclosed : (t.addVariable scope name v).Closed := h.bind scope _
  by_cases hname : name' = name
  · subst hname
    rw [if_pos rfl]
    refine lookup?_eq_some_of_local? (hscope.trans_le hnests.size_le) ?_
    have hbindings : (t.addVariable scope name' v).bindings scope =
        { t.bindings scope with values := (t.bindings scope).values.insert name' v } := by
      unfold bindings
      rw [hnests.storage_eq h.toOrdered hclosed.toOrdered]
      unfold addVariable
      rw [t.get_bind_storage (h.storage_lt hscope)]
    unfold local?
    rw [hbindings]
    simp
  · rw [if_neg hname]
    refine hnests.lookup?_eq (fun id => ?_) h.toOrdered hclosed.toOrdered hscope
    rcases t.get_bind_cases scope id
      (fun b => { b with values := b.values.insert name v }) with hget | ⟨-, hget⟩
    · exact congrArg (fun s : Scope => s.bindings.values[name']?) hget
    · refine (congrArg (fun s : Scope => s.bindings.values[name']?) hget).trans ?_
      exact getElem?_insert_of_ne (Ne.symm hname)

section

variable (h : t.Closed) {scope : Nat} (hscope : scope < t.size) (kind : ScopeKind)
  (owner : Option Nat) {α : Type} {pick : Bindings → Option α}

include h hscope

/-- What is looked up in a new scope is what is looked up around it. -/
theorem Closed.lookup?_create (hempty : pick {} = none) :
    (t.create kind (some scope) owner).2.lookup? pick t.size = t.lookup? pick scope := by
  have hparent : ∀ p, some scope = some p → p < t.size := by
    rintro _ ⟨⟩
    exact hscope
  have hne : some scope ≠ some t.size := fun heq => (hparent _ heq).ne rfl
  have hcreated := h.toOrdered.create hparent kind owner
  have hget := t.get_create_size hne kind owner
  rw [hcreated.lookup?_inner (by rw [hget]) (by rw [hget]) (by rw [hget])
    (by rw [hget]; exact hempty)]
  refine (Nests.create hne kind owner).lookup?_eq (fun id => ?_) h.toOrdered hcreated hscope
  rw [t.bindings_get_create]

end

end ScopeTree

namespace Session

variable {s s' s'' : Session}

/-- How many things that a node refers to have been found missing. -/
def missing (s : Session) (node : Nat) : Nat :=
  s.diagnostics.toList.countP fun d => d.code = .unresolvedReference ∧ d.node = node

/-- About a node nothing more has been recorded or found missing. -/
structure SameNode (s s' : Session) (node : Nat) : Prop where
  reference?_eq : s'.trace.reference? node = s.trace.reference? node
  declaration?_eq : s'.trace.declaration? node = s.trace.declaration? node
  missing_eq : s'.missing node = s.missing node

theorem SameNode.refl (s : Session) (node : Nat) : SameNode s s node := ⟨rfl, rfl, rfl⟩

theorem SameNode.trans {node : Nat} (h : SameNode s s' node) (h' : SameNode s' s'' node) :
    SameNode s s'' node :=
  ⟨h'.reference?_eq.trans h.reference?_eq, h'.declaration?_eq.trans h.declaration?_eq,
    h'.missing_eq.trans h.missing_eq⟩

/-- The scopes are the same, and only about some nodes anything more has been recorded or found
missing. -/
structure Silent (nodes : List Nat) (s s' : Session) : Prop where
  scopes_eq : s'.scopes = s.scopes
  same : ∀ {node : Nat}, node ∉ nodes → SameNode s s' node

instance (nodes : List Nat) : IsPreorder Session (Silent nodes) where
  refl s := ⟨rfl, fun _ => .refl s _⟩
  trans _ _ _ h h' :=
    ⟨h'.scopes_eq.trans h.scopes_eq, fun hnode => (h.same hnode).trans (h'.same hnode)⟩

theorem Silent.of_report
    {nodes : List Nat} {d : Diagnostic} (h : d.code = .unresolvedReference → d.node ∈ nodes) :
    Silent nodes s { s with diagnostics := s.diagnostics.push d } := by
  refine ⟨rfl, fun {node} hnode => ⟨rfl, rfl, ?_⟩⟩
  change List.countP _ (s.diagnostics.push d).toList = List.countP _ s.diagnostics.toList
  have hother : ¬(d.code = .unresolvedReference ∧ d.node = node) :=
    fun ⟨hcode, heq⟩ => hnode (heq ▸ h hcode)
  rw [Array.toList_push, List.countP_append, List.countP_singleton, if_neg (by simpa using hother),
    Nat.add_zero]

theorem Silent.of_entry {nodes : List Nat} (h : Entry nodes s s') : Silent nodes s s' := by
  cases h with
  | report _ hnode => exact .of_report hnode
  | @recordDeclaration node hnode descriptor =>
      refine ⟨rfl, fun {node'} hnode' => ⟨rfl, ?_, rfl⟩⟩
      have hne : node ≠ node' := fun heq => hnode' (heq ▸ hnode)
      change (s.trace.declarations.insert node descriptor)[node']? = _
      rw [getElem?_insert_of_ne hne]
      rfl
  | @recordReference node hnode kind descriptor =>
      refine ⟨rfl, fun {node'} hnode' => ?_⟩
      obtain ⟨fields, htrace⟩ := trace_recordReference s.recorder node kind descriptor
      have hne : node ≠ node' := fun heq => hnode' (heq ▸ hnode)
      refine ⟨?_, congrArg (·.declaration? node') htrace, rfl⟩
      refine (congrArg (·.reference? node') htrace).trans ?_
      change ((s.trace.references.insert node (kind, descriptor))[node']?).map _ = _
      rw [getElem?_insert_of_ne hne]
      rfl
  | recordExpressionType => exact ⟨rfl, fun {_} _ => ⟨rfl, rfl, rfl⟩⟩

instance (nodes : List Nat) : AllowsEntries nodes (Silent nodes) where
  of_entry := .of_entry

instance (sites nodes : List Nat) : AllowsMismatches sites (Silent nodes) where
  of_mismatch _ _ := .of_report nofun

/-! ## Agreement with frames -/

/-- What is looked up from the scope is what the frames say, and else what is given by `values` and
`namespaces`. -/
structure Agrees (values namespaces : String → Option Nat) (frames : Frames) (scope : Nat)
    (s : Session) : Prop where
  declared : ∀ {name : String} {node : Nat}, frames.declared? name = some node →
    ∃ v, s.trace.declaration? node = some v ∧ s.scopes.value? scope name = some v
  value?_eq : ∀ {name : String}, frames.declared? name = none →
    s.scopes.value? scope name = values name
  namespaces_eq : ∀ name, s.scopes.namespace? scope name = namespaces name

/-- Between the sessions a name has been looked up: the variable that has been read off for it, or
else what is given by `values` or `namespaces`, is what the node refers to. If there is none of
these, this has been found once. -/
structure Reads (values namespaces : String → Option Nat) (r : Reading) (s s' : Session) :
    Prop where
  declared : ∀ {node : Nat}, r.declared? = some node →
    ∃ v, s'.trace.declaration? node = some v ∧ s'.trace.reference? r.node = some v ∧
      s'.missing r.node = s.missing r.node
  outside : r.declared? = none →
    s'.trace.reference? r.node = (values r.name).or (namespaces r.name) ∧
      s'.missing r.node = s.missing r.node +
        if ((values r.name).or (namespaces r.name)).isNone then 1 else 0

variable {values namespaces : String → Option Nat} {frames : Frames} {scope : Nat}
  {xs ys : List NameEvent}

/-- The frames still agree if the same is found from another scope and the declarations of their
variables are the same. -/
theorem Agrees.of_lookups
    {scope' : Nat} (h : s.Agrees values namespaces frames scope)
    (hvalue : ∀ name, s'.scopes.value? scope' name = s.scopes.value? scope name)
    (hnamespace : ∀ name, s'.scopes.namespace? scope' name = s.scopes.namespace? scope name)
    (hsame : ∀ node ∈ frames.nodes, SameNode s s' node) :
    s'.Agrees values namespaces frames scope' := by
  refine ⟨fun {name node} hnode => ?_, fun {name} hnone => ?_, fun name => ?_⟩
  · rw [hvalue, (hsame node (Frames.mem_nodes_of_declared? hnode)).declaration?_eq]
    exact h.declared hnode
  · rw [hvalue]
    exact h.value?_eq hnone
  · rw [hnamespace]
    exact h.namespaces_eq name

theorem Agrees.of_scopes_eq
    (h : s.Agrees values namespaces frames scope) (hscopes : s'.scopes = s.scopes)
    (hsame : ∀ node ∈ frames.nodes, SameNode s s' node) :
    s'.Agrees values namespaces frames scope :=
  h.of_lookups (fun _ => by rw [hscopes]) (fun _ => by rw [hscopes]) hsame

/-- In a block that has just been entered nothing is declared. -/
theorem Agrees.enter (h : s.Agrees values namespaces frames scope) :
    s.Agrees values namespaces ([] :: frames) scope :=
  ⟨h.declared, h.value?_eq, h.namespaces_eq⟩

/-- A reading stays right when nothing happens any more at the nodes that it is about. -/
theorem Reads.trans_same
    {r : Reading} (h : Reads values namespaces r s s') (hnode : SameNode s' s'' r.node)
    (hdeclared : ∀ node, r.declared? = some node → SameNode s' s'' node) :
    Reads values namespaces r s s'' := by
  refine ⟨fun {node} hr => ?_, fun hr => ?_⟩
  · rw [(hdeclared node hr).declaration?_eq, hnode.reference?_eq, hnode.missing_eq]
    exact h.declared hr
  · rw [hnode.reference?_eq, hnode.missing_eq]
    exact h.outside hr

/-- A reading may begin earlier if nothing has been found missing until then. -/
theorem Reads.same_trans
    {r : Reading} (h : Reads values namespaces r s' s'') (hnode : SameNode s s' r.node) :
    Reads values namespaces r s s'' := by
  refine ⟨fun hr => ?_, fun hr => ?_⟩
  · rw [← hnode.missing_eq]
    exact h.declared hr
  · rw [← hnode.missing_eq]
    exact h.outside hr

/-! ## Events -/

/-- Between the sessions the events have taken place in the scope. Names have been bound only where
the scope keeps its bindings and in new scopes, and at every name that was looked up stands what the
frames say. -/
structure Enacts (scope : Nat) (xs : List NameEvent) (s s' : Session) : Prop where
  closed : s'.scopes.Closed
  nests : s.scopes.Nests s'.scopes
  values_eq : ∀ {id : Nat}, id < s.scopes.size → id ≠ s.scopes.storage scope →
    (s'.scopes.get id).bindings.values = (s.scopes.get id).bindings.values
  same : ∀ {node : Nat}, node ∉ NameEvent.nodes xs → SameNode s s' node
  exists_frame : ∀ frame frames, ∃ frame',
    NameEvent.run (frame :: frames) xs = frame' :: frames
  reads : (NameEvent.nodes xs).Nodup →
    (∀ node ∈ NameEvent.nodes xs, s.trace.reference? node = none) →
    ∀ {values namespaces : String → Option Nat} {frame : List (String × Nat)} {frames : Frames},
      (∀ node ∈ Frames.nodes (frame :: frames), node ∉ NameEvent.nodes xs) →
      s.Agrees values namespaces (frame :: frames) scope →
        s'.Agrees values namespaces (NameEvent.run (frame :: frames) xs) scope ∧
          ∀ r ∈ NameEvent.readings (frame :: frames) xs, Reads values namespaces r s s'

/-- The events have taken place if the scope was there. -/
def EnactsIn (scope : Nat) (xs : List NameEvent) (s s' : Session) : Prop :=
  s.scopes.Closed → scope < s.scopes.size → Enacts scope xs s s'

theorem Enacts.append (h : Enacts scope xs s s') (h' : Enacts scope ys s' s'')
    (hclosed : s.scopes.Closed) : Enacts scope (xs ++ ys) s s'' := by
  refine ⟨h'.closed, h.nests.trans h'.nests, fun {id} hid hne => ?_, fun {node} hnode => ?_,
    fun frame frames => ?_, fun hnodup hvacant {values namespaces frame frames} hapart hs => ?_⟩
  · have hstorage := h.nests.storage_eq hclosed.toOrdered h.closed.toOrdered scope
    rw [h'.values_eq (hid.trans_le h.nests.size_le) (hstorage ▸ hne), h.values_eq hid hne]
  · rw [NameEvent.nodes_append, List.mem_append, not_or] at hnode
    exact (h.same hnode.1).trans (h'.same hnode.2)
  · obtain ⟨frame', hrun⟩ := h.exists_frame frame frames
    obtain ⟨frame'', hrun'⟩ := h'.exists_frame frame' frames
    exact ⟨frame'', by rw [NameEvent.run_append, hrun, hrun']⟩
  · rw [NameEvent.nodes_append] at hnodup hvacant hapart
    obtain ⟨hxs, hys, hdisjoint⟩ := List.nodup_append'.mp hnodup
    obtain ⟨hagrees, hreads⟩ := h.reads hxs
      (fun node hnode => hvacant node (List.mem_append_left _ hnode))
      (fun node hnode hmem => hapart node hnode (List.mem_append_left _ hmem)) hs
    -- What has been declared until then is apart from what comes later.
    have hold : ∀ node ∈ Frames.nodes (frame :: frames) ++ NameEvent.nodes xs,
        node ∉ NameEvent.nodes ys := by
      intro node hnode hmem
      rcases List.mem_append.mp hnode with hnode | hnode
      · exact hapart node hnode (List.mem_append_right _ hmem)
      · exact hdisjoint hnode hmem
    obtain ⟨frame', hrun⟩ := h.exists_frame frame frames
    have hframes : ∀ node ∈ Frames.nodes (frame' :: frames), node ∉ NameEvent.nodes ys := by
      rw [← hrun]
      exact fun node hnode => hold node (NameEvent.nodes_run_subset _ xs hnode)
    have hvacant' : ∀ node ∈ NameEvent.nodes ys, s'.trace.reference? node = none := by
      intro node hnode
      rw [(h.same fun hmem => hdisjoint hmem hnode).reference?_eq]
      exact hvacant node (List.mem_append_right _ hnode)
    rw [hrun] at hagrees
    obtain ⟨hagrees', hreads'⟩ := h'.reads hys hvacant' hframes hagrees
    rw [NameEvent.run_append, NameEvent.readings_append, hrun]
    refine ⟨hagrees', fun r hr => ?_⟩
    rcases List.mem_append.mp hr with hr | hr
    · refine (hreads r hr).trans_same (h'.same ?_) fun node hnode => h'.same ?_
      · exact hold _ (List.mem_append_right _ (NameEvent.node_mem_of_mem_readings hr))
      · exact hold _ (NameEvent.declared?_mem_of_mem_readings hr hnode)
    · refine (hreads' r hr).same_trans (h.same fun hmem => ?_)
      exact hdisjoint hmem (NameEvent.node_mem_of_mem_readings hr)

/-- Nothing takes place that has to do with names, except perhaps about some nodes. -/
theorem Silent.enacts
    {nodes : List Nat} (h : Silent nodes s s') (scope : Nat) :
    EnactsIn scope (nodes.map .other) s s' := by
  have hrun : ∀ (nodes : List Nat) (frames : Frames),
      NameEvent.run frames (nodes.map .other) = frames := by
    intro nodes frames
    induction nodes with
    | nil => rfl
    | cons node nodes ih =>
        refine Eq.trans ?_ ih
        cases frames <;> rfl
  have hreadings : ∀ (nodes : List Nat) (frames : Frames),
      NameEvent.readings frames (nodes.map .other) = [] := by
    intro nodes frames
    induction nodes with
    | nil => rfl
    | cons node nodes ih =>
        refine Eq.trans ?_ ih
        cases frames <;> rfl
  intro hclosed hscope
  refine ⟨h.scopes_eq ▸ hclosed, h.scopes_eq ▸ .refl _, fun {id} _ _ => ?_, fun {node} hnode => ?_,
    fun frame frames => ⟨frame, hrun nodes _⟩, fun _ _ {_ _ frame frames} hapart hs => ?_⟩
  · rw [h.scopes_eq]
  · rw [Expr.nodes_map_other] at hnode
    exact h.same hnode
  · rw [Expr.nodes_map_other] at hapart
    rw [hrun, hreadings]
    refine ⟨hs.of_scopes_eq h.scopes_eq fun node hnode => ?_,
      fun r hr => absurd hr List.not_mem_nil⟩
    exact h.same (hapart node hnode)

instance (scope : Nat) : Appends (EnactsIn scope) where
  refl s := Silent.enacts (refl_of (Silent []) s) scope
  append h h' hclosed hscope := by
    have hxs := h hclosed hscope
    exact hxs.append (h' hxs.closed (hscope.trans_le hxs.nests.size_le)) hclosed

/-- A name is looked up. -/
theorem Enacts.mention
    {node : Nat} {name : String} (hclosed : s.scopes.Closed)
    (h : Silent [node] s s')
    (hreference : s.trace.reference? node = none → s'.trace.reference? node =
      (s.scopes.value? scope name).or (s.scopes.namespace? scope name))
    (hmissing : s'.missing node = s.missing node +
      if ((s.scopes.value? scope name).or (s.scopes.namespace? scope name)).isNone then 1 else 0) :
    Enacts scope [.mention node name] s s' := by
  refine ⟨h.scopes_eq ▸ hclosed, h.scopes_eq ▸ .refl _, fun {id} _ _ => ?_, h.same,
    fun frame frames => ⟨frame, rfl⟩,
    fun _ hvacant {values namespaces frame frames} hapart hs => ?_⟩
  · rw [h.scopes_eq]
  · have hsame : ∀ node' ∈ Frames.nodes (frame :: frames), SameNode s s' node' :=
      fun node' hnode' => h.same (hapart node' hnode')
    have hvacant' := hvacant node List.mem_cons_self
    refine ⟨hs.of_scopes_eq h.scopes_eq hsame, ?_⟩
    intro r hr
    obtain rfl := List.mem_singleton.mp hr
    refine ⟨fun {node'} hdeclared => ?_, fun hnone => ?_⟩
    · obtain ⟨v, hv, hvalue⟩ := hs.declared hdeclared
      refine ⟨v, ?_, ?_, ?_⟩
      · rw [(hsame node' (Frames.mem_nodes_of_declared? hdeclared)).declaration?_eq, hv]
      · rw [hreference hvacant', hvalue, Option.some_or]
      · rw [hmissing, hvalue]
        rfl
    · rw [← hs.value?_eq hnone, ← hs.namespaces_eq]
      exact ⟨hreference hvacant', hmissing⟩

/-- A variable is declared. -/
theorem Enacts.declare
    {node : Nat} {name : String} {v : Nat} (hclosed : s.scopes.Closed)
    (hscope : scope < s.scopes.size) (hscopes : s'.scopes = s.scopes.addVariable scope name v)
    (hsame : ∀ {node' : Nat}, node' ≠ node → SameNode s s' node')
    (hdeclaration : s'.trace.declaration? node = some v) :
    Enacts scope [.declare node name] s s' := by
  have hnests : s.scopes.Nests (s.scopes.addVariable scope name v) :=
    .bind scope (fun _ => rfl) fun _ => rfl
  have hclosed' : (s.scopes.addVariable scope name v).Closed := hclosed.bind scope _
  refine ⟨hscopes ▸ hclosed', hscopes ▸ hnests, fun {id} _ hne => ?_, fun {node'} hnode' => ?_,
    fun frame frames => ⟨(name, node) :: frame, rfl⟩,
    fun _ _ {values namespaces frame frames} hapart hs => ?_⟩
  · rw [hscopes]
    rcases s.scopes.get_bind_cases scope id
      (fun b => { b with values := b.values.insert name v }) with hget | ⟨hid, -⟩
    · exact congrArg (fun s : Scope => s.bindings.values) hget
    · exact absurd hid hne
  · exact hsame fun heq => hnode' (heq ▸ List.mem_cons_self)
  · refine ⟨?_, fun r hr => absurd hr List.not_mem_nil⟩
    have hvalue := hclosed.value?_addVariable hscope name v
    have hlookup : ∀ name', Frames.declared? (((name, node) :: frame) :: frames) name' =
        if name' = name then some node else Frames.declared? (frame :: frames) name' := by
      intro name'
      unfold Frames.declared?
      rw [List.findSome?_cons, List.findSome?_cons, List.lookup_cons]
      by_cases hname : name' = name
      · rw [if_pos hname, beq_iff_eq.mpr hname]
      · rw [if_neg hname, beq_eq_false_iff_ne.mpr hname]
    change Agrees values namespaces (((name, node) :: frame) :: frames) scope s'
    refine ⟨fun {name' node'} hnode' => ?_, fun {name'} hnone => ?_, fun name' => ?_⟩
    · rw [hlookup] at hnode'
      rw [hscopes, hvalue]
      by_cases hname : name' = name
      · rw [if_pos hname] at hnode'
        obtain rfl := Option.some.inj hnode'
        exact ⟨v, hdeclaration, if_pos hname⟩
      · rw [if_neg hname] at hnode'
        have hmem := Frames.mem_nodes_of_declared? hnode'
        have hne : node' ≠ node := fun heq => hapart node' hmem (heq ▸ List.mem_cons_self)
        rw [(hsame hne).declaration?_eq, if_neg hname]
        exact hs.declared hnode'
    · rw [hlookup] at hnone
      rw [hscopes, hvalue]
      by_cases hname : name' = name
      · rw [if_pos hname] at hnone
        cases hnone
      · rw [if_neg hname] at hnone ⊢
        exact hs.value?_eq hnone
    · rw [hscopes, ← hs.namespaces_eq]
      exact hnests.lookup?_eq (hnests.pick_eq (ScopeTree.picksTypes_namespaces name'))
        hclosed.toOrdered hclosed'.toOrdered hscope

/-- A block is entered, events take place in its scope, and it is left. -/
theorem Enacts.block
    (hclosed : s.scopes.Closed) (hscope : scope < s.scopes.size)
    (hscopes : s'.scopes = (s.scopes.create .block (some scope) none).2)
    (hsame : ∀ node, SameNode s s' node) (h : EnactsIn s.scopes.size xs s' s'') :
    Enacts scope ([.enter] ++ xs ++ [.leave]) s s'' := by
  have hparent : ∀ p, some scope = some p → p < s.scopes.size := by
    rintro _ ⟨⟩
    exact hscope
  have hne : some scope ≠ some s.scopes.size := fun heq => (hparent _ heq).ne rfl
  have hcreated := hclosed.create hparent .block none
  have hnests : s.scopes.Nests s'.scopes := hscopes ▸ .create hne .block none
  have hget : s'.scopes.get s.scopes.size = { kind := .block, parent := some scope } :=
    hscopes ▸ s.scopes.get_create_size hne .block none
  have hlt : s.scopes.size < s'.scopes.size := by
    rw [hscopes, ScopeTree.size_create]
    exact Nat.lt_succ_self _
  have hinner := h (hscopes ▸ hcreated) hlt
  have hall := hnests.trans hinner.nests
  have hvalues : ∀ id, id < s.scopes.size →
      (s''.scopes.get id).bindings.values = (s.scopes.get id).bindings.values := by
    intro id hid
    have hstorage : s'.scopes.storage s.scopes.size = s.scopes.size :=
      hscopes ▸ s.scopes.storage_create hne .block none
    have hne' : id ≠ s'.scopes.storage s.scopes.size := by
      rw [hstorage]
      exact hid.ne
    rw [hinner.values_eq (hid.trans hlt) hne', hscopes, ScopeTree.bindings_get_create]
  have hnodes : NameEvent.nodes ([.enter] ++ xs ++ [.leave]) = NameEvent.nodes xs := by
    rw [NameEvent.nodes_append, NameEvent.nodes_append]
    exact List.append_nil _
  have hreadings : ∀ frames, NameEvent.readings frames ([.enter] ++ xs ++ [.leave]) =
      NameEvent.readings ([] :: frames) xs := by
    intro frames
    rw [NameEvent.readings_append, NameEvent.readings_append]
    exact List.append_nil _
  have hrun : ∀ frame frames,
      NameEvent.run (frame :: frames) ([.enter] ++ xs ++ [.leave]) = frame :: frames := by
    intro frame frames
    obtain ⟨inner, hinner⟩ := hinner.exists_frame [] (frame :: frames)
    rw [NameEvent.run_append]
    exact congrArg (NameEvent.run · [.leave]) hinner
  refine ⟨hinner.closed, hall, fun {id} hid _ => hvalues id hid,
    fun {node} hnode => (hsame node).trans (hinner.same (hnodes ▸ hnode)),
    fun frame frames => ⟨frame, hrun frame frames⟩,
    fun hnodup hvacant {values namespaces frame frames} hapart hs => ?_⟩
  rw [hnodes] at hnodup hvacant hapart
  rw [hrun, hreadings]
  constructor
  · -- What has been bound in the block does not show around it.
    refine hs.of_lookups (fun name => ?_) (fun name => ?_) fun node hnode => ?_
    · refine ScopeTree.Closed.lookup?_eq hall hclosed hinner.closed.toOrdered (fun id hid => ?_)
        hscope
      rw [hvalues id hid]
    · refine hall.lookup?_eq (hall.pick_eq (ScopeTree.picksTypes_namespaces name)) hclosed.toOrdered
        hinner.closed.toOrdered hscope
    · exact (hsame node).trans (hinner.same (hapart node hnode))
  · have hinside : s'.Agrees values namespaces ([] :: frame :: frames) s.scopes.size := by
      refine (hs.of_lookups (fun name => ?_) (fun name => ?_) fun node _ => hsame node).enter
      · rw [hscopes]
        exact hclosed.lookup?_create hscope .block none Std.TreeMap.getElem?_emptyc
      · rw [hscopes]
        exact hclosed.lookup?_create hscope .block none Std.TreeMap.getElem?_emptyc
    have hvacant' : ∀ node ∈ NameEvent.nodes xs, s'.trace.reference? node = none := by
      intro node hnode
      rw [(hsame node).reference?_eq]
      exact hvacant node hnode
    have hapart' : ∀ node ∈ Frames.nodes ([] :: frame :: frames), node ∉ NameEvent.nodes xs :=
      hapart
    have hreads := (hinner.reads hnodup hvacant' hapart' hinside).2
    exact fun r hr => (hreads r hr).same_trans (hsame r.node)

end Session

end DeclAnalysis
