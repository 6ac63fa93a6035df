import DeclAnalysis.Proofs.Logs
import DeclAnalysis.Proofs.Semantic.Overloads
import DeclAnalysis.Proofs.Session.Operations
import DeclAnalysis.Proofs.Tree.Recordings

/-!
# What is recorded about expressions

The types of expressions and what they refer to are recorded in the order of typing, and about each
node at most once. A log lists what may be recorded, and where a call is resolved. As nothing is
recorded twice, a call stays resolved as it was resolved when the types of its arguments had just
been recorded.
-/

namespace DeclAnalysis

namespace Session

variable {s s' s'' : Session}

/-- Nothing has been recorded in the slot. -/
def Vacant (s : Session) : Slot → Prop
  | .reference node => s.trace.reference? node = none
  | .type node => s.trace.expressionType? node = none

/-- The slot holds what it held before. -/
def SameSlot (s s' : Session) : Slot → Prop
  | .reference node => s'.trace.reference? node = s.trace.reference? node
  | .type node => s'.trace.expressionType? node = s.trace.expressionType? node

theorem SameSlot.refl (s : Session) (slot : Slot) : SameSlot s s slot := by
  cases slot <;> rfl

theorem SameSlot.trans {slot : Slot} (h : SameSlot s s' slot) (h' : SameSlot s' s'' slot) :
    SameSlot s s'' slot := by
  cases slot <;> exact Eq.trans h' h

theorem SameSlot.vacant {slot : Slot} (h : SameSlot s s' slot) (hs : s.Vacant slot) :
    s'.Vacant slot := by
  cases slot <;> exact Eq.trans h hs

/-- Nothing happens to the slots of nodes that are not looked at. -/
theorem Follows.sameSlot {nodes : List Nat} (h : Follows nodes s s') {slot : Slot}
    (hslot : slot.node ∉ nodes) : SameSlot s s' slot := by
  cases slot with
  | reference node => exact h.reference?_eq hslot
  | type node => exact h.expressionType?_eq hslot

/-- The candidates that are named. -/
def Names (s : Session) : Callee → List Nat → Prop
  | .oneOf named, candidates => candidates = named
  | .instanceOf ref, candidates => ∃ id name,
      s.trace.typeReference? ref = some (.classType id name) ∧
        candidates = s.descriptors.constructorsOf id

/-- The first candidate of a call that accepts arguments of the recorded types is the selected one,
and the parameters of all candidates have types. -/
def ResolvesCall (s : Session) (call : Call) (selected : Nat) : Prop :=
  ∃ candidates, s.Names call.callee candidates ∧
    (∀ candidate ∈ candidates, s.descriptors.Typed candidate) ∧
    s.descriptors.Selects candidates (call.arguments.map s.trace.expressionType?) selected

/-- What a call refers to, if anything, is what it resolves to. -/
def Justifies (s : Session) (call : Call) : Prop :=
  ∀ selected, s.trace.reference? call.node = some selected → s.ResolvesCall call selected

/-- Between the sessions, the entries of the log have been made one after the other. Signatures,
type references and what is on offer in a scope have stayed. Unless something was recorded before,
the calls in the log are resolved rightly. -/
structure Records (xs : List Recording) (s s' : Session) : Prop where
  offers : ∀ {scope : Nat} {named : String → List Nat}, s.model.Offers scope named →
    s'.model.Offers scope named
  signatures : s.descriptors.KeepsSignatures s'.descriptors
  typeReference?_eq : ∀ {node : Nat} {type : Ty}, s.trace.typeReference? node = some type →
    s'.trace.typeReference? node = some type
  same : ∀ {slot : Slot}, slot ∉ xs.map Recording.slot → SameSlot s s' slot
  arguments_mem : ∀ {call : Call}, .call call ∈ xs → ∀ argument ∈ call.arguments,
    .type argument ∈ xs
  justifies : (xs.map Recording.slot).Nodup → (∀ x ∈ xs, s.Vacant x.slot) →
    ∀ {call : Call}, .call call ∈ xs → s'.Justifies call

/-- Calls stay resolved as long as the types of their arguments stay. -/
theorem Records.resolvesCall
    {xs : List Recording} (h : Records xs s s') {call : Call} {selected : Nat}
    (hs : s.ResolvesCall call selected)
    (harguments : ∀ argument ∈ call.arguments, .type argument ∉ xs.map Recording.slot) :
    s'.ResolvesCall call selected := by
  obtain ⟨candidates, hnames, htyped, hselects⟩ := hs
  have htypes : call.arguments.map s'.trace.expressionType? =
      call.arguments.map s.trace.expressionType? :=
    List.map_congr_left fun argument hargument => h.same (harguments argument hargument)
  refine ⟨candidates, ?_, fun candidate hmem => h.signatures.typed (htyped candidate hmem), ?_⟩
  · cases hcallee : call.callee with
    | oneOf named =>
        rw [hcallee] at hnames
        exact hnames
    | instanceOf ref =>
        rw [hcallee] at hnames
        obtain ⟨id, name, hdenotes, rfl⟩ := hnames
        exact ⟨id, name, h.typeReference?_eq hdenotes, (h.signatures.constructorsOf_eq id).symm⟩
  · rw [htypes]
    exact h.signatures.selects htyped hselects

/-- Calls stay justified as long as their slots stay as they are. -/
theorem Records.justifies_of_disjoint
    {xs : List Recording} (h : Records xs s s') {call : Call} (hs : s.Justifies call)
    (hcall : .reference call.node ∉ xs.map Recording.slot)
    (harguments : ∀ argument ∈ call.arguments, .type argument ∉ xs.map Recording.slot) :
    s'.Justifies call := by
  intro selected hselected
  have hreference : s'.trace.reference? call.node = s.trace.reference? call.node := h.same hcall
  exact h.resolvesCall (hs selected (hreference.symm.trans hselected)) harguments

namespace Records

theorem of_eq
    (hoffers : ∀ {scope : Nat} {named : String → List Nat}, s.model.Offers scope named →
      s'.model.Offers scope named)
    (hsignatures : s.descriptors.KeepsSignatures s'.descriptors)
    (htypeReferences : ∀ {node : Nat} {type : Ty}, s.trace.typeReference? node = some type →
      s'.trace.typeReference? node = some type)
    (hsame : ∀ slot, SameSlot s s' slot) : Records [] s s' :=
  ⟨hoffers, hsignatures, htypeReferences, fun {slot} _ => hsame slot,
    fun h => absurd h List.not_mem_nil, fun _ _ {_} h => absurd h List.not_mem_nil⟩

theorem refl (s : Session) : Records [] s s :=
  of_eq id (.refl _) id (SameSlot.refl s)

/-- After the first entries have been made, the slots of the other ones are still vacant, and later
the calls among the first ones stay justified. -/
theorem append
    {xs ys : List Recording} (h : Records xs s s') (h' : Records ys s' s'') :
    Records (xs ++ ys) s s'' where
  offers hs := h'.offers (h.offers hs)
  signatures := h.signatures.trans h'.signatures
  typeReference?_eq htype := h'.typeReference?_eq (h.typeReference?_eq htype)
  same {slot} hslot := by
    rw [List.map_append, List.mem_append, not_or] at hslot
    exact (h.same hslot.1).trans (h'.same hslot.2)
  arguments_mem {call} hcall argument hargument := by
    rcases List.mem_append.mp hcall with hcall | hcall
    · exact List.mem_append_left ys (h.arguments_mem hcall argument hargument)
    · exact List.mem_append_right xs (h'.arguments_mem hcall argument hargument)
  justifies hdistinct hvacant {call} hcall := by
    rw [List.map_append] at hdistinct
    obtain ⟨hxs, hys, hdisjoint⟩ := List.nodup_append.mp hdistinct
    have hapart : ∀ {slot : Slot}, slot ∈ xs.map Recording.slot → slot ∉ ys.map Recording.slot :=
      fun hx hy => hdisjoint _ hx _ hy rfl
    rcases List.mem_append.mp hcall with hcall | hcall
    · have hjustified := h.justifies hxs (fun x hx => hvacant x (List.mem_append_left ys hx)) hcall
      refine h'.justifies_of_disjoint hjustified ?_ fun argument hargument => ?_
      · exact hapart (List.mem_map_of_mem hcall)
      · exact hapart (List.mem_map_of_mem (h.arguments_mem hcall argument hargument))
    · refine h'.justifies hys (fun y hy => ?_) hcall
      have hslot : y.slot ∉ xs.map Recording.slot := fun hx =>
        hapart hx (List.mem_map_of_mem hy)
      exact (h.same hslot).vacant (hvacant y (List.mem_append_right xs hy))

instance : Appends Records where
  refl := .refl
  append := .append

instance (xs : List Recording) (scope : Nat) (named : String → List Nat) :
    Stable (fun s => s.model.Offers scope named) (Records xs) where
  stable h := h.offers

/-- An entry that is no call. -/
theorem of_slot
    {x : Recording} (hmodel : s'.model = s.model)
    (htypeReferences : s'.trace.typeReferences = s.trace.typeReferences)
    (hsame : ∀ slot, slot ≠ x.slot → SameSlot s s' slot) (hx : ∀ call, x ≠ .call call) :
    Records [x] s s' where
  offers hs := hmodel ▸ hs
  signatures := by
    unfold descriptors
    rw [hmodel]
    exact .refl _
  typeReference?_eq htype := by
    unfold Trace.typeReference? at htype ⊢
    rw [htypeReferences]
    exact htype
  same {slot} hslot := hsame slot fun heq => hslot (heq ▸ List.mem_cons_self)
  arguments_mem {call} hcall := absurd (List.mem_singleton.mp hcall).symm (hx call)
  justifies _ _ {call} hcall := absurd (List.mem_singleton.mp hcall).symm (hx call)

theorem of_recorder
    {r : Recorder} (hreferences : r.trace.references = s.trace.references)
    (htypes : r.trace.expressionTypes = s.trace.expressionTypes)
    (htypeReferences : ∀ {node : Nat} {type : Ty}, s.trace.typeReference? node = some type →
      r.trace.typeReference? node = some type) :
    Records [] s { s with recorder := r } := by
  refine of_eq id (.refl _) htypeReferences fun slot => ?_
  cases slot with
  | reference node => exact congrArg (fun t => (t[node]?).map (·.2)) hreferences
  | type node => exact congrArg (fun t => t[node]?) htypes

theorem of_descriptors
    {t : DescriptorTable} (h : s.descriptors.KeepsSignatures t) :
    Records [] s { s with model.descriptors := t } :=
  of_eq (fun hs => hs.of_descriptors h) h id fun slot => by cases slot <;> rfl

theorem of_scopes
    {t : ScopeTree} (h : ∀ {scope : Nat} {named : String → List Nat},
      s.model.Offers scope named → { s.model with scopes := t }.Offers scope named) :
    Records [] s { s with model.scopes := t } :=
  of_eq h (.refl _) id fun slot => by cases slot <;> rfl

end Records

/-! ### Resolving a call -/

/-- A reference has been recorded at a node, if something was selected, and otherwise nothing. -/
structure Refers (node : Nat) (selected : Option Nat) (s s' : Session) : Prop where
  model_eq : s'.model = s.model
  typeReferences_eq : s'.trace.typeReferences = s.trace.typeReferences
  same : ∀ slot, slot ≠ .reference node → SameSlot s s' slot
  reference?_eq : s'.trace.reference? node = s.trace.reference? node ∨
    s'.trace.reference? node = selected

theorem Refers.of_recorder_eq
    {node : Nat} (selected : Option Nat) (hmodel : s'.model = s.model)
    (hrecorder : s'.recorder = s.recorder) : Refers node selected s s' := by
  have htrace : s'.trace = s.trace := congrArg Recorder.trace hrecorder
  refine ⟨hmodel, congrArg Trace.typeReferences htrace, fun slot _ => ?_, .inl ?_⟩
  · cases slot with
    | reference node => exact congrArg (·.reference? node) htrace
    | type node => exact congrArg (·.expressionType? node) htrace
  · rw [htrace]

theorem Refers.records {node : Nat} {selected : Option Nat} (h : Refers node selected s s') :
    Records [.reference node] s s' :=
  .of_slot h.model_eq h.typeReferences_eq h.same fun call hcall => by cases hcall

/-- After the arguments of a call have been typed, one of its candidates is selected. -/
theorem Records.call
    {xs : List Recording} (h : Records xs s s') {call : Call} {selected : Option Nat}
    (hrefers : Refers call.node selected s' s'')
    (harguments : ∀ argument ∈ call.arguments, .type argument ∈ xs)
    (hresolves : (xs.map Recording.slot).Nodup → (∀ x ∈ xs, s.Vacant x.slot) →
      ∀ r, selected = some r → s'.ResolvesCall call r) :
    Records (xs ++ [.call call]) s s'' := by
  have hall := h.append hrefers.records
  have hslots : (xs ++ [Recording.call call]).map Recording.slot =
      (xs ++ [Recording.reference call.node]).map Recording.slot := by
    simp [Recording.slot]
  refine ⟨hall.offers, hall.signatures, hall.typeReference?_eq, fun {slot} hslot => ?_,
    fun {call'} hcall' argument hargument => ?_, fun hdistinct hvacant {call'} hcall' => ?_⟩
  · rw [hslots] at hslot
    exact hall.same hslot
  · refine List.mem_append_left _ ?_
    rcases List.mem_append.mp hcall' with hcall' | hcall'
    · exact h.arguments_mem hcall' argument hargument
    · cases List.mem_singleton.mp hcall'
      exact harguments argument hargument
  · rw [hslots] at hdistinct
    have hvacant' : ∀ x ∈ xs ++ [Recording.reference call.node], s.Vacant x.slot := by
      intro x hx
      rcases List.mem_append.mp hx with hx | hx
      · exact hvacant x (List.mem_append_left _ hx)
      · rw [List.mem_singleton.mp hx]
        exact hvacant (.call call) (List.mem_append_right _ (List.mem_singleton_self _))
    rcases List.mem_append.mp hcall' with hcall' | hcall'
    · exact hall.justifies hdistinct hvacant' (List.mem_append_left _ hcall')
    cases List.mem_singleton.mp hcall'
    rw [List.map_append] at hdistinct
    obtain ⟨hxs, -, hdisjoint⟩ := List.nodup_append.mp hdistinct
    -- Just before the call was resolved nothing had been recorded at its node.
    have hnode : .reference call.node ∉ xs.map Recording.slot := fun hmem =>
      hdisjoint _ hmem _ (List.mem_singleton_self _) rfl
    have hnone : s'.Vacant (.reference call.node) :=
      (h.same hnode).vacant (hvacant' _ (List.mem_append_right _ (List.mem_singleton_self _)))
    intro r hr
    have hselected : selected = some r := by
      rcases hrefers.reference?_eq with hkept | hselected
      · cases (hkept.symm.trans hr).symm.trans hnone
      · exact hselected.symm.trans hr
    have hresolved := hresolves hxs (fun x hx => hvacant x (List.mem_append_left _ hx)) r hselected
    refine hrefers.records.resolvesCall hresolved fun argument _ hmem => ?_
    cases List.mem_singleton.mp hmem

end Session

namespace Analysis

variable {α : Type} {xs : List Recording}

/-- The computation makes the entries. -/
abbrev Enters (xs : List Recording) (x : Analysis α) : Prop := Logs Session.Records xs x

/-- So does a computation that no fault stops. -/
abbrev EntersOr (xs : List Recording) (x : FaultyAnalysis α) : Prop :=
  LogsOr Session.Records xs x

/-- The computation makes the entries, if the candidates are on offer in the scope. -/
abbrev EntersIn (named : String → List Nat) (scope : Nat) (xs : List Recording)
    (x : Analysis α) : Prop :=
  Logs (fun xs => From (fun s => s.model.Offers scope named) (Session.Records xs)) xs x

/-- So does a computation that no fault stops. -/
abbrev EntersOrIn (named : String → List Nat) (scope : Nat) (xs : List Recording)
    (x : FaultyAnalysis α) : Prop :=
  LogsOr (fun xs => From (fun s => s.model.Offers scope named) (Session.Records xs)) xs x

theorem Enters.inScope
    {x : Analysis α} (h : Enters xs x) (named : String → List Nat) (scope : Nat) :
    EntersIn named scope xs x :=
  Keeps.from h

theorem EntersOr.inScope
    {x : FaultyAnalysis α} (h : EntersOr xs x) (named : String → List Nat) (scope : Nat) :
    EntersOrIn named scope xs x :=
  fun s => AfterOr.imp (h s) fun _ _ h _ => h

/-! ### Elementary operations -/

theorem enters_report (d : Diagnostic) : Enters [] (report d) :=
  ⟨fun s => .of_eq id (.refl _) id fun slot => by cases slot <;> rfl⟩

theorem enters_recordDeclaration (node descriptor : Nat) :
    Enters [] (recordDeclaration node descriptor) :=
  ⟨fun _ => .of_recorder rfl rfl id⟩

theorem enters_recordBackingField (property : Nat) : Enters [] (recordBackingField property) :=
  ⟨fun _ => .of_recorder rfl rfl id⟩

/-- A reference to something is recorded at a node; nothing else that typing looks at changes. -/
theorem enters_recordReference (node : Nat) (kind : ReferenceKind) (descriptor : Nat) :
    Enters [.reference node] (recordReference node kind descriptor) := by
  refine ⟨fun s => ?_⟩
  obtain ⟨fields, htrace⟩ := Session.trace_recordReference s.recorder node kind descriptor
  have htypeReferences := congrArg Trace.typeReferences htrace
  refine .of_slot rfl htypeReferences (fun slot hslot => ?_) fun call h => by cases h
  cases slot with
  | type node' => exact congrArg (fun t => t.expressionTypes[node']?) htrace
  | reference node' =>
      have hne : node ≠ node' := fun heq => hslot (heq ▸ rfl)
      refine (congrArg (fun t => t.reference? node') htrace).trans ?_
      change ((s.recorder.trace.references.insert node (kind, descriptor))[node']?).map _ = _
      rw [getElem?_insert_of_ne hne]
      rfl

theorem enters_recordExpressionType (node : Nat) (type : Ty) :
    Enters [.type node] (recordExpressionType node type) := by
  refine ⟨fun s => .of_slot rfl rfl (fun slot hslot => ?_) fun call h => by cases h⟩
  cases slot with
  | reference node' => rfl
  | type node' =>
      have hne : node ≠ node' := fun heq => hslot (heq ▸ rfl)
      change (s.recorder.trace.expressionTypes.insert node type)[node']? = _
      rw [getElem?_insert_of_ne hne]
      rfl

theorem enters_createVariable
    (name : String) (container : Option Nat) (type : Ty) (mutable : Bool) :
    Enters [] (createDescriptor name container (.variableKind ⟨some type, mutable⟩)) :=
  ⟨fun s => .of_descriptors (.createVariable s.descriptors name container type mutable)⟩

theorem enters_fillPropertyType (property : Nat) (type : Ty) :
    Enters [] (onDescriptors (·.fillPropertyType property type)) :=
  ⟨fun s => .of_descriptors (.fillPropertyType s.descriptors property type)⟩

theorem entersOr_setReturnType (function : Nat) (type : Ty) :
    EntersOr [] (setReturnType function type) :=
  fun _ => afterOr_tryDescriptors fun _ ht => .of_descriptors (.setReturnType ht)

/-- Values and fields may be bound anywhere. -/
theorem enters_bind
    (scope : Nat) {f : Bindings → Bindings} (hclassifiers : ∀ b, (f b).classifiers = b.classifiers)
    (hnamespaces : ∀ b, (f b).namespaces = b.namespaces)
    (hfunctions : ∀ b, (f b).functions = b.functions) :
    Enters [] (onScopes (·.bind scope f)) :=
  ⟨fun _ => .of_scopes fun hs => hs.bind scope hclassifiers hnamespaces hfunctions⟩

theorem enters_addVariable (scope : Nat) (name : String) (descriptor : Nat) :
    Enters [] (onScopes (·.addVariable scope name descriptor)) :=
  enters_bind scope (fun _ => rfl) (fun _ => rfl) fun _ => rfl

theorem enters_addField (scope : Nat) (name : String) (property : Nat) :
    Enters [] (onScopes (·.addField scope name property)) :=
  enters_bind scope (fun _ => rfl) (fun _ => rfl) fun _ => rfl

/-- Watching changes nothing about what is recorded. -/
theorem entersFrom_observed
    (o : Observer) {p : Session → Prop} (hp : ∀ s r, p s → p { s with recorder := r })
    {run : FaultyAnalysis Unit} (h : LogsOr (fun xs => From p (Session.Records xs)) xs run) :
    LogsOr (fun xs => From p (Session.Records xs)) xs (observed o run) := by
  intro s
  refine AfterOr.observed (AfterOr.imp (h _) fun _ s' h' hs => ?_)
  have hwatch : Session.Records [] s { s with recorder := s.recorder.watch o } :=
    .of_recorder rfl rfl id
  have hunwatch : Session.Records [] s' { s' with recorder := s'.recorder.unwatch.2 } := by
    have htrace := Session.trace_unwatch s'.recorder
    refine .of_recorder (congrArg Trace.references htrace)
      (congrArg Trace.expressionTypes htrace) fun htype => ?_
    rw [htrace]
    exact htype
  have hrun := hwatch.append (Session.Records.append (h' (hp s _ hs)) hunwatch)
  rwa [List.append_nil, List.nil_append] at hrun

/-- A new scope is offered what its surroundings are offered. -/
theorem after_createScope_records
    {named : String → List Nat} {scope : Nat} {s : Session} (hs : s.model.Offers scope named)
    (kind : ScopeKind) (owner : Option Nat) :
    After (createScope kind (some scope) owner) s fun inner s' =>
      Session.Records [] s s' ∧ s'.model.Offers inner named := by
  obtain ⟨hinner, hkept⟩ := hs.create kind owner
  refine ⟨.of_scopes hkept, ?_⟩
  change Model.Offers _ (s.model.scopes.create kind (some scope) owner).1 named
  rw [ScopeTree.fst_create]
  exact hinner

/-- So is the scope of a body. -/
theorem afterOr_functionInnerScope_records
    {named : String → List Nat} {outer : Nat} {s : Session} (hs : s.model.Offers outer named)
    (function : Nat) :
    AfterOr (functionInnerScope outer function) s
      (fun inner s' => Session.Records [] s s' ∧ s'.model.Offers inner named) fun _ _ => True := by
  simp only [functionInnerScope, afterOr_bind, afterOr_get, Model.functionInnerScope]
  cases s.model.descriptors.signature? function with
  | none => exact trivial
  | some signature =>
      simp only [afterOr_bind, afterOr_modify, afterOr_pure]
      obtain ⟨hinner, hkept⟩ := hs.create .function (some function)
      have hbind : ∀ (parameters : List Nat) (m : Model) {scope : Nat} {named : String → List Nat},
          m.Offers scope named → (m.bindParameters s.scopes.size parameters).Offers scope named := by
        intro parameters
        induction parameters with
        | nil => exact fun m {_ _} h => h
        | cons p rest ih =>
            intro m scope named h
            have hp : { m with
                scopes := m.scopes.addVariable s.scopes.size (m.descriptors.name p) p }.Offers
                  scope named :=
              h.bind s.scopes.size (fun _ => rfl) (fun _ => rfl) fun _ => rfl
            exact ih _ hp
      refine ⟨.of_scopes fun h => ?_, ?_⟩
      · exact hbind signature.parameters _ (hkept h)
      · exact hbind signature.parameters _ hinner

end Analysis

end DeclAnalysis
