import DeclAnalysis.Proofs.Semantic.Lookup
import DeclAnalysis.Proofs.Session.Operations

/-!
# The frame of an analysis

From some point on an analysis declares no types any more. What it does then stays within a
frame: the scopes that exist keep their functions and fields, at most some variables are added
to them, and every type reference is resolved to a type that is foreseen. For every type
reference that is resolved to an error type there is one report, and for no other one.
-/

namespace DeclAnalysis

theorem Diagnostic.unresolvedType_inj {node node' : Nat} {name name' : String} :
    unresolvedType node name = unresolvedType node' name' ↔ node = node' ∧ name = name' := by
  unfold unresolvedType ofCode
  rw [Diagnostic.mk.injEq, String.append_right_inj]
  exact ⟨fun h => ⟨h.2.2.2, h.2.2.1⟩, fun h => ⟨rfl, rfl, h.2, h.1⟩⟩

/-- The error type of a name that denotes no type. -/
def Ty.unresolved (name : String) : Ty := error ("Unresolved type: " ++ name)

theorem Ty.unresolved_inj {name name' : String} : unresolved name = unresolved name' ↔ name = name' := by
  unfold unresolved
  rw [error.injEq, String.append_right_inj]

/-- The type that a name denotes in a scope, or else an error type. -/
def Model.typeOf (m : Model) (scope : Nat) (name : String) : Ty :=
  (m.lookupType? scope name).getD (.unresolved name)

namespace ScopeTree

/-- In the scopes below a bound, functions and fields stay bound as they are, and so do
variables apart from those that may be bound. -/
structure Spares (bound : Nat) (mayBind : Nat → String → Prop) (t t' : ScopeTree) : Prop where
  functions_eq : ∀ id, id < bound →
    (t'.get id).bindings.functions = (t.get id).bindings.functions
  fields_eq : ∀ id, id < bound → (t'.get id).bindings.fields = (t.get id).bindings.fields
  values_eq : ∀ id, id < bound → ∀ name, ¬mayBind id name →
    (t'.get id).bindings.values[name]? = (t.get id).bindings.values[name]?

namespace Spares

variable {bound : Nat} {mayBind : Nat → String → Prop} {t t' t'' : ScopeTree}

theorem of_bindings_eq (h : ∀ id, id < bound → (t'.get id).bindings = (t.get id).bindings) :
    Spares bound mayBind t t' := by
  refine ⟨fun id hid => ?_, fun id hid => ?_, fun id hid name _ => ?_⟩
  · rw [h id hid]
  · rw [h id hid]
  · rw [h id hid]

theorem refl (t : ScopeTree) : Spares bound mayBind t t := .of_bindings_eq fun _ _ => rfl

theorem trans (h : Spares bound mayBind t t') (h' : Spares bound mayBind t' t'') :
    Spares bound mayBind t t'' where
  functions_eq id hid := (h'.functions_eq id hid).trans (h.functions_eq id hid)
  fields_eq id hid := (h'.fields_eq id hid).trans (h.fields_eq id hid)
  values_eq id hid name hname :=
    (h'.values_eq id hid name hname).trans (h.values_eq id hid name hname)

/-- Names are bound in a scope that is not below the bound. -/
theorem bind_of_le {scope : Nat} (h : bound ≤ t.storage scope) (f : Bindings → Bindings) :
    Spares bound mayBind t (t.bind scope f) := by
  refine .of_bindings_eq fun id hid => ?_
  have hne : id ≠ t.storage scope := (hid.trans_le h).ne
  exact congrArg Scope.bindings (t.get_modify_of_ne hne _)

/-- The name of a variable is bound that may be bound. -/
theorem addVariable {scope : Nat} {name : String}
    (h : bound ≤ t.storage scope ∨ mayBind (t.storage scope) name) (descriptor : Nat) :
    Spares bound mayBind t (t.addVariable scope name descriptor) := by
  rcases h with h | h
  · exact .bind_of_le h _
  unfold ScopeTree.addVariable
  refine ⟨fun id _ => ?_, fun id _ => ?_, fun id _ name' hname' => ?_⟩
  · rcases t.get_bind_cases scope id _ with heq | ⟨-, heq⟩
    · rw [heq]
    · rw [heq]
  · rcases t.get_bind_cases scope id _ with heq | ⟨-, heq⟩
    · rw [heq]
    · rw [heq]
  · rcases t.get_bind_cases scope id _ with heq | ⟨hid, heq⟩
    · rw [heq]
    · have hne : name ≠ name' := by
        rintro rfl
        exact hname' (hid ▸ h)
      rw [heq]
      exact getElem?_insert_of_ne hne

end Spares

end ScopeTree

namespace Session

/-- The references to types that are resolved to an error type are just those about which
something is reported, each once. -/
def Balanced (s : Session) : Prop := ∀ node name,
  s.diagnostics.toList.count (.unresolvedType node name) =
    if s.trace.typeReference? node = some (.unresolved name) then 1 else 0

/-- What an analysis may do from some point on. -/
structure Frame where
  /-- The nodes about which something may be recorded. -/
  nodes : List Nat
  /-- The number of scopes in which not everything may be bound. -/
  bound : Nat
  /-- The names of variables that may be bound in such a scope. -/
  mayBind : Nat → String → Prop
  /-- The types to which a type reference may be resolved. -/
  mayRecord : Nat → Ty → Prop

namespace Frame

/-- The analysis stays within the frame between two sessions. -/
structure Within (fr : Frame) (s s' : Session) : Prop where
  declaration?_eq : ∀ {node}, node ∉ fr.nodes →
    s'.trace.declaration? node = s.trace.declaration? node
  nests : s.scopes.Nests s'.scopes
  ordered : s.scopes.Ordered → s'.scopes.Ordered
  spares : s.scopes.Spares fr.bound fr.mayBind s'.scopes
  sameTypes : s.descriptors.SameTypes s'.descriptors
  kept : ∀ {node type}, s.trace.typeReference? node = some type →
    s'.trace.typeReference? node = some type
  recorded : ∀ {node type}, s'.trace.typeReference? node = some type →
    s.trace.typeReference? node = some type ∨ fr.mayRecord node type
  balanced : s.Balanced → s'.Balanced

variable {fr : Frame} {s s' s'' : Session}

namespace Within

/-- Type references and what is reported about them stay as they are. -/
theorem of_typeReferences_eq
    (hdeclarations : ∀ {node}, node ∉ fr.nodes →
      s'.trace.declaration? node = s.trace.declaration? node)
    (hnests : s.scopes.Nests s'.scopes)
    (hordered : s.scopes.Ordered → s'.scopes.Ordered)
    (hspares : s.scopes.Spares fr.bound fr.mayBind s'.scopes)
    (hsame : s.descriptors.SameTypes s'.descriptors)
    (htypes : s'.trace.typeReferences = s.trace.typeReferences)
    (hcount : ∀ node name, s'.diagnostics.toList.count (.unresolvedType node name) =
      s.diagnostics.toList.count (.unresolvedType node name)) :
    fr.Within s s' := by
  have htype : ∀ node, s'.trace.typeReference? node = s.trace.typeReference? node :=
    fun node => congrArg (·[node]?) htypes
  refine ⟨hdeclarations, hnests, hordered, hspares, hsame, fun {node type} h => ?_,
    fun {node type} h => ?_, fun hs node name => ?_⟩
  · exact (htype node).trans h
  · exact .inl ((htype node).symm.trans h)
  · rw [hcount, htype]
    exact hs node name

theorem of_scopes
    {t : ScopeTree} (hnests : s.scopes.Nests t) (hordered : s.scopes.Ordered → t.Ordered)
    (hspares : s.scopes.Spares fr.bound fr.mayBind t) :
    fr.Within s { s with model.scopes := t } :=
  .of_typeReferences_eq (fun _ => rfl) hnests hordered hspares (.refl _) rfl fun _ _ => rfl

theorem of_descriptors
    {t : DescriptorTable} (hsame : s.descriptors.SameTypes t) :
    fr.Within s { s with model.descriptors := t } :=
  .of_typeReferences_eq (fun _ => rfl) (.refl _) id (.refl _) hsame rfl fun _ _ => rfl

theorem of_notes (h : Notes fr.nodes s s') : fr.Within s s' := by
  have hscopes : s'.scopes = s.scopes := congrArg Model.scopes h.model_eq
  have hdescriptors : s'.descriptors = s.descriptors := congrArg Model.descriptors h.model_eq
  refine .of_typeReferences_eq (fun hnode => h.types.follows.declaration?_eq hnode) ?_ ?_ ?_ ?_ h.typeReferences_eq h.count_eq
  · rw [hscopes]
    exact .refl _
  · rw [hscopes]
    exact id
  · rw [hscopes]
    exact .refl _
  · rw [hdescriptors]
    exact .refl _

theorem refl (fr : Frame) (s : Session) : fr.Within s s :=
  .of_typeReferences_eq (fun _ => rfl) (.refl _) id (.refl _) (.refl _) rfl fun _ _ => rfl

theorem trans (h : fr.Within s s') (h' : fr.Within s' s'') : fr.Within s s'' where
  declaration?_eq hnode := (h'.declaration?_eq hnode).trans (h.declaration?_eq hnode)
  nests := h.nests.trans h'.nests
  ordered hs := h'.ordered (h.ordered hs)
  spares := h.spares.trans h'.spares
  sameTypes := h.sameTypes.trans h'.sameTypes
  kept hs := h'.kept (h.kept hs)
  recorded hs := (h'.recorded hs).elim h.recorded .inr
  balanced hs := h'.balanced (h.balanced hs)

instance (fr : Frame) : IsPreorder Session fr.Within where
  refl := .refl fr
  trans _ _ _ := .trans

instance (fr : Frame) : AllowsNotes fr.nodes fr.Within where
  of_notes := of_notes

/-- A report under another code than that of references changes nothing. -/
theorem of_report
    {d : Diagnostic} (hcode : d.code ≠ .unresolvedReference) :
    fr.Within s { s with diagnostics := s.diagnostics.push d } := by
  refine of_typeReferences_eq (fun _ => rfl) (.refl _) id (.refl _) (.refl _) rfl
    fun node name => ?_
  change (s.diagnostics.push d).toList.count _ = _
  rw [Array.toList_push, List.count_append, List.count_eq_zero_of_not_mem (l := [d]),
    Nat.add_zero]
  intro hmem
  exact hcode (congrArg Diagnostic.code (List.mem_singleton.mp hmem).symm)

instance (fr : Frame) (nodes : List Nat) : AllowsRemarks .typeMismatch nodes fr.Within where
  of_remark _ _ := of_report nofun

instance (fr : Frame) (nodes : List Nat) : AllowsRemarks .unreachableCode nodes fr.Within where
  of_remark _ _ := of_report nofun

theorem formed (h : fr.Within s s') (hs : s.model.Formed) : s'.model.Formed :=
  hs.of_nests h.nests (h.ordered hs.ordered) h.sameTypes

theorem storage_eq (h : fr.Within s s') (hs : s.model.Formed) (scope : Nat) :
    s'.scopes.storage scope = s.scopes.storage scope :=
  h.nests.storage_eq hs.ordered (h.ordered hs.ordered) scope

theorem typeOf_eq
    (h : fr.Within s s') (hs : s.model.Formed) {scope : Nat} (hscope : scope < s.scopes.size)
    (name : String) :
    s'.model.typeOf scope name = s.model.typeOf scope name := by
  unfold Model.typeOf
  rw [Model.lookupType?_eq hs h.nests (h.ordered hs.ordered) h.sameTypes hscope name]

end Within

/-! ## The ground of a frame -/

/-- The variables and type references may occur in the scope. -/
structure Admits (fr : Frame) (locals : List String) (refs : List TypeRef) (scope : Nat)
    (s : Session) : Prop where
  formed : s.model.Formed
  lt_size : scope < s.scopes.size
  bound_le : fr.bound ≤ s.scopes.size
  mayBind : ∀ name ∈ locals,
    fr.bound ≤ s.scopes.storage scope ∨ fr.mayBind (s.scopes.storage scope) name
  mayRecord : ∀ ref ∈ refs, (s.trace.typeReference? ref.id).isSome ∨
    fr.mayRecord ref.id (s.model.typeOf scope ref.name)

/-- Any variables, and the type references, may occur in the scope. -/
structure AdmitsAll (fr : Frame) (refs : List TypeRef) (scope : Nat) (s : Session) : Prop where
  admits : fr.Admits [] refs scope s
  bound_le_storage : fr.bound ≤ s.scopes.storage scope

/-- What a frame allows in the scopes of a session. -/
def ground (fr : Frame) : Ground := ⟨fr.Admits, fr.AdmitsAll⟩

variable {locals : List String} {refs : List TypeRef} {scope : Nat}

theorem Admits.of_within (h : fr.Admits locals refs scope s) (hwithin : fr.Within s s') :
    fr.Admits locals refs scope s' where
  formed := hwithin.formed h.formed
  lt_size := h.lt_size.trans_le hwithin.nests.size_le
  bound_le := h.bound_le.trans hwithin.nests.size_le
  mayBind name hname := by
    rw [hwithin.storage_eq h.formed]
    exact h.mayBind name hname
  mayRecord ref href := by
    rw [hwithin.typeOf_eq h.formed h.lt_size]
    refine (h.mayRecord ref href).imp_left fun hsome => ?_
    obtain ⟨type, htype⟩ := Option.isSome_iff_exists.mp hsome
    exact Option.isSome_of_eq_some (hwithin.kept htype)

theorem AdmitsAll.of_within (h : fr.AdmitsAll refs scope s) (hwithin : fr.Within s s') :
    fr.AdmitsAll refs scope s' := by
  refine ⟨h.admits.of_within hwithin, ?_⟩
  rw [hwithin.storage_eq h.admits.formed]
  exact h.bound_le_storage

theorem AdmitsAll.admits_all (h : fr.AdmitsAll refs scope s) (locals : List String) :
    fr.Admits locals refs scope s :=
  ⟨h.admits.formed, h.admits.lt_size, h.admits.bound_le, fun _ _ => .inl h.bound_le_storage,
    h.admits.mayRecord⟩

/-! ## Elementary steps -/

/-- A new scope is not below the bound, and the same types are visible in it as around it. -/
theorem Admits.createScope
    (h : fr.Admits locals refs scope s) (kind : ScopeKind) (owner : Option Nat) :
    After (Analysis.createScope kind (some scope) owner) s fun inner s' =>
      fr.Within s s' ∧ fr.AdmitsAll refs inner s' := by
  have hlt : scope < s.scopes.size := h.lt_size
  have hne : some scope ≠ some s.scopes.size := fun heq => hlt.ne (Option.some.inj heq)
  let t := (s.scopes.create kind (some scope) owner).2
  have hnests : s.scopes.Nests t := .create hne kind owner
  have hordered : s.scopes.Ordered → t.Ordered := by
    intro hs
    refine hs.create ?_ kind owner
    rintro _ ⟨⟩
    exact hlt
  have hwithin : fr.Within s { s with model.scopes := t } := by
    refine .of_scopes hnests hordered ?_
    exact .of_bindings_eq fun id _ => s.scopes.bindings_get_create kind (some scope) owner id
  have hget : t.get s.scopes.size = { kind, parent := some scope, owner } :=
    s.scopes.get_create_size hne kind owner
  have hformed := hwithin.formed h.formed
  have hinner : ∀ name, Model.typeOf { s.model with scopes := t } s.scopes.size name =
      s.model.typeOf scope name := by
    intro name
    rw [← hwithin.typeOf_eq h.formed hlt name]
    unfold Model.typeOf
    rw [hformed.lookupType?_inner]
    · rw [hget]
    · rw [hget]
    · rw [hget]
    · rw [hget]
    · rw [hget]
  have hsize : t.size = s.scopes.size + 1 := s.scopes.size_create kind (some scope) owner
  refine ⟨hwithin, ?_⟩
  change fr.AdmitsAll refs ((s.scopes.create kind (some scope) owner).1) _
  rw [s.scopes.fst_create]
  refine ⟨⟨hformed, ?_, h.bound_le.trans hnests.size_le, ?_, fun ref href => ?_⟩, ?_⟩
  · change s.scopes.size < t.size
    rw [hsize]
    exact Nat.lt_succ_self _
  · exact fun _ hname => absurd hname List.not_mem_nil
  · have hrecord := h.mayRecord ref href
    rw [← hinner] at hrecord
    exact hrecord
  · change fr.bound ≤ t.storage s.scopes.size
    rw [s.scopes.storage_create hne kind owner]
    exact h.bound_le

/-- A type reference that has not been resolved before is resolved. -/
theorem Within.of_record
    {node : Nat} {type : Ty} {diagnostics : Array Diagnostic}
    (hnone : s.trace.typeReference? node = none) (hmay : fr.mayRecord node type)
    (hcount : ∀ node' name, diagnostics.toList.count (.unresolvedType node' name) =
      s.diagnostics.toList.count (.unresolvedType node' name) +
        if node' = node ∧ type = .unresolved name then 1 else 0) :
    fr.Within s
      { s with recorder := s.recorder.recordTypeReference node type, diagnostics } := by
  let s' : Session := { s with
    recorder := s.recorder.recordTypeReference node type
    diagnostics }
  have hget : ∀ node', s'.trace.typeReference? node' =
      if node = node' then some type else s.trace.typeReference? node' := by
    intro node'
    change (s.trace.typeReferences.insert node type)[node']? = _
    simp [Std.TreeMap.getElem?_insert, Trace.typeReference?]
  refine ⟨fun _ => rfl, .refl _, id, .refl _, .refl _, fun {node' type'} h => ?_,
    fun {node' type'} h => ?_, fun hs node' name => ?_⟩
  · refine (hget node').trans ?_
    rw [if_neg]
    · exact h
    · rintro rfl
      rw [hnone] at h
      cases h
  · replace h := (hget node').symm.trans h
    split at h
    · rename_i heq
      subst heq
      obtain rfl := Option.some.inj h
      exact .inr hmay
    · exact .inl h
  · have hold := hs node' name
    refine (hcount node' name).trans ?_
    change _ = if s'.trace.typeReference? node' = _ then 1 else 0
    rw [hold, hget]
    by_cases heq : node = node'
    · subst heq
      simp [hnone]
    · have hne : node' ≠ node := fun h => heq h.symm
      simp [heq, hne]

/-- A type reference is resolved to the type that its name denotes, unless it has been resolved
before. What denotes no type is reported. -/
theorem Within.of_resolveTypeRef
    {ref : TypeRef}
    (hmayRecord : s.trace.typeReference? ref.id = none →
      fr.mayRecord ref.id (s.model.typeOf scope ref.name)) :
    After (Analysis.resolveTypeRef scope ref) s fun _ => fr.Within s := by
  refine after_bind.mpr (after_get.mpr ?_)
  cases hnone : s.trace.typeReference? ref.id with
  | some type => exact .refl fr s
  | none =>
      have hmay := hmayRecord hnone
      unfold Model.typeOf at hmay
      cases htype : s.model.lookupType? scope ref.name with
      | some type =>
          rw [htype] at hmay
          refine .of_record hnone hmay fun node name => ?_
          have hne : type ≠ .unresolved name := by
            rintro rfl
            exact absurd (Model.isError_of_lookupType? htype) Bool.noConfusion
          simp [hne]
      | none =>
          rw [htype] at hmay
          let message := "Unresolved type: " ++ ref.name
          refine .of_record hnone hmay fun node name => ?_
          rw [Array.toList_push, List.count_append, List.count_singleton]
          have heq : Diagnostic.unresolvedType ref.id ref.name = .unresolvedType node name ↔
              node = ref.id ∧ Ty.unresolved ref.name = .unresolved name := by
            rw [Diagnostic.unresolvedType_inj, Ty.unresolved_inj, eq_comm]
          simp only [beq_iff_eq]
          exact congrArg _ (if_congr heq rfl rfl)

theorem Admits.resolveTypeRef
    (h : fr.Admits locals refs scope s) {ref : TypeRef} (href : ref ∈ refs) :
    After (Analysis.resolveTypeRef scope ref) s fun _ => fr.Within s := by
  refine .of_resolveTypeRef fun hnone => (h.mayRecord ref href).resolve_left fun hsome => ?_
  rw [hnone] at hsome
  cases hsome

instance (fr : Frame) : fr.ground.Allows fr.nodes fr.Within where
  stable_admits h hs := Admits.of_within hs h
  stable_fresh h hs := AdmitsAll.of_within hs h
  admits_of_fresh h locals := AdmitsAll.admits_all h locals
  createVariable name container _ _ := ⟨fun s =>
    .of_descriptors (.create s.descriptors name container rfl)⟩
  resolveTypeRef h href _ := Admits.resolveTypeRef h href
  createScope h kind owner := Admits.createScope h kind owner
  addVariable h hname descriptor := by
    refine .of_scopes ?_ ?_ ?_
    · exact .bind _ (fun _ => rfl) fun _ => rfl
    · exact fun hs => hs.bind _ _
    · exact .addVariable (Admits.mayBind h _ hname) descriptor
  bind h hclassifiers hnamespaces _ := by
    refine .of_scopes ?_ ?_ ?_
    · exact .bind _ hclassifiers hnamespaces
    · exact fun hs => hs.bind _ _
    · exact .bind_of_le (AdmitsAll.bound_le_storage h) _

end Frame

end Session

end DeclAnalysis
