import DeclAnalysis.Typing.Session
import DeclAnalysis.Typing.Subtyping
import DeclAnalysis.Typing.TypeName
import DeclAnalysis.Proofs.Session.Change
import DeclAnalysis.Proofs.Tree.Contents

/-!
# What operations do to a session

Every operation of an analysis leads from a session to one that follows it, and records
only about nodes of the piece of tree that it is given.

What typing does to a session may moreover depend on the scope in which it starts: on the scopes
around it, on the variables that it declares there, and on the types that are visible there.
A ground says of every scope what may be done in it. A relation between sessions that allows
typing on a ground only has to allow the elementary steps; the lemmas about typing are then
the same for all of them.
-/

namespace DeclAnalysis

namespace Session

variable {nodes : List Nat} {s : Session}

/-- A change of what a descriptor stands for that depends on what it stood for. -/
theorem Follows.modifyKind
    (id : Nat) {f : DescriptorKind → DescriptorKind}
    (hf : ∀ kind : DescriptorKind, kind.Evolves (f kind))
    (haccessor : ∀ kind function, (f kind).HasAccessor function → kind.HasAccessor function ∨
      (s.descriptors.signature? function).isSome) :
    Follows nodes s { s with model.descriptors := s.model.descriptors.modifyKind id f } := by
  rw [s.model.descriptors.modifyKind_eq id f]
  exact Follows.single (.changeKind (hf _) (haccessor _))

theorem Follows.editSignature
    (id : Nat) {f : Signature → Signature}
    (hf : ∀ s, s.returnType.isSome → (f s).returnType.isSome) :
    Follows nodes s
      { s with model.descriptors := s.model.descriptors.editSignature id f } := by
  refine Follows.modifyKind id (fun kind => ?_) fun kind function h => .inl ?_
  · cases kind with
    | functionKind signature => exact .functionKind (hf signature)
    | constructorKind signature => exact .constructorKind (hf signature)
    | _ => exact .refl _
  · cases kind with
    | propertyKind => exact h
    | _ => exact False.elim h

theorem Follows.editProperty
    (id : Nat) {f : PropertyData → PropertyData}
    (hf : ∀ data, data.type.isSome → (f data).type.isSome)
    (haccessor : ∀ data function, (DescriptorKind.propertyKind (f data)).HasAccessor function →
      (DescriptorKind.propertyKind data).HasAccessor function ∨
        (s.descriptors.signature? function).isSome) :
    Follows nodes s { s with model.descriptors := s.model.descriptors.editProperty id f } := by
  refine Follows.modifyKind id (fun kind => ?_) fun kind function h => ?_
  · cases kind with
    | propertyKind data => exact .propertyKind (hf data)
    | _ => exact .refl _
  · cases kind with
    | propertyKind data => exact haccessor data function h
    | _ => exact False.elim h

theorem Follows.editVariable
    (id : Nat) {f : VariableData → VariableData}
    (hf : ∀ data, data.type.isSome → (f data).type.isSome) :
    Follows nodes s { s with model.descriptors := s.model.descriptors.editVariable id f } := by
  refine Follows.modifyKind id (fun kind => ?_) fun kind function h => .inl ?_
  · cases kind with
    | variableKind data => exact .variableKind (hf data)
    | _ => exact .refl _
  · cases kind with
    | propertyKind => exact h
    | _ => exact False.elim h

/-- Binding several names one after the other. -/
theorem Follows.foldl_bind
    (scope : Nat) (f : Nat → Bindings → Bindings)
    (hf : ∀ id b, (f id b).namespaces = b.namespaces) (ids : List Nat) :
    Follows nodes s
      { s with
        model.scopes := ids.foldl (fun t id => t.bind scope (f id)) s.model.scopes } := by
  induction ids generalizing s with
  | nil => exact .refl nodes s
  | cons id rest ih =>
      have hhead : Follows nodes s
          { s with model.scopes := s.model.scopes.bind scope (f id) } :=
        .single (.bind scope (hf id))
      exact hhead.trans ih

theorem isSome_orElse {α : Type} {o o' : Option α} (h : o.isSome) : (o <|> o').isSome := by
  cases o with
  | none => cases h
  | some a => rfl

end Session

namespace Analysis

open Session (Follows AllowsEntries AllowsRemarks AllowsNotes AllowsTyping)

/-! ### Taking notes -/

section

variable {nodes : List Nat} {R : Session → Session → Prop} [hR : AllowsEntries nodes R]

include hR

theorem keeps_note
    {d : Diagnostic} (h : d.Quiet) (hnode : d.code = .unresolvedReference → d.node ∈ nodes) :
    Keeps R (report d) :=
  ⟨fun _ => AllowsEntries.of_entry (.report h hnode)⟩

/-- Reporting anything but that something cannot be resolved or that a constructor is misplaced,
and remarks on expressions. -/
theorem keeps_reportOther
    {code : DiagnosticCode} (h : code ≠ .unresolvedReference ∧ code ≠ .misplacedConstructor ∧
      ¬code.IsRemark) (node : Nat) (message : String) :
    Keeps R (reportCode code node message) :=
  keeps_note (Diagnostic.quiet_of_code h) fun hcode => absurd hcode h.1

omit hR in
theorem keeps_remark
    {code : DiagnosticCode} [AllowsRemarks code nodes R] {node : Nat} (hnode : node ∈ nodes)
    (message : String) : Keeps R (reportCode code node message) :=
  ⟨fun _ => AllowsRemarks.of_remark hnode message⟩

theorem keeps_recordDeclaration {node : Nat} (hnode : node ∈ nodes) (descriptor : Nat) :
    Keeps R (recordDeclaration node descriptor) :=
  ⟨fun _ => AllowsEntries.of_entry (.recordDeclaration hnode descriptor)⟩

theorem keeps_recordReference
    {node : Nat} (hnode : node ∈ nodes) (kind : ReferenceKind) (descriptor : Nat) :
    Keeps R (recordReference node kind descriptor) :=
  ⟨fun _ => AllowsEntries.of_entry (.recordReference hnode kind descriptor)⟩

theorem keeps_recordExpressionType {node : Nat} (hnode : node ∈ nodes) (type : Ty) :
    Keeps R (recordExpressionType node type) :=
  ⟨fun _ => AllowsEntries.of_entry (.recordExpressionType hnode type)⟩

omit hR in
theorem keeps_recordBackingField [AllowsNotes nodes R] (property : Nat) :
    Keeps R (recordBackingField property) :=
  ⟨fun _ => AllowsNotes.of_change (.recordBackingField property) rfl⟩

omit hR in
/-- Watching a computation changes only who watches. -/
theorem keepsOr_observed
    [AllowsNotes nodes R] (o : Observer) {run : FaultyAnalysis Unit} (h : KeepsOr R run) :
    KeepsOr R (observed o run) := by
  have hwatch : Keeps R (onRecorder (·.watch o)) :=
    ⟨fun s => AllowsNotes.of_change (.watch o) rfl⟩
  refine hwatch.bind fun _ => Keeps.bind h fun outcome => ?_
  refine Keeps.bind ⟨fun s => ?_⟩ fun noted => Keeps.pure _
  exact AllowsNotes.of_change .unwatch (congrArg Trace.typeReferences (Session.trace_unwatch _))

end

/-! ### Typing -/

section

variable {nodes : List Nat} {R : Session → Session → Prop} [hR : AllowsTyping nodes R]

include hR

theorem keeps_reportCode
    {code : DiagnosticCode} (h : ¬code.IsRemark) (node : Nat) (message : String) :
    Keeps R (reportCode code node message) :=
  ⟨fun _ => AllowsTyping.of_change (.report _ fun hcode => absurd hcode h) rfl⟩

theorem keeps_recordTypeReference {node : Nat} (hnode : node ∈ nodes) (type : Ty) :
    Keeps R (recordTypeReference node type) :=
  ⟨fun _ => AllowsTyping.of_change (.recordTypeReference hnode type) rfl⟩

theorem keeps_createScope (kind : ScopeKind) (parent owner : Option Nat) :
    Keeps R (createScope kind parent owner) :=
  ⟨fun _ => AllowsTyping.of_change (.createScope kind parent owner) rfl⟩

theorem keeps_createWriteThrough (outer target : Nat) :
    Keeps R (createWriteThrough outer target) :=
  ⟨fun _ => AllowsTyping.of_change (.createWriteThrough outer target) rfl⟩

/-- A variable whose type is known is declared. -/
theorem keeps_createVariable
    (name : String) (container : Option Nat) (type : Ty) (mutable : Bool) :
    Keeps R (createDescriptor name container (.variableKind ⟨some type, mutable⟩)) :=
  ⟨fun _ => AllowsTyping.of_types
    ⟨.single (.createDescriptor name container (.variableKind _)), .create _ name container rfl⟩⟩

theorem keeps_addVariable (scope : Nat) (name : String) (descriptor : Nat) :
    Keeps R (onScopes (·.addVariable scope name descriptor)) :=
  ⟨fun _ => AllowsTyping.of_change (.bind scope fun _ => rfl) rfl⟩

theorem keeps_addField (scope : Nat) (name : String) (property : Nat) :
    Keeps R (onScopes (·.addField scope name property)) :=
  ⟨fun _ => AllowsTyping.of_change (.bind scope fun _ => rfl) rfl⟩

theorem keeps_addFunction (scope : Nat) (name : String) (descriptor : Nat) :
    Keeps R (onScopes (·.addFunction scope name descriptor)) :=
  ⟨fun _ => AllowsTyping.of_change (.bind scope fun _ => rfl) rfl⟩

theorem keeps_importScope (scope imported : Nat) :
    Keeps R (onScopes (·.importScope scope imported)) :=
  ⟨fun _ => AllowsTyping.of_change (.importScope scope imported) rfl⟩

/-- The scope of a body is added with the names of the parameters, or else nothing. -/
theorem keepsOr_functionInnerScope (outer function : Nat) :
    KeepsOr R (functionInnerScope outer function) := by
  refine KeepsOr.of_afterOr fun s => ?_
  simp only [functionInnerScope, afterOr_bind, afterOr_get, Model.functionInnerScope]
  cases s.model.descriptors.signature? function with
  | none => exact refl_of R s
  | some signature =>
      simp only [afterOr_bind, afterOr_modify, afterOr_pure]
      have hcreate : Follows nodes s
          { s with
            model.scopes := (s.model.scopes.create .function (some outer) (some function)).2 } :=
        .single (.createScope .function (some outer) (some function))
      refine AllowsTyping.of_types ⟨hcreate.trans ?_, .refl _⟩
      exact Follows.foldl_bind _
        (fun p b => { b with values := b.values.insert (s.model.descriptors.name p) p })
        (fun _ _ => rfl) signature.parameters

end

/-- A change of the descriptors that may be refused. -/
theorem keepsOr_tryDescriptors
    {R : Session → Session → Prop} [IsPreorder Session R]
    {f : DescriptorTable → Except Fault DescriptorTable}
    (hf : ∀ (s : Session) (t : DescriptorTable), f s.model.descriptors = .ok t →
      R s { s with model.descriptors := t }) :
    KeepsOr R (tryDescriptors f) := by
  refine KeepsOr.of_afterOr fun s => ?_
  simp only [tryDescriptors, afterOr_bind, afterOr_get]
  cases h : f s.model.descriptors with
  | error fault => exact refl_of R s
  | ok t => exact hf s t h

theorem afterOr_tryDescriptors
    {s : Session} {f : DescriptorTable → Except Fault DescriptorTable}
    {post : Unit → Session → Prop}
    (hf : ∀ t, f s.model.descriptors = .ok t → post () { s with model.descriptors := t }) :
    AfterOr (tryDescriptors f) s post fun _ _ => True := by
  simp only [tryDescriptors, afterOr_bind, afterOr_get]
  cases h : f s.model.descriptors with
  | error fault => trivial
  | ok t => exact hf t h

/-! ### States after elementary operations -/

section

variable {s : Session} {post : Unit → Session → Prop}

theorem after_onDescriptors {f : DescriptorTable → DescriptorTable} :
    After (onDescriptors f) s post ↔
      post () { s with model.descriptors := f s.model.descriptors } :=
  Iff.rfl

theorem after_onScopes {f : ScopeTree → ScopeTree} :
    After (onScopes f) s post ↔ post () { s with model.scopes := f s.model.scopes } :=
  Iff.rfl

theorem after_onRecorder {f : Recorder → Recorder} :
    After (onRecorder f) s post ↔ post () { s with recorder := f s.recorder } :=
  Iff.rfl

end

theorem keeps_createDescriptor
    {nodes : List Nat} (name : String) (container : Option Nat) {kind : DescriptorKind}
    (hkind : kind.IsNew) :
    Keeps (Follows nodes) (createDescriptor name container kind) :=
  ⟨fun _ => .single (.createDescriptor name container hkind)⟩

/-- The index of a new descriptor is that under which it is found. -/
theorem after_createDescriptor
    (nodes : List Nat) {s : Session} (name : String) (container : Option Nat)
    {kind : DescriptorKind} (hkind : kind.IsNew) :
    After (createDescriptor name container kind) s fun id s' =>
      Follows nodes s s' ∧ s'.descriptors.get id = { name, container, kind } :=
  ⟨(keeps_createDescriptor name container hkind).after s,
    s.model.descriptors.get_create_size name container kind⟩

/-- A node declares what has just been recorded for it. -/
theorem after_recordDeclaration
    {s : Session} {node : Nat} (hnode : node ∈ nodes) (descriptor : Nat) :
    After (recordDeclaration node descriptor) s fun _ s' =>
      Follows nodes s s' ∧ s'.trace.declaration? node = some descriptor :=
  ⟨(keeps_recordDeclaration (R := Follows nodes) hnode descriptor).after s,
    Std.TreeMap.getElem?_insert_self⟩

end Analysis

/-! ## Where typing starts -/

namespace Session

/-- A relation that holds between the sessions before and after it is reported that one of the
nodes has a type that is no subtype of the one that is expected there. -/
class AllowsMismatches (nodes : List Nat) (R : Session → Session → Prop) : Prop where
  of_mismatch : ∀ {s : Session} {node : Nat} {expected actual : Ty}, node ∈ nodes →
    s.descriptors.isSubtype actual expected = false →
      R s { s with diagnostics := s.diagnostics.push (.mismatch node expected actual) }

instance {nodes : List Nat} {R : Session → Session → Prop} [AllowsRemarks .typeMismatch nodes R] :
    AllowsMismatches nodes R where
  of_mismatch hnode _ := AllowsRemarks.of_remark hnode _

/-- What may be done in the scopes of a session. -/
structure Ground where
  /-- Variables of the names may be declared in the scope, and the types resolved. -/
  admits : List String → List TypeRef → Nat → Session → Prop
  /-- Anything may be declared in the scope, which is new, and the types may be resolved. -/
  fresh : List TypeRef → Nat → Session → Prop

/-- The ground that allows everything. -/
def Ground.free : Ground := ⟨fun _ _ _ _ => True, fun _ _ _ => True⟩

/-- The sessions before and after resolving a type reference are related wherever a ground
admits it. -/
class Ground.Resolves (g : Ground) (nodes : outParam (List Nat)) (R : Session → Session → Prop) :
    Prop extends AllowsEntries nodes R where
  stable_admits : ∀ {locals refs scope s s'}, R s s' → g.admits locals refs scope s →
    g.admits locals refs scope s'
  resolveTypeRef : ∀ {locals refs scope s} {ref : TypeRef}, g.admits locals refs scope s →
    ref ∈ refs → ref.id ∈ nodes → After (Analysis.resolveTypeRef scope ref) s fun _ => R s

/-- The sessions before and after typing an expression are related wherever a ground allows it to
start. -/
class Ground.Infers (g : Ground) (nodes : outParam (List Nat)) (R : Session → Session → Prop) :
    Prop extends g.Resolves nodes R where
  stable_fresh : ∀ {refs scope s s'}, R s s' → g.fresh refs scope s → g.fresh refs scope s'
  admits_of_fresh : ∀ {refs scope s}, g.fresh refs scope s → ∀ locals,
    g.admits locals refs scope s
  createVariable : ∀ (name : String) (container : Option Nat) (type : Ty) (mutable : Bool),
    Keeps R (Analysis.createDescriptor name container (.variableKind ⟨some type, mutable⟩))
  createBlock : ∀ {locals refs scope s}, g.admits locals refs scope s →
    After (Analysis.createScope .block (some scope) none) s fun inner s' =>
      R s s' ∧ g.fresh refs inner s'
  addVariable : ∀ {locals refs scope s} {name : String}, g.admits locals refs scope s →
    name ∈ locals → ∀ descriptor,
      After (Analysis.onScopes (·.addVariable scope name descriptor)) s fun _ => R s

/-- The sessions before and after typing a body are related wherever a ground allows it to start. -/
class Ground.Allows (g : Ground) (nodes : outParam (List Nat)) (R : Session → Session → Prop) :
    Prop extends AllowsNotes nodes R, g.Infers nodes R where
  createScope : ∀ {locals refs scope s}, g.admits locals refs scope s →
    ∀ kind owner, After (Analysis.createScope kind (some scope) owner) s fun inner s' =>
      R s s' ∧ g.fresh refs inner s'
  bind : ∀ {refs scope s} {f : Bindings → Bindings}, g.fresh refs scope s →
    (∀ b, (f b).classifiers = b.classifiers) → (∀ b, (f b).namespaces = b.namespaces) →
      (∀ b, (f b).functions = b.functions) →
        R s { s with model.scopes := s.model.scopes.bind scope f }
  createBlock := fun hs => createScope hs .block none

variable {g : Ground} {nodes : List Nat} {R : Session → Session → Prop}

instance [g.Resolves nodes R] (locals : List String) (refs : List TypeRef) (scope : Nat) :
    Stable (g.admits locals refs scope) R where
  stable := Ground.Resolves.stable_admits

instance [g.Infers nodes R] (refs : List TypeRef) (scope : Nat) :
    Stable (g.fresh refs scope) R where
  stable := Ground.Infers.stable_fresh

instance [AllowsEntries nodes R] {p : Session → Prop} [Stable p R] :
    AllowsEntries nodes (From p R) where
  of_entry h _ := AllowsEntries.of_entry h

instance [AllowsNotes nodes R] {p : Session → Prop} [Stable p R] :
    AllowsNotes nodes (From p R) where
  of_notes h _ := AllowsNotes.of_notes h

instance {code : DiagnosticCode} [AllowsRemarks code nodes R] {p : Session → Prop} :
    AllowsRemarks code nodes (From p R) where
  of_remark hnode message _ := AllowsRemarks.of_remark hnode message

instance [AllowsMismatches nodes R] {p : Session → Prop} : AllowsMismatches nodes (From p R) where
  of_mismatch hnode hsubtype _ := AllowsMismatches.of_mismatch hnode hsubtype

/-- Nothing has to be known where everything is allowed. -/
theorem Ground.free_keepsOr
    {α : Type} {refs : List TypeRef} {scope : Nat} {x : FaultyAnalysis α}
    (h : KeepsOr (From (Ground.free.admits [] refs scope) R) x) : KeepsOr R x :=
  h.mono fun _ _ h => h trivial

/-- Anything may be declared in a new scope, also several things one after the other. -/
theorem Ground.foldl_bind
    [g.Allows nodes R] {refs : List TypeRef} {scope : Nat} {s : Session}
    (hs : g.fresh refs scope s) {f : Nat → Bindings → Bindings}
    (hclassifiers : ∀ id b, (f id b).classifiers = b.classifiers)
    (hnamespaces : ∀ id b, (f id b).namespaces = b.namespaces)
    (hfunctions : ∀ id b, (f id b).functions = b.functions) (ids : List Nat) :
    R s { s with
      model.scopes := ids.foldl (fun t id => t.bind scope (f id)) s.model.scopes } := by
  induction ids generalizing s with
  | nil => exact refl_of R s
  | cons id rest ih =>
      have hbind : R s { s with model.scopes := s.model.scopes.bind scope (f id) } :=
        Ground.Allows.bind hs (hclassifiers id) (hnamespaces id) (hfunctions id)
      exact trans_of R hbind (ih (Ground.Infers.stable_fresh hbind hs))

end Session

end DeclAnalysis
