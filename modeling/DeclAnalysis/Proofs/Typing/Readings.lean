import DeclAnalysis.Proofs.Session.Readings
import DeclAnalysis.Proofs.Typing.Follows

/-!
# Names are resolved lexically

Typing an expression enacts its events in the scope in which it is typed. So every name refers to
the latest local variable that has been declared in the innermost block around it, or else to what
it meant before, and if there is neither, this is reported once.
-/

namespace DeclAnalysis

namespace Analysis

open Session (Silent EnactsIn)

variable {nodes : List Nat} {scope : Nat}

/-! ### Steps that do not look up names -/

theorem silent_createDescriptor (name : String) (container : Option Nat) (kind : DescriptorKind) :
    Keeps (Silent nodes) (createDescriptor name container kind) :=
  ⟨fun _ => ⟨rfl, fun _ => ⟨rfl, rfl, rfl⟩⟩⟩

theorem silent_recordKnownType (node : Nat) (type : Option Ty) :
    Keeps (Silent nodes) (recordKnownType node type) := by
  cases type with
  | some type => exact ⟨fun _ => ⟨rfl, fun _ => ⟨rfl, rfl, rfl⟩⟩⟩
  | none => exact Keeps.pure _

theorem silent_expectKnownType (node : Nat) (expected actual : Option Ty) :
    Keeps (Silent nodes) (expectKnownType node expected actual) :=
  keeps_expectKnownType (List.mem_singleton_self node) expected actual

theorem silent_declaredType (scope : Nat) (typeRef : Option TypeRef) :
    Keeps (Silent (typeRefNodes typeRef)) (typeRef.mapM (resolveTypeRef scope)) := by
  refine Keeps.optionMapM _ fun ref href => ?_
  have hnode : ref.id ∈ typeRefNodes typeRef := typeRef_mem_of_subset (List.Subset.refl _) ref href
  refine keeps_resolveTypeRef_of (fun message => ?_) (fun type => ?_) scope
  · exact ⟨fun _ => .of_report fun _ => hnode⟩
  · exact ⟨fun _ => ⟨rfl, fun _ => ⟨rfl, rfl, rfl⟩⟩⟩

/-! ### Events -/

variable {α : Type}

/-- The computation enacts the events in the scope. -/
abbrev Enacting (scope : Nat) (xs : List NameEvent) (x : Analysis α) : Prop :=
  Logs (EnactsIn scope) xs x

theorem enacting_of_silent {x : Analysis α} (h : Keeps (Silent nodes) x) (scope : Nat) :
    Enacting scope (nodes.map .other) x :=
  h.mono fun _ _ hsilent => hsilent.enacts scope

/-- A computation that has nothing to do with names. -/
theorem enacting_none {x : Analysis α} (h : Keeps (Silent []) x) (scope : Nat) :
    Enacting scope [] x :=
  enacting_of_silent h scope

/-- What is looked up is what the node then refers to, and if there is nothing, this is reported. -/
theorem after_inferName_mention
    {name : String} (hname : fieldName? name = none) (scope node : Nat) (s : Session) :
    After (inferName scope node name) s fun _ s' =>
      (s.trace.reference? node = none → s'.trace.reference? node =
        (s.scopes.value? scope name).or (s.scopes.namespace? scope name)) ∧
      s'.missing node = s.missing node +
        if ((s.scopes.value? scope name).or (s.scopes.namespace? scope name)).isNone then 1
        else 0 := by
  have hrecord : ∀ descriptor s, After (recordReference node .identifier descriptor) s fun _ s' =>
      s'.trace.reference? node = some descriptor ∧ s'.missing node = s.missing node := by
    intro descriptor s
    obtain ⟨fields, htrace⟩ := Session.trace_recordReference s.recorder node .identifier descriptor
    refine ⟨(congrArg (·.reference? node) htrace).trans ?_, rfl⟩
    change ((s.trace.references.insert node (.identifier, descriptor))[node]?).map _ = _
    rw [Std.TreeMap.getElem?_insert_self]
    rfl
  unfold inferName
  simp only [after_bind, after_get, hname]
  cases s.scopes.value? scope name with
  | some value =>
      refine After.bind (hrecord value s) fun _ s₁ h₁ => ?_
      exact ⟨fun _ => h₁.1, h₁.2⟩
  | none =>
      cases s.scopes.namespace? scope name with
      | some ns =>
          refine After.bind (hrecord ns s) fun _ s₁ h₁ => ?_
          exact ⟨fun _ => h₁.1, h₁.2⟩
      | none =>
          refine ⟨fun hvacant => hvacant, ?_⟩
          change List.countP _ (s.diagnostics.push _).toList =
            List.countP _ s.diagnostics.toList + 1
          rw [Array.toList_push, List.countP_append, List.countP_singleton]
          simp [Diagnostic.ofCode]

theorem enacting_inferName (scope node : Nat) (name : String) :
    Enacting scope (Expr.name node name).nameEvents (inferName scope node name) := by
  have hsilent : Keeps (Silent [node]) (inferName scope node name) :=
    keeps_inferName (List.mem_singleton_self node) scope name
  cases hname : fieldName? name with
  | some field =>
      unfold Expr.nameEvents
      rw [hname, if_pos (Option.isSome_some)]
      exact enacting_of_silent hsilent scope
  | none =>
      unfold Expr.nameEvents
      rw [hname, if_neg (by simp)]
      refine ⟨fun s hclosed _ => ?_⟩
      have hlookup := after_inferName_mention hname scope node s
      exact .mention hclosed (hsilent.after s) hlookup.1 hlookup.2

theorem enacting_declareLocal
    (scope node : Nat) (name : String) (mutable : Bool) (declared initialized : Option Ty) :
    Enacting scope [.declare node name]
      (declareLocal scope node name mutable declared initialized) := by
  have hbind : ∀ v, Enacting scope [.declare node name] (do
      onScopes (·.addVariable scope name v)
      recordDeclaration node v) := by
    refine fun v => ⟨fun s hclosed hscope => .declare hclosed hscope rfl (fun {node'} hne => ?_) ?_⟩
    · refine ⟨rfl, ?_, rfl⟩
      change (s.trace.declarations.insert node v)[node']? = _
      rw [getElem?_insert_of_ne hne.symm]
      rfl
    · exact Std.TreeMap.getElem?_insert_self
  rw [declareLocal_eq]
  refine Logs.bind_first (enacting_none (keeps_localType ..) scope) fun type => ?_
  refine Logs.get_bind fun s => ?_
  exact Logs.bind_first (enacting_none (silent_createDescriptor ..) scope) hbind

/-- Statements are typed in a scope of their own. -/
theorem enacting_block
    {xs : List NameEvent} {x : Nat → Analysis α} (h : ∀ block, Enacting block xs (x block))
    (scope : Nat) :
    Enacting scope ([.enter] ++ xs ++ [.leave]) (do
      let block ← createScope .block (some scope) none
      x block) := by
  refine ⟨fun s hclosed hscope => ?_⟩
  let s₁ : Session := { s with model.scopes := (s.scopes.create .block (some scope) none).2 }
  have hscopes : s₁.scopes = (s.scopes.create .block (some scope) none).2 := rfl
  have hid : (s.scopes.create .block (some scope) none).1 = s.scopes.size := s.scopes.fst_create ..
  refine .block hclosed hscope hscopes (fun _ => ⟨rfl, rfl, rfl⟩) ?_
  rw [← hid]
  exact (h _).after s₁

mutual

/-- Typing an expression enacts its events. -/
theorem enacting_infer (scope : Nat) (e : Expr) : Enacting scope e.nameEvents (infer scope e) := by
  rw [infer_eq]
  suffices h : Enacting scope e.nameEvents (inferForm scope e) from
    Logs.bind_last h fun type =>
      Logs.bind_first (enacting_none (silent_recordKnownType e.id type) scope) fun _ =>
        Logs.pure type
  match e with
  | .constant _ (.int _) | .constant _ (.double _) | .constant _ (.string _)
  | .constant _ (.bool _) | .breakLoop _ | .continueLoop _ | .ret _ none | .lambda .. =>
      exact Logs.pure _
  | .name node name => exact (enacting_inferName scope node name).map some
  | .dot node receiver name =>
      refine Logs.bind (enacting_infer scope receiver) fun type => ?_
      have hmem := List.mem_singleton_self node
      cases type with
      | none => exact enacting_of_silent (Keeps.pure (R := Silent [node]) none) scope
      | some type => exact enacting_of_silent ((keeps_inferMember hmem type name).map some) scope
  | .block _ statements =>
      exact enacting_block (fun block => enacting_inferStatements block _ statements) scope
  | .cond _ condition thenBranch none | .whileLoop _ condition thenBranch =>
      refine Logs.bind (enacting_infer scope condition) fun type => ?_
      refine Logs.bind_first (enacting_none (silent_expectKnownType ..) scope) fun _ => ?_
      exact Logs.bind_last (enacting_infer scope thenBranch) fun _ => Logs.pure _
  | .cond _ condition thenBranch (some elseBranch) =>
      refine Logs.bind (enacting_infer scope condition) fun type => ?_
      refine Logs.bind_first (enacting_none (silent_expectKnownType ..) scope) fun _ => ?_
      refine Logs.bind (enacting_infer scope thenBranch) fun thenType => ?_
      refine Logs.bind_last (enacting_infer scope elseBranch) fun elseType => ?_
      split
      · exact Logs.get_bind fun _ => Logs.pure _
      · exact Logs.pure _
  | .doWhileLoop _ body condition =>
      refine Logs.bind (enacting_infer scope body) fun _ => ?_
      refine Logs.bind_last (enacting_infer scope condition) fun type => ?_
      exact Logs.bind_first (enacting_none (silent_expectKnownType ..) scope) fun _ => Logs.pure _
  | .ret _ (some value) =>
      exact Logs.bind_last (enacting_infer scope value) fun _ => Logs.pure _
  | .binary node operator left right =>
      refine Logs.bind (enacting_infer scope left) fun leftType => ?_
      refine Logs.bind_last (enacting_infer scope right) fun rightType => ?_
      split
      · exact (enacting_none (keeps_inferOperator ..) scope).map some
      · exact Logs.pure _
  | .assign _ target value =>
      have htarget : Enacting scope (if isAssignable target then target.nameEvents else [])
          (inferTarget scope target) := by
        unfold inferTarget
        split
        · exact enacting_infer scope target
        · refine Logs.bind_first ?_ fun _ => Logs.pure _
          exact enacting_none (keeps_reportOther (by decide) ..) scope
      refine Logs.bind htarget fun targetType => ?_
      refine Logs.bind_first (enacting_none (keeps_checkReassignment target) scope) fun _ => ?_
      refine Logs.bind_last (enacting_infer scope value) fun type => ?_
      exact Logs.bind_first (enacting_none (silent_expectKnownType ..) scope) fun _ => Logs.pure _
  | .call node callee arguments =>
      refine Logs.bind (enacting_inferArguments scope arguments) fun types => ?_
      have hcall : Keeps (Silent [node]) (inferCall scope node callee types) :=
        keeps_inferCall (List.mem_singleton_self node) scope callee types
      exact (enacting_of_silent hcall scope).map some
  | .localVariable node name mutable typeRef none =>
      refine Logs.bind (enacting_of_silent (silent_declaredType scope typeRef) scope)
        fun declared => ?_
      exact Logs.bind_last (enacting_declareLocal ..) fun _ => Logs.pure _
  | .localVariable node name mutable typeRef (some initializer) =>
      refine Logs.bind (enacting_of_silent (silent_declaredType scope typeRef) scope)
        fun declared => ?_
      refine Logs.bind (enacting_infer scope initializer) fun initialized => ?_
      refine Logs.bind_first (enacting_none (silent_expectKnownType ..) scope) fun _ => ?_
      exact Logs.bind_last (enacting_declareLocal ..) fun _ => Logs.pure _

theorem enacting_inferStatements (scope : Nat) (last : Option Ty) (es : List Expr) :
    Enacting scope (Expr.nameEventsOf es) (inferStatements scope last es) := by
  match es with
  | [] => exact Logs.pure _
  | e :: rest =>
      refine Logs.bind (enacting_infer scope e) fun type => ?_
      exact enacting_inferStatements scope type rest

theorem enacting_inferArguments (scope : Nat) (es : List Expr) :
    Enacting scope (Expr.nameEventsOf es) (inferArguments scope es) := by
  match es with
  | [] => exact Logs.pure _
  | e :: rest =>
      refine Logs.bind (enacting_infer scope e) fun type => ?_
      exact Logs.bind_last (enacting_inferArguments scope rest) fun _ => Logs.pure _

end

/-! ### Names in typed positions -/

/-- After an expression has been typed in a scope, every name in a typed position that is not the
name of a backing field refers to the latest local variable of that name that was declared before
it, in the order of typing, in the innermost block around it that has one; variables outside of all
blocks of the expression count as declared in the scope. If there is no such variable, it refers to
the variable or property that was found from the scope before, or else to the namespace, and if
there was neither, it refers to nothing, which has been reported once. -/
theorem infer_reads_lexically
    (s : Session) (scope n : Nat) (e : Expr) (hreachable : s.scopes.Reachable)
    (hscope : scope < s.scopes.size)
    (hvacant : ∀ node ∈ (e.number n).nodes, s.trace.reference? node = none) :
    (∀ node name, (∃ r ∈ (e.number n).readings, r.node = node ∧ r.name = name) ↔
      (Expr.name node name).IsTypedIn (e.number n) ∧ fieldName? name = none) ∧
    ∀ r ∈ (e.number n).readings,
      (∀ node, r.declared? = some node → ∃ v,
        ((infer scope (e.number n)).run s).2.trace.declaration? node = some v ∧
        ((infer scope (e.number n)).run s).2.trace.reference? r.node = some v ∧
        ((infer scope (e.number n)).run s).2.missing r.node = s.missing r.node) ∧
      (r.declared? = none →
        ((infer scope (e.number n)).run s).2.trace.reference? r.node =
          (s.scopes.value? scope r.name).or (s.scopes.namespace? scope r.name) ∧
        ((infer scope (e.number n)).run s).2.missing r.node = s.missing r.node +
          if ((s.scopes.value? scope r.name).or (s.scopes.namespace? scope r.name)).isNone then 1
          else 0) := by
  have henacts := ((enacting_infer scope (e.number n)).after s) hreachable.closed hscope
  have hcount : ∀ node, (NameEvent.nodes (e.number n).nameEvents).count node ≤
      (e.number n).nodes.count node := fun node => Expr.count_nameEvents_le node _
  have hnodup : (NameEvent.nodes (e.number n).nameEvents).Nodup :=
    List.nodup_iff_count_le_one.mpr fun node =>
      (hcount node).trans (List.nodup_iff_count_le_one.mp (Expr.nodup_nodes_number n e) node)
  have hsubset : ∀ node ∈ NameEvent.nodes (e.number n).nameEvents, node ∈ (e.number n).nodes :=
    fun node hnode => List.count_pos_iff.mp ((List.count_pos_iff.mpr hnode).trans_le (hcount node))
  have hagrees : s.Agrees (s.scopes.value? scope) (s.scopes.namespace? scope) [[]] scope :=
    ⟨nofun, fun {_} _ => rfl, fun _ => rfl⟩
  obtain ⟨-, hreads⟩ := henacts.reads hnodup (fun node hnode => hvacant node (hsubset node hnode))
    (fun node hnode => absurd hnode List.not_mem_nil) hagrees
  refine ⟨fun node name => Expr.exists_reading_iff, fun r hr => ?_⟩
  exact ⟨fun node => (hreads r hr).declared, (hreads r hr).outside⟩

/-- A block in which a variable hides another one for a while, and a name that nothing has. -/
def shadowing : Expr :=
  .block 0 [
    .localVariable 0 "x" false none (some (.constant 0 (.int 1))),
    .block 0 [
      .localVariable 0 "x" false none (some (.name 0 "x")),
      .name 0 "x"],
    .name 0 "x",
    .name 0 "y"]

/-- The initializer of the inner variable and the name after the inner block refer to the outer
variable, the name in the inner block to the inner one. -/
theorem infer_reads_lexically_shadowing :
    ((shadowing.number 1).readings.map fun r => (r.node, r.declared?)) =
      [(6, some 2), (7, some 5), (8, some 2), (9, none)] ∧
    (∃ v, ((infer 0 (shadowing.number 1)).run {}).2.trace.declaration? 5 = some v ∧
      ((infer 0 (shadowing.number 1)).run {}).2.trace.reference? 7 = some v) ∧
    ((infer 0 (shadowing.number 1)).run {}).2.trace.reference? 9 = none ∧
    ((infer 0 (shadowing.number 1)).run {}).2.missing 9 = 1 := by
  have hreads := (infer_reads_lexically {} 0 1 shadowing .initial (by decide) fun node _ =>
    (by simp [Session.trace, Trace.reference?])).2
  have hinner := (hreads ⟨7, "x", some 5⟩ (by decide)).1 5 rfl
  have hmissing := (hreads ⟨9, "y", none⟩ (by decide)).2 rfl
  obtain ⟨v, hv, href, -⟩ := hinner
  refine ⟨by decide, ⟨v, hv, href⟩, hmissing.1.trans (by rfl), hmissing.2.trans (by rfl)⟩

end Analysis

end DeclAnalysis
