import DeclAnalysis.Proofs.Tree.Children
import DeclAnalysis.Proofs.Tree.FieldAccesses
import DeclAnalysis.Tree.Body

/-!
# Calls, and what typing records

A call is written as an expression or as an entry of a delegation list. For every expression that
is typed a type may be recorded, for every name and member access a reference, and for every call
the candidate that is selected; all this happens in the order of typing and once for each node.
-/

namespace DeclAnalysis

/-! ## Calls -/

/-- What a call names: some candidates, or the constructors of the class that a type reference
denotes. -/
inductive Callee where
  | oneOf (candidates : List Nat)
  | instanceOf (ref : Nat)

/-- A call: its node, what it names, and the nodes of its arguments. -/
structure Call where
  node : Nat
  callee : Callee
  arguments : List Nat

/-- How a call says what it calls: by name, as the class of a supertype, or as the class that it
stands in. -/
inductive CallTarget where
  | named (name : String)
  | super (ref : Option TypeRef)
  | this

/-- A call in a tree. -/
structure CallSite where
  node : Nat
  target : CallTarget
  arguments : List Expr

/-- The call, if names mean some candidates and the class around has some constructors. -/
def CallSite.call (named : String → List Nat) (own : List Nat) (site : CallSite) : Call where
  node := site.node
  callee :=
    match site.target with
    | .named name => .oneOf (named name)
    | .super (some ref) => .instanceOf ref.id
    | .super none => .oneOf []
    | .this => .oneOf own
  arguments := site.arguments.map Expr.id

/-- The expression as a call, if it is one. -/
def Expr.callSite? : Expr → Option CallSite
  | .call node callee arguments => some ⟨node, .named callee, arguments⟩
  | _ => none

/-- The entry of a delegation list as a call, if it is one. -/
def DelegationSpecifier.callSite? : DelegationSpecifier → Option CallSite
  | superCall node ref arguments => some ⟨node, .super ref, arguments⟩
  | thisCall node arguments => some ⟨node, .this, arguments⟩
  | byExpression .. | superClass .. => none

theorem Expr.id_of_callSite? {e : Expr} {site : CallSite} (h : e.callSite? = some site) :
    e.id = site.node := by
  cases e with
  | call =>
      obtain rfl := Option.some.inj h
      rfl
  | _ => cases h

theorem DelegationSpecifier.id_of_callSite?
    {specifier : DelegationSpecifier} {site : CallSite} (h : specifier.callSite? = some site) :
    specifier.id = site.node := by
  cases specifier with
  | superCall | thisCall =>
      obtain rfl := Option.some.inj h
      rfl
  | _ => cases h

/-! ## Logs -/

/-- What is recorded about a node at most once. -/
inductive Slot where
  | reference (node : Nat)
  | type (node : Nat)
deriving DecidableEq

/-- The node that a slot belongs to. -/
def Slot.node : Slot → Nat
  | reference node | type node => node

/-- An entry of a log: a reference or type is recorded, if there is one, or a call is resolved. -/
inductive Recording where
  | reference (node : Nat)
  | type (node : Nat)
  | call (call : Call)

/-- The slot that an entry may fill. -/
def Recording.slot : Recording → Slot
  | reference node => .reference node
  | type node => .type node
  | call c => .reference c.node

namespace Expr

open Analysis (isAssignable)

variable (named : String → List Nat)

mutual

/-- What is recorded when an expression is typed, where names mean some candidates. The type of the
expression itself comes last. -/
def recordings : Expr → List Recording
  | constant node _ | breakLoop node | continueLoop node | ret node none
  | localVariable node _ _ _ none | lambda node .. => [.type node]
  | name node _ => [.reference node] ++ [.type node]
  | dot node receiver _ => receiver.recordings ++ [.reference node] ++ [.type node]
  | block node statements => recordingsOf statements ++ [.type node]
  | cond node condition thenBranch none =>
    condition.recordings ++ thenBranch.recordings ++ [.type node]
  | cond node condition thenBranch (some elseBranch) =>
    condition.recordings ++ (thenBranch.recordings ++ elseBranch.recordings) ++ [.type node]
  | whileLoop node condition body => condition.recordings ++ body.recordings ++ [.type node]
  | doWhileLoop node body condition => body.recordings ++ condition.recordings ++ [.type node]
  | ret node (some value) => value.recordings ++ [.type node]
  | binary node _ left right => left.recordings ++ right.recordings ++ [.type node]
  | assign node target value =>
    (if isAssignable target then target.recordings else []) ++ value.recordings ++ [.type node]
  | call node callee arguments =>
    recordingsOf arguments
      ++ [.call ⟨node, .oneOf (named callee), arguments.map Expr.id⟩] ++ [.type node]
  | localVariable node _ _ _ (some initializer) => initializer.recordings ++ [.type node]

/-- What is recorded when several expressions are typed. -/
def recordingsOf : List Expr → List Recording
  | [] => []
  | e :: rest => e.recordings ++ recordingsOf rest

end

/-- What is recorded about an expression itself. -/
def ownRecordings : Expr → List Recording
  | name node _ | dot node _ _ => [.reference node, .type node]
  | call node callee arguments =>
    [.call ⟨node, .oneOf (named callee), arguments.map Expr.id⟩, .type node]
  | e => [.type e.id]

/-- The type of an expression is recorded after everything else about it. -/
theorem recordings_eq (e : Expr) :
    e.recordings named = (e.recordings named).dropLast ++ [.type e.id] := by
  have hlast : ∀ xs : List Recording, xs ++ [Recording.type e.id] =
      (xs ++ [Recording.type e.id]).dropLast ++ [Recording.type e.id] := by
    intro xs
    rw [List.dropLast_concat]
  match e with
  | constant .. | breakLoop _ | continueLoop _ | ret _ none | localVariable _ _ _ _ none
  | lambda .. => exact hlast []
  | name .. | dot .. | block .. | cond _ _ _ none | cond _ _ _ (some _) | whileLoop ..
  | doWhileLoop .. | ret _ (some _) | binary .. | assign .. | call ..
  | localVariable _ _ _ _ (some _) => exact hlast _

/-- At most one of both slots of a node is the one that is counted. -/
theorem count_slots_le (slot : Slot) (node : Nat) :
    [Slot.reference node].count slot + [Slot.type node].count slot ≤ [node].count slot.node := by
  cases slot with
  | reference node' => simp [Slot.node, List.count_singleton]
  | type node' => simp [Slot.node, List.count_singleton]

mutual

/-- About each node something is recorded in one place at most. -/
theorem count_recordings_le (slot : Slot) (e : Expr) :
    ((e.recordings named).map Recording.slot).count slot ≤ e.nodes.count slot.node := by
  have hown := count_slots_le slot e.id
  match e with
  | constant .. | breakLoop _ | continueLoop _ | ret _ none | name .. =>
      simp only [recordings, nodes, Expr.id, List.map_append, List.map_cons, List.map_nil,
        Recording.slot, List.count_append] at hown ⊢
      omega
  | lambda .. | localVariable _ _ _ _ none =>
      simp only [recordings, nodes, Expr.id, List.map_cons, List.map_nil, Recording.slot,
        List.count_cons, List.count_nil] at hown ⊢
      omega
  | dot _ inner _ | ret _ (some inner) | localVariable _ _ _ _ (some inner) =>
      have hinner := count_recordings_le slot inner
      simp only [recordings, nodes, Expr.id, List.map_append, List.map_cons, List.map_nil,
        Recording.slot, List.count_append, List.count_cons, List.count_nil] at hown ⊢
      omega
  | block _ es | call _ _ es =>
      have hes := count_recordingsOf_le slot es
      simp only [recordings, nodes, Expr.id, List.map_append, List.map_cons, List.map_nil,
        Recording.slot, List.count_append, List.count_cons, List.count_nil] at hown ⊢
      omega
  | cond _ first second none | whileLoop _ first second | doWhileLoop _ first second
  | binary _ _ first second =>
      have hfirst := count_recordings_le slot first
      have hsecond := count_recordings_le slot second
      simp only [recordings, nodes, Expr.id, List.map_append, List.map_cons, List.map_nil,
        Recording.slot, List.count_append, List.count_cons, List.count_nil] at hown ⊢
      omega
  | cond _ condition thenBranch (some elseBranch) =>
      have hcondition := count_recordings_le slot condition
      have hthen := count_recordings_le slot thenBranch
      have helse := count_recordings_le slot elseBranch
      simp only [recordings, nodes, Expr.id, List.map_append, List.map_cons, List.map_nil,
        Recording.slot, List.count_append, List.count_cons, List.count_nil] at hown ⊢
      omega
  | assign _ target value =>
      have htarget : ((if isAssignable target then target.recordings named else []).map
          Recording.slot).count slot ≤ target.nodes.count slot.node := by
        split
        · exact count_recordings_le slot target
        · exact Nat.zero_le _
      have hvalue := count_recordings_le slot value
      simp only [recordings, nodes, Expr.id, List.map_append, List.map_cons, List.map_nil,
        Recording.slot, List.count_append, List.count_cons, List.count_nil] at hown htarget ⊢
      omega

theorem count_recordingsOf_le (slot : Slot) (es : List Expr) :
    ((recordingsOf named es).map Recording.slot).count slot ≤ (nodesOf es).count slot.node := by
  match es with
  | [] => exact Nat.zero_le _
  | e :: rest =>
      have he := count_recordings_le slot e
      have hrest := count_recordingsOf_le slot rest
      simp only [recordingsOf, nodesOf, List.map_append, List.count_append]
      omega

end

theorem recordingsOf_eq_flatMap (es : List Expr) :
    recordingsOf named es = es.flatMap (recordings named) := by
  induction es with
  | nil => rfl
  | cons e rest ih => rw [recordingsOf, ih, List.flatMap_cons]

/-- The types of all expressions are recorded. -/
theorem type_mem_recordingsOf {es : List Expr} {node : Nat} (hnode : node ∈ es.map Expr.id) :
    .type node ∈ recordingsOf named es := by
  obtain ⟨e, he, rfl⟩ := List.mem_map.mp hnode
  rw [recordingsOf_eq_flatMap, List.mem_flatMap]
  refine ⟨e, he, ?_⟩
  rw [recordings_eq]
  exact List.mem_append_right _ (List.mem_singleton_self _)

/-- What is recorded when an expression is typed is about itself or about a child. -/
theorem mem_recordings
    {e : Expr} {x : Recording} (hx : x ∈ e.recordings named) :
    x ∈ e.ownRecordings named ∨ ∃ c ∈ e.children, x ∈ c.recordings named := by
  match e with
  | constant .. | breakLoop _ | continueLoop _ | ret _ none | name .. | lambda ..
  | localVariable _ _ _ _ none => exact .inl hx
  | block .. | call .. =>
      simp only [recordings, recordingsOf_eq_flatMap, List.mem_append, List.mem_flatMap] at hx
      simp only [ownRecordings, children, Expr.id, List.mem_cons] at hx ⊢
      tauto
  | assign _ target value =>
      simp only [recordings, List.mem_append] at hx
      split at hx
      · simp only [ownRecordings, children, Expr.id, List.mem_cons, exists_eq_or_imp] at hx ⊢
        tauto
      · simp only [ownRecordings, children, Expr.id, List.mem_cons, exists_eq_or_imp] at hx ⊢
        tauto
  | dot .. | cond _ _ _ none | cond _ _ _ (some _) | whileLoop .. | doWhileLoop ..
  | ret _ (some _) | binary .. | localVariable _ _ _ _ (some _) =>
      simp only [recordings, List.mem_append] at hx
      simp only [ownRecordings, children, Expr.id, List.mem_cons, Option.toList,
        exists_eq_or_imp] at hx ⊢
      tauto

/-- What is recorded is recorded about an expression in the tree. -/
theorem exists_ownRecordings
    {e : Expr} {x : Recording} (hx : x ∈ e.recordings named) :
    ∃ sub ∈ e.subexpressions, x ∈ sub.ownRecordings named := by
  induction e using induction_children with
  | h e ih =>
      rcases mem_recordings named hx with hx | ⟨c, hc, hx⟩
      · exact ⟨e, self_mem_subexpressions e, hx⟩
      · obtain ⟨sub, hsub, hx⟩ := ih c hc hx
        exact ⟨sub, mem_subexpressions_iff.mpr (.inr ⟨c, hc, hsub⟩), hx⟩

theorem node_of_mem_ownRecordings
    {e : Expr} {x : Recording} (hx : x ∈ e.ownRecordings named) : x.slot.node = e.id := by
  unfold ownRecordings at hx
  split at hx
  · rcases List.mem_pair.mp hx with rfl | rfl
    · rfl
    · rfl
  · rcases List.mem_pair.mp hx with rfl | rfl
    · rfl
    · rfl
  · rcases List.mem_pair.mp hx with rfl | rfl
    · rfl
    · rfl
  · obtain rfl := List.mem_singleton.mp hx
    rfl

/-- What is recorded at a call, other than its type, is what the call refers to. -/
theorem eq_call_of_mem_ownRecordings
    {e : Expr} {site : CallSite} (hsite : e.callSite? = some site) {x : Recording}
    (hx : x ∈ e.ownRecordings named) {node : Nat} (hslot : x.slot = .reference node)
    (own : List Nat) : x = .call (site.call named own) := by
  cases e with
  | call =>
      obtain rfl := Option.some.inj hsite
      rcases List.mem_pair.mp hx with rfl | rfl
      · rfl
      · cases hslot
  | _ => cases hsite

/-- The entries for an optional expression. -/
def optionalRecordings : Option Expr → List Recording
  | none => []
  | some e => e.recordings named

theorem count_optionalRecordings_le (slot : Slot) (e : Option Expr) :
    ((optionalRecordings named e).map Recording.slot).count slot ≤
      (optionalNodes e).count slot.node := by
  cases e with
  | none => exact Nat.le_refl _
  | some e => exact count_recordings_le named slot e

theorem exists_of_mem_optionalRecordings
    {e : Option Expr} {x : Recording} (hx : x ∈ optionalRecordings named e) :
    ∃ e' ∈ e.toList, x ∈ e'.recordings named := by
  cases e with
  | none => cases hx
  | some e => exact ⟨e, List.mem_singleton_self e, hx⟩

end Expr

theorem count_map_flatMap_le
    {α : Type} {f : α → List Recording} {g : α → List Nat} (slot : Slot) (xs : List α)
    (hle : ∀ x, ((f x).map Recording.slot).count slot ≤ (g x).count slot.node) :
    ((xs.flatMap f).map Recording.slot).count slot ≤ (xs.flatMap g).count slot.node := by
  have hcount := count_flatMap_add_le Recording.slot slot (f := f) (g := fun _ => []) (h := g)
    slot.node xs hle
  rwa [List.flatMap_eq_nil_iff.mpr fun _ _ => rfl, List.count_nil, Nat.add_zero] at hcount

/-! ## Delegation lists -/

namespace DelegationSpecifier

variable (named : String → List Nat) (own : List Nat)

/-- The entries for a call in a delegation list. -/
def callRecordings (site : CallSite) : List Recording :=
  Expr.recordingsOf named site.arguments ++ [.call (site.call named own)]

/-- What is recorded about an entry of the delegation list of a class. A call is typed where it
names a type. -/
def classRecordings : DelegationSpecifier → List Recording
  | byExpression _ _ delegate => Expr.optionalRecordings named delegate
  | superCall node (some ref) arguments =>
    callRecordings named [] ⟨node, .super (some ref), arguments⟩
  | superCall _ none _ | superClass .. | thisCall .. => []

/-- What is recorded about an entry of the delegation list of a secondary constructor. Only calls
are typed. -/
def constructorRecordings : DelegationSpecifier → List Recording
  | superCall node (some ref) arguments =>
    callRecordings named own ⟨node, .super (some ref), arguments⟩
  | thisCall node arguments => callRecordings named own ⟨node, .this, arguments⟩
  | superCall _ none _ | superClass .. | byExpression .. => []

theorem count_callRecordings_le (slot : Slot) (site : CallSite) :
    ((callRecordings named own site).map Recording.slot).count slot ≤
      (site.node :: Expr.nodesOf site.arguments).count slot.node := by
  have harguments := Expr.count_recordingsOf_le named slot site.arguments
  have hown := Expr.count_slots_le slot site.node
  simp only [callRecordings, CallSite.call, List.map_append, List.map_cons, List.map_nil,
    Recording.slot, List.count_append, List.count_cons, List.count_nil] at hown ⊢
  omega

theorem count_classRecordings_le (slot : Slot) (specifier : DelegationSpecifier) :
    ((specifier.classRecordings named).map Recording.slot).count slot ≤
      specifier.nodes.count slot.node := by
  match specifier with
  | byExpression _ _ delegate =>
      have hdelegate := Expr.count_optionalRecordings_le named slot delegate
      simp only [classRecordings, nodes, List.count_cons]
      omega
  | superCall node (some ref) arguments =>
      have hcall := count_callRecordings_le named [] slot ⟨node, .super (some ref), arguments⟩
      simp only [classRecordings, nodes, List.count_cons, List.count_append] at hcall ⊢
      omega
  | superCall _ none _ | superClass .. | thisCall .. => exact Nat.zero_le _

theorem count_constructorRecordings_le (slot : Slot) (specifier : DelegationSpecifier) :
    ((specifier.constructorRecordings named own).map Recording.slot).count slot ≤
      specifier.nodes.count slot.node := by
  match specifier with
  | superCall node (some ref) arguments =>
      have hcall := count_callRecordings_le named own slot ⟨node, .super (some ref), arguments⟩
      simp only [constructorRecordings, nodes, List.count_cons, List.count_append] at hcall ⊢
      omega
  | thisCall node arguments =>
      exact count_callRecordings_le named own slot ⟨node, .this, arguments⟩
  | superCall _ none _ | superClass .. | byExpression .. => exact Nat.zero_le _

/-- What is recorded is about the call itself or about an argument. -/
theorem mem_callRecordings
    {site : CallSite} {x : Recording} (hx : x ∈ callRecordings named own site) :
    x = .call (site.call named own) ∨ ∃ e ∈ site.arguments, x ∈ e.recordings named := by
  rcases List.mem_append.mp hx with hx | hx
  · rw [Expr.recordingsOf_eq_flatMap, List.mem_flatMap] at hx
    exact .inr hx
  · exact .inl (List.mem_singleton.mp hx)

/-- What is recorded about an entry belongs to the call that it is, or to an expression. -/
def Accounts (specifier : DelegationSpecifier) (x : Recording) : Prop :=
  (∃ site, specifier.callSite? = some site ∧ x = .call (site.call named own)) ∨
    ∃ e ∈ specifier.expressions, x ∈ e.recordings named

theorem accounts_of_mem_classRecordings
    {specifier : DelegationSpecifier} {x : Recording}
    (hx : x ∈ specifier.classRecordings named) : Accounts named own specifier x := by
  match specifier with
  | byExpression _ _ delegate => exact .inr (Expr.exists_of_mem_optionalRecordings named hx)
  | superCall _ (some _) _ => exact (mem_callRecordings named [] hx).imp_left fun h => ⟨_, rfl, h⟩
  | superCall _ none _ | superClass .. | thisCall .. => cases hx

theorem accounts_of_mem_constructorRecordings
    {specifier : DelegationSpecifier} {x : Recording}
    (hx : x ∈ specifier.constructorRecordings named own) : Accounts named own specifier x := by
  match specifier with
  | superCall _ (some _) _ | thisCall _ _ =>
      exact (mem_callRecordings named own hx).imp_left fun h => ⟨_, rfl, h⟩
  | superCall _ none _ | superClass .. | byExpression .. => cases hx

/-- The node of an entry and those of its expressions are among its nodes. -/
theorem count_parts_le (node : Nat) (specifier : DelegationSpecifier) :
    [specifier.id].count node + (specifier.expressions.flatMap Expr.nodes).count node ≤
      specifier.nodes.count node := by
  rw [← Expr.nodesOf_eq_flatMap]
  match specifier with
  | byExpression _ _ none | superClass .. =>
      simp only [id, expressions, nodes, Option.toList_none, Expr.nodesOf, List.count_cons,
        List.count_nil]
      omega
  | byExpression _ _ (some delegate) =>
      simp only [id, expressions, nodes, Expr.optionalNodes, Option.toList_some, Expr.nodesOf,
        List.append_nil, List.count_cons, List.count_nil]
      omega
  | superCall .. | thisCall .. =>
      simp only [id, expressions, nodes, List.count_append, List.count_cons, List.count_nil]
      omega

/-- So it is with all entries of a list. -/
theorem count_flatMap_parts_le (node : Nat) (specifiers : List DelegationSpecifier) :
    (specifiers.map id).count node +
        ((specifiers.flatMap expressions).flatMap Expr.nodes).count node ≤
      (specifiers.flatMap nodes).count node := by
  induction specifiers with
  | nil => exact Nat.le_refl _
  | cons specifier rest ih =>
      have hparts := specifier.count_parts_le node
      simp only [List.map_cons, List.flatMap_cons, List.flatMap_append, List.count_append,
        List.count_cons, List.count_nil] at hparts ⊢
      omega

end DelegationSpecifier

/-! ## Declarations -/

namespace Body

@[simp] theorem map_expr_ofExpr (subroutine : Nat) (role : BodyRole) (e : Option Expr) :
    (ofExpr subroutine role e).map expr = e.toList := by
  cases e <;> rfl

@[simp] theorem map_expr_ofAccessor (role : BodyRole) (a : Option Accessor) :
    (ofAccessor role a).map expr = a.toList.flatMap fun a => a.body.toList := by
  cases a with
  | none => rfl
  | some a => simp [ofAccessor]

end Body

/-- The entries for the accessors of a property. -/
def PropertyDecl.accessorRecordings (named : String → List Nat) (decl : PropertyDecl) :
    List Recording :=
  (decl.getter.toList.flatMap fun a => Expr.optionalRecordings named a.body) ++
    decl.setter.toList.flatMap fun a => Expr.optionalRecordings named a.body

namespace Declaration

variable (named : String → List Nat) (own : List Nat)

/-- What is recorded when a declaration itself is resolved, where names mean some candidates and
the class around has some constructors. Imports are left out, for they take effect earlier. -/
def recordings : Declaration → List Recording
  | classDecl head _ =>
    head.delegationSpecifiers.flatMap (DelegationSpecifier.classRecordings named)
  | functionDecl decl => Expr.optionalRecordings named decl.body
  | propertyDecl decl =>
    Expr.optionalRecordings named decl.initializer ++ decl.accessorRecordings named
  | constructorDecl decl =>
    decl.initializers.flatMap (DelegationSpecifier.constructorRecordings named own) ++
      Expr.optionalRecordings named decl.body
  | namespaceDecl .. | classObject .. | typedefDecl .. | extensionDecl .. => []

/-- The entries of the delegation list of a class or constructor. -/
def specifiers : Declaration → List DelegationSpecifier
  | classDecl head _ => head.delegationSpecifiers
  | constructorDecl decl => decl.initializers
  | _ => []

/-- The expressions of a declaration itself, without those of its imports. -/
def bodyExpressions : Declaration → List Expr
  | namespaceDecl .. => []
  | d => d.ownExpressions

/-- The calls in a declaration itself, without those in its imports. -/
def calls (d : Declaration) : List CallSite :=
  d.specifiers.filterMap DelegationSpecifier.callSite? ++
    (d.bodyExpressions.flatMap Expr.subexpressions).filterMap Expr.callSite?

/-- About each node something is recorded in one place at most. -/
theorem count_recordings_le (slot : Slot) (d : Declaration) :
    ((d.recordings named own).map Recording.slot).count slot ≤ d.ownNodes.count slot.node := by
  cases d with
  | classDecl head _ =>
      have hlist := count_map_flatMap_le slot head.delegationSpecifiers
        (DelegationSpecifier.count_classRecordings_le named slot)
      simp only [recordings, ownNodes, ClassHead.nodes, List.count_append, List.count_cons]
      omega
  | functionDecl decl =>
      have hbody := Expr.count_optionalRecordings_le named slot decl.body
      simp only [recordings, ownNodes, FunctionDecl.nodes, List.count_append, List.count_cons]
      omega
  | constructorDecl decl =>
      have hlist := count_map_flatMap_le slot decl.initializers
        (DelegationSpecifier.count_constructorRecordings_le named own slot)
      have hbody := Expr.count_optionalRecordings_le named slot decl.body
      simp only [recordings, ownNodes, ConstructorDecl.nodes, List.map_append, List.count_append,
        List.count_cons]
      omega
  | propertyDecl decl =>
      have hinitializer := Expr.count_optionalRecordings_le named slot decl.initializer
      have haccessor : ∀ a : Accessor,
          ((Expr.optionalRecordings named a.body).map Recording.slot).count slot ≤
            a.nodes.count slot.node := by
        intro a
        have hbody := Expr.count_optionalRecordings_le named slot a.body
        simp only [Accessor.nodes, List.count_append, List.count_cons]
        omega
      have hgetter := count_map_flatMap_le slot decl.getter.toList haccessor
      have hsetter := count_map_flatMap_le slot decl.setter.toList haccessor
      simp only [recordings, PropertyDecl.accessorRecordings, ownNodes, PropertyDecl.nodes,
        List.map_append, List.count_append, List.count_cons]
      omega
  | _ => exact Nat.zero_le _

theorem bodyExpressions_functionDecl (decl : FunctionDecl) :
    (functionDecl decl).bodyExpressions = decl.body.toList := by
  simp [bodyExpressions, ownExpressions, ownBodies]

theorem bodyExpressions_constructorDecl (decl : ConstructorDecl) :
    (constructorDecl decl).bodyExpressions =
      decl.initializers.flatMap DelegationSpecifier.expressions ++ decl.body.toList := by
  simp [bodyExpressions, ownExpressions, ownBodies]

theorem bodyExpressions_propertyDecl (decl : PropertyDecl) :
    (propertyDecl decl).bodyExpressions =
      decl.initializer.toList ++ ((decl.getter.toList.flatMap fun a => a.body.toList) ++
        decl.setter.toList.flatMap fun a => a.body.toList) := by
  simp [bodyExpressions, ownExpressions, ownBodies, PropertyDecl.bodies]

theorem bodyExpressions_classDecl (head : ClassHead) (members : List Declaration) :
    (classDecl head members).bodyExpressions =
      head.delegationSpecifiers.flatMap DelegationSpecifier.expressions := by
  simp [bodyExpressions, ownExpressions, ownBodies]

/-- Each entry belongs to a call in a delegation list or to an expression. -/
theorem mem_recordings
    {d : Declaration} {x : Recording} (hx : x ∈ d.recordings named own) :
    (∃ specifier ∈ d.specifiers, ∃ site, specifier.callSite? = some site ∧
        x = .call (site.call named own)) ∨
      ∃ e ∈ d.bodyExpressions, x ∈ e.recordings named := by
  have hlist : ∀ specifier ∈ d.specifiers, specifier.Accounts named own x →
      (∀ e ∈ specifier.expressions, e ∈ d.bodyExpressions) →
        (∃ specifier ∈ d.specifiers, ∃ site, specifier.callSite? = some site ∧
          x = .call (site.call named own)) ∨ ∃ e ∈ d.bodyExpressions, x ∈ e.recordings named := by
    rintro specifier hspecifier (⟨site, hsite, hx⟩ | ⟨e, he, hx⟩) hexpressions
    · exact .inl ⟨specifier, hspecifier, site, hsite, hx⟩
    · exact .inr ⟨e, hexpressions e he, hx⟩
  have hoptional : ∀ {body : Option Expr}, x ∈ Expr.optionalRecordings named body →
      body.toList ⊆ d.bodyExpressions → ∃ e ∈ d.bodyExpressions, x ∈ e.recordings named := by
    intro body hx hsub
    obtain ⟨e, he, hx⟩ := Expr.exists_of_mem_optionalRecordings named hx
    exact ⟨e, hsub he, hx⟩
  cases d with
  | classDecl head members =>
      obtain ⟨specifier, hspecifier, hx⟩ := List.mem_flatMap.mp hx
      refine hlist specifier hspecifier
        (DelegationSpecifier.accounts_of_mem_classRecordings named own hx) fun e he => ?_
      rw [bodyExpressions_classDecl]
      exact List.mem_flatMap.mpr ⟨specifier, hspecifier, he⟩
  | functionDecl decl =>
      refine .inr (hoptional hx ?_)
      rw [bodyExpressions_functionDecl]
      exact List.Subset.refl _
  | constructorDecl decl =>
      rw [bodyExpressions_constructorDecl] at hlist hoptional ⊢
      rcases List.mem_append.mp hx with hx | hx
      · obtain ⟨specifier, hspecifier, hx⟩ := List.mem_flatMap.mp hx
        refine hlist specifier hspecifier
          (DelegationSpecifier.accounts_of_mem_constructorRecordings named own hx) fun e he => ?_
        exact List.mem_append_left _ (List.mem_flatMap.mpr ⟨specifier, hspecifier, he⟩)
      · exact .inr (hoptional hx (List.subset_append_right ..))
  | propertyDecl decl =>
      rw [bodyExpressions_propertyDecl] at hoptional ⊢
      refine .inr ?_
      simp only [recordings, PropertyDecl.accessorRecordings, List.mem_append,
        List.mem_flatMap] at hx
      rcases hx with hx | ⟨a, ha, hx⟩ | ⟨a, ha, hx⟩
      · exact hoptional hx (List.subset_append_left ..)
      · refine hoptional hx fun e he => List.mem_append_right _ (List.mem_append_left _ ?_)
        exact List.mem_flatMap.mpr ⟨a, ha, he⟩
      · refine hoptional hx fun e he => List.mem_append_right _ (List.mem_append_right _ ?_)
        exact List.mem_flatMap.mpr ⟨a, ha, he⟩
  | _ => cases hx

/-- The nodes of the entries of a delegation list and those of the expressions. -/
def callNodes (d : Declaration) : List Nat :=
  d.specifiers.map DelegationSpecifier.id ++ d.bodyExpressions.flatMap Expr.nodes

theorem count_callNodes_le (node : Nat) (d : Declaration) :
    d.callNodes.count node ≤ d.ownNodes.count node := by
  have hoptional : ∀ body : Option Expr, (body.toList.flatMap Expr.nodes).count node =
      (Expr.optionalNodes body).count node := by
    intro body
    cases body with
    | none => rfl
    | some e => rw [Option.toList_some, List.flatMap_singleton, Expr.optionalNodes]
  unfold callNodes
  cases d with
  | classDecl head members =>
      have hlist := DelegationSpecifier.count_flatMap_parts_le node head.delegationSpecifiers
      rw [bodyExpressions_classDecl]
      simp only [specifiers, ownNodes, ClassHead.nodes, List.count_append, List.count_cons]
      omega
  | functionDecl decl =>
      have hbody := hoptional decl.body
      rw [bodyExpressions_functionDecl]
      simp only [specifiers, ownNodes, FunctionDecl.nodes, List.map_nil, List.nil_append,
        List.count_append, List.count_cons]
      omega
  | constructorDecl decl =>
      have hlist := DelegationSpecifier.count_flatMap_parts_le node decl.initializers
      have hbody := hoptional decl.body
      rw [bodyExpressions_constructorDecl]
      simp only [specifiers, ownNodes, ConstructorDecl.nodes, List.flatMap_append,
        List.count_append, List.count_cons]
      omega
  | propertyDecl decl =>
      have hinitializer := hoptional decl.initializer
      have haccessor : ∀ accessor : Option Accessor,
          ((accessor.toList.flatMap fun a => a.body.toList).flatMap Expr.nodes).count node ≤
            (accessor.toList.flatMap Accessor.nodes).count node := by
        intro accessor
        cases accessor with
        | none => exact Nat.le_refl _
        | some a =>
            have hbody := hoptional a.body
            simp only [Option.toList_some, List.flatMap_singleton, Accessor.nodes,
              List.count_append, List.count_cons]
            omega
      have hgetter := haccessor decl.getter
      have hsetter := haccessor decl.setter
      rw [bodyExpressions_propertyDecl]
      simp only [specifiers, ownNodes, PropertyDecl.nodes, List.map_nil, List.nil_append,
        List.flatMap_append, List.count_append, List.count_cons]
      omega
  | _ => simp [specifiers, bodyExpressions, ownExpressions, ownBodies]

/-- What is recorded at a call, other than its type, is what the call refers to. -/
theorem eq_call_of_mem_recordings
    {d : Declaration} (hd : d.ownNodes.Nodup) {site : CallSite} (hsite : site ∈ d.calls)
    {x : Recording} (hx : x ∈ d.recordings named own) (hslot : x.slot = .reference site.node) :
    x = .call (site.call named own) := by
  have hdistinct : d.callNodes.Nodup := by
    refine List.nodup_iff_count_le_one.mpr fun node => ?_
    exact Nat.le_trans (d.count_callNodes_le node) (List.nodup_iff_count_le_one.mp hd node)
  obtain ⟨hspecifiers, hexpressions, hapart⟩ := List.nodup_append.mp hdistinct
  have hnode : ∀ e ∈ d.bodyExpressions, ∀ sub ∈ e.subexpressions,
      sub.id ∈ d.bodyExpressions.flatMap Expr.nodes := fun e he sub hsub =>
    List.mem_flatMap.mpr ⟨e, he, Expr.nodes_subset_of_mem_subexpressions hsub sub.id_mem_nodes⟩
  -- An entry of a delegation list and an expression have different nodes.
  have hother : ∀ specifier ∈ d.specifiers, ∀ e ∈ d.bodyExpressions, ∀ sub ∈ e.subexpressions,
      specifier.id ≠ sub.id := fun specifier hspecifier e he sub hsub =>
    hapart _ (List.mem_map_of_mem hspecifier) _ (hnode e he sub hsub)
  rcases List.mem_append.mp hsite with hsite | hsite
  · obtain ⟨specifier, hspecifier, hcall⟩ := List.mem_filterMap.mp hsite
    have hid := DelegationSpecifier.id_of_callSite? hcall
    rcases mem_recordings named own hx with ⟨specifier', hspecifier', site', hcall', rfl⟩ |
      ⟨e, he, hx⟩
    · have hnode' : site'.node = site.node := congrArg Slot.node hslot
      have hid' := DelegationSpecifier.id_of_callSite? hcall'
      obtain rfl := List.inj_on_of_nodup_map hspecifiers hspecifier hspecifier'
        (hid.trans (hnode'.symm.trans hid'.symm))
      obtain rfl := Option.some.inj (hcall.symm.trans hcall')
      rfl
    · obtain ⟨sub, hsub, hx⟩ := Expr.exists_ownRecordings named hx
      have hsubid := (Expr.node_of_mem_ownRecordings named hx).symm.trans (congrArg Slot.node hslot)
      exact absurd (hid.trans hsubid.symm) (hother specifier hspecifier e he sub hsub)
  · obtain ⟨sub, hsub, hcall⟩ := List.mem_filterMap.mp hsite
    obtain ⟨e, he, hsub⟩ := List.mem_flatMap.mp hsub
    have hid := Expr.id_of_callSite? hcall
    rcases mem_recordings named own hx with ⟨specifier', hspecifier', site', hcall', rfl⟩ |
      ⟨e', he', hx⟩
    · have hnode' : site'.node = site.node := congrArg Slot.node hslot
      have hid' := DelegationSpecifier.id_of_callSite? hcall'
      exact absurd (hid'.trans (hnode'.trans hid.symm)) (hother specifier' hspecifier' e he sub hsub)
    · obtain ⟨sub', hsub', hx⟩ := Expr.exists_ownRecordings named hx
      have hsubid := (Expr.node_of_mem_ownRecordings named hx).symm.trans (congrArg Slot.node hslot)
      have heq : sub'.id = sub.id := hsubid.trans hid.symm
      have hmem := Expr.nodes_subset_of_mem_subexpressions hsub sub.id_mem_nodes
      have hmem' := Expr.nodes_subset_of_mem_subexpressions hsub' sub'.id_mem_nodes
      obtain rfl := eq_of_nodup_flatMap hexpressions he' he hmem' (heq ▸ hmem)
      have hnodes : e'.nodes.Nodup := (List.nodup_flatMap.mp hexpressions).1 e' he
      obtain rfl := Expr.eq_of_id_eq hnodes hsub' hsub heq
      exact Expr.eq_call_of_mem_ownRecordings named hcall hx hslot own

end Declaration

end DeclAnalysis
