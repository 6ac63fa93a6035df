import DeclAnalysis.Proofs.Session.Places
import DeclAnalysis.Proofs.Typing.Follows

/-!
# Where typing reports

To every expression belong the places at which its typing may report something. Typing takes
notice of every expression at most once, and so it reports at every place at most once.
-/

namespace DeclAnalysis

namespace Expr

open Place in
mutual

/-- The places at which the typing of an expression may report something, missing types left
aside. -/
def places : Expr → List Place
  | constant .. | breakLoop _ | continueLoop _ | ret _ none | lambda .. => []
  | name node _ => [.misuse node, .unresolved node]
  | dot node receiver _ => receiver.places ++ [semantic node 'T', .unresolved node]
  | block _ statements => placesOf statements
  | cond _ condition thenBranch none =>
    condition.places ++ (condition.demand.map mismatch ++ thenBranch.places)
  | cond _ condition thenBranch (some elseBranch) =>
    condition.places ++ (condition.demand.map mismatch ++
      (thenBranch.places ++ elseBranch.places))
  | whileLoop _ condition body =>
    condition.places ++ (condition.demand.map mismatch ++ body.places)
  | doWhileLoop _ body condition =>
    body.places ++ (condition.places ++ condition.demand.map mismatch)
  | ret _ (some value) => value.places
  | binary node _ left right => left.places ++ (right.places ++ [semantic node 'O'])
  | assign _ target value =>
    (if Analysis.isAssignable target then target.places else [semantic target.id 'I']) ++
      (semantic target.id 'V' :: (value.places ++ value.demand.map mismatch))
  | call node _ arguments => placesOf arguments ++ [semantic node 'N', .unresolved node]
  | localVariable node _ _ _ none => [semantic node 'T']
  | localVariable node _ _ _ (some initializer) =>
    initializer.places ++ (initializer.demand.map mismatch ++ [semantic node 'T'])

/-- The places at which the typing of several expressions may report something. -/
def placesOf : List Expr → List Place
  | [] => []
  | e :: rest => e.places ++ placesOf rest

end

/-- A place at which a wrong type is reported demands a type, and at the others something is
reported about names or something else that typing finds out. An import is reported about in
another way than its target. -/
def OfTyping (demanded : List Nat) (p : Place) : Prop :=
  p.code = .typeMismatch ∧ p.node ∈ demanded ∨ p.code = .backingFieldMisuse ∨
    p.code = .unresolvedReference ∨ p.code = .semanticError ∧ p.letter ≠ some 'C'

theorem OfTyping.mono
    {demanded demanded' : List Nat} {p : Place} (h : OfTyping demanded p)
    (hsub : demanded ⊆ demanded') : OfTyping demanded' p :=
  h.imp_left fun h => ⟨h.1, hsub h.2⟩

theorem ofTyping_demand {e : Expr} {p : Place} (hp : p ∈ e.demand.map Place.mismatch) :
    OfTyping e.demand p := by
  obtain ⟨node, hnode, rfl⟩ := List.mem_map.mp hp
  exact .inl ⟨rfl, hnode⟩

mutual

/-- A wrong type is reported only where a place demands a type. -/
theorem ofTyping_of_mem (e : Expr) (p : Place) (h : p ∈ e.places) : OfTyping e.demands p := by
  match e with
  | constant .. | breakLoop _ | continueLoop _ | ret _ none | lambda .. => cases h
  | name .. | localVariable _ _ _ _ none =>
      grind [places, OfTyping, Place.misuse, Place.unresolved, Place.semantic]
  | dot _ receiver _ =>
      have hreceiver := receiver.ofTyping_of_mem p
      grind [places, demands, OfTyping, Place.semantic, Place.unresolved]
  | block _ statements => exact ofTyping_of_mem_placesOf statements p h
  | cond _ condition thenBranch none | whileLoop _ condition thenBranch
  | doWhileLoop _ thenBranch condition =>
      have hcondition := condition.ofTyping_of_mem p
      have hdemand : p ∈ condition.demand.map Place.mismatch → _ := ofTyping_demand
      have hthen := thenBranch.ofTyping_of_mem p
      grind [places, demands, OfTyping]
  | cond _ condition thenBranch (some elseBranch) =>
      have hcondition := condition.ofTyping_of_mem p
      have hdemand : p ∈ condition.demand.map Place.mismatch → _ := ofTyping_demand
      have hthen := thenBranch.ofTyping_of_mem p
      have helse := elseBranch.ofTyping_of_mem p
      grind [places, demands, OfTyping]
  | ret _ (some value) => exact value.ofTyping_of_mem p h
  | binary _ _ left right =>
      have hleft := left.ofTyping_of_mem p
      have hright := right.ofTyping_of_mem p
      grind [places, demands, OfTyping, Place.semantic]
  | assign _ target value =>
      have htarget := target.ofTyping_of_mem p
      have hvalue := value.ofTyping_of_mem p
      have hdemand : p ∈ value.demand.map Place.mismatch → _ := ofTyping_demand
      grind [places, demands, OfTyping, Place.semantic]
  | call _ _ arguments =>
      have harguments := ofTyping_of_mem_placesOf arguments p
      grind [places, demands, OfTyping, Place.semantic, Place.unresolved]
  | localVariable _ _ _ _ (some initializer) =>
      have hinitializer := initializer.ofTyping_of_mem p
      have hdemand : p ∈ initializer.demand.map Place.mismatch → _ := ofTyping_demand
      grind [places, demands, OfTyping, Place.semantic]

theorem ofTyping_of_mem_placesOf (es : List Expr) (p : Place) (h : p ∈ placesOf es) :
    OfTyping (demandsOf es) p := by
  match es with
  | [] => cases h
  | e :: rest =>
      rcases List.mem_append.mp h with h | h
      · exact (e.ofTyping_of_mem p h).mono (List.subset_append_left ..)
      · exact (ofTyping_of_mem_placesOf rest p h).mono (List.subset_append_right ..)

end

/-- Nothing is demanded of an expression by itself. -/
theorem mismatch_id_not_mem_places {e : Expr} (hnodup : e.nodes.Nodup) :
    Place.mismatch e.id ∉ e.places := by
  intro h
  rw [nodes_eq_cons] at hnodup
  rcases e.ofTyping_of_mem _ h with h | h | h | ⟨h, -⟩
  · exact (List.nodup_cons.mp hnodup).1 (e.demands_subset_tail h.2)
  · cases h
  · cases h
  · cases h

mutual

/-- The places of an expression are at nodes of it. -/
theorem node_mem_nodes (e : Expr) (p : Place) (h : p ∈ e.places) : p.node ∈ e.nodes := by
  have hdemand : ∀ e : Expr, p ∈ e.demand.map Place.mismatch → p.node ∈ e.nodes := by
    rintro e he
    obtain ⟨node, hnode, rfl⟩ := List.mem_map.mp he
    exact e.demand_subset_nodes hnode
  match e with
  | constant .. | breakLoop _ | continueLoop _ | ret _ none | lambda .. => cases h
  | name node _ => grind [places, nodes, Place.misuse, Place.unresolved]
  | dot _ receiver _ =>
      have hreceiver := receiver.node_mem_nodes p
      grind [places, nodes, Place.semantic, Place.unresolved]
  | block _ statements =>
      exact List.mem_cons_of_mem _ (node_mem_nodesOf statements p h)
  | cond _ condition thenBranch none | whileLoop _ condition thenBranch
  | doWhileLoop _ thenBranch condition =>
      have hcondition := condition.node_mem_nodes p
      have hthen := thenBranch.node_mem_nodes p
      grind [places, nodes]
  | cond _ condition thenBranch (some elseBranch) =>
      have hcondition := condition.node_mem_nodes p
      have hthen := thenBranch.node_mem_nodes p
      have helse := elseBranch.node_mem_nodes p
      grind [places, nodes]
  | ret _ (some value) => exact List.mem_cons_of_mem _ (value.node_mem_nodes p h)
  | binary _ _ left right =>
      have hleft := left.node_mem_nodes p
      have hright := right.node_mem_nodes p
      grind [places, nodes, Place.semantic]
  | assign _ target value =>
      have htarget := target.node_mem_nodes p
      have hid := target.id_mem_nodes
      have hvalue := value.node_mem_nodes p
      grind [places, nodes, Place.semantic]
  | call _ _ arguments =>
      have harguments := node_mem_nodesOf arguments p
      grind [places, nodes, Place.semantic, Place.unresolved]
  | localVariable _ _ _ _ none => grind [places, nodes, Place.semantic]
  | localVariable _ _ _ _ (some initializer) =>
      have hinitializer := initializer.node_mem_nodes p
      grind [places, nodes, Place.semantic]

theorem node_mem_nodesOf (es : List Expr) (p : Place) (h : p ∈ placesOf es) :
    p.node ∈ nodesOf es := by
  match es with
  | [] => cases h
  | e :: rest =>
      exact List.mem_append.mpr ((List.mem_append.mp h).imp (e.node_mem_nodes p)
        (node_mem_nodesOf rest p))

end

/-- What is reported about an expression as a whole is reported beside what its typing reports. -/
theorem spread_concluded
    {e : Expr} (hspread : Place.Spread e.nodes e.places) {p : Place} (hnode : p.node = e.id)
    (hp : p ∉ e.places) : Place.Spread e.nodes (e.places ++ [p]) := by
  refine ⟨hspread.nodup.append (List.nodup_singleton _) (List.disjoint_singleton.mpr hp), ?_⟩
  intro q hq
  refine (List.mem_append.mp hq).elim (hspread.node_mem q) fun hq => ?_
  rw [List.mem_singleton.mp hq, hnode]
  exact e.id_mem_nodes

/-- So is what its place demands. -/
theorem spread_demanded
    {e : Expr} (hnodup : e.nodes.Nodup) (hspread : Place.Spread e.nodes e.places) :
    Place.Spread e.nodes (e.places ++ e.demand.map .mismatch) := by
  cases e with
  | ret =>
      rw [demand, List.map_nil, List.append_nil]
      exact hspread
  | _ => exact spread_concluded hspread rfl (mismatch_id_not_mem_places hnodup)

/-- What is reported about an assignment target is reported beside what its typing reports. -/
theorem spread_target
    {target : Expr} (hnodup : target.nodes.Nodup)
    (hspread : Place.Spread target.nodes target.places) :
    Place.Spread target.nodes
      ((if Analysis.isAssignable target then target.places else [.semantic target.id 'I']) ++
        [.semantic target.id 'V']) := by
  have hother (p : Place) (hnode : p.node = target.id) (hp : p ≠ .semantic target.id 'V') :
      Place.Spread target.nodes [p, .semantic target.id 'V'] :=
    (Place.Spread.two hp hnode rfl).mono fun n hn => by
      rw [List.mem_singleton.mp hn]
      exact target.id_mem_nodes
  have hassignable (hV : Place.semantic target.id 'V' ∉ target.places) :
      Place.Spread target.nodes (target.places ++ [.semantic target.id 'V']) :=
    spread_concluded hspread rfl hV
  cases target with
  | name node _ =>
      exact hassignable (by simp [places, Place.misuse, Place.unresolved, Place.semantic])
  | dot node receiver _ =>
      refine hassignable fun h => ?_
      rcases List.mem_append.mp h with h | h
      · exact (List.nodup_cons.mp hnodup).1 (receiver.node_mem_nodes _ h)
      · simp [Place.unresolved, Place.semantic] at h
  | _ => exact hother _ rfl (by simp [Place.semantic])

mutual

/-- No place belongs to an expression twice, if no node is in it twice. -/
theorem spread_places (e : Expr) (hnodup : e.nodes.Nodup) : Place.Spread e.nodes e.places := by
  match e with
  | constant .. | breakLoop _ | continueLoop _ | ret _ none | lambda .. => exact .nil _
  | name node _ => exact .two nofun rfl rfl
  | dot node receiver _ =>
      obtain ⟨hnode, hnodup⟩ := List.nodup_cons.mp hnodup
      have hown : Place.Spread [node] [.semantic node 'T', .unresolved node] :=
        .two nofun rfl rfl
      exact ((spread_places receiver hnodup).append hown (by simpa using hnode)).mono
        (by simp [nodes])
  | block _ statements =>
      exact (spread_placesOf statements (List.nodup_cons.mp hnodup).2).mono
        (List.subset_cons_self ..)
  | cond _ condition thenBranch none | whileLoop _ condition thenBranch =>
      obtain ⟨-, hnodup⟩ := List.nodup_cons.mp hnodup
      obtain ⟨hcondition, hthen, hdisjoint⟩ := List.nodup_append'.mp hnodup
      have hparts := (spread_demanded hcondition (spread_places condition hcondition)).append
        (spread_places thenBranch hthen) hdisjoint
      rw [List.append_assoc] at hparts
      exact hparts.mono (List.subset_cons_self ..)
  | cond _ condition thenBranch (some elseBranch) =>
      obtain ⟨-, hnodup⟩ := List.nodup_cons.mp hnodup
      obtain ⟨hnodup, helse, hdisjoint'⟩ := List.nodup_append'.mp hnodup
      obtain ⟨hcondition, hthen, hdisjoint⟩ := List.nodup_append'.mp hnodup
      have hparts := ((spread_demanded hcondition (spread_places condition hcondition)).append
        (spread_places thenBranch hthen) hdisjoint).append (spread_places elseBranch helse)
          hdisjoint'
      simp only [places, nodes, List.append_assoc] at hparts ⊢
      exact hparts.mono (List.subset_cons_self ..)
  | doWhileLoop _ body condition =>
      obtain ⟨-, hnodup⟩ := List.nodup_cons.mp hnodup
      obtain ⟨hbody, hcondition, hdisjoint⟩ := List.nodup_append'.mp hnodup
      have hparts := (spread_places body hbody).append
        (spread_demanded hcondition (spread_places condition hcondition)) hdisjoint
      exact hparts.mono (List.subset_cons_self ..)
  | ret _ (some value) =>
      exact (spread_places value (List.nodup_cons.mp hnodup).2).mono (List.subset_cons_self ..)
  | binary node _ left right =>
      obtain ⟨hnode, hnodup⟩ := List.nodup_cons.mp hnodup
      obtain ⟨hleft, hright, hdisjoint⟩ := List.nodup_append'.mp hnodup
      have hown : Place.Spread [node] [.semantic node 'O'] := .one rfl
      have hparts := ((spread_places left hleft).append (spread_places right hright)
        hdisjoint).append hown (by simpa using hnode)
      rw [places, ← List.append_assoc]
      refine hparts.mono fun m hm => ?_
      simp only [nodes, List.mem_append, List.mem_cons, List.not_mem_nil] at hm ⊢
      tauto
  | assign _ target value =>
      obtain ⟨-, hnodup⟩ := List.nodup_cons.mp hnodup
      obtain ⟨htarget, hvalue, hdisjoint⟩ := List.nodup_append'.mp hnodup
      have hown : Place.Spread target.nodes
          ((if Analysis.isAssignable target then target.places else [.semantic target.id 'I']) ++
            [.semantic target.id 'V']) :=
        spread_target htarget (spread_places target htarget)
      have hparts := hown.append (spread_demanded hvalue (spread_places value hvalue)) hdisjoint
      rw [List.append_assoc] at hparts
      exact hparts.mono (List.subset_cons_self ..)
  | call node _ arguments =>
      obtain ⟨hnode, hnodup⟩ := List.nodup_cons.mp hnodup
      have hown : Place.Spread [node] [.semantic node 'N', .unresolved node] :=
        .two nofun rfl rfl
      exact ((spread_placesOf arguments hnodup).append hown (by simpa using hnode)).mono
        (by simp [nodes])
  | localVariable node _ _ _ none =>
      have hown : Place.Spread [node] [.semantic node 'T'] := .one rfl
      exact hown.mono (by simp [nodes])
  | localVariable node _ _ _ (some initializer) =>
      obtain ⟨hnode, hnodup⟩ := List.nodup_cons.mp hnodup
      obtain ⟨-, hinitializer, -⟩ := List.nodup_append'.mp hnodup
      have hown : Place.Spread [node] [.semantic node 'T'] := .one rfl
      have hparts := (spread_demanded hinitializer (spread_places initializer hinitializer)).append
        hown (by simpa using fun h => hnode (List.mem_append_right _ h))
      rw [List.append_assoc] at hparts
      refine hparts.mono fun m hm => ?_
      simp only [nodes, List.mem_append, List.mem_cons, List.not_mem_nil] at hm ⊢
      tauto

theorem spread_placesOf (es : List Expr) (hnodup : (nodesOf es).Nodup) :
    Place.Spread (nodesOf es) (placesOf es) := by
  match es with
  | [] => exact .nil _
  | e :: rest =>
      obtain ⟨hfirst, hrest, hdisjoint⟩ := List.nodup_append'.mp hnodup
      exact (spread_places e hfirst).append (spread_placesOf rest hrest) hdisjoint

end

end Expr

namespace Analysis

variable {α : Type} {nodes : List Nat} {places : List Place}

/-! ### Types -/

/-- Only a missing type is reported. -/
theorem posts_resolveTypeRef {ref : TypeRef} (href : ref.id ∈ nodes) (scope : Nat) :
    Posts nodes [] (resolveTypeRef scope ref) := by
  refine ⟨fun s => ?_⟩
  let fr : Session.Frame := ⟨nodes, 0, fun _ _ => True, fun _ _ => True⟩
  have hwithin : After (resolveTypeRef scope ref) s fun _ => fr.Within s :=
    .of_resolveTypeRef fun _ => trivial
  suffices hreported : After (resolveTypeRef scope ref) s fun _ s' =>
      ∃ types, s'.diagnostics.toList = s.diagnostics.toList ++ types ∧
        (∀ d ∈ types, ∃ node ∈ nodes, ∃ name, d = .unresolvedType node name) ∧
          s'.recorder.observers = s.recorder.observers by
    refine (hwithin.and hreported).mono fun _ s' h => ?_
    obtain ⟨h, types, hdiagnostics, htypes, hobservers⟩ := h
    refine ⟨⟨types, [], ?_, htypes, nofun, .refl _, ?_⟩, h.balanced⟩
    · rw [hdiagnostics, List.append_nil]
    · rw [hobservers]
      exact List.forall₂_same.mpr fun o _ => ⟨[], .refl o, .refl _⟩
  have hnone : ∃ types, s.diagnostics.toList = s.diagnostics.toList ++ types ∧
      (∀ d ∈ types, ∃ node ∈ nodes, ∃ name, d = .unresolvedType node name) :=
    ⟨[], (List.append_nil _).symm, nofun⟩
  refine after_bind.mpr (after_get.mpr ?_)
  split
  · obtain ⟨types, h⟩ := hnone
    exact ⟨types, h.1, h.2, rfl⟩
  · split
    · obtain ⟨types, h⟩ := hnone
      exact ⟨types, h.1, h.2, rfl⟩
    · refine ⟨[.unresolvedType ref.id ref.name], Array.toList_push .., fun d hd => ?_, rfl⟩
      exact ⟨ref.id, href, ref.name, List.mem_singleton.mp hd⟩

theorem posts_declaredType
    {typeRef : Option TypeRef} (hnodes : typeRefNodes typeRef ⊆ nodes) (scope : Nat) :
    Posts nodes [] (typeRef.mapM (resolveTypeRef scope)) := by
  cases typeRef with
  | none => exact .pure _
  | some ref => exact (posts_resolveTypeRef (hnodes List.mem_cons_self) scope).map _

/-! ### Demanded types -/

theorem posts_expectType (node : Nat) (expected actual : Ty) :
    Posts nodes [.mismatch node] (expectType node expected actual) := by
  refine .get_bind fun s => ?_
  split
  · exact posts_reportMismatch ..
  · exact (Posts.pure _).mono List.nil_subperm

theorem posts_expectKnownType (node : Nat) (expected actual : Option Ty) :
    Posts nodes [.mismatch node] (expectKnownType node expected actual) := by
  unfold expectKnownType
  split
  · exact posts_expectType ..
  · exact (Posts.pure _).mono List.nil_subperm

theorem posts_expectKnownType_nothing (node : Nat) (expected : Option Ty) :
    Posts nodes [] (expectKnownType node expected (some .nothing)) :=
  keeps_expectKnownType_nothing node expected

/-- An expression is typed and compared with the type that its place demands. -/
theorem Posts.demanded
    {scope : Nat} {e : Expr} (hinfer : Posts nodes e.places (infer scope e))
    (expected : Option Ty) {k : Option Ty → Analysis α}
    (hk : ∀ type, Posts nodes places (k type)) :
    Posts nodes (e.places ++ (e.demand.map .mismatch ++ places)) (do
      let type ← infer scope e
      expectKnownType e.id expected type
      k type) := by
  cases e with
  | ret node value =>
      refine ⟨fun s => After.bind ((hinfer.after s).and (after_infer_ret scope node value s))
        fun type s₁ h₁ => ?_⟩
      obtain ⟨h₁, rfl⟩ := h₁
      have hrest := (posts_expectKnownType_nothing node expected).bind_first
        fun _ => hk (some .nothing)
      exact (hrest.after s₁).mono fun _ _ h => h₁.append h
  | _ => exact hinfer.bind fun type => (posts_expectKnownType ..).bind fun _ => hk type

/-! ### Names -/

theorem posts_unresolved (node : Nat) (name : String) :
    Posts nodes [.unresolved node] (unresolved node name) := by
  refine Posts.bind_last ⟨fun s => ?_⟩ fun _ => .pure _
  have hletter : ("Unresolved reference: " ++ name).toList.head? = some 'U' := by simp
  rw [Place.unresolved, ← hletter]
  exact .of_report (Diagnostic.quiet_unresolvedReference node name).ne_unresolvedType

/-- Only the name of a backing field is noted. -/
theorem posts_referToValue (node : Nat) (kind : ReferenceKind) (name : String) (value : Nat) :
    Posts nodes ((Observer.notable node kind).map .misuse) (referToValue node kind name value) :=
  (posts_recordReference node kind value).bind_last fun _ => .get_bind fun _ => .pure _

theorem posts_referToNamespace (node ns : Nat) : Posts nodes [] (referToNamespace node ns) :=
  (posts_recordReference node .identifier ns).bind_last fun _ => .get_bind fun _ => .pure _

theorem posts_inferName (scope node : Nat) (name : String) :
    Posts nodes [.misuse node, .unresolved node] (inferName scope node name) := by
  have hunresolved : ([.unresolved node] : List Place).Subperm [.misuse node, .unresolved node] :=
    (List.sublist_cons_self ..).subperm
  refine .get_bind fun s => ?_
  dsimp only
  split
  · split
    · exact (posts_referToValue ..).mono (List.sublist_append_left [Place.misuse node] _).subperm
    · exact (posts_unresolved ..).mono hunresolved
  · split
    · exact (posts_referToValue ..).mono List.nil_subperm
    · exact (posts_referToNamespace ..).mono List.nil_subperm
    · exact (posts_unresolved ..).mono hunresolved

theorem posts_reportSemantic
    (node : Nat) {message : String} {letter : Char} (hletter : message.toList.head? = some letter) :
    Posts nodes [.semantic node letter] (reportCode .semanticError node message) := by
  have hcode : DiagnosticCode.semanticError ≠ .unresolvedReference := by decide
  exact posts_reportCode hcode node hletter

theorem posts_inferMember (node : Nat) (receiver : Ty) (name : String) :
    Posts nodes [.semantic node 'T', .unresolved node] (inferMember node receiver name) := by
  unfold inferMember
  split
  · exact (Posts.pure _).mono List.nil_subperm
  · refine .get_bind fun s => ?_
    split
    · have hreport : Posts nodes [.semantic node 'T'] (reportCode .semanticError node
          ("Type " ++ receiver.text ++ " has no members")) :=
        posts_reportSemantic node (by simp)
      exact (hreport.bind_last fun _ => .pure _).mono (List.sublist_append_left [_] _).subperm
    · split
      · exact (posts_referToValue ..).mono List.nil_subperm
      · exact (posts_referToNamespace ..).mono List.nil_subperm
      · exact (posts_unresolved ..).mono (List.sublist_cons_self ..).subperm

/-! ### Operators, assignments and calls -/

theorem posts_inferOperator (node : Nat) (operator : BinaryOperator) (left right : Ty) :
    Posts nodes [.semantic node 'O'] (inferOperator node operator left right) := by
  unfold inferOperator
  split
  · exact (Posts.pure _).mono List.nil_subperm
  · split
    · exact (Posts.pure _).mono List.nil_subperm
    · split
      · exact (Posts.pure _).mono List.nil_subperm
      · exact (posts_reportSemantic node (by simp)).bind_last fun _ => .pure _

theorem posts_checkReassignment (target : Expr) :
    Posts nodes [.semantic target.id 'V'] (checkReassignment target) := by
  refine .get_bind fun s => ?_
  split
  · exact (Posts.pure _).mono List.nil_subperm
  · split
    · exact posts_reportSemantic _ (by simp)
    · exact (Posts.pure _).mono List.nil_subperm

theorem posts_selectCandidate? (candidates : List Nat) (arguments : List (Option Ty)) :
    Posts nodes [] (selectCandidate? candidates arguments) :=
  .get_bind fun _ => .pure _

theorem posts_recordIdentifier (node descriptor : Nat) :
    Posts nodes [] (recordReference node .identifier descriptor) :=
  posts_recordReference node .identifier descriptor

theorem posts_callFunction
    (node : Nat) (name : String) (functions : List Nat) (arguments : List (Option Ty)) :
    Posts nodes [.semantic node 'N'] (callFunction node name functions arguments) := by
  refine (posts_selectCandidate? ..).bind_first fun selected => ?_
  cases selected with
  | some function =>
      refine Posts.mono ((posts_recordIdentifier node function).bind_last fun _ => ?_)
        List.nil_subperm
      exact .get_bind fun _ => .pure _
  | none => exact (posts_reportSemantic node (by simp)).bind_last fun _ => .pure _

theorem posts_matchConstructor
    (node classId : Nat) (classType : Ty) (arguments : List (Option Ty)) :
    Posts nodes [.semantic node 'N'] (matchConstructor node classId classType arguments) := by
  rw [matchConstructor_eq]
  refine .get_bind fun s => ?_
  dsimp only
  split
  · exact (Posts.pure _).mono List.nil_subperm
  · refine (posts_selectCandidate? ..).bind_first fun selected => ?_
    cases selected with
    | some constructor => exact (posts_recordIdentifier ..).mono List.nil_subperm
    | none => exact posts_reportSemantic node (by simp)

theorem posts_inferCall
    (scope node : Nat) (callee : String) (arguments : List (Option Ty)) :
    Posts nodes [.semantic node 'N', .unresolved node] (inferCall scope node callee arguments) := by
  have hleft := List.sublist_append_left [Place.semantic node 'N'] [.unresolved node]
  refine .get_bind fun s => ?_
  split
  · split
    · exact Posts.mono ((posts_matchConstructor ..).bind_last fun _ => .pure _) hleft.subperm
    · exact (posts_unresolved ..).mono (List.sublist_cons_self ..).subperm
  · exact (posts_callFunction ..).mono hleft.subperm

theorem posts_localType (node : Nat) (declared initialized : Option Ty) :
    Posts nodes [.semantic node 'T'] (localType node declared initialized) := by
  unfold localType
  split
  · exact (Posts.pure _).mono List.nil_subperm
  · exact (posts_reportSemantic node (by rfl)).bind_last fun _ => .pure _

theorem posts_declareLocal
    (scope node : Nat) (name : String) (mutable : Bool) (declared initialized : Option Ty) :
    Posts nodes [.semantic node 'T']
      (declareLocal scope node name mutable declared initialized) := by
  rw [declareLocal_eq]
  refine (posts_localType ..).bind_last fun type => .get_bind fun s => ?_
  refine (posts_createDescriptor ..).bind_first fun v => ?_
  exact (posts_onScopes _).bind_first fun _ => posts_recordDeclaration ..

theorem posts_recordKnownType (node : Nat) (type : Option Ty) :
    Posts nodes [] (recordKnownType node type) := by
  cases type with
  | none => exact .pure _
  | some type => exact posts_recordExpressionType ..

/-! ### Expressions -/

mutual

/-- The typing of an expression reports at no other places than those of the expression. -/
theorem posts_infer (scope : Nat) (e : Expr) (hnodes : e.nodes ⊆ nodes) :
    Posts nodes e.places (infer scope e) := by
  rw [infer_eq]
  refine Posts.bind_last ?_ fun type => (posts_recordKnownType ..).bind_last fun _ => .pure _
  match e with
  | .constant _ (.int _) | .constant _ (.double _) | .constant _ (.string _)
  | .constant _ (.bool _) | .breakLoop _ | .continueLoop _ | .ret _ none | .lambda .. =>
      exact .pure _
  | .name node name => exact (posts_inferName ..).map some
  | .dot node receiver name =>
      obtain ⟨-, hnodes⟩ := List.cons_subset.mp hnodes
      refine (posts_infer scope receiver hnodes).bind fun type => ?_
      cases type with
      | none => exact (Posts.pure _).mono List.nil_subperm
      | some type => exact (posts_inferMember node type name).map some
  | .block _ statements =>
      obtain ⟨-, hnodes⟩ := List.cons_subset.mp hnodes
      exact (posts_createScope ..).bind_first fun block =>
        posts_inferStatements block _ statements hnodes
  | .cond _ condition thenBranch none =>
      simp only [Expr.nodes, List.cons_subset, List.append_subset] at hnodes
      refine (posts_infer scope condition hnodes.2.1).demanded _ fun _ => ?_
      exact (posts_infer scope thenBranch hnodes.2.2).bind_last fun _ => .pure _
  | .cond _ condition thenBranch (some elseBranch) =>
      simp only [Expr.nodes, List.cons_subset, List.append_subset] at hnodes
      refine (posts_infer scope condition hnodes.2.1.1).demanded _ fun _ => ?_
      refine (posts_infer scope thenBranch hnodes.2.1.2).bind fun thenType => ?_
      refine (posts_infer scope elseBranch hnodes.2.2).bind_last fun elseType => ?_
      split
      · exact .get_bind fun _ => .pure _
      · exact .pure _
  | .whileLoop _ condition body =>
      simp only [Expr.nodes, List.cons_subset, List.append_subset] at hnodes
      refine (posts_infer scope condition hnodes.2.1).demanded _ fun _ => ?_
      exact (posts_infer scope body hnodes.2.2).bind_last fun _ => .pure _
  | .doWhileLoop _ body condition =>
      simp only [Expr.nodes, List.cons_subset, List.append_subset] at hnodes
      refine (posts_infer scope body hnodes.2.1).bind fun _ => ?_
      have hcondition := (posts_infer scope condition hnodes.2.2).demanded (some .boolean)
        fun _ => .pure (some Ty.unit)
      rw [List.append_nil] at hcondition
      exact hcondition
  | .ret _ (some value) =>
      obtain ⟨-, hnodes⟩ := List.cons_subset.mp hnodes
      exact (posts_infer scope value hnodes).bind_last fun _ => .pure _
  | .binary node operator left right =>
      simp only [Expr.nodes, List.cons_subset, List.append_subset] at hnodes
      refine (posts_infer scope left hnodes.2.1).bind fun leftType => ?_
      refine (posts_infer scope right hnodes.2.2).bind fun rightType => ?_
      split
      · exact (posts_inferOperator ..).map some
      · exact (Posts.pure _).mono List.nil_subperm
  | .assign _ target value =>
      simp only [Expr.nodes, List.cons_subset, List.append_subset] at hnodes
      have htarget : Posts nodes
          (if isAssignable target then target.places else [.semantic target.id 'I'])
          (inferTarget scope target) := by
        unfold inferTarget
        split
        · exact posts_infer scope target hnodes.2.1
        · exact (posts_reportSemantic _ (by rfl)).bind_last fun _ => .pure _
      refine htarget.bind fun targetType => (posts_checkReassignment target).bind fun _ => ?_
      have hvalue := (posts_infer scope value hnodes.2.2).demanded targetType
        fun _ => .pure (some Ty.unit)
      rw [List.append_nil] at hvalue
      exact hvalue
  | .call node callee arguments =>
      obtain ⟨-, hnodes⟩ := List.cons_subset.mp hnodes
      refine (posts_inferArguments scope arguments hnodes).bind fun types => ?_
      exact (posts_inferCall scope node callee types).map some
  | .localVariable node name mutable typeRef none =>
      obtain ⟨-, hnodes⟩ := List.cons_subset.mp hnodes
      refine (posts_declaredType hnodes scope).bind_first fun declared => ?_
      exact (posts_declareLocal ..).bind_last fun _ => .pure _
  | .localVariable node name mutable typeRef (some initializer) =>
      simp only [Expr.nodes, List.cons_subset, List.append_subset] at hnodes
      refine (posts_declaredType hnodes.2.1 scope).bind_first fun declared => ?_
      refine (posts_infer scope initializer hnodes.2.2).demanded declared fun initialized => ?_
      exact (posts_declareLocal ..).bind_last fun _ => .pure _

theorem posts_inferStatements
    (scope : Nat) (last : Option Ty) (es : List Expr) (hnodes : Expr.nodesOf es ⊆ nodes) :
    Posts nodes (Expr.placesOf es) (inferStatements scope last es) := by
  match es with
  | [] => exact .pure _
  | e :: rest =>
      obtain ⟨hnode, hnodes⟩ := List.append_subset.mp hnodes
      exact (posts_infer scope e hnode).bind fun type =>
        posts_inferStatements scope type rest hnodes

theorem posts_inferArguments
    (scope : Nat) (es : List Expr) (hnodes : Expr.nodesOf es ⊆ nodes) :
    Posts nodes (Expr.placesOf es) (inferArguments scope es) := by
  match es with
  | [] => exact .pure _
  | e :: rest =>
      obtain ⟨hnode, hnodes⟩ := List.append_subset.mp hnodes
      refine (posts_infer scope e hnode).bind fun type => ?_
      exact (posts_inferArguments scope rest hnodes).bind_last fun types => .pure _

end

end Analysis

end DeclAnalysis
