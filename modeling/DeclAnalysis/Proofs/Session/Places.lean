import Mathlib.Data.List.Perm.Subperm
import DeclAnalysis.Proofs.Session.Frame

/-!
# Where reports stand

A report stands at a place: it has a code, a node and a message, of which the first letter tells
apart what is said under one code about one node. What a computation may report is given by the
list of places at which it does so at most once. References to missing types are left out, for of
these the trace takes care; references to missing backing fields, which are reported at the end of
a constructor only, are counted when they are noted.
-/

namespace DeclAnalysis

/-- Where a report stands: its code, its node and the first letter of its message. -/
structure Place where
  code : DiagnosticCode
  node : Nat
  letter : Option Char
deriving DecidableEq, Repr

namespace Place

/-- An expression that has the wrong type. -/
def mismatch (node : Nat) : Place := ⟨.typeMismatch, node, 'T'⟩

/-- A name that refers to nothing. -/
def unresolved (node : Nat) : Place := ⟨.unresolvedReference, node, 'U'⟩

/-- A reference to a backing field that does not exist. -/
def misuse (node : Nat) : Place := ⟨.backingFieldMisuse, node, 'T'⟩

/-- Another problem. -/
def semantic (node : Nat) (letter : Char) : Place := ⟨.semanticError, node, letter⟩

/-- Another problem of which the message begins with a quotation. -/
def quoting (node : Nat) : Place := semantic node (Char.ofNat 39)

/-- The places are different ones, and they are at the nodes. -/
structure Spread (nodes : List Nat) (places : List Place) : Prop where
  nodup : places.Nodup
  node_mem : ∀ p ∈ places, p.node ∈ nodes

namespace Spread

variable {nodes nodes' : List Nat} {places places' : List Place}

theorem nil (nodes : List Nat) : Spread nodes [] := ⟨List.nodup_nil, nofun⟩

theorem mono (h : Spread nodes places) (hnodes : nodes ⊆ nodes') : Spread nodes' places :=
  ⟨h.nodup, fun p hp => hnodes (h.node_mem p hp)⟩

theorem perm (h : Spread nodes places) (hperm : places.Perm places') : Spread nodes places' :=
  ⟨hperm.nodup_iff.mp h.nodup, fun p hp => h.node_mem p (hperm.mem_iff.mpr hp)⟩

/-- Places at different nodes are different. -/
theorem append
    (h : Spread nodes places) (h' : Spread nodes' places') (hdisjoint : nodes.Disjoint nodes') :
    Spread (nodes ++ nodes') (places ++ places') := by
  refine ⟨h.nodup.append h'.nodup fun p hp hp' => ?_, fun p hp => ?_⟩
  · exact hdisjoint (h.node_mem p hp) (h'.node_mem p hp')
  · exact List.mem_append.mpr ((List.mem_append.mp hp).imp (h.node_mem p) (h'.node_mem p))

theorem one {node : Nat} {p : Place} (hp : p.node = node) : Spread [node] [p] := by
  refine ⟨List.nodup_singleton p, fun q hq => List.mem_singleton.mpr ?_⟩
  rw [List.mem_singleton.mp hq, hp]

/-- Two places at one node that differ in what is said. -/
theorem two {node : Nat} {p q : Place} (hne : p ≠ q) (hp : p.node = node) (hq : q.node = node) :
    Spread [node] [p, q] := by
  refine ⟨List.nodup_cons.mpr ⟨?_, List.nodup_singleton q⟩, fun r hr => ?_⟩
  · exact fun h => hne (List.mem_singleton.mp h)
  · refine List.mem_singleton.mpr ?_
    rcases List.mem_cons.mp hr with rfl | hr
    · exact hp
    · rw [List.mem_singleton.mp hr, hq]

/-- The places of several things that have no node in common. -/
theorem flatMap
    {α : Type} {xs : List α} {f : α → List Nat} {g : α → List Place} (hnodup : (xs.flatMap f).Nodup)
    (h : ∀ x ∈ xs, (f x).Nodup → Spread (f x) (g x)) : Spread (xs.flatMap f) (xs.flatMap g) := by
  induction xs with
  | nil => exact .nil []
  | cons x xs ih =>
      obtain ⟨hx, hxs, hdisjoint⟩ := List.nodup_append'.mp hnodup
      have hrest := ih hxs fun y hy => h y (List.mem_cons_of_mem x hy)
      exact (h x List.mem_cons_self hx).append hrest hdisjoint

/-- Something is reported at each of several nodes. -/
theorem map
    {f : Nat → Place} (hf : ∀ node, (f node).node = node) (hnodup : nodes.Nodup) :
    Spread nodes (nodes.map f) := by
  refine ⟨hnodup.map fun node node' h => ?_, fun p hp => ?_⟩
  · rw [← hf node, h, hf node']
  · obtain ⟨node, hnode, rfl⟩ := List.mem_map.mp hp
    rw [hf node]
    exact hnode

/-- Places at the same nodes with different codes are different. -/
theorem append_codes
    (codes : List DiagnosticCode) (h : Spread nodes places) (h' : Spread nodes places')
    (hcodes : ∀ p ∈ places, p.code ∉ codes) (hcodes' : ∀ p ∈ places', p.code ∈ codes) :
    Spread nodes (places ++ places') := by
  refine ⟨h.nodup.append h'.nodup fun p hp hp' => hcodes p hp (hcodes' p hp'), fun p hp => ?_⟩
  exact (List.mem_append.mp hp).elim (h.node_mem p) (h'.node_mem p)

end Spread

end Place

/-- A relation between states that holds again after two stretches, for the places of both. -/
class Gathers {σ : Type} (R : List Place → σ → σ → Prop) : Prop where
  refl : ∀ s, R [] s s
  append : ∀ {places places' s s' s''},
    R places s s' → R places' s' s'' → R (places ++ places') s s''
  mono : ∀ {places places' s s'}, R places s s' → places.Subperm places' → R places' s s'

/-- Where a diagnostic stands. -/
def Diagnostic.place (d : Diagnostic) : Place := ⟨d.code, d.node, d.message.toList.head?⟩

namespace Observer

/-- The observer has noted some more nodes, if it notes any. -/
def Notes (noted : List Nat) : Observer → Observer → Prop
  | tracker property, o => o = tracker property
  | guard nodes, o => o = guard (nodes ++ noted)

variable {noted noted' : List Nat} {o o' o'' : Observer}

theorem Notes.refl (o : Observer) : Notes [] o o := by
  cases o with
  | tracker property => rfl
  | guard nodes => exact congrArg guard (List.append_nil nodes).symm

theorem Notes.append (h : Notes noted o o') (h' : Notes noted' o' o'') :
    Notes (noted ++ noted') o o'' := by
  cases o with
  | tracker property =>
      obtain rfl : o' = tracker property := h
      exact h'
  | guard nodes =>
      obtain rfl : o' = guard (nodes ++ noted) := h
      obtain rfl : o'' = guard (nodes ++ noted ++ noted') := h'
      exact congrArg guard (List.append_assoc ..)

/-- What may be noted of a reference when it is recorded. -/
def notable (node : Nat) (kind : ReferenceKind) : List Nat :=
  if kind = .fieldIdentifier then [node] else []

theorem exists_notes_see (t : Trace) (node : Nat) (kind : ReferenceKind) (descriptor : Nat)
    (o : Observer) :
    ∃ noted, Notes noted o (o.see t node kind descriptor).1 ∧
      noted.Sublist (notable node kind) := by
  cases o with
  | tracker property =>
      refine ⟨[], ?_, List.nil_sublist _⟩
      simp only [see]
      split
      · rfl
      · rfl
  | guard nodes =>
      simp only [see]
      split
      · rename_i h
        rw [notable, if_pos h.1]
        exact ⟨[node], rfl, .refl _⟩
      · exact ⟨[], Notes.refl _, List.nil_sublist _⟩

theorem forall₂_notes_seeAll (node : Nat) (kind : ReferenceKind) (descriptor : Nat)
    (observers : List Observer) (t : Trace) :
    List.Forall₂ (fun o o' => ∃ noted, Notes noted o o' ∧ noted.Sublist (notable node kind))
      observers (seeAll node kind descriptor observers t).1 := by
  induction observers generalizing t with
  | nil => exact .nil
  | cons o rest ih => exact .cons (exists_notes_see t node kind descriptor o) (ih _)

end Observer

namespace Session

/-- Whether a session is balanced depends on its reports and type references alone. -/
theorem Balanced.of_eq
    {s s' : Session} (hs : s.Balanced) (hdiagnostics : s'.diagnostics = s.diagnostics)
    (htypes : s'.trace.typeReferences = s.trace.typeReferences) : s'.Balanced := by
  intro node name
  have hold := hs node name
  unfold Trace.typeReference? at hold ⊢
  rw [hdiagnostics, htypes]
  exact hold

/-- Between the sessions nothing is reported but missing types at some of the nodes and what
stands at the places, at each at most once. At most the places that are then left are those of
what an observer has noted. -/
structure Posts (nodes : List Nat) (places : List Place) (s s' : Session) : Prop where
  exists_reported : ∃ types others : List Diagnostic,
    s'.diagnostics.toList.Perm (s.diagnostics.toList ++ (types ++ others)) ∧
      (∀ d ∈ types, ∃ node ∈ nodes, ∃ name, d = .unresolvedType node name) ∧
        (∀ d ∈ others, d = .ofCode d.code d.node d.message) ∧
          (others.map Diagnostic.place).Subperm places ∧
            List.Forall₂ (fun o o' => ∃ noted, Observer.Notes noted o o' ∧
              (others.map Diagnostic.place ++ noted.map Place.misuse).Subperm places)
              s.recorder.observers s'.recorder.observers
  balanced : s.Balanced → s'.Balanced

namespace Posts

variable {nodes : List Nat} {places places' : List Place} {s s' s'' : Session}

theorem mono (h : Posts nodes places s s') (hsub : places.Subperm places') :
    Posts nodes places' s s' := by
  obtain ⟨types, others, hperm, htypes, hothers, hplaces, hobservers⟩ := h.exists_reported
  refine ⟨⟨types, others, hperm, htypes, hothers, hplaces.trans hsub, ?_⟩, h.balanced⟩
  exact hobservers.imp fun _ _ ⟨noted, hnotes, hnoted⟩ => ⟨noted, hnotes, hnoted.trans hsub⟩

/-- Nothing is reported and nothing noted. -/
theorem of_eq
    (hdiagnostics : s'.diagnostics = s.diagnostics)
    (hobservers : s'.recorder.observers = s.recorder.observers)
    (htypes : s'.trace.typeReferences = s.trace.typeReferences) : Posts nodes [] s s' := by
  refine ⟨⟨[], [], ?_, nofun, nofun, .refl _, ?_⟩, fun hs => hs.of_eq hdiagnostics htypes⟩
  · rw [hdiagnostics]
    exact (List.append_nil _).symm ▸ .refl _
  · rw [hobservers]
    exact List.forall₂_same.mpr fun o _ => ⟨[], .refl o, .refl _⟩

theorem refl (nodes : List Nat) (s : Session) : Posts nodes [] s s := of_eq rfl rfl rfl

/-- Two stretches between sessions, one after the other. -/
theorem append (h : Posts nodes places s s') (h' : Posts nodes places' s' s'') :
    Posts nodes (places ++ places') s s'' := by
  obtain ⟨types, others, hperm, htypes, hothers, hplaces, hobservers⟩ := h.exists_reported
  obtain ⟨types', others', hperm', htypes', hothers', hplaces', hobservers'⟩ := h'.exists_reported
  have hshuffle : ∀ {α : Type} (a b c d e : List α),
      (a ++ (b ++ c) ++ (d ++ e)).Perm (a ++ (b ++ d ++ (c ++ e))) := by
    intro α a b c d e
    classical
    exact List.perm_iff_count.mpr fun x => by simp only [List.count_append]; omega
  refine ⟨⟨types ++ types', others ++ others', ?_, ?_, ?_, ?_, ?_⟩, h'.balanced ∘ h.balanced⟩
  · exact hperm'.trans ((hperm.append_right _).trans (hshuffle ..))
  · exact fun d hd => (List.mem_append.mp hd).elim (htypes d) (htypes' d)
  · exact fun d hd => (List.mem_append.mp hd).elim (hothers d) (hothers' d)
  · rw [List.map_append]
    exact hplaces.append hplaces'
  · generalize s.recorder.observers = os, s'.recorder.observers = os',
      s''.recorder.observers = os'' at hobservers hobservers'
    induction hobservers generalizing os'' with
    | nil =>
        cases hobservers'
        exact .nil
    | cons hnotes _ ih =>
        rcases hobservers' with _ | ⟨hnotes', hrest'⟩
        refine .cons ?_ (ih _ hrest')
        obtain ⟨noted, hnoted, hsub⟩ := hnotes
        obtain ⟨noted', hnoted', hsub'⟩ := hnotes'
        refine ⟨noted ++ noted', hnoted.append hnoted', ?_⟩
        rw [List.map_append, List.map_append]
        have hperm := hshuffle [] (others.map Diagnostic.place) (noted.map Place.misuse)
          (others'.map Diagnostic.place) (noted'.map Place.misuse)
        exact hperm.symm.subperm.trans (hsub.append hsub')

/-- Who watches does not matter. -/
theorem unwatch
    {o : Observer} (h : Posts nodes places { s with recorder := s.recorder.watch o } s') :
    Posts nodes places s { s' with recorder := s'.recorder.unwatch.2 } := by
  obtain ⟨types, others, hperm, htypes, hothers, hplaces, hobservers⟩ := h.exists_reported
  have htrace : s'.recorder.unwatch.2.trace = s'.trace := Session.trace_unwatch s'.recorder
  have hreferences : s'.recorder.unwatch.2.trace.typeReferences = s'.trace.typeReferences :=
    congrArg Trace.typeReferences htrace
  refine ⟨⟨types, others, hperm, htypes, hothers, hplaces, ?_⟩,
    fun hs => (h.balanced hs).of_eq rfl hreferences⟩
  change List.Forall₂ _ (o :: s.recorder.observers) _ at hobservers
  change List.Forall₂ _ _ s'.recorder.unwatch.2.observers
  unfold Recorder.unwatch
  generalize hafter : s'.recorder.observers = observers at hobservers
  obtain _ | ⟨-, hrest⟩ := hobservers
  exact hrest

/-- Where nobody else watches, what a guard notes may be reported afterwards. -/
theorem unwatch_guard
    (hnone : s.recorder.observers = [])
    (h : Posts nodes places { s with recorder := s.recorder.watch (.guard []) } s') :
    ∃ reported, Posts nodes reported s { s' with recorder := s'.recorder.unwatch.2 } ∧
      (reported ++ s'.recorder.unwatch.1.map Place.misuse).Subperm places := by
  obtain ⟨types, others, hperm, htypes, hothers, -, hobservers⟩ := h.exists_reported
  change List.Forall₂ _ (.guard [] :: s.recorder.observers) _ at hobservers
  have hunwatch := h.unwatch
  rw [hnone] at hobservers
  generalize hafter : s'.recorder.observers = observers at hobservers
  obtain _ | ⟨⟨noted, hnotes, hsub⟩, hrest⟩ := hobservers
  obtain rfl := List.forall₂_nil_left_iff.mp hrest
  obtain rfl := hnotes
  refine ⟨others.map Diagnostic.place, ⟨⟨types, others, hperm, htypes, hothers, .refl _, ?_⟩,
    hunwatch.balanced⟩, ?_⟩
  · change List.Forall₂ _ s.recorder.observers s'.recorder.unwatch.2.observers
    unfold Recorder.unwatch
    rw [hnone, hafter]
    exact .nil
  · unfold Recorder.unwatch
    rw [hafter]
    exact hsub

instance (nodes : List Nat) : Gathers (Posts nodes) where
  refl := .refl nodes
  append := .append
  mono := .mono

/-- If nobody watches, nobody does so afterwards. -/
theorem observers_eq_nil (h : Posts nodes places s s') (hnone : s.recorder.observers = []) :
    s'.recorder.observers = [] := by
  obtain ⟨_, _, -, -, -, -, hobservers⟩ := h.exists_reported
  rw [hnone] at hobservers
  exact List.forall₂_nil_left_iff.mp hobservers

instance : IsPreorder Session (Posts nodes []) where
  refl := .refl nodes
  trans _ _ _ := .append

/-- One report. -/
theorem of_report
    {code : DiagnosticCode} {node : Nat} {message : String}
    (hquiet : ∀ node' name, Diagnostic.ofCode code node message ≠ .unresolvedType node' name) :
    Posts nodes [⟨code, node, message.toList.head?⟩] s
      { s with diagnostics := s.diagnostics.push (.ofCode code node message) } := by
  refine ⟨⟨[], [.ofCode code node message], ?_, nofun, ?_, .refl _, ?_⟩, fun hs node' name => ?_⟩
  · rw [Array.toList_push]
    exact .refl _
  · intro d hd
    obtain rfl := List.mem_singleton.mp hd
    rfl
  · exact List.forall₂_same.mpr fun o _ => ⟨[], .refl o, .refl _⟩
  · refine Eq.trans ?_ (hs node' name)
    rw [Array.toList_push, List.count_append, List.count_singleton, if_neg, Nat.add_zero]
    simpa using hquiet node' name

end Posts

/-- If nobody watches, nothing is reported between the sessions but what stands at the places. -/
def PostsUnwatched (nodes : List Nat) (places : List Place) (s s' : Session) : Prop :=
  s.recorder.observers = [] → Posts nodes places s s'

instance (nodes : List Nat) : Gathers (PostsUnwatched nodes) where
  refl s _ := .refl nodes s
  append h h' hnone := (h hnone).append (h' ((h hnone).observers_eq_nil hnone))
  mono h hsub hnone := (h hnone).mono hsub

end Session

namespace Analysis

variable {α β : Type} {nodes : List Nat} {places places' : List Place}

/-- The computation reports at the places, at each at most once. -/
def Posts (nodes : List Nat) (places : List Place) (x : Analysis α) : Prop :=
  Keeps (Session.Posts nodes places) x

namespace Posts

variable {x : Analysis α}

theorem mono (h : Posts nodes places x) (hsub : places.Subperm places') : Posts nodes places' x :=
  Keeps.mono h fun _ _ h => h.mono hsub

theorem pure (a : α) : Posts nodes [] (Pure.pure a : Analysis α) := Keeps.pure a

theorem bind
    (hx : Posts nodes places x) {f : α → Analysis β} (hf : ∀ a, Posts nodes places' (f a)) :
    Posts nodes (places ++ places') (x >>= f) :=
  ⟨fun s => (hx.after s).append ((hf _).after _)⟩

/-- The first step reports nothing. -/
theorem bind_first
    (hx : Posts nodes [] x) {f : α → Analysis β} (hf : ∀ a, Posts nodes places (f a)) :
    Posts nodes places (x >>= f) :=
  hx.bind hf

/-- The last step reports nothing. -/
theorem bind_last
    (hx : Posts nodes places x) {f : α → Analysis β} (hf : ∀ a, Posts nodes [] (f a)) :
    Posts nodes places (x >>= f) := by
  rw [← List.append_nil places]
  exact hx.bind hf

theorem get_bind {f : Session → Analysis β} (hf : ∀ s, Posts nodes places (f s)) :
    Posts nodes places (get >>= f) :=
  Keeps.get_bind hf

theorem map (hx : Posts nodes places x) (f : α → β) : Posts nodes places (f <$> x) :=
  Keeps.map f hx

theorem mapM
    {ι : Type} {f : ι → Analysis α} {g : ι → List Place} (is : List ι)
    (h : ∀ i ∈ is, Posts nodes (g i) (f i)) : Posts nodes (is.flatMap g) (is.mapM f) := by
  induction is with
  | nil => exact .pure []
  | cons i is ih =>
      rw [List.mapM_cons]
      refine (h i List.mem_cons_self).bind fun a => ?_
      exact (ih fun j hj => h j (List.mem_cons_of_mem i hj)).bind_last fun as => .pure _

end Posts

end Analysis

/-- The computation leads to a related state, whether it stops with a fault or not. -/
def PostsOr {σ α : Type} (R : List Place → σ → σ → Prop) (places : List Place)
    (x : ExceptT Fault (StateM σ) α) : Prop :=
  KeepsOr (R places) x

namespace PostsOr

variable {σ α β : Type} {R : List Place → σ → σ → Prop} [Gathers R] {places places' : List Place}
  {x : ExceptT Fault (StateM σ) α}

theorem mono (h : PostsOr R places x) (hsub : places.Subperm places') : PostsOr R places' x :=
  KeepsOr.mono h fun _ _ h => Gathers.mono h hsub

theorem none (h : PostsOr R [] x) : PostsOr R places x := h.mono List.nil_subperm

theorem pure (a : α) : PostsOr R [] (Pure.pure a : ExceptT Fault (StateM σ) α) :=
  KeepsOr.of_afterOr fun s => Gathers.refl s

theorem throw (fault : Fault) : PostsOr R [] (throw fault : ExceptT Fault (StateM σ) α) :=
  KeepsOr.of_afterOr fun s => Gathers.refl s

theorem bind
    (hx : PostsOr R places x) {f : α → ExceptT Fault (StateM σ) β}
    (hf : ∀ a, PostsOr R places' (f a)) : PostsOr R (places ++ places') (x >>= f) := by
  refine KeepsOr.of_afterOr fun s => afterOr_bind.mpr (AfterOr.mono (hx.afterOr s) ?_ ?_)
  · intro a s₁ h₁
    refine AfterOr.mono ((hf a).afterOr s₁) ?_ ?_
    · exact fun _ _ h => Gathers.append h₁ h
    · exact fun _ _ h => Gathers.append h₁ h
  · exact fun _ s₁ h₁ => Gathers.mono h₁ (List.sublist_append_left ..).subperm

/-- The first step reports nothing. -/
theorem bind_first
    (hx : PostsOr R [] x) {f : α → ExceptT Fault (StateM σ) β}
    (hf : ∀ a, PostsOr R places (f a)) : PostsOr R places (x >>= f) :=
  hx.bind hf

/-- The last step reports nothing. -/
theorem bind_last
    (hx : PostsOr R places x) {f : α → ExceptT Fault (StateM σ) β}
    (hf : ∀ a, PostsOr R [] (f a)) : PostsOr R places (x >>= f) := by
  rw [← List.append_nil places]
  exact hx.bind hf

omit [Gathers R] in
theorem get_bind
    {f : σ → ExceptT Fault (StateM σ) β} (hf : ∀ s, PostsOr R places (f s)) :
    PostsOr R places (get >>= f) :=
  KeepsOr.get_bind hf

theorem forM
    {ι : Type} {f : ι → ExceptT Fault (StateM σ) PUnit} {g : ι → List Place} (is : List ι)
    (h : ∀ i ∈ is, PostsOr R (g i) (f i)) : PostsOr R (is.flatMap g) (is.forM f) := by
  induction is with
  | nil => exact .pure PUnit.unit
  | cons i is ih =>
      exact (h i List.mem_cons_self).bind fun _ => ih fun j hj => h j (List.mem_cons_of_mem i hj)

/-- What follows need only be known after the first step. -/
theorem afterAny_bind
    {s : σ} {q : α → σ → Prop} {f : α → ExceptT Fault (StateM σ) β}
    (hx : AfterAny x s (R places s)) (h : AfterOr x s q fun _ _ => True)
    (hf : ∀ a s₁, q a s₁ → AfterAny (f a) s₁ (R places' s₁)) :
    AfterAny (x >>= f) s (R (places ++ places') s) := by
  refine afterOr_bind.mpr (AfterOr.mono (AfterOr.and hx h) ?_ ?_)
  · intro a s₁ h₁
    exact AfterAny.mono (hf a s₁ h₁.2) fun _ h => Gathers.append h₁.1 h
  · exact fun _ s₁ h₁ => Gathers.mono h₁.1 (List.sublist_append_left ..).subperm

/-- Each step reports one thing at most. -/
theorem forM_map
    {ι : Type} {f : ι → ExceptT Fault (StateM σ) PUnit} {g : ι → Place} (is : List ι)
    (h : ∀ i ∈ is, PostsOr R [g i] (f i)) : PostsOr R (is.map g) (is.forM f) := by
  rw [List.map_eq_flatMap]
  exact .forM is h

end PostsOr

theorem PostsOr.unwatched
    {α : Type} {nodes : List Nat} {places : List Place} {x : FaultyAnalysis α}
    (h : PostsOr (Session.Posts nodes) places x) :
    PostsOr (Session.PostsUnwatched nodes) places x :=
  KeepsOr.mono h fun _ _ h _ => h

namespace Analysis

variable {α : Type} {nodes : List Nat} {places : List Place}

theorem Posts.lift {x : Analysis α} (hx : Posts nodes places x) :
    PostsOr (Session.Posts nodes) places (liftM x : FaultyAnalysis α) :=
  KeepsOr.lift hx

/-! ### Elementary operations -/

/-- Reports under another code than that of references. -/
theorem posts_reportCode
    {code : DiagnosticCode} (hcode : code ≠ .unresolvedReference) (node : Nat) {message : String}
    {letter : Option Char} (hletter : message.toList.head? = letter) :
    Posts nodes [⟨code, node, letter⟩] (reportCode code node message) := by
  subst hletter
  exact ⟨fun s => .of_report fun node' name h => hcode (congrArg Diagnostic.code h)⟩

theorem posts_reportMismatch (node : Nat) (expected actual : Ty) :
    Posts nodes [.mismatch node] (reportMismatch node expected actual) := by
  have hcode : DiagnosticCode.typeMismatch ≠ .unresolvedReference := by decide
  refine posts_reportCode hcode node ?_
  simp

theorem posts_recordDeclaration (node descriptor : Nat) :
    Posts nodes [] (recordDeclaration node descriptor) :=
  ⟨fun _ => .of_eq rfl rfl rfl⟩

theorem posts_recordExpressionType (node : Nat) (type : Ty) :
    Posts nodes [] (recordExpressionType node type) :=
  ⟨fun _ => .of_eq rfl rfl rfl⟩

theorem posts_recordBackingField (property : Nat) :
    Posts nodes [] (recordBackingField property) :=
  ⟨fun _ => .of_eq rfl rfl rfl⟩

theorem posts_onScopes (f : ScopeTree → ScopeTree) : Posts nodes [] (onScopes f) :=
  ⟨fun _ => .of_eq rfl rfl rfl⟩

theorem posts_onDescriptors (f : DescriptorTable → DescriptorTable) :
    Posts nodes [] (onDescriptors f) :=
  ⟨fun _ => .of_eq rfl rfl rfl⟩

theorem posts_createScope (kind : ScopeKind) (parent owner : Option Nat) :
    Posts nodes [] (createScope kind parent owner) :=
  ⟨fun _ => .of_eq rfl rfl rfl⟩

theorem posts_createWriteThrough (outer target : Nat) :
    Posts nodes [] (createWriteThrough outer target) :=
  ⟨fun _ => .of_eq rfl rfl rfl⟩

theorem posts_createDescriptor (name : String) (container : Option Nat) (kind : DescriptorKind) :
    Posts nodes [] (createDescriptor name container kind) :=
  ⟨fun _ => .of_eq rfl rfl rfl⟩

theorem postsOr_tryDescriptors (f : DescriptorTable → Except Fault DescriptorTable) :
    PostsOr (Session.Posts nodes) [] (tryDescriptors f) := by
  refine .get_bind fun s => ?_
  split
  · exact (posts_onDescriptors _).lift
  · exact .throw _

/-- Watching a computation reports nothing by itself. -/
theorem postsOr_observed
    (o : Observer) {run : FaultyAnalysis Unit} (h : PostsOr (Session.Posts nodes) places run) :
    PostsOr (Session.Posts nodes) places (observed o run) := by
  refine KeepsOr.of_afterOr fun s => ?_
  have hrun := h.afterOr { s with recorder := s.recorder.watch o }
  exact AfterOr.observed (AfterAny.mono hrun fun _ => Session.Posts.unwatch)

theorem postsOr_functionInnerScope (outer function : Nat) :
    PostsOr (Session.Posts nodes) [] (functionInnerScope outer function) := by
  refine .get_bind fun s => ?_
  split
  · have hmodel : ∀ m : Model, Posts nodes [] (modify fun s => { s with model := m }) :=
      fun m => ⟨fun _ => .of_eq rfl rfl rfl⟩
    exact (hmodel _).lift.bind_last fun _ => .pure _
  · exact .throw _

/-- A reference is noted at most once. -/
theorem posts_recordReference (node : Nat) (kind : ReferenceKind) (descriptor : Nat) :
    Posts nodes ((Observer.notable node kind).map .misuse)
      (recordReference node kind descriptor) := by
  refine ⟨fun s => ⟨⟨[], [], ?_, nofun, nofun, List.nil_subperm, ?_⟩, fun hs => ?_⟩⟩
  · exact (List.append_nil _).symm ▸ .refl _
  · refine (Observer.forall₂_notes_seeAll node kind descriptor s.recorder.observers
      s.trace).imp ?_
    exact fun _ _ ⟨noted, hnotes, hnoted⟩ => ⟨noted, hnotes, (hnoted.map Place.misuse).subperm⟩
  · obtain ⟨fields, hfields⟩ := Session.trace_recordReference s.recorder node kind descriptor
    refine hs.of_eq rfl ?_
    change (s.recorder.recordReference node kind descriptor).trace.typeReferences = _
    rw [hfields]
    rfl

end Analysis

end DeclAnalysis
