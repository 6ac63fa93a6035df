import Mathlib.Order.Defs.Unbundled
import DeclAnalysis.Fault

/-!
# Reasoning about computations

What holds after a computation on a state, and how it follows from what holds after
its parts. There are two kinds of computations: those that always give a result, and
those that may stop with a fault.

Many facts concern states alone: the computation leads from every state to one that
stands in some relation to it. Such a relation only has to be checked for the
elementary changes if it is reflexive and transitive; the lemmas about `Keeps` then
carry it over to every computation.
-/

namespace DeclAnalysis

variable {σ α β : Type}

/-- What holds of the result and the state after a computation. -/
def After (x : StateM σ α) (s : σ) (post : α → σ → Prop) : Prop :=
  post (x.run s).1 (x.run s).2

/-- What holds after a computation that may stop with a fault: one thing if it does
not, another if it does. -/
def AfterOr (x : ExceptT Fault (StateM σ) α) (s : σ) (post : α → σ → Prop)
    (stopped : Fault → σ → Prop) : Prop :=
  After x.run s fun
    | .ok a => post a
    | .error fault => stopped fault

/-- What holds after a computation that does not stop with a fault. -/
abbrev AfterOk (x : ExceptT Fault (StateM σ) α) (s : σ) (post : α → σ → Prop) : Prop :=
  AfterOr x s post fun _ _ => False

/-- What holds of the state after a computation, whether it stops with a fault or not. -/
abbrev AfterAny (x : ExceptT Fault (StateM σ) α) (s : σ) (post : σ → Prop) : Prop :=
  AfterOr x s (fun _ => post) fun _ => post

/-- The computation does not stop with a fault. -/
abbrev Succeeds (x : ExceptT Fault (StateM σ) α) (s : σ) : Prop :=
  AfterOk x s fun _ _ => True

section After

variable {s : σ} {post post' : α → σ → Prop} {postb : β → σ → Prop}

theorem After.mono {x : StateM σ α} (h : After x s post)
    (himp : ∀ a s', post a s' → post' a s') : After x s post' :=
  himp _ _ h

theorem After.bind {x : StateM σ α} {f : α → StateM σ β} (hx : After x s post)
    (hf : ∀ a s', post a s' → After (f a) s' postb) : After (x >>= f) s postb :=
  hf _ _ hx

theorem After.and {x : StateM σ α} (h : After x s post) (h' : After x s post') :
    After x s fun a s' => post a s' ∧ post' a s' :=
  ⟨h, h'⟩

@[simp] theorem after_pure {a : α} : After (pure a : StateM σ α) s post ↔ post a s := Iff.rfl

@[simp] theorem after_bind {x : StateM σ α} {f : α → StateM σ β} :
    After (x >>= f) s postb ↔ After x s fun a s' => After (f a) s' postb := Iff.rfl

@[simp] theorem after_map {x : StateM σ α} {f : α → β} :
    After (f <$> x) s postb ↔ After x s fun a => postb (f a) := Iff.rfl

@[simp] theorem after_get {post : σ → σ → Prop} :
    After (get : StateM σ σ) s post ↔ post s s := Iff.rfl

@[simp] theorem after_modify {f : σ → σ} {post : PUnit → σ → Prop} :
    After (modify f : StateM σ PUnit) s post ↔ post ⟨⟩ (f s) := Iff.rfl

@[simp] theorem after_modifyGet {f : σ → α × σ} :
    After (modifyGet f : StateM σ α) s post ↔ post (f s).1 (f s).2 := Iff.rfl

end After

section AfterOr

variable {s : σ} {post post' : α → σ → Prop} {postb : β → σ → Prop}
  {stopped stopped' : Fault → σ → Prop}

theorem AfterOr.mono {x : ExceptT Fault (StateM σ) α} (h : AfterOr x s post stopped)
    (himp : ∀ a s', post a s' → post' a s')
    (himp' : ∀ fault s', stopped fault s' → stopped' fault s') :
    AfterOr x s post' stopped' := by
  refine After.mono h ?_
  rintro (fault | a) s' hs'
  · exact himp' fault s' hs'
  · exact himp a s' hs'

theorem AfterOr.imp {x : ExceptT Fault (StateM σ) α} (h : AfterOr x s post stopped)
    (himp : ∀ a s', post a s' → post' a s') : AfterOr x s post' stopped :=
  h.mono himp fun _ _ h => h

/-- What holds if the computation stops with a fault may be forgotten. -/
theorem AfterOr.forget {x : ExceptT Fault (StateM σ) α} (h : AfterOr x s post stopped) :
    AfterOr x s post fun _ _ => True :=
  h.mono (fun _ _ h => h) fun _ _ _ => True.intro

theorem AfterOr.relax {x : ExceptT Fault (StateM σ) α} (h : AfterOr x s post stopped)
    (himp : ∀ a s', post a s' → post' a s') : AfterOr x s post' fun _ _ => True :=
  h.forget.imp himp

theorem AfterOk.mono {x : ExceptT Fault (StateM σ) α} (h : AfterOk x s post)
    (himp : ∀ a s', post a s' → post' a s') : AfterOk x s post' :=
  AfterOr.mono h himp fun _ _ => False.elim

/-- What does not stop with a fault need not be asked what holds if it does. -/
theorem AfterOk.afterOr {x : ExceptT Fault (StateM σ) α} (h : AfterOk x s post) :
    AfterOr x s post stopped :=
  AfterOr.mono h (fun _ _ h => h) fun _ _ => False.elim

theorem AfterOr.trivial (x : ExceptT Fault (StateM σ) α) (s : σ) :
    AfterOr x s (fun _ _ => True) fun _ _ => True := by
  unfold AfterOr After
  cases (x.run.run s).1 <;> exact True.intro

/-- What holds afterwards only if something holds beforehand. -/
theorem AfterAny.imp {p : Prop} {x : ExceptT Fault (StateM σ) α} {s : σ} {post : σ → Prop}
    (h : p → AfterOr x s (fun _ => post) fun _ => post) :
    AfterOr x s (fun _ s' => p → post s') fun _ s' => p → post s' := by
  by_cases hp : p
  · exact AfterOr.mono (h hp) (fun _ _ h _ => h) fun _ _ h _ => h
  · exact AfterOr.mono (AfterOr.trivial x s) (fun _ _ _ h => absurd h hp)
      fun _ _ _ h => absurd h hp

/-- A computation has one result, so that several things may be shown of it one by one. -/
theorem AfterOr.forall {ι : Sort*} {x : ExceptT Fault (StateM σ) α}
    {post : ι → α → σ → Prop} (h : ∀ i, AfterOr x s (post i) fun _ _ => True) :
    AfterOr x s (fun a s' => ∀ i, post i a s') fun _ _ => True := by
  unfold AfterOr After at h ⊢
  generalize (x.run.run s).1 = result at h ⊢
  cases result with
  | ok a => exact h
  | error fault => trivial

theorem AfterAny.mono {x : ExceptT Fault (StateM σ) α} {post post' : σ → Prop}
    (h : AfterAny x s post) (himp : ∀ s', post s' → post' s') : AfterAny x s post' :=
  AfterOr.mono h (fun _ => himp) fun _ => himp

theorem run_eq_of_fst_run {x : ExceptT Fault (StateM σ) α} {result : Except Fault α}
    (h : (x.run.run s).1 = result) : x.run.run s = (result, (x.run.run s).2) :=
  Prod.ext h rfl

/-- What holds after a computation of which the outcome is known. -/
theorem AfterOr.of_run_eq {x : ExceptT Fault (StateM σ) α} {a : α} {s' : σ}
    (h : AfterOr x s post stopped) (hx : x.run.run s = (.ok a, s')) : post a s' := by
  unfold AfterOr After at h
  rw [hx] at h
  exact h

/-- A sequence of computations that none stops runs one after the other. -/
theorem exists_run_of_bind {x : ExceptT Fault (StateM σ) α} {f : α → ExceptT Fault (StateM σ) β}
    {b : β} {s' : σ} (h : (x >>= f).run.run s = (.ok b, s')) :
    ∃ a s₁, x.run.run s = (.ok a, s₁) ∧ (f a).run.run s₁ = (.ok b, s') := by
  rw [ExceptT.run_bind, StateT.run_bind] at h
  generalize hx : x.run.run s = outcome at h
  obtain ⟨fault | a, s₁⟩ := outcome
  · cases h
  · exact ⟨a, s₁, rfl, h⟩

theorem AfterAny.snd_run {x : ExceptT Fault (StateM σ) α} {post : σ → Prop}
    (h : AfterAny x s post) : post (x.run.run s).2 := by
  unfold AfterAny AfterOr After at h
  generalize x.run.run s = outcome at h ⊢
  obtain ⟨fault | a, s'⟩ := outcome
  · exact h
  · exact h

@[simp] theorem afterOr_pure {a : α} :
    AfterOr (pure a : ExceptT Fault (StateM σ) α) s post stopped ↔ post a s := Iff.rfl

@[simp] theorem afterOr_throw {fault : Fault} :
    AfterOr (throw fault : ExceptT Fault (StateM σ) α) s post stopped ↔ stopped fault s :=
  Iff.rfl

@[simp] theorem afterOr_bind {x : ExceptT Fault (StateM σ) α}
    {f : α → ExceptT Fault (StateM σ) β} :
    AfterOr (x >>= f) s postb stopped ↔
      AfterOr x s (fun a s' => AfterOr (f a) s' postb stopped) stopped := by
  unfold AfterOr
  rw [ExceptT.run_bind, after_bind]
  constructor
  · intro h
    refine After.mono h ?_
    rintro (fault | a) s' hs'
    · exact hs'
    · exact hs'
  · intro h
    refine After.mono h ?_
    rintro (fault | a) s' hs'
    · exact hs'
    · exact hs'

theorem AfterOr.bind {x : ExceptT Fault (StateM σ) α} {f : α → ExceptT Fault (StateM σ) β}
    (hx : AfterOr x s post stopped)
    (hf : ∀ a s', post a s' → AfterOr (f a) s' postb stopped) :
    AfterOr (x >>= f) s postb stopped :=
  afterOr_bind.mpr (hx.imp hf)

theorem AfterOr.lift {x : StateM σ α} (hx : After x s post) :
    AfterOr (liftM x : ExceptT Fault (StateM σ) α) s post stopped :=
  hx

@[simp] theorem afterOr_map {x : ExceptT Fault (StateM σ) α} {f : α → β} :
    AfterOr (f <$> x) s postb stopped ↔ AfterOr x s (fun a => postb (f a)) stopped := by
  rw [map_eq_pure_bind, afterOr_bind]
  rfl

@[simp] theorem afterOr_get {post : σ → σ → Prop} :
    AfterOr (get : ExceptT Fault (StateM σ) σ) s post stopped ↔ post s s := Iff.rfl

@[simp] theorem afterOr_modify {f : σ → σ} {post : PUnit → σ → Prop} :
    AfterOr (modify f : ExceptT Fault (StateM σ) PUnit) s post stopped ↔ post ⟨⟩ (f s) :=
  Iff.rfl

@[simp] theorem afterOr_lift {x : StateM σ α} :
    AfterOr (liftM x : ExceptT Fault (StateM σ) α) s post stopped ↔ After x s post := Iff.rfl

@[simp] theorem afterOr_mk {x : StateM σ (Except Fault α)} :
    AfterOr (ExceptT.mk x) s post stopped ↔
      After x s fun
        | .ok a => post a
        | .error fault => stopped fault := Iff.rfl

end AfterOr

/-- Steps that keep an invariant. -/
theorem AfterOr.forM {f : α → ExceptT Fault (StateM σ) PUnit} {p : σ → Prop}
    {stopped : Fault → σ → Prop} (xs : List α)
    (h : ∀ a ∈ xs, ∀ s, p s → AfterOr (f a) s (fun _ => p) stopped) {s : σ} (hs : p s) :
    AfterOr (xs.forM f) s (fun _ => p) stopped := by
  induction xs generalizing s with
  | nil => exact hs
  | cons a xs ih =>
      refine AfterOr.bind (h a List.mem_cons_self s hs) fun _ s' hs' => ?_
      exact ih (fun c hc => h c (List.mem_cons_of_mem a hc)) hs'

/-- Of several steps the one with a certain key makes one thing of another, and all others leave
both as they are. -/
theorem AfterOr.forM_at {κ : Type} {f : α → ExceptT Fault (StateM σ) PUnit} {p q : σ → Prop}
    {stopped : Fault → σ → Prop} {key : α → κ} {xs : List α} (hnodup : (xs.map key).Nodup) {a : α}
    (ha : a ∈ xs)
    (hbefore : ∀ b ∈ xs, key b ≠ key a → ∀ s, p s → AfterOr (f b) s (fun _ => p) stopped)
    (hstep : ∀ s, p s → AfterOr (f a) s (fun _ => q) stopped)
    (hafter : ∀ b ∈ xs, key b ≠ key a → ∀ s, q s → AfterOr (f b) s (fun _ => q) stopped) {s : σ}
    (hs : p s) : AfterOr (xs.forM f) s (fun _ => q) stopped := by
  induction xs generalizing s with
  | nil => cases ha
  | cons b rest ih =>
      obtain ⟨hb, hrest⟩ := List.nodup_cons.mp hnodup
      have hkey : ∀ c ∈ rest, key c ≠ key b := fun c hc heq =>
        hb (heq ▸ List.mem_map_of_mem hc)
      rcases List.mem_cons.mp ha with rfl | ha'
      · refine AfterOr.bind (hstep s hs) fun _ s₁ h₁ => AfterOr.forM rest (fun c hc => ?_) h₁
        exact hafter c (List.mem_cons_of_mem a hc) (hkey c hc)
      · have hfirst := hbefore b List.mem_cons_self (Ne.symm (hkey a ha')) s hs
        refine AfterOr.bind hfirst fun _ s₁ h₁ => ?_
        exact ih hrest ha' (fun c hc => hbefore c (List.mem_cons_of_mem b hc))
          (fun c hc => hafter c (List.mem_cons_of_mem b hc)) h₁

theorem AfterOk.forM {f : α → ExceptT Fault (StateM σ) PUnit} {p : σ → Prop} (xs : List α)
    (h : ∀ a ∈ xs, ∀ s, p s → AfterOk (f a) s fun _ => p) {s : σ} (hs : p s) :
    AfterOk (xs.forM f) s fun _ => p :=
  AfterOr.forM xs h hs

/-! ## The first of several faults -/

/-- The computation stops with the first of the given faults, and does not stop if there
is none. -/
def StopsAtFirst (faults : List Fault) (x : ExceptT Fault (StateM σ) α) (s : σ)
    (post : α → σ → Prop) : Prop :=
  AfterOr x s (fun a s' => faults = [] ∧ post a s') fun fault _ => faults.head? = some fault

section StopsAtFirst

variable {s : σ} {faults faults' : List Fault} {post post' : α → σ → Prop}
  {postb : β → σ → Prop}

theorem StopsAtFirst.of_ok {x : ExceptT Fault (StateM σ) α} (h : AfterOk x s post) :
    StopsAtFirst [] x s post :=
  AfterOr.mono h (fun _ _ h => ⟨rfl, h⟩) fun _ _ => False.elim

theorem stopsAtFirst_throw (fault : Fault) :
    StopsAtFirst [fault] (throw fault : ExceptT Fault (StateM σ) α) s post :=
  rfl

theorem StopsAtFirst.mono {x : ExceptT Fault (StateM σ) α} (h : StopsAtFirst faults x s post)
    (himp : ∀ a s', post a s' → post' a s') : StopsAtFirst faults x s post' :=
  AfterOr.imp h fun a s' h => ⟨h.1, himp a s' h.2⟩

theorem StopsAtFirst.bind {x : ExceptT Fault (StateM σ) α}
    {f : α → ExceptT Fault (StateM σ) β} (hx : StopsAtFirst faults x s post)
    (hf : ∀ a s', post a s' → StopsAtFirst faults' (f a) s' postb) :
    StopsAtFirst (faults ++ faults') (x >>= f) s postb := by
  refine afterOr_bind.mpr (AfterOr.mono hx ?_ ?_)
  · rintro a s' ⟨rfl, h⟩
    exact hf a s' h
  · intro fault s' h
    rw [List.head?_append, h]
    rfl

/-- A first step without faults. -/
theorem AfterOk.bind_first {x : ExceptT Fault (StateM σ) α}
    {f : α → ExceptT Fault (StateM σ) β} (hx : AfterOk x s post)
    (hf : ∀ a s', post a s' → StopsAtFirst faults (f a) s' postb) :
    StopsAtFirst faults (x >>= f) s postb :=
  StopsAtFirst.bind (.of_ok hx) hf

/-- A last step without faults. -/
theorem StopsAtFirst.bind_ok {x : ExceptT Fault (StateM σ) α}
    {f : α → ExceptT Fault (StateM σ) β} (hx : StopsAtFirst faults x s post)
    (hf : ∀ a s', post a s' → AfterOk (f a) s' postb) :
    StopsAtFirst faults (x >>= f) s postb := by
  rw [← List.append_nil faults]
  exact StopsAtFirst.bind hx fun a s' h => .of_ok (hf a s' h)

/-- Steps of which each keeps an invariant stop at the first fault of any of them. -/
theorem StopsAtFirst.forM {γ : Type} {f : γ → ExceptT Fault (StateM σ) PUnit}
    {faultsOf : γ → List Fault} {p : σ → Prop} (xs : List γ)
    (h : ∀ a ∈ xs, ∀ s, p s → StopsAtFirst (faultsOf a) (f a) s fun _ => p) (hs : p s) :
    StopsAtFirst (xs.flatMap faultsOf) (xs.forM f) s fun _ => p := by
  induction xs generalizing s with
  | nil => exact ⟨rfl, hs⟩
  | cons a xs ih =>
      refine StopsAtFirst.bind (h a List.mem_cons_self s hs) fun _ s' hs' => ?_
      exact ih (fun c hc => h c (List.mem_cons_of_mem a hc)) hs'

end StopsAtFirst

/-! ## Relations between states -/

/-- The computation leads from every state to a related one. -/
structure Keeps (R : σ → σ → Prop) (x : StateM σ α) : Prop where
  after : ∀ s, After x s fun _ => R s

/-- The computation leads from every state to a related one, whether it stops with a
fault or not. -/
def KeepsOr (R : σ → σ → Prop) (x : ExceptT Fault (StateM σ) α) : Prop := Keeps R x.run

section Keeps

variable {R R' : σ → σ → Prop}

theorem Keeps.mono {x : StateM σ α} (h : Keeps R x) (himp : ∀ s s', R s s' → R' s s') :
    Keeps R' x :=
  ⟨fun s => himp s _ (h.after s)⟩

theorem KeepsOr.mono {x : ExceptT Fault (StateM σ) α} (h : KeepsOr R x)
    (himp : ∀ s s', R s s' → R' s s') : KeepsOr R' x :=
  Keeps.mono h himp

theorem KeepsOr.afterOr {x : ExceptT Fault (StateM σ) α} (h : KeepsOr R x) (s : σ) :
    AfterAny x s (R s) := by
  refine After.mono (h.after s) ?_
  rintro (fault | a) s' hs'
  · exact hs'
  · exact hs'

theorem KeepsOr.of_afterOr {x : ExceptT Fault (StateM σ) α}
    (h : ∀ s, AfterAny x s (R s)) : KeepsOr R x := by
  refine ⟨fun s => After.mono (h s) ?_⟩
  rintro (fault | a) s' hs'
  · exact hs'
  · exact hs'

theorem KeepsOr.of_afterOk {x : ExceptT Fault (StateM σ) α}
    (h : ∀ s, AfterOk x s fun _ => R s) : KeepsOr R x :=
  .of_afterOr fun s => AfterOr.mono (h s) (fun _ _ h => h) fun _ _ => False.elim

/-- What cannot stop with a fault does not do so where it might. -/
theorem succeeds_lift (x : StateM σ α) (s : σ) :
    Succeeds (liftM x : ExceptT Fault (StateM σ) α) s :=
  trivial

/-- What holds if nothing stops the computation may be shown from where its first step leads. -/
theorem KeepsOr.bind_after
    {x : ExceptT Fault (StateM σ) α} {f : α → ExceptT Fault (StateM σ) β} {s : σ}
    {post : β → σ → Prop} (hx : KeepsOr R x)
    (hf : ∀ a s₁, R s s₁ → AfterOr (f a) s₁ post fun _ _ => True) :
    AfterOr (x >>= f) s post fun _ _ => True :=
  AfterOr.bind (AfterOr.forget (hx.afterOr s)) hf

/-- Two things that hold after a computation. -/
theorem AfterOr.and {x : ExceptT Fault (StateM σ) α} {s : σ} {post post' : α → σ → Prop}
    {stopped stopped' : Fault → σ → Prop} (h : AfterOr x s post stopped)
    (h' : AfterOr x s post' stopped') :
    AfterOr x s (fun a s' => post a s' ∧ post' a s')
      fun fault s' => stopped fault s' ∧ stopped' fault s' := by
  refine After.mono (After.and h h') ?_
  rintro (fault | a) s' hs'
  · exact hs'
  · exact hs'

/-- What a computation does to states may be added to what holds after it. -/
theorem AfterOr.of_keepsOr {x : ExceptT Fault (StateM σ) α} {s : σ} {post : α → σ → Prop}
    {stopped : Fault → σ → Prop} (hx : KeepsOr R x) (h : AfterOr x s post stopped) :
    AfterOr x s (fun a s' => R s s' ∧ post a s') fun fault s' => R s s' ∧ stopped fault s' :=
  (hx.afterOr s).and h

theorem AfterOk.of_keepsOr {x : ExceptT Fault (StateM σ) α} {s : σ} {post : α → σ → Prop}
    (hx : KeepsOr R x) (h : AfterOk x s post) :
    AfterOk x s fun a s' => R s s' ∧ post a s' :=
  AfterOr.mono (AfterOr.of_keepsOr hx h) (fun _ _ h => h) fun _ _ h => h.2

theorem StopsAtFirst.of_keepsOr {x : ExceptT Fault (StateM σ) α} {s : σ}
    {faults : List Fault} {post : α → σ → Prop} (hx : KeepsOr R x)
    (h : StopsAtFirst faults x s post) :
    StopsAtFirst faults x s fun a s' => R s s' ∧ post a s' :=
  AfterOr.mono (AfterOr.of_keepsOr hx h) (fun _ _ h => ⟨h.2.1, h.1, h.2.2⟩) fun _ _ h => h.2

/-- A computation that does not stop with a fault, with its relation between states. -/
theorem Succeeds.bind {x : ExceptT Fault (StateM σ) α} {f : α → ExceptT Fault (StateM σ) β}
    {s : σ} {post : β → σ → Prop} (hx : Succeeds x s) (hkeeps : KeepsOr R x)
    (hf : ∀ a s', R s s' → AfterOk (f a) s' post) : AfterOk (x >>= f) s post :=
  AfterOr.bind (AfterOk.of_keepsOr hkeeps hx) fun a s' h => hf a s' h.1

theorem Keeps.bind_ok {x : StateM σ α} {f : α → ExceptT Fault (StateM σ) β} {s : σ}
    {post : β → σ → Prop} (hkeeps : Keeps R x)
    (hf : ∀ a s', R s s' → AfterOk (f a) s' post) :
    AfterOk ((liftM x : ExceptT Fault (StateM σ) α) >>= f) s post :=
  AfterOr.bind (AfterOr.lift (hkeeps.after s)) hf

theorem Succeeds.forM {f : α → ExceptT Fault (StateM σ) PUnit} (xs : List α)
    (h : ∀ a ∈ xs, ∀ s, Succeeds (f a) s) (s : σ) : Succeeds (xs.forM f) s := by
  induction xs generalizing s with
  | nil => trivial
  | cons a xs ih =>
      refine AfterOr.bind (h a List.mem_cons_self s) fun _ s' _ => ?_
      exact ih (fun c hc => h c (List.mem_cons_of_mem a hc)) s'

theorem Keeps.map {x : StateM σ α} (f : α → β) (hx : Keeps R x) : Keeps R (f <$> x) :=
  ⟨hx.after⟩

/-- Looking at the state changes nothing. -/
theorem Keeps.get_bind {f : σ → StateM σ β} (hf : ∀ s, Keeps R (f s)) :
    Keeps R (get >>= f) :=
  ⟨fun s => (hf s).after s⟩

theorem KeepsOr.get_bind {f : σ → ExceptT Fault (StateM σ) β} (hf : ∀ s, KeepsOr R (f s)) :
    KeepsOr R (get >>= f) :=
  ⟨fun s => (hf s).after s⟩

theorem KeepsOr.lift {x : StateM σ α} (hx : Keeps R x) :
    KeepsOr R (liftM x : ExceptT Fault (StateM σ) α) :=
  ⟨hx.after⟩

variable [IsPreorder σ R]

theorem Keeps.pure (a : α) : Keeps R (Pure.pure a : StateM σ α) :=
  ⟨fun s => refl_of R s⟩

theorem Keeps.bind {x : StateM σ α} {f : α → StateM σ β} (hx : Keeps R x)
    (hf : ∀ a, Keeps R (f a)) : Keeps R (x >>= f) :=
  ⟨fun s => trans_of R (hx.after s) ((hf _).after _)⟩

theorem Keeps.mapM {f : α → StateM σ β} (xs : List α) (h : ∀ a ∈ xs, Keeps R (f a)) :
    Keeps R (xs.mapM f) := by
  induction xs with
  | nil => exact Keeps.pure []
  | cons a xs ih =>
      rw [List.mapM_cons]
      refine (h a List.mem_cons_self).bind fun b => ?_
      exact (ih fun c hc => h c (List.mem_cons_of_mem a hc)).bind fun bs => Keeps.pure _

/-- A computation for what an option holds. -/
theorem Keeps.optionMapM {f : α → StateM σ β} (o : Option α) (h : ∀ a ∈ o, Keeps R (f a)) :
    Keeps R (o.mapM f) := by
  cases o with
  | none => exact Keeps.pure none
  | some a => exact (h a rfl).map some

/-- Computations that cannot stop with a fault, one after the other, are one of this kind. -/
theorem mapM_liftM (f : α → StateM σ β) (xs : List α) :
    (xs.mapM fun a => (liftM (f a) : ExceptT Fault (StateM σ) β)) = liftM (xs.mapM f) := by
  induction xs with
  | nil => rfl
  | cons a xs ih =>
      rw [List.mapM_cons, List.mapM_cons, ih]
      rfl

/-- Steps that cannot stop with a fault do not do so one after the other either. -/
theorem AfterOk.mapM_lift {f : α → StateM σ β} (xs : List α) (h : ∀ a ∈ xs, Keeps R (f a))
    {s : σ} :
    AfterOk (xs.mapM fun a => (liftM (f a) : ExceptT Fault (StateM σ) β)) s fun _ => R s := by
  rw [mapM_liftM]
  exact AfterOr.lift ((Keeps.mapM xs h).after s)

theorem AfterOk.optionMapM_lift {f : α → StateM σ β} (o : Option α)
    (h : ∀ a ∈ o, Keeps R (f a)) {s : σ} :
    AfterOk (o.mapM fun a => (liftM (f a) : ExceptT Fault (StateM σ) β)) s fun _ => R s := by
  cases o with
  | none => exact refl_of R s
  | some a => exact afterOr_map.mpr (AfterOr.lift ((h a rfl).after s))

theorem KeepsOr.pure (a : α) : KeepsOr R (Pure.pure a : ExceptT Fault (StateM σ) α) :=
  Keeps.pure (R := R) (Except.ok a)

theorem KeepsOr.throw (fault : Fault) :
    KeepsOr R (throw fault : ExceptT Fault (StateM σ) α) :=
  Keeps.pure (R := R) (Except.error fault)

theorem KeepsOr.bind {x : ExceptT Fault (StateM σ) α} {f : α → ExceptT Fault (StateM σ) β}
    (hx : KeepsOr R x) (hf : ∀ a, KeepsOr R (f a)) : KeepsOr R (x >>= f) := by
  unfold KeepsOr
  rw [ExceptT.run_bind]
  refine Keeps.bind hx ?_
  rintro (fault | a)
  · exact Keeps.pure _
  · exact hf a

theorem KeepsOr.map {x : ExceptT Fault (StateM σ) α} (f : α → β) (hx : KeepsOr R x) :
    KeepsOr R (f <$> x) := by
  rw [map_eq_pure_bind]
  exact hx.bind fun a => KeepsOr.pure _

theorem KeepsOr.mapM {f : α → ExceptT Fault (StateM σ) β} (xs : List α)
    (h : ∀ a ∈ xs, KeepsOr R (f a)) : KeepsOr R (xs.mapM f) := by
  induction xs with
  | nil => exact KeepsOr.pure []
  | cons a xs ih =>
      rw [List.mapM_cons]
      refine (h a List.mem_cons_self).bind fun b => ?_
      exact (ih fun c hc => h c (List.mem_cons_of_mem a hc)).bind fun bs => KeepsOr.pure _

theorem KeepsOr.forM {f : α → ExceptT Fault (StateM σ) PUnit} (xs : List α)
    (h : ∀ a ∈ xs, KeepsOr R (f a)) : KeepsOr R (xs.forM f) := by
  induction xs with
  | nil => exact KeepsOr.pure PUnit.unit
  | cons a xs ih =>
      exact (h a List.mem_cons_self).bind fun _ => ih fun c hc => h c (List.mem_cons_of_mem a hc)

theorem KeepsOr.optionMapM {f : α → ExceptT Fault (StateM σ) β} (o : Option α)
    (h : ∀ a ∈ o, KeepsOr R (f a)) : KeepsOr R (o.mapM f) := by
  cases o with
  | none => exact KeepsOr.pure none
  | some a => exact (h a rfl).map some

end Keeps

/-- Steps of which each settles something for good, one after the other. -/
theorem AfterOr.forM_each {R : σ → σ → Prop} [IsPreorder σ R]
    {f : α → ExceptT Fault (StateM σ) PUnit} {settled : α → σ → Prop} (xs : List α) {s : σ}
    (hstep : ∀ a ∈ xs, ∀ s', R s s' →
      AfterOr (f a) s' (fun _ s'' => R s' s'' ∧ settled a s'') fun _ s'' => R s' s'')
    (hstable : ∀ a s' s'', R s' s'' → settled a s' → settled a s'') :
    AfterOr (xs.forM f) s (fun _ s' => R s s' ∧ ∀ a ∈ xs, settled a s') fun _ s' => R s s' := by
  suffices h : ∀ s₁, R s s₁ → AfterOr (xs.forM f) s₁
      (fun _ s' => R s s' ∧ R s₁ s' ∧ ∀ a ∈ xs, settled a s') fun _ s' => R s s' from
    AfterOr.imp (h s (refl_of R s)) fun _ _ h => ⟨h.1, h.2.2⟩
  induction xs with
  | nil => exact fun s₁ h₁ => ⟨h₁, refl_of R s₁, fun _ h => absurd h List.not_mem_nil⟩
  | cons a xs ih =>
      intro s₁ h₁
      refine AfterOr.bind (AfterOr.mono (hstep a List.mem_cons_self s₁ h₁) (fun _ _ h => h)
        fun _ _ h => trans_of R h₁ h) fun _ s₂ h₂ => ?_
      have hrest := ih (fun c hc => hstep c (List.mem_cons_of_mem a hc)) s₂ (trans_of R h₁ h₂.1)
      refine AfterOr.imp hrest fun _ s₃ h₃ => ?_
      refine ⟨h₃.1, trans_of R h₂.1 h₃.2.1, fun c hc => ?_⟩
      rcases List.mem_cons.mp hc with rfl | hc
      · exact hstable c s₂ s₃ h₃.2.1 h₂.2
      · exact h₃.2.2 c hc

theorem After.mapM_each {R : σ → σ → Prop} [IsPreorder σ R] {f : α → StateM σ β}
    {settled : α → σ → Prop} (xs : List α) {s : σ}
    (hstep : ∀ a ∈ xs, ∀ s', R s s' → After (f a) s' fun _ s'' => R s' s'' ∧ settled a s'')
    (hstable : ∀ a s' s'', R s' s'' → settled a s' → settled a s'') :
    After (xs.mapM f) s fun _ s' => R s s' ∧ ∀ a ∈ xs, settled a s' := by
  induction xs generalizing s with
  | nil => exact ⟨refl_of R s, fun _ h => absurd h List.not_mem_nil⟩
  | cons a xs ih =>
      rw [List.mapM_cons]
      refine (hstep a List.mem_cons_self s (refl_of R s)).bind fun b s₁ h₁ => ?_
      refine (ih (s := s₁) fun c hc s' h' => ?_).bind fun bs s₂ h₂ => ?_
      · exact hstep c (List.mem_cons_of_mem a hc) s' (trans_of R h₁.1 h')
      · refine ⟨trans_of R h₁.1 h₂.1, fun c hc => ?_⟩
        rcases List.mem_cons.mp hc with rfl | hc
        · exact hstable c s₁ s₂ h₂.1 h₁.2
        · exact h₂.2 c hc

theorem After.mapM_length {f : α → StateM σ β} (xs : List α) (s : σ) :
    After (xs.mapM f) s fun ys _ => ys.length = xs.length := by
  induction xs generalizing s with
  | nil => rfl
  | cons a xs ih =>
      have hfirst : After (f a) s fun _ _ => True := True.intro
      rw [List.mapM_cons]
      refine hfirst.bind fun b s₁ _ => (ih s₁).bind fun bs s₂ hlength => ?_
      exact congrArg Nat.succ hlength

/-! ## Relations from some states on -/

/-- The second state is related to the first one provided that something holds of the first
one. -/
def From (p : σ → Prop) (R : σ → σ → Prop) (s s' : σ) : Prop := p s → R s s'

/-- What holds of a state holds of all that are related to it. -/
class Stable (p : σ → Prop) (R : σ → σ → Prop) : Prop where
  stable : ∀ {s s'}, R s s' → p s → p s'

section From

variable {p : σ → Prop} {R : σ → σ → Prop}

theorem Keeps.from {x : StateM σ α} (hx : Keeps R x) : Keeps (From p R) x :=
  hx.mono fun _ _ h _ => h

theorem KeepsOr.from {x : ExceptT Fault (StateM σ) α} (hx : KeepsOr R x) :
    KeepsOr (From p R) x :=
  hx.mono fun _ _ h _ => h

variable [IsPreorder σ R]

instance [Stable p R] : IsPreorder σ (From p R) where
  refl s _ := refl_of R s
  trans _ _ _ h h' hs := trans_of R (h hs) (h' (Stable.stable (h hs) hs))

/-- A first step that makes something hold on which the next ones depend. -/
theorem Keeps.bind_from {q : α → σ → Prop} {x : StateM σ α} {f : α → StateM σ β}
    (hx : ∀ s, p s → After x s fun a s' => R s s' ∧ q a s')
    (hf : ∀ a, Keeps (From (q a) R) (f a)) : Keeps (From p R) (x >>= f) := by
  constructor
  intro s
  have hfirst : After x s fun a s' => p s → R s s' ∧ q a s' := hx s
  refine After.bind hfirst fun a s' h => ?_
  exact ((hf a).after s').mono fun b s'' h' hs => trans_of R (h hs).1 (h' (h hs).2)

theorem KeepsOr.bind_from {q : α → σ → Prop} {x : ExceptT Fault (StateM σ) α}
    {f : α → ExceptT Fault (StateM σ) β}
    (hx : ∀ s, p s → AfterOr x s (fun a s' => R s s' ∧ q a s') fun _ s' => R s s')
    (hf : ∀ a, KeepsOr (From (q a) R) (f a)) : KeepsOr (From p R) (x >>= f) := by
  refine KeepsOr.of_afterOr fun s => ?_
  by_cases hs : p s
  · refine AfterOr.bind (AfterOr.mono (hx s hs) (fun _ _ h => h) fun _ _ h _ => h)
      fun a s' h => ?_
    exact AfterAny.mono ((hf a).afterOr s') fun s'' h' _ => trans_of R h.1 (h' h.2)
  · exact AfterOr.mono (AfterOr.trivial _ s) (fun _ _ _ h => absurd h hs)
      fun _ _ _ h => absurd h hs

end From

/-! ## Relations and invariants -/

/-- From every state the computation leads to a related one, and unless it stops with a
fault it keeps a property of states. -/
structure Upholds (R : σ → σ → Prop) (p : σ → Prop) (x : ExceptT Fault (StateM σ) α) : Prop where
  afterOr : ∀ s, AfterOr x s (fun _ s' => R s s' ∧ (p s → p s')) fun _ => R s

section Upholds

variable {R : σ → σ → Prop} {p : σ → Prop}

theorem Upholds.keepsOr {x : ExceptT Fault (StateM σ) α} (h : Upholds R p x) : KeepsOr R x :=
  .of_afterOr fun s => AfterOr.imp (h.afterOr s) fun _ _ h => h.1

/-- From a state with the property. -/
theorem Upholds.preserves
    {x : ExceptT Fault (StateM σ) α} (h : Upholds R p x) {s : σ} (hs : p s) :
    AfterOr x s (fun _ s' => p s') fun _ _ => True :=
  AfterOr.relax (h.afterOr s) fun _ _ h => h.2 hs

variable [IsPreorder σ R]

theorem Upholds.pure (a : α) : Upholds R p (Pure.pure a : ExceptT Fault (StateM σ) α) :=
  ⟨fun s => ⟨refl_of R s, id⟩⟩

theorem Upholds.throw (fault : Fault) :
    Upholds R p (throw fault : ExceptT Fault (StateM σ) α) :=
  ⟨fun s => refl_of R s⟩

/-- A step that only looks at the state, or stops. -/
theorem Upholds.of_reads {x : ExceptT Fault (StateM σ) α}
    (h : ∀ s, AfterOr x s (fun _ s' => s = s') fun _ s' => s = s') : Upholds R p x := by
  refine ⟨fun s => AfterOr.mono (h s) ?_ ?_⟩
  · rintro a _ rfl
    exact ⟨refl_of R s, id⟩
  · rintro fault _ rfl
    exact refl_of R s

theorem Upholds.bind {x : ExceptT Fault (StateM σ) α} {f : α → ExceptT Fault (StateM σ) β}
    (hx : Upholds R p x) (hf : ∀ a, Upholds R p (f a)) : Upholds R p (x >>= f) := by
  refine ⟨fun s => AfterOr.bind (hx.afterOr s) fun a s₁ h₁ => ?_⟩
  refine AfterOr.mono ((hf a).afterOr s₁) (fun b s₂ h₂ => ?_) fun fault s₂ h₂ => ?_
  · exact ⟨trans_of R h₁.1 h₂.1, fun hs => h₂.2 (h₁.2 hs)⟩
  · exact trans_of R h₁.1 h₂

theorem Upholds.forM {f : α → ExceptT Fault (StateM σ) PUnit} (xs : List α)
    (h : ∀ a, Upholds R p (f a)) : Upholds R p (xs.forM f) := by
  induction xs with
  | nil => exact Upholds.pure _
  | cons a xs ih => exact (h a).bind fun _ => ih

end Upholds

/-! ## Visits -/

/-- On the way from one state to another one thing happens once, and before and after it the
states are related. -/
def Visits (R T : σ → σ → Prop) (s s' : σ) : Prop :=
  ∃ s₀ s₁, R s s₀ ∧ T s₀ s₁ ∧ R s₁ s'

section Visits

variable {R T : σ → σ → Prop} [IsPreorder σ R] {s s' : σ}

theorem Visits.of_visit (h : T s s') : Visits R T s s' :=
  ⟨s, s', refl_of R s, h, refl_of R s'⟩

omit [IsPreorder σ R] in
theorem Visits.imp
    {T' : σ → σ → Prop} (h : Visits R T s s')
    (himp : ∀ {s₀ s₁}, R s s₀ → T s₀ s₁ → T' s₀ s₁) :
    Visits R T' s s' := by
  obtain ⟨s₀, s₁, h₀, hvisit, h₁⟩ := h
  exact ⟨s₀, s₁, h₀, himp h₀ hvisit, h₁⟩

theorem Visits.after {s₁ s' : σ} (h₁ : R s s₁) (h : Visits R T s₁ s') : Visits R T s s' := by
  obtain ⟨s₂, s₃, h₂, hvisit, h₃⟩ := h
  exact ⟨s₂, s₃, trans_of R h₁ h₂, hvisit, h₃⟩

theorem Visits.before {s₃ s' : σ} (h : Visits R T s s₃) (h₃ : R s₃ s') : Visits R T s s' := by
  obtain ⟨s₁, s₂, h₁, hvisit, h₂⟩ := h
  exact ⟨s₁, s₂, h₁, hvisit, trans_of R h₂ h₃⟩

/-- A computation that stops with no fault gives the result that it gives. -/
theorem AfterOr.run_eq (x : ExceptT Fault (StateM σ) α) (s : σ) :
    AfterOr x s (fun a s' => x.run.run s = (.ok a, s')) fun _ _ => True := by
  unfold AfterOr After
  generalize x.run.run s = outcome
  obtain ⟨fault | a, s'⟩ := outcome
  · trivial
  · rfl

/-- The visit may come after a step that leads to a related state. -/
theorem KeepsOr.bind_visits
    {x : ExceptT Fault (StateM σ) α} {f : α → ExceptT Fault (StateM σ) β} (hx : KeepsOr R x)
    (hf : ∀ a s₁, R s s₁ → AfterOr (f a) s₁ (fun _ => Visits R T s₁) fun _ _ => True) :
    AfterOr (x >>= f) s (fun _ => Visits R T s) fun _ _ => True := by
  refine hx.bind_after fun a s₁ h₁ => ?_
  exact AfterOr.imp (hf a s₁ h₁) fun _ _ h => h.after h₁

/-- The visit may come before steps that lead to related states. -/
theorem AfterOr.visits_bind
    {x : ExceptT Fault (StateM σ) α} {f : α → ExceptT Fault (StateM σ) β}
    (hx : AfterOr x s (fun _ => Visits R T s) fun _ _ => True) (hf : ∀ a, KeepsOr R (f a)) :
    AfterOr (x >>= f) s (fun _ => Visits R T s) fun _ _ => True := by
  refine AfterOr.bind hx fun a s₃ h => ?_
  exact AfterOr.relax ((hf a).afterOr s₃) fun _ _ h₃ => h.before h₃

/-- Of several steps, one after the other, the one with a certain key is the visit. -/
theorem AfterOr.forM_visits
    {κ : Type} {f : α → ExceptT Fault (StateM σ) PUnit} {p : σ → Prop} {key : α → κ}
    {xs : List α} (hnodup : (xs.map key).Nodup) {a : α} (ha : a ∈ xs)
    (hother : ∀ b ∈ xs, key b ≠ key a → KeepsOr R (f b))
    (hstable : ∀ {s s'}, R s s' → p s → p s')
    (hvisit : ∀ s, p s → AfterOr (f a) s (fun _ => Visits R T s) fun _ _ => True) (hs : p s) :
    AfterOr (xs.forM f) s (fun _ => Visits R T s) fun _ _ => True := by
  refine AfterOr.forM_at (p := fun s₁ => R s s₁ ∧ p s₁) (q := Visits R T s) hnodup ha ?_ ?_ ?_
    ⟨refl_of R s, hs⟩
  · rintro b hb hne s₁ ⟨h₁, hp⟩
    refine AfterOr.relax ((hother b hb hne).afterOr s₁) fun _ s₂ h₂ => ?_
    exact ⟨trans_of R h₁ h₂, hstable h₂ hp⟩
  · rintro s₁ ⟨h₁, hp⟩
    exact AfterOr.imp (hvisit s₁ hp) fun _ _ h => h.after h₁
  · intro b hb hne s₁ h
    exact AfterOr.relax ((hother b hb hne).afterOr s₁) fun _ _ h₂ => h.before h₂

end Visits

end DeclAnalysis
