import DeclAnalysis.Proofs.Computation

/-!
# Computations with a log

What a computation does to a state may be given by a log: a list of entries of which each does its
part, one after the other. The log of a sequence of computations is that of the first one followed
by that of the second one, so that it can be read off the text of a computation.
-/

namespace DeclAnalysis

variable {ι σ α β : Type}

/-- A relation between states for every log, which holds again after two stretches for their logs
one after the other. -/
class Appends (R : List ι → σ → σ → Prop) : Prop where
  refl : ∀ s, R [] s s
  append : ∀ {xs ys s s' s''}, R xs s s' → R ys s' s'' → R (xs ++ ys) s s''

/-- The computation does to every state what its log says. -/
def Logs (R : List ι → σ → σ → Prop) (xs : List ι) (x : StateM σ α) : Prop := Keeps (R xs) x

/-- Unless it stops with a fault, the computation does to every state what its log says. -/
def LogsOr (R : List ι → σ → σ → Prop) (xs : List ι) (x : ExceptT Fault (StateM σ) α) : Prop :=
  ∀ s, AfterOr x s (fun _ => R xs s) fun _ _ => True

variable {R : List ι → σ → σ → Prop} {xs ys : List ι}

section

variable [Appends R]

/-- Steps after which nothing is entered in the log. -/
instance Appends.isPreorder : IsPreorder σ (R []) where
  refl := Appends.refl
  trans _ _ _ h h' := Appends.append h h'

namespace Logs

theorem pure (a : α) : Logs R [] (Pure.pure a : StateM σ α) := ⟨fun s => Appends.refl s⟩

theorem bind {x : StateM σ α} (hx : Logs R xs x) {f : α → StateM σ β}
    (hf : ∀ a, Logs R ys (f a)) : Logs R (xs ++ ys) (x >>= f) :=
  ⟨fun s => Appends.append (hx.after s) ((hf _).after _)⟩

/-- Nothing is entered in the log at first. -/
theorem bind_first {x : StateM σ α} (hx : Logs R [] x) {f : α → StateM σ β}
    (hf : ∀ a, Logs R xs (f a)) : Logs R xs (x >>= f) :=
  hx.bind hf

/-- Nothing is entered in the log at last. -/
theorem bind_last {x : StateM σ α} (hx : Logs R xs x) {f : α → StateM σ β}
    (hf : ∀ a, Logs R [] (f a)) : Logs R xs (x >>= f) := by
  rw [← List.append_nil xs]
  exact hx.bind hf

omit [Appends R] in
theorem get_bind {f : σ → StateM σ β} (hf : ∀ s, Logs R xs (f s)) : Logs R xs (get >>= f) :=
  Keeps.get_bind hf

omit [Appends R] in
theorem map {x : StateM σ α} (hx : Logs R xs x) (f : α → β) : Logs R xs (f <$> x) :=
  Keeps.map f hx

end Logs

namespace LogsOr

theorem pure (a : α) : LogsOr R [] (Pure.pure a : ExceptT Fault (StateM σ) α) :=
  fun s => Appends.refl s

omit [Appends R] in
theorem throw (fault : Fault) : LogsOr R xs (throw fault : ExceptT Fault (StateM σ) α) :=
  fun _ => trivial

omit [Appends R] in
theorem lift {x : StateM σ α} (hx : Logs R xs x) :
    LogsOr R xs (liftM x : ExceptT Fault (StateM σ) α) :=
  fun s => AfterOr.lift (hx.after s)

theorem bind {x : ExceptT Fault (StateM σ) α} (hx : LogsOr R xs x)
    {f : α → ExceptT Fault (StateM σ) β} (hf : ∀ a, LogsOr R ys (f a)) :
    LogsOr R (xs ++ ys) (x >>= f) := by
  intro s
  refine AfterOr.bind (hx s) fun a s₁ h₁ => ?_
  exact AfterOr.imp (hf a s₁) fun _ _ h₂ => Appends.append h₁ h₂

theorem bind_first {x : ExceptT Fault (StateM σ) α} (hx : LogsOr R [] x)
    {f : α → ExceptT Fault (StateM σ) β} (hf : ∀ a, LogsOr R xs (f a)) : LogsOr R xs (x >>= f) :=
  hx.bind hf

theorem bind_last {x : ExceptT Fault (StateM σ) α} (hx : LogsOr R xs x)
    {f : α → ExceptT Fault (StateM σ) β} (hf : ∀ a, LogsOr R [] (f a)) : LogsOr R xs (x >>= f) := by
  rw [← List.append_nil xs]
  exact hx.bind hf

omit [Appends R] in
theorem get_bind {f : σ → ExceptT Fault (StateM σ) β} (hf : ∀ s, LogsOr R xs (f s)) :
    LogsOr R xs (get >>= f) :=
  fun s => hf s s

/-- The log of several computations, one after the other. -/
theorem forM {κ : Type} {f : κ → ExceptT Fault (StateM σ) PUnit} {log : κ → List ι} (ks : List κ)
    (h : ∀ k ∈ ks, LogsOr R (log k) (f k)) : LogsOr R (ks.flatMap log) (ks.forM f) := by
  induction ks with
  | nil => exact .pure PUnit.unit
  | cons k ks ih =>
      exact (h k List.mem_cons_self).bind fun _ => ih fun l hl => h l (List.mem_cons_of_mem k hl)

/-- Nothing is entered in the log. -/
theorem forM_none {κ : Type} {f : κ → ExceptT Fault (StateM σ) PUnit} (ks : List κ)
    (h : ∀ k ∈ ks, LogsOr R [] (f k)) : LogsOr R [] (ks.forM f) := by
  have hforM := forM ks h
  rwa [List.flatMap_eq_nil_iff.mpr fun _ _ => rfl] at hforM

end LogsOr

end

/-- Computations one after the other, of which each leads on to what is left. What a single one
does, put before what those that are left do, is what they do together. -/
theorem AfterOr.forM_rec
    {f : α → ExceptT Fault (StateM σ) PUnit} {p : List α → σ → Prop} {R : List α → σ → σ → Prop}
    (hnil : ∀ s, p [] s → R [] s s)
    (hcons : ∀ a rest s, p (a :: rest) s → AfterOr (f a) s
      (fun _ s' => p rest s' ∧ ∀ s'', R rest s' s'' → R (a :: rest) s s'') fun _ _ => True)
    (xs : List α) {s : σ} (hs : p xs s) :
    AfterOr (xs.forM f) s (fun _ s' => p [] s' ∧ R xs s s') fun _ _ => True := by
  induction xs generalizing s with
  | nil => exact ⟨hs, hnil s hs⟩
  | cons a rest ih =>
      refine AfterOr.bind (hcons a rest s hs) fun _ s₁ h₁ => ?_
      exact AfterOr.imp (ih h₁.1) fun _ s₂ h₂ => ⟨h₂.1, h₁.2 s₂ h₂.2⟩

/-! ## Logs from some states on -/

section

variable {p : σ → Prop} [Appends R]

instance [∀ xs, Stable p (R xs)] : Appends fun xs => From p (R xs) where
  refl s _ := Appends.refl s
  append h h' hs := Appends.append (h hs) (h' (Stable.stable (h hs) hs))

/-- A first step that makes something hold on which the next ones depend. -/
theorem Logs.bind_from
    {q : α → σ → Prop} {x : StateM σ α} {f : α → StateM σ β}
    (hx : ∀ s, p s → After x s fun a s' => R [] s s' ∧ q a s')
    (hf : ∀ a, Logs (fun xs => From (q a) (R xs)) xs (f a)) :
    Logs (fun xs => From p (R xs)) xs (x >>= f) := by
  constructor
  intro s
  have hfirst : After x s fun a s' => p s → R [] s s' ∧ q a s' := hx s
  refine After.bind hfirst fun a s₁ h₁ => ?_
  refine ((hf a).after s₁).mono fun _ s₂ h₂ hs => ?_
  exact Appends.append (h₁ hs).1 (h₂ (h₁ hs).2)

theorem LogsOr.bind_from
    {q : α → σ → Prop} {x : ExceptT Fault (StateM σ) α} {f : α → ExceptT Fault (StateM σ) β}
    (hx : ∀ s, p s → AfterOr x s (fun a s' => R [] s s' ∧ q a s') fun _ _ => True)
    (hf : ∀ a, LogsOr (fun xs => From (q a) (R xs)) xs (f a)) :
    LogsOr (fun xs => From p (R xs)) xs (x >>= f) := by
  intro s
  by_cases hs : p s
  · refine AfterOr.bind (hx s hs) fun a s₁ h₁ => ?_
    refine AfterOr.imp (hf a s₁) fun _ s₂ h₂ _ => ?_
    exact Appends.append h₁.1 (h₂ h₁.2)
  · exact AfterOr.relax (AfterOr.trivial _ s) fun _ _ _ h => absurd h hs

end

end DeclAnalysis
