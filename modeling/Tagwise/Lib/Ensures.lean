import Tagwise.Lib.Prog

/-! What a program ensures of a part of the service that nobody else writes, however
the rest of it moves between the program's commands. -/

namespace Tagwise.Lib.Prog

variable {C : Type} {R : C → Type} {ε α β σ τ : Type}
variable (handle : σ → (c : C) → Option (σ × R c)) (view : σ → τ)

/-- With its own part at `t`, the program can only end with `Q`. -/
def Ensures (Q : Except ε α → τ → Prop) : Prog C R ε α → τ → Prop
  | done a, t => Q (.ok a) t
  | fail e, t => Q (.error e) t
  | call c k, t => ∀ s s' r, view s = t → handle s c = some (s', r) → (k r).Ensures Q (view s')

variable {handle view}

theorem ensures_mono {Q Q' : Except ε α → τ → Prop} (hq : ∀ r t, Q r t → Q' r t)
    {p : Prog C R ε α} {t : τ} (h : p.Ensures handle view Q t) : p.Ensures handle view Q' t := by
  induction p generalizing t with
  | done a => exact hq _ _ h
  | fail e => exact hq _ _ h
  | call c k ih => exact fun s s' r hv hh => ih r (h s s' r hv hh)

theorem ensures_call {Q : Except ε α → τ → Prop} {c : C} {k : R c → Prog C R ε α} {s s' : σ}
    {r : R c} (h : (call c k).Ensures handle view Q (view s)) (hh : handle s c = some (s', r)) :
    (k r).Ensures handle view Q (view s') := h s s' r rfl hh

theorem ensures_bind {Q : Except ε α → τ → Prop} {Q' : Except ε β → τ → Prop}
    {p : Prog C R ε α} {f : α → Prog C R ε β} {t : τ} (hp : p.Ensures handle view Q t)
    (hok : ∀ a t', Q (.ok a) t' → (f a).Ensures handle view Q' t')
    (herr : ∀ e t', Q (.error e) t' → Q' (.error e) t') :
    (p >>= f).Ensures handle view Q' t := by
  induction p generalizing t with
  | done a => exact hok a t hp
  | fail e => exact herr e t hp
  | call c k ih => exact fun s s' r hv hh => ih r (hp s s' r hv hh)

/-- A run from start to end is one of the runs meant. -/
theorem ensures_run {Q : Except ε α → τ → Prop} {p : Prog C R ε α} {s s' : σ} {r : Except ε α}
    (h : p.Ensures handle view Q (view s)) (hr : p.run handle s = some (s', r)) :
    Q r (view s') := by
  induction p generalizing s with
  | done a =>
    cases hr
    exact h
  | fail e =>
    cases hr
    exact h
  | call c k ih =>
    rw [run] at hr
    cases hh : handle s c with
    | none =>
      rw [hh] at hr
      cases hr
    | some reply =>
      rw [hh] at hr
      exact ih reply.2 (ensures_call h hh) hr

/-- A service that answers each of the program's commands sees it through. -/
theorem run_answered {p : Prog C R ε α}
    (h : p.Always (fun c => ∀ s, ∃ s' r, handle s c = some (s', r))) (s : σ) :
    ∃ s' r, p.run handle s = some (s', r) := by
  induction p generalizing s with
  | done a => exact ⟨s,_,rfl⟩
  | fail e => exact ⟨s,_,rfl⟩
  | call c k ih =>
    obtain ⟨s',r,hh⟩ := h.1 s
    rw [run_call hh]
    exact ih r (h.2 r) s'

/-- Commands that keep off the part leave it alone together. -/
theorem ensures_apart {p : Prog C R ε α} {t : τ}
    (h : p.Always (fun c => ∀ s s' r, handle s c = some (s', r) → view s' = view s)) :
    p.Ensures handle view (fun _ t' => t' = t) t := by
  induction p with
  | done a => rfl
  | fail e => rfl
  | call c k ih =>
    intro s s' r hv hh
    rw [h.1 s s' r hh, hv]
    exact ih r (h.2 r)

variable (handle view) in
/-- The program returns with `Q`, or throws and has left its part as it was. -/
def Atomic (Q : α → τ → Prop) (p : Prog C R ε α) (t : τ) : Prop :=
  p.Ensures handle view (fun r t' => match r with
    | .ok a => Q a t'
    | .error _ => t' = t) t

theorem atomic_mono {Q Q' : α → τ → Prop} (hq : ∀ a t, Q a t → Q' a t) {p : Prog C R ε α} {t : τ}
    (h : p.Atomic handle view Q t) : p.Atomic handle view Q' t := by
  refine ensures_mono (fun r t' hr => ?_) h
  cases r with
  | ok a => exact hq a t' hr
  | error e => exact hr

/-- A program that only reads comes before the rest. -/
theorem atomic_bind {P : α → Prop} {Q : β → τ → Prop} {p : Prog C R ε α} {f : α → Prog C R ε β}
    {t : τ} (hp : p.Atomic handle view (fun a t' => t' = t ∧ P a) t)
    (hf : ∀ a, P a → (f a).Atomic handle view Q t) : (p >>= f).Atomic handle view Q t := by
  apply ensures_bind hp
  · intro a t' h
    obtain ⟨rfl,ha⟩ := h
    exact hf a ha
  · intro e t' h
    exact h

section Embed
variable {C' : Type} {R' : C' → Type} {ε' σ' : Type}
variable {handle' : σ' → (c : C') → Option (σ' × R' c)} {view' : σ' → τ} {f : C → C'}
variable {reply : ∀ c, R' (f c) → R c} {err : ε → ε'} (inner : σ' → σ)

/-- The same program over a service that has the first one inside it. -/
theorem ensures_embed (hview : ∀ s, view (inner s) = view' s)
    (hhandle : ∀ s c s' r, handle' s (f c) = some (s', r) →
      handle (inner s) c = some (inner s', reply c r))
    {Q : Except ε' α → τ → Prop} {p : Prog C R ε α} {t : τ}
    (h : p.Ensures handle view (fun r t' => Q (r.mapError err) t') t) :
    (p.embed f reply err).Ensures handle' view' Q t := by
  induction p generalizing t with
  | done a => exact h
  | fail e => exact h
  | call c k ih =>
    intro s s' r hv hh
    have hnext := h (inner s) (inner s') (reply c r) ((hview s).trans hv) (hhandle s c s' r hh)
    rw [hview] at hnext
    exact ih _ hnext

theorem atomic_embed (hview : ∀ s, view (inner s) = view' s)
    (hhandle : ∀ s c s' r, handle' s (f c) = some (s', r) →
      handle (inner s) c = some (inner s', reply c r))
    {Q : α → τ → Prop} {p : Prog C R ε α} {t : τ} (h : p.Atomic handle view Q t) :
    (p.embed f reply err).Atomic handle' view' Q t := by
  refine ensures_embed inner hview hhandle (ensures_mono (fun r t' hr => ?_) h)
  cases r with
  | ok a => exact hr
  | error e => exact hr

end Embed

end Tagwise.Lib.Prog
