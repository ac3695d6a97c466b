import Mathlib.Data.List.Forall2
import Tagwise.Lib.Prog

/-! Programs run in pairs, each against a state of its own: what the two ends have in
common when the two starts do. Relations between states take the outcomes first, so that
what holds after one pair of programs is what the next pair starts from. -/

namespace Tagwise.Lib

variable {σ X Y : Type}

/-- Both sides have ended, as `Q` says, or neither has. -/
inductive Both (Q : X → Y → σ → σ → Prop) : Option (σ × X) → Option (σ × Y) → Prop
  | stuck : Both Q none none
  | ended {s t : σ} {x : X} {y : Y} (h : Q x y s t) : Both Q (some (s, x)) (some (t, y))

/-- One outcome for both sides, and still related. -/
def Equal (I : σ → σ → Prop) (x y : X) (s t : σ) : Prop := x = y ∧ I s t

theorem Both.mono {Q Q' : X → Y → σ → σ → Prop} (hq : ∀ x y s t, Q x y s t → Q' x y s t)
    {a : Option (σ × X)} {b : Option (σ × Y)} (h : Both Q a b) : Both Q' a b := by
  cases h with
  | stuck => exact .stuck
  | ended h => exact .ended (hq _ _ _ _ h)

theorem Both.symm {Q : X → Y → σ → σ → Prop} {a : Option (σ × X)} {b : Option (σ × Y)}
    (h : Both Q a b) : Both (fun y x t s => Q x y s t) b a := by
  cases h with
  | stuck => exact .stuck
  | ended h => exact .ended h

namespace Prog

variable {C : Type} {R : C → Type} {ε α β γ δ : Type}

/-- The values as `M` relates them, or one exception in states that `I` relates. -/
def Agree (I : σ → σ → Prop) (M : α → β → σ → σ → Prop) :
    Except ε α → Except ε β → σ → σ → Prop
  | .ok a, .ok b => M a b
  | .error e, .error e' => Equal I e e'
  | _, _ => fun _ _ => False

theorem agree_equal {I : σ → σ → Prop} {x y : Except ε α} {s t : σ} :
    Agree I (Equal I) x y s t ↔ Equal I x y s t := by
  cases x <;> cases y <;> simp [Agree, Equal]

variable (handle : σ → (c : C) → Option (σ × R c))

/-- From states that `A` relates, the two programs end together, as `Q` says. -/
def Paired (A : σ → σ → Prop) (p : Prog C R ε α) (q : Prog C R ε β)
    (Q : Except ε α → Except ε β → σ → σ → Prop) : Prop :=
  ∀ s t, A s t → Both Q (p.run handle s) (q.run handle t)

/-- A program that cannot tell apart what `I` relates. -/
def Twin (I : σ → σ → Prop) (p : Prog C R ε α) : Prop := Paired handle I p p (Equal I)

/-- A program that always ends, in the state it began in. -/
def ReadOnly (p : Prog C R ε α) : Prop := ∀ s, ∃ x, p.run handle s = some (s, x)

variable {handle} {A I : σ → σ → Prop} {p : Prog C R ε α} {q : Prog C R ε β}
  {Q : Except ε α → Except ε β → σ → σ → Prop}

theorem Paired.mono {A' : σ → σ → Prop} {Q' : Except ε α → Except ε β → σ → σ → Prop}
    (h : Paired handle A p q Q) (ha : ∀ s t, A' s t → A s t)
    (hq : ∀ x y s t, Q x y s t → Q' x y s t) : Paired handle A' p q Q' :=
  fun s t hs => (h s t (ha s t hs)).mono hq

theorem Paired.symm (h : Paired handle A p q Q) :
    Paired handle (fun t s => A s t) q p (fun y x t s => Q x y s t) :=
  fun t s hs => (h s t hs).symm

theorem paired_done {a : α} {b : β} (h : ∀ s t, A s t → Q (.ok a) (.ok b) s t) :
    Paired handle A (done a) (done b) Q :=
  fun s t hs => .ended (h s t hs)

theorem paired_fail {e e' : ε} (h : ∀ s t, A s t → Q (.error e) (.error e') s t) :
    Paired handle A (fail e : Prog C R ε α) (fail e' : Prog C R ε β) Q :=
  fun s t hs => .ended (h s t hs)

theorem paired_call {c d : C} {k : R c → Prog C R ε α} {l : R d → Prog C R ε β}
    {M : R c → R d → σ → σ → Prop} (hc : ∀ s t, A s t → Both M (handle s c) (handle t d))
    (hk : ∀ r r', Paired handle (M r r') (k r) (l r') Q) :
    Paired handle A (call c k) (call d l) Q := by
  intro s t hs
  have h := hc s t hs
  rw [run, run]
  cases hr : handle s c <;> cases hr' : handle t d <;> rw [hr, hr'] at h <;> cases h
  · exact .stuck
  · next hm => exact hk _ _ _ _ hm

/-- What is known of the first pair is what the second starts from. An exception of the
first is the outcome of the whole. -/
theorem paired_bind {M : α → β → σ → σ → Prop} {f : α → Prog C R ε γ} {g : β → Prog C R ε δ}
    {Q : Except ε γ → Except ε δ → σ → σ → Prop}
    (hp : Paired handle A p q (Agree I M)) (hf : ∀ a b, Paired handle (M a b) (f a) (g b) Q)
    (he : ∀ e s t, I s t → Q (.error e) (.error e) s t) :
    Paired handle A (p >>= f) (q >>= g) Q := by
  intro s t hs
  have h := hp s t hs
  rw [run_bind, run_bind]
  generalize p.run handle s = a at h
  generalize q.run handle t = b at h
  cases h with
  | stuck => exact .stuck
  | @ended s' t' x y h =>
    cases x <;> cases y
    case ok.ok a b => exact hf a b s' t' h
    case error.error e e' =>
      obtain ⟨rfl,hi⟩ := h
      exact .ended (he e s' t' hi)
    all_goals cases h

theorem paired_tryCatch {M : α → β → σ → σ → Prop} {f : ε → Prog C R ε α} {g : ε → Prog C R ε β}
    (hp : Paired handle A p q (Agree I M)) (hf : ∀ e, Paired handle I (f e) (g e) Q)
    (hm : ∀ a b s t, M a b s t → Q (.ok a) (.ok b) s t) :
    Paired handle A (p.tryCatch f) (q.tryCatch g) Q := by
  intro s t hs
  have h := hp s t hs
  rw [run_tryCatch, run_tryCatch]
  generalize p.run handle s = a at h
  generalize q.run handle t = b at h
  cases h with
  | stuck => exact .stuck
  | @ended s' t' x y h =>
    cases x <;> cases y
    case ok.ok a b => exact .ended (hm a b s' t' h)
    case error.error e e' =>
      obtain ⟨rfl,hi⟩ := h
      exact hf e s' t' hi
    all_goals cases h

theorem twin_done (a : α) : Twin handle I (done a : Prog C R ε α) :=
  paired_done (fun _ _ h => ⟨rfl,h⟩)

theorem twin_fail (e : ε) : Twin handle I (fail e : Prog C R ε α) :=
  paired_fail (fun _ _ h => ⟨rfl,h⟩)

theorem twin_call {c : C} {k : R c → Prog C R ε α}
    (hc : ∀ s t, I s t → Both (Equal I) (handle s c) (handle t c))
    (hk : ∀ r, Twin handle I (k r)) : Twin handle I (call c k) := by
  apply paired_call hc
  intro r r' s t hst
  obtain ⟨rfl,h⟩ := hst
  exact hk r s t h

/-- While the first program runs more may be known of the states than in the end. -/
theorem equal_bind {B : σ → σ → Prop} {f : α → Prog C R ε γ}
    (hp : Paired handle A p p (Equal B)) (hi : ∀ s t, B s t → I s t)
    (hf : ∀ a, Paired handle B (f a) (f a) (Equal I)) :
    Paired handle A (p >>= f) (p >>= f) (Equal I) := by
  apply paired_bind (M := Equal B) (hp.mono (fun _ _ h => h) (fun _ _ _ _ h => agree_equal.mpr h))
  · intro a b s t hst
    obtain ⟨rfl,h⟩ := hst
    exact hf a s t h
  · exact fun e s t h => ⟨rfl,hi s t h⟩

theorem twin_bind {f : α → Prog C R ε γ} (hp : Paired handle A p p (Equal I))
    (hf : ∀ a, Twin handle I (f a)) : Paired handle A (p >>= f) (p >>= f) (Equal I) :=
  equal_bind hp (fun _ _ h => h) hf

theorem twin_tryCatch {f : ε → Prog C R ε α} (hp : Paired handle A p p (Equal I))
    (hf : ∀ e, Twin handle I (f e)) : Paired handle A (p.tryCatch f) (p.tryCatch f) (Equal I) := by
  apply paired_tryCatch (M := Equal I)
    (hp.mono (fun _ _ h => h) (fun _ _ _ _ h => agree_equal.mpr h)) hf
  intro a b s t hst
  obtain ⟨rfl,h⟩ := hst
  exact ⟨rfl,h⟩

/-- Commands that keep the states related and reply alike make a program a twin. -/
theorem twin_of_always {P : C → Prop}
    (hc : ∀ c, P c → ∀ s t, I s t → Both (Equal I) (handle s c) (handle t c))
    (hp : p.Always P) : Twin handle I p := by
  induction p with
  | done a => exact twin_done a
  | fail e => exact twin_fail e
  | call c k ih => exact twin_call (hc c hp.1) (fun r => ih r (hp.2 r))

theorem readOnly_of_always {P : C → Prop} (hc : ∀ c, P c → ∀ s, ∃ r, handle s c = some (s, r))
    (hp : p.Always P) : ReadOnly handle p := by
  induction p with
  | done a => exact fun s => ⟨.ok a,rfl⟩
  | fail e => exact fun s => ⟨.error e,rfl⟩
  | call c k ih =>
    intro s
    obtain ⟨r,hr⟩ := hc c hp.1 s
    obtain ⟨x,hx⟩ := ih r (hp.2 r) s
    exact ⟨x,(run_call hr).trans hx⟩

theorem paired_ended {x : Except ε β} (hp : ReadOnly handle p) (hq : ∀ t, q.run handle t = some (t, x))
    (h : ∀ y s t, A s t → Q y x s t) : Paired handle A p q Q := by
  intro s t hs
  obtain ⟨y,hy⟩ := hp s
  rw [hy, hq t]
  exact .ended (h y s t hs)

section Embed
variable {τ C' ε' : Type} {R' : C' → Type} {handle' : τ → (c : C') → Option (τ × R' c)}
  {f : C → C'} {reply : ∀ c, R' (f c) → R c} {err : ε → ε'} (get : τ → σ) (put : τ → σ → τ)

/-- The larger service answers an embedded command as the small one does on its part of
the state, which `get` and `put` read and replace. -/
theorem run_embed (hput : ∀ t, put t (get t) = t) (hget : ∀ t s, get (put t s) = s)
    (hputs : ∀ t s s', put (put t s) s' = put t s')
    (hf : ∀ t c, (handle' t (f c)).map (fun p => (p.1, reply c p.2)) =
      (handle (get t) c).map (fun p => (put t p.1, p.2)))
    (p : Prog C R ε α) (t : τ) :
    (p.embed f reply err).run handle' t =
      (p.run handle (get t)).map (fun r => (put t r.1, r.2.mapError err)) := by
  induction p generalizing t with
  | done a => simp [embed, run, hput, Except.mapError]
  | fail e => simp [embed, run, hput, Except.mapError]
  | call c k ih =>
    have h := hf t c
    rw [embed, run, run]
    cases h' : handle' t (f c) <;> cases hs : handle (get t) c <;> simp [h', hs] at h
    · rfl
    · next r q =>
      obtain ⟨ht,hr⟩ := h
      simp only
      rw [ih, ht, hget, hr]
      simp only [hputs]

end Embed

end Prog

section Outputs
variable {ι o : Type} (serve : σ → ι → σ × o)

/-- What a service answers to one request after the other. -/
def outputs : σ → List ι → List o
  | _, [] => []
  | s, i :: is => (serve s i).2 :: outputs (serve s i).1 is

variable {serve}

theorem outputs_related {I : σ → σ → Prop} {O : o → o → Prop}
    (h : ∀ s t i, I s t → I (serve s i).1 (serve t i).1 ∧ O (serve s i).2 (serve t i).2)
    {s t : σ} (hs : I s t) (is : List ι) :
    List.Forall₂ O (outputs serve s is) (outputs serve t is) := by
  induction is generalizing s t with
  | nil => exact .nil
  | cons i is ih => exact .cons (h s t i hs).2 (ih (h s t i hs).1)

end Outputs

end Tagwise.Lib
