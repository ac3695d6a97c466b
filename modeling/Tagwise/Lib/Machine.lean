import Mathlib.Data.List.Basic

/-! Runs of a total step function over a list of actions. -/

namespace Tagwise.Lib

variable {σ α : Type*} (step : σ → α → σ)

def run (s : σ) (as : List α) : σ := as.foldl step s

@[simp] theorem run_nil (s : σ) : run step s [] = s := rfl

@[simp] theorem run_cons (s : σ) (a : α) (as : List α) :
    run step s (a :: as) = run step (step s a) as := rfl

theorem run_append (s : σ) (as bs : List α) :
    run step s (as ++ bs) = run step (run step s as) bs := List.foldl_append

theorem run_snoc (s : σ) (as : List α) (a : α) :
    run step s (as ++ [a]) = step (run step s as) a := run_append step s as [a]

variable {step}

/-- What holds at the start and survives every step holds after every run. -/
theorem run_invariant {I : σ → Prop} {s : σ} (h0 : I s) (hs : ∀ s a, I s → I (step s a))
    (as : List α) : I (run step s as) := by
  induction as generalizing s with
  | nil => exact h0
  | cons a as ih => exact ih (hs s a h0)

variable (step)

/-- Every action of the run meets a condition on the state it is taken in. -/
def Along (C : σ → α → Prop) : σ → List α → Prop
  | _, [] => True
  | s, a :: as => C s a ∧ Along C (step s a) as

variable {step}

theorem along_append {C : σ → α → Prop} {s : σ} {as bs : List α} :
    Along step C s (as ++ bs) ↔ Along step C s as ∧ Along step C (run step s as) bs := by
  induction as generalizing s with
  | nil => simp [Along]
  | cons a as ih => simp [Along, ih, and_assoc]

theorem along_and {C D : σ → α → Prop} {s : σ} {as : List α} (hc : Along step C s as)
    (hd : Along step D s as) : Along step (fun s a => C s a ∧ D s a) s as := by
  induction as generalizing s with
  | nil => trivial
  | cons a as ih => exact ⟨⟨hc.1,hd.1⟩,ih hc.2 hd.2⟩

theorem along_mono {C D : σ → α → Prop} (h : ∀ s a, C s a → D s a) {s : σ} {as : List α}
    (hc : Along step C s as) : Along step D s as := by
  induction as generalizing s with
  | nil => trivial
  | cons a as ih => exact ⟨h s a hc.1,ih hc.2⟩

theorem along_always {C : σ → α → Prop} (h : ∀ s a, C s a) (s : σ) (as : List α) :
    Along step C s as := by
  induction as generalizing s with
  | nil => trivial
  | cons a as ih => exact ⟨h s a,ih (step s a)⟩

theorem run_invariant_along {C : σ → α → Prop} {I : σ → Prop} {s : σ} (h0 : I s)
    (hs : ∀ s a, I s → C s a → I (step s a)) {as : List α} (hc : Along step C s as) :
    I (run step s as) := by
  induction as generalizing s with
  | nil => exact h0
  | cons a as ih => exact ih (hs s a h0 hc.1) hc.2

/-- What every step keeps between states, holds from each point of a run to its end. -/
theorem along_end {R : σ → σ → Prop} (hrefl : ∀ s, R s s)
    (htrans : ∀ a b c, R a b → R b c → R a c) (hs : ∀ s a, R s (step s a)) (s : σ) (as : List α) :
    Along step (fun t _ => R t (run step s as)) s as := by
  induction as generalizing s with
  | nil => trivial
  | cons a as ih =>
    have hrun : R (step s a) (run step (step s a) as) :=
      run_invariant (hrefl _) (fun t b h => htrans _ _ _ h (hs t b)) as
    exact ⟨htrans _ _ _ (hs s a) hrun,ih (step s a)⟩

end Tagwise.Lib
