import Tagwise.Lib.Machine

/-! Steps that keep to the cells they have locked, in any order that leaves the steps with
a lock in common in theirs. -/

namespace Tagwise.Lib

variable {σ α ν γ : Type*} {step : σ → α → σ}

/-- One order of actions as another, by swaps of neighbours that are apart. -/
inductive Reordered (apart : α → α → Prop) : List α → List α → Prop
  | same (as : List α) : Reordered apart as as
  | swap (front : List α) (a b : α) (back : List α) (h : apart a b) :
      Reordered apart (front ++ a :: b :: back) (front ++ b :: a :: back)
  | both {as bs cs : List α} (h : Reordered apart as bs) (h' : Reordered apart bs cs) :
      Reordered apart as cs

theorem run_reordered {apart : α → α → Prop}
    (hc : ∀ s a b, apart a b → step (step s a) b = step (step s b) a) {as bs : List α}
    (h : Reordered apart as bs) (s : σ) : run step s as = run step s bs := by
  induction h with
  | same as => rfl
  | swap front a b back h => rw [run_append, run_append, run_cons, run_cons, run_cons, run_cons, hc _ a b h]
  | both h h' ih ih' => exact ih.trans ih'

variable (cells : σ → ν → γ) (locks : α → ν → Prop)

variable (step) in
/-- A step writes only the cells it has locked, and what it writes depends on them alone. -/
structure Confined : Prop where
  frame : ∀ s a n, ¬ locks a n → cells (step s a) n = cells s n
  sees : ∀ s t a, (∀ n, locks a n → cells s n = cells t n) →
    ∀ n, locks a n → cells (step s a) n = cells (step t a) n

variable {cells locks}

/-- Steps without a lock in common come out the same in both orders. -/
theorem Confined.commute (h : Confined step cells locks)
    (hext : ∀ s t, (∀ n, cells s n = cells t n) → s = t) (s : σ) {a b : α}
    (hapart : ∀ n, locks a n → ¬ locks b n) : step (step s a) b = step (step s b) a := by
  -- one of the two does not touch the cell, and leaves what the other sees
  have hleft : ∀ {a b : α}, (∀ n, locks a n → ¬ locks b n) → ∀ n, locks a n →
      cells (step (step s a) b) n = cells (step (step s b) a) n := by
    intro a b hapart n ha
    rw [h.frame _ b n (hapart n ha)]
    exact h.sees s (step s b) a (fun m hm => (h.frame s b m (hapart m hm)).symm) n ha
  apply hext
  intro n
  by_cases ha : locks a n
  · exact hleft hapart n ha
  · by_cases hb : locks b n
    · exact (hleft (fun m hm hm' => hapart m hm' hm) n hb).symm
    · rw [h.frame _ b n hb, h.frame s a n ha, h.frame _ a n ha, h.frame s b n hb]

theorem Confined.reordered (h : Confined step cells locks)
    (hext : ∀ s t, (∀ n, cells s n = cells t n) → s = t) {as bs : List α}
    (hr : Reordered (fun a b => ∀ n, locks a n → ¬ locks b n) as bs) (s : σ) :
    run step s as = run step s bs :=
  run_reordered (fun s _ _ hapart => h.commute hext s hapart) hr s

end Tagwise.Lib
