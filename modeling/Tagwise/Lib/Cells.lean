import Mathlib.Logic.Function.Basic

/-! A store of cells, each under the key that controls it: cells are created in
free places, changed only in the presence of their controlling key, and never
removed. -/

namespace Tagwise.Lib

variable {ν γ κ : Type*} [DecidableEq ν]

inductive Act (controller : γ → κ) (present : κ → Prop) (store : ν → Option γ) :
    (ν → Option γ) → Prop
  | idle : Act controller present store store
  | create (n : ν) (c : γ) (free : store n = none) :
      Act controller present store (Function.update store n (some c))
  | change (n : ν) (c c' : γ) (found : store n = some c) (controlled : present (controller c)) :
      Act controller present store (Function.update store n (some c'))

variable {controller : γ → κ} {present : κ → Prop} {store store' : ν → Option γ}

theorem Act.kept (h : Act controller present store store') {n : ν} (hn : store n ≠ none) :
    store' n ≠ none := by
  cases h with
  | idle => exact hn
  | create m c free | change m c c' found controlled =>
    by_cases he : n = m
    · subst he; simp
    · rwa [Function.update_of_ne he]

/-- In the absence of a cell's controlling key nothing happens to it. -/
theorem Act.guarded (h : Act controller present store store') {n : ν} {c : γ}
    (hn : store n = some c) (ha : ¬ present (controller c)) : store' n = some c := by
  cases h with
  | idle => exact hn
  | create m d free =>
    have hne : n ≠ m := by rintro rfl; rw [hn] at free; cases free
    rwa [Function.update_of_ne hne]
  | change m d d' found controlled =>
    have hne : n ≠ m := by
      rintro rfl
      rw [hn] at found
      cases found
      exact ha controlled
    rwa [Function.update_of_ne hne]

end Tagwise.Lib
