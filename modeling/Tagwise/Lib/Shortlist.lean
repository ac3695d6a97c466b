import Mathlib.Data.List.Basic

/-! The first few entries of a list in an order that ranks any two of them. -/

namespace Tagwise.Lib

variable {α : Type*} {le : α → α → Bool} {k : Nat} {xs : List α}

def shortlist (le : α → α → Bool) (k : Nat) (xs : List α) : List α := (xs.mergeSort le).take k

theorem mem_of_shortlist {x : α} (h : x ∈ shortlist le k xs) : x ∈ xs :=
  (List.mergeSort_perm xs le).mem_iff.mp (List.mem_of_mem_take h)

theorem shortlist_length : (shortlist le k xs).length = min k xs.length := by
  rw [shortlist, List.length_take, List.length_mergeSort]

theorem shortlist_nodup (h : xs.Nodup) : (shortlist le k xs).Nodup :=
  (List.take_sublist _ _).nodup ((List.mergeSort_perm xs le).nodup_iff.mpr h)

theorem shortlist_all (h : xs.length ≤ k) {x : α} (hx : x ∈ xs) : x ∈ shortlist le k xs := by
  rw [shortlist, List.take_of_length_le (by rw [List.length_mergeSort]; exact h)]
  exact (List.mergeSort_perm xs le).mem_iff.mpr hx

section Ranked
variable (trans : ∀ a b c, le a b = true → le b c = true → le a c = true)
variable (total : ∀ a b, (le a b || le b a) = true)
include trans total

variable (k xs) in
theorem shortlist_sorted : (shortlist le k xs).Pairwise (fun a b => le a b = true) :=
  (List.pairwise_mergeSort trans total xs).sublist (List.take_sublist _ _)

/-- Nothing on it comes after anything left out. -/
theorem shortlist_before_rest :
    ∀ y ∈ shortlist le k xs, ∀ x ∈ (xs.mergeSort le).drop k, le y x = true := by
  have hsorted := List.pairwise_mergeSort trans total xs
  rw [← List.take_append_drop k (xs.mergeSort le)] at hsorted
  exact (List.pairwise_append.mp hsorted).2.2

theorem shortlist_least {x : α} (hx : x ∈ xs) (hout : x ∉ shortlist le k xs) :
    ∀ y ∈ shortlist le k xs, le y x = true := by
  intro y hy
  have hm : x ∈ (xs.mergeSort le).take k ++ (xs.mergeSort le).drop k := by
    rw [List.take_append_drop]
    exact (List.mergeSort_perm xs le).mem_iff.mpr hx
  rcases List.mem_append.mp hm with hm | hm
  · exact absurd hm hout
  · exact shortlist_before_rest trans total y hy x hm

/-- Where there are enough of the best, it is made of them. -/
theorem shortlist_best {best : α → Bool}
    (hbest : ∀ b ∈ xs, best b = true → ∀ y ∈ xs, le y b = true → best y = true)
    (henough : k ≤ xs.countP best) : ∀ y ∈ shortlist le k xs, best y = true := by
  intro y hy
  by_contra hno
  have hrest : ((xs.mergeSort le).drop k).countP best = 0 := by
    apply List.countP_eq_zero.mpr
    intro x hx hb
    have hxs := (List.mergeSort_perm xs le).mem_iff.mp (List.mem_of_mem_drop hx)
    exact hno (hbest x hxs hb y (mem_of_shortlist hy)
      (shortlist_before_rest trans total y hy x hx))
  have hall : xs.countP best = (shortlist le k xs).countP best := by
    rw [← (List.mergeSort_perm xs le).countP_eq best, ← List.take_append_drop k (xs.mergeSort le),
      List.countP_append, hrest, Nat.add_zero]
    rfl
  have hle : (shortlist le k xs).length ≤ k := by
    rw [shortlist_length]
    exact Nat.min_le_left _ _
  have hfull : (shortlist le k xs).countP best = (shortlist le k xs).length := by
    have := List.countP_le_length (p := best) (l := shortlist le k xs)
    omega
  exact hno (List.countP_eq_length.mp hfull y hy)

end Ranked

end Tagwise.Lib
