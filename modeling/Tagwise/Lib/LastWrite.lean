import Mathlib.Data.List.Induction

/-! A register that keeps the value of the latest stamp it was offered: an equal
stamp overwrites, an older one is dropped. -/

namespace Tagwise.Lib

variable {α : Type*} (stamp : α → Nat)

def accepts (a : α) : Option α → Bool
  | none => true
  | some c => stamp c ≤ stamp a

def offer (cur : Option α) (a : α) : Option α := if accepts stamp a cur then some a else cur

def replay (cur : Option α) (as : List α) : Option α := as.foldl (offer stamp) cur

variable {stamp}

theorem offer_some (cur : Option α) (a : α) : ∃ c, offer stamp cur a = some c := by
  cases cur with
  | none => exact ⟨a,rfl⟩
  | some c =>
    unfold offer
    split
    · exact ⟨a,rfl⟩
    · exact ⟨c,rfl⟩

/-- What an offer leaves is at least as late as both, and one of the two. -/
theorem offer_latest {cur : Option α} {a m : α} (h : offer stamp cur a = some m) :
    (m = a ∨ cur = some m) ∧ stamp a ≤ stamp m ∧ ∀ c, cur = some c → stamp c ≤ stamp m := by
  unfold offer at h
  cases cur with
  | none => cases h; simp
  | some c =>
    by_cases hc : stamp c ≤ stamp a
    · simp only [accepts, hc, decide_true, ↓reduceIte, Option.some.injEq] at h
      subst h
      exact ⟨.inl rfl,Nat.le_refl _,fun _ he => by cases he; exact hc⟩
    · simp only [accepts, hc, decide_false, Bool.false_eq_true, ↓reduceIte, Option.some.injEq] at h
      subst h
      exact ⟨.inr rfl,by omega,fun _ he => by cases he; exact Nat.le_refl _⟩

theorem replay_cons (cur : Option α) (a : α) (as : List α) :
    replay stamp cur (a :: as) = replay stamp (offer stamp cur a) as := rfl

theorem replay_append (cur : Option α) (as bs : List α) :
    replay stamp cur (as ++ bs) = replay stamp (replay stamp cur as) bs := List.foldl_append

theorem replay_snoc (cur : Option α) (as : List α) (a : α) :
    replay stamp cur (as ++ [a]) = offer stamp (replay stamp cur as) a := replay_append cur as [a]

/-- Whatever the order of the offers, the latest is what is left. -/
theorem replay_latest {cur : Option α} {as : List α} {m : α} (h : replay stamp cur as = some m) :
    (m ∈ as ∨ cur = some m) ∧ (∀ a ∈ as, stamp a ≤ stamp m) ∧
      ∀ c, cur = some c → stamp c ≤ stamp m := by
  induction as generalizing cur with
  | nil =>
    refine ⟨.inr h,by simp,?_⟩
    rintro c rfl
    cases h
    exact Nat.le_refl _
  | cons a as ih =>
    obtain ⟨hm,has,hle⟩ := ih h
    obtain ⟨c,hc⟩ : ∃ c, offer stamp cur a = some c := offer_some cur a
    obtain ⟨hor,hac,hcur⟩ := offer_latest hc
    have hcm := hle c hc
    refine ⟨?_,?_,fun d hd => Nat.le_trans (hcur d hd) hcm⟩
    · rcases hm with hm | hm
      · exact .inl (List.mem_cons_of_mem _ hm)
      · rw [hc] at hm
        cases hm
        rcases hor with rfl | hor
        · exact .inl List.mem_cons_self
        · exact .inr hor
    · intro b hb
      rcases List.mem_cons.mp hb with rfl | hb
      · exact Nat.le_trans hac hcm
      · exact has b hb

theorem replay_some {cur : Option α} {as : List α} (h : cur ≠ none ∨ as ≠ []) :
    ∃ m, replay stamp cur as = some m := by
  induction as generalizing cur with
  | nil =>
    rcases h with h | h
    · exact Option.ne_none_iff_exists'.mp h
    · exact absurd rfl h
  | cons a as ih =>
    obtain ⟨c,hc⟩ : ∃ c, offer stamp cur a = some c := offer_some cur a
    exact ih (.inl (by rw [hc]; simp))

/-- An offer at least as late as everything before it wins. -/
theorem replay_last {cur : Option α} {as : List α} {a : α}
    (hc : ∀ c, cur = some c → stamp c ≤ stamp a) (ha : ∀ b ∈ as, stamp b ≤ stamp a) :
    replay stamp cur (as ++ [a]) = some a := by
  rw [replay_snoc]
  cases hr : replay stamp cur as with
  | none => rfl
  | some c =>
    have hle : stamp c ≤ stamp a := by
      rcases (replay_latest hr).1 with hm | hm
      · exact ha c hm
      · exact hc c hm
    simp [offer, accepts, hle]

/-- A register that has taken the newest state, offered an old sorted backlog of it,
ends at that state again: at the backlog's last entry, or unmoved. -/
theorem replay_backlog {c : α} {as : List α} (hs : as.Pairwise (stamp · ≤ stamp ·))
    (hc : ∀ a ∈ as, stamp a ≤ stamp c) :
    replay stamp (some c) as = some c ∨ ∃ a, as.getLast? = some a ∧
      replay stamp (some c) as = some a := by
  induction as using List.reverseRecOn with
  | nil => exact .inl rfl
  | append_singleton as a _ =>
    obtain ⟨_,_,hlast⟩ := List.pairwise_append.mp hs
    have hle := hc a (by simp)
    by_cases he : stamp a = stamp c
    · refine .inr ⟨a,by simp,replay_last ?_ ?_⟩
      · rintro d hd
        cases hd
        omega
      · exact fun b hb => hlast b hb a (by simp)
    · refine .inl ?_
      obtain ⟨m,hm⟩ : ∃ m, replay stamp (some c) (as ++ [a]) = some m := replay_some (.inl (by simp))
      obtain ⟨hor,_,hcm⟩ := replay_latest hm
      have hcm := hcm c rfl
      rcases hor with hor | hor
      · have hma : stamp m ≤ stamp a := by
          rcases List.mem_append.mp hor with hb | hb
          · exact hlast m hb a (by simp)
          · exact Nat.le_of_eq (by rw [List.mem_singleton.mp hb])
        omega
      · rw [hm, hor]

end Tagwise.Lib
