import Mathlib.Algebra.Group.Nat.Defs
import Mathlib.Data.List.Forall2

/-! The readings of a word whose letters each stand for one of several others: all of
them in order, and the ones a bounded expansion keeps. -/

namespace Tagwise.Lib

variable {α β : Type*} (options : α → List β)

/-- The readings of a word, the first letter's options outermost. -/
def readings : List α → List (List β)
  | [] => [[]]
  | a :: as => (options a).flatMap (fun b => (readings as).map (b :: ·))

/-- Every reading so far, continued with every option of the next letter. -/
def grow (vs : List (List β)) (a : α) : List (List β) :=
  vs.flatMap (fun v => (options a).map (fun b => v ++ [b]))

def growCapped (cap : Nat) (vs : List (List β)) (a : α) : List (List β) :=
  (grow options vs a).take cap

theorem mem_readings {as : List α} {v : List β} :
    v ∈ readings options as ↔ List.Forall₂ (fun a b => b ∈ options a) as v := by
  induction as generalizing v with
  | nil => simp [readings]
  | cons a as ih =>
    rw [readings, List.forall₂_cons_left_iff]
    constructor
    · intro h
      obtain ⟨b,hb,h⟩ := List.mem_flatMap.mp h
      obtain ⟨v,hv,rfl⟩ := List.mem_map.mp h
      exact ⟨b, v, hb, ih.mp hv, rfl⟩
    · intro h
      obtain ⟨b,v,hb,hv,rfl⟩ := h
      exact List.mem_flatMap.mpr ⟨b, hb, List.mem_map.mpr ⟨v, ih.mpr hv, rfl⟩⟩

/-- Every letter of a reading is an option of a letter read. -/
theorem exists_read {as : List α} {v : List β}
    (h : List.Forall₂ (fun a b => b ∈ options a) as v) : ∀ b ∈ v, ∃ a ∈ as, b ∈ options a := by
  induction h with
  | nil => intro b hb; cases hb
  | cons hab _ ih =>
    intro c hc
    rcases List.mem_cons.mp hc with rfl | hc
    · exact ⟨_, List.mem_cons_self, hab⟩
    · obtain ⟨a,ha,hb⟩ := ih c hc
      exact ⟨a, List.mem_cons_of_mem _ ha, hb⟩

/-- Letters that stand for themselves only leave one reading. -/
theorem reads_fixed {options : α → List α} {as v : List α} (h : ∀ a ∈ as, options a = [a]) :
    List.Forall₂ (fun a b => b ∈ options a) as v ↔ v = as := by
  induction as generalizing v with
  | nil => simp
  | cons a as ih =>
    rw [List.forall₂_cons_left_iff, h a List.mem_cons_self]
    constructor
    · intro h
      obtain ⟨b,w,hb,hw,rfl⟩ := h
      rw [List.mem_singleton.mp hb, (ih (fun c hc => h c (List.mem_cons_of_mem _ hc))).mp hw]
    · rintro rfl
      exact ⟨a, as, List.mem_singleton_self a,
        (ih (fun c hc => h c (List.mem_cons_of_mem _ hc))).mpr rfl, rfl⟩

theorem readings_append (as bs : List α) : readings options (as ++ bs) =
    (readings options as).flatMap (fun v => (readings options bs).map (v ++ ·)) := by
  induction as with
  | nil => simp [readings]
  | cons a as ih =>
    simp only [List.cons_append, readings, ih, List.flatMap_assoc, List.map_flatMap,
      List.flatMap_map, List.map_map]
    rfl

theorem foldl_grow (vs : List (List β)) (as : List α) : as.foldl (grow options) vs =
    vs.flatMap (fun v => (readings options as).map (v ++ ·)) := by
  induction as generalizing vs with
  | nil => simp [readings]
  | cons a as ih =>
    rw [List.foldl_cons, ih, grow, List.flatMap_assoc]
    apply List.flatMap_congr
    intro v _
    simp only [readings, List.map_flatMap, List.flatMap_map, List.map_map]
    apply List.flatMap_congr
    intro b _
    apply List.map_congr_left
    intro w _
    simp

/-- The first `n` of a list of blocks come from the first `n` blocks. -/
theorem take_flatMap_take {γ δ : Type*} {f : γ → List δ} (hf : ∀ c, f c ≠ []) (n : Nat)
    (cs : List γ) : ((cs.take n).flatMap f).take n = (cs.flatMap f).take n := by
  induction cs generalizing n with
  | nil => simp
  | cons c cs ih =>
    cases n with
    | zero => simp
    | succ n =>
      have hpos : 0 < (f c).length := List.length_pos_iff.mpr (hf c)
      rw [List.take_succ_cons, List.flatMap_cons, List.flatMap_cons, List.take_append,
        List.take_append]
      congr 1
      have hle : n + 1 - (f c).length ≤ n := by omega
      have h := congrArg (List.take (n + 1 - (f c).length)) (ih n)
      rwa [List.take_take, List.take_take, Nat.min_eq_left hle] at h

variable {options}

/-- Dropping what exceeds the cap at every letter drops the same as dropping it at the end. -/
theorem foldl_growCapped (hne : ∀ a, options a ≠ []) (cap : Nat) (vs : List (List β))
    (as : List α) :
    as.foldl (growCapped options cap) (vs.take cap) = (as.foldl (grow options) vs).take cap := by
  induction as generalizing vs with
  | nil => rfl
  | cons a as ih =>
    rw [List.foldl_cons, List.foldl_cons, ← ih, growCapped]
    congr 1
    exact take_flatMap_take (fun v => by simpa using hne a) cap vs

/-- What is left of a list without its repetitions. -/
theorem eraseDups_nodup [BEq α] [LawfulBEq α] (as : List α) :
    as.eraseDups.Nodup ∧ as.eraseDups.length ≤ as.length := by
  induction hn : as.length using Nat.strongRecOn generalizing as with
  | ind n ih =>
    cases as with
    | nil => exact ⟨List.nodup_nil,Nat.zero_le _⟩
    | cons a as =>
      have hshorter := List.length_filter_le (fun b => !b == a) as
      rw [List.length_cons] at hn
      obtain ⟨hnodup,hlength⟩ := ih (as.filter (fun b => !b == a)).length (by omega) _ rfl
      rw [List.eraseDups_cons]
      refine ⟨List.nodup_cons.mpr ⟨fun hmem => ?_,hnodup⟩,?_⟩
      · have hne := List.of_mem_filter (List.mem_eraseDups.mp hmem)
        simp at hne
      · rw [List.length_cons]
        omega

theorem exists_split_countP {p : α → Bool} {n : Nat} {as : List α} (h : n < as.countP p) :
    ∃ pre post, as = pre ++ post ∧ post.countP p = n := by
  induction as with
  | nil => simp at h
  | cons a as ih =>
    by_cases hn : n < as.countP p
    · obtain ⟨pre,post,rfl,hp⟩ := ih hn
      exact ⟨a :: pre, post, rfl, hp⟩
    · refine ⟨[a], as, rfl, ?_⟩
      rw [List.countP_cons] at h
      split at h <;> omega

section Ambiguous
variable {ambiguous : α → Bool} (hlen : ∀ a, (options a).length = if ambiguous a then 2 else 1)
include hlen

/-- Each letter with two options doubles the readings. -/
theorem length_readings (as : List α) : (readings options as).length = 2 ^ as.countP ambiguous := by
  induction as with
  | nil => rfl
  | cons a as ih =>
    have h : ((options a).flatMap (fun b => (readings options as).map (b :: ·))).length =
        (options a).length * (readings options as).length := by
      induction options a with
      | nil => simp
      | cons b bs ihb => simp [ihb, Nat.succ_mul, Nat.add_comm]
    rw [readings, h, hlen, ih, List.countP_cons]
    cases ambiguous a <;> simp [Nat.pow_succ, Nat.mul_comm]

variable {first : α → β} (hfirst : ∀ a, ∃ rest, options a = first a :: rest)

omit hlen in
include hfirst in
theorem readings_first (as : List α) : ∃ rest, readings options as = as.map first :: rest := by
  induction as with
  | nil => exact ⟨[], rfl⟩
  | cons a as ih =>
    obtain ⟨bs,hb⟩ := hfirst a
    obtain ⟨rest,hr⟩ := ih
    refine ⟨rest.map (first a :: ·) ++ bs.flatMap (fun b => (readings options as).map (b :: ·)), ?_⟩
    rw [readings, hb, List.flatMap_cons, hr]
    rfl

include hfirst in
/-- The readings under a cap of `2 ^ n`: all but the last `n` ambiguous letters are read as
their first option. -/
theorem mem_take_readings {n : Nat} {as : List α} {v : List β} :
    v ∈ (readings options as).take (2 ^ n) ↔
      ∃ pre post r, as = pre ++ post ∧ post.countP ambiguous ≤ n ∧
        List.Forall₂ (fun a b => b ∈ options a) post r ∧ v = pre.map first ++ r := by
  -- a split of the word puts the readings that begin with the first one in front
  have hblock : ∀ pre post, ∃ rest, readings options (pre ++ post) =
      (readings options post).map (pre.map first ++ ·) ++ rest := by
    intro pre post
    obtain ⟨others,ho⟩ := readings_first hfirst pre
    exact ⟨_, by rw [readings_append, ho, List.flatMap_cons]⟩
  constructor
  · intro h
    by_cases hn : n < as.countP ambiguous
    · obtain ⟨pre,post,rfl,hp⟩ := exists_split_countP hn
      obtain ⟨rest,hr⟩ := hblock pre post
      have hl : ((readings options post).map (pre.map first ++ ·)).length = 2 ^ n := by
        rw [List.length_map, length_readings hlen, hp]
      rw [hr, List.take_left' hl] at h
      obtain ⟨r,hr,rfl⟩ := List.mem_map.mp h
      exact ⟨pre, post, r, rfl, Nat.le_of_eq hp, (mem_readings options).mp hr, rfl⟩
    · exact ⟨[], as, v, rfl, Nat.le_of_not_lt hn, (mem_readings options).mp (List.mem_of_mem_take h),
        rfl⟩
  · intro h
    obtain ⟨pre,post,r,rfl,hp,hr,rfl⟩ := h
    obtain ⟨rest,he⟩ := hblock pre post
    have hl : ((readings options post).map (pre.map first ++ ·)).length ≤ 2 ^ n := by
      rw [List.length_map, length_readings hlen]
      exact Nat.pow_le_pow_right (by decide) hp
    rw [he, List.take_append, List.take_of_length_le hl]
    exact List.mem_append_left _ (List.mem_map.mpr ⟨r, (mem_readings options).mpr hr, rfl⟩)

end Ambiguous

end Tagwise.Lib
