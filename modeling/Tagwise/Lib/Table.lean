import Mathlib.Data.List.Nodup

/-! A table of rows under a unique column, with the statements a relational store
runs on it. -/

namespace Tagwise.Lib

variable {ρ κ : Type*} {key : ρ → κ}

@[ext] structure Table (key : ρ → κ) where
  rows : List ρ
  unique : (rows.map key).Nodup

namespace Table

def empty : Table key := ⟨[], List.nodup_nil⟩

theorem unique_row {t : Table key} {r r' : ρ} (h : r ∈ t.rows) (h' : r' ∈ t.rows)
    (he : key r = key r') : r = r' :=
  List.inj_on_of_nodup_map t.unique h h' he

variable [DecidableEq κ]

def find (t : Table key) (k : κ) : Option ρ := t.rows.find? (fun r => key r = k)

/-- Rewrites the rows a condition selects. No statement writes the unique column. -/
def updateMany (t : Table key) (p : ρ → Bool) (f : ρ → ρ) (hf : ∀ r, key (f r) = key r) :
    Table key where
  rows := t.rows.map (fun r => if p r then f r else r)
  unique := by
    have hkey : (t.rows.map (fun r => if p r then f r else r)).map key = t.rows.map key := by
      rw [List.map_map]
      apply List.map_congr_left
      intro r _
      simp only [Function.comp_apply]
      split
      · exact hf r
      · rfl
    rw [hkey]
    exact t.unique

def count (t : Table key) (p : ρ → Bool) : Nat := t.rows.countP p

omit [DecidableEq κ] in
/-- Two statements that make the same of every row make the same table. -/
theorem updateMany_congr (t : Table key) {p q : ρ → Bool} {f g : ρ → ρ}
    (hf : ∀ r, key (f r) = key r) (hg : ∀ r, key (g r) = key r)
    (h : ∀ r ∈ t.rows, (if p r then f r else r) = if q r then g r else r) :
    t.updateMany p f hf = t.updateMany q g hg :=
  Table.ext (List.map_congr_left h)

omit [DecidableEq κ] in
theorem updateMany_none (t : Table key) {p : ρ → Bool} {f : ρ → ρ} (hf : ∀ r, key (f r) = key r)
    (h : ∀ r ∈ t.rows, p r = false) : t.updateMany p f hf = t := by
  apply Table.ext
  rw [updateMany]
  conv_rhs => rw [← List.map_id t.rows]
  apply List.map_congr_left
  intro r hr
  simp [h r hr]

omit [DecidableEq κ] in
theorem updateMany_updateMany (t : Table key) {p q s : ρ → Bool} {f : ρ → ρ}
    (hf : ∀ r, key (f r) = key r)
    (h : ∀ r ∈ t.rows, (if q (if p r then f r else r) then f (if p r then f r else r)
      else if p r then f r else r) = if s r then f r else r) :
    (t.updateMany p f hf).updateMany q f hf = t.updateMany s f hf := by
  apply Table.ext
  simp only [updateMany, List.map_map]
  exact List.map_congr_left h

theorem find_none {t : Table key} {k : κ} : t.find k = none ↔ ∀ r ∈ t.rows, key r ≠ k := by
  simp [find, List.find?_eq_none]

/-- Fails on a row whose key is taken. -/
def insert (t : Table key) (r : ρ) : Option (Table key) :=
  if h : t.find (key r) = none then
    some ⟨t.rows ++ [r], by
      rw [List.map_append, List.nodup_append]
      refine ⟨t.unique, by simp, ?_⟩
      rintro _ ha b hb rfl
      obtain ⟨r',hr',he⟩ := List.mem_map.mp ha
      simp only [List.map_cons, List.map_nil, List.mem_singleton] at hb
      exact find_none.mp h r' hr' (he.trans hb)⟩
  else none

theorem find_mem {t : Table key} {k : κ} {r : ρ} (h : t.find k = some r) :
    r ∈ t.rows ∧ key r = k :=
  ⟨List.mem_of_find?_eq_some h, by simpa using List.find?_some h⟩

theorem find_of_mem {t : Table key} {r : ρ} (h : r ∈ t.rows) : t.find (key r) = some r := by
  cases hf : t.find (key r) with
  | none => exact absurd rfl (find_none.mp hf r h)
  | some r' =>
    obtain ⟨hm,he⟩ := find_mem hf
    rw [unique_row hm h he]

/-- One key, one row. -/
theorem filter_key (t : Table key) (k : κ) :
    t.rows.filter (fun r => key r = k) = (t.find k).toList := by
  obtain ⟨rows,hu⟩ := t
  induction rows with
  | nil => rfl
  | cons r rows ih =>
    rw [List.map_cons, List.nodup_cons] at hu
    by_cases hk : key r = k
    · have hnone : rows.filter (fun r => key r = k) = [] := by
        apply List.filter_eq_nil_iff.mpr
        intro r' hr'
        simp only [decide_eq_true_eq]
        intro he
        exact hu.1 (List.mem_map.mpr ⟨r',hr',he.trans hk.symm⟩)
      simp [find, hk, hnone]
    · have h := ih hu.2
      simp only [find] at h ⊢
      rw [List.filter_cons, List.find?_cons]
      simp [hk, h]

/-- Whether a row of a key is of a kind shows in the rows of that kind. -/
theorem find_filter {t : Table key} {p : ρ → Bool} {k : κ} {r : ρ} :
    (t.find k).filter p = some r ↔ r ∈ t.rows.filter p ∧ key r = k := by
  rw [Option.filter_eq_some_iff, List.mem_filter]
  constructor
  · rintro ⟨hf,hp⟩
    obtain ⟨hm,hk⟩ := find_mem hf
    exact ⟨⟨hm,hp⟩,hk⟩
  · rintro ⟨⟨hm,hp⟩,rfl⟩
    exact ⟨find_of_mem hm,hp⟩

omit [DecidableEq κ] in
/-- Rewriting rows within their kind is rewriting the rows of that kind. -/
theorem filter_updateMany (t : Table key) {p q : ρ → Bool} {f : ρ → ρ}
    (hf : ∀ r, key (f r) = key r) (hq : ∀ r, q (f r) = q r) :
    (t.updateMany p f hf).rows.filter q = (t.rows.filter q).map (fun r => if p r then f r else r) := by
  rw [updateMany, List.filter_map]
  congr 1
  apply List.filter_congr
  intro r _
  simp only [Function.comp_apply]
  split
  · exact hq r
  · rfl

@[simp] theorem find_updateMany (t : Table key) (p : ρ → Bool) (f : ρ → ρ)
    (hf : ∀ r, key (f r) = key r) (k : κ) :
    (t.updateMany p f hf).find k = (t.find k).map (fun r => if p r then f r else r) := by
  have hkey : ∀ r, key (if p r then f r else r) = key r := by
    intro r
    split
    · exact hf r
    · rfl
  simp only [find, updateMany, List.find?_map]
  congr 1
  apply congrArg (fun q => t.rows.find? q)
  funext r
  simp [hkey r]

/-- A condition on one key selects at most the row under it. -/
theorem count_key (t : Table key) {p : ρ → Bool} {k : κ} (hp : ∀ r, p r = true → key r = k) :
    t.count p = if (t.find k).any p then 1 else 0 := by
  have hfilter : t.rows.filter p = (t.rows.filter (fun r => key r = k)).filter p := by
    rw [List.filter_filter]
    apply List.filter_congr
    intro r _
    by_cases h : p r = true
    · simp [h, hp r h]
    · simp [h]
  rw [count, List.countP_eq_length_filter, hfilter, filter_key]
  cases t.find k with
  | none => rfl
  | some r => by_cases h : p r = true <;> simp [h]

theorem insert_some {t : Table key} {r : ρ} (h : t.find (key r) = none) :
    ∃ t', t.insert r = some t' ∧
      ∀ k, t'.find k = if k = key r then some r else t.find k := by
  refine ⟨_,dif_pos h,?_⟩
  intro k
  simp only [find, List.find?_append]
  by_cases hk : k = key r
  · subst hk
    have hn : t.rows.find? (fun r' => key r' = key r) = none := h
    simp [hn]
  · have hne : ¬ key r = k := fun he => hk he.symm
    simp [hk, hne]

theorem insert_taken {t : Table key} {r r' : ρ} (h : t.find (key r) = some r') :
    t.insert r = none :=
  dif_neg (by rw [h]; simp)

theorem mem_insert {t t' : Table key} {r r' : ρ} (h : t.insert r = some t')
    (hr : r' ∈ t'.rows) : r' ∈ t.rows ∨ r' = r := by
  unfold insert at h
  split at h
  · cases h
    rcases List.mem_append.mp hr with hr | hr
    · exact .inl hr
    · exact .inr (List.mem_singleton.mp hr)
  · cases h

/-- The largest entry of a column. -/
def highest (t : Table key) (column : ρ → Nat) : Option Nat := (t.rows.map column).max?

theorem highest_none {t : Table key} {column : ρ → Nat} :
    t.highest column = none ↔ ∀ k, t.find k = none := by
  rw [highest, List.max?_eq_none_iff, List.map_eq_nil_iff]
  constructor
  · intro h k
    rw [find, h, List.find?_nil]
  · intro h
    apply List.eq_nil_iff_forall_not_mem.mpr
    intro r hr
    cases (h (key r)).symm.trans (find_of_mem hr)

theorem highest_some {t : Table key} {column : ρ → Nat} {n : Nat} :
    t.highest column = some n ↔
      (∃ k r, t.find k = some r ∧ column r = n) ∧ ∀ k r, t.find k = some r → column r ≤ n := by
  rw [highest, List.max?_eq_some_iff, List.mem_map]
  constructor
  · intro ⟨⟨r,hr,hn⟩,hle⟩
    refine ⟨⟨key r,r,find_of_mem hr,hn⟩,fun k r' hf => ?_⟩
    exact hle _ (List.mem_map_of_mem (find_mem hf).1)
  · intro ⟨⟨k,r,hf,hn⟩,hle⟩
    refine ⟨⟨r,(find_mem hf).1,hn⟩,fun b hb => ?_⟩
    obtain ⟨r',hr',rfl⟩ := List.mem_map.mp hb
    exact hle _ r' (find_of_mem hr')

theorem highest_congr {t t' : Table key} (column : ρ → Nat) (h : ∀ k, t'.find k = t.find k) :
    t'.highest column = t.highest column := by
  cases ht : t.highest column with
  | none =>
    rw [highest_none] at ht ⊢
    intro k
    rw [h k]
    exact ht k
  | some n =>
    rw [highest_some] at ht ⊢
    simp only [h]
    exact ht

/-- Under a row that no row of its key was above. -/
theorem highest_raised {t t' : Table key} {column : ρ → Nat} {k : κ} {r : ρ}
    (hrows : ∀ k', t'.find k' = if k' = k then some r else t.find k')
    (hle : ∀ old, t.find k = some old → column old ≤ column r) :
    t'.highest column = some ((t.highest column).elim (column r) (max (column r))) := by
  rw [highest_some]
  have hnew : t'.find k = some r := (hrows k).trans (if_pos rfl)
  cases ht : t.highest column with
  | none =>
    refine ⟨⟨k,r,hnew,rfl⟩,fun k' r' hf => ?_⟩
    rw [hrows k', highest_none.mp ht k'] at hf
    split at hf
    · cases hf
      exact Nat.le_refl _
    · cases hf
  | some n =>
    obtain ⟨⟨top,rtop,hf,hn⟩,hall⟩ := highest_some.mp ht
    simp only [Option.elim_some]
    refine ⟨?_,fun k' r' hf' => ?_⟩
    · by_cases hlt : n ≤ column r
      · exact ⟨k,r,hnew,by omega⟩
      · have hne : top ≠ k := by
          intro he
          have := hle rtop (he ▸ hf)
          omega
        exact ⟨top,rtop,(hrows top).trans ((if_neg hne).trans hf),by omega⟩
    · rw [hrows k'] at hf'
      split at hf'
      · cases hf'
        exact Nat.le_max_left _ _
      · exact Nat.le_trans (hall k' r' hf') (Nat.le_max_right _ _)

end Table

end Tagwise.Lib
