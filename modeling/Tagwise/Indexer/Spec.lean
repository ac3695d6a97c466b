import Tagwise.Indexer.Pipeline

namespace Tagwise.Indexer
open Js Tagwise.Core Services Lib

/-! What one call does by itself, the database reachable. -/

section Statements
variable {w : World} (up : w.dbUp = true)
include up

theorem run_updateMany (cond : IdentityWhere) (data : IdentityData) (f : Nat → Async α) :
    (updateMany cond data >>= f).run World.handle w =
      (f (w.identities.count cond.selects)).run World.handle (w.updateManyIdentity cond data) :=
  Prog.run_call (World.handle_updateMany up cond data)

theorem run_findUnique (tag : JsString) (f : Option Identity → Async α) :
    (findUnique tag >>= f).run World.handle w = (f (w.identities.find tag)).run World.handle w :=
  Prog.run_call (World.handle_findUnique up tag)

theorem run_create {data : IdentityCreate} {identities : Identities}
    (h : w.identities.insert (data.row w.now) = some identities) (f : Unit → Async α) :
    (create data >>= f).run World.handle w = (f ()).run World.handle { w with identities } :=
  Prog.run_call (World.handle_create up h)

end Statements

theorem run_invalidate (dep : Deployment) (tag : JsString) (w : World) (f : Unit → Async α) :
    ∃ redis, (invalidate dep tag >>= f).run World.handle w =
      (f ()).run World.handle { w with redis } := by
  obtain ⟨redis,r,h⟩ := w.handle_redisDel (buildResolveCacheKey dep.redisKeyPrefix tag)
  exact ⟨redis,Prog.run_call h⟩

/-- The row under the change's tag after the change was applied to it. -/
def absorb (change : VerifiedTagChange) (blocked : Bool) (now : Nat) : Option Identity → Identity
  | none => (createData change blocked).row now
  | some row =>
    if row.lastAppliedSlot ≤ change.slot then (updateData change blocked).apply row else row

def outcomeOn (change : VerifiedTagChange) : Option Identity → ApplyOutcome
  | none => .created
  | some row => if row.lastAppliedSlot ≤ change.slot then .updated else .skippedStale

theorem notNewer_selects (change : VerifiedTagChange) (row : Identity) :
    (notNewer change).selects row = true ↔
      row.tag = change.tag.text ∧ row.lastAppliedSlot ≤ change.slot :=
  (IdentityWhere.selects_iff _ row).trans (by simp [notNewer])

theorem count_notNewer (change : VerifiedTagChange) (ids : Identities) :
    ids.count (notNewer change).selects =
      if (ids.find change.tag.text).any (·.lastAppliedSlot ≤ change.slot) then 1 else 0 := by
  rw [Table.count_key ids (k := change.tag.text) (fun row h => ((notNewer_selects change row).mp h).1)]
  cases hf : ids.find change.tag.text with
  | none => rfl
  | some row =>
    have hs := notNewer_selects change row
    simp only [(Table.find_mem hf).2, true_and] at hs
    simp [hs]

/-- The guarded statement rewrites the one row it selects. -/
theorem find_written (change : VerifiedTagChange) (data : IdentityData) (ids : Identities)
    (t : JsString) :
    (ids.updateMany (notNewer change).selects data.apply data.apply_tag).find t =
      if t = change.tag.text then
        (ids.find t).map (fun row =>
          if row.lastAppliedSlot ≤ change.slot then data.apply row else row)
      else ids.find t := by
  rw [Table.find_updateMany]
  cases hf : ids.find t with
  | none => simp
  | some row =>
    have hs := notNewer_selects change row
    rw [(Table.find_mem hf).2] at hs
    by_cases ht : t = change.tag.text
    · simp only [ht, true_and] at hs
      simp [ht, hs]
    · simp only [ht, false_and, iff_false] at hs
      simp [ht, hs]

theorem applyChange_run (dep : Deployment) (change : VerifiedTagChange) {w : World}
    (up : w.dbUp = true) :
    ∃ identities redis,
      (applyChange dep change).run World.handle w =
        some ({ w with identities, redis }, .ok (outcomeOn change (w.identities.find change.tag.text))) ∧
      ∀ t, identities.find t =
        if t = change.tag.text then
          some (absorb change (shouldBlockTag dep.engine change.tag) w.now
            (w.identities.find change.tag.text))
        else w.identities.find t := by
  have hw : ∀ t, (w.updateManyIdentity (notNewer change)
      (updateData change (shouldBlockTag dep.engine change.tag))).identities.find t = _ :=
    find_written change (updateData change (shouldBlockTag dep.engine change.tag)) w.identities
  have hc := count_notNewer change w.identities
  unfold applyChange
  simp only
  rw [run_updateMany up]
  generalize hw1 : w.updateManyIdentity (notNewer change)
    (updateData change (shouldBlockTag dep.engine change.tag)) = w1 at hw ⊢
  have hup1 : w1.dbUp = true := by rw [← hw1]; exact up
  have hnow : w1.now = w.now := by rw [← hw1]; rfl
  have hrest : ∀ identities redis, { w1 with identities, redis } = { w with identities, redis } := by
    rw [← hw1]
    exact fun _ _ => rfl
  cases hf : w.identities.find change.tag.text with
  | none =>
    rw [hf] at hc
    have hn : w1.identities.find change.tag.text = none := by rw [hw, if_pos rfl, hf]; rfl
    obtain ⟨identities,hi,hfind⟩ := Table.insert_some
      (r := (createData change (shouldBlockTag dep.engine change.tag)).row w1.now) hn
    obtain ⟨redis,hr⟩ := run_invalidate dep change.tag { w1 with identities }
      (fun _ => (pure .created : Async ApplyOutcome))
    refine ⟨identities,redis,?_,?_⟩
    · simp only [hc, Option.any_none, Bool.false_eq_true, ↓reduceIte, gt_iff_lt, Nat.lt_irrefl]
      rw [run_findUnique hup1, hn, run_create hup1 hi, hr, hrest]
      rfl
    · intro t
      rw [hfind]
      simp only [createData, IdentityCreate.row, absorb, hnow]
      by_cases ht : t = change.tag.text
      · simp [ht]
      · simp [ht, hw]
  | some row =>
    rw [hf] at hc
    by_cases hle : row.lastAppliedSlot ≤ change.slot
    · obtain ⟨redis,hr⟩ := run_invalidate dep change.tag w1
        (fun _ => (pure .updated : Async ApplyOutcome))
      refine ⟨w1.identities,redis,?_,?_⟩
      · simp only [hc, Option.any_some, hle, decide_true, ↓reduceIte, gt_iff_lt, Nat.lt_add_one]
        rw [hr, hrest]
        simp [outcomeOn, hle]
      · intro t
        rw [hw]
        by_cases ht : t = change.tag.text
        · simp [ht, hf, absorb, hle]
        · simp [ht]
    · have hs : w1.identities.find change.tag.text = some row := by
        rw [hw, if_pos rfl, hf]
        simp [hle]
      refine ⟨w1.identities,w1.redis,?_,?_⟩
      · simp only [hc, Option.any_some, hle, decide_false, Bool.false_eq_true, ↓reduceIte,
          gt_iff_lt, Nat.lt_irrefl]
        rw [run_findUnique hup1, hs, ← hrest]
        simp [outcomeOn, hle]
      · intro t
        rw [hw]
        by_cases ht : t = change.tag.text
        · simp [ht, hf, absorb, hle]
        · simp [ht]

/-- Where the cursor stands after it was offered a slot. -/
def cursorAfter (slot : Nat) : Option Nat → Nat
  | none => slot
  | some stored => max stored slot

theorem advanceCursor_run (slot : Nat) {w : World} (up : w.dbUp = true) :
    (advanceCursor slot).run World.handle w =
      some ({ w with lastProcessedSlot := some (cursorAfter slot w.lastProcessedSlot) }, .ok ()) := by
  have hfind : w.handle .findUniqueState = some (w, .ok w.lastProcessedSlot) := if_pos up
  cases hl : w.lastProcessedSlot with
  | none =>
    have hupd : w.handle (.updateManyState slot) = some (w, .ok 0) := by
      apply (if_pos up).trans
      rw [hl]
    have hcreate : w.handle (.createState slot) =
        some ({ w with lastProcessedSlot := some slot }, .ok ()) := by
      apply (if_pos up).trans
      rw [hl]
    rw [hl] at hfind
    exact (Prog.run_call hupd).trans ((Prog.run_call hfind).trans (Prog.run_call hcreate))
  | some stored =>
    by_cases hlt : stored < slot
    · have hupd : w.handle (.updateManyState slot) =
          some ({ w with lastProcessedSlot := some slot }, .ok 1) := by
        apply (if_pos up).trans
        rw [hl]
        exact if_pos hlt
      rw [cursorAfter, Nat.max_eq_right (Nat.le_of_lt hlt)]
      exact Prog.run_call hupd
    · have hupd : w.handle (.updateManyState slot) = some (w, .ok 0) := by
        apply (if_pos up).trans
        rw [hl]
        exact if_neg hlt
      rw [cursorAfter, Nat.max_eq_left (Nat.le_of_not_lt hlt), ← hl]
      rw [hl] at hfind
      exact (Prog.run_call hupd).trans (Prog.run_call hfind)

/-- The whole pipeline on an observation that passes `decodeAndVerify`. -/
theorem processAccountObservation_run (dep : Deployment) {o : Observation}
    {change : VerifiedTagChange} (hd : decodeAndVerify dep o = .done (.ok change)) {w : World}
    (up : w.dbUp = true) :
    ∃ identities redis lastProcessedSlot,
      (processAccountObservation dep o).run World.handle w =
        some ({ w with identities, redis, lastProcessedSlot },
          .ok (if outcomeOn change (w.identities.find change.tag.text) = .skippedStale then .skipped
            else .applied)) ∧
      (∀ t, identities.find t =
        if t = change.tag.text then
          some (absorb change (shouldBlockTag dep.engine change.tag) w.now
            (w.identities.find change.tag.text))
        else w.identities.find t) ∧
      lastProcessedSlot =
        if outcomeOn change (w.identities.find change.tag.text) = .skippedStale then
          w.lastProcessedSlot
        else some (cursorAfter o.slot w.lastProcessedSlot) := by
  obtain ⟨identities,redis,hrun,hfind⟩ := applyChange_run dep change up
  rw [processAccountObservation, hd, Prog.done_bind]
  simp only
  rw [Prog.run_bind_ok hrun]
  by_cases hs : outcomeOn change (w.identities.find change.tag.text) = .skippedStale
  · refine ⟨identities,redis,w.lastProcessedSlot,?_,hfind,(if_pos hs).symm⟩
    simp [hs]
  · refine ⟨identities,redis,some (cursorAfter o.slot w.lastProcessedSlot),?_,hfind,
      (if_neg hs).symm⟩
    simp only [ne_eq, hs, not_false_eq_true, ↓reduceIte]
    exact Prog.run_bind_ok (advanceCursor_run o.slot (w := { w with identities, redis }) up)

end Tagwise.Indexer
