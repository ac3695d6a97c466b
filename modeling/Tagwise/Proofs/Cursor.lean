import Tagwise.Indexer.Spec
import Tagwise.Proofs.Convergence

namespace Tagwise.Proofs.Cursor
open Js Lib Tagwise.Core Services Indexer
open Convergence (emptyMirror)

/-- The call comes to its end, and does not throw. -/
def Completes (dep : Deployment) (o : Observation) (w w' : World) : Prop :=
  ∃ outcome, (processAccountObservation dep o).run World.handle w = some (w', .ok outcome)

/-- Completed calls, one after another. Whatever else happens between them leaves both
tables alone. -/
inductive Processed (dep : Deployment) (w : World) : List Observation → World → Prop
  | start : Processed dep w [] w
  | call {os : List Observation} {w' w'' : World} (o : Observation) (before : Processed dep w os w')
      (done : Completes dep o w' w'') : Processed dep w (os ++ [o]) w''
  | outside {os : List Observation} {w' w'' : World} (before : Processed dep w os w')
      (identities : w''.identities = w'.identities)
      (cursor : w''.lastProcessedSlot = w'.lastProcessedSlot) : Processed dep w os w''

/-- The cursor stands at the newest slot of the rows, and there is none without rows. -/
def Tracks (w : World) : Prop :=
  w.lastProcessedSlot = w.identities.highest Identity.lastAppliedSlot

/-- A change of the observation's slot, absorbed by the row of its tag. -/
structure Absorbs (dep : Deployment) (slot : Nat) (w w' : World) (change : VerifiedTagChange) :
    Prop where
  is : change.slot = slot
  rows : ∀ t, w'.identities.find t =
    if t = change.tag.text then
      some (absorb change (shouldBlockTag dep.engine change.tag) w.now
        (w.identities.find change.tag.text))
    else w.identities.find t
  cursor : w'.lastProcessedSlot =
    if outcomeOn change (w.identities.find change.tag.text) = .skippedStale then
      w.lastProcessedSlot
    else some (cursorAfter slot w.lastProcessedSlot)

theorem decodeAndVerify_cases (dep : Deployment) (o : Observation) :
    (∃ change, change.slot = o.slot ∧ decodeAndVerify dep o = .done (.ok change)) ∨
    (∃ reason, decodeAndVerify dep o = .done (.error reason)) ∨
    ∃ e, decodeAndVerify dep o = .fail e := by
  unfold decodeAndVerify
  cases decodeTagAccount dep.sol o.data with
  | error e => exact .inr (.inl ⟨_,rfl⟩)
  | ok decoded =>
    simp only
    cases deriveTagPda dep.sol decoded.tag.text with
    | error e => exact .inr (.inr ⟨_,rfl⟩)
    | ok found =>
      obtain ⟨derived,bump⟩ := found
      by_cases hd : derived = o.address
      · simp only [hd, ne_eq, not_true_eq_false, ↓reduceIte]
        exact .inl ⟨_,rfl,rfl⟩
      · simp only [hd, ne_eq, not_false_eq_true, ↓reduceIte]
        exact .inr (.inl ⟨_,rfl⟩)

/-- Without a database the first statement of a change throws. -/
theorem applyChange_down (dep : Deployment) (change : VerifiedTagChange) {w : World}
    (down : w.dbUp ≠ true) :
    (applyChange dep change).run World.handle w = some (w, .error (.database .unavailable)) := by
  have hu : w.handle (.updateManyIdentity (notNewer change)
      (updateData change (shouldBlockTag dep.engine change.tag))) =
      some (w, .error .unavailable) := if_neg down
  exact (Prog.run_call hu).trans rfl

theorem completed (dep : Deployment) {o : Observation} {w w' : World} (h : Completes dep o w w') :
    w' = w ∨ ∃ change, Absorbs dep o.slot w w' change := by
  obtain ⟨outcome,h⟩ := h
  rcases decodeAndVerify_cases dep o with ⟨change,hslot,hd⟩ | ⟨reason,hd⟩ | ⟨e,hd⟩
  · by_cases up : w.dbUp = true
    · obtain ⟨identities,redis,cursor,hrun,hfind,hcursor⟩ := processAccountObservation_run dep hd up
      cases hrun.symm.trans h
      exact .inr ⟨change,hslot,hfind,hcursor⟩
    · rw [processAccountObservation, hd, Prog.done_bind] at h
      simp only at h
      rw [Prog.run_bind, applyChange_down dep change up] at h
      cases h
  · rw [processAccountObservation, hd] at h
    cases h
    exact .inl rfl
  · rw [processAccountObservation, hd] at h
    cases h

theorem absorb_slot {change : VerifiedTagChange} (blocked : Bool) (now : Nat)
    {row : Option Identity} (h : outcomeOn change row ≠ .skippedStale) :
    (absorb change blocked now row).lastAppliedSlot = change.slot ∧
    ∀ r, row = some r → r.lastAppliedSlot ≤ change.slot := by
  cases row with
  | none => exact ⟨rfl,fun r hr => (by cases hr)⟩
  | some r =>
    by_cases hle : r.lastAppliedSlot ≤ change.slot
    · rw [absorb, if_pos hle]
      refine ⟨rfl,fun r' hr => ?_⟩
      cases hr
      exact hle
    · simp [outcomeOn, hle] at h

/-- The cursor and the rows take the slot of a change together, or neither does. -/
theorem Absorbs.tracks {dep : Deployment} {slot : Nat} {w w' : World} {change : VerifiedTagChange}
    (h : Absorbs dep slot w w' change) (ht : Tracks w) : Tracks w' := by
  have hcursor := h.cursor
  by_cases hs : outcomeOn change (w.identities.find change.tag.text) = .skippedStale
  · rw [if_pos hs] at hcursor
    have hstale : w.identities.find change.tag.text =
        some (absorb change (shouldBlockTag dep.engine change.tag) w.now
          (w.identities.find change.tag.text)) :=
      Convergence.absorb_stale ((Convergence.outcomeOn_stale change _).mp hs)
    have hsame : ∀ t, w'.identities.find t = w.identities.find t := by
      intro t
      rw [h.rows t, ← hstale]
      split
      · next he => rw [he]
      · rfl
    rw [Tracks, hcursor, ht, Table.highest_congr Identity.lastAppliedSlot hsame]
  · rw [if_neg hs] at hcursor
    obtain ⟨hslot,hle⟩ := absorb_slot (shouldBlockTag dep.engine change.tag) w.now hs
    rw [Tracks, hcursor, ht, Table.highest_raised h.rows (by rw [hslot]; exact hle), hslot, h.is]
    cases w.identities.highest Identity.lastAppliedSlot with
    | none => rfl
    | some n => simp [cursorAfter, Nat.max_comm]

theorem tracks_run {dep : Deployment} {w w' : World} {os : List Observation}
    (h : Processed dep w os w') (h0 : Tracks w) : Tracks w' := by
  induction h with
  | start => exact h0
  | call o before done ih =>
    rcases completed dep done with rfl | ⟨change,habs⟩
    · exact ih
    · exact habs.tracks ih
  | outside before identities cursor ih =>
    rw [Tracks, cursor, identities]
    exact ih

/-- The cursor only moves forward. -/
theorem cursor_monotone {dep : Deployment} {w w' : World} {os : List Observation}
    (h : Processed dep w os w') {slot : Nat} (h0 : w.lastProcessedSlot = some slot) :
    ∃ later, w'.lastProcessedSlot = some later ∧ slot ≤ later := by
  induction h with
  | start => exact ⟨slot,h0,Nat.le_refl _⟩
  | call o before done ih =>
    obtain ⟨later,hl,hle⟩ := ih
    rcases completed dep done with rfl | ⟨change,habs⟩
    · exact ⟨later,hl,hle⟩
    · rw [habs.cursor, hl]
      split
      · exact ⟨later,rfl,hle⟩
      · exact ⟨_,rfl,Nat.le_trans hle (Nat.le_max_left _ _)⟩
  | outside before identities cursor ih =>
    rw [cursor]
    exact ih

theorem cursor_tracks (dep : Deployment) (w : World) {os : List Observation} {w' : World}
    (h : Processed dep (emptyMirror w) os w') :
    (w'.lastProcessedSlot ≠ none ↔ w'.identities.rows ≠ []) ∧
    w'.lastProcessedSlot = (w'.identities.rows.map Identity.lastAppliedSlot).max? ∧
    ∀ os' w'', Processed dep w' os' w'' → ∀ slot, w'.lastProcessedSlot = some slot →
      ∃ later, w''.lastProcessedSlot = some later ∧ slot ≤ later := by
  have ht : Tracks w' := tracks_run h rfl
  refine ⟨?_,ht,fun os' w'' hlater slot hslot => cursor_monotone hlater hslot⟩
  rw [ht, Table.highest, Ne, List.max?_eq_none_iff, List.map_eq_nil_iff]

/-- The account of `abc`, seen in a slot. -/
def abcSeen (slot : Nat) : Observation where
  address := Program.base58 Program.abcAddress
  data := Program.abcAccount.serialize
  slot := slot

/-- A buffer that is no account, a sighting, and an older one. -/
theorem abc_tracked :
    ∃ w', Processed .sample (emptyMirror World.fresh)
        [⟨js "junk", [1, 2, 3], 9⟩, abcSeen 7, abcSeen 5] w' ∧
      (w'.lastProcessedSlot ≠ none ↔ w'.identities.rows ≠ []) ∧
      w'.lastProcessedSlot = (w'.identities.rows.map Identity.lastAppliedSlot).max? ∧
      (∀ os' w'', Processed .sample w' os' w'' → ∀ slot, w'.lastProcessedSlot = some slot →
        ∃ later, w''.lastProcessedSlot = some later ∧ slot ≤ later) ∧
      w'.lastProcessedSlot = some 7 ∧
      w'.identities.rows.map (fun row => (row.tag, row.lastAppliedSlot)) = [(js "abc", 7)] := by
  have hw := Representation.after_wellFormed Program.sampleSolana [Representation.registersAbc]
    Program.abcAddress Program.abcAccount (by decide)
  have hjunk : Completes .sample ⟨js "junk", [1, 2, 3], 9⟩ (emptyMirror World.fresh)
      (emptyMirror World.fresh) := ⟨_,rfl⟩
  obtain ⟨w,hrun,hseen⟩ := Convergence.process_observed .sample hw 7 (w := emptyMirror World.fresh) rfl
  obtain ⟨w',hrun',_⟩ := Convergence.process_observed .sample hw 5 (hseen.up rfl)
  have h : Processed .sample (emptyMirror World.fresh)
      [⟨js "junk", [1, 2, 3], 9⟩, abcSeen 7, abcSeen 5] w' :=
    ((Processed.start.call _ hjunk).call (abcSeen 7) ⟨_,hrun⟩).call (abcSeen 5) ⟨_,hrun'⟩
  have hfinal : (((processAccountObservation .sample (abcSeen 7)).run World.handle
      (emptyMirror World.fresh)).bind (fun first =>
        (processAccountObservation .sample (abcSeen 5)).run World.handle first.1)).map
      (fun second => (second.1.lastProcessedSlot,
        second.1.identities.rows.map (fun row => (row.tag, row.lastAppliedSlot)))) =
      some (some 7, [(js "abc", 7)]) := by decide +kernel
  have hends : (((processAccountObservation .sample (abcSeen 7)).run World.handle
      (emptyMirror World.fresh)).bind (fun first =>
        (processAccountObservation .sample (abcSeen 5)).run World.handle first.1)) = some (w', _) :=
    (congrArg (Option.bind · _) hrun).trans hrun'
  rw [hends] at hfinal
  obtain ⟨hcursor,hrows⟩ := Prod.mk.inj (Option.some.inj hfinal)
  obtain ⟨hsome,hmax,hlater⟩ := cursor_tracks .sample World.fresh h
  exact ⟨w',h,hsome,hmax,hlater,hcursor,hrows⟩

end Tagwise.Proofs.Cursor
