import Tagwise.Indexer.Spec
import Tagwise.Lib.Ensures

namespace Tagwise.Indexer
open Js Tagwise.Core Services Lib

/-! The pipeline while the services around it fail and recover as they like: it is
the one writer of the mirror's rows, and a statement that fails writes nothing. -/

/-- From rows `ids`, the call can only end with `Q`. -/
abbrev Leaves (Q : Except Thrown α → Identities → Prop) (p : Async α) (ids : Identities) : Prop :=
  p.Ensures World.handle World.identities Q ids

/-- The commands that write no row of the mirror. -/
def OffRows (c : Command) : Prop :=
  ∀ w w' r, World.handle w c = some (w', r) → w'.identities = w.identities

theorem offRows_updateManyState (slot : Nat) : OffRows (.updateManyState slot) := by
  intro w w' r h
  simp only [World.handle] at h
  split at h
  · split at h
    · split at h
      · cases h; rfl
      · cases h; rfl
    · cases h; rfl
  · cases h; rfl

theorem offRows_findUniqueState : OffRows .findUniqueState := by
  intro w w' r h
  simp only [World.handle] at h
  split at h
  · cases h; rfl
  · cases h; rfl

theorem offRows_createState (slot : Nat) : OffRows (.createState slot) := by
  intro w w' r h
  simp only [World.handle] at h
  split at h
  · split at h
    · cases h; rfl
    · cases h; rfl
  · cases h; rfl

theorem offRows_redisDel (key : JsString) : OffRows (.redisDel key) := by
  intro w w' r h
  simp only [World.handle] at h
  split at h
  · cases h; rfl
  · cases h; rfl

theorem advanceCursor_offRows (slot : Nat) : (advanceCursor slot).Always OffRows := by
  refine Prog.always_bind
    (always_awaitDb ⟨offRows_updateManyState slot,fun _ => trivial⟩) (fun count => ?_)
  split
  · exact trivial
  · refine Prog.always_bind (always_awaitDb ⟨offRows_findUniqueState,fun _ => trivial⟩)
      (fun existing => ?_)
    split
    · exact always_awaitDb ⟨offRows_createState slot,fun _ => trivial⟩
    · exact trivial

theorem invalidate_offRows (dep : Deployment) (tag : NormalizedTag) (a : α) :
    (do invalidate dep tag; return a : Async α).Always OffRows :=
  ⟨offRows_redisDel _,fun _ => trivial⟩

/-- What a call that applies a change has done to the rows, however it ended: the
change, or nothing and then it threw. -/
structure Applies (change : VerifiedTagChange) (blocked : Bool) (ids : Identities)
    (r : Except Thrown α) (ids' : Identities) : Prop where
  others : ∀ t, t ≠ change.tag.text → ids'.find t = ids.find t
  own : (∃ now, ids'.find change.tag.text =
      some (absorb change blocked now (ids.find change.tag.text))) ∨
    ((∃ e, r = .error e) ∧ ids'.find change.tag.text = ids.find change.tag.text)

theorem applies_failed {change : VerifiedTagChange} {blocked : Bool} {ids ids' : Identities}
    (e : Thrown) (h : ∀ t, ids'.find t = ids.find t) :
    Applies change blocked ids (.error e : Except Thrown α) ids' :=
  ⟨fun t _ => h t,.inr ⟨⟨e,rfl⟩,h _⟩⟩

theorem applies_written {change : VerifiedTagChange} {blocked : Bool} {ids ids' : Identities}
    {r : Except Thrown α} (now : Nat)
    (h : ∀ t, ids'.find t = if t = change.tag.text then
      some (absorb change blocked now (ids.find change.tag.text)) else ids.find t) :
    Applies change blocked ids r ids' :=
  ⟨fun t ht => (h t).trans (if_neg ht),.inl ⟨now,(h _).trans (if_pos rfl)⟩⟩

theorem leaves_offRows {Q : Except Thrown α → Identities → Prop} {p : Async α} {ids : Identities}
    (hp : p.Always OffRows) (hq : ∀ r, Q r ids) : Leaves Q p ids :=
  Prog.ensures_mono (fun r _ he => he ▸ hq r) (Prog.ensures_apart hp)

/-- The row that is there, and the change not older: the one statement writes it. -/
theorem absorb_written {change : VerifiedTagChange} {blocked : Bool} {ids ids' : Identities}
    {row : Identity} (hf : ids.find change.tag.text = some row)
    (hids : ∀ t, ids'.find t = if t = change.tag.text then
      (ids.find t).map (fun row =>
        if row.lastAppliedSlot ≤ change.slot then (updateData change blocked).apply row else row)
      else ids.find t) (now : Nat) (t : JsString) :
    ids'.find t = if t = change.tag.text then
      some (absorb change blocked now (ids.find change.tag.text)) else ids.find t := by
  rw [hids]
  by_cases ht : t = change.tag.text
  · simp [ht, hf, absorb]
  · simp [ht]

/-- With no row there is nothing to select. -/
theorem unwritten {change : VerifiedTagChange} {blocked : Bool} {ids ids' : Identities}
    (hf : ids.find change.tag.text = none)
    (hids : ∀ t, ids'.find t = if t = change.tag.text then
      (ids.find t).map (fun row =>
        if row.lastAppliedSlot ≤ change.slot then (updateData change blocked).apply row else row)
      else ids.find t) (t : JsString) : ids'.find t = ids.find t := by
  rw [hids]
  by_cases ht : t = change.tag.text
  · simp [ht, hf]
  · simp [ht]

section Statements
variable {Q : Except Thrown α → Identities → Prop} {ids : Identities}

theorem leaves_updateMany {cond : IdentityWhere} {data : IdentityData} {f : Nat → Async α}
    (failed : ∀ e, Q (.error e) ids)
    (done : Leaves Q (f (ids.count cond.selects))
      (ids.updateMany cond.selects data.apply data.apply_tag)) :
    Leaves Q (updateMany cond data >>= f) ids := by
  rintro w w' r rfl hh
  by_cases up : w.dbUp = true
  · rw [World.handle_updateMany up] at hh
    cases hh
    exact done
  · cases (if_neg up).symm.trans hh
    exact failed _

theorem leaves_findUnique {tag : JsString} {f : Option Identity → Async α}
    (failed : ∀ e, Q (.error e) ids) (done : Leaves Q (f (ids.find tag)) ids) :
    Leaves Q (findUnique tag >>= f) ids := by
  rintro w w' r rfl hh
  by_cases up : w.dbUp = true
  · rw [World.handle_findUnique up] at hh
    cases hh
    exact done
  · cases (if_neg up).symm.trans hh
    exact failed _

theorem leaves_create {data : IdentityCreate} {f : Unit → Async α}
    (failed : ∀ e, Q (.error e) ids)
    (done : ∀ now ids', ids.insert (data.row now) = some ids' → Leaves Q (f ()) ids') :
    Leaves Q (create data >>= f) ids := by
  rintro w w' r rfl hh
  by_cases up : w.dbUp = true
  · cases hi : w.identities.insert (data.row w.now) with
    | some ids' =>
      rw [World.handle_create up hi] at hh
      cases hh
      exact done _ _ hi
    | none =>
      rw [World.handle_create_taken up hi] at hh
      cases hh
      exact failed _
  · cases (if_neg up).symm.trans hh
    exact failed _

end Statements

theorem applyChange_leaves (dep : Deployment) (change : VerifiedTagChange) (ids : Identities) :
    Leaves (Applies change (shouldBlockTag dep.engine change.tag) ids) (applyChange dep change)
      ids := by
  have hids := find_written change (updateData change (shouldBlockTag dep.engine change.tag)) ids
  apply leaves_updateMany (fun e => applies_failed e (fun _ => rfl))
  rw [count_notNewer]
  generalize ids.updateMany _ _ _ = ids1 at hids ⊢
  cases hf : ids.find change.tag.text with
  | some row =>
    have hw := absorb_written hf hids 0
    split
    · exact leaves_offRows (invalidate_offRows dep change.tag _) (fun _ => applies_written 0 hw)
    · apply leaves_findUnique (fun _ => applies_written 0 hw)
      rw [hw, if_pos rfl]
      exact applies_written 0 hw
  | none =>
    have hn := unwritten hf hids
    simp only [Option.any_none, Bool.false_eq_true, ↓reduceIte, gt_iff_lt, Nat.lt_irrefl]
    apply leaves_findUnique (fun e => applies_failed e hn)
    rw [hn, hf]
    apply leaves_create (fun e => applies_failed e hn)
    intro now ids2 hi
    obtain ⟨ids3,hi3,hfind⟩ := Table.insert_some
      (r := (createData change (shouldBlockTag dep.engine change.tag)).row now)
      (show ids1.find change.tag.text = none by rw [hn, hf])
    cases hi.symm.trans hi3
    apply leaves_offRows (invalidate_offRows dep change.tag _)
    refine fun r => applies_written now (fun t => (hfind t).trans ?_)
    rw [hf, hn]
    rfl

theorem processAccountObservation_leaves (dep : Deployment) {o : Observation}
    {change : VerifiedTagChange} (hd : decodeAndVerify dep o = .done (.ok change))
    (ids : Identities) :
    Leaves (Applies change (shouldBlockTag dep.engine change.tag) ids)
      (processAccountObservation dep o) ids := by
  rw [processAccountObservation, hd, Prog.done_bind]
  apply Prog.ensures_bind (applyChange_leaves dep change ids)
  · intro outcome ids' ha
    have hrest : (do
        if outcome ≠ .skippedStale then advanceCursor o.slot
        return if outcome = .skippedStale then .skipped else .applied :
        Async ProcessOutcome).Always OffRows := by
      by_cases hs : outcome = .skippedStale
      · simp only [hs, ne_eq, not_true_eq_false, ↓reduceIte]
        exact trivial
      · simp only [hs, ne_eq, not_false_eq_true, ↓reduceIte]
        exact Prog.always_bind (advanceCursor_offRows o.slot) (fun _ => trivial)
    apply leaves_offRows hrest
    refine fun r => ⟨ha.others,.inl ?_⟩
    rcases ha.own with hw | ⟨⟨e,he⟩,_⟩
    · exact hw
    · cases he
  · intro e ids' ha
    exact ⟨ha.others,ha.own.imp id (fun h => ⟨⟨e,rfl⟩,h.2⟩)⟩

end Tagwise.Indexer
