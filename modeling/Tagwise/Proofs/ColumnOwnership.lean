import Tagwise.Indexer.Spec
import Tagwise.Proofs.MirrorLedger

namespace Tagwise.Proofs.ColumnOwnership
open Js Tagwise.Core Services Api Lib
open Indexer (VerifiedTagChange createData updateData notNewer shouldBlockTag)
open MirrorRecord (find_unselected find_inserted)

/-- Anything that happens beside the calls and writes no row. -/
structure Elsewhere where
  act : World → World
  rows : ∀ w, (act w).identities = w.identities

abbrev RowEvent := Event MirrorCall Elsewhere

def step (dep : Deployment) : MirrorPool → RowEvent → MirrorPool :=
  Pool.step World.handle (MirrorCall.body dep) (fun w what => what.act w)

/-- The pool after any calls and turns, from any state of the services. -/
def after (dep : Deployment) (w : World) (events : List RowEvent) : MirrorPool :=
  run (step dep) (Pool.init w) events

/-- The commands that can write a row. -/
def writesRows : Command → Bool
  | .updateManyIdentity _ _ | .updateIdentity _ _ | .createIdentity _ => true
  | _ => false

theorem writesRows_of_writes {c : Command} {r : Reply c} {tag : JsString}
    (h : MirrorRecord.writes c r = some tag) : writesRows c = true := by
  cases c with
  | updateManyIdentity | updateIdentity | createIdentity => rfl
  | _ => cases h

/-- The row statements of each call, as the code spells them. -/
def Sends (dep : Deployment) : MirrorCall → Command → Prop
  | .resolve _ _, c => writesRows c = false
  | .applyChange change, c => writesRows c = false ∨
      c = .updateManyIdentity (notNewer change)
        (updateData change (shouldBlockTag dep.engine change.tag)) ∨
      c = .createIdentity (createData change (shouldBlockTag dep.engine change.tag))
  | .updateIdentity params, c => writesRows c = false ∨
      c = .updateIdentity params.tag (profileData params.dto params.provided)
  | .backfillModerationGate, c => writesRows c = false ∨
      ∃ tag, c = .updateManyIdentity { tag, status := some .active } { status := some .blocked }

theorem reading_sends {c : Command} (h : MirrorRecord.Reading c) : writesRows c = false := by
  cases c with
  | updateManyIdentity cond data => exact absurd (h (.ok 1)) (by simp [MirrorRecord.writes])
  | createIdentity data => exact absurd (h (.ok ())) (by simp [MirrorRecord.writes])
  | updateIdentity tag data =>
    exact absurd (h (.ok (IdentityCreate.row ⟨[],[],[],0,none,0⟩ 0))) (by simp [MirrorRecord.writes])
  | _ => rfl

theorem body_sends (dep : Deployment) (call : MirrorCall) :
    (MirrorCall.body dep call).Always (Sends dep call) := by
  cases call with
  | resolve server tag =>
    exact Prog.always_mono (fun c hc => reading_sends hc.1) (MirrorLedger.resolve_body server tag)
  | applyChange change =>
    exact Prog.always_bind (WriterPath.applyChange_always dep (.inr (.inl rfl)) (.inl rfl)
      (.inr (.inr rfl)) (.inl rfl)) (fun _ => trivial)
  | updateIdentity params =>
    exact Prog.always_bind (WriterPath.updateIdentity_always dep (.inl rfl) (.inr rfl) (.inl rfl))
      (fun _ => trivial)
  | backfillModerationGate =>
    exact Prog.always_bind (WriterPath.backfill_always dep (.inl rfl) (fun tag => .inr ⟨tag,rfl⟩)
      (fun _ => .inl rfl)) (fun _ => trivial)

/-- Everything a turn of a call can do to the row under one tag. -/
inductive Moves (dep : Deployment) (call : MirrorCall) (tag : JsString) :
    Option Identity → Option Identity → Prop
  | kept (row : Option Identity) : Moves dep call tag row row
  | applied (change : VerifiedTagChange) (row : Identity) (is : call = .applyChange change)
      (here : change.tag.text = tag) :
      Moves dep call tag (some row)
        (some ((updateData change (shouldBlockTag dep.engine change.tag)).apply row))
  | created (change : VerifiedTagChange) (now : Nat) (is : call = .applyChange change)
      (here : change.tag.text = tag) :
      Moves dep call tag none
        (some ((createData change (shouldBlockTag dep.engine change.tag)).row now))
  | edited (params : UpdateIdentityParams) (row : Identity) (is : call = .updateIdentity params)
      (here : params.tag.text = tag) :
      Moves dep call tag (some row) (some ((profileData params.dto params.provided).apply row))
  | blocked (row : Identity) (is : call = .backfillModerationGate) (active : row.status = .active) :
      Moves dep call tag (some row) (some { row with status := .blocked })

section Turns
variable {dep : Deployment} {call : MirrorCall} {w w' : World} {c : Command} {r : Reply c}

theorem handle_kept (hc : writesRows c = false) (h : w.handle c = some (w', r)) :
    w'.identities = w.identities := by
  cases c with
  | updateManyIdentity | updateIdentity | createIdentity => cases hc
  | enterFlight server key =>
    simp only [World.handle] at h
    split at h
    all_goals
      cases h
      rfl
  | leaveFlight =>
    cases h
    rfl
  | _ =>
    simp only [World.handle] at h
    repeat' split at h
    all_goals first
      | (cases h; rfl)
      | cases h

theorem handle_updateMany_rows {cond : IdentityWhere} {data : IdentityData} {r}
    (h : w.handle (.updateManyIdentity cond data) = some (w', r)) (tag : JsString) :
    w'.identities.find tag = w.identities.find tag ∨
    ∃ row, cond.selects row = true ∧ w.identities.find tag = some row ∧
      w'.identities.find tag = some (data.apply row) := by
  simp only [World.handle] at h
  split at h
  · cases h
    simp only [World.updateManyIdentity, Table.find_updateMany]
    cases hf : w.identities.find tag with
    | none => exact .inl rfl
    | some row =>
      by_cases hs : cond.selects row = true
      · exact .inr ⟨row,hs,rfl,by simp [hs]⟩
      · exact .inl (by simp [hs])
  · cases h
    exact .inl rfl

theorem handle_update_rows {t : JsString} {data : IdentityData} {r}
    (h : w.handle (.updateIdentity t data) = some (w', r)) (tag : JsString) :
    w'.identities.find tag = w.identities.find tag ∨
    ∃ row, t = tag ∧ w.identities.find tag = some row ∧
      w'.identities.find tag = some (data.apply row) := by
  rcases World.handle_update_cases h with ⟨found,hfound,rfl,_⟩ | ⟨rfl,_⟩
  · by_cases ht : t = tag
    · subst ht
      refine .inr ⟨found,rfl,hfound,?_⟩
      simp [World.updateManyIdentity, hfound, IdentityWhere.selects, (Table.find_mem hfound).2]
    · exact .inl (find_unselected (.inl ht))
  · exact .inl rfl

theorem handle_create_rows {data : IdentityCreate} {r}
    (h : w.handle (.createIdentity data) = some (w', r)) (tag : JsString) :
    w'.identities.find tag = w.identities.find tag ∨
    data.tag = tag ∧ w.identities.find tag = none ∧
      w'.identities.find tag = some (data.row w.now) := by
  simp only [World.handle] at h
  split at h
  · split at h
    · rename_i identities fits
      cases h
      by_cases ht : data.tag = tag
      · subst ht
        refine .inr ⟨rfl,?_,?_⟩
        · cases hf : w.identities.find data.tag with
          | none => rfl
          | some row => cases (Table.insert_taken hf).symm.trans fits
        · rw [find_inserted fits]
          exact if_pos rfl
      · refine .inl ?_
        rw [find_inserted fits]
        exact if_neg fun he => ht he.symm
    · cases h
      exact .inl rfl
  · cases h
    exact .inl rfl

theorem handle_moves (hs : Sends dep call c) (h : w.handle c = some (w', r)) (tag : JsString) :
    Moves dep call tag (w.identities.find tag) (w'.identities.find tag) := by
  have kept : w'.identities.find tag = w.identities.find tag →
      Moves dep call tag (w.identities.find tag) (w'.identities.find tag) :=
    fun he => he ▸ .kept _
  cases call with
  | resolve server t => exact kept (by rw [handle_kept hs h])
  | applyChange change =>
    rcases hs with hs | rfl | rfl
    · exact kept (by rw [handle_kept hs h])
    · rcases handle_updateMany_rows h tag with he | ⟨row,hsel,hf,hf'⟩
      · exact kept he
      · have ht := ((Indexer.notNewer_selects change row).mp hsel).1
        rw [hf, hf']
        exact .applied change row rfl (ht.symm.trans (Table.find_mem hf).2)
    · rcases handle_create_rows h tag with he | ⟨ht,hf,hf'⟩
      · exact kept he
      · rw [hf, hf']
        exact .created change w.now rfl ht
  | updateIdentity params =>
    rcases hs with hs | rfl
    · exact kept (by rw [handle_kept hs h])
    · rcases handle_update_rows h tag with he | ⟨row,ht,hf,hf'⟩
      · exact kept he
      · rw [hf, hf']
        exact .edited params row rfl ht
  | backfillModerationGate =>
    rcases hs with hs | ⟨t,rfl⟩
    · exact kept (by rw [handle_kept hs h])
    · rcases handle_updateMany_rows h tag with he | ⟨row,hsel,hf,hf'⟩
      · exact kept he
      · have hactive := ((IdentityWhere.selects_iff _ row).mp hsel).2.2 .active rfl
        rw [hf, hf']
        exact .blocked row rfl hactive

theorem step_moves {pool : MirrorPool}
    (hr : Recorded World.handle (MirrorCall.body dep) pool) (event : RowEvent) (tag : JsString) :
    (step dep pool event).shared.identities.find tag = pool.shared.identities.find tag ∨
    ∃ call, Takes pool event call ∧ Moves dep call tag (pool.shared.identities.find tag)
      ((step dep pool event).shared.identities.find tag) := by
  rcases step_shared (body_sends dep) hr event with he | ⟨what,rfl,he⟩ | ⟨call,c,r,ht,hs,hh⟩
  · exact .inl (congrArg (fun w => w.identities.find tag) he)
  · have hrows := congrArg (fun w => w.identities.find tag) he
    simp only [what.rows] at hrows
    exact .inl hrows
  · exact .inr ⟨call,ht,handle_moves hs hh tag⟩

end Turns

/-- No call that applies a change to the tag has this turn. -/
def NoChange (tag : JsString) (pool : MirrorPool) (event : RowEvent) : Prop :=
  ∀ change : VerifiedTagChange, change.tag.text = tag → ¬ Takes pool event (.applyChange change)

/-- No call that edits the tag's profile has this turn. -/
def NoEdit (tag : JsString) (pool : MirrorPool) (event : RowEvent) : Prop :=
  ∀ params : UpdateIdentityParams, params.tag.text = tag →
    ¬ Takes pool event (.updateIdentity params)

/-- What stands of a row, given that some columns were not written. -/
structure Kept (unchanged unedited : Prop) (row row' : Identity) : Prop where
  tag : row'.tag = row.tag
  verified : row'.verified = row.verified
  merchant : row'.merchant = row.merchant
  createdAt : row'.createdAt = row.createdAt
  /-- Never from blocked to active. -/
  status : row'.status = row.status ∨ row.status = .active ∧ row'.status = .blocked
  onChain : unchanged → row'.owner = row.owner ∧ row'.wallet = row.wallet ∧
    row'.bump = row.bump ∧ row'.lastAppliedSlot = row.lastAppliedSlot
  profile : unedited → row'.displayName = row.displayName ∧ row'.avatar = row.avatar ∧
    row'.bio = row.bio ∧ row'.preferredToken = row.preferredToken

theorem Kept.refl (unchanged unedited : Prop) (row : Identity) : Kept unchanged unedited row row :=
  ⟨rfl,rfl,rfl,rfl,.inl rfl,fun _ => ⟨rfl,rfl,rfl,rfl⟩,fun _ => ⟨rfl,rfl,rfl,rfl⟩⟩

theorem Kept.trans {c c' p p' : Prop} {row mid row' : Identity} (h : Kept c p row mid)
    (h' : Kept c' p' mid row') : Kept (c ∧ c') (p ∧ p') row row' where
  tag := h'.tag.trans h.tag
  verified := h'.verified.trans h.verified
  merchant := h'.merchant.trans h.merchant
  createdAt := h'.createdAt.trans h.createdAt
  status := by
    rcases h'.status with he' | ⟨ha',hb'⟩
    · rw [he']
      exact h.status
    · rcases h.status with he | ⟨ha,hb⟩
      · exact .inr ⟨he ▸ ha',hb'⟩
      · cases ha'.symm.trans hb
  onChain := by
    rintro ⟨hc,hc'⟩
    obtain ⟨ho,hw,hb,hs⟩ := h.onChain hc
    obtain ⟨ho',hw',hb',hs'⟩ := h'.onChain hc'
    exact ⟨ho'.trans ho,hw'.trans hw,hb'.trans hb,hs'.trans hs⟩
  profile := by
    rintro ⟨hp,hp'⟩
    obtain ⟨hd,ha,hb,ht⟩ := h.profile hp
    obtain ⟨hd',ha',hb',ht'⟩ := h'.profile hp'
    exact ⟨hd'.trans hd,ha'.trans ha,hb'.trans hb,ht'.trans ht⟩

theorem blockedStatus_getD (blocked : Bool) (status : IdentityStatus) :
    (Indexer.blockedStatus blocked).getD status = if blocked then .blocked else status := by
  cases blocked with
  | true => rfl
  | false => rfl

section Runs
variable {dep : Deployment} {pool : MirrorPool} {tag : JsString}

theorem moves_kept {call : MirrorCall} {row : Identity} {found : Option Identity}
    (h : Moves dep call tag (some row) found) :
    ∃ row', found = some row' ∧
      Kept (∀ change : VerifiedTagChange, change.tag.text = tag → call ≠ .applyChange change)
        (∀ params : UpdateIdentityParams, params.tag.text = tag → call ≠ .updateIdentity params)
        row row' := by
  cases h with
  | kept => exact ⟨row,rfl,.refl _ _ _⟩
  | applied change _ is here =>
    refine ⟨_,rfl,rfl,rfl,rfl,rfl,?_,fun hc => absurd is (hc change here),
      fun _ => ⟨rfl,rfl,rfl,rfl⟩⟩
    simp only [IdentityData.apply, updateData, blockedStatus_getD]
    cases shouldBlockTag dep.engine change.tag with
    | false => exact .inl rfl
    | true =>
      cases hs : row.status with
      | active => exact .inr ⟨rfl,rfl⟩
      | blocked => exact .inl rfl
  | edited params _ is here =>
    exact ⟨_,rfl,rfl,rfl,rfl,rfl,.inl rfl,fun _ => ⟨rfl,rfl,rfl,rfl⟩,
      fun hp => absurd is (hp params here)⟩
  | blocked _ is active =>
    exact ⟨_,rfl,rfl,rfl,rfl,rfl,.inr ⟨active,rfl⟩,fun _ => ⟨rfl,rfl,rfl,rfl⟩,
      fun _ => ⟨rfl,rfl,rfl,rfl⟩⟩

theorem step_kept (hr : Recorded World.handle (MirrorCall.body dep) pool) (event : RowEvent)
    {row : Identity} (hf : pool.shared.identities.find tag = some row) :
    ∃ row', (step dep pool event).shared.identities.find tag = some row' ∧
      Kept (NoChange tag pool event) (NoEdit tag pool event) row row' := by
  rcases step_moves hr event tag with he | ⟨call,ht,hm⟩
  · exact ⟨row,he.trans hf,.refl _ _ _⟩
  · rw [hf] at hm
    obtain ⟨row',hf',hk⟩ := moves_kept hm
    refine ⟨row',hf',hk.tag,hk.verified,hk.merchant,hk.createdAt,hk.status,?_,?_⟩
    · refine fun hc => hk.onChain fun change here is => hc change here ?_
      exact is ▸ ht
    · refine fun hp => hk.profile fun params here is => hp params here ?_
      exact is ▸ ht

theorem run_kept (hr : Recorded World.handle (MirrorCall.body dep) pool) (events : List RowEvent)
    {row : Identity} (hf : pool.shared.identities.find tag = some row) :
    ∃ row', (run (step dep) pool events).shared.identities.find tag = some row' ∧
      Kept (Along (step dep) (NoChange tag) pool events) (Along (step dep) (NoEdit tag) pool events)
        row row' := by
  induction events generalizing pool row with
  | nil => exact ⟨row,hf,.refl _ _ _⟩
  | cons event events ih =>
    obtain ⟨mid,hmid,hk⟩ := step_kept hr event hf
    obtain ⟨row',hf',hk'⟩ := ih (step_recorded pool event hr) hmid
    exact ⟨row',hf',hk.trans hk'⟩

theorem created_kept (hr : Recorded World.handle (MirrorCall.body dep) pool) {event : RowEvent}
    {row : Identity} (hn : pool.shared.identities.find tag = none)
    (hf : (step dep pool event).shared.identities.find tag = some row) :
    ∃ change now, Takes pool event (.applyChange change) ∧ change.tag.text = tag ∧
      row = (createData change (shouldBlockTag dep.engine change.tag)).row now := by
  rcases step_moves hr event tag with he | ⟨call,ht,hm⟩
  · cases hf.symm.trans (he.trans hn)
  · rw [hn, hf] at hm
    cases hm with
    | created change now is here => exact ⟨change,now,is ▸ ht,here,rfl⟩

end Runs

/-- Whatever the calls, however their statements interleave and whatever happens to the
services meanwhile, every row stays, each of its columns changes under its one writer
only, and a new row starts as its creator must leave it. -/
theorem column_ownership (dep : Deployment) (w : World) (history events : List RowEvent)
    (tag : JsString) :
    let pool := after dep w history
    (∀ row, pool.shared.identities.find tag = some row →
      ∃ row', (run (step dep) pool events).shared.identities.find tag = some row' ∧
        Kept (Along (step dep) (NoChange tag) pool events)
          (Along (step dep) (NoEdit tag) pool events) row row') ∧
    ∀ event row, pool.shared.identities.find tag = none →
      (step dep pool event).shared.identities.find tag = some row →
      row.displayName = none ∧ row.avatar = none ∧ row.bio = none ∧ row.preferredToken = none ∧
      ∀ blocked, Moderation.isBlockedName dep.engine tag = .ok blocked →
        (row.status = .blocked ↔ blocked = true) := by
  intro pool
  have hr : Recorded World.handle (MirrorCall.body dep) pool := run_recorded w history
  refine ⟨fun row hf => run_kept hr events hf,fun event row hn hf => ?_⟩
  obtain ⟨change,now,_,here,rfl⟩ := created_kept hr hn hf
  refine ⟨rfl,rfl,rfl,rfl,fun blocked hgate => ?_⟩
  have hblock : shouldBlockTag dep.engine change.tag = blocked := by
    rw [shouldBlockTag, here, hgate]
  simp only [IdentityCreate.row, createData, blockedStatus_getD, hblock]
  cases blocked with
  | true => simp
  | false => simp

end Tagwise.Proofs.ColumnOwnership
