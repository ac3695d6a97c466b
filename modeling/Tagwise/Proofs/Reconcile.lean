import Mathlib.Data.List.Nodup
import Tagwise.Indexer.Spec

namespace Tagwise.Proofs.Reconcile
open Js Lib Tagwise.Core Services Indexer

/-- The account decodes, and stands at the address of the tag it decodes to. -/
structure Valid (sol : Program.Solana) (account : JsString × List UInt8) (decoded : TagAccount) :
    Prop where
  decodes : decodeTagAccount sol account.2 = .ok decoded
  derived : ∃ bump, deriveTagPda sol decoded.tag.text = .ok (account.1, bump)

/-- The derivation finds a bump for every tag of the response. -/
def Derives (sol : Program.Solana) (accounts : List (JsString × List UInt8)) : Prop :=
  ∀ account ∈ accounts, ∀ decoded, decodeTagAccount sol account.2 = .ok decoded →
    ∃ found, deriveTagPda sol decoded.tag.text = .ok found

/-- What a sweep at `slot` makes of the rows. -/
structure Reconciled (sol : Program.Solana) (slot : Nat) (accounts : List (JsString × List UInt8))
    (before after : Identities) : Prop where
  reached : ∀ account ∈ accounts, ∀ decoded, Valid sol account decoded →
    ∃ row, after.find decoded.tag.text = some row ∧ slot ≤ row.lastAppliedSlot ∧
      ((∀ old, before.find decoded.tag.text = some old → old.lastAppliedSlot ≤ slot) →
        row.owner = decoded.owner ∧ row.wallet = decoded.wallet ∧ row.bump = decoded.bump.toNat)
  newer : ∀ tag row, before.find tag = some row → slot < row.lastAppliedSlot →
    after.find tag = some row
  others : ∀ tag, (∀ account ∈ accounts, ∀ decoded, Valid sol account decoded →
    decoded.tag.text ≠ tag) → after.find tag = before.find tag

variable {dep : Deployment} {slot : Nat} {accounts : List (JsString × List UInt8)}

def changeOf (account : JsString × List UInt8) (decoded : TagAccount) (slot : Nat) :
    VerifiedTagChange where
  address := account.1
  tag := decoded.tag
  owner := decoded.owner
  wallet := decoded.wallet
  bump := decoded.bump.toNat
  slot := slot

/-- The change of a valid account. -/
def changeIn (sol : Program.Solana) (slot : Nat) (account : JsString × List UInt8) :
    Option VerifiedTagChange :=
  match decodeTagAccount sol account.2 with
  | .error _ => none
  | .ok decoded =>
    match deriveTagPda sol decoded.tag.text with
    | .error _ => none
    | .ok (derived, _) => if derived = account.1 then some (changeOf account decoded slot) else none

theorem changeIn_iff {sol : Program.Solana} {account : JsString × List UInt8}
    {change : VerifiedTagChange} : changeIn sol slot account = some change ↔
      ∃ decoded, Valid sol account decoded ∧ change = changeOf account decoded slot := by
  unfold changeIn
  constructor
  · intro h
    split at h
    · cases h
    · next decoded hd =>
      split at h
      · cases h
      · next derived bump hp =>
        split at h
        · next he =>
          cases h
          exact ⟨decoded, ⟨hd, bump, he ▸ hp⟩, rfl⟩
        · cases h
  · rintro ⟨decoded,⟨hd,bump,hp⟩,rfl⟩
    simp [hd, hp]

theorem decodeAndVerify_eq (slot : Nat) {account : JsString × List UInt8}
    (hp : ∀ decoded, decodeTagAccount dep.sol account.2 = .ok decoded →
      ∃ found, deriveTagPda dep.sol decoded.tag.text = .ok found) :
    (∃ change, changeIn dep.sol slot account = some change ∧
      decodeAndVerify dep ⟨account.1, account.2, slot⟩ = .done (.ok change)) ∨
    (changeIn dep.sol slot account = none ∧
      ∃ reason, decodeAndVerify dep ⟨account.1, account.2, slot⟩ = .done (.error reason)) := by
  unfold changeIn decodeAndVerify
  cases hd : decodeTagAccount dep.sol account.2 with
  | error e => exact Or.inr ⟨rfl, _, rfl⟩
  | ok decoded =>
    obtain ⟨⟨derived,bump⟩,hf⟩ := hp decoded hd
    simp only [hf]
    by_cases he : derived = account.1
    · exact Or.inl ⟨_, if_pos he, if_neg (fun hne => hne he)⟩
    · exact Or.inr ⟨if_neg he, _, if_pos he⟩

/-- The row under `tag` after an account was observed. -/
def rowAfter (dep : Deployment) (slot now : Nat) (tag : JsString) (old : Option Identity)
    (account : JsString × List UInt8) : Option Identity :=
  match changeIn dep.sol slot account with
  | none => old
  | some change =>
    if tag = change.tag.text then
      some (absorb change (shouldBlockTag dep.engine change.tag) now old)
    else old

/-- Whether an account observed over these rows counts as applied. -/
def counts (dep : Deployment) (slot : Nat) (find : JsString → Option Identity)
    (account : JsString × List UInt8) : Bool :=
  match changeIn dep.sol slot account with
  | none => false
  | some change => decide (outcomeOn change (find change.tag.text) ≠ .skippedStale)

/-- One account, valid or not: the pipeline returns and changes the row of its tag only. -/
theorem observe_run (slot : Nat) {account : JsString × List UInt8} {w : World} (up : w.dbUp = true)
    (hp : ∀ decoded, decodeTagAccount dep.sol account.2 = .ok decoded →
      ∃ found, deriveTagPda dep.sol decoded.tag.text = .ok found) :
    ∃ identities redis lastProcessedSlot,
      (processAccountObservation dep ⟨account.1, account.2, slot⟩).run World.handle w =
        some ({ w with identities, redis, lastProcessedSlot },
          .ok (if counts dep slot w.identities.find account then .applied else .skipped)) ∧
      ∀ tag, identities.find tag = rowAfter dep slot w.now tag (w.identities.find tag) account := by
  rcases decodeAndVerify_eq slot hp with ⟨change,hc,hd⟩ | ⟨hc,reason,hd⟩
  · obtain ⟨identities,redis,last,hrun,hfind,_⟩ := processAccountObservation_run dep hd up
    refine ⟨identities, redis, last, ?_, ?_⟩
    · rw [hrun]
      simp only [counts, hc, decide_not, Bool.not_eq_true', decide_eq_false_iff_not, ite_not]
    · intro tag
      rw [hfind, rowAfter, hc]
      simp only
      split
      · next ht => rw [ht]
      · rfl
  · refine ⟨w.identities, w.redis, w.lastProcessedSlot, ?_, fun tag => by rw [rowAfter, hc]⟩
    rw [processAccountObservation, hd, Prog.done_bind, counts, hc]
    rfl

/-- Accounts at two addresses have two tags. -/
theorem changeIn_apart {sol : Program.Solana} {account account' : JsString × List UInt8}
    {change change' : VerifiedTagChange} (h : changeIn sol slot account = some change)
    (h' : changeIn sol slot account' = some change') (hne : account.1 ≠ account'.1) :
    change.tag.text ≠ change'.tag.text := by
  obtain ⟨decoded,⟨_,_,hp⟩,rfl⟩ := changeIn_iff.mp h
  obtain ⟨decoded',⟨_,_,hp'⟩,rfl⟩ := changeIn_iff.mp h'
  intro he
  simp only [changeOf] at he
  rw [he, hp'] at hp
  exact hne (congrArg Prod.fst (Except.ok.inj hp)).symm

/-- No account of the list is valid for `tag`. -/
def Untouched (sol : Program.Solana) (slot : Nat) (accounts : List (JsString × List UInt8))
    (tag : JsString) : Prop :=
  ∀ account ∈ accounts, ∀ change, changeIn sol slot account = some change → change.tag.text ≠ tag

/-- The row under `tag` after all accounts were observed. -/
def rowSwept (dep : Deployment) (slot now : Nat) (accounts : List (JsString × List UInt8))
    (tag : JsString) (old : Option Identity) : Option Identity :=
  accounts.foldl (rowAfter dep slot now tag) old

theorem rowAfter_other {now : Nat} {tag : JsString} {old : Option Identity}
    {account : JsString × List UInt8}
    (h : ∀ change, changeIn dep.sol slot account = some change → change.tag.text ≠ tag) :
    rowAfter dep slot now tag old account = old := by
  unfold rowAfter
  cases hc : changeIn dep.sol slot account with
  | none => rfl
  | some change => exact if_neg (fun he => h change hc he.symm)

theorem rowSwept_other {now : Nat} {tag : JsString} {old : Option Identity}
    (h : Untouched dep.sol slot accounts tag) : rowSwept dep slot now accounts tag old = old := by
  induction accounts with
  | nil => rfl
  | cons account accounts ih =>
    rw [rowSwept, List.foldl_cons, rowAfter_other (h account List.mem_cons_self)]
    exact ih (fun b hb => h b (List.mem_cons_of_mem _ hb))

/-- The row of a valid account is what that account alone makes of it. -/
theorem rowSwept_valid {now : Nat} {old : Option Identity} {account : JsString × List UInt8}
    {change : VerifiedTagChange} (hdistinct : (accounts.map Prod.fst).Nodup)
    (hm : account ∈ accounts) (hc : changeIn dep.sol slot account = some change) :
    rowSwept dep slot now accounts change.tag.text old =
      some (absorb change (shouldBlockTag dep.engine change.tag) now old) := by
  induction accounts generalizing old with
  | nil => cases hm
  | cons b accounts ih =>
    obtain ⟨hb,hrest⟩ := List.nodup_cons.mp hdistinct
    rw [rowSwept, List.foldl_cons]
    rcases List.mem_cons.mp hm with rfl | hm
    · have hother : Untouched dep.sol slot accounts change.tag.text := by
        intro b hmb change' hc'
        refine changeIn_apart hc' hc (fun he => hb ?_)
        exact he ▸ List.mem_map_of_mem hmb
      have hrow : rowAfter dep slot now change.tag.text old account =
          some (absorb change (shouldBlockTag dep.engine change.tag) now old) := by
        simp [rowAfter, hc]
      rw [hrow]
      exact rowSwept_other hother
    · rw [rowAfter_other]
      · exact ih hrest hm
      · intro change' hc'
        exact changeIn_apart hc' hc (fun he => hb (he ▸ List.mem_map_of_mem hm))

/-- An account leaves the rows of the others alone, so they count as before. -/
theorem counts_apart {account b : JsString × List UInt8} {now : Nat} {before after : Identities}
    (hne : account.1 ≠ b.1)
    (hfind : ∀ tag, after.find tag = rowAfter dep slot now tag (before.find tag) account) :
    counts dep slot after.find b = counts dep slot before.find b := by
  unfold counts
  cases hc : changeIn dep.sol slot b with
  | none => rfl
  | some change =>
    have hrow : after.find change.tag.text = before.find change.tag.text := by
      rw [hfind]
      exact rowAfter_other (fun change' hc' => changeIn_apart hc' hc hne)
    simp only [hrow]

/-- The whole loop: each account's outcome is what it would be by itself, and the rows are
what the accounts make of them one by one. -/
theorem sweep_run (hdistinct : (accounts.map Prod.fst).Nodup) (hp : Derives dep.sol accounts)
    {w : World} (up : w.dbUp = true) (applied skipped : Nat) :
    ∃ identities redis lastProcessedSlot,
      (sweep dep slot applied skipped accounts).run World.handle w =
        some ({ w with identities, redis, lastProcessedSlot },
          .ok (applied + accounts.countP (counts dep slot w.identities.find),
            skipped + accounts.countP (fun account => !counts dep slot w.identities.find account))) ∧
      ∀ tag, identities.find tag = rowSwept dep slot w.now accounts tag (w.identities.find tag) := by
  induction accounts generalizing w applied skipped with
  | nil => exact ⟨w.identities, w.redis, w.lastProcessedSlot, rfl, fun _ => rfl⟩
  | cons account accounts ih =>
    obtain ⟨hfresh,hrest⟩ := List.nodup_cons.mp hdistinct
    obtain ⟨identities,redis,last,hrun,hfind⟩ :=
      observe_run slot up (hp account List.mem_cons_self)
    have hsame : ∀ b ∈ accounts,
        counts dep slot identities.find b = counts dep slot w.identities.find b := fun b hb =>
      counts_apart (fun he => hfresh (he ▸ List.mem_map_of_mem hb)) hfind
    have hcount : accounts.countP (counts dep slot identities.find) =
        accounts.countP (counts dep slot w.identities.find) :=
      List.countP_congr (fun b hb => by rw [hsame b hb])
    have hcount' : accounts.countP (fun b => !counts dep slot identities.find b) =
        accounts.countP (fun b => !counts dep slot w.identities.find b) :=
      List.countP_congr (fun b hb => by rw [hsame b hb])
    have hrows : ∀ ids : Identities, (∀ tag, ids.find tag =
          rowSwept dep slot w.now accounts tag (identities.find tag)) →
        ∀ tag, ids.find tag =
          rowSwept dep slot w.now (account :: accounts) tag (w.identities.find tag) := by
      intro ids h tag
      rw [h, hfind]
      rfl
    have hpr : Derives dep.sol accounts := fun b hb => hp b (List.mem_cons_of_mem _ hb)
    rw [sweep, Prog.run_bind_ok hrun]
    cases hc : counts dep slot w.identities.find account with
    | true =>
      obtain ⟨ids,redis',last',hrun',hfind'⟩ := ih hrest hpr
        (w := { w with identities, redis, lastProcessedSlot := last }) up (applied + 1) skipped
      refine ⟨ids, redis', last', ?_, hrows ids hfind'⟩
      simp only [↓reduceIte]
      rw [hrun']
      simp only [hcount, hcount', List.countP_cons, hc, ↓reduceIte, Bool.not_true,
        Bool.false_eq_true, Nat.add_zero]
      rw [Nat.add_assoc, Nat.add_comm 1]
    | false =>
      obtain ⟨ids,redis',last',hrun',hfind'⟩ := ih hrest hpr
        (w := { w with identities, redis, lastProcessedSlot := last }) up applied (skipped + 1)
      refine ⟨ids, redis', last', ?_, hrows ids hfind'⟩
      simp only [Bool.false_eq_true, ↓reduceIte]
      rw [hrun']
      simp only [hcount, hcount', List.countP_cons, hc, Bool.false_eq_true, ↓reduceIte,
        Bool.not_false, Nat.add_zero]
      rw [Nat.add_assoc, Nat.add_comm 1]

theorem reconcile_run (hdistinct : (accounts.map Prod.fst).Nodup) (hp : Derives dep.sol accounts)
    {w : World} (up : w.dbUp = true) (rpc : w.rpcUp = true)
    (hresponse : w.programAccounts = (slot, accounts)) :
    ∃ identities redis lastProcessedSlot,
      (reconcile dep).run World.handle w =
        some ({ w with identities, redis, lastProcessedSlot }, .ok {
          slot, scanned := accounts.length
          applied := accounts.countP (counts dep slot w.identities.find)
          skipped := accounts.countP (fun account => !counts dep slot w.identities.find account) }) ∧
      ∀ tag, identities.find tag = rowSwept dep slot w.now accounts tag (w.identities.find tag) := by
  obtain ⟨identities,redis,last,hrun,hfind⟩ := sweep_run hdistinct hp up 0 0
  have hread : w.handle .getProgramAccounts = some (w, .ok (slot, accounts)) := by
    rw [← hresponse]
    exact if_pos rpc
  refine ⟨identities, redis, last, ?_, hfind⟩
  unfold reconcile getProgramAccounts
  rw [Prog.request_bind, Prog.run_call hread]
  simp only
  rw [Prog.run_bind_ok hrun]
  simp

theorem absorb_slot (change : VerifiedTagChange) (blocked : Bool) (now : Nat)
    (old : Option Identity) : change.slot ≤ (absorb change blocked now old).lastAppliedSlot := by
  cases old with
  | none => exact Nat.le_refl _
  | some row =>
    rw [absorb]
    split
    · exact Nat.le_refl _
    · next h => exact Nat.le_of_lt (Nat.lt_of_not_le h)

theorem absorb_taken (change : VerifiedTagChange) (blocked : Bool) (now : Nat)
    {old : Option Identity} (h : ∀ row, old = some row → row.lastAppliedSlot ≤ change.slot) :
    (absorb change blocked now old).owner = change.owner ∧
      (absorb change blocked now old).wallet = change.wallet ∧
      (absorb change blocked now old).bump = change.bump := by
  cases old with
  | none => exact ⟨rfl, rfl, rfl⟩
  | some row =>
    rw [absorb, if_pos (h row rfl)]
    exact ⟨rfl, rfl, rfl⟩

/-- A change taken once more leaves the row as it is. -/
theorem absorb_again (change : VerifiedTagChange) (blocked : Bool) (now now' : Nat)
    (old : Option Identity) : absorb change blocked now' (some (absorb change blocked now old)) =
      absorb change blocked now old := by
  cases old with
  | none => cases blocked <;> simp [absorb, createData, IdentityCreate.row, updateData,
      IdentityData.apply, blockedStatus]
  | some row =>
    by_cases h : row.lastAppliedSlot ≤ change.slot
    · cases blocked <;> simp [absorb, h, updateData, IdentityData.apply, blockedStatus]
    · simp [absorb, h]

/-- Nor does it count otherwise. -/
theorem outcomeOn_again (change : VerifiedTagChange) (blocked : Bool) (now : Nat)
    (old : Option Identity) :
    outcomeOn change (some (absorb change blocked now old)) = .skippedStale ↔
      outcomeOn change old = .skippedStale := by
  cases old with
  | none => simp [outcomeOn, absorb, createData, IdentityCreate.row]
  | some row =>
    by_cases h : row.lastAppliedSlot ≤ change.slot
    · simp [outcomeOn, absorb, h, updateData, IdentityData.apply]
    · simp [outcomeOn, absorb, h]

theorem untouched_of_others {sol : Program.Solana} {tag : JsString}
    (h : ∀ account ∈ accounts, ∀ decoded, Valid sol account decoded → decoded.tag.text ≠ tag) :
    Untouched sol slot accounts tag := by
  intro account hm change hc
  obtain ⟨decoded,hv,rfl⟩ := changeIn_iff.mp hc
  exact h account hm decoded hv

/-- Every tag is either no account's or the tag of exactly one valid account. -/
theorem touched_or (sol : Program.Solana) (slot : Nat) (accounts : List (JsString × List UInt8))
    (tag : JsString) : Untouched sol slot accounts tag ∨
      ∃ account ∈ accounts, ∃ change, changeIn sol slot account = some change ∧
        change.tag.text = tag := by
  by_cases h : Untouched sol slot accounts tag
  · exact Or.inl h
  · unfold Untouched at h
    push Not at h
    exact Or.inr h

theorem reconciled_of_swept (hdistinct : (accounts.map Prod.fst).Nodup) {now : Nat}
    {before after : Identities}
    (hswept : ∀ tag, after.find tag = rowSwept dep slot now accounts tag (before.find tag)) :
    Reconciled dep.sol slot accounts before after := by
  refine ⟨?_, ?_, ?_⟩
  · intro account hm decoded hv
    have hc : changeIn dep.sol slot account = some (changeOf account decoded slot) :=
      changeIn_iff.mpr ⟨decoded, hv, rfl⟩
    exact ⟨_, (hswept _).trans (rowSwept_valid hdistinct hm hc), absorb_slot (changeOf account decoded slot) _ _ _,
      fun hold => absorb_taken (changeOf account decoded slot) _ _ hold⟩
  · intro tag row hrow hnewer
    rw [hswept]
    rcases touched_or dep.sol slot accounts tag with hu | ⟨account,hm,change,hc,rfl⟩
    · rw [rowSwept_other hu, hrow]
    · have hslot : change.slot = slot := by
        obtain ⟨decoded,_,rfl⟩ := changeIn_iff.mp hc
        rfl
      rw [rowSwept_valid hdistinct hm hc, hrow, absorb, if_neg (by omega)]
  · intro tag h
    rw [hswept, rowSwept_other (untouched_of_others h)]

theorem swept_again (hdistinct : (accounts.map Prod.fst).Nodup) {now : Nat} (now' : Nat)
    {before after : Identities}
    (hswept : ∀ tag, after.find tag = rowSwept dep slot now accounts tag (before.find tag)) :
    (∀ account ∈ accounts, counts dep slot after.find account = counts dep slot before.find account) ∧
      ∀ tag, rowSwept dep slot now' accounts tag (after.find tag) = after.find tag := by
  constructor
  · intro account hm
    unfold counts
    cases hc : changeIn dep.sol slot account with
    | none => rfl
    | some change =>
      simp only
      rw [hswept, rowSwept_valid hdistinct hm hc]
      exact decide_eq_decide.mpr (not_congr (outcomeOn_again change _ _ _))
  · intro tag
    rcases touched_or dep.sol slot accounts tag with hu | ⟨account,hm,change,hc,rfl⟩
    · exact rowSwept_other hu
    · rw [hswept, rowSwept_valid hdistinct hm hc, rowSwept_valid hdistinct hm hc, absorb_again]

/-- A sweep without other writers: it reaches every valid account, whatever else the response
holds, leaves newer rows and the rows of other tags alone, counts what it scanned, and done
again over its own rows returns the same counts and leaves every row as it is. -/
theorem reconcile_complete (dep : Deployment) (slot : Nat)
    (accounts : List (JsString × List UInt8)) (hdistinct : (accounts.map Prod.fst).Nodup)
    (hp : Derives dep.sol accounts) (w : World) (up : w.dbUp = true) (rpc : w.rpcUp = true)
    (hresponse : w.programAccounts = (slot, accounts)) :
    ∃ w' applied skipped,
      (reconcile dep).run World.handle w =
        some (w', .ok ⟨slot, accounts.length, applied, skipped⟩) ∧
      applied + skipped = accounts.length ∧
      Reconciled dep.sol slot accounts w.identities w'.identities ∧
      ∀ again : World, again.identities = w'.identities → again.dbUp = true →
        again.rpcUp = true → again.programAccounts = (slot, accounts) →
        ∃ again', (reconcile dep).run World.handle again =
            some (again', .ok ⟨slot, accounts.length, applied, skipped⟩) ∧
          ∀ tag, again'.identities.find tag = w'.identities.find tag := by
  obtain ⟨identities,redis,last,hrun,hswept⟩ := reconcile_run hdistinct hp up rpc hresponse
  refine ⟨_, _, _, hrun, ?_, reconciled_of_swept hdistinct hswept, ?_⟩
  · rw [List.length_eq_countP_add_countP (counts dep slot w.identities.find)]
    simp
  · intro again hids up' rpc' hresponse'
    obtain ⟨identities',redis',last',hrun',hswept'⟩ :=
      reconcile_run hdistinct hp up' rpc' hresponse'
    obtain ⟨hcounts,hrows⟩ := swept_again hdistinct again.now hswept
    rw [hids] at hrun' hswept'
    have hc := List.countP_congr (fun a ha => by rw [hcounts a ha] :
      ∀ a ∈ accounts, counts dep slot identities.find a = true ↔
        counts dep slot w.identities.find a = true)
    have hc' := List.countP_congr (fun a ha => by rw [hcounts a ha] :
      ∀ a ∈ accounts, (!counts dep slot identities.find a) = true ↔
        (!counts dep slot w.identities.find a) = true)
    rw [hc, hc'] at hrun'
    exact ⟨_, hrun', fun tag => (hswept' tag).trans (hrows tag)⟩

/-- `abc` at its address, the same account at another one, and a buffer that is no account. -/
def sampleAccounts : List (JsString × List UInt8) :=
  [(Program.base58 Program.danielAddress, Program.abcAccount.serialize), (js "junk", [1, 2, 3]),
    (Program.base58 Program.abcAddress, Program.abcAccount.serialize)]

theorem sample_derives : Derives Program.sampleSolana sampleAccounts := by
  have hall : sampleAccounts.all (fun account =>
      match decodeTagAccount Program.sampleSolana account.2 with
      | .error _ => true
      | .ok decoded => (deriveTagPda Program.sampleSolana decoded.tag.text).isOk) = true := by
    decide
  intro account hm decoded hd
  have h := List.all_eq_true.mp hall account hm
  rw [hd] at h
  simp only at h
  cases hp : deriveTagPda Program.sampleSolana decoded.tag.text with
  | error e => rw [hp] at h; cases h
  | ok found => exact ⟨found, rfl⟩

theorem sample_reconciled : ∃ w' applied skipped,
    (reconcile Deployment.sample).run World.handle
      { World.fresh with programAccounts := (7, sampleAccounts) } =
        some (w', .ok ⟨7, 3, applied, skipped⟩) ∧
      applied + skipped = 3 ∧
      Reconciled Program.sampleSolana 7 sampleAccounts World.fresh.identities w'.identities := by
  obtain ⟨w',applied,skipped,hrun,hsum,hrows,-⟩ :=
    reconcile_complete Deployment.sample 7 sampleAccounts (by decide) sample_derives
      { World.fresh with programAccounts := (7, sampleAccounts) } rfl rfl rfl
  exact ⟨w', applied, skipped, hrun, hsum, hrows⟩

end Tagwise.Proofs.Reconcile
