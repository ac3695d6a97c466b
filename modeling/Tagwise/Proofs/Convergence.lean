import Tagwise.Indexer.Spec
import Tagwise.Lib.LastWrite
import Tagwise.Proofs.Codec
import Tagwise.Proofs.Representation

namespace Tagwise.Proofs.Convergence
open Js Services Indexer Lib

/-- The accounts as of a slot, given what was submitted in each slot. -/
def chainAt (sol : Program.Solana) (blocks : Nat → List Program.Submission) (slot : Nat) :
    Program.Chain :=
  Authority.after sol ((List.range (slot + 1)).flatMap blocks)

/-- An account as it stood in some slot: what a notification or a sweep delivers. -/
structure Sighting (sol : Program.Solana) (blocks : Nat → List Program.Submission) where
  slot : Nat
  key : Program.Pubkey
  account : Program.TagAccount
  found : (chainAt sol blocks slot).tagAccounts key = some account

def tagText (account : Program.TagAccount) : JsString :=
  fromCharCodes (account.tag.data.take account.tagLen.toNat)

variable {sol : Program.Solana} {blocks : Nat → List Program.Submission}

def Sighting.tag (s : Sighting sol blocks) : JsString := tagText s.account

def Sighting.observation (s : Sighting sol blocks) : Observation where
  address := sol.base58 s.key
  data := s.account.serialize
  slot := s.slot

/-- The on-chain columns of a row are those of an account at a slot. -/
structure Mirrors (sol : Program.Solana) (row : Identity) (account : Program.TagAccount)
    (slot : Nat) : Prop where
  tag : row.tag = tagText account
  owner : row.owner = sol.base58 account.owner
  wallet : row.wallet = sol.base58 account.wallet
  bump : row.bump = account.bump.toNat
  slot : row.lastAppliedSlot = slot

/-- What `decodeAndVerify` reads out of a well-formed account at its address. -/
structure Speaks (sol : Program.Solana) (change : VerifiedTagChange) (account : Program.TagAccount)
    (slot : Nat) : Prop where
  tag : change.tag.text = tagText account
  owner : change.owner = sol.base58 account.owner
  wallet : change.wallet = sol.base58 account.wallet
  bump : change.bump = account.bump.toNat
  slot : change.slot = slot

theorem decodeAndVerify_wellFormed (dep : Deployment) {key : Program.Pubkey}
    {account : Program.TagAccount} (hw : Representation.WellFormed dep.sol key account)
    (slot : Nat) :
    ∃ change, decodeAndVerify dep ⟨dep.sol.base58 key, account.serialize, slot⟩ =
      .done (.ok change) ∧ Speaks dep.sol change account slot := by
  obtain ⟨decoded,hd,hden,ht⟩ := Codec.decode_of_serialize dep.sol hw.stores
  have hpda : Core.deriveTagPda dep.sol decoded.tag.text =
      .ok (dep.sol.base58 key, account.bump) := by
    rw [Core.deriveTagPda, Core.buildTagSeeds_normalized, ht, Core.asciiBytes_fromCharCodes]
    simp only [hw.derived]
  refine ⟨⟨dep.sol.base58 key, decoded.tag, decoded.owner, decoded.wallet, decoded.bump.toNat, slot⟩,
    ?_, ⟨ht,hden.owner,hden.wallet,by rw [hden.bump],rfl⟩⟩
  simp only [decodeAndVerify, hd, hpda, ne_eq, not_true_eq_false, ↓reduceIte]
  rfl

theorem absorb_mirrors {sol : Program.Solana} {change : VerifiedTagChange}
    {account : Program.TagAccount} {slot : Nat} (h : Speaks sol change account slot)
    (blocked : Bool) (now : Nat) {row : Option Identity}
    (hrow : ∀ r, row = some r → r.tag = change.tag.text)
    (ha : shouldApply slot (row.map Identity.lastAppliedSlot) = true) :
    Mirrors sol (absorb change blocked now row) account slot := by
  cases row with
  | none => exact ⟨h.tag,h.owner,h.wallet,h.bump,h.slot⟩
  | some r =>
    have hle : r.lastAppliedSlot ≤ change.slot := by
      rw [h.slot]
      simpa [shouldApply] using ha
    rw [absorb, if_pos hle]
    exact ⟨(hrow r rfl).trans h.tag,h.owner,h.wallet,h.bump,h.slot⟩

theorem absorb_stale {change : VerifiedTagChange} {blocked : Bool} {now : Nat} {row : Option Identity}
    (ha : shouldApply change.slot (row.map Identity.lastAppliedSlot) = false) :
    row = some (absorb change blocked now row) := by
  cases row with
  | none => simp [shouldApply] at ha
  | some r =>
    have hle : ¬ r.lastAppliedSlot ≤ change.slot := by simpa [shouldApply] using ha
    rw [absorb, if_neg hle]

theorem outcomeOn_stale (change : VerifiedTagChange) (row : Option Identity) :
    outcomeOn change row = .skippedStale ↔
      shouldApply change.slot (row.map Identity.lastAppliedSlot) = false := by
  cases row with
  | none => simp [outcomeOn, shouldApply]
  | some r =>
    by_cases hle : r.lastAppliedSlot ≤ change.slot
    · simp [outcomeOn, shouldApply, hle]
    · simp [outcomeOn, shouldApply, hle]

/-- One observation of an account that is what its address says. -/
structure Observed (sol : Program.Solana) (w w' : World) (account : Program.TagAccount)
    (slot : Nat) : Prop where
  frame : w' = { w with
    identities := w'.identities
    redis := w'.redis
    lastProcessedSlot := w'.lastProcessedSlot }
  others : ∀ t, t ≠ tagText account → w'.identities.find t = w.identities.find t
  applied : shouldApply slot ((w.identities.find (tagText account)).map Identity.lastAppliedSlot) =
    true → ∃ row, w'.identities.find (tagText account) = some row ∧ Mirrors sol row account slot
  stale : shouldApply slot ((w.identities.find (tagText account)).map Identity.lastAppliedSlot) =
    false → w'.identities.find (tagText account) = w.identities.find (tagText account)

theorem process_observed (dep : Deployment) {key : Program.Pubkey} {account : Program.TagAccount}
    (hw : Representation.WellFormed dep.sol key account) (slot : Nat) {w : World}
    (up : w.dbUp = true) :
    ∃ w', (processAccountObservation dep ⟨dep.sol.base58 key, account.serialize, slot⟩).run
        World.handle w = some (w', .ok
          (if shouldApply slot ((w.identities.find (tagText account)).map Identity.lastAppliedSlot)
            then .applied else .skipped)) ∧
      Observed dep.sol w w' account slot := by
  obtain ⟨change,hd,hs⟩ := decodeAndVerify_wellFormed dep hw slot
  obtain ⟨identities,redis,cursor,hrun,hfind,_⟩ := processAccountObservation_run dep hd up
  have ho := outcomeOn_stale change (w.identities.find change.tag.text)
  rw [hs.tag, hs.slot] at ho
  rw [hs.tag] at hrun hfind
  refine ⟨{ w with identities, redis, lastProcessedSlot := cursor },?_,rfl,?_,?_,?_⟩
  · rw [hrun]
    cases ha : shouldApply slot ((w.identities.find (tagText account)).map Identity.lastAppliedSlot) with
    | true => simp [ho, ha]
    | false => simp [ho, ha]
  · intro t ht
    exact (hfind t).trans (if_neg ht)
  · intro ha
    refine ⟨_,(hfind _).trans (if_pos rfl),?_⟩
    apply absorb_mirrors hs
    · intro r hr
      rw [hs.tag]
      exact (Table.find_mem hr).2
    · exact ha
  · intro ha
    apply (hfind _).trans
    rw [if_pos rfl]
    exact (absorb_stale (by rw [hs.slot]; exact ha)).symm

theorem Observed.up {sol : Program.Solana} {w w' : World} {account : Program.TagAccount}
    {slot : Nat} (h : Observed sol w w' account slot) (up : w.dbUp = true) : w'.dbUp = true := by
  rw [h.frame]
  exact up

/-- One processed observation after another; the outcomes are told apart below. -/
def process (dep : Deployment) (w : World) (o : Observation) : World :=
  match (processAccountObservation dep o).run World.handle w with
  | some (w', _) => w'
  | none => w

/-- A database that answers and has no rows yet, whatever the other services do. -/
def emptyMirror (w : World) : World :=
  { w with identities := Table.empty, lastProcessedSlot := none, dbUp := true }

def mirror (dep : Deployment) (w : World) (seen : List (Sighting dep.sol blocks)) : World :=
  run (process dep) (emptyMirror w) (seen.map Sighting.observation)

theorem mirror_snoc (dep : Deployment) (w : World) (seen : List (Sighting dep.sol blocks))
    (s : Sighting dep.sol blocks) :
    mirror dep w (seen ++ [s]) = process dep (mirror dep w seen) s.observation := by
  rw [mirror, List.map_append]
  exact run_snoc _ _ _ _

def outcome (dep : Deployment) (w : World) (s : Sighting dep.sol blocks) : ProcessOutcome :=
  if shouldApply s.slot ((w.identities.find s.tag).map Identity.lastAppliedSlot) then .applied
  else .skipped

theorem process_sighting (dep : Deployment) (s : Sighting dep.sol blocks) {w : World}
    (up : w.dbUp = true) :
    (processAccountObservation dep s.observation).run World.handle w =
      some (process dep w s.observation, .ok (outcome dep w s)) ∧
    Observed dep.sol w (process dep w s.observation) s.account s.slot := by
  have hw := Representation.after_wellFormed dep.sol _ s.key s.account s.found
  obtain ⟨w',hrun,hobs⟩ := process_observed dep hw s.slot up
  have hp : process dep w s.observation = w' := by
    unfold process Sighting.observation
    rw [hrun]
  rw [hp]
  exact ⟨hrun,hobs⟩

/-- The sightings of one tag, as offers to a register stamped with their slots. -/
def register (tag : JsString) (seen : List (Sighting sol blocks)) : Option (Sighting sol blocks) :=
  replay Sighting.slot none (seen.filter (fun s => s.tag = tag))

theorem register_snoc (tag : JsString) (seen : List (Sighting sol blocks)) (s : Sighting sol blocks) :
    register tag (seen ++ [s]) =
      if s.tag = tag then offer Sighting.slot (register tag seen) s else register tag seen := by
  unfold register
  rw [List.filter_append]
  by_cases h : s.tag = tag
  · simp [h, replay_snoc]
  · simp [h]

/-- The mirror's row under a tag is its register. -/
def Tracks (sol : Program.Solana) (row : Option Identity) : Option (Sighting sol blocks) → Prop
  | none => row = none
  | some s => ∃ r, row = some r ∧ Mirrors sol r s.account s.slot

theorem tracks_accepts {row : Option Identity} {reg : Option (Sighting sol blocks)}
    (h : Tracks sol row reg) (s : Sighting sol blocks) :
    shouldApply s.slot (row.map Identity.lastAppliedSlot) = accepts Sighting.slot s reg := by
  cases reg with
  | none =>
    have hn : row = none := h
    subst hn
    rfl
  | some m =>
    obtain ⟨r,rfl,hm⟩ := h
    simp [shouldApply, accepts, hm.slot]

/-- One observation keeps the mirror with the registers. -/
theorem process_tracks (dep : Deployment) (s : Sighting dep.sol blocks) {w : World}
    (up : w.dbUp = true) {tag : JsString} {reg : Option (Sighting dep.sol blocks)}
    (h : Tracks dep.sol (w.identities.find tag) reg) :
    Tracks dep.sol ((process dep w s.observation).identities.find tag)
      (if s.tag = tag then offer Sighting.slot reg s else reg) := by
  have hobs := (process_sighting dep s up).2
  by_cases ht : s.tag = tag
  · subst ht
    have ha := tracks_accepts h s
    simp only [↓reduceIte, offer, ← ha]
    split
    · rename_i hs
      exact hobs.applied hs
    · rename_i hs
      have hst := hobs.stale (Bool.eq_false_iff.mpr hs)
      change (process dep w s.observation).identities.find s.tag = w.identities.find s.tag at hst
      rw [hst]
      exact h
  · rw [if_neg ht, hobs.others tag (fun he => ht he.symm)]
    exact h

theorem mirror_tracks (dep : Deployment) (w : World) (seen : List (Sighting dep.sol blocks)) :
    (mirror dep w seen).dbUp = true ∧
    ∀ tag, Tracks dep.sol ((mirror dep w seen).identities.find tag) (register tag seen) := by
  induction seen using List.reverseRecOn with
  | nil => exact ⟨rfl,fun _ => rfl⟩
  | append_singleton seen s ih =>
    obtain ⟨up,htr⟩ := ih
    rw [mirror_snoc]
    refine ⟨(process_sighting dep s up).2.up up,fun tag => ?_⟩
    rw [register_snoc]
    exact process_tracks dep s up (htr tag)

theorem register_mem {tag : JsString} {seen : List (Sighting sol blocks)} {m : Sighting sol blocks}
    (h : register tag seen = some m) :
    m ∈ seen ∧ m.tag = tag ∧ ∀ s ∈ seen, s.tag = tag → s.slot ≤ m.slot := by
  obtain ⟨hm,hle,_⟩ := replay_latest h
  rcases hm with hm | hm
  · obtain ⟨hs,ht⟩ := List.mem_filter.mp hm
    refine ⟨hs,by simpa using ht,?_⟩
    intro s hs' ht'
    exact hle s (List.mem_filter.mpr ⟨hs',by simpa using ht'⟩)
  · cases hm

/-- What holds of the mirror after any list of sightings, and of every step to it. -/
structure Converges (dep : Deployment) (w : World) (seen : List (Sighting dep.sol blocks)) :
    Prop where
  /-- Each observed tag has exactly one row, the latest sighting's. -/
  latest : ∀ s ∈ seen, ∃ m ∈ seen, m.tag = s.tag ∧
    (∀ o ∈ seen, o.tag = s.tag → o.slot ≤ m.slot) ∧
    ∃ row, (mirror dep w seen).identities.rows.filter (fun r => r.tag = s.tag) = [row] ∧
      Mirrors dep.sol row m.account m.slot
  genuine : ∀ before after, seen = before ++ after →
    ∀ row ∈ (mirror dep w before).identities.rows,
      ∃ s ∈ before, Mirrors dep.sol row s.account s.slot
  monotone : ∀ before mid after, seen = before ++ mid ++ after →
    ∀ row ∈ (mirror dep w before).identities.rows,
      ∃ row' ∈ (mirror dep w (before ++ mid)).identities.rows,
        row'.tag = row.tag ∧ row.lastAppliedSlot ≤ row'.lastAppliedSlot
  /-- No call throws, and each does what `shouldApply` says. -/
  guarded : ∀ before s after, seen = before ++ s :: after →
    (processAccountObservation dep s.observation).run World.handle (mirror dep w before) =
      some (mirror dep w (before ++ [s]), .ok (outcome dep (mirror dep w before) s)) ∧
    Observed dep.sol (mirror dep w before) (mirror dep w (before ++ [s])) s.account s.slot

theorem row_register (dep : Deployment) (w : World) (seen : List (Sighting dep.sol blocks))
    {row : Identity} (h : row ∈ (mirror dep w seen).identities.rows) :
    ∃ m, register row.tag seen = some m ∧ Mirrors dep.sol row m.account m.slot := by
  have htr := (mirror_tracks dep w seen).2 row.tag
  rw [Table.find_of_mem h] at htr
  cases hr : register row.tag seen with
  | none =>
    rw [hr] at htr
    cases htr
  | some m =>
    rw [hr] at htr
    obtain ⟨r,he,hm⟩ := htr
    cases he
    exact ⟨m,rfl,hm⟩

/-- Whatever the order and the repetitions, the mirror ends at the latest sighting
of each tag, passing only through genuine states, each newer than the last. -/
theorem mirror_converges (dep : Deployment) (blocks : Nat → List Program.Submission) (w : World)
    (seen : List (Sighting dep.sol blocks)) : Converges dep w seen := by
  refine ⟨?_, ?_, ?_, ?_⟩
  · intro s hs
    have hne : seen.filter (fun o => o.tag = s.tag) ≠ [] := by
      intro he
      exact List.filter_eq_nil_iff.mp he s hs (by simp)
    obtain ⟨m,hm⟩ : ∃ m, register s.tag seen = some m := replay_some (.inr hne)
    obtain ⟨hmem,htag,hle⟩ := register_mem hm
    have htr := (mirror_tracks dep w seen).2 s.tag
    rw [hm] at htr
    obtain ⟨row,hf,hrow⟩ := htr
    exact ⟨m,hmem,htag,hle,row,by rw [Table.filter_key, hf]; rfl,hrow⟩
  · rintro before after rfl row hrow
    obtain ⟨m,hm,hmir⟩ := row_register dep w before hrow
    exact ⟨m,(register_mem hm).1,hmir⟩
  · rintro before mid after rfl row hrow
    obtain ⟨m,hm,hmir⟩ := row_register dep w before hrow
    have hreg : register row.tag (before ++ mid) =
        replay Sighting.slot (some m) (mid.filter (fun s => s.tag = row.tag)) := by
      rw [← hm, register, register, List.filter_append, replay_append]
    obtain ⟨m',hm'⟩ : ∃ m', replay Sighting.slot (some m)
        (mid.filter (fun s => s.tag = row.tag)) = some m' := replay_some (.inl (by simp))
    have hle := (replay_latest hm').2.2 m rfl
    have htr := (mirror_tracks dep w (before ++ mid)).2 row.tag
    rw [hreg, hm'] at htr
    obtain ⟨row',hf,hmir'⟩ := htr
    obtain ⟨hmem,htag⟩ := Table.find_mem hf
    refine ⟨row',hmem,htag,?_⟩
    rw [hmir.slot, hmir'.slot]
    exact hle
  · rintro before s after rfl
    have hp := process_sighting dep s (mirror_tracks dep w before).1
    rw [mirror_snoc]
    exact hp

end Tagwise.Proofs.Convergence
