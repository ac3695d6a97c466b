import Tagwise.Indexer.Outages
import Tagwise.Indexer.SyncLoop
import Tagwise.Proofs.Convergence

namespace Tagwise.Proofs.Coverage
open Js Services Indexer Lib
open Convergence (tagText Speaks decodeAndVerify_wellFormed)
open Proofs.Representation (WellFormed AllWellFormed)

/-- What a row and an account have in common, and as of when. -/
structure Reading where
  owner : JsString
  wallet : JsString
  slot : Nat
  deriving DecidableEq

def ofRow (row : Identity) : Reading := ⟨row.owner, row.wallet, row.lastAppliedSlot⟩

def ofAccount (sol : Program.Solana) (account : Program.TagAccount) (slot : Nat) : Reading :=
  ⟨sol.base58 account.owner, sol.base58 account.wallet, slot⟩

def rowReading (ids : Identities) (tag : JsString) : Option Reading := (ids.find tag).map ofRow

def Bounded (ids : Identities) (slot : Nat) : Prop :=
  ∀ tag r, rowReading ids tag = some r → r.slot ≤ slot

/-- Every account's row shows its owner and wallet. -/
def Synced (sol : Program.Solana) (ids : Identities) (chain : Program.Chain) : Prop :=
  ∀ key account, chain.tagAccounts key = some account → ∃ row,
    ids.find (tagText account) = some row ∧
    row.owner = sol.base58 account.owner ∧ row.wallet = sol.base58 account.wallet

/-- Whenever an open stream has been consumed to its end, the mirror has every account of the
chain. -/
def Covered (dep : Deployment) (loop : SyncLoop) : Prop :=
  loop.stage = .consuming → loop.live = true → loop.notifications = [] →
    Synced dep.sol loop.world.identities loop.chain

/-- A sweep's read returns the accounts of the moment, in any order. -/
def Lists (sol : Program.Solana) (chain : Program.Chain)
    (accounts : List (JsString × List UInt8)) : Prop :=
  ∃ entries : List (Program.Pubkey × Program.TagAccount),
    (∀ key account, (key, account) ∈ entries ↔ chain.tagAccounts key = some account) ∧
    accounts = entries.map (fun entry => (sol.base58 entry.1, entry.2.serialize))

def Accurate (dep : Deployment) (loop : SyncLoop) : Act → Prop
  | .turn => loop.reading = true → loop.world.rpcUp = true →
    loop.world.programAccounts.1 = loop.slot ∧
    Lists dep.sol loop.chain loop.world.programAccounts.2
  | _ => True

/-- Each account's owner and wallet are as they were. -/
def Unmoved (was now : Program.Chain) : Prop :=
  ∀ key account, now.tagAccounts key = some account → ∃ old,
    was.tagAccounts key = some old ∧ tagText old = tagText account ∧
    old.owner = account.owner ∧ old.wallet = account.wallet

/-- The first subscribe that succeeds finds what the startup sweep has read. -/
def Quiet (loop : SyncLoop) : Act → Prop
  | .subscribed => loop.stage = .subscribing → loop.firstConnection = true →
    ∀ swept, loop.swept = some swept → Unmoved swept loop.chain
  | _ => True

/-- A mirror that is nowhere ahead of the chain. -/
structure Launch where
  subs : List Program.Submission
  world : World
  slot : Nat
  behind : ∀ row ∈ world.identities.rows, row.lastAppliedSlot ≤ slot

def Launch.start (dep : Deployment) (launch : Launch) : SyncLoop :=
  SyncLoop.start dep launch.world (Authority.after dep.sol launch.subs) launch.slot

def backlog (sol : Program.Solana) (key : Program.Pubkey) (ns : List Notification) :
    List Reading :=
  (ns.filter (fun n => n.pubkey = key)).map (fun n => ofAccount sol n.account n.slot)

/-- Once the stream so far is processed, every row shows its account. -/
def CaughtUp (sol : Program.Solana) (ids : Identities) (chain : Program.Chain)
    (ns : List Notification) : Prop :=
  ∀ key account, chain.tagAccounts key = some account → ∃ slot,
    replay Reading.slot (rowReading ids (tagText account)) (backlog sol key ns) =
      some (ofAccount sol account slot)

theorem caughtUp_nil {sol : Program.Solana} {ids : Identities} {chain : Program.Chain} :
    CaughtUp sol ids chain [] ↔ Synced sol ids chain := by
  constructor
  · intro h key account ha
    obtain ⟨slot,hr⟩ := h key account ha
    obtain ⟨row,hf,he⟩ := Option.map_eq_some_iff.mp hr
    exact ⟨row,hf,congrArg Reading.owner he,congrArg Reading.wallet he⟩
  · intro h key account ha
    obtain ⟨row,hf,ho,hw⟩ := h key account ha
    refine ⟨row.lastAppliedSlot,?_⟩
    change rowReading ids (tagText account) = _
    rw [rowReading, hf, Option.map_some, ofRow, ho, hw]
    rfl

theorem synced_unmoved {sol : Program.Solana} {ids : Identities} {was now : Program.Chain}
    (h : Synced sol ids was) (hu : Unmoved was now) : Synced sol ids now := by
  intro key account ha
  obtain ⟨old,hold,ht,ho,hw⟩ := hu key account ha
  rw [← ht, ← ho, ← hw]
  exact h key old hold

theorem bounded_mono {ids : Identities} {s s' : Nat} (h : Bounded ids s) (hle : s ≤ s') :
    Bounded ids s' := fun tag r hr => Nat.le_trans (h tag r hr) hle

theorem tagText_injective {sol : Program.Solana} {key key' : Program.Pubkey}
    {account account' : Program.TagAccount} (hw : WellFormed sol key account)
    (hw' : WellFormed sol key' account') (h : tagText account = tagText account') : key = key' := by
  have hb := congrArg Core.asciiBytes h
  rw [tagText, tagText, Core.asciiBytes_fromCharCodes, Core.asciiBytes_fromCharCodes] at hb
  have hd := hw.derived
  rw [hb, hw'.derived] at hd
  simp only [Option.some.injEq, Prod.mk.injEq] at hd
  exact hd.1.symm

/-- The notifications of an open stream against the chain they report on. -/
structure Stream (sol : Program.Solana) (chain : Program.Chain) (slot : Nat)
    (ns : List Notification) : Prop where
  sorted : ns.Pairwise (fun a b => a.slot ≤ b.slot)
  past : ∀ n ∈ ns, n.slot ≤ slot
  genuine : ∀ n ∈ ns, WellFormed sol n.pubkey n.account ∧ ∃ account,
    chain.tagAccounts n.pubkey = some account ∧ tagText n.account = tagText account

/-- The last notification of an account is what the account is now. -/
def Fresh (chain : Program.Chain) (ns : List Notification) : Prop :=
  ∀ key account n, chain.tagAccounts key = some account →
    (ns.filter (fun n => n.pubkey = key)).getLast? = some n → n.account = account

/-- An observation was offered to its row's register, or threw and left it alone. -/
structure Takes (sol : Program.Solana) (account : Program.TagAccount) (slot : Nat)
    (ids : Identities) (r : Except Thrown α) (ids' : Identities) : Prop where
  others : ∀ t, t ≠ tagText account → rowReading ids' t = rowReading ids t
  own : rowReading ids' (tagText account) =
      offer Reading.slot (rowReading ids (tagText account)) (ofAccount sol account slot) ∨
    ((∃ e, r = .error e) ∧ rowReading ids' (tagText account) = rowReading ids (tagText account))

theorem absorb_reading {sol : Program.Solana} {change : VerifiedTagChange}
    {account : Program.TagAccount} {slot : Nat} (h : Speaks sol change account slot)
    (blocked : Bool) (now : Nat) (row : Option Identity) :
    some (ofRow (absorb change blocked now row)) =
      offer Reading.slot (row.map ofRow) (ofAccount sol account slot) := by
  rw [ofAccount, ← h.owner, ← h.wallet, ← h.slot]
  cases row with
  | none => rfl
  | some r =>
    by_cases hle : r.lastAppliedSlot ≤ change.slot
    · simp [absorb, hle, offer, accepts, ofRow, updateData, IdentityData.apply]
    · simp [absorb, hle, offer, accepts, ofRow]

theorem observe_leaves (dep : Deployment) {key : Program.Pubkey} {account : Program.TagAccount}
    (hw : WellFormed dep.sol key account) (slot : Nat) (ids : Identities) :
    Leaves (Takes dep.sol account slot ids)
      (processAccountObservation dep ⟨dep.sol.base58 key, account.serialize, slot⟩) ids := by
  obtain ⟨change,hd,hs⟩ := decodeAndVerify_wellFormed dep hw slot
  apply Prog.ensures_mono ?_ (processAccountObservation_leaves dep hd ids)
  intro r ids' ha
  have htag := hs.tag
  constructor
  · intro t ht
    rw [rowReading, ha.others t (htag ▸ ht), rowReading]
  · rw [← htag]
    rcases ha.own with ⟨now,hrow⟩ | ⟨he,hrow⟩
    · left
      rw [rowReading, hrow, Option.map_some, absorb_reading hs, rowReading]
    · right
      exact ⟨he,by rw [rowReading, hrow, rowReading]⟩

theorem Takes.bounded {sol : Program.Solana} {account : Program.TagAccount} {slot s : Nat}
    {ids ids' : Identities} {r : Except Thrown α} (h : Takes sol account slot ids r ids')
    (hb : Bounded ids s) (hle : slot ≤ s) : Bounded ids' s := by
  intro tag x hx
  by_cases ht : tag = tagText account
  · subst ht
    rcases h.own with ho | ⟨_,ho⟩
    · rw [ho] at hx
      rcases (offer_latest hx).1 with rfl | hc
      · exact hle
      · exact hb _ x hc
    · rw [ho] at hx
      exact hb _ x hx
  · rw [h.others tag ht] at hx
    exact hb _ x hx

theorem Takes.taken {sol : Program.Solana} {account : Program.TagAccount} {slot : Nat} {a : α}
    {ids ids' : Identities} (h : Takes sol account slot ids (.ok a) ids') :
    rowReading ids' (tagText account) =
      offer Reading.slot (rowReading ids (tagText account)) (ofAccount sol account slot) := by
  rcases h.own with ho | ⟨⟨e,he⟩,_⟩
  · exact ho
  · cases he

theorem backlog_cons (sol : Program.Solana) (key : Program.Pubkey) (n : Notification)
    (ns : List Notification) : backlog sol key (n :: ns) =
      if n.pubkey = key then ofAccount sol n.account n.slot :: backlog sol key ns
      else backlog sol key ns := by
  unfold backlog
  by_cases h : n.pubkey = key <;> simp [h]

theorem backlog_snoc (sol : Program.Solana) (key : Program.Pubkey) (ns : List Notification)
    (n : Notification) : backlog sol key (ns ++ [n]) =
      if n.pubkey = key then backlog sol key ns ++ [ofAccount sol n.account n.slot]
      else backlog sol key ns := by
  unfold backlog
  by_cases h : n.pubkey = key <;> simp [h]

/-- Processing the head of the stream leaves the rest of it to do. -/
theorem caughtUp_taken {sol : Program.Solana} {chain : Program.Chain} {n : Notification}
    {ns : List Notification} {ids ids' : Identities} {a : α} (hc : AllWellFormed sol chain)
    (hw : WellFormed sol n.pubkey n.account)
    (hn : ∃ account, chain.tagAccounts n.pubkey = some account ∧
      tagText n.account = tagText account)
    (h : CaughtUp sol ids chain (n :: ns)) (ht : Takes sol n.account n.slot ids (.ok a) ids') :
    CaughtUp sol ids' chain ns := by
  intro key account ha
  obtain ⟨slot,hr⟩ := h key account ha
  refine ⟨slot,?_⟩
  rw [backlog_cons] at hr
  by_cases hk : n.pubkey = key
  · subst hk
    obtain ⟨account',ha',htag⟩ := hn
    cases ha.symm.trans ha'
    rw [if_pos rfl, replay_cons, ← htag, ← ht.taken, htag] at hr
    exact hr
  · rw [if_neg hk] at hr
    have hne : tagText account ≠ tagText n.account := fun he =>
      hk (tagText_injective hw (hc key account ha) he.symm)
    rw [ht.others _ hne]
    exact hr

theorem backlog_mem {sol : Program.Solana} {key : Program.Pubkey} {ns : List Notification}
    {b : Reading} (h : b ∈ backlog sol key ns) :
    ∃ n ∈ ns, n.pubkey = key ∧ b = ofAccount sol n.account n.slot := by
  obtain ⟨n,hn,rfl⟩ := List.mem_map.mp h
  obtain ⟨hm,hk⟩ := List.mem_filter.mp hn
  exact ⟨n,hm,by simpa using hk,rfl⟩

/-- An account written and notified of stays caught up with, and nothing else moves. -/
theorem caughtUp_written {sol : Program.Solana} {chain : Program.Chain} {slot slot' : Nat}
    {ns : List Notification} {ids : Identities} (hs : Stream sol chain slot ns)
    (hb : Bounded ids slot) (hle : slot ≤ slot') (h : CaughtUp sol ids chain ns)
    (key : Program.Pubkey) (account : Program.TagAccount) :
    CaughtUp sol ids (chain.put key account) (ns ++ [⟨slot', key, account⟩]) := by
  intro key' account' ha
  rw [backlog_snoc]
  by_cases hk : key = key'
  · subst hk
    rw [Program.Chain.put_self] at ha
    cases ha
    rw [if_pos rfl]
    refine ⟨slot',replay_last ?_ ?_⟩
    · intro c hc
      exact Nat.le_trans (hb _ c hc) hle
    · intro b hb
      obtain ⟨n,hn,_,rfl⟩ := backlog_mem hb
      exact Nat.le_trans (hs.past n hn) hle
  · rw [if_neg hk]
    rw [chain.put_other account (fun he => hk he.symm)] at ha
    exact h key' account' ha

/-- The account's row is what the sweep of a slot makes it. -/
def At (sol : Program.Solana) (ids : Identities) (account : Program.TagAccount) (slot : Nat) :
    Prop :=
  rowReading ids (tagText account) = some (ofAccount sol account slot)

structure Sweeps (sol : Program.Solana) (chain : Program.Chain) (slot : Nat)
    (entries : List (Program.Pubkey × Program.TagAccount)) (ids : Identities)
    (r : Except Thrown α) (ids' : Identities) : Prop where
  bounded : Bounded ids' slot
  kept : ∀ key account, chain.tagAccounts key = some account → At sol ids account slot →
    At sol ids' account slot
  read : ∀ a, r = .ok a → ∀ entry ∈ entries, At sol ids' entry.2 slot

/-- A row a sweep has reached takes its account again, and no other account. -/
theorem Takes.at {sol : Program.Solana} {chain : Program.Chain} {key : Program.Pubkey}
    {account : Program.TagAccount} {slot : Nat} {ids ids' : Identities} {r : Except Thrown α}
    (hc : AllWellFormed sol chain) (ha : chain.tagAccounts key = some account)
    (h : Takes sol account slot ids r ids') {key' : Program.Pubkey}
    {account' : Program.TagAccount} (ha' : chain.tagAccounts key' = some account')
    (hat : At sol ids account' slot) : At sol ids' account' slot := by
  unfold At at hat ⊢
  by_cases ht : tagText account' = tagText account
  · have hk := tagText_injective (hc _ _ ha') (hc _ _ ha) ht
    subst hk
    cases ha.symm.trans ha'
    rcases h.own with ho | ⟨_,ho⟩
    · rw [ho, hat]
      simp [offer, accepts]
    · rw [ho, hat]
  · rw [h.others _ ht, hat]

theorem Takes.reached {sol : Program.Solana} {account : Program.TagAccount} {slot : Nat}
    {ids ids' : Identities} {a : α} (h : Takes sol account slot ids (.ok a) ids')
    (hb : Bounded ids slot) : At sol ids' account slot := by
  rw [At, h.taken]
  cases hr : rowReading ids (tagText account) with
  | none => rfl
  | some c =>
    have hle := hb _ c hr
    have hst : (ofAccount sol account slot).slot = slot := rfl
    simp [offer, accepts, hst, hle]

theorem sweep_leaves (dep : Deployment) {chain : Program.Chain} (hc : AllWellFormed dep.sol chain)
    (slot : Nat) (entries : List (Program.Pubkey × Program.TagAccount))
    (he : ∀ entry ∈ entries, chain.tagAccounts entry.1 = some entry.2) (ids : Identities)
    (hb : Bounded ids slot) (applied skipped : Nat) :
    Leaves (Sweeps dep.sol chain slot entries ids) (sweep dep slot applied skipped
      (entries.map (fun entry => (dep.sol.base58 entry.1, entry.2.serialize)))) ids := by
  induction entries generalizing ids applied skipped with
  | nil => exact ⟨hb,fun _ _ _ h => h,fun _ _ _ h => by cases h⟩
  | cons entry entries ih =>
    have ha := he entry List.mem_cons_self
    have hobs := observe_leaves dep (hc _ _ ha) slot ids
    apply Prog.ensures_bind hobs
    · intro outcome ids1 ht
      have hb1 := ht.bounded hb (Nat.le_refl slot)
      have rest := ih (fun e hm => he e (List.mem_cons_of_mem _ hm)) ids1 hb1
      have finish : ∀ r ids2, Sweeps dep.sol chain slot entries ids1 r ids2 →
          Sweeps dep.sol chain slot (entry :: entries) ids (r : Except Thrown (Nat × Nat)) ids2 := by
        intro r ids2 hs
        refine ⟨hs.bounded,fun key account hk hat => hs.kept key account hk (ht.at hc ha hk hat),?_⟩
        intro a hr e hm
        rcases List.mem_cons.mp hm with rfl | hm
        · exact hs.kept _ _ ha (ht.reached hb)
        · exact hs.read a hr e hm
      cases outcome with
      | applied => exact Prog.ensures_mono finish (rest _ _)
      | skipped => exact Prog.ensures_mono finish (rest _ _)
    · intro e ids1 ht
      exact ⟨ht.bounded hb (Nat.le_refl slot),fun _ _ hk hat => ht.at hc ha hk hat,
        fun _ h => by cases h⟩

/-- A row at the last sweep's slot takes the older and the newer part of the stream. -/
theorem caughtUp_swept {sol : Program.Solana} {chain : Program.Chain} {slot : Nat}
    {ns : List Notification} {ids : Identities} (hs : Stream sol chain slot ns)
    (hf : Fresh chain ns)
    (h : ∀ key account, chain.tagAccounts key = some account → At sol ids account slot) :
    CaughtUp sol ids chain ns := by
  intro key account ha
  rw [h key account ha]
  have hsorted : (backlog sol key ns).Pairwise (fun a b => a.slot ≤ b.slot) :=
    List.pairwise_map.mpr (hs.sorted.sublist List.filter_sublist)
  have hpast : ∀ b ∈ backlog sol key ns, b.slot ≤ (ofAccount sol account slot).slot := by
    intro b hb
    obtain ⟨n,hn,_,rfl⟩ := backlog_mem hb
    exact hs.past n hn
  rcases replay_backlog hsorted hpast with hr | ⟨a,hlast,hr⟩
  · exact ⟨slot,hr⟩
  · rw [backlog, List.getLast?_map] at hlast
    obtain ⟨n,hn,rfl⟩ := Option.map_eq_some_iff.mp hlast
    exact ⟨n.slot,by rw [hr, hf key account n ha hn]⟩

theorem synced_swept {sol : Program.Solana} {chain : Program.Chain} {slot : Nat} {ids : Identities}
    (h : ∀ key account, chain.tagAccounts key = some account → At sol ids account slot) :
    Synced sol ids chain :=
  caughtUp_nil.mp (fun key account ha => ⟨slot,h key account ha⟩)

/-- What a sweep has done when it ends, if it read the chain of its slot. -/
theorem reconcile_read (dep : Deployment) {chain : Program.Chain} (hc : AllWellFormed dep.sol chain)
    {w w' : World} {slot : Nat} (hb : Bounded w.identities slot)
    (accurate : w.rpcUp = true → w.programAccounts.1 = slot ∧
      Lists dep.sol chain w.programAccounts.2)
    {r : Reply .getProgramAccounts} (hh : w.handle .getProgramAccounts = some (w', r))
    {k : Reply .getProgramAccounts → Async ReconcileResult}
    (hk : reconcile dep = .call .getProgramAccounts k) :
    Leaves (fun res ids => Bounded ids slot ∧ ∀ a, res = .ok a →
      ∀ key account, chain.tagAccounts key = some account → At dep.sol ids account slot)
      (k r) w'.identities := by
  cases hk
  by_cases up : w.rpcUp = true
  · obtain ⟨hslot,entries,hmem,hlist⟩ := accurate up
    rw [World.handle, if_pos up] at hh
    cases hh
    rw [show w.programAccounts = (slot, _) from Prod.ext hslot hlist]
    change Leaves _ (sweep dep slot 0 0 _ >>= _) _
    apply Prog.ensures_bind (sweep_leaves dep hc slot entries
      (fun e he => (hmem e.1 e.2).mp he) _ hb 0 0)
    · rintro ⟨applied,skipped⟩ ids hs
      exact ⟨hs.bounded,fun a _ key account ha =>
        hs.read _ rfl (key, account) ((hmem key account).mpr ha)⟩
    · intro e ids hs
      exact ⟨hs.bounded,fun a h => by cases h⟩
  · cases (if_neg up).symm.trans hh
    exact ⟨hb,fun a h => by cases h⟩

/-- With the stream read to its end, the rows show the chain. -/
def Ready (dep : Deployment) (loop : SyncLoop) (ids : Identities) : Prop :=
  loop.live = true → CaughtUp dep.sol ids loop.chain loop.notifications

/-- A call on the rows that ends with `R` if it does not throw. -/
def Towards (loop : SyncLoop) (R : Identities → Prop) (p : Async α) : Prop :=
  Leaves (fun r ids => Bounded ids loop.slot ∧ ∀ a, r = .ok a → R ids) p loop.world.identities

/-- What the startup sweep has read is in the rows until a subscription stands. -/
def Backfilled (dep : Deployment) (loop : SyncLoop) (ids : Identities) : Prop :=
  ∃ swept, loop.swept = some swept ∧ Synced dep.sol ids swept

def StageInv (dep : Deployment) (loop : SyncLoop) : Stage → Prop
  | .backfilling rest => loop.firstConnection = true ∧
    (rest = reconcile dep ∧ loop.swept = none ∧ Bounded loop.world.identities loop.slot ∨
      loop.swept ≠ none ∧ Towards loop (Backfilled dep loop) rest)
  | .healing rest => loop.firstConnection = false ∧
    (rest = reconcile dep ∧ Bounded loop.world.identities loop.slot ∨
      Towards loop (Ready dep loop) rest)
  | .consuming => loop.firstConnection = false ∧ Bounded loop.world.identities loop.slot ∧
    Ready dep loop loop.world.identities
  | .processing rest => loop.firstConnection = false ∧ Towards loop (Ready dep loop) rest
  | .subscribing => Bounded loop.world.identities loop.slot ∧
    (loop.firstConnection = true → Backfilled dep loop loop.world.identities)
  | .sleeping => Bounded loop.world.identities loop.slot ∧
    (loop.firstConnection = true → Backfilled dep loop loop.world.identities)
  | .stopped => True

structure Inv (dep : Deployment) (loop : SyncLoop) : Prop where
  wellFormed : AllWellFormed dep.sol loop.chain
  stream : Stream dep.sol loop.chain loop.slot loop.notifications
  fresh : loop.live = true → Fresh loop.chain loop.notifications
  stage : StageInv dep loop loop.stage

/-- What moves beside the indexer: the chain and its stream, not the rows. -/
structure Beside (dep : Deployment) (loop loop' : SyncLoop) : Prop where
  firstConnection : loop'.firstConnection = loop.firstConnection
  swept : loop'.swept = loop.swept
  rows : loop'.world.identities = loop.world.identities
  later : loop.slot ≤ loop'.slot
  ready : ∀ ids, Bounded ids loop.slot → Ready dep loop ids → Ready dep loop' ids

theorem Beside.towards {dep : Deployment} {loop loop' : SyncLoop} (h : Beside dep loop loop')
    {p : Async α} {R R' : Identities → Prop} (hR : ∀ ids, Bounded ids loop.slot → R ids → R' ids)
    (ht : Towards loop R p) : Towards loop' R' p := by
  unfold Towards at ht ⊢
  rw [h.rows]
  exact Prog.ensures_mono (fun r ids he =>
    ⟨bounded_mono he.1 h.later,fun a hr => hR ids he.1 (he.2 a hr)⟩) ht

theorem Beside.stage {dep : Deployment} {loop loop' : SyncLoop} (h : Beside dep loop loop')
    {stage : Stage} (hs : StageInv dep loop stage) : StageInv dep loop' stage := by
  have back : ∀ ids, Backfilled dep loop ids → Backfilled dep loop' ids := by
    rintro ids ⟨swept,hsw,hsy⟩
    exact ⟨swept,h.swept.trans hsw,hsy⟩
  cases stage with
  | backfilling rest =>
    obtain ⟨hfirst,hrest⟩ := hs
    refine ⟨h.firstConnection.trans hfirst,hrest.imp ?_ ?_⟩
    · rintro ⟨hr,hn,hb⟩
      exact ⟨hr,h.swept.trans hn,h.rows ▸ bounded_mono hb h.later⟩
    · rintro ⟨hn,ht⟩
      exact ⟨h.swept ▸ hn,h.towards (fun ids _ => back ids) ht⟩
  | healing rest =>
    obtain ⟨hfirst,hrest⟩ := hs
    refine ⟨h.firstConnection.trans hfirst,hrest.imp ?_ (h.towards h.ready)⟩
    rintro ⟨hr,hb⟩
    exact ⟨hr,h.rows ▸ bounded_mono hb h.later⟩
  | processing rest => exact ⟨h.firstConnection.trans hs.1,h.towards h.ready hs.2⟩
  | consuming =>
    obtain ⟨hfirst,hb,hr⟩ := hs
    exact ⟨h.firstConnection.trans hfirst,h.rows ▸ bounded_mono hb h.later,
      h.rows ▸ h.ready _ hb hr⟩
  | subscribing | sleeping =>
    refine ⟨h.rows ▸ bounded_mono hs.1 h.later,fun hf => ?_⟩
    rw [h.rows]
    exact back _ (hs.2 (h.firstConnection.symm.trans hf))
  | stopped => trivial

theorem put_genuine {sol : Program.Solana} {chain : Program.Chain} {slot : Nat}
    {ns : List Notification} (hs : Stream sol chain slot ns) {key : Program.Pubkey}
    {account : Program.TagAccount}
    (hkeep : ∀ old, chain.tagAccounts key = some old → tagText account = tagText old)
    (n : Notification) (hn : n ∈ ns) : WellFormed sol n.pubkey n.account ∧
      ∃ found, (chain.put key account).tagAccounts n.pubkey = some found ∧
        tagText n.account = tagText found := by
  obtain ⟨hw,found,hf,ht⟩ := hs.genuine n hn
  refine ⟨hw,?_⟩
  by_cases hk : n.pubkey = key
  · rw [hk] at hf ⊢
    exact ⟨account,chain.put_self key account,ht.trans (hkeep found hf).symm⟩
  · exact ⟨found,(chain.put_other account hk).trans hf,ht⟩

/-- The stream of a chain whose account has just been written, with or without its
notification. -/
theorem stream_written {sol : Program.Solana} {chain : Program.Chain} {slot slot' : Nat}
    {ns : List Notification} (hs : Stream sol chain slot ns) (hle : slot ≤ slot')
    {key : Program.Pubkey} {account : Program.TagAccount}
    (hkeep : ∀ old, chain.tagAccounts key = some old → tagText account = tagText old) :
    Stream sol (chain.put key account) slot' ns ∧
    (WellFormed sol key account →
      Stream sol (chain.put key account) slot' (ns ++ [⟨slot', key, account⟩])) := by
  have hpast : ∀ n ∈ ns, n.slot ≤ slot' := fun n hn => Nat.le_trans (hs.past n hn) hle
  refine ⟨⟨hs.sorted,hpast,put_genuine hs hkeep⟩,fun hw => ⟨?_,?_,?_⟩⟩
  · refine List.pairwise_append.mpr ⟨hs.sorted,List.pairwise_singleton _ _,?_⟩
    intro a ha b hb
    rw [List.mem_singleton.mp hb]
    exact hpast a ha
  · intro n hn
    rcases List.mem_append.mp hn with hn | hn
    · exact hpast n hn
    · rw [List.mem_singleton.mp hn]
  · intro n hn
    rcases List.mem_append.mp hn with hn | hn
    · exact put_genuine hs hkeep n hn
    · rw [List.mem_singleton.mp hn]
      exact ⟨hw,account,chain.put_self key account,rfl⟩

theorem fresh_written {chain : Program.Chain} {ns : List Notification} (h : Fresh chain ns)
    (slot : Nat) (key : Program.Pubkey) (account : Program.TagAccount) :
    Fresh (chain.put key account) (ns ++ [⟨slot, key, account⟩]) := by
  intro key' account' n ha hlast
  rw [List.filter_append] at hlast
  by_cases hk : key = key'
  · subst hk
    rw [Program.Chain.put_self] at ha
    cases ha
    rw [List.filter_cons_of_pos (by simp), List.filter_nil, List.getLast?_concat] at hlast
    cases hlast
    rfl
  · rw [chain.put_other account (fun he => hk he.symm)] at ha
    rw [List.filter_cons_of_neg (by simpa using hk), List.filter_nil, List.append_nil] at hlast
    exact h key' account' n ha hlast

theorem Inv.beside {dep : Deployment} {loop loop' : SyncLoop} (h : Inv dep loop)
    (hb : Beside dep loop loop') (hstage : loop'.stage = loop.stage)
    (wellFormed : AllWellFormed dep.sol loop'.chain)
    (stream : Stream dep.sol loop'.chain loop'.slot loop'.notifications)
    (fresh : loop'.live = true → Fresh loop'.chain loop'.notifications) : Inv dep loop' :=
  ⟨wellFormed,stream,fresh,hstage ▸ hb.stage h.stage⟩

theorem submit_error {sol : Program.Solana} {loop : SyncLoop} {sub : Program.Submission}
    {e : Program.ProgramError} (h : Program.execute sol loop.chain sub = .error e) (later : Nat) :
    loop.submit sol later sub = { loop with slot := loop.slot + later } := by
  rw [SyncLoop.submit, h]

theorem submit_put {sol : Program.Solana} {loop : SyncLoop} {sub : Program.Submission}
    {account : Program.TagAccount} (h : Program.execute sol loop.chain sub =
      .ok (loop.chain.put sub.instruction.tagAccount account)) (later : Nat) :
    loop.submit sol later sub = { loop with
      chain := loop.chain.put sub.instruction.tagAccount account
      slot := loop.slot + later
      notifications := loop.notifications ++ if loop.live then
        [⟨loop.slot + later, sub.instruction.tagAccount, account⟩] else [] } := by
  simp [SyncLoop.submit, h, SyncLoop.notice]

theorem inv_submit (dep : Deployment) {loop : SyncLoop} (h : Inv dep loop) (later : Nat)
    (sub : Program.Submission) : Inv dep (loop.submit dep.sol later sub) := by
  have hle := Nat.le_add_right loop.slot later
  cases he : Program.execute dep.sol loop.chain sub with
  | error e =>
    rw [submit_error he]
    exact h.beside ⟨rfl,rfl,rfl,hle,fun _ _ hr => hr⟩ rfl h.wellFormed
      ⟨h.stream.sorted,fun n hn => Nat.le_trans (h.stream.past n hn) hle,h.stream.genuine⟩ h.fresh
  | ok chain =>
    have hwell := Representation.submit_wellFormed h.wellFormed sub
    rw [Authority.submit_ok he] at hwell
    obtain ⟨account,rfl,hkeep⟩ := Program.execute_put he
    have htag : ∀ old, loop.chain.tagAccounts sub.instruction.tagAccount = some old →
        tagText account = tagText old := by
      intro old hold
      obtain ⟨ht,hl⟩ := hkeep old hold
      rw [tagText, tagText, ht, hl]
    obtain ⟨hsilent,htold⟩ := stream_written h.stream hle htag
    rw [submit_put he]
    by_cases hlive : loop.live = true
    · rw [if_pos hlive]
      refine h.beside ⟨rfl,rfl,rfl,hle,fun ids hb hr _ => ?_⟩ rfl hwell
        (htold (hwell _ _ (Program.Chain.put_self _ _ _)))
        (fun hl => fresh_written (h.fresh hl) _ _ _)
      exact caughtUp_written h.stream hb hle (hr hlive) _ _
    · rw [if_neg hlive, List.append_nil]
      exact h.beside ⟨rfl,rfl,rfl,hle,fun _ _ _ hl => absurd hl hlive⟩ rfl hwell hsilent
        (fun hl => absurd hl hlive)

/-- A command of what is left keeps where it is heading. -/
theorem towards_command {loop : SyncLoop} {R : Identities → Prop} {c : Command}
    {k : Reply c → Async α} (h : Towards loop R (.call c k)) {world : World} {r : Reply c}
    (hh : loop.world.handle c = some (world, r)) (stage : Stage) :
    Towards { loop with world, stage } R (k r) :=
  Prog.ensures_call h hh

theorem towards_done {loop : SyncLoop} {R : Identities → Prop} {a : α}
    (h : Towards loop R (.done a)) :
    Bounded loop.world.identities loop.slot ∧ R loop.world.identities :=
  ⟨h.1,h.2 a rfl⟩

theorem pause_inv {dep : Deployment} {loop : SyncLoop} (h : Inv dep loop)
    (hb : Bounded loop.world.identities loop.slot) (hfirst : loop.firstConnection = true →
      Backfilled dep loop loop.world.identities) : Inv dep loop.pause := by
  refine ⟨h.wellFormed,h.stream,fun hl => (by cases hl),?_⟩
  unfold SyncLoop.pause
  by_cases ha : loop.aborted = true
  · simp only [ha, ↓reduceIte]
    trivial
  · simp only [ha, Bool.false_eq_true, ↓reduceIte]
    exact ⟨hb,hfirst⟩

theorem enter_inv {dep : Deployment} {loop : SyncLoop} (h : Inv dep loop)
    (hb : Bounded loop.world.identities loop.slot) (hfirst : loop.firstConnection = true →
      Backfilled dep loop loop.world.identities) : Inv dep loop.enter := by
  refine ⟨h.wellFormed,h.stream,h.fresh,?_⟩
  unfold SyncLoop.enter
  by_cases ha : loop.aborted = true
  · simp only [ha, ↓reduceIte]
    trivial
  · simp only [ha, Bool.false_eq_true, ↓reduceIte]
    exact ⟨hb,hfirst⟩

theorem command_inv {dep : Deployment} {loop : SyncLoop} (h : Inv dep loop) {c : Command}
    {resume : Reply c → Stage} (hs : ∀ world r, loop.world.handle c = some (world, r) →
      StageInv dep { loop with world, stage := resume r } (resume r)) :
    Inv dep (loop.command c resume) := by
  unfold SyncLoop.command
  cases hh : loop.world.handle c with
  | none => exact h
  | some p => exact ⟨h.wellFormed,h.stream,h.fresh,hs p.1 p.2 hh⟩

theorem reconcile_call (dep : Deployment) :
    ∃ k, reconcile dep = .call .getProgramAccounts k := ⟨_,rfl⟩

theorem reconcile_not_done (dep : Deployment) (a : ReconcileResult) :
    (.done a : Async ReconcileResult) ≠ reconcile dep := by
  obtain ⟨k,hk⟩ := reconcile_call dep
  rw [hk]
  exact fun h => by cases h

theorem reconcile_not_fail (dep : Deployment) (e : Thrown) :
    (.fail e : Async ReconcileResult) ≠ reconcile dep := by
  obtain ⟨k,hk⟩ := reconcile_call dep
  rw [hk]
  exact fun h => by cases h

theorem answered (w : World) : ∃ w' r, w.handle .getProgramAccounts = some (w', r) := by
  by_cases up : w.rpcUp = true
  · exact ⟨_,_,if_pos up⟩
  · exact ⟨_,_,if_neg up⟩

theorem swept_once {loop : SyncLoop} (h : loop.swept ≠ none) (read : Option Program.Chain) :
    { loop with swept := loop.swept.or read } = loop := by
  obtain ⟨world,chain,slot,stage,backoffMs,firstConnection,aborted,live,notifications,swept⟩ := loop
  cases swept with
  | none => exact absurd rfl h
  | some swept => rfl

/-- The startup sweep takes its next command: the read, or what follows from it. -/
theorem inv_backfill (dep : Deployment) {loop : SyncLoop} (h : Inv dep loop)
    (accurate : Accurate dep loop .turn) {c : Command} {k : Reply c → Async ReconcileResult}
    (hst : loop.stage = .backfilling (.call c k)) :
    Inv dep ({ loop with
      swept := loop.swept.or (if loop.reading then some loop.chain else none) }.command c
        (fun r => .backfilling (k r))) := by
  have hs := h.stage
  rw [hst] at hs
  obtain ⟨hfirst,⟨hr,hn,hb⟩ | ⟨hn,ht⟩⟩ := hs
  · obtain ⟨k',hk⟩ := reconcile_call dep
    have hread : loop.reading = true := by
      rw [hk] at hr
      cases hr
      rw [SyncLoop.reading, hst]
    obtain ⟨world,r,hh⟩ := answered loop.world
    have hrest := reconcile_read dep h.wellFormed hb (accurate hread) hh hk
    rw [hk] at hr
    cases hr
    rw [hread, hn]
    simp only [SyncLoop.command, hh]
    refine ⟨h.wellFormed,h.stream,h.fresh,hfirst,.inr ⟨fun he => (by cases he),?_⟩⟩
    exact Prog.ensures_mono (fun _ _ he =>
      ⟨he.1,fun a hr => ⟨_,rfl,synced_swept (he.2 a hr)⟩⟩) hrest
  · rw [swept_once hn]
    exact command_inv h (fun world r hh => ⟨hfirst,.inr ⟨hn,towards_command ht hh _⟩⟩)

theorem inv_heal (dep : Deployment) {loop : SyncLoop} (h : Inv dep loop)
    (accurate : Accurate dep loop .turn) {c : Command} {k : Reply c → Async ReconcileResult}
    (hst : loop.stage = .healing (.call c k)) :
    Inv dep (loop.command c (fun r => .healing (k r))) := by
  have hs := h.stage
  rw [hst] at hs
  obtain ⟨hfirst,⟨hr,hb⟩ | ht⟩ := hs
  · obtain ⟨k',hk⟩ := reconcile_call dep
    rw [hk] at hr
    cases hr
    have hread : loop.reading = true := by rw [SyncLoop.reading, hst]
    refine command_inv h (fun world r hh => ⟨hfirst,.inr ?_⟩)
    exact Prog.ensures_mono (fun _ _ he =>
      ⟨he.1,fun a hr hl => caughtUp_swept h.stream (h.fresh hl) (he.2 a hr)⟩)
      (reconcile_read dep h.wellFormed hb (accurate hread) hh hk)
  · exact command_inv h (fun world r hh => ⟨hfirst,.inr (towards_command ht hh _)⟩)

/-- The head of the stream is taken off it and processed. -/
theorem inv_consume (dep : Deployment) {loop : SyncLoop} (h : Inv dep loop)
    (hst : loop.stage = .consuming) {n : Notification} {ns : List Notification}
    (hq : loop.notifications = n :: ns) :
    Inv dep { loop with
      stage := .processing (processAccountObservation dep (n.observation dep.sol))
      notifications := ns } := by
  have hs := h.stage
  rw [hst] at hs
  obtain ⟨hfirst,hb,hready⟩ := hs
  obtain ⟨hsorted,hpast,hgenuine⟩ := hq ▸ h.stream
  obtain ⟨hw,hn⟩ := hgenuine n List.mem_cons_self
  refine ⟨h.wellFormed,⟨hsorted.of_cons,fun m hm => hpast m (List.mem_cons_of_mem _ hm),
    fun m hm => hgenuine m (List.mem_cons_of_mem _ hm)⟩,?_,hfirst,?_⟩
  · intro hl key account m ha hlast
    apply h.fresh hl key account m ha
    rw [hq, List.filter_cons]
    split
    · rw [List.getLast?_cons, hlast]
      rfl
    · exact hlast
  · apply Prog.ensures_mono ?_ (observe_leaves dep hw n.slot _)
    intro r ids ht
    refine ⟨ht.bounded hb (hpast n List.mem_cons_self),?_⟩
    rintro a rfl hl
    exact caughtUp_taken h.wellFormed hw hn (hq ▸ hready hl) ht

theorem inv_turn (dep : Deployment) {loop : SyncLoop} (h : Inv dep loop)
    (accurate : Accurate dep loop .turn) : Inv dep (loop.turn dep) := by
  have hs := h.stage
  unfold SyncLoop.turn
  split
  · rename_i a hst
    rw [hst] at hs
    obtain ⟨_,⟨hr,_⟩ | ⟨_,ht⟩⟩ := hs
    · exact absurd hr (reconcile_not_done dep a)
    · obtain ⟨hb,hback⟩ := towards_done ht
      exact enter_inv h hb (fun _ => hback)
  · exact ⟨h.wellFormed,h.stream,h.fresh,trivial⟩
  · rename_i c k hst
    exact inv_backfill dep h accurate hst
  · rename_i a hst
    rw [hst] at hs
    obtain ⟨hfirst,⟨hr,_⟩ | ht⟩ := hs
    · exact absurd hr (reconcile_not_done dep a)
    · exact ⟨h.wellFormed,h.stream,h.fresh,rfl,towards_done ht⟩
  · rename_i e hst
    rw [hst] at hs
    obtain ⟨hfirst,⟨hr,_⟩ | ht⟩ := hs
    · exact absurd hr (reconcile_not_fail dep e)
    · exact pause_inv h ht.1 (fun he => absurd (hfirst.symm.trans he) (by decide))
  · rename_i c k hst
    exact inv_heal dep h accurate hst
  · rename_i hst
    split
    · exact h
    · rename_i n ns hq
      exact inv_consume dep h hst hq
  · rename_i a hst
    rw [hst] at hs
    exact ⟨h.wellFormed,h.stream,h.fresh,hs.1,towards_done hs.2⟩
  · rename_i e hst
    rw [hst] at hs
    exact pause_inv h hs.2.1 (fun he => absurd (hs.1.symm.trans he) (by decide))
  · rename_i c k hst
    rw [hst] at hs
    exact command_inv h (fun world r hh => ⟨hs.1,towards_command hs.2 hh _⟩)
  · exact h
  · exact h
  · exact h

/-- A new subscription starts with an empty stream: the first on what the startup
sweep has left, every other one on a sweep of its own. -/
theorem inv_connect (dep : Deployment) {loop : SyncLoop} (h : Inv dep loop)
    (hst : loop.stage = .subscribing) (quiet : Quiet loop .subscribed) :
    Inv dep (loop.connect dep) := by
  have hs := h.stage
  rw [hst] at hs
  obtain ⟨hb,hback⟩ := hs
  have hstream : Stream dep.sol loop.chain loop.slot [] :=
    ⟨.nil,fun _ hn => (by cases hn),fun _ hn => (by cases hn)⟩
  have hfresh : Fresh loop.chain [] := fun _ _ _ _ hl => by cases hl
  unfold SyncLoop.connect
  by_cases hf : loop.firstConnection = true
  · obtain ⟨swept,hsw,hsync⟩ := hback hf
    simp only [hf, ↓reduceIte]
    exact ⟨h.wellFormed,hstream,fun _ => hfresh,rfl,hb,
      fun _ => caughtUp_nil.mpr (synced_unmoved hsync (quiet hst hf swept hsw))⟩
  · simp only [hf, Bool.false_eq_true, ↓reduceIte]
    exact ⟨h.wellFormed,hstream,fun _ => hfresh,rfl,.inl ⟨rfl,hb⟩⟩

theorem inv_step (dep : Deployment) (loop : SyncLoop) (act : Act) (h : Inv dep loop)
    (met : Accurate dep loop act ∧ Quiet loop act) : Inv dep (loop.step dep act) := by
  have hs := h.stage
  cases act with
  | submit later sub => exact inv_submit dep h later sub
  | turn => exact inv_turn dep h met.1
  | subscribed =>
    simp only [SyncLoop.step]
    split
    · rename_i hst
      exact inv_connect dep h hst met.2
    · exact h
  | refused =>
    simp only [SyncLoop.step]
    split
    · rename_i hst
      rw [hst] at hs
      exact pause_inv h hs.1 hs.2
    · exact h
  | dropped =>
    exact h.beside ⟨rfl,rfl,rfl,Nat.le_refl _,fun _ _ _ hl => by cases hl⟩ rfl h.wellFormed
      h.stream (fun hl => by cases hl)
  | ended =>
    simp only [SyncLoop.step]
    split
    · rename_i hst
      rw [hst] at hs
      exact pause_inv h hs.2.1 (fun he => absurd (hs.1.symm.trans he) (by decide))
    · exact h
  | woke =>
    simp only [SyncLoop.step]
    split
    · rename_i hst
      rw [hst] at hs
      have hlonger : Inv dep
          { loop with backoffMs := min (loop.backoffMs * 2) maxBackoffMs } :=
        h.beside ⟨rfl,rfl,rfl,Nat.le_refl _,fun _ _ hr => hr⟩ rfl h.wellFormed h.stream h.fresh
      exact enter_inv hlonger hs.1 hs.2
    · exact h
  | abort =>
    exact h.beside ⟨rfl,rfl,rfl,Nat.le_refl _,fun _ _ _ hl => by cases hl⟩ rfl h.wellFormed
      h.stream (fun hl => by cases hl)
  | elsewhere services =>
    exact h.beside ⟨rfl,rfl,rfl,Nat.le_refl _,fun _ _ hr => hr⟩ rfl h.wellFormed h.stream h.fresh

theorem inv_start (dep : Deployment) (launch : Launch) : Inv dep (launch.start dep) := by
  refine ⟨Representation.after_wellFormed dep.sol launch.subs,
    ⟨.nil,fun _ hn => (by cases hn),fun _ hn => (by cases hn)⟩,fun hl => (by cases hl),
    rfl,.inl ⟨rfl,rfl,?_⟩⟩
  intro tag r hr
  obtain ⟨row,hf,rfl⟩ := Option.map_eq_some_iff.mp hr
  exact launch.behind row (Table.find_mem hf).1

/-- No gap in any run whose sweeps read the chain as it is and whose first
subscription finds it as the startup sweep has read it. -/
theorem no_gap (dep : Deployment) (launch : Launch) (acts : List Act)
    (accurate : Along (SyncLoop.step dep) (Accurate dep) (launch.start dep) acts)
    (quiet : Along (SyncLoop.step dep) Quiet (launch.start dep) acts) :
    Covered dep (run (SyncLoop.step dep) (launch.start dep) acts) := by
  have hinv := run_invariant_along (inv_start dep launch) (inv_step dep)
    (along_and accurate quiet)
  intro hst hl hq
  have hs := hinv.stage
  rw [hst] at hs
  apply caughtUp_nil.mp
  rw [← hq]
  exact hs.2.2 hl

/-- A fresh deployment on an empty chain. -/
def genesisLaunch : Launch := ⟨[], World.fresh, 0, fun _ h => by cases h⟩

theorem accurate_idle {dep : Deployment} {loop : SyncLoop} {act : Act}
    (h : loop.reading = false) : Accurate dep loop act := by
  cases act with
  | turn => exact fun hr => absurd (h.symm.trans hr) (by decide)
  | submit | subscribed | refused | dropped | ended | woke | abort | elsewhere => trivial

theorem accurate_genesis (dep : Deployment) : Accurate dep (genesisLaunch.start dep) .turn :=
  fun _ _ => ⟨rfl,[],fun _ _ => ⟨fun h => (by cases h),fun h => (by cases h)⟩,rfl⟩

def after (acts : List Act) : SyncLoop :=
  run (SyncLoop.step Deployment.sample) (genesisLaunch.start Deployment.sample) acts

/-- `abc` registered once the stream is open, and its notification processed. -/
def followed : List Act :=
  [.turn, .turn, .subscribed, .submit 1 Representation.registersAbc] ++ List.replicate 9 .turn

theorem abc_followed :
    (after followed).chain.tagAccounts Program.abcAddress = some Program.abcAccount ∧
    Synced Deployment.sample.sol (after followed).world.identities (after followed).chain := by
  have accurate : Along (SyncLoop.step Deployment.sample) (Accurate Deployment.sample)
      (genesisLaunch.start Deployment.sample) followed := by
    refine ⟨accurate_genesis _,?_⟩
    repeat' (first | exact trivial | refine ⟨accurate_idle (by decide),?_⟩)
  have quiet : Along (SyncLoop.step Deployment.sample) Quiet
      (genesisLaunch.start Deployment.sample) followed := by
    refine ⟨trivial,trivial,fun _ _ swept hs => ?_,?_⟩
    · cases hs
      exact fun key account h => by cases h
    · repeat' (first | exact trivial | refine ⟨trivial,?_⟩)
  exact ⟨by decide,
    no_gap Deployment.sample genesisLaunch followed accurate quiet rfl (by decide)
      (by decide)⟩

/-- `abc` registered between the startup sweep and the first subscription. -/
def unseen : List Act := [.turn, .turn, .submit 1 Representation.registersAbc, .subscribed]

/-- The loop consumes an open stream with nothing in it, and `abc` has no row. -/
theorem abc_unseen :
    Along (SyncLoop.step Deployment.sample) (Accurate Deployment.sample)
      (genesisLaunch.start Deployment.sample) unseen ∧
    ¬ Covered Deployment.sample (after unseen) := by
  refine ⟨⟨accurate_genesis _,accurate_idle (by decide),trivial,trivial,trivial⟩,?_⟩
  intro h
  have habc : (after unseen).chain.tagAccounts Program.abcAddress = some Program.abcAccount := by
    decide
  have hnone : (after unseen).world.identities.find (tagText Program.abcAccount) = none := by
    decide
  obtain ⟨row,hf,_⟩ := h rfl (by decide) (by decide) _ _ habc
  rw [hnone] at hf
  cases hf

end Tagwise.Proofs.Coverage
