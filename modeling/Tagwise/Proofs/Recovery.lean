import Tagwise.Proofs.Journey
import Tagwise.Proofs.Reconcile

/-! One full sweep puts right whatever the mirror and the cache have got wrong before it. -/

namespace Tagwise.Proofs.Recovery
open Js Tagwise.Core Services Api Lib Protocol
open Attestation (Historic Attested)
open Convergence (tagText decodeAndVerify_wellFormed Speaks)
open Indexer (absorb)
open Journey (Showing cacheOf cleared)
open Reconcile (Valid Derives changeIn changeIn_iff changeOf counts rowSwept Untouched)
open Proofs.Representation (DerivesApart SameTag WellFormed)

/-- What has stood at an address stands there still, under its tag. -/
def Lasting (n : Network) : Prop :=
  ∀ chain ∈ n.past, ∀ key account, chain.tagAccounts key = some account →
    ∃ account', n.chain.tagAccounts key = some account' ∧ SameTag account account'

theorem lasting_act {cfg : NetworkConfig} {n : Network} (h : Lasting n)
    (weather : NetworkWeather) : Lasting (n.act cfg weather) := by
  cases weather with
  | land tx signed payerFunded =>
    have hsubs := (Attestation.submitTransaction_run cfg.dep.sol cfg.programId tx signed payerFunded
      n.chain).1
    intro chain hc key account ha
    rcases List.mem_cons.mp hc with rfl | hc
    · exact ⟨account,ha,rfl,rfl,rfl⟩
    · obtain ⟨mid,hmid,ht,hl,hb⟩ := h chain hc key account ha
      obtain ⟨account',ha',ht',hl',hb'⟩ := Representation.run_sameTag cfg.dep.sol hmid
        (Attestation.performed cfg.dep.sol cfg.programId tx signed payerFunded n.chain)
      refine ⟨account',?_,ht'.trans ht,hl'.trans hl,hb'.trans hb⟩
      rw [Network.act]
      exact hsubs ▸ ha'
  | services weather => exact h
  | report accountInfo programAccounts => exact h

section Pools
variable {cfg : NetworkConfig}

theorem step_lasting (pool : NetworkPool) (event : NetworkEvent) (h : Lasting pool.shared) :
    Lasting (pool.step cfg event).shared := by
  cases event with
  | spawn call => exact h
  | turn who =>
    rcases Pool.turn_cases Network.handle pool who with he | ⟨call,c,k,n,r,ht,hh,he⟩
    · rw [NetworkPool.step, Pool.step, he]
      exact h
    · rw [NetworkPool.step, Pool.step, he]
      obtain ⟨hchain,hpast⟩ := Attestation.handle_chain hh
      intro chain hc
      rw [hpast] at hc
      rw [hchain]
      exact h chain hc
  | outside what => exact lasting_act h what

theorem after_lasting (node : RpcNode) (order : ScanOrder) (events : List NetworkEvent) :
    Lasting (NetworkPool.after cfg node order events).shared := by
  refine run_invariant (I := fun pool : NetworkPool => Lasting pool.shared) ?_ step_lasting events
  intro chain hc key account ha
  cases List.mem_singleton.mp hc
  cases ha

end Pools

section Sweep
variable {dep : Deployment} {slot : Nat} {accounts : List (JsString × List UInt8)}

/-- Nothing is cached that was not. -/
def Shrinks (before after : World) : Prop :=
  after.redisUp = before.redisUp ∧ ∀ key value, after.redis key = some value →
    before.redis key = some value

theorem observe_clears {account : JsString × List UInt8} {w w' : World}
    (hp : ∀ decoded, decodeTagAccount dep.sol account.2 = .ok decoded →
      ∃ found, deriveTagPda dep.sol decoded.tag.text = .ok found) (up : w.redisUp = true)
    {outcome : Indexer.ProcessOutcome}
    (h : (Indexer.processAccountObservation dep ⟨account.1, account.2, slot⟩).run World.handle w =
      some (w', .ok outcome)) :
    Shrinks w w' ∧ ∀ change, changeIn dep.sol slot account = some change → outcome = .applied →
      w'.redis (buildResolveCacheKey dep.redisKeyPrefix change.tag) = none := by
  rcases Reconcile.decodeAndVerify_eq slot hp with ⟨change,hc,hd⟩ | ⟨hc,reason,hd⟩
  · have hensures := Journey.process_clears w.redis hd
    have hview : cacheOf w = (w.redis, true) := by rw [cacheOf, up]
    rw [← hview] at hensures
    obtain ⟨happlied,hskipped⟩ := Prog.ensures_run hensures h
    cases outcome with
    | applied =>
      obtain ⟨hredis,hup⟩ := Prod.mk.inj (happlied rfl)
      refine ⟨⟨hup.trans up.symm,fun key value hv => ?_⟩,fun change' hc' _ => ?_⟩
      · rw [hredis, cleared, Function.update_apply] at hv
        split at hv
        · cases hv
        · exact hv
      · cases hc.symm.trans hc'
        rw [hredis, cleared, Function.update_self]
    | skipped =>
      obtain ⟨hredis,hup⟩ := Prod.mk.inj (hskipped rfl)
      refine ⟨⟨hup,fun key value hv => ?_⟩,fun change' _ hr => by cases hr⟩
      rw [← hredis]
      exact hv
  · rw [Indexer.processAccountObservation, hd] at h
    cases h
    refine ⟨⟨rfl,fun key value hv => hv⟩,fun change hc' _ => ?_⟩
    cases hc.symm.trans hc'

theorem shrinks_none {before after : World} (h : Shrinks before after) {key : JsString}
    (hnone : before.redis key = none) : after.redis key = none := by
  cases hv : after.redis key with
  | none => rfl
  | some value => exact absurd (h.2 key value hv) (by rw [hnone]; simp)

/-- Once all accounts are observed, those that were news have nothing cached about them. -/
theorem sweep_clears (hdistinct : (accounts.map Prod.fst).Nodup) (hp : Derives dep.sol accounts)
    {w w' : World} (db : w.dbUp = true) (up : w.redisUp = true) {applied skipped : Nat}
    {counted : Nat × Nat}
    (h : (Indexer.sweep dep slot applied skipped accounts).run World.handle w =
      some (w', .ok counted)) :
    Shrinks w w' ∧ ∀ account ∈ accounts, ∀ change, changeIn dep.sol slot account = some change →
      counts dep slot w.identities.find account = true →
      w'.redis (buildResolveCacheKey dep.redisKeyPrefix change.tag) = none := by
  induction accounts generalizing w applied skipped with
  | nil =>
    cases h
    exact ⟨⟨rfl,fun key value hv => hv⟩,fun account hm => by cases hm⟩
  | cons account accounts ih =>
    obtain ⟨hfresh,hrest⟩ := List.nodup_cons.mp hdistinct
    have hpr : Derives dep.sol accounts := fun b hb => hp b (List.mem_cons_of_mem _ hb)
    obtain ⟨identities,redis,last,hrun,hfind⟩ :=
      Reconcile.observe_run slot db (hp account List.mem_cons_self)
    obtain ⟨hshrinks,hclears⟩ := observe_clears (hp account List.mem_cons_self) up hrun
    obtain ⟨applied',skipped',hswept⟩ : ∃ applied' skipped',
        (Indexer.sweep dep slot applied' skipped' accounts).run World.handle
          { w with identities, redis, lastProcessedSlot := last } = some (w', .ok counted) := by
      rw [Indexer.sweep, Prog.run_bind_ok hrun] at h
      cases hc : counts dep slot w.identities.find account with
      | true =>
        simp only [hc, ↓reduceIte] at h
        exact ⟨_,_,h⟩
      | false =>
        simp only [hc, Bool.false_eq_true, ↓reduceIte] at h
        exact ⟨_,_,h⟩
    obtain ⟨hlater,hothers⟩ := ih hrest hpr
      (w := { w with identities, redis, lastProcessedSlot := last }) db (hshrinks.1.trans up) hswept
    refine ⟨⟨hlater.1.trans hshrinks.1,fun key value hv => hshrinks.2 key value (hlater.2 key value hv)⟩,
      fun b hm change hc hcounts => ?_⟩
    rcases List.mem_cons.mp hm with rfl | hm
    · refine shrinks_none hlater (hclears change hc ?_)
      rw [if_pos hcounts]
    · refine hothers b hm change hc ?_
      have hne : account.1 ≠ b.1 := fun he => hfresh (he ▸ List.mem_map_of_mem hm)
      exact (Reconcile.counts_apart hne hfind).trans hcounts

end Sweep

/-- Served to its end on this instance, the request throws this. -/
def Refuses (cfg : ApiConfig) (w : ApiWorld) (server : Nat) (request : ApiRequest)
    (error : Thrown) : Prop :=
  ∃ w', (request.body cfg server).run ApiWorld.handle w = some (w', .error (.thrown error))

/-- The endpoints that read one tag answer that it is not found. -/
structure Absent (cfg : ApiConfig) (w : ApiWorld) (tag : NormalizedTag) : Prop where
  resolve : ∀ rawTag server, normalizeTag rawTag = .accepted tag →
    Refuses cfg w server (.resolve rawTag) (notFound tag)
  identity : ∀ rawTag server, normalizeTag rawTag = .accepted tag →
    Refuses cfg w server (.identity rawTag) (notFound tag)
  qr : ∀ rawTag server, normalizeTag rawTag = .accepted tag →
    Refuses cfg w server (.qr rawTag) (notFound tag)
  paymentLink : ∀ rawTag server, normalizeTag rawTag = .accepted tag →
    Refuses cfg w server (.paymentLink rawTag) (notFound tag)

/-- Neither the mirror nor the chain has anything to answer with. -/
inductive Vacant (dep : Deployment) (w : World) (tag : NormalizedTag) : Prop
  | blocked (row : Identity) (found : w.identities.find tag.text = some row)
      (inactive : row.status ≠ .active)
  | unknown (pda : JsString) (bump : UInt8) (missing : w.identities.find tag.text = none)
      (derived : deriveTagPda dep.sol tag.text = .ok (pda, bump))
      (silent : fromAccount dep (.ok (w.accountInfo pda)) = none)

section Vacant
variable {dep : Deployment} {w : World} {tag : NormalizedTag}

theorem vacant_source (h : Vacant dep w tag) :
    (sourceRow dep tag (w.identities.find tag.text)).run World.handle w =
      some (w, .ok (none, none)) := by
  cases h with
  | blocked row found inactive =>
    rw [found, sourceRow, if_neg inactive]
    rfl
  | unknown pda bump missing derived silent =>
    have hlookup : (SolanaChainFallback.lookup dep tag).run World.handle w = some (w, .ok none) := by
      rw [SolanaChainFallback.lookup, derived]
      by_cases up : w.rpcUp = true
      · have hget : w.handle (.getAccountInfo pda) = some (w, .ok (w.accountInfo pda)) :=
          if_pos up
        refine (Prog.run_call hget).trans ?_
        rw [← silent]
        rfl
      · have hget : w.handle (.getAccountInfo pda) = some (w, .error ()) := if_neg up
        exact Prog.run_call hget
    rw [missing, sourceRow, Prog.run_bind_ok hlookup]
    rfl

theorem vacant_find (h : Vacant dep w tag) :
    (w.identities.find tag.text).filter (fun row => row.status = .active) = none := by
  cases h with
  | blocked row found inactive => simp [found, inactive]
  | unknown pda bump missing derived silent => simp [missing]

theorem vacant_uncached (db : w.dbUp = true) (h : Vacant dep w tag) (key : JsString) :
    ∃ redis, (resolveUncached dep tag key).run World.handle w =
      some ({ w with redis }, .error (notFound tag)) := by
  obtain ⟨redis,hset⟩ := Journey.set_run dep w key .negative (some dep.resolveCacheNegativeTtlSeconds)
  refine ⟨redis,?_⟩
  rw [resolveUncached, Indexer.run_findUnique db, Prog.run_bind_ok (vacant_source h), answerFrom,
    Prog.run_bind_ok hset]
  rfl

theorem settle_error_run {α : Type} {p : Async α} {w' : World} {e : Thrown}
    (h : p.run World.handle w = some (w', .error e)) :
    (settle p).run World.handle w = some (w', .ok (.error e)) := by
  rw [settle, Prog.run_tryCatch, Prog.run_bind, h]
  rfl

theorem get_negative_run {key : JsString} (up : w.redisUp = true)
    (h : w.redis key = some .negative) (hresolve : RedisCacheReader.isResolveKey dep key = true) :
    (RedisCacheReader.get dep key).run World.handle w = some (w, .ok (some .negative)) := by
  have hget : w.handle (.redisGet key) = some (w, .ok (some .negative)) := by
    rw [← h]
    exact if_pos up
  simp only [RedisCacheReader.get, hresolve, Bool.not_true, Bool.false_eq_true, ↓reduceIte]
  exact Prog.run_call hget

theorem vacant_resolve (db : w.dbUp = true) (up : w.redisUp = true) (h : Vacant dep w tag)
    (hkey : ∀ response, w.redis (buildResolveCacheKey dep.redisKeyPrefix tag) ≠
      some (.response response)) {server : Nat}
    (hflight : w.inFlight server (buildResolveCacheKey dep.redisKeyPrefix tag) = none) :
    ∃ w', (Api.resolve dep server tag).run World.handle w = some (w', .error (notFound tag)) := by
  cases hcached : w.redis (buildResolveCacheKey dep.redisKeyPrefix tag) with
  | some value =>
    cases value with
    | response response => exact absurd hcached (hkey response)
    | negative =>
      refine ⟨w,?_⟩
      rw [Api.resolve, Prog.run_bind_ok (get_negative_run up hcached
        (RedisCacheReader.isResolveKey_built dep tag))]
      rfl
  | none =>
    have hopened : Vacant dep (Journey.opened w server
        (buildResolveCacheKey dep.redisKeyPrefix tag)) tag := by
      cases h with
      | blocked row found inactive => exact .blocked row found inactive
      | unknown pda bump missing derived silent => exact .unknown pda bump missing derived silent
    obtain ⟨redis,huncached⟩ := vacant_uncached
      (w := Journey.opened w server (buildResolveCacheKey dep.redisKeyPrefix tag)) db hopened
      (buildResolveCacheKey dep.redisKeyPrefix tag)
    obtain ⟨w',hleave⟩ := Journey.leave_run
      { Journey.opened w server (buildResolveCacheKey dep.redisKeyPrefix tag) with redis } server
      (buildResolveCacheKey dep.redisKeyPrefix tag) w.nextFlight (.error (notFound tag))
    refine ⟨w',?_⟩
    rw [Api.resolve, Prog.run_bind_ok (Journey.get_run hcached)]
    exact (Prog.run_call (Journey.enter_run hflight)).trans
      ((Prog.run_bind_ok (settle_error_run huncached)).trans (Prog.run_call hleave))

theorem vacant_active (db : w.dbUp = true) (h : Vacant dep w tag) {α : Type}
    (f : Option Identity → Async α) :
    (findActiveIdentity tag >>= f).run World.handle w = (f none).run World.handle w := by
  have hfind : (findActiveIdentity tag).run World.handle w = some (w, .ok none) := by
    rw [findActiveIdentity, Indexer.run_findUnique db, ← vacant_find h]
    rfl
  exact Prog.run_bind_ok hfind

/-- A reading handler that throws behind the check of its tag. -/
theorem tagged_refuses {w : ApiWorld} {rawTag : JsString} {α : Type}
    (hn : normalizeTag rawTag = .accepted tag) {p : NormalizedTag → Async α} {f : α → ApiAnswer}
    {w' : World} {e : Thrown} (h : (p tag).run World.handle w.mirror = some (w', .error e)) :
    (do let tag ← normalizeTagParamOrThrow rawTag
        return f (← relay (p tag)) : ApiAsync ApiAnswer).run ApiWorld.handle w =
      some (w.withMirror w', .error (.thrown e)) := by
  have hrelay : (relay (p tag)).run ApiWorld.handle w =
      some (w.withMirror w', .error (.thrown e)) := by
    rw [run_relay, h]
    rfl
  rw [normalizeTagParamOrThrow, hn]
  exact (Prog.run_bind (relay (p tag)) _ w).trans (by rw [hrelay])

theorem absent {cfg : ApiConfig} {w : ApiWorld} (db : w.mirror.dbUp = true)
    (up : w.mirror.redisUp = true) (h : Vacant cfg.dep w.mirror tag)
    (hkey : ∀ response, w.mirror.redis (buildResolveCacheKey cfg.dep.redisKeyPrefix tag) ≠
      some (.response response))
    (hflight : ∀ server,
      w.mirror.inFlight server (buildResolveCacheKey cfg.dep.redisKeyPrefix tag) = none) :
    Absent cfg w tag := by
  refine ⟨fun rawTag server hn => ?_,fun rawTag server hn => ?_,fun rawTag server hn => ?_,
    fun rawTag server hn => ?_⟩
  · obtain ⟨w',hr⟩ := vacant_resolve db up h hkey (hflight server)
    exact ⟨_,tagged_refuses hn hr⟩
  · have hr : (Api.identity tag).run World.handle w.mirror =
        some (w.mirror, .error (notFound tag)) := vacant_active db h _
    exact ⟨_,tagged_refuses hn hr⟩
  all_goals
    have hr : (linkOf cfg.dep tag).run World.handle w.mirror =
      some (w.mirror, .error (notFound tag)) := vacant_active db h _
    exact ⟨_,tagged_refuses hn hr⟩

end Vacant

/-- The response has every account of the chain, each at its address once, and nothing that
decodes but what has stood there. -/
structure Complete (sol : Program.Solana) (n : Network) (accounts : List (JsString × List UInt8)) :
    Prop where
  distinct : (accounts.map Prod.fst).Nodup
  whole : ∀ key account, n.chain.tagAccounts key = some account →
    (sol.base58 key, account.serialize) ∈ accounts
  honest : ∀ entry ∈ accounts, Reported sol n.past entry.1 entry.2

/-- What the network says of a tag is what the account at the tag's address says, and where
there is none, or the row is blocked, that the tag is not found. -/
inductive Restored (cfg : ApiConfig) (chain : Program.Chain) (before : Identities) (w : ApiWorld)
    (tag : NormalizedTag) (key : Program.Pubkey) : Prop
  | shown (account : Program.TagAccount) (row : Identity)
      (stands : chain.tagAccounts key = some account)
      (allowed : Indexer.shouldBlockTag cfg.dep.engine tag = false)
      (unblocked : ∀ old, before.find tag.text = some old → old.status = .active)
      (owner : row.owner = cfg.dep.sol.base58 account.owner)
      (wallet : row.wallet = cfg.dep.sol.base58 account.wallet) (shows : Showing cfg w tag row)
  | hidden (account : Program.TagAccount) (stands : chain.tagAccounts key = some account)
      (blocked : Indexer.shouldBlockTag cfg.dep.engine tag = true ∨
        ∃ old, before.find tag.text = some old ∧ old.status ≠ .active)
      (absent : Absent cfg w tag)
  | free (vacant : chain.tagAccounts key = none) (absent : Absent cfg w tag)

section Chain
variable {cfg : NetworkConfig} {n : Network} {tag : NormalizedTag} {key : Program.Pubkey}
  {bump : UInt8}

/-- The account at a tag's address is the tag's. -/
theorem account_tag (hapart : DerivesApart cfg.dep.sol) {account : Program.TagAccount}
    (hw : WellFormed cfg.dep.sol key account)
    (hp : cfg.dep.sol.findProgramAddress [Program.tagSeedPrefix, asciiBytes tag.text] =
      some (key, bump)) : tagText account = tag.text := by
  have hcanonical : Program.CanonicalBytes (asciiBytes tag.text) := by
    rw [asciiBytes, ← encodeUtf8_ascii tag.ascii]
    exact Parity.canonical_normalized tag
  have hslice := hapart _ _ key account.bump bump hw.stores.canonical hcanonical hw.derived hp
  rw [tagText, hslice, fromCharCodes_asciiBytes tag.ascii]

/-- What has stood under a tag stands at the tag's address. -/
theorem stands_of_stood (hlasting : Lasting n)
    (hp : cfg.dep.sol.findProgramAddress [Program.tagSeedPrefix, asciiBytes tag.text] =
      some (key, bump)) {owner wallet : JsString}
    (h : Stood cfg.dep.sol n.past tag.text owner wallet) : n.chain.tagAccounts key ≠ none := by
  obtain ⟨_,_,chain,hc,key',account,ha,hfind,_⟩ := h
  cases (Prod.mk.inj (Option.some.inj (hfind.symm.trans hp))).1
  obtain ⟨account',ha',_⟩ := hlasting chain hc key account ha
  rw [ha']
  simp

theorem deriveTagPda_found
    (hp : cfg.dep.sol.findProgramAddress [Program.tagSeedPrefix, asciiBytes tag.text] =
      some (key, bump)) : deriveTagPda cfg.dep.sol tag.text = .ok (cfg.dep.sol.base58 key, bump) := by
  rw [deriveTagPda, buildTagSeeds_normalized]
  simp only [hp]

theorem valid_account {account : Program.TagAccount} (hw : WellFormed cfg.dep.sol key account) :
    ∃ decoded, Valid cfg.dep.sol (cfg.dep.sol.base58 key, account.serialize) decoded ∧
      decoded.tag.text = tagText account ∧ decoded.owner = cfg.dep.sol.base58 account.owner ∧
      decoded.wallet = cfg.dep.sol.base58 account.wallet := by
  obtain ⟨decoded,hd,hdenotes,ht⟩ := Codec.decode_of_serialize cfg.dep.sol hw.stores
  refine ⟨decoded,⟨hd,account.bump,?_⟩,ht,hdenotes.owner,hdenotes.wallet⟩
  rw [deriveTagPda, buildTagSeeds_normalized, ht, asciiBytes_fromCharCodes]
  simp only [hw.derived]

theorem historic_wellFormed (hist : Historic cfg.dep.sol n) {chain : Program.Chain}
    (hc : chain ∈ n.past) {account : Program.TagAccount}
    (ha : chain.tagAccounts key = some account) : WellFormed cfg.dep.sol key account := by
  obtain ⟨subs,hsubs⟩ := hist.led chain hc
  exact Representation.after_wellFormed cfg.dep.sol subs key account (hsubs ▸ ha)

/-- Of the entries, those that decode are the accounts as they stand. -/
theorem entry_present (hlasting : Lasting n)
    {accounts : List (JsString × List UInt8)} (h : Complete cfg.dep.sol n accounts)
    {entry : JsString × List UInt8} (hm : entry ∈ accounts) {decoded : TagAccount}
    (hd : decodeTagAccount cfg.dep.sol entry.2 = .ok decoded) :
    ∃ key account, n.chain.tagAccounts key = some account ∧
      entry = (cfg.dep.sol.base58 key, account.serialize) := by
  obtain ⟨chain,hc,key,old,hold,haddress,_⟩ := h.honest entry hm ⟨decoded,hd⟩
  obtain ⟨account,ha,_⟩ := hlasting chain hc key old hold
  exact ⟨key,account,ha,List.inj_on_of_nodup_map h.distinct hm (h.whole key account ha) haddress⟩

theorem entries_derive (hist : Historic cfg.dep.sol n) (hlasting : Lasting n)
    {accounts : List (JsString × List UInt8)} (h : Complete cfg.dep.sol n accounts) :
    Derives cfg.dep.sol accounts := by
  intro entry hm decoded hd
  obtain ⟨key,account,ha,rfl⟩ := entry_present hlasting h hm hd
  obtain ⟨decoded',⟨hd',bump,hp⟩,_⟩ :=
    valid_account (historic_wellFormed hist hist.present ha)
  cases hd'.symm.trans hd
  exact ⟨_,hp⟩

end Chain

theorem reconcile_sweeps {dep : Deployment} {slot : Nat} {accounts : List (JsString × List UInt8)}
    {w w' : World} {result : Indexer.ReconcileResult} (rpc : w.rpcUp = true)
    (hresponse : w.programAccounts = (slot, accounts))
    (h : (Indexer.reconcile dep).run World.handle w = some (w', .ok result)) :
    ∃ counted, (Indexer.sweep dep slot 0 0 accounts).run World.handle w =
      some (w', .ok counted) := by
  have hread : w.handle .getProgramAccounts = some (w, .ok (slot, accounts)) := by
    rw [← hresponse]
    exact if_pos rpc
  unfold Indexer.reconcile getProgramAccounts at h
  rw [Prog.request_bind, Prog.run_call hread] at h
  simp only [Prog.run_bind] at h
  split at h
  · cases h
  · rename_i mid counted hr
    cases h
    exact ⟨counted,hr⟩
  · cases h

section Sweeping
variable {cfg : NetworkConfig} {n : Network} {slot : Nat}
  {accounts : List (JsString × List UInt8)}

/-- The row of a change that is news, which keeps its old status unless the name is refused. -/
theorem absorb_status {change : Indexer.VerifiedTagChange} (blocked : Bool) (now : Nat)
    {old : Option Identity} (h : ∀ row, old = some row → row.lastAppliedSlot ≤ change.slot) :
    (absorb change blocked now old).status = .active ↔
      blocked = false ∧ ∀ row, old = some row → row.status = .active := by
  cases old with
  | none =>
    cases blocked <;> simp [absorb, Indexer.createData, IdentityCreate.row, Indexer.blockedStatus]
  | some row =>
    rw [absorb, if_pos (h row rfl)]
    cases blocked <;> simp [Indexer.updateData, IdentityData.apply, Indexer.blockedStatus]

/-- Everything is up, no lookup is under way, and the sweep's slot is behind no row's. -/
structure Calm (w : World) (slot : Nat) : Prop where
  database : w.dbUp = true
  redis : w.redisUp = true
  rpc : w.rpcUp = true
  idle : ∀ server key, w.inFlight server key = none
  ahead : ∀ row ∈ w.identities.rows, row.lastAppliedSlot ≤ slot

/-- What a sweep over these accounts leaves. -/
structure Swept (dep : Deployment) (slot : Nat) (accounts : List (JsString × List UInt8))
    (before after : World) : Prop where
  database : after.dbUp = before.dbUp
  flights : after.inFlight = before.inFlight
  node : after.accountInfo = before.accountInfo
  shrinks : Shrinks before after
  clears : ∀ entry ∈ accounts, ∀ change, changeIn dep.sol slot entry = some change →
    counts dep slot before.identities.find entry = true →
    after.redis (buildResolveCacheKey dep.redisKeyPrefix change.tag) = none
  rows : ∀ text, after.identities.find text =
    rowSwept dep slot before.now accounts text (before.identities.find text)

theorem reconcile_swept {dep : Deployment} {w : World} (hdistinct : (accounts.map Prod.fst).Nodup)
    (hp : Derives dep.sol accounts) (calm : Calm w slot)
    (hresponse : w.programAccounts = (slot, accounts)) :
    ∃ w' result, (Indexer.reconcile dep).run World.handle w = some (w', .ok result) ∧
      Swept dep slot accounts w w' := by
  obtain ⟨identities,redis,last,hrun,hrows⟩ :=
    Reconcile.reconcile_run hdistinct hp calm.database calm.rpc hresponse
  obtain ⟨counted,hsweep⟩ := reconcile_sweeps calm.rpc hresponse hrun
  obtain ⟨hshrinks,hclears⟩ := sweep_clears hdistinct hp calm.database calm.redis hsweep
  exact ⟨_,_,hrun,rfl,rfl,rfl,hshrinks,hclears,hrows⟩

variable {tag : NormalizedTag} {key : Program.Pubkey} {mirror : World}

/-- A tag with an account, after the sweep. -/
theorem swept_taken (hist : Historic cfg.dep.sol n) (complete : Complete cfg.dep.sol n accounts)
    (calm : Calm n.services.mirror slot) {account : Program.TagAccount}
    (ha : n.chain.tagAccounts key = some account) (htag : tagText account = tag.text)
    (h : Swept cfg.dep slot accounts n.services.mirror mirror) :
    Restored cfg.toApiConfig n.chain n.services.mirror.identities (n.services.withMirror mirror)
      tag key := by
  obtain ⟨decoded,hvalid,htext,howner,hwallet⟩ :=
    valid_account (historic_wellFormed hist hist.present ha)
  have hdecoded : decoded.tag = tag := NormalizedTag.ext_text (htext.trans htag)
  have hm := complete.whole key account ha
  have hc : changeIn cfg.dep.sol slot (cfg.dep.sol.base58 key, account.serialize) =
      some (changeOf (cfg.dep.sol.base58 key, account.serialize) decoded slot) :=
    changeIn_iff.mpr ⟨decoded,hvalid,rfl⟩
  generalize hchange : changeOf (cfg.dep.sol.base58 key, account.serialize) decoded slot = change at hc
  have hctag : change.tag = tag := by rw [← hchange, ← hdecoded]; rfl
  have hslot : change.slot = slot := by rw [← hchange]; rfl
  have hold : ∀ row, n.services.mirror.identities.find tag.text = some row →
      row.lastAppliedSlot ≤ change.slot :=
    fun row hf => hslot ▸ calm.ahead row (Table.find_mem hf).1
  have hrow := (h.rows change.tag.text).trans (Reconcile.rowSwept_valid complete.distinct hm hc)
  obtain ⟨hrowner,hrwallet,_⟩ := Reconcile.absorb_taken change
    (Indexer.shouldBlockTag cfg.dep.engine tag) n.services.mirror.now hold
  have hstatus := absorb_status (Indexer.shouldBlockTag cfg.dep.engine tag)
    n.services.mirror.now hold
  have hcounts : counts cfg.dep slot n.services.mirror.identities.find
      (cfg.dep.sol.base58 key, account.serialize) = true := by
    rw [counts, hc]
    simp only [hctag, decide_eq_true_eq]
    cases hf : n.services.mirror.identities.find tag.text with
    | none => simp [Indexer.outcomeOn]
    | some row => simp [Indexer.outcomeOn, hold row hf]
  have hkey := h.clears _ hm change hc hcounts
  rw [hctag] at hrow hkey
  generalize absorb change (Indexer.shouldBlockTag cfg.dep.engine tag) n.services.mirror.now
    (n.services.mirror.identities.find tag.text) = row at hrow hrowner hrwallet hstatus
  have hidle : ∀ server, mirror.inFlight server
      (buildResolveCacheKey cfg.dep.redisKeyPrefix tag) = none := by
    intro server
    rw [h.flights]
    exact calm.idle server _
  by_cases hactive : row.status = .active
  · obtain ⟨hopen,hunblocked⟩ := hstatus.mp hactive
    refine .shown account row ha hopen hunblocked ?_ ?_
      (Journey.showing (h.database.trans calm.database) hrow hactive hkey hidle)
    · rw [hrowner, ← hchange]
      exact howner
    · rw [hrwallet, ← hchange]
      exact hwallet
  · refine .hidden account ha ?_ (absent (h.database.trans calm.database) (h.shrinks.1.trans calm.redis)
      (.blocked row hrow hactive) (fun response hr => ?_) hidle)
    · by_contra hnot
      rw [not_or, Bool.not_eq_true] at hnot
      refine hactive (hstatus.mpr ⟨hnot.1,fun old hf => ?_⟩)
      by_contra hinactive
      exact hnot.2 ⟨old,hf,hinactive⟩
    · cases hkey.symm.trans hr

/-- A tag without one. -/
theorem swept_free (hlasting : Lasting n) (complete : Complete cfg.dep.sol n accounts)
    (calm : Calm n.services.mirror slot) {G : Nat → JsString → Prop}
    (truthful : Provenance.Truthful cfg.dep (Stood cfg.dep.sol n.past) G n.services.mirror)
    {bump : UInt8}
    (hp : cfg.dep.sol.findProgramAddress [Program.tagSeedPrefix, asciiBytes tag.text] =
      some (key, bump))
    (ha : n.chain.tagAccounts key = none) (hbase : Function.Injective cfg.dep.sol.base58)
    (h : Swept cfg.dep slot accounts n.services.mirror mirror) :
    Restored cfg.toApiConfig n.chain n.services.mirror.identities (n.services.withMirror mirror)
      tag key := by
  have hderive := deriveTagPda_found hp
  have hnever : ∀ owner wallet, ¬ Stood cfg.dep.sol n.past tag.text owner wallet :=
    fun owner wallet hs => stands_of_stood hlasting hp hs ha
  refine .free ha (absent (h.database.trans calm.database) (h.shrinks.1.trans calm.redis)
    (.unknown _ _ ?_ hderive ?_) (fun response hr => ?_) (fun server => ?_))
  · have hother : Untouched cfg.dep.sol slot accounts tag.text := by
      refine Reconcile.untouched_of_others (fun entry hm decoded hv ht => ?_)
      obtain ⟨key',account,ha',rfl⟩ := entry_present hlasting complete hm hv.decodes
      obtain ⟨bump',hp'⟩ := hv.derived
      rw [ht, hderive] at hp'
      cases hbase (Prod.mk.inj (Except.ok.inj hp')).1
      cases ha.symm.trans ha'
    have hbefore : n.services.mirror.identities.find tag.text = none := by
      cases hf : n.services.mirror.identities.find tag.text with
      | none => rfl
      | some row =>
        obtain ⟨hm,ht⟩ := Table.find_mem hf
        exact absurd (ht ▸ truthful.rows row hm) (hnever _ _)
    exact (h.rows tag.text).trans ((Reconcile.rowSwept_other hother).trans hbefore)
  · simp only [ApiWorld.withMirror, h.node, fromAccount]
    split
    · rename_i data hdata
      split
      · rfl
      · rename_i decoded hd
        exact absurd (truthful.info _ data (Except.ok.inj hdata) decoded hd tag bump hderive)
          (hnever _ _)
    · rfl
  · obtain ⟨row,hs,_⟩ := truthful.cached _ response (h.shrinks.2 _ _ hr) tag.text rfl
    exact hnever _ _ hs
  · simp only [ApiWorld.withMirror, h.flights]
    exact calm.idle server _

end Sweeping

/-- Whatever was missed, repeated or cached before, in any run with an honest node: one sweep over
all accounts, run by itself, and the network says of every tag what the chain says. -/
theorem sweep_restores (cfg : NetworkConfig) (hapart : DerivesApart cfg.dep.sol)
    (hbase : Function.Injective cfg.dep.sol.base58) (node : RpcNode) (order : ScanOrder)
    (events : List NetworkEvent)
    (honest : Along (NetworkPool.step cfg) (Honest cfg) (Pool.init (Network.start node order))
      events)
    {slot : Nat} {accounts : List (JsString × List UInt8)}
    (hresponse : (NetworkPool.after cfg node order events).shared.services.mirror.programAccounts =
      (slot, accounts))
    (calm : Calm (NetworkPool.after cfg node order events).shared.services.mirror slot)
    (complete : Complete cfg.dep.sol (NetworkPool.after cfg node order events).shared accounts) :
    ∃ mirror result, (Indexer.reconcile cfg.dep).run World.handle
        (NetworkPool.after cfg node order events).shared.services.mirror =
        some (mirror, .ok result) ∧
      ∀ tag : NormalizedTag, ∀ key bump,
        cfg.dep.sol.findProgramAddress [Program.tagSeedPrefix, asciiBytes tag.text] =
          some (key, bump) →
        Restored cfg.toApiConfig (NetworkPool.after cfg node order events).shared.chain
          (NetworkPool.after cfg node order events).shared.services.mirror.identities
          ((NetworkPool.after cfg node order events).shared.services.withMirror mirror) tag key := by
  have hist : Historic cfg.dep.sol (NetworkPool.after cfg node order events).shared :=
    Attestation.after_historic node order events
  have hlasting : Lasting (NetworkPool.after cfg node order events).shared :=
    after_lasting node order events
  have truthful := (Attestation.after_honoured node order events
    (Attestation.after_brings hapart hbase node order events honest)).shared
  generalize NetworkPool.after cfg node order events = pool at *
  obtain ⟨mirror,result,hrun,hswept⟩ :=
    reconcile_swept complete.distinct (entries_derive hist hlasting complete) calm hresponse
  refine ⟨mirror,result,hrun,fun tag key bump hp => ?_⟩
  cases ha : pool.shared.chain.tagAccounts key with
  | none => exact swept_free hlasting complete calm truthful hp ha hbase hswept
  | some account =>
    have hw := historic_wellFormed hist hist.present ha
    exact swept_taken hist complete calm ha (account_tag hapart hw hp) hswept

/-- `abc` is registered and nobody hears of it; somebody asks, and is told that there is none. -/
def abcMissed : List NetworkEvent :=
  [.outside (.land Attestation.registersAbc [Program.sampleOwner] true),
    .spawn (.request 0 (.identity (js "abc"))), .turn 0,
    .outside (.report (fun _ => none)
      (7, [(Attestation.abcObservation.address, Attestation.abcObservation.data)]))]

def afterMissed : NetworkPool :=
  NetworkPool.after Attestation.sampleConfig BlockedInvisible.sampleWorld.node .byTag abcMissed

theorem missed_honest : Along (NetworkPool.step Attestation.sampleConfig)
    (Honest Attestation.sampleConfig)
    (Pool.init (Network.start BlockedInvisible.sampleWorld.node .byTag)) abcMissed := by
  refine ⟨trivial,trivial,trivial,⟨fun address data hd => (by cases hd),fun account hm => ?_⟩,trivial⟩
  cases List.mem_singleton.mp hm
  exact Attestation.abc_reported

theorem missed_complete : Complete Program.sampleSolana afterMissed.shared
    [(Attestation.abcObservation.address, Attestation.abcObservation.data)] where
  distinct := List.nodup_singleton _
  whole := by
    intro key account ha
    have hchain : afterMissed.shared.chain =
      Program.Chain.genesis.put Program.abcAddress Program.abcAccount := rfl
    rw [hchain] at ha
    simp only [Program.Chain.put, Function.update_apply] at ha
    split at ha
    · rename_i hkey
      cases ha
      rw [hkey]
      exact List.mem_singleton_self _
    · cases ha
  honest := by
    intro entry hm
    cases List.mem_singleton.mp hm
    exact Attestation.abc_reported

theorem abc_restored : ∃ mirror result, (Indexer.reconcile Attestation.sampleConfig.dep).run
      World.handle afterMissed.shared.services.mirror = some (mirror, .ok result) ∧
    ∀ tag : NormalizedTag, ∀ key bump,
      Program.sampleSolana.findProgramAddress [Program.tagSeedPrefix, asciiBytes tag.text] =
        some (key, bump) →
      Restored Attestation.sampleConfig.toApiConfig afterMissed.shared.chain
        afterMissed.shared.services.mirror.identities
        (afterMissed.shared.services.withMirror mirror) tag key :=
  sweep_restores Attestation.sampleConfig Representation.sample_apart
    (fun _ _ => Program.base58_injective) _ _ _ missed_honest rfl
    ⟨rfl,rfl,rfl,fun _ _ => rfl,fun row hrow => (by cases hrow)⟩ missed_complete

end Tagwise.Proofs.Recovery
