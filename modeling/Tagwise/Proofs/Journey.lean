import Tagwise.Lib.Ensures
import Tagwise.Proofs.Attestation
import Tagwise.Proofs.Convergence
import Tagwise.Proofs.Registration

/-! A name from the request to register it to the answers about it: the transaction answered,
the account it leaves on the chain, the row the indexer makes of the account. -/

namespace Tagwise.Proofs.Journey
open Js Tagwise.Core Services Api Lib Protocol
open Convergence (tagText decodeAndVerify_wellFormed Speaks)
open Indexer (absorb)

/-- Served to its end on this instance, the request is answered so. -/
def Replies (cfg : ApiConfig) (w : ApiWorld) (server : Nat) (request : ApiRequest)
    (answer : ApiAnswer) : Prop :=
  ∃ w', (request.body cfg server).run ApiWorld.handle w = some (w', .ok answer)

/-- What the endpoints that read one tag answer, however it is spelt and whichever instance
is asked. -/
structure Showing (cfg : ApiConfig) (w : ApiWorld) (tag : NormalizedTag) (row : Identity) :
    Prop where
  resolve : ∀ rawTag server, normalizeTag rawTag = .accepted tag →
    Replies cfg w server (.resolve rawTag) (.resolved (resolveResponse cfg.dep tag row))
  identity : ∀ rawTag server, normalizeTag rawTag = .accepted tag →
    Replies cfg w server (.identity rawTag) (.identity (toIdentityResponse tag row))
  qr : ∀ rawTag server, normalizeTag rawTag = .accepted tag →
    Replies cfg w server (.qr rawTag) (.link ⟨presentTag tag,row.wallet,
      buildPaymentLink cfg.dep.paymentLinkBaseUrl tag⟩)
  paymentLink : ∀ rawTag server, normalizeTag rawTag = .accepted tag →
    Replies cfg w server (.paymentLink rawTag) (.link ⟨presentTag tag,row.wallet,
      buildPaymentLink cfg.dep.paymentLinkBaseUrl tag⟩)

section Reading
variable {dep : Deployment} {w : World}

theorem get_run {key : JsString} (h : w.redis key = none) :
    (RedisCacheReader.get dep key).run World.handle w = some (w, .ok none) := by
  rw [RedisCacheReader.get]
  split
  · rfl
  · by_cases up : w.redisUp = true
    · have hget : w.handle (.redisGet key) = some (w, .ok none) := by
        rw [← h]
        exact if_pos up
      exact Prog.run_call hget
    · have hget : w.handle (.redisGet key) = some (w, .error ()) := if_neg up
      exact Prog.run_call hget

variable (dep w) in
/-- Whether Redis takes the value or not, the caller goes on. -/
theorem set_run (key : JsString) (value : CacheValue) (ttl : Option Nat) :
    ∃ redis, (RedisCacheReader.set dep key value ttl).run World.handle w =
      some ({ w with redis }, .ok ()) := by
  rw [RedisCacheReader.set]
  split
  · exact ⟨w.redis,rfl⟩
  · by_cases up : w.redisUp ∧ 0 < ttl.getD dep.resolveCacheTtlSeconds
    · have hset : w.handle (.redisSet key value (ttl.getD dep.resolveCacheTtlSeconds)) =
          some (w.putKey key (some value), .ok ()) := if_pos up
      exact ⟨_,Prog.run_call hset⟩
    · have hset : w.handle (.redisSet key value (ttl.getD dep.resolveCacheTtlSeconds)) =
          some (w, .error ()) := if_neg up
      exact ⟨w.redis,Prog.run_call hset⟩

variable {tag : NormalizedTag} {row : Identity}

variable (dep) in
theorem uncached_run (up : w.dbUp = true) (hf : w.identities.find tag.text = some row)
    (ha : row.status = .active) (key : JsString) :
    ∃ redis, (resolveUncached dep tag key).run World.handle w =
      some ({ w with redis }, .ok (resolveResponse dep tag row)) := by
  obtain ⟨redis,hset⟩ := set_run dep w key (.response (resolveResponse dep tag row)) none
  refine ⟨redis,?_⟩
  rw [resolveUncached, Indexer.run_findUnique up, hf, sourceRow, if_pos ha]
  exact Prog.run_bind_ok hset

theorem settle_run {α : Type} {p : Async α} {w' : World} {a : α}
    (h : p.run World.handle w = some (w', .ok a)) :
    (settle p).run World.handle w = some (w', .ok (.ok a)) := by
  rw [settle, Prog.run_tryCatch, Prog.run_bind_ok h]
  rfl

def opened (w : World) (server : Nat) (key : JsString) : World :=
  { w with
    inFlight := Function.update w.inFlight server
      (Function.update (w.inFlight server) key (some w.nextFlight))
    nextFlight := w.nextFlight + 1 }

theorem enter_run {server : Nat} {key : JsString} (h : w.inFlight server key = none) :
    w.handle (.enterFlight server key) = some (opened w server key, .leads w.nextFlight) := by
  rw [World.handle, h]
  rfl

theorem leave_run (w : World) (server : Nat) (key : JsString) (flight : Nat)
    (result : Except Thrown ResolveResponse) :
    ∃ w', w.handle (.leaveFlight server key flight result) = some (w', ()) := ⟨_,rfl⟩

theorem resolve_run (up : w.dbUp = true) (hf : w.identities.find tag.text = some row)
    (ha : row.status = .active) (hkey : w.redis (buildResolveCacheKey dep.redisKeyPrefix tag) = none)
    {server : Nat} (hflight : w.inFlight server (buildResolveCacheKey dep.redisKeyPrefix tag) = none) :
    ∃ w', (Api.resolve dep server tag).run World.handle w =
      some (w', .ok (resolveResponse dep tag row)) := by
  obtain ⟨redis,huncached⟩ := uncached_run dep
    (w := opened w server (buildResolveCacheKey dep.redisKeyPrefix tag)) up hf ha
    (buildResolveCacheKey dep.redisKeyPrefix tag)
  obtain ⟨w',hleave⟩ := leave_run
    { opened w server (buildResolveCacheKey dep.redisKeyPrefix tag) with redis } server
    (buildResolveCacheKey dep.redisKeyPrefix tag) w.nextFlight (.ok (resolveResponse dep tag row))
  refine ⟨w',?_⟩
  rw [Api.resolve, Prog.run_bind_ok (get_run hkey)]
  exact (Prog.run_call (enter_run hflight)).trans
    ((Prog.run_bind_ok (settle_run huncached)).trans (Prog.run_call hleave))

/-- A reading handler between the check of its tag and its answer. -/
theorem tagged_run {w : ApiWorld} {rawTag : JsString} {α : Type}
    (hn : normalizeTag rawTag = .accepted tag) {p : NormalizedTag → Async α} {f : α → ApiAnswer}
    {w' : World} {a : α} (h : (p tag).run World.handle w.mirror = some (w', .ok a)) :
    (do let tag ← normalizeTagParamOrThrow rawTag
        return f (← relay (p tag)) : ApiAsync ApiAnswer).run ApiWorld.handle w =
      some (w.withMirror w', .ok (f a)) := by
  have hrelay : (relay (p tag)).run ApiWorld.handle w = some (w.withMirror w', .ok a) := by
    rw [run_relay, h]
    rfl
  rw [normalizeTagParamOrThrow, hn]
  exact Prog.run_bind_ok hrelay

theorem findActive_run (up : w.dbUp = true) (hf : w.identities.find tag.text = some row)
    (ha : row.status = .active) {α : Type} (f : Option Identity → Async α) :
    (findActiveIdentity tag >>= f).run World.handle w = (f (some row)).run World.handle w := by
  have hfind : (findActiveIdentity tag).run World.handle w = some (w, .ok (some row)) := by
    rw [findActiveIdentity, Indexer.run_findUnique up, hf]
    simp [ha]
  exact Prog.run_bind_ok hfind

/-- An active row, and nothing about the tag in the cache or on its way. -/
theorem showing {cfg : ApiConfig} {w : ApiWorld} (up : w.mirror.dbUp = true)
    (hf : w.mirror.identities.find tag.text = some row) (ha : row.status = .active)
    (hkey : w.mirror.redis (buildResolveCacheKey cfg.dep.redisKeyPrefix tag) = none)
    (hflight : ∀ server,
      w.mirror.inFlight server (buildResolveCacheKey cfg.dep.redisKeyPrefix tag) = none) :
    Showing cfg w tag row := by
  refine ⟨fun rawTag server hn => ?_,fun rawTag server hn => ?_,fun rawTag server hn => ?_,
    fun rawTag server hn => ?_⟩
  · obtain ⟨w',h⟩ : ∃ w', (Api.resolve cfg.dep server tag).run World.handle w.mirror =
        some (w', .ok (resolveResponse cfg.dep tag row)) := resolve_run up hf ha hkey (hflight server)
    exact ⟨_,tagged_run hn h⟩
  · have h : (Api.identity tag).run World.handle w.mirror =
        some (w.mirror, .ok (toIdentityResponse tag row)) := findActive_run up hf ha _
    exact ⟨_,tagged_run hn h⟩
  all_goals
    have h : (linkOf cfg.dep tag).run World.handle w.mirror = some (w.mirror, .ok
      ⟨presentTag tag,row.wallet,buildPaymentLink cfg.dep.paymentLinkBaseUrl tag⟩) :=
      findActive_run up hf ha _
    exact ⟨_,tagged_run hn h⟩

end Reading

def cacheOf (w : World) : (JsString → Option CacheValue) × Bool := (w.redis, w.redisUp)

def cleared (dep : Deployment) (tag : JsString) (redis : JsString → Option CacheValue) :
    JsString → Option CacheValue :=
  Function.update redis (buildResolveCacheKey dep.redisKeyPrefix tag) none

section Observing
variable {dep : Deployment} {α : Type} {t : (JsString → Option CacheValue) × Bool}

/-- What a command of the database does not touch. -/
def KeepsCache (c : Command) : Prop :=
  ∀ w w' r, w.handle c = some (w', r) → cacheOf w' = cacheOf w

theorem keepsCache_db {c : Command} (hset : ∀ key v ttl, c ≠ .redisSet key v ttl)
    (hdel : ∀ key, c ≠ .redisDel key) : KeepsCache c := by
  intro w w' r h
  rcases MirrorRecord.handle_does_or h with hd | ⟨_,rfl,_⟩
  · cases hd with
    | nothing quiet rows redis inFlight nextFlight settled up => simp [cacheOf, redis, up]
    | set key value ttl => exact absurd rfl (hset key value ttl)
    | deleted key => exact absurd rfl (hdel key)
    | updated | updatedOne | created | opened | left => rfl
  · rfl

theorem awaitDb_ensures {c : Command} (hset : ∀ key v ttl, c ≠ .redisSet key v ttl)
    (hdel : ∀ key, c ≠ .redisDel key) {p : Reply c → Async (Except DbError α)}
    (hp : ∀ r, (p r).Always KeepsCache) :
    (awaitDb (Prog.call c p)).Ensures World.handle cacheOf (fun _ t' => t' = t) t :=
  Prog.ensures_apart (always_awaitDb ⟨keepsCache_db hset hdel,hp⟩)

theorem advanceCursor_keeps (slot : Nat) :
    (Indexer.advanceCursor slot).Ensures World.handle cacheOf (fun _ t' => t' = t) t := by
  have hkeeps : ∀ {c : Command}, (∀ key v ttl, c ≠ .redisSet key v ttl) →
      (∀ key, c ≠ .redisDel key) → (Prog.request c : Async (Reply c)).Always KeepsCache :=
    fun hset hdel => ⟨keepsCache_db hset hdel,fun _ => trivial⟩
  refine Prog.ensures_apart ?_
  unfold Indexer.advanceCursor
  refine Prog.always_bind (always_awaitDb (hkeeps (by simp) (by simp))) (fun count => ?_)
  refine Prog.always_ite trivial ?_
  refine Prog.always_bind (always_awaitDb (hkeeps (by simp) (by simp))) (fun existing => ?_)
  exact Prog.always_ite (always_awaitDb (hkeeps (by simp) (by simp))) trivial

variable {redis : JsString → Option CacheValue}

/-- With Redis up the key is gone when the deletion returns. -/
theorem invalidate_clears {tag : JsString} {β : Type} {f : Unit → Async β}
    {Q : Except Thrown β → (JsString → Option CacheValue) × Bool → Prop}
    (hf : (f ()).Ensures World.handle cacheOf Q (cleared dep tag redis, true)) :
    (Indexer.invalidate dep tag >>= f).Ensures World.handle cacheOf Q (redis, true) := by
  intro w w' r hv hh
  obtain ⟨rfl,up⟩ := Prod.mk.inj hv
  cases (if_pos up).symm.trans hh
  have hc : cacheOf (w.putKey (buildResolveCacheKey dep.redisKeyPrefix tag) none) =
      (cleared dep tag w.redis, true) := by simp only [cacheOf, World.putKey, up, cleared]
  rw [hc]
  exact hf

theorem applyChange_clears (change : Indexer.VerifiedTagChange) :
    (Indexer.applyChange dep change).Ensures World.handle cacheOf
      (fun r t' => ∀ o, r = .ok o → t' = if o = .skippedStale then (redis, true)
        else (cleared dep change.tag redis, true)) (redis, true) := by
  unfold Indexer.applyChange
  refine Prog.ensures_bind (awaitDb_ensures (by simp) (by simp) (fun _ => trivial)) ?_
    (fun e t' _ o ho => by cases ho)
  intro count t' ht
  subst ht
  split
  · refine invalidate_clears (fun o ho => ?_)
    cases ho
    rfl
  refine Prog.ensures_bind (awaitDb_ensures (by simp) (by simp) (fun _ => trivial)) ?_
    (fun e t' _ o ho => by cases ho)
  intro existing t' ht
  subst ht
  cases existing with
  | some row =>
    intro o ho
    cases ho
    rfl
  | none =>
    refine Prog.ensures_bind (awaitDb_ensures (by simp) (by simp) (fun _ => trivial)) ?_
      (fun e t' _ o ho => by cases ho)
    intro u t' ht
    subst ht
    refine invalidate_clears (fun o ho => ?_)
    cases ho
    rfl

variable (redis) in
/-- An observation that is applied leaves nothing cached about its tag, and one that is not
leaves the cache alone. -/
theorem process_clears {o : Indexer.Observation} {change : Indexer.VerifiedTagChange}
    (hd : Indexer.decodeAndVerify dep o = .done (.ok change)) :
    (Indexer.processAccountObservation dep o).Ensures World.handle cacheOf
      (fun r t' => (r = .ok .applied → t' = (cleared dep change.tag redis, true)) ∧
        (r = .ok .skipped → t' = (redis, true))) (redis, true) := by
  rw [Indexer.processAccountObservation, hd, Prog.done_bind]
  refine Prog.ensures_bind (applyChange_clears change) ?_
    (fun e t' _ => ⟨fun hr => (by cases hr),fun hr => (by cases hr)⟩)
  intro outcome t' h
  have ht := h outcome rfl
  by_cases hs : outcome = .skippedStale
  · rw [if_pos hs] at ht
    simp only [hs, ne_eq, not_true_eq_false, ↓reduceIte]
    exact ⟨fun hr => (by cases hr),fun _ => ht⟩
  · rw [if_neg hs] at ht
    subst ht
    simp only [ne_eq, hs, not_false_eq_true, ↓reduceIte]
    exact Prog.ensures_bind (advanceCursor_keeps o.slot)
      (fun u t' ht => ⟨fun _ => ht,fun hr => (by cases hr)⟩)
      (fun e t' _ => ⟨fun hr => (by cases hr),fun hr => (by cases hr)⟩)

/-- The services that observing and reading go through are up, and nobody is looking the tag
up. -/
structure Ready (cfg : ApiConfig) (w : ApiWorld) (tag : NormalizedTag) : Prop where
  database : w.mirror.dbUp = true
  redis : w.mirror.redisUp = true
  idle : ∀ server,
    w.mirror.inFlight server (buildResolveCacheKey cfg.dep.redisKeyPrefix tag) = none

/-- A row has the profile of the row before it, or none where there was no row. -/
structure KeepsProfile (old : Option Identity) (row : Identity) : Prop where
  displayName : row.displayName = old.bind Identity.displayName
  avatar : row.avatar = old.bind Identity.avatar
  bio : row.bio = old.bind Identity.bio
  preferredToken : row.preferredToken = old.bind Identity.preferredToken
  verified : row.verified = old.any Identity.verified
  merchant : row.merchant = old.any Identity.merchant
  createdAt : ∀ before, old = some before → row.createdAt = before.createdAt

/-- Processed on its own, the account observed in this slot is what all endpoints then show,
with the profile that the tag's row had. -/
def Shows (cfg : ApiConfig) (w : ApiWorld) (tag : NormalizedTag) (key : Program.Pubkey)
    (account : Program.TagAccount) (slot : Nat) : Prop :=
  ∃ mirror row, (Indexer.processAccountObservation cfg.dep
      ⟨cfg.dep.sol.base58 key,account.serialize,slot⟩).run World.handle w.mirror =
      some (mirror, .ok .applied) ∧
    row.owner = cfg.dep.sol.base58 account.owner ∧ row.wallet = cfg.dep.sol.base58 account.wallet ∧
    KeepsProfile (w.mirror.identities.find tag.text) row ∧
    mirror.identities.find tag.text = some row ∧
    (∀ text, text ≠ tag.text → mirror.identities.find text = w.mirror.identities.find text) ∧
    Showing cfg (w.withMirror mirror) tag row

end Observing

/-- What the gate of the API allows, the indexer's does not block. -/
theorem unblocked_of_allowed {engine : Moderation.ProfanityEngine} {tag : NormalizedTag}
    (h : Moderation.checkModerationGate engine tag = .ok .allowed) :
    Indexer.shouldBlockTag engine tag = false := by
  cases hr : isReservedTag tag with
  | true =>
    rw [Moderation.checkModerationGate_reserved engine hr] at h
    cases h
  | false =>
    rw [Moderation.checkModerationGate_open engine hr] at h
    rw [Indexer.shouldBlockTag]
    cases hb : Moderation.isBlockedName engine tag with
    | error e => rfl
    | ok blocked =>
      rw [hb] at h
      cases blocked with
      | false => rfl
      | true => cases h

section Registering
variable {cfg : NetworkConfig} {node : RpcNode} {order : ScanOrder} {events : List NetworkEvent}
variable {who server : Nat}

end Registering

end Tagwise.Proofs.Journey
