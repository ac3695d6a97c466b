import Tagwise.Proofs.ChainReaders
import Tagwise.Proofs.Freshness

namespace Tagwise.Proofs.NegativeCache
open Js Tagwise.Core Services Api Lib
open MirrorRecord (MirrorEntry finds)
open LookupPath

/-- What an answer of the RPC node holds is an account of the program. -/
def Valid (dep : Deployment) (data : Option (List UInt8)) : Prop :=
  ∃ bytes account, data = some bytes ∧ decodeTagAccount dep.sol bytes = .ok account

/-- The mirror has a row that is not active, or it has none and the RPC node answers that
there is no account either. -/
def Denied (dep : Deployment) (tag : JsString) (w : World) : Prop :=
  (∃ row, w.identities.find tag = some row ∧ row.status ≠ .active) ∨
  w.identities.find tag = none ∧ ∃ pda bump, deriveTagPda dep.sol tag = .ok (pda, bump) ∧
    w.rpcUp = true ∧ ¬ Valid dep (w.accountInfo pda)

/-- The RPC node is down for a lookup that needs its answer and can store one. -/
structure Unanswered (dep : Deployment) (server : Nat) (tag : JsString) (w : World) : Prop where
  redis : w.redisUp = true
  ttl : 0 < dep.resolveCacheNegativeTtlSeconds
  missed : w.redis (resolveKey dep tag) = none
  alone : w.inFlight server (resolveKey dep tag) = none
  database : w.dbUp = true
  unmirrored : w.identities.find tag = none
  derived : ∃ pda bump, deriveTagPda dep.sol tag = .ok (pda, bump)
  down : w.rpcUp = false

section Alone
variable {dep : Deployment} {tag : JsString} {w w' : World}

theorem fromAccount_none_iff (data : Option (List UInt8)) :
    fromAccount dep (.ok data) = none ↔ ¬ Valid dep data := by
  cases data with
  | none => simp [fromAccount, Valid]
  | some bytes =>
    cases h : decodeTagAccount dep.sol bytes with
    | error e => simp [fromAccount, Valid, h]
    | ok account => simp [fromAccount, Valid, h]

theorem fromAccount_active {account : Except Unit (Option (List UInt8))} {row : Identity}
    (h : fromAccount dep account = some row) : row.status = .active := by
  match account with
  | .error () => cases h
  | .ok none => cases h
  | .ok (some bytes) =>
    cases hd : decodeTagAccount dep.sol bytes with
    | error e =>
      rw [fromAccount, hd] at h
      cases h
    | ok decoded =>
      rw [fromAccount, hd] at h
      cases h
      rfl

theorem settle_run {α : Type} (p : Async α) (w : World) :
    (settle p).run World.handle w =
      (p.run World.handle w).map (fun (w', result) => (w', .ok result)) := by
  rw [settle, Prog.run_tryCatch, Prog.run_bind]
  cases p.run World.handle w with
  | none => rfl
  | some ended =>
    obtain ⟨w',result⟩ := ended
    cases result with
    | ok a => rfl
    | error e => rfl

/-- The end of a lookup stores its value, or the store fails and nothing changes. -/
theorem answerFrom_stores {row : Option Identity} {ttl : Option Nat}
    {result : Except Thrown ResolveResponse}
    (h : (answerFrom dep tag (resolveKey dep tag) (row, ttl)).run World.handle w =
      some (w', result)) :
    w' = w ∨ w.redisUp = true ∧ (row = none → 0 < dep.resolveCacheNegativeTtlSeconds) ∧
      w' = w.putKey (resolveKey dep tag) (some (valueFrom dep tag row)) := by
  cases row with
  | none =>
    rw [answerFrom, set_built] at h
    by_cases hset : w.redisUp = true ∧ 0 < dep.resolveCacheNegativeTtlSeconds
    · have hs : w.handle (.redisSet (resolveKey dep tag) .negative
          dep.resolveCacheNegativeTtlSeconds) = _ := if_pos hset
      cases (Prog.run_call hs).symm.trans h
      exact .inr ⟨hset.1,fun _ => hset.2,rfl⟩
    · have hs : w.handle (.redisSet (resolveKey dep tag) .negative
          dep.resolveCacheNegativeTtlSeconds) = _ := if_neg hset
      cases (Prog.run_call hs).symm.trans h
      exact .inl rfl
  | some row =>
    simp only [answerFrom, set_built] at h
    by_cases hset : w.redisUp = true ∧ 0 < ttl.getD dep.resolveCacheTtlSeconds
    · have hs : w.handle (.redisSet (resolveKey dep tag) (.response (resolveResponse dep tag row))
          (ttl.getD dep.resolveCacheTtlSeconds)) = _ := if_pos hset
      cases (Prog.run_call hs).symm.trans h
      exact .inr ⟨hset.1,fun hn => (by cases hn),rfl⟩
    · have hs : w.handle (.redisSet (resolveKey dep tag) (.response (resolveResponse dep tag row))
          (ttl.getD dep.resolveCacheTtlSeconds)) = _ := if_neg hset
      cases (Prog.run_call hs).symm.trans h
      exact .inl rfl

/-- What holds when a lookup leaves a not-found where there was none. -/
theorem uncached_stores {result : Except Thrown ResolveResponse}
    (h : (resolveUncached dep tag (resolveKey dep tag)).run World.handle w = some (w', result))
    (hneg : w'.redis (resolveKey dep tag) = some .negative)
    (hold : w.redis (resolveKey dep tag) ≠ some .negative) :
    w.dbUp = true ∧ w.redisUp = true ∧ 0 < dep.resolveCacheNegativeTtlSeconds ∧
      (Denied dep tag w ∨ w.identities.find tag = none ∧
        (∃ pda bump, deriveTagPda dep.sol tag = .ok (pda, bump)) ∧ w.rpcUp = false) := by
  have hends : ∀ {row ttl}, (answerFrom dep tag (resolveKey dep tag) (row, ttl)).run World.handle w =
      some (w', result) → row = none ∧ w.redisUp = true ∧
        0 < dep.resolveCacheNegativeTtlSeconds := by
    intro row ttl hrun
    rcases answerFrom_stores hrun with rfl | ⟨hup,httl,rfl⟩
    · exact absurd hneg hold
    cases row with
    | none => exact ⟨rfl,hup,httl rfl⟩
    | some row =>
      simp only [World.putKey, Function.update_self] at hneg
      cases hneg
  rw [resolveUncached] at h
  by_cases up : w.dbUp = true
  · have hfind : (findUnique tag).run World.handle w = some (w, .ok (w.identities.find tag)) :=
      (Prog.run_call (World.handle_findUnique up tag)).trans rfl
    rw [Prog.run_bind_ok hfind] at h
    cases hrow : w.identities.find tag with
    | some row =>
      rw [hrow, sourceRow, Prog.pure_done, Prog.done_bind] at h
      obtain ⟨hnone,hup,httl⟩ := hends h
      refine ⟨up,hup,httl,.inl (.inl ⟨row,hrow,?_⟩)⟩
      intro hactive
      rw [if_pos hactive] at hnone
      cases hnone
    | none =>
      rw [hrow] at h
      cases hpda : deriveTagPda dep.sol tag with
      | error e =>
        simp only [sourceRow, SolanaChainFallback.lookup, hpda, Prog.fail_bind] at h
        cases h
        exact absurd hneg hold
      | ok found =>
        obtain ⟨pda,bump⟩ := found
        obtain ⟨account,haccount⟩ : ∃ account,
            w.handle (.getAccountInfo pda) = some (w, account) := by
          by_cases hrpc : w.rpcUp = true
          · exact ⟨_,if_pos hrpc⟩
          · exact ⟨_,if_neg hrpc⟩
        obtain ⟨ttl,_,hsource⟩ := sourceRow_run hpda haccount none
        rw [Prog.run_bind_ok hsource] at h
        obtain ⟨hnone,hup,httl⟩ := hends h
        refine ⟨up,hup,httl,?_⟩
        by_cases hrpc : w.rpcUp = true
        · have hanswer : w.handle (.getAccountInfo pda) = some (w, .ok (w.accountInfo pda)) :=
            if_pos hrpc
          cases haccount.symm.trans hanswer
          have hfrom : fromAccount dep (.ok (w.accountInfo pda)) = none := by
            cases hf : fromAccount dep (.ok (w.accountInfo pda)) with
            | none => rfl
            | some row =>
              rw [hf] at hnone
              simp [Option.filter, fromAccount_active hf] at hnone
          exact .inl (.inr ⟨hrow,pda,bump,hpda,hrpc,(fromAccount_none_iff _).mp hfrom⟩)
        · exact .inr ⟨rfl,⟨pda,bump,rfl⟩,by simpa using hrpc⟩
  · have hfind : (findUnique tag).run World.handle w = some (w, .error (.database .unavailable)) := by
      have hs : w.handle (.findUniqueIdentity tag) = _ := if_neg up
      exact (Prog.run_call hs).trans rfl
    rw [Prog.run_bind, hfind] at h
    cases h
    exact absurd hneg hold

theorem miss_stores {server : Nat} {result : Except Thrown ResolveResponse}
    (h : (missed dep server tag).run World.handle w = some (w', result))
    (hneg : w'.redis (resolveKey dep tag) = some .negative)
    (hold : w.redis (resolveKey dep tag) ≠ some .negative) :
    w.inFlight server (resolveKey dep tag) = none ∧ ∃ inFlight nextFlight w1 result,
      (resolveUncached dep tag (resolveKey dep tag)).run World.handle
        { w with inFlight, nextFlight } = some (w1, result) ∧
      w1.redis (resolveKey dep tag) = some .negative := by
  cases hflight : w.inFlight server (resolveKey dep tag) with
  | some flight =>
    have henter : w.handle (.enterFlight server (resolveKey dep tag)) =
        some (w, .joins flight) := by simp [World.handle, hflight]
    rw [missed, enterFlight, Prog.request_bind, Prog.run_call henter] at h
    cases hsettled : w.settled flight with
    | none =>
      have hawait : w.handle (.awaitFlight flight) = none := by simp [World.handle, hsettled]
      simp only [awaitFlight, Prog.request_bind, Prog.run, hawait] at h
      cases h
    | some shared =>
      have hawait : w.handle (.awaitFlight flight) = some (w, shared) := by
        simp [World.handle, hsettled]
      simp only [awaitFlight, Prog.request_bind, Prog.run_call hawait] at h
      cases shared with
      | ok a =>
        cases h
        exact absurd hneg hold
      | error e =>
        cases h
        exact absurd hneg hold
  | none =>
    have henter : ∃ w1, w.handle (.enterFlight server (resolveKey dep tag)) =
        some (w1, .leads w.nextFlight) ∧ ∃ inFlight nextFlight,
          w1 = { w with inFlight, nextFlight } := by
      simp [World.handle, hflight]
    obtain ⟨w1,henter,inFlight,nextFlight,rfl⟩ := henter
    rw [missed, enterFlight, Prog.request_bind, Prog.run_call henter] at h
    simp only [Prog.run_bind, settle_run] at h
    cases hlook : (resolveUncached dep tag (resolveKey dep tag)).run World.handle
        { w with inFlight, nextFlight } with
    | none =>
      rw [hlook] at h
      cases h
    | some ended =>
      obtain ⟨w2,looked⟩ := ended
      rw [hlook] at h
      refine ⟨rfl,inFlight,nextFlight,w2,looked,hlook,?_⟩
      cases looked with
      | ok a =>
        cases h
        exact hneg
      | error e =>
        cases h
        exact hneg

/-- The lookup of a call that leaves a not-found. -/
theorem resolve_stores {server : Nat} {tag : NormalizedTag} {result : Except Thrown ResolveResponse}
    (h : (resolve dep server tag).run World.handle w = some (w', result))
    (hneg : w'.redis (resolveKey dep tag) = some .negative)
    (hold : w.redis (resolveKey dep tag) ≠ some .negative) :
    (w.redisUp = true → w.redis (resolveKey dep tag) = none) ∧
    w.inFlight server (resolveKey dep tag) = none ∧ ∃ inFlight nextFlight w1 result,
      (resolveUncached dep tag (resolveKey dep tag)).run World.handle
        { w with inFlight, nextFlight } = some (w1, result) ∧
      w1.redis (resolveKey dep tag) = some .negative := by
  rw [resolve_eq] at h
  by_cases up : w.redisUp = true
  · have hreply : w.handle (.redisGet (resolveKey dep tag)) =
        some (w, .ok (w.redis (resolveKey dep tag))) := if_pos up
    replace h := (Prog.run_call hreply).symm.trans h
    cases hv : w.redis (resolveKey dep tag) with
    | none =>
      rw [hv] at h
      exact ⟨fun _ => rfl,miss_stores h hneg hold⟩
    | some v =>
      rw [hv] at h
      cases v with
      | negative => exact absurd hv hold
      | response cached =>
        cases h
        exact absurd hneg hold
  · have hreply : w.handle (.redisGet (resolveKey dep tag)) = some (w, .error ()) := if_neg up
    replace h := (Prog.run_call hreply).symm.trans h
    exact ⟨fun hup => absurd hup up,miss_stores h hneg hold⟩

/-- A lookup without an answer stores a not-found. -/
theorem uncached_unanswered (up : w.dbUp = true) (hredis : w.redisUp = true)
    (httl : 0 < dep.resolveCacheNegativeTtlSeconds) (hrow : w.identities.find tag = none)
    {pda : JsString} {bump : UInt8} (hpda : deriveTagPda dep.sol tag = .ok (pda, bump))
    (hrpc : w.rpcUp = false) :
    (resolveUncached dep tag (resolveKey dep tag)).run World.handle w =
      some (w.putKey (resolveKey dep tag) (some .negative), .error (notFound tag)) := by
  have hfind : (findUnique tag).run World.handle w = some (w, .ok none) := by
    rw [← hrow]
    exact (Prog.run_call (World.handle_findUnique up tag)).trans rfl
  have haccount : w.handle (.getAccountInfo pda) = some (w, .error ()) :=
    if_neg (by simp [hrpc])
  have hsource : (sourceRow dep tag none).run World.handle w = some (w, .ok (none, none)) := by
    simp only [sourceRow, SolanaChainFallback.lookup, hpda]
    exact (Prog.run_call haccount).trans rfl
  have hset : w.handle (.redisSet (resolveKey dep tag) .negative
      dep.resolveCacheNegativeTtlSeconds) = _ := if_pos ⟨hredis,httl⟩
  rw [resolveUncached, Prog.run_bind_ok hfind, Prog.run_bind_ok hsource, answerFrom, set_built]
  exact (Prog.run_call hset).trans rfl

theorem resolve_unanswered {server : Nat} {tag : NormalizedTag}
    (h : Unanswered dep server tag w) : ∃ w',
      (resolve dep server tag).run World.handle w = some (w', .error (notFound tag)) ∧
      w'.redis (resolveKey dep tag) = some .negative := by
  obtain ⟨pda,bump,hpda⟩ := h.derived
  have hreply : w.handle (.redisGet (resolveKey dep tag)) = some (w, .ok none) := by
    rw [← h.missed]
    exact if_pos h.redis
  obtain ⟨inFlight,nextFlight,henter⟩ : ∃ inFlight nextFlight,
      w.handle (.enterFlight server (resolveKey dep tag)) =
        some ({ w with inFlight, nextFlight }, .leads w.nextFlight) := by
    simp [World.handle, h.alone]
  have hrun : (resolve dep server tag).run World.handle w = (do
      let result ← settle (resolveUncached dep tag (resolveKey dep tag))
      leaveFlight server (resolveKey dep tag) w.nextFlight result
      settled result : Async ResolveResponse).run World.handle { w with inFlight, nextFlight } := by
    rw [resolve_eq]
    exact (Prog.run_call hreply).trans (Prog.run_call henter)
  have hlook := settle_run (resolveUncached dep tag (resolveKey dep tag))
    { w with inFlight, nextFlight }
  rw [uncached_unanswered (w := { w with inFlight, nextFlight }) h.database h.redis h.ttl
    h.unmirrored hpda h.down] at hlook
  rw [hrun, Prog.run_bind_ok hlook]
  refine ⟨_,rfl,?_⟩
  simp [World.putKey]

/-- Alone, a call stores a not-found that nothing has denied exactly when the RPC node is down
for it. -/
theorem alone_iff {server : Nat} {tag : NormalizedTag} :
    (∀ w' result, (resolve dep server tag).run World.handle w = some (w', result) →
      w'.redis (resolveKey dep tag) = some .negative →
      w.redis (resolveKey dep tag) = some .negative ∨ Denied dep tag w) ↔
    ¬ Unanswered dep server tag w := by
  constructor
  · intro hreal hun
    obtain ⟨w',hrun,hneg⟩ := resolve_unanswered hun
    rcases hreal w' _ hrun hneg with hold | ⟨row,hrow,_⟩ | ⟨_,_,_,_,hrpc,_⟩
    · rw [hun.missed] at hold
      cases hold
    · rw [hun.unmirrored] at hrow
      cases hrow
    · rw [hun.down] at hrpc
      cases hrpc
  · intro hun w' result hrun hneg
    by_cases hold : w.redis (resolveKey dep tag) = some .negative
    · exact .inl hold
    obtain ⟨hmissed,halone,inFlight,nextFlight,w1,result1,hlook,hneg1⟩ :=
      resolve_stores hrun hneg hold
    obtain ⟨hdb,hredis,httl,hwhy⟩ := uncached_stores hlook hneg1 hold
    rcases hwhy with hdenied | ⟨hrow,hpda,hrpc⟩
    · exact .inr hdenied
    · exact absurd ⟨hredis,httl,hmissed hredis,halone,hdb,hrow,hpda,hrpc⟩ hun

end Alone

/-- What the lookup has read denies the tag: a row that is not active, or no row and an answer
of the RPC node without an account. -/
def Answered (dep : Deployment) (tag : JsString) (es : List MirrorEntry) : Prop :=
  ∃ read ∈ es, ∃ row, finds tag read.command read.reply = some row ∧
    ((∃ identity, row = some identity ∧ identity.status ≠ .active) ∨
      row = none ∧ ∃ e ∈ es, ∃ data, hears dep tag e.command e.reply = some (.ok data) ∧
        ¬ Valid dep data)

/-- Registered on-chain, and missing from the mirror. -/
def Orphan (dep : Deployment) (tag : JsString) (w : World) : Prop :=
  w.identities.find tag = none ∧
    ∃ pda bump, deriveTagPda dep.sol tag = .ok (pda, bump) ∧ Valid dep (w.accountInfo pda)

structure RealNegatives (dep : Deployment) (tag : JsString) (pool : MirrorPool) : Prop where
  /-- A not-found is stored by a lookup that had a real answer. -/
  stored : ∀ before put after ttl, pool.trace = before ++ put :: after →
    put.command = .redisSet (resolveKey dep tag) .negative ttl →
    Answered dep tag (own before put.who)
  /-- And none is cached that no lookup has stored. -/
  cached : pool.shared.redis (resolveKey dep tag) = some .negative →
    ∃ put ∈ pool.trace, ∃ ttl, put.command = .redisSet (resolveKey dep tag) .negative ttl
  /-- A tag that was registered and missing all along is not answered from one. -/
  served : ∀ before hit after, pool.trace = before ++ hit :: after →
    (∀ e ∈ before, Orphan dep tag e.found) →
    hits hit.command hit.reply ≠ some (resolveKey dep tag, .negative)

/-- The RPC node answers whoever asks for the account of the tag. -/
def Reaches (dep : Deployment) (tag : JsString) (pool : MirrorPool) : InstanceEvent → Prop
  | .turn who => ∀ call pda bump c k, pool.threads[who]? = some ⟨call, .call c k⟩ →
    deriveTagPda dep.sol tag = .ok (pda, bump) → c = .getAccountInfo pda → pool.shared.rpcUp = true
  | _ => True

/-- The record, and the store behind every key. -/
structure Kept (dep : Deployment) (pool : MirrorPool) : Prop where
  recorded : Recorded World.handle (MirrorCall.body dep) pool
  cached : ∀ key v, pool.shared.redis key = some v →
    ∃ put ∈ pool.trace, ∃ ttl, put.command = .redisSet key v ttl

section Among
variable {dep : Deployment} {tag : JsString} {pool : MirrorPool}

/-- Whether Redis answers or not, a key holds what was stored. -/
theorem handle_key {w w' : World} {c : Command} {r : Reply c} {key : JsString} {v : CacheValue}
    (h : w.handle c = some (w', r)) (hv : w'.redis key = some v) :
    (∃ ttl, c = .redisSet key v ttl) ∨ w.redis key = some v := by
  rcases MirrorRecord.handle_does_or h with hd | ⟨_,rfl,_⟩
  · rcases hd.key_kept hv with hset | ⟨hold,_⟩
    · exact .inl hset
    · exact .inr hold
  · exact .inr hv

theorem kept_step (pool : MirrorPool) (event : InstanceEvent) (h : Kept dep pool) :
    Kept dep (InstancePool.step dep pool event) := by
  refine ⟨step_recorded pool event h.recorded,fun key v hv => ?_⟩
  obtain ⟨tail,htail⟩ : ∃ tail, (InstancePool.step dep pool event).trace = pool.trace ++ tail :=
    step_trace pool event
  have hold : pool.shared.redis key = some v → ∃ put ∈ (InstancePool.step dep pool event).trace,
      ∃ ttl, put.command = .redisSet key v ttl := by
    intro hkey
    obtain ⟨put,hput,hset⟩ := h.cached key v hkey
    exact ⟨put,by rw [htail]; exact List.mem_append_left _ hput,hset⟩
  cases event with
  | spawn call => exact hold hv
  | outside what => exact hold (what.keys _ key v hv)
  | turn who =>
    rcases Pool.turn_cases World.handle pool who with he | ⟨call,c,k,w,r,_,hh,he⟩
    · simp only [InstancePool.step, Pool.step, he] at hv
      exact hold hv
    · simp only [InstancePool.step, Pool.step, he] at hv ⊢
      rcases handle_key hh hv with hset | hkey
      · exact ⟨_,List.mem_append_right _ (List.mem_singleton_self _),hset⟩
      · obtain ⟨put,hput,hset⟩ := h.cached key v hkey
        exact ⟨put,List.mem_append_left _ hput,hset⟩

variable (hk : Kept dep pool) (hm : Moments (Kept dep) (Reaches dep tag) pool)
include hk hm

/-- Whoever has asked for the account was answered. -/
theorem heard_ok {e : MirrorEntry} (he : e ∈ pool.trace)
    {account : Except Unit (Option (List UInt8))}
    (hh : hears dep tag e.command e.reply = some account) :
    ∃ pda bump, deriveTagPda dep.sol tag = .ok (pda, bump) ∧
      account = .ok (e.found.accountInfo pda) := by
  obtain ⟨before,after,hs⟩ := List.append_of_mem he
  obtain ⟨past,call,k,_,hmeets,_,hfound,hthread,_⟩ := hm before e after hs
  obtain ⟨w,hanswer⟩ := hk.recorded.answered e he
  obtain ⟨who,found,c,r⟩ := e
  cases c with
  | getAccountInfo address =>
    cases hp : deriveTagPda dep.sol tag with
    | error err => simp [hears, hp] at hh
    | ok derived =>
      obtain ⟨pda,bump⟩ := derived
      simp only [hears, hp, Option.ite_none_right_eq_some, Option.some.injEq] at hh
      obtain ⟨rfl,rfl⟩ := hh
      have hup : found.rpcUp = true :=
        (congrArg World.rpcUp hfound).symm.trans (hmeets call address bump _ k hthread hp rfl)
      have hasked : found.handle (.getAccountInfo address) =
          some (found, .ok (found.accountInfo address)) := if_pos hup
      cases hasked.symm.trans hanswer
      exact ⟨address,bump,rfl,rfl⟩
  | _ => cases hh

/-- What a lookup saw when it stored a not-found was an answer. -/
theorem stored_answered {before after : List MirrorEntry} {put : MirrorEntry} {ttl : Nat}
    (hs : pool.trace = before ++ put :: after)
    (hput : put.command = .redisSet (resolveKey dep tag) .negative ttl) :
    Answered dep tag (own before put.who) := by
  obtain ⟨past,call,k,hp,_,rfl,_,hthread,_⟩ := hm before put after hs
  obtain ⟨server,t,_,hkey,_,read,hread,row,hf,account,hv,hheard⟩ :=
    MirrorLedger.stands_set (hp.recorded.follows _ _ hthread) hput
  cases buildResolveCacheKey_inj hkey
  refine ⟨read,hread,row,hf,?_⟩
  cases row with
  | some identity =>
    refine .inl ⟨identity,rfl,fun hactive => ?_⟩
    simp [lookupValue, Option.filter, hactive, valueFrom] at hv
  | none =>
    obtain ⟨e,he,heard⟩ := hheard rfl
    have hmem : e ∈ pool.trace := by
      rw [hs]
      exact List.mem_append_left _ (mem_own.mp he).1
    obtain ⟨pda,bump,_,rfl⟩ := heard_ok hk hm hmem heard
    refine .inr ⟨rfl,e,he,_,heard,(fromAccount_none_iff _).mp ?_⟩
    cases hfrom : fromAccount dep (.ok (e.found.accountInfo pda)) with
    | none => rfl
    | some row => simp [lookupValue, hfrom, Option.filter, fromAccount_active hfrom, valueFrom] at hv

/-- An answer that denies the tag was read when the tag was no orphan. -/
theorem answered_not_orphan {es : List MirrorEntry} (hsub : es ⊆ pool.trace)
    (h : Answered dep tag es) : ∃ e ∈ es, ¬ Orphan dep tag e.found := by
  obtain ⟨read,hread,row,hf,hwhy⟩ := h
  obtain ⟨w,hanswer⟩ := hk.recorded.answered read (hsub hread)
  rcases hwhy with ⟨identity,rfl,_⟩ | ⟨rfl,e,he,data,heard,hvalid⟩
  · refine ⟨read,hread,fun horphan => ?_⟩
    cases (Freshness.finds_answer hanswer hf).symm.trans horphan.1
  · obtain ⟨pda,bump,hp,hdata⟩ := heard_ok hk hm (hsub he) heard
    cases hdata
    refine ⟨e,he,fun ⟨_,pda',bump',hp',hvalid'⟩ => ?_⟩
    cases hp.symm.trans hp'
    exact hvalid hvalid'

theorem real_negatives : RealNegatives dep tag pool := by
  refine ⟨fun before put after ttl hs hput => stored_answered hk hm hs hput,
    fun hv => hk.cached _ _ hv,fun before hit after hs horphans hhit => ?_⟩
  have hmem : hit ∈ pool.trace := by simp [hs]
  obtain ⟨w,hanswer⟩ := hk.recorded.answered hit hmem
  obtain ⟨past,_,_,hp,_,htrace,hfound,_⟩ := hm before hit after hs
  have hredis : past.shared.redis (resolveKey dep tag) = some .negative := by
    rw [hfound]
    exact Freshness.hits_answer hanswer hhit
  obtain ⟨put,hput,ttl,hset⟩ := hp.cached _ _ hredis
  rw [htrace] at hput
  obtain ⟨a,b,rfl⟩ := List.append_of_mem hput
  have hsput : pool.trace = a ++ put :: (b ++ hit :: after) := by simp [hs]
  have hown : own a put.who ⊆ a := fun _ he => (mem_own.mp he).1
  have hsub : own a put.who ⊆ pool.trace := by
    intro e he
    rw [hsput]
    exact List.mem_append_left _ (hown he)
  obtain ⟨e,he,hnot⟩ := answered_not_orphan hk hm hsub (stored_answered hk hm hsput hset)
  exact hnot (horphans e (List.mem_append_left _ (hown he)))

end Among

/-- `abc` stands on-chain, and the RPC node is up or down. -/
def abcOnChain (rpcUp : Bool) : Beside where
  act w := { w with accountInfo := (ChainReaders.answering Program.abcAccount).accountInfo, rpcUp }
  keys _ _ _ h := h
  inFlight _ := rfl
  nextFlight _ := rfl
  settled _ := rfl

def askAbc (who turns : Nat) : List InstanceEvent :=
  .spawn (.resolve 0 .abc) :: List.replicate turns (.turn who)

/-- One call while the node is down, and one when it is up again. -/
def outage : List InstanceEvent :=
  .outside (abcOnChain false) :: askAbc 0 6 ++ .outside (abcOnChain true) :: askAbc 1 1

def outageAbc : MirrorPool := InstancePool.after .sample outage

theorem abc_valid : Valid .sample (some Program.abcAccount.serialize) := by
  have hs : Program.StoresTag Program.abcAccount Program.abcTag := by
    exact ⟨⟨by decide,by decide,List.all_eq_true.mp (by decide)⟩,rfl,rfl⟩
  obtain ⟨decoded,hd,_⟩ := Codec.decode_of_serialize Deployment.sample.sol hs
  exact ⟨_,decoded,rfl,hd⟩

theorem abc_orphan {w : World} (hrow : w.identities.find (js "abc") = none)
    (haccount : w.accountInfo ChainReaders.abcPda = some Program.abcAccount.serialize) :
    Orphan .sample (js "abc") w :=
  ⟨hrow,ChainReaders.abcPda,255,ChainReaders.abc_derived,by rw [haccount]; exact abc_valid⟩

/-- `abc` is on-chain and missing from the mirror all along. After the outage it is answered
not found from the cache. -/
theorem orphan_not_found :
    outageAbc.shared.rpcUp = true ∧ (∀ e ∈ outageAbc.trace, Orphan .sample (js "abc") e.found) ∧
    outageAbc.result 1 = some (.error (notFound (js "abc"))) ∧
    ¬ RealNegatives .sample (js "abc") outageAbc := by
  have horphans : ∀ e ∈ outageAbc.trace, Orphan .sample (js "abc") e.found := by
    intro e he
    have hall : outageAbc.trace.all (fun e => e.found.identities.find (js "abc") = none ∧
        e.found.accountInfo ChainReaders.abcPda = some Program.abcAccount.serialize) = true := by
      decide
    have h := of_decide_eq_true (List.all_eq_true.mp hall e he)
    exact abc_orphan h.1 h.2
  refine ⟨by decide,horphans,by decide,fun h => ?_⟩
  have hlast : outageAbc.trace[6]?.bind (fun e => hits e.command e.reply) =
      some (resolveKey .sample (js "abc"), .negative) := by decide
  obtain ⟨hit,hget,hhit⟩ := Option.bind_eq_some_iff.mp hlast
  obtain ⟨hlt,rfl⟩ := List.getElem?_eq_some_iff.mp hget
  have hs : outageAbc.trace = outageAbc.trace.take 6 ++
      outageAbc.trace[6] :: outageAbc.trace.drop 7 := by
    rw [← List.drop_eq_getElem_cons hlt, List.take_append_drop]
  exact h.served _ _ _ hs (fun e he => horphans e (List.mem_of_mem_take he)) hhit

/-- A call alone stores only real answers unless the RPC node is down for it, and so do any
calls, among any others, for which the node is never down. -/
theorem negatives_real_iff (dep : Deployment) :
    (∀ (server : Nat) (tag : NormalizedTag) (w : World),
      (∀ w' result, (resolve dep server tag).run World.handle w = some (w', result) →
        w'.redis (resolveKey dep tag) = some .negative →
        w.redis (resolveKey dep tag) = some .negative ∨ Denied dep tag w) ↔
      ¬ Unanswered dep server tag w) ∧
    ∀ (tag : NormalizedTag) (events : List InstanceEvent),
      Along (InstancePool.step dep) (Reaches dep tag) InstancePool.start events →
      RealNegatives dep tag (InstancePool.after dep events) := by
  refine ⟨fun server tag w => alone_iff,fun tag events halong => ?_⟩
  have hstart : Kept dep InstancePool.start := ⟨init_recorded _,fun key v hv => (by cases hv)⟩
  obtain ⟨hk,hm⟩ := run_moments hstart kept_step halong
  exact real_negatives hk hm

/-- The same calls with the node up. -/
def noOutage : List InstanceEvent :=
  .outside (abcOnChain true) :: askAbc 0 6 ++ askAbc 1 1

theorem reaches_of_up {dep : Deployment} {tag : JsString} {pool : MirrorPool}
    (h : pool.shared.rpcUp = true) (event : InstanceEvent) : Reaches dep tag pool event := by
  cases event with
  | turn who => exact fun _ _ _ _ _ _ _ _ => h
  | spawn | outside => trivial

theorem noOutage_along : Along (InstancePool.step .sample) (Reaches .sample (js "abc"))
    InstancePool.start noOutage := by
  refine ⟨trivial,trivial,?_,?_,?_,?_,?_,?_,trivial,?_,trivial⟩
  all_goals exact reaches_of_up (by decide) _

theorem abc_resolved :
    ((InstancePool.after .sample noOutage).result 1).isSome = true ∧
    RealNegatives .sample (js "abc") (InstancePool.after .sample noOutage) ∧
    ¬ Unanswered .sample 0 (js "abc") World.fresh :=
  ⟨by decide,(negatives_real_iff .sample).2 .abc noOutage noOutage_along,
    fun h => by cases h.down⟩

end Tagwise.Proofs.NegativeCache
