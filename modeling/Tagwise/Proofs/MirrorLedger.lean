import Tagwise.Proofs.WriterPath

/-! What the services of a mirror pool hold, against the record of how it came there. -/

namespace Tagwise.Proofs.MirrorLedger
open Js Tagwise.Core Services Api Lib
open MirrorRecord
open LookupPath
open WriterPath (Writing Resolving)

variable {dep : Deployment}

theorem body_path {server : Nat} {tag : NormalizedTag} {es : List MirrorEntry}
    {q : Async MirrorResult} (h : Follows (MirrorCall.body dep (.resolve server tag)) es q) :
    ∃ q', Path dep server tag es q' ∧ q = q' >>= fun response => return .resolved response := by
  rcases Follows.bind_inv h with ⟨q',hq',_,rfl⟩ | ⟨front,back,response,rfl,hfront,hback⟩
  · exact ⟨q',resolve_follows hq',rfl⟩
  · obtain ⟨rfl,rfl⟩ := Follows.done_inv hback
    rw [List.append_nil]
    exact ⟨_,resolve_follows hfront,rfl⟩

theorem call_of_bind {α β : Type} {q : Async α} {f : α → β} {c : Command}
    {k : Reply c → Async β} (h : .call c k = q >>= fun a => return f a) :
    ∃ k', q = .call c k' := by
  cases q with
  | done a => cases h
  | fail e => cases h
  | call c' k' =>
    cases h
    exact ⟨k',rfl⟩

theorem writer_writing {call : MirrorCall} (h : ∀ server tag, call ≠ .resolve server tag) :
    (MirrorCall.body dep call).Always Writing := by
  cases call with
  | resolve server tag => exact absurd rfl (h server tag)
  | applyChange change =>
    exact Prog.always_bind (WriterPath.applyChange_writing dep change) (fun _ => trivial)
  | updateIdentity params =>
    exact Prog.always_bind (WriterPath.updateIdentity_writing dep params) (fun _ => trivial)
  | backfillModerationGate =>
    exact Prog.always_bind (WriterPath.backfill_writing dep) (fun _ => trivial)

theorem resolve_body (server : Nat) (tag : NormalizedTag) :
    (MirrorCall.body dep (.resolve server tag)).Always Resolving :=
  Prog.always_bind (WriterPath.resolve_resolving dep server tag) (fun _ => trivial)

theorem body_keeps (call : MirrorCall) :
    (MirrorCall.body dep call).Always (fun c => unblocks c = false) := by
  by_cases h : ∃ server tag, call = .resolve server tag
  · obtain ⟨server,tag,rfl⟩ := h
    exact Prog.always_mono (fun c hc => hc.2) (resolve_body server tag)
  · exact Prog.always_mono (fun c hc => hc.2)
      (writer_writing fun server tag he => h ⟨server,tag,he⟩)

theorem body_pays (call : MirrorCall) :
    WriterPath.Invalidating dep none (MirrorCall.body dep call) := by
  cases call with
  | resolve server tag =>
    exact Prog.pays_of_always (Prog.always_mono (fun c hc => hc.1) (resolve_body server tag))
  | applyChange change => exact Prog.pays_bind (WriterPath.applyChange_pays change) (fun _ => rfl)
  | updateIdentity params =>
    exact Prog.pays_bind (WriterPath.updateIdentity_pays params) (fun _ => rfl)
  | backfillModerationGate => exact Prog.pays_bind WriterPath.backfill_pays (fun _ => rfl)

section Standing
variable {call : MirrorCall} {es : List MirrorEntry}

/-- Only a resolve call opens, caches or leaves; it stands there as its path says. -/
theorem resolving_stands {c : Command} {k : Reply c → Async MirrorResult}
    (h : Follows (MirrorCall.body dep call) es (.call c k)) (hc : ¬ WriterPath.Plain c) :
    ∃ server tag k', call = .resolve server tag ∧ Path dep server tag es (.call c k') := by
  by_cases hr : ∃ server tag, call = .resolve server tag
  · obtain ⟨server,tag,rfl⟩ := hr
    obtain ⟨q',hpath,hq⟩ := body_path h
    obtain ⟨k',rfl⟩ := call_of_bind hq
    exact ⟨server,tag,k',rfl,hpath⟩
  · exact absurd (h.stands (writer_writing fun server tag he => hr ⟨server,tag,he⟩)).1 hc

theorem stands_set {c : Command} {k : Reply c → Async MirrorResult} {key : JsString}
    {v : CacheValue} {ttl : Nat} (h : Follows (MirrorCall.body dep call) es (.call c k))
    (hc : c = .redisSet key v ttl) :
    ∃ server tag, call = .resolve server tag ∧ key = resolveKey dep tag ∧ Inside es ∧
      Saw dep es tag v := by
  subst hc
  obtain ⟨server,tag,k',hcall,hpath⟩ := resolving_stands h (fun hp => hp.1 key v ttl rfl)
  exact ⟨server,tag,hcall,hpath.sets key v ttl k' rfl⟩

theorem stands_enter {server : Nat} {key : JsString}
    {k : Reply (.enterFlight server key) → Async MirrorResult}
    (h : Follows (MirrorCall.body dep call) es (.call (.enterFlight server key) k)) :
    Grounded es := by
  obtain ⟨s,tag,k',hcall,hpath⟩ := resolving_stands h (fun hp => hp.2.1 server key rfl)
  exact hpath.enters server key k' rfl

theorem stands_leave {c : Command} {k : Reply c → Async MirrorResult} {server : Nat}
    {key : JsString} {f : Nat} {result : Except Thrown ResolveResponse}
    (h : Follows (MirrorCall.body dep call) es (.call c k))
    (hc : c = .leaveFlight server key f result) :
    ∃ tag, call = .resolve server tag ∧ key = resolveKey dep tag ∧ Inside es ∧
      (∃ e ∈ es, leads e.command e.reply = some (server, key, f)) ∧
      (∀ v, valueOf result = some v → Saw dep es tag v) ∧
      ∀ e ∈ es, ∀ s key' f', leads e.command e.reply = some (s, key', f') →
        s = server ∧ key' = key := by
  subst hc
  obtain ⟨s,tag,k',hcall,hpath⟩ := resolving_stands h (fun hp => by cases hp.2.2)
  obtain ⟨rfl,rfl,hin,hopen,hsaw⟩ := hpath.leaves server key f result k' rfl
  exact ⟨tag,hcall,rfl,hin,hopen,hsaw,hpath.opens⟩

end Standing

/-- The lookups in flight and those that have settled. -/
structure Flights (dep : Deployment) (pool : MirrorPool) : Prop where
  recorded : Recorded World.handle (MirrorCall.body dep) pool
  flying : ∀ server key f, pool.shared.inFlight server key = some f → ∃ enter ∈ pool.trace,
    leads enter.command enter.reply = some (server, key, f) ∧
    ∀ e ∈ pool.trace, e.who = enter.who → isLeave e.command = false
  settled : ∀ f result, pool.shared.settled f = some result → ∃ leave ∈ pool.trace,
    ∃ server key, leave.command = .leaveFlight server key f result
  counted : ∀ e ∈ pool.trace, ∀ server key f, leads e.command e.reply = some (server, key, f) →
    f < pool.shared.nextFlight
  numbered : ∀ e ∈ pool.trace, ∀ e' ∈ pool.trace, ∀ server key server' key' f,
    leads e.command e.reply = some (server, key, f) →
    leads e'.command e'.reply = some (server', key', f) → e = e'

section FlightTurn
variable {pool : MirrorPool} {who : Nat} {call : MirrorCall} {c : Command}
variable {k : Reply c → Async MirrorResult} {w : World} {r : Reply c}
variable (h : Flights dep pool) (ht : pool.threads[who]? = some ⟨call, .call c k⟩)
variable (hh : pool.shared.handle c = some (w, r))
include h hh

theorem settled_turn {f : Nat} {result : Except Thrown ResolveResponse}
    (hv : w.settled f = some result) : ∃ leave ∈ pool.trace ++ [⟨who, pool.shared, c, r⟩],
      ∃ server key, leave.command = .leaveFlight server key f result := by
  rcases handle_settled_kept hh hv with ⟨server,key,hc⟩ | hold
  · exact ⟨_,List.mem_append_right _ (List.mem_singleton_self _),server,key,hc⟩
  · obtain ⟨leave,hleave,hc⟩ := h.settled f result hold
    exact ⟨leave,List.mem_append_left _ hleave,hc⟩

theorem counted_turn {e : MirrorEntry} (he : e ∈ pool.trace ++ [⟨who, pool.shared, c, r⟩])
    {server : Nat} {key : JsString} {f : Nat}
    (hl : leads e.command e.reply = some (server, key, f)) : f < w.nextFlight := by
  rcases handle_counted hh with ⟨hnext,_,_,hnew⟩ | ⟨hnext,hnone⟩
  · rcases List.mem_append.mp he with he | he
    · have := h.counted e he server key f hl
      omega
    · rw [List.mem_singleton.mp he] at hl
      cases hnew.symm.trans hl
      omega
  · rcases List.mem_append.mp he with he | he
    · rw [hnext]
      exact h.counted e he server key f hl
    · rw [List.mem_singleton.mp he] at hl
      cases hnone.symm.trans hl

theorem numbered_turn {e e' : MirrorEntry} (he : e ∈ pool.trace ++ [⟨who, pool.shared, c, r⟩])
    (he' : e' ∈ pool.trace ++ [⟨who, pool.shared, c, r⟩]) {server server' : Nat}
    {key key' : JsString} {f : Nat} (hl : leads e.command e.reply = some (server, key, f))
    (hl' : leads e'.command e'.reply = some (server', key', f)) : e = e' := by
  have hnew : ∀ s key, leads c r = some (s, key, f) → f = pool.shared.nextFlight := by
    intro s key hlead
    rcases handle_counted hh with ⟨_,_,_,hn⟩ | ⟨_,hn⟩
    · cases hn.symm.trans hlead
      rfl
    · cases hn.symm.trans hlead
  rcases List.mem_append.mp he with he | he
  · rcases List.mem_append.mp he' with he' | he'
    · exact h.numbered e he e' he' _ _ _ _ f hl hl'
    · rw [List.mem_singleton.mp he'] at hl'
      have hlt := h.counted e he _ _ f hl
      rw [hnew _ _ hl'] at hlt
      exact absurd hlt (Nat.lt_irrefl _)
  · rcases List.mem_append.mp he' with he' | he'
    · rw [List.mem_singleton.mp he] at hl
      have hlt := h.counted e' he' _ _ f hl'
      rw [hnew _ _ hl] at hlt
      exact absurd hlt (Nat.lt_irrefl _)
    · rw [List.mem_singleton.mp he, List.mem_singleton.mp he']

include ht

theorem flying_turn {server : Nat} {key : JsString} {f : Nat}
    (hv : w.inFlight server key = some f) :
    ∃ enter ∈ pool.trace ++ [⟨who, pool.shared, c, r⟩],
      leads enter.command enter.reply = some (server, key, f) ∧
      ∀ e ∈ pool.trace ++ [⟨who, pool.shared, c, r⟩], e.who = enter.who →
        isLeave e.command = false := by
  have hf := h.recorded.follows who _ ht
  rcases handle_flight_kept hh hv with hlead | ⟨hold,hc⟩
  · refine ⟨_,List.mem_append_right _ (List.mem_singleton_self _),hlead,fun e he hwho => ?_⟩
    cases c with
    | enterFlight s key' =>
      rcases List.mem_append.mp he with he | he
      · exact (stands_enter hf e (mem_own.mpr ⟨he,hwho⟩)).2
      · rw [List.mem_singleton.mp he]
        rfl
    | _ => cases hlead
  · obtain ⟨enter,henter,hlead,hin⟩ := h.flying server key f hold
    refine ⟨enter,List.mem_append_left _ henter,hlead,fun e he hwho => ?_⟩
    rcases List.mem_append.mp he with he | he
    · exact hin e he hwho
    · rw [List.mem_singleton.mp he] at hwho ⊢
      cases c with
      | leaveFlight s key' f' result =>
        obtain ⟨_,_,_,_,_,_,hopens⟩ := stands_leave hf rfl
        obtain ⟨rfl,rfl⟩ := hopens enter (mem_own.mpr ⟨henter,hwho.symm⟩) _ _ _ hlead
        exact absurd rfl (hc f' result)
      | _ => rfl

theorem flights_turn (hrec : Recorded World.handle (MirrorCall.body dep)
      ⟨w, pool.threads.set who ⟨call, k r⟩, pool.trace ++ [⟨who, pool.shared, c, r⟩]⟩) :
    Flights dep
      ⟨w, pool.threads.set who ⟨call, k r⟩, pool.trace ++ [⟨who, pool.shared, c, r⟩]⟩ where
  recorded := hrec
  flying := fun _ _ _ hv => flying_turn h ht hh hv
  settled := fun _ _ hv => settled_turn h hh hv
  counted := fun _ he _ _ _ hl => counted_turn h hh he hl
  numbered := fun _ he _ he' _ _ _ _ _ hl hl' => numbered_turn h hh he he' hl hl'

end FlightTurn

structure Ledger (dep : Deployment) (pool : MirrorPool) : Prop where
  recorded : Recorded World.handle (MirrorCall.body dep) pool
  up : pool.shared.redisUp = true
  rows : ∀ before e after tag, pool.trace = before ++ e :: after →
    (∀ e' ∈ e :: after, writes e'.command e'.reply ≠ some tag) →
    pool.shared.identities.find tag = e.found.identities.find tag
  cached : ∀ key v, pool.shared.redis key = some v → ∃ before put after ttl,
    pool.trace = before ++ put :: after ∧ put.command = .redisSet key v ttl ∧
    ∀ e ∈ after, e.command ≠ .redisDel key
  flying : ∀ server key f, pool.shared.inFlight server key = some f → ∃ enter ∈ pool.trace,
    leads enter.command enter.reply = some (server, key, f) ∧
    ∀ e ∈ pool.trace, e.who = enter.who → isLeave e.command = false
  settled : ∀ f result, pool.shared.settled f = some result → ∃ leave ∈ pool.trace,
    ∃ server key, leave.command = .leaveFlight server key f result
  counted : ∀ e ∈ pool.trace, ∀ server key f, leads e.command e.reply = some (server, key, f) →
    f < pool.shared.nextFlight
  numbered : ∀ e ∈ pool.trace, ∀ e' ∈ pool.trace, ∀ server key server' key' f,
    leads e.command e.reply = some (server, key, f) →
    leads e'.command e'.reply = some (server', key', f) → e = e'
  blocked : ∀ e ∈ pool.trace, ∀ tag, writes e.command e.reply = some tag →
    blocks e.command = true →
    ∃ row, pool.shared.identities.find tag = some row ∧ row.status = .blocked

theorem Ledger.flights {pool : MirrorPool} (h : Ledger dep pool) : Flights dep pool :=
  ⟨h.recorded,h.flying,h.settled,h.counted,h.numbered⟩

theorem ledger_start (identities : Identities) : Ledger dep (MirrorPool.start identities) where
  recorded := init_recorded _
  up := rfl
  rows := fun before e after tag h => absurd h (by simp [MirrorPool.start, Pool.init])
  cached := fun key v h => (by cases h)
  flying := fun server key f h => (by cases h)
  settled := fun f result h => (by cases h)
  counted := fun e he => (by cases he)
  numbered := fun e he => (by cases he)
  blocked := fun e he => (by cases he)

section Turn
variable {pool : MirrorPool} {who : Nat} {call : MirrorCall} {c : Command}
variable {k : Reply c → Async MirrorResult} {w : World} {r : Reply c}
variable (h : Ledger dep pool) (ht : pool.threads[who]? = some ⟨call, .call c k⟩)
variable (hd : Does pool.shared c r w)
include h hd

theorem rows_turn {before after : List MirrorEntry} {e : MirrorEntry} {tag : JsString}
    (hs : pool.trace ++ [⟨who, pool.shared, c, r⟩] = before ++ e :: after)
    (hn : ∀ e' ∈ e :: after, writes e'.command e'.reply ≠ some tag) :
    w.identities.find tag = e.found.identities.find tag := by
  rcases snoc_split hs with ⟨rest,hs',rfl⟩ | ⟨_,rfl,rfl⟩
  · rw [hd.row_kept (hn ⟨who, pool.shared, c, r⟩ (by simp))]
    refine h.rows before e rest tag hs' (fun e' he' => hn e' ?_)
    rw [← List.cons_append]
    exact List.mem_append_left _ he'
  · exact hd.row_kept (hn _ List.mem_cons_self)

theorem cached_turn {key : JsString} {v : CacheValue} (hv : w.redis key = some v) :
    ∃ before put after ttl, pool.trace ++ [⟨who, pool.shared, c, r⟩] = before ++ put :: after ∧
      put.command = .redisSet key v ttl ∧ ∀ e ∈ after, e.command ≠ .redisDel key := by
  rcases hd.key_kept hv with ⟨ttl,rfl⟩ | ⟨hold,hc⟩
  · exact ⟨pool.trace,_,[],ttl,rfl,rfl,fun e he => (by cases he)⟩
  · obtain ⟨before,put,after,ttl,hs,hput,hn⟩ := h.cached key v hold
    refine ⟨before,put,after ++ [⟨who, pool.shared, c, r⟩],ttl,by rw [hs]; simp,hput,fun e he => ?_⟩
    rcases List.mem_append.mp he with he | he
    · exact hn e he
    · rw [List.mem_singleton.mp he]
      exact hc

include ht

theorem blocked_turn {e : MirrorEntry} (he : e ∈ pool.trace ++ [⟨who, pool.shared, c, r⟩])
    {tag : JsString} (hw : writes e.command e.reply = some tag) (hb : blocks e.command = true) :
    ∃ row, w.identities.find tag = some row ∧ row.status = .blocked := by
  rcases List.mem_append.mp he with he | he
  · obtain ⟨row,hf,hrow⟩ := h.blocked e he tag hw hb
    exact hd.blocked_kept ((h.recorded.follows who _ ht).stands (body_keeps call)) hf hrow
  · rw [List.mem_singleton.mp he] at hw hb
    exact hd.blocked_set hw hb

end Turn

theorem ledger_step (pool : MirrorPool) (event : MirrorEvent) (h : Ledger dep pool) :
    Ledger dep (MirrorPool.step dep pool event) := by
  have hrec : Recorded World.handle (MirrorCall.body dep)
      (Pool.step World.handle (MirrorCall.body dep) MirrorWeather.act pool event) :=
    step_recorded pool event h.recorded
  rw [MirrorPool.step]
  cases event with
  | spawn call =>
    exact ⟨hrec,h.up,h.rows,h.cached,h.flying,h.settled,h.counted,h.numbered,h.blocked⟩
  | outside what =>
    cases what with
    | tick | database | rpc | chain =>
      exact ⟨hrec,h.up,h.rows,h.cached,h.flying,h.settled,h.counted,h.numbered,h.blocked⟩
  | turn who =>
    rw [Pool.step] at hrec ⊢
    rcases Pool.turn_cases World.handle pool who with he | ⟨call,c,k,w,r,ht,hh,he⟩
    · rw [he]
      exact h
    · have hd := handle_does h.up hh
      rw [he] at hrec ⊢
      have hf := flights_turn h.flights ht hh hrec
      exact ⟨hrec,hd.up.trans h.up,fun _ _ _ _ hs hn => rows_turn h hd hs hn,
        fun _ _ hv => cached_turn h hd hv,hf.flying,hf.settled,hf.counted,hf.numbered,
        fun _ he' _ hw hb => blocked_turn h ht hd he' hw hb⟩

end Tagwise.Proofs.MirrorLedger
