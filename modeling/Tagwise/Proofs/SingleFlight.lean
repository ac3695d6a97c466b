import Tagwise.Proofs.Freshness

namespace Tagwise.Proofs.SingleFlight
open Js Tagwise.Core Services Api Lib
open MirrorRecord
open LookupPath
open MirrorLedger (Flights)

/-- What a call behind a missed key has sent, and where it stands. It shares a flight of
another, or is the flight itself: one lookup between its entry in the map and its removal. -/
inductive Behind (dep : Deployment) (server : Nat) (tag : JsString) :
    List MirrorEntry → Async ResolveResponse → Prop
  | meets {k : Flight → Async ResolveResponse} :
      Behind dep server tag [] (.call (.enterFlight server (resolveKey dep tag)) k)
  | waits {enter : MirrorEntry} {flight : Nat}
      (joined : joins enter.command enter.reply = some (server, resolveKey dep tag, flight)) :
      Behind dep server tag [enter] (.call (.awaitFlight flight) settled)
  | shared {enter await : MirrorEntry} {flight : Nat} {result : Except Thrown ResolveResponse}
      {q : Async ResolveResponse}
      (joined : joins enter.command enter.reply = some (server, resolveKey dep tag, flight))
      (heard : awaits await.command await.reply = some (flight, result))
      (ended : outcome q = some result) : Behind dep server tag [enter, await] q
  | looks {enter : MirrorEntry} {flight : Nat} {lookup : List MirrorEntry} {c : Command}
      {k k' : Reply c → Async ResolveResponse}
      (led : leads enter.command enter.reply = some (server, resolveKey dep tag, flight))
      (looking : Follows (resolveUncached dep tag (resolveKey dep tag)) lookup (.call c k)) :
      Behind dep server tag (enter :: lookup) (.call c k')
  | leaves {enter : MirrorEntry} {flight : Nat} {lookup : List MirrorEntry}
      {q : Async ResolveResponse} {result : Except Thrown ResolveResponse}
      (led : leads enter.command enter.reply = some (server, resolveKey dep tag, flight))
      (looked : Follows (resolveUncached dep tag (resolveKey dep tag)) lookup q)
      (found : outcome q = some result) :
      Behind dep server tag (enter :: lookup)
        (.call (.leaveFlight server (resolveKey dep tag) flight result) (fun _ => settled result))
  | left {enter leave : MirrorEntry} {flight : Nat} {lookup : List MirrorEntry}
      {q q' : Async ResolveResponse} {result : Except Thrown ResolveResponse}
      (led : leads enter.command enter.reply = some (server, resolveKey dep tag, flight))
      (looked : Follows (resolveUncached dep tag (resolveKey dep tag)) lookup q)
      (found : outcome q = some result)
      (removed : leave.command = .leaveFlight server (resolveKey dep tag) flight result)
      (ended : outcome q' = some result) :
      Behind dep server tag (enter :: (lookup ++ [leave])) q'

/-- The whole of a resolve call: its cached answer, or what is behind a missed key. -/
inductive Course (dep : Deployment) (server : Nat) (tag : JsString) :
    List MirrorEntry → Async ResolveResponse → Prop
  | asks {k : Except Unit (Option CacheValue) → Async ResolveResponse} :
      Course dep server tag [] (.call (.redisGet (resolveKey dep tag)) k)
  | hit {get : MirrorEntry} {v : CacheValue} {q : Async ResolveResponse}
      {result : Except Thrown ResolveResponse}
      (hits : hits get.command get.reply = some (resolveKey dep tag, v))
      (ended : outcome q = some result) (cached : valueOf result = some v) :
      Course dep server tag [get] q
  | missed {get : MirrorEntry} {es : List MirrorEntry} {q : Async ResolveResponse}
      (asked : get.command = .redisGet (resolveKey dep tag)) (behind : Behind dep server tag es q) :
      Course dep server tag (get :: es) q

/-- Not one of the two commands of the map. -/
structure Apart (e : MirrorEntry) : Prop where
  lead : leads e.command e.reply = none
  join : joins e.command e.reply = none
  leave : isLeave e.command = false

section Stages
variable {dep : Deployment} {server : Nat} {tag : JsString} {es : List MirrorEntry}
variable {q : Async ResolveResponse} {e : MirrorEntry}

theorem Apart.asked {key : JsString} (h : e.command = .redisGet key) : Apart e := by
  obtain ⟨who,found,c,r⟩ := e
  subst h
  exact ⟨rfl,rfl,rfl⟩

theorem Apart.hit {found : JsString × CacheValue} (h : hits e.command e.reply = some found) :
    Apart e := by
  obtain ⟨who,_,c,r⟩ := e
  cases c with
  | redisGet key => exact ⟨rfl,rfl,rfl⟩
  | _ => cases h

theorem Apart.awaited {flight : Nat} {result : Except Thrown ResolveResponse}
    (h : awaits e.command e.reply = some (flight, result)) : Apart e := by
  obtain ⟨who,found,c,r⟩ := e
  cases c with
  | awaitFlight f => exact ⟨rfl,rfl,rfl⟩
  | _ => cases h

theorem Apart.looked {lookup : List MirrorEntry}
    (h : Follows (resolveUncached dep tag (resolveKey dep tag)) lookup q) :
    ∀ e ∈ lookup, Apart e := by
  intro e he
  have hlooking := h.always (uncached_looking dep tag (resolveKey dep tag)) e he
  refine ⟨hlooking.lead e.reply,?_,hlooking.leave⟩
  obtain ⟨who,found,c,r⟩ := e
  cases c with
  | enterFlight s k => exact absurd rfl (hlooking.enter s k)
  | _ => rfl

theorem joined_apart {j : Nat × JsString × Nat} (h : joins e.command e.reply = some j) :
    leads e.command e.reply = none ∧ isLeave e.command = false := by
  obtain ⟨who,found,c,r⟩ := e
  cases c with
  | enterFlight s k =>
    cases r with
    | joins f => exact ⟨rfl,rfl⟩
    | leads f => cases h
  | _ => cases h

theorem led_apart {l : Nat × JsString × Nat} (h : leads e.command e.reply = some l) :
    joins e.command e.reply = none ∧ isLeave e.command = false := by
  obtain ⟨who,found,c,r⟩ := e
  cases c with
  | enterFlight s k =>
    cases r with
    | joins f => cases h
    | leads f => exact ⟨rfl,rfl⟩
  | _ => cases h

theorem left_apart (h : isLeave e.command = true) :
    leads e.command e.reply = none ∧ joins e.command e.reply = none := by
  obtain ⟨who,found,c,r⟩ := e
  cases c with
  | leaveFlight s k f result => exact ⟨rfl,rfl⟩
  | _ => cases h

/-- The lookup that a call has opened, to the call's end. -/
theorem opened_behind {flight : Nat} (hlead : leads e.command e.reply =
      some (server, resolveKey dep tag, flight))
    (h : Follows (do
      let result ← settle (resolveUncached dep tag (resolveKey dep tag))
      leaveFlight server (resolveKey dep tag) flight result
      settled result : Async ResolveResponse) es q) : Behind dep server tag (e :: es) q := by
  rcases Follows.bind_inv h with ⟨q1,hq1,hne,rfl⟩ | ⟨lookup,back,result,rfl,hlook,hback⟩
  · obtain ⟨q',hq',rfl⟩ := settle_follows hq1
    cases q' with
    | done a => exact absurd rfl (hne _)
    | fail err => exact absurd rfl (hne _)
    | call c k => exact .looks hlead hq'
  · obtain ⟨q',hq',hdone⟩ := settle_follows hlook
    rcases Follows.call_inv hback with ⟨rfl,rfl⟩ | ⟨i,found,r,rest,rfl,hrest⟩
    · rw [List.append_nil]
      exact .leaves hlead hq' (settle_done hdone)
    · obtain ⟨rfl,hq⟩ := settled_follows hrest
      exact .left hlead hq' (settle_done hdone) rfl hq

theorem missed_behind (h : Follows (missed dep server tag) es q) : Behind dep server tag es q := by
  rcases Follows.call_inv h with ⟨rfl,rfl⟩ | ⟨i,found,r,rest,rfl,hrest⟩
  · exact .meets
  cases r with
  | leads flight => exact opened_behind rfl hrest
  | joins flight =>
    rcases Follows.call_inv hrest with ⟨rfl,rfl⟩ | ⟨i',found',result,rest',rfl,hrest'⟩
    · exact .waits rfl
    · obtain ⟨rfl,hq⟩ := settled_follows hrest'
      exact .shared rfl rfl hq

/-- No resolve call takes another course. -/
theorem resolve_course {tag : NormalizedTag} (h : Follows (resolve dep server tag) es q) :
    Course dep server tag es q := by
  rw [resolve_eq] at h
  rcases Follows.call_inv h with ⟨rfl,rfl⟩ | ⟨i,found,r,rest,rfl,hrest⟩
  · exact .asks
  match r with
  | .error () => exact .missed rfl (missed_behind hrest)
  | .ok none => exact .missed rfl (missed_behind hrest)
  | .ok (some .negative) =>
    obtain ⟨rfl,rfl⟩ := Follows.fail_inv hrest
    exact .hit rfl rfl rfl
  | .ok (some (.response cached)) =>
    obtain ⟨rfl,rfl⟩ := Follows.done_inv hrest
    exact .hit rfl rfl rfl

/-- The record of a call that has flown: the one lookup and, when it has come to its end, the
removal of its own entry. -/
structure Flown (dep : Deployment) (server : Nat) (tag : JsString) (flight : Nat)
    (es : List MirrorEntry) (result : Except Thrown ResolveResponse) : Prop where
  record : ∃ get enter lookup leave q, es = get :: enter :: (lookup ++ [leave]) ∧
    get.command = .redisGet (resolveKey dep tag) ∧
    leads enter.command enter.reply = some (server, resolveKey dep tag, flight) ∧
    Follows (resolveUncached dep tag (resolveKey dep tag)) lookup q ∧ outcome q = some result ∧
    leave.command = .leaveFlight server (resolveKey dep tag) flight result

theorem inside_looking {get enter : MirrorEntry} {lookup : List MirrorEntry}
    {led : Nat × JsString × Nat} (hasked : get.command = .redisGet (resolveKey dep tag))
    (hled : leads enter.command enter.reply = some led)
    (hlooked : Follows (resolveUncached dep tag (resolveKey dep tag)) lookup q) :
    Inside (get :: enter :: lookup) := by
  intro e he
  rcases List.mem_cons.mp he with rfl | he
  · exact (Apart.asked hasked).leave
  · rcases List.mem_cons.mp he with rfl | he
    · exact (led_apart hled).2
    · exact (Apart.looked hlooked e he).leave

/-- The commands of the map that a call sends, and where it stands behind each. It has joined a
flight, and waits for it or has ended as it has; it has opened one, and is looking or has left
it; or it has left the one that it has flown. -/
theorem Course.mapped (h : Course dep server tag es q) (he : e ∈ es) (hmap : ¬ Apart e) :
    (∃ flight, joins e.command e.reply = some (server, resolveKey dep tag, flight) ∧
      (q = .call (.awaitFlight flight) settled ∨
        ∃ result, (∃ e ∈ es, awaits e.command e.reply = some (flight, result)) ∧
          outcome q = some result)) ∨
    (∃ flight, leads e.command e.reply = some (server, resolveKey dep tag, flight) ∧
      (Inside es ∧ outcome q = none ∨
        ∃ result, Flown dep server tag flight es result ∧ outcome q = some result)) ∨
    ∃ flight result, Flown dep server tag flight es result ∧
      e.command = .leaveFlight server (resolveKey dep tag) flight result ∧
      outcome q = some result := by
  cases h with
  | asks => cases he
  | hit hhits _ _ =>
    rw [List.mem_singleton.mp he] at hmap
    exact absurd (.hit hhits) hmap
  | missed hasked hbehind =>
    rcases List.mem_cons.mp he with rfl | he
    · exact absurd (.asked hasked) hmap
    cases hbehind with
    | meets => cases he
    | waits hjoined =>
      rw [List.mem_singleton.mp he]
      exact .inl ⟨_,hjoined,.inl rfl⟩
    | shared hjoined hheard hended =>
      rcases List.mem_cons.mp he with rfl | he
      · exact .inl ⟨_,hjoined,.inr ⟨_,⟨_,by simp,hheard⟩,hended⟩⟩
      · rw [List.mem_singleton.mp he] at hmap
        exact absurd (.awaited hheard) hmap
    | looks hled hlooked | leaves hled hlooked _ =>
      rcases List.mem_cons.mp he with rfl | he
      · exact .inr (.inl ⟨_,hled,.inl ⟨inside_looking hasked hled hlooked,rfl⟩⟩)
      · exact absurd (Apart.looked hlooked e he) hmap
    | @left enter leave flight lookup _ _ result hled hlooked hfound hremoved hended =>
      have hflown : Flown dep server tag flight (_ :: enter :: (lookup ++ [leave])) result :=
        ⟨_,_,_,_,_,rfl,hasked,hled,hlooked,hfound,hremoved⟩
      rcases List.mem_cons.mp he with rfl | he
      · exact .inr (.inl ⟨_,hled,.inr ⟨_,hflown,hended⟩⟩)
      · rcases List.mem_append.mp he with he | he
        · exact absurd (Apart.looked hlooked e he) hmap
        · rw [List.mem_singleton.mp he]
          exact .inr (.inr ⟨_,_,hflown,hremoved,hended⟩)

/-- The call that has opened a flight is looking, or has left it. -/
theorem Course.led (h : Course dep server tag es q) (he : e ∈ es) {s : Nat} {key : JsString}
    {flight : Nat} (hlead : leads e.command e.reply = some (s, key, flight)) :
    s = server ∧ key = resolveKey dep tag ∧ (Inside es ∧ outcome q = none ∨
      ∃ result, Flown dep server tag flight es result ∧ outcome q = some result) := by
  rcases h.mapped he (fun ha => by cases ha.lead.symm.trans hlead) with
    ⟨_,hjoin,_⟩ | ⟨_,hled,hcases⟩ | ⟨_,_,_,hremoved,_⟩
  · cases (joined_apart hjoin).1.symm.trans hlead
  · cases hled.symm.trans hlead
    exact ⟨rfl,rfl,hcases⟩
  · cases (left_apart (by rw [hremoved]; rfl)).1.symm.trans hlead

/-- The call that shares a flight waits for it, or has ended as it has. -/
theorem Course.joined (h : Course dep server tag es q) (he : e ∈ es) {s : Nat} {key : JsString}
    {flight : Nat} (hjoin : joins e.command e.reply = some (s, key, flight)) :
    s = server ∧ (q = .call (.awaitFlight flight) settled ∨
      ∃ result, (∃ e ∈ es, awaits e.command e.reply = some (flight, result)) ∧
        outcome q = some result) := by
  rcases h.mapped he (fun ha => by cases ha.join.symm.trans hjoin) with
    ⟨_,hjoined,hcases⟩ | ⟨_,hled,_⟩ | ⟨_,_,_,hremoved,_⟩
  · cases hjoined.symm.trans hjoin
    exact ⟨rfl,hcases⟩
  · cases (led_apart hled).1.symm.trans hjoin
  · cases (left_apart (by rw [hremoved]; rfl)).2.symm.trans hjoin

/-- The call that leaves a flight has flown it. -/
theorem Course.removed (h : Course dep server tag es q) (he : e ∈ es)
    (hleave : isLeave e.command = true) : ∃ flight result, Flown dep server tag flight es result ∧
      e.command = .leaveFlight server (resolveKey dep tag) flight result ∧
      outcome q = some result := by
  rcases h.mapped he (fun ha => by cases ha.leave.symm.trans hleave) with
    ⟨_,hjoin,_⟩ | ⟨_,hled,_⟩ | hleft
  · cases (joined_apart hjoin).2.symm.trans hleave
  · cases (led_apart hled).2.symm.trans hleave
  · exact hleft

/-- A request of a lookup: neither of the map nor the question to the cache. -/
def LooksUp : Command → Bool
  | .redisGet _ | .enterFlight _ _ | .awaitFlight _ | .leaveFlight _ _ _ _ => false
  | _ => true

/-- Whoever is about to send one has opened a flight and not left it. -/
theorem Course.looking {c : Command} {k : Reply c → Async ResolveResponse}
    (h : Course dep server tag es (.call c k)) (hc : LooksUp c = true) :
    Inside es ∧ ∃ flight, ∃ e ∈ es,
      leads e.command e.reply = some (server, resolveKey dep tag, flight) := by
  cases h with
  | asks => cases hc
  | hit _ hended _ => cases hended
  | missed hasked hbehind =>
    cases hbehind with
    | meets | waits | leaves => cases hc
    | shared _ _ hended | left _ _ _ _ hended => cases hended
    | @looks enter flight lookup _ _ _ hled hlooking =>
      exact ⟨inside_looking hasked hled hlooking,flight,enter,by simp,hled⟩

/-- A call that has ended has found its answer cached, shared a flight or flown one. -/
theorem Course.ended (h : Course dep server tag es q) {result : Except Thrown ResolveResponse}
    (hq : outcome q = some result) :
    (∃ get v, es = [get] ∧ hits get.command get.reply = some (resolveKey dep tag, v) ∧
      valueOf result = some v) ∨
    (∃ flight, ∃ e ∈ es, joins e.command e.reply = some (server, resolveKey dep tag, flight)) ∨
    ∃ flight, Flown dep server tag flight es result := by
  cases h with
  | asks => cases hq
  | hit hhits hended hcached =>
    cases hended.symm.trans hq
    exact .inl ⟨_,_,rfl,hhits,hcached⟩
  | missed hasked hbehind =>
    cases hbehind with
    | meets | waits | looks | leaves => cases hq
    | shared hjoined _ _ => exact .inr (.inl ⟨_,_,by simp,hjoined⟩)
    | left hled hlooked hfound hremoved hended =>
      cases hended.symm.trans hq
      exact .inr (.inr ⟨_,⟨_,_,_,_,_,rfl,hasked,hled,hlooked,hfound,hremoved⟩⟩)

end Stages

/-- The call has opened the flight: it is the one that looks. -/
def Runs (pool : MirrorPool) (i server : Nat) (key : JsString) (flight : Nat) : Prop :=
  ∃ e ∈ own pool.trace i, leads e.command e.reply = some (server, key, flight)

/-- The call has found the flight in the map and shares it. -/
def Joined (pool : MirrorPool) (i server : Nat) (key : JsString) (flight : Nat) : Prop :=
  ∃ e ∈ own pool.trace i, joins e.command e.reply = some (server, key, flight)

def CleanedUp (pool : MirrorPool) (server : Nat) (key : JsString) (flight : Nat) : Prop :=
  ∃ e ∈ pool.trace, ∃ result, e.command = .leaveFlight server key flight result

/-- Started and not cleaned up. -/
def Flying (pool : MirrorPool) (server : Nat) (key : JsString) (flight : Nat) : Prop :=
  (∃ i, Runs pool i server key flight) ∧ ¬ CleanedUp pool server key flight

structure Exclusive (dep : Deployment) (pool : MirrorPool) : Prop where
  /-- The map has an entry for a key exactly while a flight of that key is under way. -/
  entry : ∀ server key flight,
    pool.shared.inFlight server key = some flight ↔ Flying pool server key flight
  one : ∀ server key flight flight', Flying pool server key flight →
    Flying pool server key flight' → flight = flight'
  /-- No request of a lookup is sent but by a call whose own flight is then in the map. -/
  tied : ∀ before e after server (tag : NormalizedTag) rest, pool.trace = before ++ e :: after →
    pool.threads[e.who]? = some ⟨.resolve server tag, rest⟩ → LooksUp e.command = true →
    ∃ flight, e.found.inFlight server (resolveKey dep tag) = some flight ∧
      ∃ enter ∈ own before e.who,
        leads enter.command enter.reply = some (server, resolveKey dep tag, flight)
  /-- A flight is one lookup of one call, and what that call ends in is what it has found. -/
  run : ∀ i server key flight, Runs pool i server key flight →
    (∀ j server' key', Runs pool j server' key' flight → j = i) ∧
    ∃ (tag : NormalizedTag) (rest : Async MirrorResult),
      pool.threads[i]? = some ⟨.resolve server tag, rest⟩ ∧ key = resolveKey dep tag ∧
      ∀ result, pool.result i = some result → ∃ looked,
        Flown dep server tag flight (own pool.trace i) looked ∧ result = looked.map .resolved
  /-- A resolve call ends in a cached answer, in a flight that it joins or in its own. -/
  ended : ∀ i server (tag : NormalizedTag) rest result,
    pool.threads[i]? = some ⟨.resolve server tag, rest⟩ → pool.result i = some result →
    (∃ get v answer, own pool.trace i = [get] ∧
      hits get.command get.reply = some (resolveKey dep tag, v) ∧ valueOf answer = some v ∧
      result = answer.map .resolved) ∨
    ∃ flight, Joined pool i server (resolveKey dep tag) flight ∨
      Runs pool i server (resolveKey dep tag) flight
  /-- Whoever joins it ends in its result or its error. -/
  joined : ∀ i j server key flight result, Runs pool i server key flight →
    Joined pool j server key flight → pool.result j = some result → pool.result i = some result
  /-- And does so in its next turn, once the flight is cleaned up. -/
  told : ∀ i j server key flight, Runs pool i server key flight →
    Joined pool j server key flight → CleanedUp pool server key flight →
    pool.result i ≠ none ∧ (pool.turn World.handle j).result j = pool.result i
  /-- A flight that ends takes its own entry out of the map. -/
  cleanup : ∀ before leave after server key flight result, pool.trace = before ++ leave :: after →
    leave.command = .leaveFlight server key flight result →
    leave.found.inFlight server key = some flight
  /-- With no call pending the map is empty. -/
  empty : (∀ i < pool.threads.length, pool.result i ≠ none) →
    ∀ server key, pool.shared.inFlight server key = none

section Calls
variable {dep : Deployment} {pool : MirrorPool}

theorem flown_cleaned {i server flight : Nat} {tag : JsString}
    {result : Except Thrown ResolveResponse}
    (h : Flown dep server tag flight (own pool.trace i) result) :
    CleanedUp pool server (resolveKey dep tag) flight := by
  obtain ⟨get,enter,lookup,leave,_,hes,_,_,_,_,hremoved⟩ := h.record
  have hmem : leave ∈ own pool.trace i := by
    rw [hes]
    simp
  exact ⟨leave,(mem_own.mp hmem).1,result,hremoved⟩

theorem result_ended {i : Nat} {call : MirrorCall} {q : Async ResolveResponse}
    (ht : pool.threads[i]? = some ⟨call, q >>= fun response => return .resolved response⟩)
    {result : Except Thrown ResolveResponse} (hq : outcome q = some result) :
    pool.result i = some (result.map .resolved) := by
  cases q with
  | done a =>
    cases hq
    rw [Pool.result, ht]
    rfl
  | fail e =>
    cases hq
    rw [Pool.result, ht]
    rfl
  | call c k => cases hq

theorem result_pending {i : Nat} {call : MirrorCall} {q : Async ResolveResponse}
    (ht : pool.threads[i]? = some ⟨call, q >>= fun response => return .resolved response⟩)
    (hq : outcome q = none) : pool.result i = none := by
  cases q with
  | done a => cases hq
  | fail e => cases hq
  | call c k =>
    rw [Pool.result, ht]
    rfl

variable (hr : Recorded World.handle (MirrorCall.body dep) pool)
include hr

theorem thread_course {i server : Nat} {tag : NormalizedTag} {rest : Async MirrorResult}
    (ht : pool.threads[i]? = some ⟨.resolve server tag, rest⟩) :
    ∃ q, Course dep server tag (own pool.trace i) q ∧
      rest = q >>= fun response => return .resolved response := by
  rcases Follows.bind_inv (hr.follows i _ ht) with
    ⟨q,hq,_,he⟩ | ⟨front,back,response,hes,hfront,hback⟩
  · exact ⟨q,resolve_course hq,he⟩
  · obtain ⟨rfl,he⟩ := Follows.done_inv hback
    rw [List.append_nil] at hes
    rw [hes]
    exact ⟨_,resolve_course hfront,he⟩

/-- Only a resolve call has to do with the map. -/
theorem mapped_course {i : Nat} {e : MirrorEntry} (he : e ∈ own pool.trace i)
    (hmap : ¬ Apart e) :
    ∃ server, ∃ tag : NormalizedTag, ∃ q, pool.threads[i]? = some ⟨.resolve server tag,
        q >>= fun response => return .resolved response⟩ ∧
      Course dep server tag (own pool.trace i) q := by
  obtain ⟨hmem,rfl⟩ := mem_own.mp he
  obtain ⟨⟨call,rest⟩,ht⟩ : ∃ thread, pool.threads[e.who]? = some thread :=
    ⟨_,List.getElem?_eq_getElem (hr.known e hmem)⟩
  by_cases hcall : ∃ server tag, call = .resolve server tag
  · obtain ⟨server,tag,rfl⟩ := hcall
    obtain ⟨q,hcourse,rfl⟩ := thread_course hr ht
    exact ⟨server,tag,q,ht,hcourse⟩
  · have hplain := ((hr.follows _ _ ht).always
      (MirrorLedger.writer_writing fun server tag hc => hcall ⟨server,tag,hc⟩) e he).1
    refine absurd ?_ hmap
    obtain ⟨who,found,c,r⟩ := e
    cases c with
    | enterFlight s k => exact absurd rfl (hplain.2.1 s k)
    | leaveFlight s k f result => cases hplain.2.2
    | _ => exact ⟨rfl,rfl,rfl⟩

/-- The call of a flight: it is looking, or it has left with what it has found. -/
theorem runs_cases {i server : Nat} {key : JsString} {flight : Nat}
    (h : Runs pool i server key flight) :
    ∃ tag : NormalizedTag, ∃ q, pool.threads[i]? = some ⟨.resolve server tag,
        q >>= fun response => return .resolved response⟩ ∧ key = resolveKey dep tag ∧
      (Inside (own pool.trace i) ∧ outcome q = none ∨
        ∃ result, Flown dep server tag flight (own pool.trace i) result ∧
          outcome q = some result) := by
  obtain ⟨e,he,hlead⟩ := h
  obtain ⟨server',tag,q,ht,hcourse⟩ :=
    mapped_course hr he (fun ha => by cases ha.lead.symm.trans hlead)
  obtain ⟨rfl,hkey,hcases⟩ := hcourse.led he hlead
  exact ⟨tag,q,ht,hkey,hcases⟩

theorem joined_cases {j server : Nat} {key : JsString} {flight : Nat}
    (h : Joined pool j server key flight) :
    ∃ tag : NormalizedTag, ∃ q, pool.threads[j]? = some ⟨.resolve server tag,
        q >>= fun response => return .resolved response⟩ ∧
      (q = .call (.awaitFlight flight) settled ∨
        ∃ result, (∃ e ∈ own pool.trace j, awaits e.command e.reply = some (flight, result)) ∧
          outcome q = some result) := by
  obtain ⟨e,he,hjoin⟩ := h
  obtain ⟨server',tag,q,ht,hcourse⟩ :=
    mapped_course hr he (fun ha => by cases ha.join.symm.trans hjoin)
  obtain ⟨rfl,hcases⟩ := hcourse.joined he hjoin
  exact ⟨tag,q,ht,hcases⟩

/-- Whoever has left a flight has run it. -/
theorem left_cases {e : MirrorEntry} (he : e ∈ pool.trace) {server : Nat} {key : JsString}
    {flight : Nat} {result : Except Thrown ResolveResponse}
    (hc : e.command = .leaveFlight server key flight result) :
    Runs pool e.who server key flight ∧ pool.result e.who = some (result.map .resolved) := by
  have hown : e ∈ own pool.trace e.who := mem_own.mpr ⟨he,rfl⟩
  have hleave : isLeave e.command = true := by rw [hc]; rfl
  obtain ⟨server',tag,q,ht,hcourse⟩ :=
    mapped_course hr hown (fun ha => by cases ha.leave.symm.trans hleave)
  obtain ⟨flight',result',hflown,hc',hq⟩ := hcourse.removed hown hleave
  cases hc.symm.trans hc'
  obtain ⟨get,enter,lookup,leave,q',hes,_,hled,_⟩ := hflown.record
  exact ⟨⟨enter,by rw [hes]; simp,hled⟩,result_ended ht hq⟩

end Calls

/-- All a command can do to the map. -/
inductive Mapped (w : World) (c : Command) (r : Reply c) (w' : World) : Prop
  | kept (lead : leads c r = none) (leave : isLeave c = false) (inFlight : w'.inFlight = w.inFlight)
      (settled : w'.settled = w.settled)
  | opened {server : Nat} {key : JsString} (lead : leads c r = some (server, key, w.nextFlight))
      (leave : isLeave c = false) (free : w.inFlight server key = none)
      (inFlight : w'.inFlight = Function.update w.inFlight server
        (Function.update (w.inFlight server) key (some w.nextFlight)))
      (settled : w'.settled = w.settled)
  | left {server : Nat} {key : JsString} {flight : Nat} {result : Except Thrown ResolveResponse}
      (lead : leads c r = none) (leave : c = .leaveFlight server key flight result)
      (inFlight : w'.inFlight = Function.update w.inFlight server
        (Function.update (w.inFlight server) key none))
      (settled : w'.settled = Function.update w.settled flight (some result))

theorem handle_mapped {w w' : World} {c : Command} {r : Reply c}
    (h : w.handle c = some (w', r)) : Mapped w c r w' := by
  rcases handle_does_or h with hd | ⟨_,rfl,key,rfl⟩
  · cases hd with
    | nothing quiet _ _ inFlight _ settled => exact .kept quiet.lead quiet.leave inFlight settled
    | updated | updatedOne | created | set | deleted => exact .kept rfl rfl rfl rfl
    | opened server key =>
      refine .opened rfl rfl ?_ rfl rfl
      cases hf : w.inFlight server key with
      | none => rfl
      | some f => simp [World.handle, hf] at h
    | left server key flight result => exact .left rfl rfl rfl rfl
  · exact .kept rfl rfl rfl rfl

/-- An entry of the updated map: the one put there, or an old one elsewhere. -/
theorem update_entry {m : Nat → JsString → Option Nat} {server server' : Nat} {key key' : JsString}
    {v : Option Nat} : Function.update m server (Function.update (m server) key v) server' key' =
      if server' = server ∧ key' = key then v else m server' key' := by
  by_cases hs : server' = server
  · subst hs
    by_cases hk : key' = key
    · subst hk
      simp
    · simp [hk]
  · simp [hs]

structure Tracked (dep : Deployment) (pool : MirrorPool) : Prop where
  flights : Flights dep pool
  flown : ∀ enter ∈ pool.trace, ∀ server key f,
    leads enter.command enter.reply = some (server, key, f) →
    (∀ e ∈ pool.trace, e.who = enter.who → isLeave e.command = false) →
    pool.shared.inFlight server key = some f
  closed : ∀ leave ∈ pool.trace, ∀ server key f result,
    leave.command = .leaveFlight server key f result → pool.shared.settled f = some result

section Tracking
variable {dep : Deployment} {pool : MirrorPool}

section Turn
variable {who : Nat} {call : MirrorCall} {c : Command} {k : Reply c → Async MirrorResult}
variable {w : World} {r : Reply c} (h : Tracked dep pool)
variable (ht : pool.threads[who]? = some ⟨call, .call c k⟩)
variable (hh : pool.shared.handle c = some (w, r))
include h ht

/-- The call about to leave a flight is the one that has opened it, and has it in the map. -/
theorem leaving_entry {server : Nat} {key : JsString} {f : Nat}
    {result : Except Thrown ResolveResponse} (hc : c = .leaveFlight server key f result) :
    (∃ e ∈ own pool.trace who, leads e.command e.reply = some (server, key, f)) ∧
      Inside (own pool.trace who) ∧ pool.shared.inFlight server key = some f := by
  obtain ⟨_,_,_,hin,⟨e,he,hlead⟩,_,_⟩ :=
    MirrorLedger.stands_leave (h.flights.recorded.follows who _ ht) hc
  refine ⟨⟨e,he,hlead⟩,hin,h.flown e (mem_own.mp he).1 server key f hlead fun e' he' hwho => ?_⟩
  exact hin e' (mem_own.mpr ⟨he',hwho.trans (mem_own.mp he).2⟩)

include hh

theorem flown_turn {enter : MirrorEntry} (he : enter ∈ pool.trace ++ [⟨who, pool.shared, c, r⟩])
    {server : Nat} {key : JsString} {f : Nat}
    (hlead : leads enter.command enter.reply = some (server, key, f))
    (hstays : ∀ e ∈ pool.trace ++ [⟨who, pool.shared, c, r⟩], e.who = enter.who →
      isLeave e.command = false) : w.inFlight server key = some f := by
  have hold : ∀ e ∈ pool.trace, e.who = enter.who → isLeave e.command = false :=
    fun e he hwho => hstays e (List.mem_append_left _ he) hwho
  cases handle_mapped hh with
  | kept hl _ hmap _ =>
    rw [hmap]
    rcases List.mem_append.mp he with he | he
    · exact h.flown enter he server key f hlead hold
    · rw [List.mem_singleton.mp he] at hlead
      cases hl.symm.trans hlead
  | opened hl _ hfree hmap _ =>
    rw [hmap, update_entry]
    rcases List.mem_append.mp he with he | he
    · have hentry := h.flown enter he server key f hlead hold
      rw [if_neg]
      · exact hentry
      · rintro ⟨rfl,rfl⟩
        cases hfree.symm.trans hentry
    · rw [List.mem_singleton.mp he] at hlead
      cases hl.symm.trans hlead
      exact if_pos ⟨rfl,rfl⟩
  | left hl hc hmap _ =>
    rw [hmap, update_entry]
    rcases List.mem_append.mp he with he | he
    · have hentry := h.flown enter he server key f hlead hold
      rw [if_neg]
      · exact hentry
      · -- the entry that goes is that of the call that leaves
        rintro ⟨rfl,rfl⟩
        obtain ⟨⟨e',he',hlead'⟩,_,hentry'⟩ := leaving_entry h ht hc
        cases hentry.symm.trans hentry'
        cases h.flights.numbered enter he e' (mem_own.mp he').1 _ _ _ _ f hlead hlead'
        have hleft := hstays ⟨who, pool.shared, c, r⟩ (by simp) (mem_own.mp he').2.symm
        subst hc
        cases hleft
    · rw [List.mem_singleton.mp he] at hlead
      cases hl.symm.trans hlead

theorem over_turn {leave : MirrorEntry} (he : leave ∈ pool.trace ++ [⟨who, pool.shared, c, r⟩])
    {server : Nat} {key : JsString} {f : Nat} {result : Except Thrown ResolveResponse}
    (hleave : leave.command = .leaveFlight server key f result) : w.settled f = some result := by
  cases handle_mapped hh with
  | kept _ hv _ hset | opened _ hv _ _ hset =>
    rw [hset]
    rcases List.mem_append.mp he with he | he
    · exact h.closed leave he server key f result hleave
    · rw [List.mem_singleton.mp he] at hleave
      subst hleave
      cases hv
  | left _ hc _ hset =>
    rw [hset]
    rcases List.mem_append.mp he with he | he
    · rw [Function.update_of_ne]
      · exact h.closed leave he server key f result hleave
      · -- two calls that leave one flight would both have opened it
        rintro rfl
        obtain ⟨⟨e,hown,hlead⟩,hin,_⟩ := leaving_entry h ht hc
        obtain ⟨⟨e',hown',hlead'⟩,_⟩ := left_cases h.flights.recorded he hleave
        cases h.flights.numbered e (mem_own.mp hown).1 e' (mem_own.mp hown').1 _ _ _ _ _ hlead hlead'
        have hwho : leave.who = who := (mem_own.mp hown').2.symm.trans (mem_own.mp hown).2
        have hinside := hin leave (mem_own.mpr ⟨he,hwho⟩)
        rw [hleave] at hinside
        cases hinside
    · rw [List.mem_singleton.mp he] at hleave
      cases hc.symm.trans hleave
      exact Function.update_self ..

end Turn

theorem tracked_step (pool : MirrorPool) (event : InstanceEvent) (h : Tracked dep pool) :
    Tracked dep (InstancePool.step dep pool event) := by
  have hrec : Recorded World.handle (MirrorCall.body dep)
      (Pool.step World.handle (MirrorCall.body dep) (fun w what => what.act w) pool event) :=
    step_recorded pool event h.flights.recorded
  rw [InstancePool.step]
  cases event with
  | spawn call =>
    exact ⟨⟨hrec,h.flights.flying,h.flights.settled,h.flights.counted,h.flights.numbered⟩,
      h.flown,h.closed⟩
  | outside what =>
    refine ⟨⟨hrec,fun server key f hv => ?_,fun f result hv => ?_,fun e he server key f hl => ?_,
      h.flights.numbered⟩,fun enter he server key f hl hstays => ?_,
      fun leave he server key f result hc => ?_⟩
    · exact h.flights.flying server key f (by rw [← what.inFlight]; exact hv)
    · exact h.flights.settled f result (by rw [← what.settled]; exact hv)
    · exact (what.nextFlight pool.shared).symm ▸ h.flights.counted e he server key f hl
    · exact (congrFun (congrFun (what.inFlight pool.shared) server) key).trans
        (h.flown enter he server key f hl hstays)
    · exact (congrFun (what.settled pool.shared) f).trans (h.closed leave he server key f result hc)
  | turn who =>
    rw [Pool.step] at hrec ⊢
    rcases Pool.turn_cases World.handle pool who with he | ⟨call,c,k,w,r,ht,hh,he⟩
    · rw [he]
      exact h
    · rw [he] at hrec ⊢
      exact ⟨MirrorLedger.flights_turn h.flights ht hh hrec,
        fun _ he' _ _ _ hl hstays => flown_turn h ht hh he' hl hstays,
        fun _ he' _ _ _ _ hc => over_turn h ht hh he' hc⟩

variable (h : Tracked dep pool)
include h

theorem runs_eq {i j server server' : Nat} {key key' : JsString} {f : Nat}
    (hi : Runs pool i server key f) (hj : Runs pool j server' key' f) : j = i := by
  obtain ⟨e,he,hlead⟩ := hi
  obtain ⟨e',he',hlead'⟩ := hj
  cases h.flights.numbered e (mem_own.mp he).1 e' (mem_own.mp he').1 _ _ _ _ f hlead hlead'
  exact (mem_own.mp he').2.symm.trans (mem_own.mp he).2

theorem entry_iff (server : Nat) (key : JsString) (f : Nat) :
    pool.shared.inFlight server key = some f ↔ Flying pool server key f := by
  constructor
  · intro hentry
    obtain ⟨enter,henter,hlead,hstays⟩ := h.flights.flying server key f hentry
    have hruns : Runs pool enter.who server key f := ⟨enter,mem_own.mpr ⟨henter,rfl⟩,hlead⟩
    refine ⟨⟨_,hruns⟩,fun hclean => ?_⟩
    obtain ⟨e,he,result,hc⟩ := hclean
    have hwho : e.who = enter.who := runs_eq h hruns (left_cases h.flights.recorded he hc).1
    have hleft := hstays e he hwho
    rw [hc] at hleft
    cases hleft
  · rintro ⟨⟨i,hruns⟩,hclean⟩
    obtain ⟨e,he,hlead⟩ := id hruns
    obtain ⟨hmem,rfl⟩ := mem_own.mp he
    refine h.flown e hmem server key f hlead fun e' he' hwho => ?_
    obtain ⟨tag,_,_,hkey,⟨hin,_⟩ | ⟨result,hflown,_⟩⟩ := runs_cases h.flights.recorded hruns
    · exact hin e' (mem_own.mpr ⟨he',hwho⟩)
    · exact absurd (hkey ▸ flown_cleaned hflown) hclean

/-- A call that has run a flight which is cleaned up has ended in what it found. -/
theorem cleaned_result {i server : Nat} {key : JsString} {f : Nat}
    (hruns : Runs pool i server key f) (hclean : CleanedUp pool server key f) :
    ∃ result, pool.result i = some (result.map .resolved) ∧ pool.shared.settled f = some result := by
  obtain ⟨e,he,result,hc⟩ := hclean
  obtain ⟨hruns',hresult⟩ := left_cases h.flights.recorded he hc
  cases runs_eq h hruns hruns'
  exact ⟨result,hresult,h.closed e he server key f result hc⟩

section Past
variable (hm : Moments (Tracked dep) (fun _ (_ : InstanceEvent) => True) pool)
include hm

theorem joined_result {i j server : Nat} {key : JsString} {f : Nat}
    {result : Except Thrown MirrorResult} (hruns : Runs pool i server key f)
    (hjoined : Joined pool j server key f) (hj : pool.result j = some result) :
    pool.result i = some result := by
  obtain ⟨tag,q,ht,rfl | ⟨shared,⟨e,he,hawait⟩,hq⟩⟩ := joined_cases h.flights.recorded hjoined
  · cases (result_pending ht rfl).symm.trans hj
  cases (result_ended ht hq).symm.trans hj
  obtain ⟨before,after,hs⟩ := List.append_of_mem (mem_own.mp he).1
  obtain ⟨w,hanswer⟩ := h.flights.recorded.answered e (mem_own.mp he).1
  obtain ⟨past,_,_,hp,_,htrace,hfound,_⟩ := hm before e after hs
  obtain ⟨leave,hleave,server',key',hc⟩ := hp.flights.settled f shared
    (by rw [hfound]; exact Freshness.awaits_answer hanswer hawait)
  have hmem : leave ∈ pool.trace := by
    rw [hs, ← htrace]
    exact List.mem_append_left _ hleave
  obtain ⟨hruns',hresult⟩ := left_cases h.flights.recorded hmem hc
  cases runs_eq h hruns hruns'
  exact hresult

theorem joined_told {i j server : Nat} {key : JsString} {f : Nat}
    (hruns : Runs pool i server key f) (hjoined : Joined pool j server key f)
    (hclean : CleanedUp pool server key f) :
    pool.result i ≠ none ∧ (pool.turn World.handle j).result j = pool.result i := by
  obtain ⟨shared,hi,hsettled⟩ := cleaned_result h hruns hclean
  refine ⟨by simp [hi],?_⟩
  obtain ⟨tag,q,ht,rfl | ⟨result,_,hq⟩⟩ := joined_cases h.flights.recorded hjoined
  · have hawait : pool.shared.handle (.awaitFlight f) = some (pool.shared, shared) := by
      simp [World.handle, hsettled]
    rw [Pool.turn_call ht hawait, hi]
    have hlt : j < pool.threads.length := (List.getElem?_eq_some_iff.mp ht).1
    exact result_ended (q := settled shared) (List.getElem?_set_self hlt) (by cases shared <;> rfl)
  · have hj := result_ended ht hq
    have hstill : pool.turn World.handle j = pool := by
      cases q with
      | done a => exact Pool.turn_done ht
      | fail e => exact Pool.turn_fail ht
      | call c k => cases hq
    rw [hstill, joined_result h hm hruns hjoined hj, hj]

omit h in
theorem cleanup_own {before after : List MirrorEntry} {leave : MirrorEntry} {server : Nat}
    {key : JsString} {f : Nat} {result : Except Thrown ResolveResponse}
    (hs : pool.trace = before ++ leave :: after)
    (hc : leave.command = .leaveFlight server key f result) :
    leave.found.inFlight server key = some f := by
  obtain ⟨past,_,_,hp,_,_,hfound,hthread,_⟩ := hm before leave after hs
  rw [← hfound]
  exact (leaving_entry hp hthread hc).2.2

omit h in
theorem request_tied {before after : List MirrorEntry} {e : MirrorEntry} {server : Nat}
    {tag : NormalizedTag} {rest : Async MirrorResult} (hs : pool.trace = before ++ e :: after)
    (ht : pool.threads[e.who]? = some ⟨.resolve server tag, rest⟩)
    (hc : LooksUp e.command = true) :
    ∃ flight, e.found.inFlight server (resolveKey dep tag) = some flight ∧
      ∃ enter ∈ own before e.who,
        leads enter.command enter.reply = some (server, resolveKey dep tag, flight) := by
  obtain ⟨past,call,k,hp,_,htrace,hfound,hthread,hcalls⟩ := hm before e after hs
  obtain ⟨rest',ht'⟩ := hcalls e.who _ hthread
  cases ht.symm.trans ht'
  obtain ⟨q,hcourse,hrest⟩ := thread_course hp.flights.recorded hthread
  cases q with
  | done a | fail err => cases hrest
  | call c k' =>
    cases (Prog.call.inj hrest).1
    obtain ⟨hin,flight,enter,henter,hled⟩ := hcourse.looking hc
    refine ⟨flight,?_,enter,htrace ▸ henter,hled⟩
    rw [← hfound]
    exact hp.flown enter (mem_own.mp henter).1 server _ flight hled (fun e' he' hwho =>
      hin e' (mem_own.mpr ⟨he',hwho.trans (mem_own.mp henter).2⟩))

end Past

theorem call_ended {i server : Nat} {tag : NormalizedTag} {rest : Async MirrorResult}
    {result : Except Thrown MirrorResult}
    (ht : pool.threads[i]? = some ⟨.resolve server tag, rest⟩) (hr : pool.result i = some result) :
    (∃ get v answer, own pool.trace i = [get] ∧
      hits get.command get.reply = some (resolveKey dep tag, v) ∧ valueOf answer = some v ∧
      result = answer.map .resolved) ∨
    ∃ flight, Joined pool i server (resolveKey dep tag) flight ∨
      Runs pool i server (resolveKey dep tag) flight := by
  obtain ⟨q,hcourse,rfl⟩ := thread_course h.flights.recorded ht
  cases hq : outcome q with
  | none => cases (result_pending ht hq).symm.trans hr
  | some answer =>
    cases (result_ended ht hq).symm.trans hr
    rcases hcourse.ended hq with ⟨get,v,hes,hhit,hv⟩ | ⟨flight,e,he,hjoin⟩ | ⟨flight,hflown⟩
    · exact .inl ⟨get,v,answer,hes,hhit,hv,rfl⟩
    · exact .inr ⟨flight,.inl ⟨e,he,hjoin⟩⟩
    · obtain ⟨get,enter,lookup,leave,_,hes,_,hled,_⟩ := hflown.record
      exact .inr ⟨flight,.inr ⟨enter,by rw [hes]; simp,hled⟩⟩

theorem empty_ended (hended : ∀ i < pool.threads.length, pool.result i ≠ none) (server : Nat)
    (key : JsString) : pool.shared.inFlight server key = none := by
  cases hentry : pool.shared.inFlight server key with
  | none => rfl
  | some f =>
    obtain ⟨⟨i,hruns⟩,hclean⟩ := (entry_iff h server key f).mp hentry
    obtain ⟨_,_,ht,hkey,⟨_,hq⟩ | ⟨result,hflown,_⟩⟩ := runs_cases h.flights.recorded hruns
    · exact absurd (result_pending ht hq) (hended i (List.getElem?_eq_some_iff.mp ht).1)
    · exact absurd (hkey ▸ flown_cleaned hflown) hclean

end Tracking

/-- Whatever calls run in whatever order, and whatever becomes of the services meanwhile. -/
theorem single_flight (dep : Deployment) (events : List InstanceEvent) :
    Exclusive dep (InstancePool.after dep events) := by
  have hstart : Tracked dep InstancePool.start := by
    refine ⟨⟨init_recorded _,?_,?_,?_,?_⟩,?_,?_⟩
    · exact fun server key f hv => (by cases hv)
    · exact fun f result hv => (by cases hv)
    · exact fun e he => (by cases he)
    · exact fun e he => (by cases he)
    · exact fun e he => (by cases he)
    · exact fun e he => (by cases he)
  obtain ⟨h,hm⟩ : Tracked dep (InstancePool.after dep events) ∧
      Moments (Tracked dep) (fun _ (_ : InstanceEvent) => True) (InstancePool.after dep events) :=
    run_moments hstart tracked_step (along_always (fun _ _ => trivial) _ events)
  refine ⟨entry_iff h,fun server key f f' hf hf' => ?_,
    fun before e after server tag rest hs ht hc => request_tied hm hs ht hc,
    fun i server key f hruns => ?_,fun i server tag rest result ht hr => call_ended h ht hr,
    fun i j server key f result hi hj hr => joined_result h hm hi hj hr,
    fun i j server key f hi hj hc => joined_told h hm hi hj hc,
    fun before leave after server key f result hs hc => cleanup_own hm hs hc,
    fun hended server key => empty_ended h hended server key⟩
  · exact Option.some.inj (((entry_iff h server key f).mpr hf).symm.trans
      ((entry_iff h server key f').mpr hf'))
  · refine ⟨fun j server' key' hj => runs_eq h hruns hj,?_⟩
    obtain ⟨tag,q,ht,hkey,hcase⟩ := runs_cases h.flights.recorded hruns
    refine ⟨tag,_,ht,hkey,fun result hresult => ?_⟩
    rcases hcase with ⟨_,hq⟩ | ⟨looked,hflown,hq⟩
    · cases (result_pending ht hq).symm.trans hresult
    · cases (result_ended ht hq).symm.trans hresult
      exact ⟨looked,hflown,rfl⟩

/-- A second call while the first looks. -/
def abcShared : List InstanceEvent :=
  .spawn (.resolve 0 .abc) :: .turn 0 :: .turn 0 :: .spawn (.resolve 0 .abc) ::
    List.replicate 2 (.turn 1)

/-- It sends no request of its own. -/
theorem abc_single :
    let busy := InstancePool.after .sample abcShared
    let pool := InstancePool.after .sample (abcShared ++ List.replicate 4 (.turn 0) ++ [.turn 1])
    Exclusive .sample busy ∧ busy.shared.inFlight 0 (resolveKey .sample (js "abc")) = some 0 ∧
    Exclusive .sample pool ∧ pool.result 1 = some (.error (notFound (js "abc"))) ∧
    pool.result 0 = pool.result 1 ∧
    (own pool.trace 0).map (fun e => LooksUp e.command) = [false, false, true, true, true, false] ∧
    (own pool.trace 1).map (fun e => LooksUp e.command) = [false, false, false] ∧
    pool.shared.inFlight 0 (resolveKey .sample (js "abc")) = none :=
  ⟨single_flight .sample abcShared,by decide,single_flight .sample _,by decide⟩

end Tagwise.Proofs.SingleFlight
