import Tagwise.Js.Calendar
import Tagwise.Proofs.SignIn
import Tagwise.Proofs.SignInMessage
import Tagwise.Proofs.Expiration

/-! Whoever brings back the text of a challenge, signed and in time, is let in, whatever else
is going on at the service. -/

namespace Tagwise.Proofs.Admission
open Js Api Lib
open SingleUse (Alphabetic AuthEntry drew stored taken challenge_follows taken_by key_injective)

variable {config : AuthConfig}

abbrev step (config : AuthConfig) : AuthPool → AuthEvent → AuthPool :=
  Pool.step AuthWorld.handle (AuthCall.body config) AuthWorld.act

theorem handle_clock {w s : AuthWorld} {c : AuthCommand} {r : AuthReply c}
    (h : w.handle c = some (s, r)) : s.now = w.now ∧ s.redisUp = w.redisUp := by
  cases c with
  | randomBytes =>
    obtain ⟨_,_,rfl⟩ := SingleUse.draws_next h
    exact ⟨rfl,rfl⟩
  | dateNow =>
    cases h
    exact ⟨rfl,rfl⟩
  | setEx key value ttl =>
    by_cases hup : w.redisUp = true ∧ 0 < ttl
    · cases (if_pos hup).symm.trans h
      exact ⟨rfl,rfl⟩
    · cases (if_neg hup).symm.trans h
      exact ⟨rfl,rfl⟩
  | getdel key =>
    by_cases hup : w.redisUp = true
    · cases (if_pos hup).symm.trans h
      exact ⟨rfl,rfl⟩
    · cases (if_neg hup).symm.trans h
      exact ⟨rfl,rfl⟩

variable (config) in
theorem step_clock (pool : AuthPool) (event : AuthEvent) :
    pool.shared.now ≤ (step config pool event).shared.now := by
  cases event with
  | spawn call => exact Nat.le_refl _
  | turn who =>
    rw [step, Pool.step]
    rcases pool.turn_cases AuthWorld.handle who with he | ⟨call,c,k,s,r,ht,hh,he⟩
    · rw [he]
    · rw [he]
      exact Nat.le_of_eq (handle_clock hh).1.symm
  | outside what =>
    cases what with
    | tick ms => exact Nat.le_add_right _ _
    | redis up => exact Nat.le_refl _

/-- The record and the clock of a pool that some run has reached. -/
structure Timed (config : AuthConfig) (pool : AuthPool) : Prop where
  recorded : Recorded AuthWorld.handle (AuthCall.body config) pool
  past : ∀ e ∈ pool.trace, e.found.now ≤ pool.shared.now

theorem step_timed (pool : AuthPool) (event : AuthEvent) (h : Timed config pool) :
    Timed config (step config pool event) := by
  refine ⟨step_recorded pool event h.recorded,fun e he => ?_⟩
  have hold : e ∈ pool.trace → e.found.now ≤ (step config pool event).shared.now :=
    fun hm => Nat.le_trans (h.past e hm) (step_clock config pool event)
  cases event with
  | spawn call => exact hold he
  | outside what => exact hold he
  | turn who =>
    rw [step, Pool.step] at he
    rcases pool.turn_cases AuthWorld.handle who with hsame | ⟨call,c,k,s,r,ht,hh,hturn⟩
    · rw [hsame] at he
      exact hold he
    · rw [hturn] at he
      rcases List.mem_append.mp he with he | he
      · exact hold he
      · cases List.mem_singleton.mp he
        exact step_clock config pool (.turn who)

def nonceKey (config : AuthConfig) (pubkey : JsString) (random : Program.Bytes nonceBytes) :
    List UInt8 := encodeUtf8 (RedisNonceStore.key config pubkey (hex random))

/-- The last millisecond of what was issued at a time. -/
def deadline (config : AuthConfig) (issuedAt : Nat) : Nat :=
  issuedAt + config.authNonceTtlSeconds * 1000

/-- The nonce is there until its deadline, or it has been taken. -/
structure Waits (config : AuthConfig) (pool : AuthPool) (pubkey : JsString)
    (random : Program.Bytes nonceBytes) (issuedAt : Nat) : Prop where
  issued : issuedAt ≤ pool.shared.now
  kept : pool.shared.now ≤ deadline config issuedAt →
    (∃ entry, pool.shared.redis (nonceKey config pubkey random) = some entry ∧
      deadline config issuedAt ≤ entry.lastMs) ∨
    ∃ e ∈ pool.trace, taken e = some (nonceKey config pubkey random)

/-- What the thread has stored waits. -/
def Promised (config : AuthConfig) (pool : AuthPool) : Prop :=
  ∀ (j : Nat) pubkey message, pool.threads[j]? = some ⟨.challenge pubkey, .done (.message message)⟩ →
    ∃ random issuedAt, message = buildSignInMessage (issuedFields config pubkey random issuedAt) ∧
      config.kit.isAddress pubkey = true ∧ Waits config pool pubkey random issuedAt

section Waiting
variable {pool : AuthPool} {pubkey : JsString} {random : Program.Bytes nonceBytes} {issuedAt : Nat}

/-- While it is there, the nonce is left by a command, or renewed, or taken. -/
theorem Waits.turn (h : Waits config pool pubkey random issuedAt) (who : Nat)
    (hrec : Recorded AuthWorld.handle (AuthCall.body config) (step config pool (.turn who))) :
    Waits config (step config pool (.turn who)) pubkey random issuedAt := by
  refine ⟨Nat.le_trans h.issued (step_clock config pool (.turn who)),fun hnow => ?_⟩
  rw [step, Pool.step] at hrec hnow ⊢
  rcases pool.turn_cases AuthWorld.handle who with he | ⟨call,c,k,s,r,ht,hh,he⟩
  · rw [he] at hnow ⊢
    exact h.kept hnow
  rw [he] at hrec hnow ⊢
  obtain ⟨hclock,_⟩ := handle_clock hh
  simp only [hclock] at hnow
  rcases h.kept hnow with ⟨entry,hentry,hlast⟩ | ⟨e,hm,htaken⟩
  · cases c with
    | randomBytes =>
      obtain ⟨_,_,rfl⟩ := SingleUse.draws_next hh
      exact .inl ⟨entry,hentry,hlast⟩
    | dateNow =>
      cases hh
      exact .inl ⟨entry,hentry,hlast⟩
    | setEx key value ttl =>
      by_cases hup : pool.shared.redisUp = true ∧ 0 < ttl
      · cases (if_pos hup).symm.trans hh
        by_cases hk : encodeUtf8 key = nonceKey config pubkey random
        · -- renewed, and with the one life that a challenge gives
          obtain ⟨pubkey',rest,random',issuedAt',_,hst⟩ :=
            SingleUse.stored_by hrec List.mem_concat_self (by simp [stored])
          obtain ⟨value',hcommand⟩ := hst.command
          cases hcommand
          refine .inl ⟨⟨value,pool.shared.now + config.authNonceTtlSeconds * 1000⟩,?_,
            Nat.add_le_add_right h.issued _⟩
          rw [← hk]
          exact Function.update_self ..
        · refine .inl ⟨entry,?_,hlast⟩
          rw [← hentry]
          exact Function.update_of_ne (fun hk' => hk hk'.symm) ..
      · cases (if_neg hup).symm.trans hh
        exact .inl ⟨entry,hentry,hlast⟩
    | getdel key =>
      by_cases hup : pool.shared.redisUp = true
      · cases (if_pos hup).symm.trans hh
        by_cases hk : encodeUtf8 key = nonceKey config pubkey random
        · have hlive : pool.shared.live key = some entry := by
            rw [AuthWorld.live, hk, hentry, Option.filter_some,
              if_pos (decide_eq_true (Nat.le_trans hnow hlast))]
          refine .inr ⟨_,List.mem_concat_self,?_⟩
          rw [hlive, ← hk]
          rfl
        · refine .inl ⟨entry,?_,hlast⟩
          rw [← hentry]
          exact Function.update_of_ne (fun hk' => hk hk'.symm) ..
      · cases (if_neg hup).symm.trans hh
        exact .inl ⟨entry,hentry,hlast⟩
  · exact .inr ⟨e,List.mem_append_left _ hm,htaken⟩

theorem Waits.step (h : Waits config pool pubkey random issuedAt) (event : AuthEvent)
    (hrec : Recorded AuthWorld.handle (AuthCall.body config) (step config pool event)) :
    Waits config (Admission.step config pool event) pubkey random issuedAt := by
  cases event with
  | spawn call => exact ⟨h.issued,h.kept⟩
  | turn who => exact h.turn who hrec
  | outside what =>
    have hclock : pool.shared.now ≤ (Admission.step config pool (.outside what)).shared.now :=
      step_clock config pool (.outside what)
    refine ⟨Nat.le_trans h.issued hclock,fun hnow => ?_⟩
    have hkept := h.kept (Nat.le_trans hclock hnow)
    cases what with
    | tick ms => exact hkept
    | redis up => exact hkept

/-- What a challenge that has returned has sent. -/
theorem challenge_sent {message : JsString} {es : List AuthEntry}
    (h : Follows (challenge config pubkey) es (.done (.message message))) :
    config.kit.isAddress pubkey = true ∧ ∃ random issuedAt, ∃ first second third last : AuthEntry,
      es = [first, second, third, last] ∧
      (∃ who found, second = ⟨who, found, .dateNow, issuedAt⟩) ∧
      (∃ who found value, last = ⟨who, found, .setEx (RedisNonceStore.key config pubkey (hex random))
        value config.authNonceTtlSeconds, .ok ()⟩) ∧
      message = buildSignInMessage (issuedFields config pubkey random issuedAt) := by
  unfold challenge at h
  by_cases ha : config.kit.isAddress pubkey = true
  · simp only [ha, Bool.not_true, Bool.false_eq_true, ↓reduceIte] at h
    rcases h.call_inv with ⟨_,hq⟩ | ⟨i1,f1,random,rest1,rfl,h1⟩
    · cases hq
    rcases h1.call_inv with ⟨_,hq⟩ | ⟨i2,f2,issuedAt,rest2,rfl,h2⟩
    · cases hq
    rcases h2.call_inv with ⟨_,hq⟩ | ⟨i3,f3,now,rest3,rfl,h3⟩
    · cases hq
    rcases h3.call_inv with ⟨_,hq⟩ | ⟨i4,f4,r,rest4,rfl,h4⟩
    · cases hq
    cases r with
    | error u => cases h4.fail_inv.2
    | ok u =>
      obtain ⟨rfl,hq⟩ := h4.done_inv
      cases hq
      exact ⟨ha,random,issuedAt,_,_,_,_,rfl,⟨_,_,rfl⟩,⟨_,_,_,rfl⟩,rfl⟩
  · simp only [ha, Bool.not_false, ↓reduceIte] at h
    cases h.fail_inv.2

theorem step_promised (pool : AuthPool) (event : AuthEvent) (ht : Timed config pool)
    (h : Promised config pool) : Promised config (step config pool event) := by
  have ht' := step_timed pool event ht
  intro j pubkey message hj
  rcases step_back pool event hj with hold | ⟨c,k,rfl,hold⟩ | hnew
  · obtain ⟨random,issuedAt,hm,ha,hw⟩ := h j pubkey message hold
    exact ⟨random,issuedAt,hm,ha,hw.step event ht'.recorded⟩
  · -- the challenge has just returned: its last command has stored the nonce
    have hf := ht'.recorded.follows j _ hj
    obtain ⟨ha,random,issuedAt,first,second,third,last,hown,⟨w2,f2,rfl⟩,⟨w4,f4,value,rfl⟩,hm⟩ :=
      challenge_sent hf
    have hissued : issuedAt ≤ (step config pool (.turn j)).shared.now := by
      have hmem := (mem_own.mp (hown ▸ List.mem_cons_of_mem _ List.mem_cons_self)).1
      obtain ⟨s,hs⟩ := ht'.recorded.answered _ hmem
      have hnow : f2.now = issuedAt := (Prod.mk.inj (Option.some.inj hs)).2
      exact hnow ▸ ht'.past _ hmem
    refine ⟨random,issuedAt,hm,ha,hissued,fun _ => .inl ?_⟩
    rw [step, Pool.step] at hj hown hissued ⊢
    rcases pool.turn_cases AuthWorld.handle j with he | ⟨call,c',k',s,r,ht,hh,he⟩
    · rw [he, hold] at hj
      cases hj
    rw [he] at hown hissued ⊢
    simp only [own_append, own_self (⟨j, pool.shared, c', r⟩ : AuthEntry)] at hown
    have hlast := congrArg List.getLast? hown
    simp only [List.getLast?_append, List.getLast?_singleton, Option.some_or,
      List.getLast?_cons_cons, Option.some.injEq] at hlast
    cases hlast
    by_cases hup : pool.shared.redisUp = true ∧ 0 < config.authNonceTtlSeconds
    · cases (if_pos hup).symm.trans hh
      exact ⟨_,Function.update_self ..,Nat.add_le_add_right hissued _⟩
    · cases (if_neg hup).symm.trans hh
  · exact absurd hnew.symm (SignIn.challenge_not_done config pubkey _)

end Waiting

variable (config) in
theorem after_timed (now : Nat) (random : List (Program.Bytes nonceBytes))
    (events : List AuthEvent) :
    Timed config (AuthPool.after config (AuthWorld.start now random) events) ∧
    Promised config (AuthPool.after config (AuthWorld.start now random) events) := by
  refine run_invariant (I := fun pool : AuthPool => Timed config pool ∧ Promised config pool)
    ⟨⟨init_recorded _,fun e he => by cases he⟩,fun j pubkey message hj => by cases hj⟩
    (fun pool event h => ?_) events
  exact ⟨step_timed pool event h.1,step_promised pool event h.1 h.2⟩

/-- A domain that the text can carry: of one line, and not to be taken for a field. -/
structure PlainDomain (domain : JsString) : Prop where
  nonempty : domain ≠ []
  dots : ∀ u ∈ domain, isDotUnit u = true
  unprefixed : ∀ start ∈ SignInMessage.fieldPrefixes, ¬ start <+: domain
  bare : domain ∉ SignInMessage.barePrefixes

theorem hexByte_units (b : UInt8) : ∀ u ∈ hexByte b, u ∈ SignInMessage.hexUnits := by
  have hdigit : ∀ n < 16, hexDigit n ∈ SignInMessage.hexUnits := by decide
  have hlt := b.toNat_lt
  intro u hu
  simp only [hexByte, List.mem_cons, List.not_mem_nil, or_false] at hu
  rcases hu with rfl | rfl
  · exact hdigit _ (by omega)
  · exact hdigit _ (by omega)

theorem padded_units (width n : Nat) : ∀ u ∈ padded width n, u ∈ SignInMessage.isoUnits := by
  have hdigit : ∀ d < 10, UInt16.ofNat (48 + d) ∈ SignInMessage.isoUnits := by decide
  intro u hu
  obtain ⟨i,_,rfl⟩ := List.mem_map.mp hu
  exact hdigit _ (Nat.mod_lt _ (by decide))

theorem mark_units : ∀ mark ∈ [js "+", js "-", js "T", js ":", js ".", js "Z"],
    ∀ u ∈ mark, u ∈ SignInMessage.isoUnits := by
  intro mark hm
  have hall : mark.all SignInMessage.isoUnits.contains = true :=
    List.all_eq_true.mp (by decide : [js "+", js "-", js "T", js ":", js ".", js "Z"].all
      (fun mark => mark.all SignInMessage.isoUnits.contains) = true) mark hm
  exact SignInMessage.mem_of_all hall

theorem toISOString_units (time : Nat) : ∀ u ∈ toISOString time, u ∈ SignInMessage.isoUnits := by
  have hmark := mark_units
  have hpad := padded_units
  generalize SignInMessage.isoUnits = units at *
  unfold toISOString
  generalize civil (time / msPerDay) = date
  obtain ⟨year,month,day⟩ := date
  simp only [List.forall_mem_cons] at hmark
  obtain ⟨hplus,hdash,ht,hcolon,hdot,hz,_⟩ := hmark
  have hyear : ∀ u ∈ (if year ≤ 9999 then padded 4 year else js "+" ++ padded 6 year), u ∈ units := by
    split
    · exact hpad 4 year
    · exact List.forall_mem_append.mpr ⟨hplus,hpad 6 year⟩
  simp only [List.forall_mem_append]
  exact ⟨⟨⟨⟨⟨⟨⟨⟨⟨⟨⟨⟨⟨hyear,hdash⟩,hpad 2 _⟩,hdash⟩,hpad 2 _⟩,ht⟩,hpad 2 _⟩,hcolon⟩,hpad 2 _⟩,hcolon⟩,
    hpad 2 _⟩,hdot⟩,hpad 3 _⟩,hz⟩

theorem hex_units (random : Program.Bytes nonceBytes) :
    ∀ u ∈ hex random, u ∈ SignInMessage.hexUnits := by
  intro u hu
  obtain ⟨b,_,hb⟩ := List.mem_flatMap.mp hu
  exact hexByte_units b u hb

theorem issued_wellFormed (hkit : Alphabetic config.kit)
    (hempty : config.kit.isAddress [] = false) (hdomain : PlainDomain config.authDomain)
    {pubkey : JsString} (ha : config.kit.isAddress pubkey = true)
    (random : Program.Bytes nonceBytes) (issuedAt : Nat) :
    SignInMessage.WellFormed (issuedFields config pubkey random issuedAt) where
  domain := hdomain.nonempty
  dots := hdomain.dots
  unprefixed := hdomain.unprefixed
  pubkey := by
    intro hnil
    have hnil : pubkey = [] := hnil
    rw [hnil, hempty] at ha
    cases ha
  base58 := hkit pubkey ha
  nonce := hex_units random
  issuedAt := toISOString_units issuedAt
  expirationTime := toISOString_units (deadline config issuedAt)

theorem issued_parses (hkit : Alphabetic config.kit) (hempty : config.kit.isAddress [] = false)
    (hdomain : PlainDomain config.authDomain) {pubkey : JsString}
    (ha : config.kit.isAddress pubkey = true) (random : Program.Bytes nonceBytes) (issuedAt : Nat) :
    parseSignInMessage (buildSignInMessage (issuedFields config pubkey random issuedAt)) =
      some (issuedFields config pubkey random issuedAt) :=
  (SignInMessage.parse_built_iff
    (issued_wellFormed hkit hempty hdomain ha random issuedAt)).mpr hdomain.bare

/-- How far a verify has come whose replies so far were good. -/
inductive Stage (config : AuthConfig) (pubkey message signature nonce : JsString) :
    Nat → AuthAsync AuthResult → Prop
  | asked : Stage config pubkey message signature nonce 0 (verify config pubkey message signature)
  | unexpired {k : Except Unit (Option JsString) → AuthAsync AuthResult}
      (h : ∀ value, k (.ok (some value)) = .done (.token pubkey)) :
      Stage config pubkey message signature nonce 1
        (.call (.getdel (RedisNonceStore.key config pubkey nonce)) k)
  | admitted : Stage config pubkey message signature nonce 2 (.done (.token pubkey))

variable (config) in
/-- A good text is first held against the clock. -/
theorem verify_asks {pubkey message : JsString} (signature : JsString)
    {parsed : SignInMessageFields} (hparse : parseSignInMessage message = some parsed)
    (hpubkey : parsed.pubkey = pubkey) :
    ∃ k, verify config pubkey message signature = .call .dateNow k ∧
      ∀ now, expired config.kit parsed.expirationTime now = false →
        verifySignature config.kit message signature pubkey = true →
        Stage config pubkey message signature parsed.nonce 1 (k now) := by
  unfold verify
  rw [hparse]
  simp only [hpubkey, ne_eq, not_true_eq_false, ↓reduceIte, dateNow, Prog.request_bind]
  refine ⟨_,rfl,fun now hnot hsigned => ?_⟩
  simp only [hnot, Bool.false_eq_true, ↓reduceIte, RedisNonceStore.take, getdel,
    Prog.request_bind]
  refine .unexpired (fun value => ?_)
  simp [Prog.pure_done, Prog.bind, hsigned]

/-- A text that has not expired has not expired before. -/
theorem expired_earlier {kit : Kit} {text : JsString} {now later : Nat} (hle : now ≤ later)
    (h : expired kit text later = false) : expired kit text now = false := by
  rw [Bool.eq_false_iff, ne_eq, Expiration.expired_iff] at h ⊢
  intro hx
  obtain ⟨expires,hdate,hlt⟩ := hx
  exact h ⟨expires,hdate,by omega⟩

/-- No other call than this one brings the nonce of the text. -/
def Alone (pool : AuthPool) (i : Nat) (pubkey nonce : JsString) : Prop :=
  ∀ (other : Nat) message signature rest parsed,
    pool.threads[other]? = some ⟨.verify pubkey message signature, rest⟩ →
    parseSignInMessage message = some parsed → parsed.nonce = nonce → other = i

theorem Alone.before {pool : AuthPool} {event : AuthEvent} {i : Nat} {pubkey nonce : JsString}
    (h : Alone (step config pool event) i pubkey nonce) : Alone pool i pubkey nonce := by
  intro other message signature rest parsed hthread hparse hnonce
  obtain ⟨rest',hthread'⟩ : ∃ rest', (step config pool event).threads[other]? =
    some ⟨.verify pubkey message signature, rest'⟩ := step_call pool event hthread
  exact h other message signature rest' parsed hthread' hparse hnonce

theorem run_up {pool : AuthPool} {events : List AuthEvent} (hup : pool.shared.redisUp = true)
    (hstays : .outside (.redis false) ∉ events) :
    (run (step config) pool events).shared.redisUp = true := by
  induction events generalizing pool with
  | nil => exact hup
  | cons event events ih =>
    rw [List.mem_cons, not_or] at hstays
    refine ih ?_ hstays.2
    cases event with
    | spawn call => exact hup
    | turn who =>
      rw [step, Pool.step]
      rcases pool.turn_cases AuthWorld.handle who with he | ⟨call,c,k,s,r,ht,hh,he⟩
      · rw [he]
        exact hup
      · rw [he]
        exact (handle_clock hh).2.trans hup
    | outside what =>
      cases what with
      | tick ms => exact hup
      | redis up =>
        cases up with
        | true => rfl
        | false => exact absurd rfl hstays.1

section Admits
variable {pool : AuthPool} {i : Nat} {pubkey message signature : JsString}
  {parsed : SignInMessageFields} {random : Program.Bytes nonceBytes} {issuedAt : Nat}

/-- Nobody has taken a nonce that one call alone brings and has not asked for. -/
theorem untaken (hkit : Alphabetic config.kit) (hrec : Recorded AuthWorld.handle (AuthCall.body config) pool)
    (ha : config.kit.isAddress pubkey = true) (halone : Alone pool i pubkey (hex random))
    (hown : (own pool.trace i).length = 1) :
    ¬ ∃ e ∈ pool.trace, taken e = some (nonceKey config pubkey random) := by
  intro hx
  obtain ⟨e,he,htaken⟩ := hx
  obtain ⟨pubkey',message',signature',rest,parsed',hthread,hco⟩ :=
    taken_by hrec he (by rw [htaken]; simp)
  obtain ⟨rfl,hnonce⟩ := key_injective hkit ha (Option.some.inj (hco.key.symm.trans htaken))
  have hwho := halone e.who message' signature' rest parsed' hthread hco.parses hnonce
  obtain ⟨a,hsent,_⟩ := hco.sent
  rw [hwho] at hsent
  rw [hsent] at hown
  cases hown

/-- Where a verify of a good text stands. -/
def Stands (config : AuthConfig) (pool : AuthPool) (i : Nat) (pubkey message signature nonce : JsString)
    (stage : Nat) : Prop :=
  (own pool.trace i).length = stage ∧ ∃ rest,
    pool.threads[i]? = some ⟨.verify pubkey message signature, rest⟩ ∧
    Stage config pubkey message signature nonce stage rest

/-- Its own turn takes it on. -/
theorem stands_turn (hkit : Alphabetic config.kit) (ht : Timed config pool)
    (ha : config.kit.isAddress pubkey = true)
    (hparse : parseSignInMessage message = some parsed) (hpubkey : parsed.pubkey = pubkey)
    (hnonce : parsed.nonce = hex random)
    (hsigned : verifySignature config.kit message signature pubkey = true)
    (hup : pool.shared.redisUp = true)
    (hnot : expired config.kit parsed.expirationTime pool.shared.now = false)
    (hnow : pool.shared.now ≤ deadline config issuedAt)
    (hwaits : Waits config pool pubkey random issuedAt)
    (halone : Alone pool i pubkey parsed.nonce) {stage : Nat}
    (h : Stands config pool i pubkey message signature parsed.nonce stage) :
    Stands config (step config pool (.turn i)) i pubkey message signature parsed.nonce
      (min (stage + 1) 2) := by
  obtain ⟨hown,rest,hthread,hstage⟩ := h
  have hi : i < pool.threads.length := (List.getElem?_eq_some_iff.mp hthread).1
  rw [step, Pool.step]
  cases hstage with
  | asked =>
    obtain ⟨k,hbody,hk⟩ := verify_asks config signature hparse hpubkey
    rw [hbody] at hthread
    rw [Pool.turn_call hthread rfl]
    refine ⟨?_,k pool.shared.now,List.getElem?_set_self hi,hk _ hnot hsigned⟩
    rw [own_append, own_self (⟨i, pool.shared, .dateNow, pool.shared.now⟩ : AuthEntry),
      List.length_append, hown]
    rfl
  | unexpired hk =>
    rcases hwaits.kept hnow with ⟨entry,hentry,hlast⟩ | htaken
    · have hlive : pool.shared.live (RedisNonceStore.key config pubkey parsed.nonce) = some entry := by
        rw [AuthWorld.live, hnonce]
        exact (congrArg (Option.filter _) hentry).trans
          (if_pos (decide_eq_true (Nat.le_trans hnow hlast)))
      have hh : pool.shared.handle (.getdel (RedisNonceStore.key config pubkey parsed.nonce)) =
          some (pool.shared.put (RedisNonceStore.key config pubkey parsed.nonce) none,
            .ok (some entry.value)) := by
        rw [AuthWorld.handle, if_pos hup, hlive]
        rfl
      rw [Pool.turn_call hthread hh]
      refine ⟨?_,_,List.getElem?_set_self hi,?_⟩
      · simp only [own_append, List.length_append, hown]
        rw [own_self (⟨i, pool.shared, .getdel _, .ok (some entry.value)⟩ : AuthEntry)]
        rfl
      · rw [hk]
        exact .admitted
    · rw [hnonce] at halone
      exact absurd htaken (untaken hkit ht.recorded ha halone hown)
  | admitted =>
    rw [Pool.turn_done hthread]
    exact ⟨hown,_,hthread,.admitted⟩

end Admits

/-- What else happens leaves it where it stands. -/
theorem stands_aside {pool : AuthPool} {i : Nat} {pubkey message signature nonce : JsString}
    {stage : Nat} (h : Stands config pool i pubkey message signature nonce stage)
    {event : AuthEvent} (hother : event ≠ .turn i) :
    Stands config (step config pool event) i pubkey message signature nonce stage := by
  obtain ⟨hown,rest,hthread,hstage⟩ := h
  cases event with
  | spawn call =>
    refine ⟨hown,rest,?_,hstage⟩
    rw [step, Pool.step, List.getElem?_append_left (List.getElem?_eq_some_iff.mp hthread).1]
    exact hthread
  | turn who =>
    have hne : who ≠ i := fun he => hother (he ▸ rfl)
    rw [step, Pool.step]
    rcases pool.turn_cases AuthWorld.handle who with he | ⟨call,c,k,s,r,ht,hh,he⟩
    · rw [he]
      exact ⟨hown,rest,hthread,hstage⟩
    · rw [he]
      refine ⟨?_,rest,(List.getElem?_set_ne hne).trans hthread,hstage⟩
      rw [own_append, own_other hne, List.append_nil]
      exact hown
  | outside what => exact ⟨hown,rest,hthread,hstage⟩

def isTurnOf (i : Nat) : AuthEvent → Bool
  | .turn who => who = i
  | _ => false

/-- The text of a challenge comes back signed, unexpired to the end, and by one call alone,
while Redis stays up. -/
structure Returned (config : AuthConfig) (first : AuthPool) (later : List AuthEvent)
    (pubkey message signature : JsString) (parsed : SignInMessageFields) : Prop where
  challenged : ∃ j : Nat, first.threads[j]? = some ⟨.challenge pubkey, .done (.message message)⟩
  parses : parseSignInMessage message = some parsed
  signed : verifySignature config.kit message signature pubkey = true
  up : first.shared.redisUp = true
  stays : .outside (.redis false) ∉ later
  unexpired : expired config.kit parsed.expirationTime
    (run (step config) first (.spawn (.verify pubkey message signature) :: later)).shared.now = false
  /-- The dates are written with four digits of a year. -/
  early : deadline config
    (run (step config) first (.spawn (.verify pubkey message signature) :: later)).shared.now <
    253402300800000
  alone : Alone (run (step config) first (.spawn (.verify pubkey message signature) :: later))
    first.threads.length pubkey parsed.nonce

theorem Returned.before {first : AuthPool} {later : List AuthEvent} {event : AuthEvent}
    {pubkey message signature : JsString} {parsed : SignInMessageFields}
    (h : Returned config first (later ++ [event]) pubkey message signature parsed) :
    Returned config first later pubkey message signature parsed := by
  have hrun : run (step config) first
      (.spawn (.verify pubkey message signature) :: (later ++ [event])) =
      step config (run (step config) first (.spawn (.verify pubkey message signature) :: later))
        event := run_snoc (step config) first (.spawn _ :: later) event
  have hclock := step_clock config (run (step config) first
    (.spawn (.verify pubkey message signature) :: later)) event
  obtain ⟨hchallenged,hparse,hsigned,hup,hstays,hnot,hearly,halone⟩ := h
  rw [hrun] at hnot hearly halone
  exact ⟨hchallenged,hparse,hsigned,hup,fun hm => hstays (List.mem_append_left _ hm),
    expired_earlier hclock hnot,
    Nat.lt_of_le_of_lt (Nat.add_le_add_right hclock _) hearly,halone.before⟩

/-- After each of its turns a good verify stands further on, and two are enough. -/
theorem stands_after (hkit : Alphabetic config.kit) (hempty : config.kit.isAddress [] = false)
    (hdomain : PlainDomain config.authDomain) {first : AuthPool} (ht : Timed config first)
    (hpromised : Promised config first) {pubkey message signature : JsString}
    {parsed : SignInMessageFields} (later : List AuthEvent)
    (h : Returned config first later pubkey message signature parsed) :
    Stands config (run (step config) first (.spawn (.verify pubkey message signature) :: later))
      first.threads.length pubkey message signature parsed.nonce
      (min (later.countP (isTurnOf first.threads.length)) 2) := by
  induction later using List.reverseRecOn with
  | nil =>
    refine ⟨?_,_,?_,.asked⟩
    · exact congrArg List.length (own_unknown ht.recorded.known)
    · rw [run_cons, run_nil, step, Pool.step, List.getElem?_append_right (Nat.le_refl _),
        Nat.sub_self]
      rfl
  | append_singleton later event ih =>
    have hbefore := h.before
    have hstands := ih hbefore
    have hreached : Timed config (run (step config) first
        (.spawn (.verify pubkey message signature) :: later)) ∧ Promised config (run (step config)
        first (.spawn (.verify pubkey message signature) :: later)) :=
      run_invariant (I := fun pool : AuthPool => Timed config pool ∧ Promised config pool)
        ⟨ht,hpromised⟩
        (fun pool event h => ⟨step_timed pool event h.1,step_promised pool event h.1 h.2⟩) _
    obtain ⟨hchallenged,hparse,hsigned,hup,hstays,hnot,hearly,halone⟩ := hbefore
    obtain ⟨j,hj⟩ := hchallenged
    have hdone : ∀ events : List AuthEvent, (run (step config) first events).threads[j]? =
        some ⟨.challenge pubkey, .done (.message message)⟩ :=
      run_invariant (I := fun pool : AuthPool => pool.threads[j]? =
        some ⟨.challenge pubkey, .done (.message message)⟩) hj
        (fun pool event hd => step_done pool event hd)
    have hup : (run (step config) first
        (.spawn (.verify pubkey message signature) :: later)).shared.redisUp = true := by
      refine run_up hup (fun hm => ?_)
      rcases List.mem_cons.mp hm with hspawn | hm
      · cases hspawn
      · exact hstays hm
    have hthread := hdone (.spawn (.verify pubkey message signature) :: later)
    rw [← List.cons_append, run_snoc, List.countP_append]
    generalize run (step config) first (.spawn (.verify pubkey message signature) :: later) = pool
      at hstands hreached hnot hearly halone hup hthread ⊢
    obtain ⟨random,issuedAt,rfl,ha,hwaits⟩ := hreached.2 j pubkey message hthread
    have hfields := issued_parses hkit hempty hdomain ha random issuedAt
    cases hfields.symm.trans hparse
    have hnow : pool.shared.now ≤ deadline config issuedAt := by
      have hlate : deadline config issuedAt < 253402300800000 :=
        Nat.lt_of_le_of_lt (Nat.add_le_add_right hwaits.issued _) hearly
      rw [Bool.eq_false_iff, ne_eq, Expiration.expired_iff] at hnot
      have hdate := dateTime_toISOString config.kit.otherDate hlate
      by_contra hlt
      exact hnot ⟨_,hdate,by omega⟩
    by_cases hturn : event = .turn first.threads.length
    · subst hturn
      have hnext := stands_turn hkit hreached.1 ha hparse rfl rfl hsigned hup hnot hnow hwaits
        halone hstands
      have hcount : min (min (later.countP (isTurnOf first.threads.length)) 2 + 1) 2 =
          min (later.countP (isTurnOf first.threads.length) + 1) 2 := by omega
      rw [hcount] at hnext
      have hone : [Event.turn first.threads.length].countP (isTurnOf first.threads.length) = 1 := by
        simp [isTurnOf]
      rw [hone]
      exact hnext
    · have hnone : [event].countP (isTurnOf first.threads.length) = 0 := by
        cases event with
        | turn who => simpa [isTurnOf] using hturn
        | _ => rfl
      rw [hnone, Nat.add_zero]
      exact stands_aside hstands hturn

theorem admitted (hkit : Alphabetic config.kit) (hempty : config.kit.isAddress [] = false)
    (hdomain : PlainDomain config.authDomain) (now : Nat) (random : List (Program.Bytes nonceBytes))
    (before later : List AuthEvent) (pubkey message signature : JsString)
    (parsed : SignInMessageFields)
    (returned : Returned config (AuthPool.after config (AuthWorld.start now random) before) later
      pubkey message signature parsed)
    (turns : 2 ≤ later.countP
      (isTurnOf (AuthPool.after config (AuthWorld.start now random) before).threads.length)) :
    (AuthPool.after config (AuthWorld.start now random)
      (before ++ .spawn (.verify pubkey message signature) :: later)).result
        (AuthPool.after config (AuthWorld.start now random) before).threads.length =
      some (.ok (.token pubkey)) := by
  obtain ⟨ht,hpromised⟩ := after_timed config now random before
  obtain ⟨_,rest,hthread,hstage⟩ := stands_after hkit hempty hdomain ht hpromised later returned
  rw [Nat.min_eq_right turns] at hstage
  cases hstage
  rw [AuthPool.after, run_append]
  exact SignIn.done_result hthread

theorem sample_domain : PlainDomain (js "tagwise.me") where
  nonempty := by decide
  dots := fun u hu => List.all_eq_true.mp (by decide : (js "tagwise.me").all isDotUnit = true) u hu
  unprefixed := by decide
  bare := by decide

theorem thread_called {pool : AuthPool} {calls : List AuthCall} {i : Nat} {call : AuthCall}
    {rest : AuthAsync AuthResult} (hcalls : pool.threads.map Thread.call = calls)
    (h : pool.threads[i]? = some ⟨call, rest⟩) : calls[i]? = some call := by
  rw [← hcalls, List.getElem?_map, h]
  rfl

theorem challenge_returned {pool : AuthPool} {pubkey message : JsString}
    (hcalls : pool.threads.map Thread.call = [.challenge pubkey])
    (hresult : pool.result 0 = some (.ok (.message message))) :
    pool.threads[0]? = some ⟨.challenge pubkey, .done (.message message)⟩ := by
  obtain ⟨call,hthread⟩ := SignIn.result_done hresult
  cases thread_called hcalls hthread
  exact hthread

theorem alone_second {pool : AuthPool} {pubkey message signature nonce : JsString}
    (hcalls : pool.threads.map Thread.call = [.challenge pubkey, .verify pubkey message signature]) :
    Alone pool 1 pubkey nonce := by
  intro other message' signature' rest parsed hthread _ _
  have hcall := thread_called hcalls hthread
  match other with
  | 0 => cases hcall
  | 1 => rfl
  | _ + 2 => cases hcall

/-- The two turns of the verify, with the text's five minutes around them. -/
def lateTurns : List AuthEvent :=
  [.outside (.tick 1000), .turn 1, .outside (.tick 299000), .turn 1]

theorem wallet_returned : Returned .sample
    (AuthPool.after .sample (AuthWorld.start sampleNow [sampleRandom]) challengeEvents) lateTurns
    wallet walletText walletSignature (issuedFields .sample wallet sampleRandom sampleNow) where
  challenged := ⟨0,challenge_returned (by decide +kernel) (by decide +kernel)⟩
  parses := by decide +kernel
  signed := by decide +kernel
  up := by decide +kernel
  stays := by
    intro hm
    simp [lateTurns] at hm
  unexpired := by decide +kernel
  early := by decide +kernel
  alone := by
    have hlength : (AuthPool.after .sample (AuthWorld.start sampleNow [sampleRandom])
        challengeEvents).threads.length = 1 := by decide +kernel
    rw [hlength]
    have hcalls : (run (step .sample) (AuthPool.after .sample (AuthWorld.start sampleNow
        [sampleRandom]) challengeEvents) (.spawn (.verify wallet walletText walletSignature) ::
        lateTurns)).threads.map Thread.call =
          [.challenge wallet, .verify wallet walletText walletSignature] := by decide +kernel
    exact alone_second hcalls

theorem wallet_admitted :
    (AuthPool.after .sample (AuthWorld.start sampleNow [sampleRandom])
      (challengeEvents ++ .spawn (.verify wallet walletText walletSignature) :: lateTurns)).result
        (AuthPool.after .sample (AuthWorld.start sampleNow [sampleRandom])
          challengeEvents).threads.length = some (.ok (.token wallet)) :=
  admitted SingleUse.sample_alphabetic (by decide) sample_domain sampleNow [sampleRandom]
    challengeEvents lateTurns wallet walletText walletSignature
    (issuedFields .sample wallet sampleRandom sampleNow) wallet_returned (by decide +kernel)

end Tagwise.Proofs.Admission
