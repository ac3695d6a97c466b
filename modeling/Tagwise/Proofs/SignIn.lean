import Tagwise.Proofs.SingleUse

namespace Tagwise.Proofs.SignIn
open Js Api Lib
open SingleUse (Alphabetic Ledger Redeems token token_redeems challenged stored taken)

/-- What `j` sent last came before what `i` took. -/
def Earlier (pool : AuthPool) (j i : Nat) : Prop :=
  ∃ before put between take after, pool.trace = before ++ put :: (between ++ take :: after) ∧
    put.who = j ∧ take.who = i ∧ stored put ≠ none ∧ taken take ≠ none

/-- Every token is for a text that an earlier challenge of its pubkey has returned, and
so for one of the server's own texts. -/
def Bound (config : AuthConfig) (pool : AuthPool) : Prop :=
  ∀ i pubkey message signature sub,
    pool.threads[i]? = some ⟨.verify pubkey message signature, .done (.token sub)⟩ →
    (∃ j rest, pool.threads[j]? = some ⟨.challenge pubkey, rest⟩ ∧
      pool.result j = some (.ok (.message message)) ∧ Earlier pool j i) ∧
    ∃ random issuedAt, message = buildSignInMessage (issuedFields config pubkey random issuedAt)

/-- A text whose live nonce is taken under its pubkey's signature is laid out as the
server lays it out, for this domain and with the dates issued. -/
def OwnText (config : AuthConfig) (pool : AuthPool) : AuthEvent → Prop
  | .turn who => ∀ pubkey message signature parsed k,
    pool.threads[who]? = some ⟨.verify pubkey message signature,
      .call (.getdel (RedisNonceStore.key config pubkey parsed.nonce)) k⟩ →
    parseSignInMessage message = some parsed →
    pool.shared.redisUp = true →
    pool.shared.live (RedisNonceStore.key config pubkey parsed.nonce) ≠ none →
    verifySignature config.kit message signature pubkey = true →
    ∀ j random issuedAt, challenged pool j = some pubkey →
      pool.result j =
        some (.ok (.message (buildSignInMessage (issuedFields config pubkey random issuedAt)))) →
      parsed.nonce = hex random →
      message = buildSignInMessage parsed ∧ parsed.domain = config.authDomain ∧
      parsed.issuedAt = toISOString issuedAt ∧
      parsed.expirationTime = toISOString (issuedAt + config.authNonceTtlSeconds * 1000)
  | _ => True

theorem result_done {pool : AuthPool} {j : Nat} {r : AuthResult}
    (h : pool.result j = some (.ok r)) :
    ∃ call, pool.threads[j]? = some ⟨call, .done r⟩ := by
  unfold Pool.result at h
  split at h
  · rename_i call a ht
    cases h
    exact ⟨call,ht⟩
  · cases h
  · cases h

theorem done_result {pool : AuthPool} {j : Nat} {call : AuthCall} {r : AuthResult}
    (h : pool.threads[j]? = some ⟨call, .done r⟩) : pool.result j = some (.ok r) := by
  rw [Pool.result, h]

theorem earlier_of {config : AuthConfig} {pool : AuthPool} {i j : Nat}
    {pubkey message : JsString} {random : Program.Bytes nonceBytes} {issuedAt : Nat}
    (h : Redeems config pool i j pubkey message random issuedAt) : Earlier pool j i := by
  obtain ⟨before,put,between,take,after,htr,hput,htake,hs,ht,_⟩ := h.inTime
  exact ⟨before,put,between,take,after,htr,hput,htake,by rw [hs]; simp,by rw [ht, hs]; simp⟩

/-- The order of two entries stands. -/
theorem Earlier.step {config : AuthConfig} {pool : AuthPool} {j i : Nat} (h : Earlier pool j i)
    (event : AuthEvent) :
    Earlier (pool.step AuthWorld.handle (AuthCall.body config) AuthWorld.act event) j i := by
  obtain ⟨before,put,between,take,after,htr,h⟩ := h
  obtain ⟨tail,ht⟩ : ∃ tail, (pool.step AuthWorld.handle (AuthCall.body config) AuthWorld.act
    event).trace = pool.trace ++ tail := step_trace pool event
  exact ⟨before,put,between,take,after ++ tail,by rw [ht, htr]; simp,h⟩

theorem verify_not_done (config : AuthConfig) (pubkey message signature : JsString)
    (r : AuthResult) : verify config pubkey message signature ≠ .done r := by
  intro he
  have hstart : Follows (verify config pubkey message signature)
      ([] : List SingleUse.AuthEntry) (.done r) := he ▸ .start _
  rcases SingleUse.verify_follows hstart with ⟨e,parsed,hco⟩ | ⟨_,hdone⟩
  · obtain ⟨a,hnil,_⟩ := hco.sent
    cases hnil
  · exact hdone r rfl

theorem challenge_not_done (config : AuthConfig) (pubkey : JsString) (r : AuthResult) :
    challenge config pubkey ≠ .done r := by
  intro he
  have hstart : Follows (challenge config pubkey) ([] : List SingleUse.AuthEntry) (.done r) :=
    he ▸ .start _
  rcases SingleUse.challenge_follows hstart with ⟨e,random,issuedAt,hst⟩ | ⟨_,hdone⟩
  · obtain ⟨a,b,c,hnil,_⟩ := hst.sent
    cases hnil
  · exact hdone r rfl

/-- A turn that gives a token takes a live nonce. -/
theorem token_turn {config : AuthConfig} {pool : AuthPool} {i : Nat}
    {pubkey message signature sub : JsString} {c : AuthCommand}
    {k : AuthReply c → AuthAsync AuthResult}
    (h : Recorded AuthWorld.handle (AuthCall.body config)
      (pool.step AuthWorld.handle (AuthCall.body config) AuthWorld.act (.turn i)))
    (hold : pool.threads[i]? = some ⟨.verify pubkey message signature, .call c k⟩)
    (hi : (pool.step AuthWorld.handle (AuthCall.body config) AuthWorld.act
      (.turn i)).threads[i]? = some ⟨.verify pubkey message signature, .done (.token sub)⟩) :
    ∃ parsed, parseSignInMessage message = some parsed ∧
      c = .getdel (RedisNonceStore.key config pubkey parsed.nonce) ∧
      pool.shared.redisUp = true ∧
      pool.shared.live (RedisNonceStore.key config pubkey parsed.nonce) ≠ none := by
  rw [Pool.step] at h hi
  rcases pool.turn_cases AuthWorld.handle i with he | ⟨call,c,k,s,r,ht,hh,he⟩
  · rw [he, hold] at hi
    cases hi
  · rw [he] at h hi
    rw [hold] at ht
    cases ht
    rcases SingleUse.verify_follows (h.follows i _ hi) with ⟨e,parsed,hco⟩ | ⟨_,hdone⟩
    · obtain ⟨a,hown,_⟩ := hco.sent
      have hlast : e = ⟨i, pool.shared, c, r⟩ := by
        rw [own_append, own_self ⟨i, pool.shared, c, r⟩] at hown
        have := congrArg List.getLast? hown
        simpa using this.symm
      subst hlast
      have hc : c = .getdel (RedisNonceStore.key config pubkey parsed.nonce) := hco.command
      subst hc
      have htaken := hco.key
      by_cases hup : pool.shared.redisUp = true
      · cases (if_pos hup).symm.trans hh
        refine ⟨parsed,hco.parses,rfl,hup,fun hnone => ?_⟩
        rw [hnone] at htaken
        cases htaken
      · cases (if_neg hup).symm.trans hh
        cases htaken
    · exact absurd rfl (hdone _)

theorem fields_issued {config : AuthConfig} {parsed : SignInMessageFields} {pubkey : JsString}
    {random : Program.Bytes nonceBytes} {issuedAt : Nat} (hdomain : parsed.domain = config.authDomain)
    (hpubkey : parsed.pubkey = pubkey) (hnonce : parsed.nonce = hex random)
    (hissued : parsed.issuedAt = toISOString issuedAt)
    (hexpires : parsed.expirationTime =
      toISOString (issuedAt + config.authNonceTtlSeconds * 1000)) :
    parsed = issuedFields config pubkey random issuedAt := by
  obtain ⟨domain,pub,nonce,issued,expires⟩ := parsed
  simp only [issuedFields, SignInMessageFields.mk.injEq]
  exact ⟨hdomain,hpubkey,hnonce,hissued,hexpires⟩

theorem bound_step {config : AuthConfig} (hkit : Alphabetic config.kit) (pool : AuthPool)
    (event : AuthEvent) (h : Ledger config pool ∧ Bound config pool) (own : OwnText config pool event) :
    Ledger config (pool.step AuthWorld.handle (AuthCall.body config) AuthWorld.act event) ∧
    Bound config (pool.step AuthWorld.handle (AuthCall.body config) AuthWorld.act event) := by
  have hledger := SingleUse.ledger_step hkit pool event h.1
  refine ⟨hledger,fun i pubkey message signature sub hi => ?_⟩
  rcases step_back pool event hi with hold | ⟨c,k,rfl,hold⟩ | hnew
  · obtain ⟨⟨j,rest,hj,hr,hearlier⟩,hserver⟩ := h.2 i pubkey message signature sub hold
    obtain ⟨call,hd⟩ := result_done hr
    rw [hj] at hd
    cases hd
    have hj' : (pool.step AuthWorld.handle (AuthCall.body config) AuthWorld.act
        event).threads[j]? = some ⟨.challenge pubkey, .done (.message message)⟩ :=
      step_done pool event hj
    exact ⟨⟨j,_,hj',done_result hj',hearlier.step event⟩,hserver⟩
  · -- the token is new: its challenge had returned before this turn
    have htoken : token (pool.step AuthWorld.handle (AuthCall.body config) AuthWorld.act
        (.turn i)) i = some sub := by
      rw [token, done_result hi]
    obtain ⟨j,message',random,issuedAt,hr⟩ := token_redeems hkit hledger htoken
    obtain ⟨signature',rest',hthread,hsig⟩ := hr.verifies
    rw [hi] at hthread
    cases hthread
    obtain ⟨rest'',hj⟩ := hr.challenges
    obtain ⟨call,hd⟩ := result_done hr.issues
    rw [hj] at hd
    cases hd
    obtain ⟨parsed,hparse,hpubkey,hnonce⟩ := hr.parses
    have hbefore : pool.threads[j]? = some ⟨.challenge pubkey,
        .done (.message (buildSignInMessage (issuedFields config pubkey random issuedAt)))⟩ := by
      rcases step_back pool (.turn i) hj with hold' | ⟨c,k,hturn,hold'⟩ | hnew
      · exact hold'
      · cases hturn
        rw [hold] at hold'
        cases hold'
      · exact absurd hnew.symm (challenge_not_done config pubkey _)
    obtain ⟨parsed',hparse',rfl,hup,hlive⟩ := token_turn hledger.recorded hold hi
    cases hparse.symm.trans hparse'
    obtain ⟨hlaid,hdomain,hissued,hexpires⟩ := own pubkey message signature parsed k hold hparse
      hup hlive hsig j random issuedAt (by rw [challenged, hbefore]) (done_result hbefore) hnonce
    rw [fields_issued hdomain hpubkey hnonce hissued hexpires] at hlaid
    refine ⟨⟨j,_,hj,?_,earlier_of hr⟩,random,issuedAt,hlaid⟩
    rw [hlaid]
    exact hr.issues
  · exact absurd hnew.symm (verify_not_done config pubkey message signature _)

theorem bound_start (config : AuthConfig) (w : AuthWorld) : Bound config (Pool.init w) :=
  fun _ _ _ _ _ hi => (by cases hi)

/-- Where no other text is signed around an issued nonce, tokens are for issued texts. -/
theorem message_bound (config : AuthConfig) (hkit : Alphabetic config.kit) (now : Nat)
    (random : List (Program.Bytes nonceBytes)) (distinct : random.Nodup) (events : List AuthEvent)
    (own : Along (Pool.step AuthWorld.handle (AuthCall.body config) AuthWorld.act)
      (OwnText config) (Pool.init (AuthWorld.start now random)) events) :
    Bound config (AuthPool.after config (AuthWorld.start now random) events) :=
  (run_invariant_along (I := fun pool => Ledger config pool ∧ Bound config pool)
    ⟨SingleUse.ledger_start config now distinct,bound_start config _⟩
    (fun pool event h hown => bound_step hkit pool event h hown) own).2

theorem newline_padded (width n : Nat) : newline ∉ padded width n := by
  intro h
  obtain ⟨i,_,hi⟩ := List.mem_map.mp h
  have hn := congrArg UInt16.toNat hi
  simp only [newline, UInt16.toNat_ofNat', UInt16.reduceToNat] at hn
  omega

theorem newline_toISOString (time : Nat) : newline ∉ toISOString time := by
  have hword : newline ∉ js "+" ∧ newline ∉ js "-" ∧ newline ∉ js "T" ∧ newline ∉ js ":" ∧
      newline ∉ js "." ∧ newline ∉ js "Z" := by decide
  unfold toISOString
  simp only
  split <;> simp [newline_padded, hword]

theorem eq_of_first {u : UInt16} {p q a b : JsString} (hp : u ∉ p) (hq : u ∉ q)
    (h : p ++ u :: a = q ++ u :: b) : p = q ∧ a = b := by
  rcases List.append_eq_append_iff.mp h with ⟨c,rfl,hc⟩ | ⟨c,rfl,hc⟩
  · cases c with
    | nil => simpa using hc
    | cons v c =>
      cases (List.cons.inj hc).1
      simp at hq
  · cases c with
    | nil => simpa using hc.symm
    | cons v c =>
      cases (List.cons.inj hc).1
      simp at hp

/-- Texts issued with one nonce tell their dates. -/
theorem dates_of_text {config : AuthConfig} {pubkey : JsString}
    {random random' : Program.Bytes nonceBytes} {issuedAt issuedAt' : Nat}
    (hnonce : hex random = hex random')
    (h : buildSignInMessage (issuedFields config pubkey random issuedAt) =
      buildSignInMessage (issuedFields config pubkey random' issuedAt')) :
    toISOString issuedAt = toISOString issuedAt' ∧
    toISOString (issuedAt + config.authNonceTtlSeconds * 1000) =
      toISOString (issuedAt' + config.authNonceTtlSeconds * 1000) := by
  simp only [buildSignInMessage, issuedFields, List.intercalate_cons_cons,
    List.intercalate_singleton, hnonce, List.append_assoc, List.append_cancel_left_eq,
    List.cons_append, List.nil_append, List.cons.injEq, true_and] at h
  obtain ⟨hi,he⟩ := eq_of_first (newline_toISOString issuedAt) (newline_toISOString issuedAt') h
  exact ⟨hi,List.append_cancel_left he⟩

def taking (pool : AuthPool) (who : Nat) : Bool :=
  match pool.threads[who]? with
  | some ⟨.verify _ _ _, .call (.getdel _) _⟩ => true
  | _ => false

theorem ownText_of_idle {config : AuthConfig} {pool : AuthPool} {who : Nat}
    (h : taking pool who = false) : OwnText config pool (.turn who) := by
  intro pubkey message signature parsed k hthread
  rw [taking, hthread] at h
  cases h

def callOf (pool : AuthPool) (i : Nat) : Option AuthCall := (pool.threads[i]?).map Thread.call

theorem thread_of_result {pool : AuthPool} {i : Nat} {call : AuthCall} {r : AuthResult}
    (hc : callOf pool i = some call) (hr : pool.result i = some (.ok r)) :
    pool.threads[i]? = some ⟨call, .done r⟩ := by
  obtain ⟨call',ht⟩ := result_done hr
  rw [callOf, ht] at hc
  cases hc
  exact ht

section TwoCalls
variable {config : AuthConfig} {pool : AuthPool} {pubkey message signature issued : JsString}
variable (hlength : pool.threads.length = 2)
variable (hverify : callOf pool 1 = some (.verify pubkey message signature))
variable (hissued : pool.result 0 = some (.ok (.message issued)))
include hlength hverify hissued

/-- After one challenge, a token is for its text or for none the server has issued. -/
theorem unbound_of_other (htoken : pool.result 1 = some (.ok (.token pubkey)))
    (hne : issued ≠ message) : ¬ Bound config pool := by
  intro h
  obtain ⟨⟨j,rest,hj,hr,_⟩,_⟩ := h 1 _ _ _ _ (thread_of_result hverify htoken)
  have hlt : j < 2 := hlength ▸ (List.getElem?_eq_some_iff.mp hj).1
  obtain rfl | rfl : j = 0 ∨ j = 1 := by omega
  · rw [hissued] at hr
    cases hr
    exact hne rfl
  · rw [callOf, hj] at hverify
    cases hverify

theorem ownText_of_issued {random : Program.Bytes nonceBytes} {issuedAt : Nat}
    (hbuild : issued = buildSignInMessage (issuedFields config pubkey random issuedAt))
    (hsame : message = issued)
    (hparse : parseSignInMessage message = some (issuedFields config pubkey random issuedAt)) :
    OwnText config pool (.turn 1) := by
  intro pubkey' message' signature' parsed k hthread hparse' _ _ _ j random' issuedAt' hj hr hnonce
  rw [callOf, hthread] at hverify
  cases hverify
  cases hparse.symm.trans hparse'
  have hlt : j < 2 := by
    by_contra hge
    rw [challenged, List.getElem?_eq_none (by omega)] at hj
    cases hj
  obtain rfl | rfl : j = 0 ∨ j = 1 := by omega
  · rw [hissued, hbuild] at hr
    simp only [Option.some.injEq, Except.ok.injEq, AuthResult.message.injEq] at hr
    obtain ⟨hdate,hexpires⟩ := dates_of_text hnonce hr
    exact ⟨hsame.trans hbuild,rfl,hdate,hexpires⟩
  · rw [challenged, hthread] at hj
    cases hj

end TwoCalls

/-- The wallet signs another site's text around the server's nonce, and is signed in. -/
theorem foreign_unbound :
    (signedIn foreignText foreignSignature).result 1 = some (.ok (.token wallet)) ∧
    ¬ Bound .sample (signedIn foreignText foreignSignature) := by
  have hrun : (signedIn foreignText foreignSignature).result 1 = some (.ok (.token wallet)) ∧
      callOf (signedIn foreignText foreignSignature) 1 =
        some (.verify wallet foreignText foreignSignature) ∧
      (signedIn foreignText foreignSignature).result 0 = some (.ok (.message walletText)) ∧
      (signedIn foreignText foreignSignature).threads.length = 2 := by decide +kernel
  obtain ⟨htoken,hverify,hissued,hlength⟩ := hrun
  exact ⟨htoken,unbound_of_other hlength hverify hissued htoken (by decide)⟩

def walletEvents : List AuthEvent :=
  challengeEvents ++ [.spawn (.verify wallet walletText walletSignature), .turn 1]

/-- The pool whose next turn takes the wallet's nonce. -/
def walletWaits : AuthPool :=
  AuthPool.after .sample (AuthWorld.start sampleNow [sampleRandom]) walletEvents

theorem wallet_own : OwnText .sample walletWaits (.turn 1) := by
  have hrun : callOf walletWaits 1 = some (.verify wallet walletText walletSignature) ∧
      walletWaits.result 0 = some (.ok (.message walletText)) ∧ walletWaits.threads.length = 2 := by
    decide +kernel
  obtain ⟨hverify,hissued,hlength⟩ := hrun
  have hbuild : walletText =
      buildSignInMessage (issuedFields .sample wallet sampleRandom sampleNow) := by decide +kernel
  exact ownText_of_issued hlength hverify hissued hbuild rfl (by decide +kernel)

theorem wallet_along :
    Along (Pool.step AuthWorld.handle (AuthCall.body .sample) AuthWorld.act) (OwnText .sample)
      (Pool.init (AuthWorld.start sampleNow [sampleRandom])) (walletEvents ++ [.turn 1]) :=
  along_append.mpr
    ⟨⟨trivial,ownText_of_idle (by decide),ownText_of_idle (by decide),
      ownText_of_idle (by decide),ownText_of_idle (by decide),trivial,
      ownText_of_idle (by decide +kernel),trivial⟩,wallet_own,trivial⟩

/-- The wallet signs what the server has issued. -/
theorem wallet_bound : Bound .sample (AuthPool.after .sample
    (AuthWorld.start sampleNow [sampleRandom]) (walletEvents ++ [.turn 1])) :=
  message_bound .sample SingleUse.sample_alphabetic sampleNow [sampleRandom]
    (List.nodup_singleton _) _ wallet_along

end Tagwise.Proofs.SignIn
