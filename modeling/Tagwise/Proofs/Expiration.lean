import Tagwise.Api.Sample

namespace Tagwise.Proofs.Expiration
open Js Lib Api

/-- The text parses, for the pubkey of the request, and its expiration is an instant that has
not passed. -/
def Current (config : AuthConfig) (w : AuthWorld) (pubkey message : JsString) : Prop :=
  ∃ parsed expires, parseSignInMessage message = some parsed ∧ parsed.pubkey = pubkey ∧
    dateTime config.kit.otherDate parsed.expirationTime = some expires ∧ (w.now : Int) ≤ expires

/-- Only a current text gives a token, and any other is an error that leaves every nonce. -/
def Guarded (config : AuthConfig) (w : AuthWorld) (pubkey message signature : JsString) : Prop :=
  ∃ w' result, (verify config pubkey message signature).run AuthWorld.handle w = some (w', result) ∧
    (∀ sub, result = .ok (.token sub) → Current config w pubkey message) ∧
    (¬ Current config w pubkey message →
      (∃ error, result = .error error) ∧ ∀ key, w'.live key = w.live key)

/-- A text for the pubkey of the request whose expiration is no date, around a nonce that is
there to be taken. -/
def Undated (config : AuthConfig) (w : AuthWorld) (pubkey message : JsString) : Prop :=
  ∃ parsed, parseSignInMessage message = some parsed ∧ parsed.pubkey = pubkey ∧
    dateTime config.kit.otherDate parsed.expirationTime = none ∧ w.redisUp = true ∧
    w.live (RedisNonceStore.key config pubkey parsed.nonce) ≠ none

section Runs
variable {config : AuthConfig} {w : AuthWorld} {pubkey message : JsString}

/-- Without a date nothing has expired. -/
theorem expired_iff (kit : Kit) (text : JsString) (now : Nat) : expired kit text now = true ↔
    ∃ expires, dateTime kit.otherDate text = some expires ∧ expires < (now : Int) := by
  rw [expired, Option.any_eq_true]
  simp

/-- The checks before the nonce, each with an error of its own. -/
theorem verify_rejects (signature : JsString)
    (h : ∀ parsed, parseSignInMessage message = some parsed → parsed.pubkey = pubkey →
      expired config.kit parsed.expirationTime w.now = true) :
    ∃ error, (verify config pubkey message signature).run AuthWorld.handle w =
      some (w, .error error) := by
  rw [verify]
  cases hparse : parseSignInMessage message with
  | none => exact ⟨_,rfl⟩
  | some parsed =>
    by_cases hp : parsed.pubkey = pubkey
    · simp only [ne_eq, hp, not_true_eq_false, ↓reduceIte]
      have hnow : dateNow.run AuthWorld.handle w = some (w, .ok w.now) := rfl
      rw [Prog.run_bind_ok hnow, if_pos (h parsed hparse hp)]
      exact ⟨_,rfl⟩
    · simp only [ne_eq, hp, not_false_eq_true, ↓reduceIte]
      exact ⟨_,rfl⟩

/-- The step past them. -/
theorem verify_takes (signature : JsString) {parsed : SignInMessageFields}
    (hparse : parseSignInMessage message = some parsed) (hp : parsed.pubkey = pubkey)
    (hnot : expired config.kit parsed.expirationTime w.now = false) :
    (verify config pubkey message signature).run AuthWorld.handle w =
      (RedisNonceStore.take config pubkey parsed.nonce >>= fun consumed =>
        if consumed.isNone then
          (.fail (.unauthorized (js "nonce is missing, expired, or already used")) :
            AuthAsync AuthResult)
        else if !verifySignature config.kit message signature pubkey then
          .fail (.unauthorized (js "signature verification failed"))
        else return .token pubkey).run AuthWorld.handle w := by
  have hnow : dateNow.run AuthWorld.handle w = some (w, .ok w.now) := rfl
  simp only [verify, hparse, ne_eq, hp, not_true_eq_false, ↓reduceIte]
  rw [Prog.run_bind_ok hnow, if_neg (by rw [hnot]; exact Bool.false_ne_true)]

section Take
variable (config w pubkey) (nonce : JsString) (f : Option NonceRecord → AuthAsync AuthResult)

theorem take_up (up : w.redisUp = true) :
    (RedisNonceStore.take config pubkey nonce >>= f).run AuthWorld.handle w =
      (f ((w.live (RedisNonceStore.key config pubkey nonce)).map
        (fun entry => ⟨pubkey,nonce,entry.value⟩))).run AuthWorld.handle
          (w.put (RedisNonceStore.key config pubkey nonce) none) := by
  have hdel : (getdel (RedisNonceStore.key config pubkey nonce)).run AuthWorld.handle w =
      some (w.put (RedisNonceStore.key config pubkey nonce) none,
        .ok (.ok ((w.live (RedisNonceStore.key config pubkey nonce)).map RedisEntry.value))) :=
    (Prog.run_call (if_pos up)).trans rfl
  rw [RedisNonceStore.take, Prog.bind_assoc, Prog.run_bind_ok hdel]
  cases w.live (RedisNonceStore.key config pubkey nonce) <;> rfl

theorem take_down (down : w.redisUp = false) :
    (RedisNonceStore.take config pubkey nonce >>= f).run AuthWorld.handle w =
      some (w, .error (.serviceUnavailable (js "nonce store is unavailable"))) := by
  have hno : ¬ w.redisUp = true := by simp [down]
  have hdel : (getdel (RedisNonceStore.key config pubkey nonce)).run AuthWorld.handle w =
      some (w, .ok (.error ())) := (Prog.run_call (if_neg hno)).trans rfl
  rw [RedisNonceStore.take, Prog.bind_assoc, Prog.run_bind_ok hdel]
  rfl

end Take

/-- Deleting what is not there changes nothing that can be found. -/
theorem live_put_none {key : JsString} (h : w.live key = none) (key' : JsString) :
    (w.put key none).live key' = w.live key' := by
  by_cases hk : encodeUtf8 key' = encodeUtf8 key
  · have hsame : w.live key' = w.live key := by
      rw [AuthWorld.live, hk]
      rfl
    rw [hsame, h, AuthWorld.live, AuthWorld.put]
    simp only [hk, Function.update_self]
    rfl
  · simp only [AuthWorld.live, AuthWorld.put, Function.update_of_ne hk]
    rfl

/-- An undated text has its nonce taken, whatever its signature. -/
theorem undated_taken (signature : JsString) (h : Undated config w pubkey message) :
    ¬ Guarded config w pubkey message signature := by
  obtain ⟨parsed,hparse,hp,hdate,hup,hlive⟩ := h
  intro ⟨w',result,hrun,_,hkept⟩
  have hnot : expired config.kit parsed.expirationTime w.now = false := by
    rw [Bool.eq_false_iff, ne_eq, expired_iff, hdate]
    simp
  have hundated : ¬ Current config w pubkey message := by
    intro ⟨parsed',expires,hparse',_,hdate',_⟩
    cases hparse.symm.trans hparse'
    cases hdate.symm.trans hdate'
  have hsame := (hkept hundated).2 (RedisNonceStore.key config pubkey parsed.nonce)
  have htaken : w' = w.put (RedisNonceStore.key config pubkey parsed.nonce) none := by
    rw [verify_takes signature hparse hp hnot, take_up config w pubkey parsed.nonce _ hup] at hrun
    obtain ⟨entry,he⟩ := Option.ne_none_iff_exists'.mp hlive
    rw [he] at hrun
    simp only [Option.map_some, Option.isNone_some, Bool.false_eq_true, ↓reduceIte] at hrun
    split at hrun
    · cases hrun
      rfl
    · cases hrun
      rfl
  refine hlive (hsame.symm.trans ?_)
  rw [htaken, AuthWorld.live, AuthWorld.put]
  simp

theorem guarded_of_dated (signature : JsString) (h : ¬ Undated config w pubkey message) :
    Guarded config w pubkey message signature := by
  by_cases hrejects : ∀ parsed, parseSignInMessage message = some parsed → parsed.pubkey = pubkey →
      expired config.kit parsed.expirationTime w.now = true
  · obtain ⟨error,hrun⟩ := verify_rejects signature hrejects
    exact ⟨w,_,hrun,fun sub hr => (by cases hr),fun _ => ⟨⟨error,rfl⟩,fun _ => rfl⟩⟩
  push Not at hrejects
  obtain ⟨parsed,hparse,hp,hnot⟩ := hrejects
  have hnot := Bool.eq_false_iff.mpr hnot
  have hrun := verify_takes signature hparse hp hnot
  by_cases hup : w.redisUp = true
  · rw [take_up config w pubkey parsed.nonce _ hup] at hrun
    cases hdate : dateTime config.kit.otherDate parsed.expirationTime with
    | some expires =>
      have hcurrent : Current config w pubkey message := by
        refine ⟨parsed,expires,hparse,hp,hdate,?_⟩
        by_contra hlt
        rw [Bool.eq_false_iff, ne_eq, expired_iff] at hnot
        exact hnot ⟨expires,hdate,Int.lt_of_not_ge hlt⟩
      split at hrun
      · exact ⟨_,_,hrun,fun _ _ => hcurrent,fun hno => absurd hcurrent hno⟩
      · split at hrun
        · exact ⟨_,_,hrun,fun _ _ => hcurrent,fun hno => absurd hcurrent hno⟩
        · exact ⟨_,_,hrun,fun _ _ => hcurrent,fun hno => absurd hcurrent hno⟩
    | none =>
      have hmissing : w.live (RedisNonceStore.key config pubkey parsed.nonce) = none := by
        by_contra hlive
        exact h ⟨parsed,hparse,hp,hdate,hup,hlive⟩
      rw [hmissing] at hrun
      exact ⟨_,_,hrun,fun sub hr => (by cases hr),
        fun _ => ⟨⟨_,rfl⟩,fun key => live_put_none hmissing key⟩⟩
  · rw [take_down config w pubkey parsed.nonce _ (Bool.eq_false_iff.mpr hup)] at hrun
    exact ⟨_,_,hrun,fun sub hr => (by cases hr),fun _ => ⟨⟨_,rfl⟩,fun _ => rfl⟩⟩

end Runs

/-- The check of the date guards the tokens and the nonces of all texts but the undated ones. -/
theorem guarded_iff (config : AuthConfig) (w : AuthWorld) (pubkey message signature : JsString) :
    Guarded config w pubkey message signature ↔ ¬ Undated config w pubkey message :=
  ⟨fun hg hu => undated_taken signature hu hg,guarded_of_dated signature⟩

/-- What the wallet was given, with a word for its expiration. -/
def undatedText : JsString := buildSignInMessage
  { domain := js "tagwise.me"
    pubkey := wallet
    nonce := hex sampleRandom
    issuedAt := js "2026-01-15T12:00:00.000Z"
    expirationTime := js "never" }

def undatedSignature : JsString :=
  js ("2wUxmnyh1e7TFmT1fgqoUSU6Va3fKjoGLmBJ4MUCai9wkYUhAAeVJYaLdfdEhJ12nQbvw3pLm9ZBDsaNyRvNq8U6")

def undatedConfig : AuthConfig :=
  { AuthConfig.sample with
    kit := { sampleKit with
      detachedVerify := fun message signature pubkey => pubkey == walletKey.data &&
        message == encodeUtf8 undatedText && decodeBase58 undatedSignature == some signature } }

/-- The wallet's nonce, issued at the start. -/
def nonceIssued : AuthWorld :=
  (AuthWorld.start sampleNow []).put (RedisNonceStore.key undatedConfig wallet (hex sampleRandom))
    (some ⟨decimal (sampleNow + 300000),sampleNow + 300000⟩)

theorem undated_token :
    ((verify undatedConfig wallet undatedText undatedSignature).run AuthWorld.handle nonceIssued).map
        Prod.snd = some (.ok (.token wallet)) ∧
    ¬ Guarded undatedConfig nonceIssued wallet undatedText undatedSignature := by
  have hrun : ((verify undatedConfig wallet undatedText undatedSignature).run AuthWorld.handle
      nonceIssued).map Prod.snd = some (.ok (.token wallet)) := by decide +kernel
  refine ⟨hrun,fun ⟨w',result,hr,htoken,_⟩ => ?_⟩
  rw [hr] at hrun
  cases hrun
  obtain ⟨parsed,expires,hparse,_,hdate,_⟩ := htoken wallet rfl
  have hnone : (parseSignInMessage undatedText).all
      (fun parsed => dateTime undatedConfig.kit.otherDate parsed.expirationTime = none) = true := by
    decide +kernel
  rw [hparse, Option.all_some, decide_eq_true_eq, hdate] at hnone
  cases hnone

end Tagwise.Proofs.Expiration
