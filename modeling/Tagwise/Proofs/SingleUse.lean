import Tagwise.Api.Sample
import Tagwise.Lib.Record

namespace Tagwise.Proofs.SingleUse
open Js Api Lib

/-- The kit accepts as addresses only base-58 texts. -/
def Alphabetic (kit : Kit) : Prop :=
  ∀ s, kit.isAddress s = true → ∀ u ∈ s, u ∈ Program.base58Alphabet

def colon : UInt16 := 58

theorem base58_units : ∀ u ∈ Program.base58Alphabet, u.toNat < 128 ∧ u ≠ colon := by
  have hall : Program.base58Alphabet.all (fun u => u.toNat < 128 && u != colon) = true := by
    decide
  intro u hu
  simpa using List.all_eq_true.mp hall u hu

theorem hexDigit_unit : ∀ n < 16, (hexDigit n).toNat < 128 ∧ hexDigit n ≠ colon := by
  decide

theorem hexDigit_injective : ∀ n < 16, ∀ m < 16, hexDigit n = hexDigit m → n = m := by
  decide

theorem hexByte_injective {a b : UInt8} (h : hexByte a = hexByte b) : a = b := by
  simp only [hexByte, List.cons.injEq, and_true] at h
  have ha := a.toNat_lt
  have hb := b.toNat_lt
  have hhigh := hexDigit_injective _ (by omega) _ (by omega) h.1
  have hlow := hexDigit_injective _ (by omega) _ (by omega) h.2
  apply UInt8.toNat_inj.mp
  omega

theorem flatMap_hexByte_injective : ∀ {as bs : List UInt8},
    as.flatMap hexByte = bs.flatMap hexByte → as = bs
  | [], [], _ => rfl
  | [], _ :: _, h => by simp [hexByte] at h
  | _ :: _, [], h => by simp [hexByte] at h
  | a :: as, b :: bs, h => by
    rw [List.flatMap_cons, List.flatMap_cons] at h
    obtain ⟨hab,hrest⟩ := List.append_inj h rfl
    rw [hexByte_injective hab, flatMap_hexByte_injective hrest]

theorem hex_injective {a b : Program.Bytes nonceBytes} (h : hex a = hex b) : a = b := by
  cases a
  cases b
  cases flatMap_hexByte_injective h
  rfl

theorem hex_units (bytes : Program.Bytes nonceBytes) :
    ∀ u ∈ hex bytes, u.toNat < 128 ∧ u ≠ colon := by
  intro u hu
  obtain ⟨b,_,hb⟩ := List.mem_flatMap.mp hu
  have hlt := b.toNat_lt
  simp only [hexByte, List.mem_cons, List.not_mem_nil, or_false] at hb
  rcases hb with rfl | rfl
  · exact hexDigit_unit _ (by omega)
  · exact hexDigit_unit _ (by omega)

/-- The key of a challenge is no other pair's key, whatever the pair is made of. -/
theorem key_injective {config : AuthConfig} (hkit : Alphabetic config.kit)
    {pubkey nonce pubkey' : JsString} {random : Program.Bytes nonceBytes}
    (ha : config.kit.isAddress pubkey' = true)
    (h : encodeUtf8 (RedisNonceStore.key config pubkey nonce) =
      encodeUtf8 (RedisNonceStore.key config pubkey' (hex random))) :
    pubkey = pubkey' ∧ nonce = hex random := by
  have hkey : ∀ p n, RedisNonceStore.key config p n =
      config.redisKeyPrefix ++ (110 :: (js "once:" ++ (p ++ colon :: n))) := by
    intro p n
    simp only [RedisNonceStore.key, redisKey, List.intercalate_cons_cons,
      List.intercalate_singleton, List.append_assoc]
    rfl
  have haddress : ∀ u ∈ pubkey', u.toNat < 128 ∧ u ≠ colon :=
    fun u hu => base58_units u (hkit _ ha u hu)
  have hascii : Ascii (110 :: (js "once:" ++ (pubkey' ++ colon :: hex random))) := by
    have hword : Ascii (js "once:") := by
      have hall : (js "once:").all (fun u => u.toNat < 128) = true := by decide
      intro u hu
      simpa using List.all_eq_true.mp hall u hu
    intro u hu
    simp only [List.mem_cons, List.mem_append] at hu
    rcases hu with rfl | hu | hu | rfl | hu
    · decide
    · exact hword u hu
    · exact (haddress u hu).1
    · decide
    · exact (hex_units random u hu).1
  rw [hkey, hkey, encodeUtf8_append _ (by decide), encodeUtf8_append _ (by decide)] at h
  have htail := eq_of_encodeUtf8 hascii (List.append_cancel_left h)
  have hsplit := (List.append_cons_inj_of_notMem (fun hc => (haddress colon hc).2 rfl)
    (fun hc => (hex_units random colon hc).2 rfl)).mp
    (List.append_cancel_left (List.cons.inj htail).2).symm
  exact ⟨hsplit.1.symm,hsplit.2.2.symm⟩

abbrev AuthEntry := Entry AuthCommand AuthReply AuthWorld

def drew : AuthEntry → Option (Program.Bytes nonceBytes)
  | ⟨_, _, .randomBytes, random⟩ => some random
  | _ => none

def stored : AuthEntry → Option (List UInt8)
  | ⟨_, _, .setEx key _ _, .ok ()⟩ => some (encodeUtf8 key)
  | _ => none

def taken : AuthEntry → Option (List UInt8)
  | ⟨_, _, .getdel key, .ok (some _)⟩ => some (encodeUtf8 key)
  | _ => none

/-- A challenge that has stored its nonce: everything it sent, and what it returns. -/
structure Stores (config : AuthConfig) (pubkey : JsString) (es : List AuthEntry)
    (q : AuthAsync AuthResult) (e : AuthEntry) (random : Program.Bytes nonceBytes)
    (issuedAt : Nat) : Prop where
  address : config.kit.isAddress pubkey = true
  sent : ∃ a b c, es = [a, b, c, e] ∧ drew a = some random ∧
    stored a = none ∧ stored b = none ∧ stored c = none
  command : ∃ value, e.command = .setEx (RedisNonceStore.key config pubkey (hex random)) value
    config.authNonceTtlSeconds
  key : stored e = some (encodeUtf8 (RedisNonceStore.key config pubkey (hex random)))
  returns : q = .done (.message (buildSignInMessage (issuedFields config pubkey random issuedAt)))

/-- Until its nonce is stored a challenge has returned nothing. -/
theorem challenge_follows {config : AuthConfig} {pubkey : JsString} {es : List AuthEntry}
    {q : AuthAsync AuthResult} (h : Follows (challenge config pubkey) es q) :
    (∃ e random issuedAt, Stores config pubkey es q e random issuedAt) ∨
    (∀ e ∈ es, stored e = none) ∧ ∀ r, q ≠ .done r := by
  unfold challenge at h
  by_cases ha : config.kit.isAddress pubkey = true
  · simp only [ha, Bool.not_true, Bool.false_eq_true, ↓reduceIte] at h
    rcases Follows.call_inv h with ⟨rfl,rfl⟩ | ⟨i1,f1,random,rest1,rfl,h1⟩
    · exact .inr ⟨by simp,fun r hr => by cases hr⟩
    rcases Follows.call_inv h1 with ⟨rfl,rfl⟩ | ⟨i2,f2,issuedAt,rest2,rfl,h2⟩
    · exact .inr ⟨by simp [stored],fun r hr => by cases hr⟩
    rcases Follows.call_inv h2 with ⟨rfl,rfl⟩ | ⟨i3,f3,now,rest3,rfl,h3⟩
    · exact .inr ⟨by simp [stored],fun r hr => by cases hr⟩
    rcases Follows.call_inv h3 with ⟨rfl,rfl⟩ | ⟨i4,f4,r,rest4,rfl,h4⟩
    · exact .inr ⟨by simp [stored],fun r hr => by cases hr⟩
    cases r with
    | error u =>
      obtain ⟨rfl,rfl⟩ := Follows.fail_inv h4
      exact .inr ⟨by simp [stored],fun r hr => by cases hr⟩
    | ok u =>
      obtain ⟨rfl,rfl⟩ := Follows.done_inv h4
      exact .inl ⟨_,random,issuedAt,ha,⟨_,_,_,rfl,rfl,rfl,rfl,rfl⟩,⟨_,rfl⟩,rfl,rfl⟩
  · simp only [ha, Bool.not_false, ↓reduceIte] at h
    obtain ⟨rfl,rfl⟩ := Follows.fail_inv h
    exact .inr ⟨by simp,fun r hr => by cases hr⟩

/-- A verify that has consumed a nonce: everything it sent, and what it may return. -/
structure Consumes (config : AuthConfig) (pubkey message signature : JsString)
    (es : List AuthEntry) (q : AuthAsync AuthResult) (e : AuthEntry)
    (parsed : SignInMessageFields) : Prop where
  parses : parseSignInMessage message = some parsed
  same : parsed.pubkey = pubkey
  sent : ∃ a, es = [a, e] ∧ taken a = none
  command : e.command = .getdel (RedisNonceStore.key config pubkey parsed.nonce)
  key : taken e = some (encodeUtf8 (RedisNonceStore.key config pubkey parsed.nonce))
  returns : ∀ r, q = .done r →
    r = .token pubkey ∧ verifySignature config.kit message signature pubkey = true

/-- Until it has consumed a nonce a verify has returned nothing. -/
theorem verify_follows {config : AuthConfig} {pubkey message signature : JsString}
    {es : List AuthEntry} {q : AuthAsync AuthResult}
    (h : Follows (verify config pubkey message signature) es q) :
    (∃ e parsed, Consumes config pubkey message signature es q e parsed) ∨
    (∀ e ∈ es, taken e = none) ∧ ∀ r, q ≠ .done r := by
  unfold verify at h
  cases hparse : parseSignInMessage message with
  | none =>
    rw [hparse] at h
    obtain ⟨rfl,rfl⟩ := Follows.fail_inv h
    exact .inr ⟨by simp,fun r hr => by cases hr⟩
  | some parsed =>
    rw [hparse] at h
    by_cases hp : parsed.pubkey = pubkey
    · simp only [hp, ne_eq, not_true_eq_false, ↓reduceIte, dateNow, Prog.request_bind] at h
      rcases Follows.call_inv h with ⟨rfl,rfl⟩ | ⟨i1,f1,now,rest1,rfl,h1⟩
      · exact .inr ⟨by simp,fun r hr => by cases hr⟩
      by_cases hx : expired config.kit parsed.expirationTime now = true
      · rw [if_pos hx] at h1
        obtain ⟨rfl,rfl⟩ := Follows.fail_inv h1
        exact .inr ⟨by simp [taken],fun r hr => by cases hr⟩
      · rw [if_neg hx, RedisNonceStore.take, getdel, Prog.bind_assoc, Prog.request_bind] at h1
        rcases Follows.call_inv h1 with ⟨rfl,rfl⟩ | ⟨i2,f2,r,rest2,rfl,h2⟩
        · exact .inr ⟨by simp [taken],fun r hr => by cases hr⟩
        cases r with
        | error u =>
          obtain ⟨rfl,rfl⟩ := Follows.fail_inv h2
          exact .inr ⟨by simp [taken],fun r hr => by cases hr⟩
        | ok found =>
          cases found with
          | none =>
            obtain ⟨rfl,rfl⟩ := Follows.fail_inv h2
            exact .inr ⟨by simp [taken],fun r hr => by cases hr⟩
          | some value =>
            simp only [Prog.pure_done, Prog.done_bind, Option.isNone_some, Bool.false_eq_true,
              ↓reduceIte] at h2
            by_cases hv : verifySignature config.kit message signature pubkey = true
            · simp only [hv, Bool.not_true, Bool.false_eq_true, ↓reduceIte] at h2
              obtain ⟨rfl,rfl⟩ := Follows.done_inv h2
              refine .inl ⟨_,parsed,hparse,hp,⟨_,rfl,rfl⟩,rfl,rfl,fun r hr => ?_⟩
              cases hr
              exact ⟨rfl,hv⟩
            · simp only [hv, Bool.not_false, ↓reduceIte] at h2
              obtain ⟨rfl,rfl⟩ := Follows.fail_inv h2
              exact .inl ⟨_,parsed,hparse,hp,⟨_,rfl,rfl⟩,rfl,rfl,fun r hr => by cases hr⟩
    · simp only [ne_eq, hp, not_false_eq_true, ↓reduceIte] at h
      obtain ⟨rfl,rfl⟩ := Follows.fail_inv h
      exact .inr ⟨by simp,fun r hr => by cases hr⟩

def isSetEx : AuthCommand → Bool
  | .setEx _ _ _ => true
  | _ => false

def isGetdel : AuthCommand → Bool
  | .getdel _ => true
  | _ => false

theorem challenge_never_takes (config : AuthConfig) (pubkey : JsString) :
    (challenge config pubkey).Always (fun c => isGetdel c = false) := by
  refine Prog.always_ite trivial ⟨rfl,fun random => ⟨rfl,fun issuedAt => ⟨rfl,fun now =>
    ⟨rfl,fun r => ?_⟩⟩⟩⟩
  cases r with
  | ok u => exact trivial
  | error u => exact trivial

theorem take_never_stores (config : AuthConfig) (pubkey nonce : JsString) :
    (RedisNonceStore.take config pubkey nonce).Always (fun c => isSetEx c = false) := by
  refine ⟨rfl,fun r => ?_⟩
  match r with
  | .error u => exact trivial
  | .ok none => exact trivial
  | .ok (some value) => exact trivial

theorem verify_never_stores (config : AuthConfig) (pubkey message signature : JsString) :
    (verify config pubkey message signature).Always (fun c => isSetEx c = false) := by
  unfold verify
  cases parseSignInMessage message with
  | none => exact trivial
  | some parsed =>
    simp only [dateNow, Prog.request_bind]
    refine Prog.always_ite trivial ((Prog.always_call _ _).mpr ⟨rfl,fun now =>
      Prog.always_ite trivial (Prog.always_bind (take_never_stores config pubkey parsed.nonce)
        (fun consumed => Prog.always_ite trivial (Prog.always_ite trivial ?_)))⟩)
    exact trivial

theorem stored_command {e : AuthEntry} (h : stored e ≠ none) : isSetEx e.command = true := by
  obtain ⟨who,found,c,r⟩ := e
  cases c with
  | setEx key value ttl => rfl
  | randomBytes | dateNow | getdel => exact absurd rfl h

theorem taken_command {e : AuthEntry} (h : taken e ≠ none) : isGetdel e.command = true := by
  obtain ⟨who,found,c,r⟩ := e
  cases c with
  | getdel key => rfl
  | randomBytes | dateNow | setEx => exact absurd rfl h

section Threads
variable {config : AuthConfig} {pool : AuthPool}
variable (h : Recorded AuthWorld.handle (AuthCall.body config) pool)
include h

theorem thread_of {e : AuthEntry} (he : e ∈ pool.trace) : ∃ t, pool.threads[e.who]? = some t ∧
    Follows (t.call.body config) (own pool.trace e.who) t.rest := by
  obtain ⟨t,ht⟩ : ∃ t, pool.threads[e.who]? = some t :=
    ⟨_,List.getElem?_eq_getElem (h.known e he)⟩
  exact ⟨t,ht,h.follows _ t ht⟩

/-- A stored nonce is the doing of a challenge, which has returned its message. -/
theorem stored_by {e : AuthEntry} (he : e ∈ pool.trace) (hs : stored e ≠ none) :
    ∃ pubkey rest random issuedAt, pool.threads[e.who]? = some ⟨.challenge pubkey, rest⟩ ∧
      Stores config pubkey (own pool.trace e.who) rest e random issuedAt := by
  obtain ⟨⟨call,rest⟩,ht,hf⟩ := thread_of h he
  have hown := mem_own.mpr ⟨he,rfl⟩
  cases call with
  | challenge pubkey =>
    rcases challenge_follows hf with ⟨e',random,issuedAt,hst⟩ | ⟨hnone,_⟩
    · obtain ⟨a,b,c,hes,_,ha,hb,hc⟩ := hst.sent
      rw [hes] at hown
      simp only [List.mem_cons, List.not_mem_nil, or_false] at hown
      rcases hown with rfl | rfl | rfl | rfl
      · exact absurd ha hs
      · exact absurd hb hs
      · exact absurd hc hs
      · exact ⟨pubkey,rest,random,issuedAt,ht,hst⟩
    · exact absurd (hnone e hown) hs
  | verify pubkey message signature =>
    have hnever := hf.always (verify_never_stores config pubkey message signature) e hown
    rw [stored_command hs] at hnever
    cases hnever

/-- A consumed nonce is the doing of a verify, which has parsed it. -/
theorem taken_by {e : AuthEntry} (he : e ∈ pool.trace) (ht : taken e ≠ none) :
    ∃ pubkey message signature rest parsed,
      pool.threads[e.who]? = some ⟨.verify pubkey message signature, rest⟩ ∧
      Consumes config pubkey message signature (own pool.trace e.who) rest e parsed := by
  obtain ⟨⟨call,rest⟩,hthread,hf⟩ := thread_of h he
  have hown := mem_own.mpr ⟨he,rfl⟩
  cases call with
  | challenge pubkey =>
    have hnever := hf.always (challenge_never_takes config pubkey) e hown
    rw [taken_command ht] at hnever
    cases hnever
  | verify pubkey message signature =>
    rcases verify_follows hf with ⟨e',parsed,hco⟩ | ⟨hnone,_⟩
    · obtain ⟨a,hes,ha⟩ := hco.sent
      rw [hes] at hown
      simp only [List.mem_cons, List.not_mem_nil, or_false] at hown
      rcases hown with rfl | rfl
      · exact absurd ha ht
      · exact ⟨pubkey,message,signature,rest,parsed,hthread,hco⟩
    · exact absurd (hnone e hown) ht

end Threads

/-- The state of the nonce keys against everything that was sent. -/
structure Ledger (config : AuthConfig) (pool : AuthPool) : Prop where
  recorded : Recorded AuthWorld.handle (AuthCall.body config) pool
  draws : (pool.trace.filterMap drew ++ pool.shared.random).Nodup
  held : ∀ kb entry, pool.shared.redis kb = some entry → kb ∉ pool.trace.filterMap taken ∧
    ∃ e ∈ pool.trace, stored e = some kb ∧
      entry.lastMs = e.found.now + config.authNonceTtlSeconds * 1000
  once : (pool.trace.filterMap taken).Nodup
  earlier : ∀ e ∈ pool.trace, ∀ kb, taken e = some kb → ∃ before after,
    pool.trace = before ++ e :: after ∧ ∃ put ∈ before, stored put = some kb ∧
      e.found.now ≤ put.found.now + config.authNonceTtlSeconds * 1000

/-- A key is stored by one entry only: its nonce was drawn once. -/
theorem stored_fresh {config : AuthConfig} (hkit : Alphabetic config.kit) {pool : AuthPool}
    (h : Recorded AuthWorld.handle (AuthCall.body config) pool)
    (hdraws : (pool.trace.filterMap drew).Nodup) {trace : List AuthEntry} {e e' : AuthEntry}
    (htrace : pool.trace = trace ++ [e]) {kb : List UInt8} (hs : stored e = some kb)
    (he' : e' ∈ trace) : stored e' ≠ some kb := by
  intro hs'
  have hmem : e ∈ pool.trace := by rw [htrace]; simp
  have hmem' : e' ∈ pool.trace := by rw [htrace]; exact List.mem_append_left _ he'
  obtain ⟨pubkey,rest,random,_,ht,hst⟩ := stored_by h hmem (by rw [hs]; simp)
  obtain ⟨pubkey',rest',random',_,ht',hst'⟩ := stored_by h hmem' (by rw [hs']; simp)
  have hkeys : encodeUtf8 (RedisNonceStore.key config pubkey' (hex random')) =
      encodeUtf8 (RedisNonceStore.key config pubkey (hex random)) :=
    Option.some.inj (hst'.key.symm.trans (hs'.trans (hs.symm.trans hst.key)))
  have hrandom := hex_injective (key_injective hkit hst.address hkeys).2
  obtain ⟨a,b,c,hown,hdrew,ha,hb,hc⟩ := hst.sent
  obtain ⟨a',_,_,hown',hdrew',_⟩ := hst'.sent
  have hda : a ∈ own pool.trace e.who := by rw [hown]; simp
  have hda' : a' ∈ own pool.trace e'.who := by rw [hown']; simp
  have hsame := eq_of_filterMap_nodup hdraws (mem_own.mp hda).1 (mem_own.mp hda').1 hdrew
    (hrandom ▸ hdrew')
  have hwho : e'.who = e.who := by
    rw [← (mem_own.mp hda).2, hsame, (mem_own.mp hda').2]
  have holder : own trace e.who = [a, b, c] := by
    rw [htrace, own_append, own_self] at hown
    exact List.append_cancel_right (hown.trans (by rfl : [a, b, c, e] = [a, b, c] ++ [e]))
  have hin : e' ∈ own trace e.who := mem_own.mpr ⟨he',hwho⟩
  rw [holder] at hin
  simp only [List.mem_cons, List.not_mem_nil, or_false] at hin
  rcases hin with rfl | rfl | rfl
  · rw [ha] at hs'; cases hs'
  · rw [hb] at hs'; cases hs'
  · rw [hc] at hs'; cases hs'

theorem ledger_start (config : AuthConfig) (now : Nat) {random : List (Program.Bytes nonceBytes)}
    (distinct : random.Nodup) : Ledger config (Pool.init (AuthWorld.start now random)) :=
  ⟨init_recorded _,distinct,fun _ _ h => (by cases h),List.nodup_nil,fun _ h => (by cases h)⟩

/-- What an entry that takes no nonce leaves of the past. -/
theorem earlier_snoc {config : AuthConfig} {trace : List AuthEntry} {e : AuthEntry}
    (h : ∀ e ∈ trace, ∀ kb, taken e = some kb → ∃ before after,
      trace = before ++ e :: after ∧ ∃ put ∈ before, stored put = some kb ∧
        e.found.now ≤ put.found.now + config.authNonceTtlSeconds * 1000)
    (he : ∀ kb, taken e = some kb → ∃ put ∈ trace, stored put = some kb ∧
      e.found.now ≤ put.found.now + config.authNonceTtlSeconds * 1000) :
    ∀ e' ∈ trace ++ [e], ∀ kb, taken e' = some kb → ∃ before after,
      trace ++ [e] = before ++ e' :: after ∧ ∃ put ∈ before, stored put = some kb ∧
        e'.found.now ≤ put.found.now + config.authNonceTtlSeconds * 1000 := by
  intro e' hm kb ht
  rcases List.mem_append.mp hm with hm | hm
  · obtain ⟨before,after,rfl,hput⟩ := h e' hm kb ht
    exact ⟨before,after ++ [e],by simp,hput⟩
  · rw [List.mem_singleton] at hm
    subst hm
    exact ⟨trace,[],rfl,he kb ht⟩

theorem draws_next {w s : AuthWorld} {r : Program.Bytes nonceBytes}
    (h : w.handle .randomBytes = some (s, r)) :
    ∃ random, w.random = r :: random ∧ s = { w with random } := by
  simp only [AuthWorld.handle] at h
  split at h
  · cases h
  · rename_i random hr
    cases h
    exact ⟨random,hr,rfl⟩

theorem held_snoc {config : AuthConfig} {trace : List AuthEntry} {e : AuthEntry}
    {kb : List UInt8} {entry : RedisEntry}
    (h : kb ∉ trace.filterMap taken ∧ ∃ e ∈ trace, stored e = some kb ∧
      entry.lastMs = e.found.now + config.authNonceTtlSeconds * 1000)
    (he : taken e ≠ some kb) :
    kb ∉ (trace ++ [e]).filterMap taken ∧ ∃ e' ∈ trace ++ [e], stored e' = some kb ∧
      entry.lastMs = e'.found.now + config.authNonceTtlSeconds * 1000 := by
  obtain ⟨hn,put,hp,hs⟩ := h
  refine ⟨?_,put,List.mem_append_left _ hp,hs⟩
  rw [List.filterMap_append]
  intro hm
  rcases List.mem_append.mp hm with hm | hm
  · exact hn hm
  · obtain ⟨x,hx,hxt⟩ := List.mem_filterMap.mp hm
    rw [List.mem_singleton.mp hx] at hxt
    exact he hxt

/-- One more entry that neither draws nor takes, in a store that only lost keys. -/
theorem ledger_idle {config : AuthConfig} {pool : AuthPool} (h : Ledger config pool)
    {threads : List (Thread AuthCommand AuthReply AuthError AuthResult AuthCall)}
    {s : AuthWorld} {e : AuthEntry}
    (hrec : Recorded AuthWorld.handle (AuthCall.body config)
      (⟨s, threads, pool.trace ++ [e]⟩ : AuthPool))
    (hrandom : s.random = pool.shared.random)
    (hredis : ∀ kb entry, s.redis kb = some entry → pool.shared.redis kb = some entry)
    (hd : drew e = none) (ht : taken e = none) :
    Ledger config (⟨s, threads, pool.trace ++ [e]⟩ : AuthPool) := by
  refine ⟨hrec,?_,fun kb entry hk => ?_,?_,?_⟩
  · simp only [List.filterMap_append, List.filterMap_cons, hd, List.filterMap_nil, List.append_nil,
      hrandom]
    exact h.draws
  · exact held_snoc (h.held kb entry (hredis kb entry hk)) (by rw [ht]; simp)
  · simp only [List.filterMap_append, List.filterMap_cons, ht, List.filterMap_nil, List.append_nil]
    exact h.once
  · exact earlier_snoc h.earlier (fun kb hk => by rw [ht] at hk; cases hk)

section Turn
variable {config : AuthConfig} {pool : AuthPool} {who : Nat}
  {threads : List (Thread AuthCommand AuthReply AuthError AuthResult AuthCall)}

theorem ledger_draw (h : Ledger config pool) {random : List (Program.Bytes nonceBytes)}
    {r : Program.Bytes nonceBytes} (hr : pool.shared.random = r :: random)
    (hrec : Recorded AuthWorld.handle (AuthCall.body config)
      (⟨{ pool.shared with random }, threads,
        pool.trace ++ [⟨who, pool.shared, .randomBytes, r⟩]⟩ : AuthPool)) :
    Ledger config (⟨{ pool.shared with random }, threads,
      pool.trace ++ [⟨who, pool.shared, .randomBytes, r⟩]⟩ : AuthPool) := by
  refine ⟨hrec,?_,fun kb entry hk => ?_,?_,?_⟩
  · have hdraws := h.draws
    rw [hr] at hdraws
    simp only [List.filterMap_append, List.append_assoc]
    exact hdraws
  · exact held_snoc (h.held kb entry hk) (by simp [taken])
  · simp only [List.filterMap_append]
    exact (List.append_nil _).symm ▸ h.once
  · exact earlier_snoc h.earlier (fun kb hk => by cases hk)

/-- A key is stored before it is taken, so a key just stored was not taken yet. -/
theorem store_untaken (hkit : Alphabetic config.kit) (h : Ledger config pool)
    {key value : JsString} {ttl : Nat} {s : AuthWorld}
    (hrec : Recorded AuthWorld.handle (AuthCall.body config) (⟨s, threads,
      pool.trace ++ [⟨who, pool.shared, .setEx key value ttl, Except.ok ()⟩]⟩ : AuthPool)) :
    encodeUtf8 key ∉ pool.trace.filterMap taken := by
  intro hm
  obtain ⟨e,he,ht⟩ := List.mem_filterMap.mp hm
  obtain ⟨before,after,htr,put,hput,hs,_⟩ := h.earlier e he _ ht
  have hput : put ∈ pool.trace := by
    rw [htr]
    exact List.mem_append_left _ hput
  refine stored_fresh hkit hrec ?_ rfl rfl hput hs
  simp only [List.filterMap_append]
  exact (List.append_nil _).symm ▸ (List.nodup_append.mp h.draws).1

theorem ledger_store (hkit : Alphabetic config.kit) (h : Ledger config pool)
    {key value : JsString} {ttl : Nat}
    (hrec : Recorded AuthWorld.handle (AuthCall.body config)
      (⟨pool.shared.put key (some ⟨value, pool.shared.now + ttl * 1000⟩), threads,
        pool.trace ++ [⟨who, pool.shared, .setEx key value ttl, Except.ok ()⟩]⟩ : AuthPool)) :
    Ledger config (⟨pool.shared.put key (some ⟨value, pool.shared.now + ttl * 1000⟩), threads,
      pool.trace ++ [⟨who, pool.shared, .setEx key value ttl, Except.ok ()⟩]⟩ : AuthPool) := by
  have hnew : (⟨who, pool.shared, .setEx key value ttl, Except.ok ()⟩ : AuthEntry) ∈
      pool.trace ++ [⟨who, pool.shared, .setEx key value ttl, Except.ok ()⟩] := by simp
  refine ⟨hrec,?_,fun kb entry hk => ?_,?_,?_⟩
  · simp only [List.filterMap_append]
    exact (List.append_nil _).symm ▸ h.draws
  · by_cases hkb : kb = encodeUtf8 key
    · subst hkb
      simp only [AuthWorld.put, Function.update_self, Option.some.injEq] at hk
      subst hk
      obtain ⟨_,_,_,_,_,hst⟩ := stored_by hrec hnew (by simp [stored])
      obtain ⟨_,hc⟩ := hst.command
      simp only [AuthCommand.setEx.injEq] at hc
      refine ⟨?_,_,hnew,rfl,by rw [hc.2.2]⟩
      simp only [List.filterMap_append]
      intro hm
      rcases List.mem_append.mp hm with hm | hm
      · exact store_untaken hkit h hrec hm
      · cases hm
    · simp only [AuthWorld.put, ne_eq, hkb, not_false_eq_true, Function.update_of_ne] at hk
      exact held_snoc (h.held kb entry hk) (by simp [taken])
  · simp only [List.filterMap_append]
    exact (List.append_nil _).symm ▸ h.once
  · exact earlier_snoc h.earlier (fun kb hk => by cases hk)

theorem put_none {w : AuthWorld} {key : JsString} {kb : List UInt8} {entry : RedisEntry}
    (h : (w.put key none).redis kb = some entry) :
    kb ≠ encodeUtf8 key ∧ w.redis kb = some entry := by
  by_cases hkb : kb = encodeUtf8 key
  · subst hkb
    simp only [AuthWorld.put, Function.update_self] at h
    cases h
  · simp only [AuthWorld.put, ne_eq, hkb, not_false_eq_true, Function.update_of_ne] at h
    exact ⟨hkb,h⟩

theorem ledger_take (h : Ledger config pool) {key : JsString} {entry : RedisEntry}
    (hlive : pool.shared.live key = some entry)
    (hrec : Recorded AuthWorld.handle (AuthCall.body config) (⟨pool.shared.put key none, threads,
      pool.trace ++ [⟨who, pool.shared, .getdel key, .ok (some entry.value)⟩]⟩ : AuthPool)) :
    Ledger config (⟨pool.shared.put key none, threads,
      pool.trace ++ [⟨who, pool.shared, .getdel key, .ok (some entry.value)⟩]⟩ : AuthPool) := by
  obtain ⟨hk,hnow⟩ := Option.filter_eq_some_iff.mp hlive
  obtain ⟨hn,put,hput,hs,hlast⟩ := h.held _ _ hk
  refine ⟨hrec,?_,fun kb entry' hk' => ?_,?_,?_⟩
  · simp only [List.filterMap_append]
    exact (List.append_nil _).symm ▸ h.draws
  · obtain ⟨hne,hk'⟩ := put_none hk'
    refine held_snoc (h.held kb entry' hk') ?_
    simp only [taken, ne_eq, Option.some.injEq]
    exact fun he => hne he.symm
  · simp only [List.filterMap_append]
    exact List.nodup_append.mpr ⟨h.once,List.nodup_singleton _,by
      intro a ha b hb
      simp only [List.filterMap_cons, taken, List.filterMap_nil, List.mem_singleton] at hb
      rintro rfl
      exact hn (hb ▸ ha)⟩
  · refine earlier_snoc h.earlier (fun kb ht => ?_)
    simp only [taken, Option.some.injEq] at ht
    subst ht
    refine ⟨put,hput,hs,?_⟩
    rw [← hlast]
    simpa using hnow

/-- One case for each command: what it draws, stores or takes, and otherwise nothing. -/
theorem ledger_turn (hkit : Alphabetic config.kit) (h : Ledger config pool) (who : Nat) :
    Ledger config (pool.turn AuthWorld.handle who) := by
  have hrec : Recorded AuthWorld.handle (AuthCall.body config)
      (pool.step AuthWorld.handle (AuthCall.body config) AuthWorld.act (.turn who)) :=
    step_recorded pool (.turn who) h.recorded
  rw [Pool.step] at hrec
  rcases pool.turn_cases AuthWorld.handle who with he | ⟨call,c,k,s,r,ht,hh,he⟩
  · rw [he]
    exact h
  rw [he] at hrec ⊢
  cases c with
  | randomBytes =>
    obtain ⟨random,hr,rfl⟩ := draws_next hh
    exact ledger_draw h hr hrec
  | dateNow =>
    cases hh
    exact ledger_idle h hrec rfl (fun _ _ hk => hk) rfl rfl
  | setEx key value ttl =>
    by_cases hup : pool.shared.redisUp = true ∧ 0 < ttl
    · cases (if_pos hup).symm.trans hh
      exact ledger_store hkit h hrec
    · cases (if_neg hup).symm.trans hh
      exact ledger_idle h hrec rfl (fun _ _ hk => hk) rfl rfl
  | getdel key =>
    by_cases hup : pool.shared.redisUp = true
    · cases (if_pos hup).symm.trans hh
      cases hlive : pool.shared.live key with
      | none =>
        rw [hlive] at hrec
        exact ledger_idle h hrec rfl (fun kb entry hk => (put_none hk).2) rfl rfl
      | some entry =>
        rw [hlive] at hrec
        exact ledger_take h hlive hrec
    · cases (if_neg hup).symm.trans hh
      exact ledger_idle h hrec rfl (fun _ _ hk => hk) rfl rfl

end Turn

theorem ledger_step {config : AuthConfig} (hkit : Alphabetic config.kit) (pool : AuthPool)
    (event : AuthEvent) (h : Ledger config pool) :
    Ledger config (pool.step AuthWorld.handle (AuthCall.body config) AuthWorld.act event) := by
  have hrec : Recorded AuthWorld.handle (AuthCall.body config)
      (pool.step AuthWorld.handle (AuthCall.body config) AuthWorld.act event) :=
    step_recorded pool event h.recorded
  cases event with
  | spawn call => exact ⟨hrec,h.draws,h.held,h.once,h.earlier⟩
  | turn who => exact ledger_turn hkit h who
  | outside what =>
    cases what with
    | tick ms => exact ⟨hrec,h.draws,h.held,h.once,h.earlier⟩
    | redis up => exact ⟨hrec,h.draws,h.held,h.once,h.earlier⟩

theorem ledger_after {config : AuthConfig} (hkit : Alphabetic config.kit) (now : Nat)
    {random : List (Program.Bytes nonceBytes)} (distinct : random.Nodup)
    (events : List AuthEvent) :
    Ledger config (AuthPool.after config (AuthWorld.start now random) events) :=
  run_invariant (ledger_start config now distinct) (ledger_step hkit) events

/-- The subject of the token a call has returned. -/
def token (pool : AuthPool) (i : Nat) : Option JsString :=
  match pool.result i with
  | some (.ok (.token sub)) => some sub
  | _ => none

def challenged (pool : AuthPool) (i : Nat) : Option JsString :=
  match pool.threads[i]? with
  | some ⟨.challenge pubkey, _⟩ => some pubkey
  | _ => none

/-- Call `i`, a verify, has redeemed what call `j`, a challenge, has issued. -/
structure Redeems (config : AuthConfig) (pool : AuthPool) (i j : Nat) (pubkey message : JsString)
    (random : Program.Bytes nonceBytes) (issuedAt : Nat) : Prop where
  verifies : ∃ signature rest, pool.threads[i]? = some ⟨.verify pubkey message signature, rest⟩ ∧
    verifySignature config.kit message signature pubkey = true
  challenges : ∃ rest, pool.threads[j]? = some ⟨.challenge pubkey, rest⟩
  issues : pool.result j =
    some (.ok (.message (buildSignInMessage (issuedFields config pubkey random issuedAt))))
  parses : ∃ parsed, parseSignInMessage message = some parsed ∧ parsed.pubkey = pubkey ∧
    parsed.nonce = hex random
  /-- The challenge drew this nonce, stored it, and within its time the verify took it. -/
  drawn : ∃ draw ∈ pool.trace, draw.who = j ∧ drew draw = some random
  inTime : ∃ before put between take after,
    pool.trace = before ++ put :: (between ++ take :: after) ∧ put.who = j ∧ take.who = i ∧
    stored put = some (encodeUtf8 (RedisNonceStore.key config pubkey (hex random))) ∧
    taken take = stored put ∧
    take.found.now ≤ put.found.now + config.authNonceTtlSeconds * 1000

theorem token_thread {pool : AuthPool} {i : Nat} {sub : JsString} (h : token pool i = some sub) :
    ∃ call, pool.threads[i]? = some ⟨call, .done (.token sub)⟩ := by
  unfold token Pool.result at h
  split at h
  · rename_i hr
    split at hr
    · rename_i call a ht
      cases hr
      cases h
      exact ⟨call,ht⟩
    · cases hr
    · cases hr
  · cases h

theorem token_redeems {config : AuthConfig} (hkit : Alphabetic config.kit) {pool : AuthPool}
    (h : Ledger config pool) {i : Nat} {sub : JsString} (ht : token pool i = some sub) :
    ∃ j message random issuedAt, Redeems config pool i j sub message random issuedAt := by
  obtain ⟨call,hi⟩ := token_thread ht
  have hf := h.recorded.follows i _ hi
  cases call with
  | challenge pubkey =>
    rcases challenge_follows hf with ⟨e,random,issuedAt,hst⟩ | ⟨_,hdone⟩
    · cases hst.returns
    · exact absurd rfl (hdone _)
  | verify pubkey message signature =>
    rcases verify_follows hf with ⟨take,parsed,hco⟩ | ⟨_,hdone⟩
    · obtain ⟨hsub,hsig⟩ := hco.returns _ rfl
      cases hsub
      obtain ⟨a,hown,_⟩ := hco.sent
      have htake : take ∈ own pool.trace i := by rw [hown]; simp
      obtain ⟨before,after,htr,put,hput,hs,htime⟩ :=
        h.earlier take (mem_own.mp htake).1 _ hco.key
      have hmem : put ∈ pool.trace := by
        rw [htr]
        exact List.mem_append_left _ hput
      obtain ⟨pubkey',rest,random,issuedAt,hthread,hst⟩ :=
        stored_by h.recorded hmem (by rw [hs]; simp)
      obtain ⟨hpub,hnonce⟩ := key_injective hkit hst.address
        (Option.some.inj (hs.symm.trans hst.key))
      subst hpub
      obtain ⟨d,_,_,hown',hdrew,_⟩ := hst.sent
      have hd : d ∈ own pool.trace put.who := by rw [hown']; simp
      obtain ⟨front,between,rfl⟩ := List.append_of_mem hput
      refine ⟨put.who,message,random,issuedAt,⟨signature,_,hi,hsig⟩,⟨rest,hthread⟩,?_,
        ⟨parsed,hco.parses,hco.same,hnonce⟩,⟨d,(mem_own.mp hd).1,(mem_own.mp hd).2,hdrew⟩,
        front,put,between,take,after,by rw [htr]; simp,rfl,(mem_own.mp htake).2,hst.key,
        hco.key.trans hs.symm,htime⟩
      rw [Pool.result, hthread, hst.returns]
    · exact absurd rfl (hdone _)

/-- A challenge stores once, and what it stores is taken once. -/
theorem redeems_injective {config : AuthConfig} {pool : AuthPool} (h : Ledger config pool)
    {i i' j : Nat} {pubkey message pubkey' message' : JsString}
    {random random' : Program.Bytes nonceBytes} {issuedAt issuedAt' : Nat}
    (hr : Redeems config pool i j pubkey message random issuedAt)
    (hr' : Redeems config pool i' j pubkey' message' random' issuedAt') : i = i' := by
  obtain ⟨before,put,between,take,after,htr,hput,htake,hs,ht,_⟩ := hr.inTime
  obtain ⟨before',put',between',take',after',htr',hput',htake',hs',ht',_⟩ := hr'.inTime
  have hmem : put ∈ pool.trace ∧ take ∈ pool.trace := by rw [htr]; simp
  have hmem' : put' ∈ pool.trace ∧ take' ∈ pool.trace := by rw [htr']; simp
  obtain ⟨_,_,_,_,_,hst⟩ := stored_by h.recorded hmem.1 (by rw [hs]; simp)
  obtain ⟨a,b,c,hown,_,ha,hb,hc⟩ := hst.sent
  have hin : put' ∈ own pool.trace put.who := mem_own.mpr ⟨hmem'.1,hput'.trans hput.symm⟩
  rw [hown] at hin
  have hsame : put' = put := by
    simp only [List.mem_cons, List.not_mem_nil, or_false] at hin
    rcases hin with rfl | rfl | rfl | rfl
    · rw [ha] at hs'; cases hs'
    · rw [hb] at hs'; cases hs'
    · rw [hc] at hs'; cases hs'
    · rfl
  subst hsame
  have htakes := eq_of_filterMap_nodup h.once hmem.2 hmem'.2 (ht.trans hs) (ht'.trans hs)
  rw [← htake, ← htake', htakes]

/-- The one command that ends a live entry is the taking of its key. -/
theorem live_lost {w s : AuthWorld} {c : AuthCommand} {r : AuthReply c} {key : JsString}
    (hh : w.handle c = some (s, r)) (hlive : w.live key ≠ none) (hgone : s.live key = none) :
    ∃ key', c = .getdel key' ∧ w.redisUp = true ∧ encodeUtf8 key = encodeUtf8 key' := by
  cases c with
  | randomBytes =>
    obtain ⟨_,_,rfl⟩ := draws_next hh
    exact absurd hgone hlive
  | dateNow =>
    cases hh
    exact absurd hgone hlive
  | setEx key' value ttl =>
    by_cases hup : w.redisUp = true ∧ 0 < ttl
    · cases (if_pos hup).symm.trans hh
      simp only [AuthWorld.live, AuthWorld.put, Function.update_apply] at hgone hlive
      split at hgone
      · simp [Option.filter] at hgone
      · exact absurd hgone hlive
    · cases (if_neg hup).symm.trans hh
      exact absurd hgone hlive
  | getdel key' =>
    by_cases hup : w.redisUp = true
    · cases (if_pos hup).symm.trans hh
      by_cases hk : encodeUtf8 key = encodeUtf8 key'
      · exact ⟨key',rfl,hup,hk⟩
      · simp only [AuthWorld.live, AuthWorld.put, Function.update_apply, hk, ↓reduceIte]
          at hgone hlive
        exact absurd hgone hlive
    · cases (if_neg hup).symm.trans hh
      exact absurd hgone hlive

/-- A live nonce ends by its time, or by a verify of its own pubkey and text. -/
theorem nonce_isolated {config : AuthConfig} (hkit : Alphabetic config.kit) {pool : AuthPool}
    (h : Ledger config pool) (event : AuthEvent) {pubkey : JsString}
    (ha : config.kit.isAddress pubkey = true) (random : Program.Bytes nonceBytes)
    (hlive : pool.shared.live (RedisNonceStore.key config pubkey (hex random)) ≠ none)
    (hgone : (pool.step AuthWorld.handle (AuthCall.body config) AuthWorld.act event).shared.live
      (RedisNonceStore.key config pubkey (hex random)) = none) :
    (∃ ms, event = .outside (.tick ms)) ∨ ∃ who message signature rest parsed,
      event = .turn who ∧ pool.threads[who]? = some ⟨.verify pubkey message signature, rest⟩ ∧
      parseSignInMessage message = some parsed ∧ parsed.nonce = hex random := by
  cases event with
  | spawn call => exact absurd hgone hlive
  | outside what =>
    cases what with
    | tick ms => exact .inl ⟨ms,rfl⟩
    | redis up => exact absurd hgone hlive
  | turn who =>
    have hrec : Recorded AuthWorld.handle (AuthCall.body config)
        (pool.step AuthWorld.handle (AuthCall.body config) AuthWorld.act (.turn who)) :=
      step_recorded pool (.turn who) h.recorded
    rw [Pool.step] at hrec hgone
    rcases pool.turn_cases AuthWorld.handle who with he | ⟨call,c,k,s,r,ht,hh,he⟩
    · rw [he] at hgone
      exact absurd hgone hlive
    rw [he] at hrec hgone
    obtain ⟨key,rfl,hup,hk⟩ := live_lost hh hlive hgone
    cases (if_pos hup).symm.trans hh
    have hfound : pool.shared.live key ≠ none := by
      rw [AuthWorld.live, ← hk]
      exact hlive
    obtain ⟨entry,hentry⟩ := Option.ne_none_iff_exists'.mp hfound
    rw [hentry] at hrec
    obtain ⟨pubkey',message,signature,rest,parsed,hthread,hco⟩ :=
      taken_by hrec List.mem_concat_self (by simp [taken])
    have hwho : who < pool.threads.length := (List.getElem?_eq_some_iff.mp ht).1
    simp only [List.getElem?_set_self hwho, Option.some.injEq, Thread.mk.injEq] at hthread
    have hkey := hco.command
    simp only [AuthCommand.getdel.injEq] at hkey
    rw [hkey] at hk
    obtain ⟨rfl,hnonce⟩ := key_injective hkit ha hk.symm
    rw [hthread.1] at ht
    exact .inr ⟨who,message,signature,_,parsed,rfl,ht,hco.parses,hnonce⟩

def tokens (pool : AuthPool) : Finset Nat :=
  (Finset.range pool.threads.length).filter (fun i => (token pool i).isSome)

def challenges (pool : AuthPool) : Finset Nat :=
  (Finset.range pool.threads.length).filter (fun i => (challenged pool i).isSome)

structure Redemptions (config : AuthConfig) (pool : AuthPool) : Prop where
  /-- The tokens go injectively to the challenges they redeem. -/
  redeemed : ∃ f : Nat → Nat, (∀ i sub, token pool i = some sub → ∃ message random issuedAt,
      Redeems config pool i (f i) sub message random issuedAt) ∧
    ∀ i i' sub sub', token pool i = some sub → token pool i' = some sub' → f i = f i' → i = i'
  counted : (tokens pool).card ≤ (challenges pool).card
  /-- Nothing but its own time or its own verify ends a live nonce. -/
  isolated : ∀ (event : AuthEvent) (pubkey : JsString) (random : Program.Bytes nonceBytes),
    config.kit.isAddress pubkey = true →
    pool.shared.live (RedisNonceStore.key config pubkey (hex random)) ≠ none →
    (pool.step AuthWorld.handle (AuthCall.body config) AuthWorld.act event).shared.live
      (RedisNonceStore.key config pubkey (hex random)) = none →
    (∃ ms, event = .outside (.tick ms)) ∨ ∃ who message signature rest parsed,
      event = .turn who ∧ pool.threads[who]? = some ⟨.verify pubkey message signature, rest⟩ ∧
      parseSignInMessage message = some parsed ∧ parsed.nonce = hex random

/-- Whatever calls are made with whatever strings, and however their steps mix. -/
theorem single_use (config : AuthConfig) (hkit : Alphabetic config.kit) (now : Nat)
    (random : List (Program.Bytes nonceBytes)) (distinct : random.Nodup)
    (events : List AuthEvent) :
    Redemptions config (AuthPool.after config (AuthWorld.start now random) events) := by
  have h := ledger_after hkit now distinct events
  generalize AuthPool.after config (AuthWorld.start now random) events = pool at h ⊢
  have hex : ∀ i, ∃ j, ∀ sub, token pool i = some sub →
      ∃ message random issuedAt, Redeems config pool i j sub message random issuedAt := by
    intro i
    cases ht : token pool i with
    | none => exact ⟨0,fun sub hs => by cases hs⟩
    | some sub =>
      obtain ⟨j,hj⟩ := token_redeems hkit h ht
      refine ⟨j,fun sub' hs => ?_⟩
      cases hs
      exact hj
  choose f hf using hex
  have hinj : ∀ i i' sub sub', token pool i = some sub → token pool i' = some sub' →
      f i = f i' → i = i' := by
    intro i i' sub sub' ht ht' he
    obtain ⟨_,_,_,hr⟩ := hf i sub ht
    obtain ⟨_,_,_,hr'⟩ := hf i' sub' ht'
    exact redeems_injective h hr (he ▸ hr')
  refine ⟨⟨f,hf,hinj⟩,?_,fun event pubkey random ha => nonce_isolated hkit h event ha random⟩
  apply Finset.card_le_card_of_injOn f
  · intro i hi
    obtain ⟨_,hs⟩ := Finset.mem_filter.mp hi
    obtain ⟨sub,ht⟩ := Option.isSome_iff_exists.mp hs
    obtain ⟨_,_,_,hr⟩ := hf i sub ht
    obtain ⟨rest,hj⟩ := hr.challenges
    refine Finset.mem_filter.mpr ⟨Finset.mem_range.mpr (List.getElem?_eq_some_iff.mp hj).1,?_⟩
    rw [challenged, hj]
    rfl
  · intro i hi i' hi' he
    obtain ⟨sub,ht⟩ := Option.isSome_iff_exists.mp (Finset.mem_filter.mp hi).2
    obtain ⟨sub',ht'⟩ := Option.isSome_iff_exists.mp (Finset.mem_filter.mp hi').2
    exact hinj i i' sub sub' ht ht' he

theorem sample_alphabetic : Alphabetic sampleKit := by
  intro s hs u hu
  simp only [sampleKit, addressBytes, decodeBase58] at hs
  split at hs
  · split at hs
    · rename_i hall
      exact List.contains_iff_mem.mp (List.all_eq_true.mp hall u hu)
    · cases hs
  · cases hs

theorem wallet_redeems : token (signedIn walletText walletSignature) 1 = some wallet ∧
    Redemptions .sample (signedIn walletText walletSignature) :=
  ⟨by decide +kernel,
    single_use .sample sample_alphabetic sampleNow [sampleRandom] (List.nodup_singleton _) _⟩

end Tagwise.Proofs.SingleUse
