import Mathlib.Tactic.SplitIfs
import Tagwise.Api.Throttle

namespace Tagwise.Proofs.RateLimit
open Js Lib Tagwise.Api RegisterThrottlerGuard

variable (config : RegisterConfig) (guard : ThrottlerGuard)

/-- `other` was made in the window that the bucket of `o` was in. -/
def Within (o other : Attempted) : Prop :=
  o.windowEnd ≤ other.now + config.registerThrottleTtlSeconds ∧ (other.now : Int) < o.windowEnd

instance (o other : Attempted) : Decidable (Within config o other) :=
  inferInstanceAs (Decidable (_ ∧ _))

/-- The admitted attempts of a log in the window of `o` that `same` keeps. -/
def admittedWith (log : List Attempted) (o : Attempted) (same : RegisterRequest → Bool) : Nat :=
  log.countP (fun other => other.admitted && same other.request && decide (Within config o other))

/-- In every window, as many attempts as the limit at most are admitted that share a pubkey,
and as many that share an address. -/
structure RateLimited (log : List Attempted) : Prop where
  perPubkey : ∀ o ∈ log, admittedWith config log o (fun req => req.authPubkey = o.request.authPubkey) ≤
    config.registerThrottleLimit
  perIp : ∀ o ∈ log, admittedWith config log o (fun req => req.ip = o.request.ip) ≤
    config.registerThrottleLimit

/-- The log of a sequence of attempts, no bucket existing before it. -/
def logOf (attempts : List Attempt) : List Attempted :=
  (run (RegisterTraffic.attempt config guard) .start attempts).log

def InOrder (attempts : List Attempt) : Prop := attempts.Pairwise (fun a b => a.timeMs ≤ b.timeMs)

/-- The key an attempt counts under. -/
def bucketOf (req : RegisterRequest) : JsString := guard.generateKey (getTracker req)

/-- The hit after `before` others in the window that ends at `windowEnd`. -/
structure Hit (limit blockDuration now before windowEnd : Nat) (b : Bucket) : Prop where
  hits : b.hits = before + 1
  expiresAt : b.expiresAt = windowEnd
  isBlocked : b.isBlocked = decide (limit < before + 1)
  blockExpiresAt : b.isBlocked = true → b.blockExpiresAt = now + blockDuration

/-- The window is over, and so is a block. -/
def Stale (b : Bucket) (now : Nat) : Prop :=
  if b.isBlocked then b.blockExpiresAt ≤ now else b.expiresAt ≤ now

theorem counted_hit (b : Bucket) (limit blockDuration now : Nat) (hb : b.isBlocked = false) :
    Hit limit blockDuration now b.hits b.expiresAt
      (if limit < b.hits + 1 ∧ (!b.isBlocked) = true then
        { b with hits := b.hits + 1, isBlocked := true, blockExpiresAt := now + blockDuration }
      else { b with hits := b.hits + 1 }) := by
  by_cases hl : limit < b.hits + 1
  · rw [if_pos ⟨hl, by rw [hb]; rfl⟩]
    exact ⟨rfl, rfl, (decide_eq_true hl).symm, fun _ => rfl⟩
  · rw [if_neg (fun h => hl h.1)]
    exact ⟨rfl, rfl, by simp [hb, hl], fun h => by simp [hb] at h⟩

/-- What an increment does: nothing under a block, else a hit, in the window it finds or
in a fresh one. -/
theorem throttlerIncrement_cases (data : Option Bucket) (ttl limit blockDuration now : Nat) :
    (∃ b, data = some b ∧ b.isBlocked = true ∧ now < b.blockExpiresAt ∧
      throttlerIncrement data ttl limit blockDuration now = b) ∨
    (∃ b, data = some b ∧ b.isBlocked = false ∧ now < b.expiresAt ∧
      Hit limit blockDuration now b.hits b.expiresAt
        (throttlerIncrement data ttl limit blockDuration now)) ∨
    ((∀ b, data = some b → Stale b now) ∧
      Hit limit blockDuration now 0 (now + ttl)
        (throttlerIncrement data ttl limit blockDuration now)) := by
  have hfresh : ∀ block, Hit limit blockDuration now 0 (now + ttl)
      (throttlerIncrement (some ⟨0, now + ttl, block, false⟩) ttl limit blockDuration now) := by
    intro block
    have hc := counted_hit ⟨0, now + ttl, block, false⟩ limit blockDuration now rfl
    by_cases ht : ttl = 0 <;> simpa [throttlerIncrement, ht] using hc
  cases data with
  | none => exact Or.inr (Or.inr ⟨by simp, hfresh 0⟩)
  | some b =>
    obtain ⟨hits,expiresAt,blockExpiresAt,isBlocked⟩ := b
    cases isBlocked with
    | true =>
      by_cases hb : blockExpiresAt ≤ now
      · refine Or.inr (Or.inr ⟨by simp [Stale, hb], ?_⟩)
        have he : throttlerIncrement (some ⟨hits, expiresAt, blockExpiresAt, true⟩) ttl limit
            blockDuration now =
            throttlerIncrement (some ⟨0, now + ttl, blockExpiresAt, false⟩) ttl limit
              blockDuration now := by
          simp [throttlerIncrement, hb]
        rw [he]
        exact hfresh blockExpiresAt
      · refine Or.inl ⟨_, rfl, rfl, Nat.lt_of_not_le hb, ?_⟩
        simp [throttlerIncrement, hb]
    | false =>
      by_cases hb : expiresAt ≤ now
      · refine Or.inr (Or.inr ⟨by simp [Stale, hb], ?_⟩)
        have he : throttlerIncrement (some ⟨hits, expiresAt, blockExpiresAt, false⟩) ttl limit
            blockDuration now =
            throttlerIncrement (some ⟨0, now + ttl, blockExpiresAt, false⟩) ttl limit
              blockDuration now := by
          by_cases ht : ttl = 0 <;> simp [throttlerIncrement, hb, ht]
        rw [he]
        exact hfresh blockExpiresAt
      · refine Or.inr (Or.inl ⟨_, rfl, rfl, Nat.lt_of_not_le hb, ?_⟩)
        have hc := counted_hit ⟨hits, expiresAt, blockExpiresAt, false⟩ limit blockDuration now rfl
        simpa [throttlerIncrement, hb] using hc

def admittedUntil (es : List Attempted) (windowEnd : Int) : Nat :=
  es.countP (fun o => o.admitted && decide (o.windowEnd = windowEnd))

/-- The windows of one key: a `ttl` apart, each with its admitted attempts inside and no
more of them than the limit. -/
structure Windows (ttl limit : Nat) (es : List Attempted) : Prop where
  apart : ∀ o ∈ es, ∀ o' ∈ es, o.windowEnd = o'.windowEnd ∨ o.windowEnd + ttl ≤ o'.windowEnd ∨
    o'.windowEnd + ttl ≤ o.windowEnd
  own : ∀ o ∈ es, o.admitted = true → o.windowEnd ≤ o.now + ttl ∧ (o.now : Int) < o.windowEnd
  full : ∀ windowEnd, admittedUntil es windowEnd ≤ limit

/-- How the stored bucket stands to the attempts counted in it up to `timeMs`. -/
structure Counted (ttl timeMs : Nat) (stored : BucketKey) (es : List Attempted) : Prop where
  latest : ∀ o ∈ es, o.windowEnd = stored.bucket.expiresAt ∨
    o.windowEnd + ttl ≤ stored.bucket.expiresAt
  count : stored.bucket.isBlocked = false →
    admittedUntil es stored.bucket.expiresAt ≤ stored.bucket.hits
  blocked : stored.bucket.isBlocked = true → stored.bucket.expiresAt ≤ stored.bucket.blockExpiresAt
  opened : stored.bucket.expiresAt ≤ timeMs / 1000 + ttl
  lives : ∀ last, stored.lastMs = some last →
    stored.bucket.expiresAt * 1000 ≤ last ∧ stored.bucket.blockExpiresAt * 1000 ≤ last

def KeyInv (ttl limit timeMs : Nat) (stored : Option BucketKey) (es : List Attempted) : Prop :=
  Windows ttl limit es ∧
    match stored with
    | none => es = []
    | some stored => Counted ttl timeMs stored es

theorem Windows.nil (ttl limit : Nat) : Windows ttl limit [] :=
  ⟨by simp, by simp, by simp [admittedUntil]⟩

theorem admittedUntil_snoc (es : List Attempted) (o : Attempted) (windowEnd : Int) :
    admittedUntil (es ++ [o]) windowEnd =
      admittedUntil es windowEnd + if o.admitted = true ∧ o.windowEnd = windowEnd then 1 else 0 := by
  simp [admittedUntil, List.countP_append, List.countP_singleton]

theorem admittedUntil_zero {es : List Attempted} {windowEnd : Int}
    (h : ∀ o ∈ es, o.windowEnd ≠ windowEnd) : admittedUntil es windowEnd = 0 := by
  apply List.countP_eq_zero.mpr
  intro o ho
  simp [h o ho]

theorem Counted.later {ttl timeMs timeMs' : Nat} {stored : BucketKey} {es : List Attempted}
    (h : Counted ttl timeMs stored es) (ht : timeMs ≤ timeMs') : Counted ttl timeMs' stored es :=
  ⟨h.latest, h.count, h.blocked,
    Nat.le_trans h.opened (Nat.add_le_add_right (Nat.div_le_div_right ht) ttl), h.lives⟩

theorem KeyInv.later {ttl limit timeMs timeMs' : Nat} {stored : Option BucketKey}
    {es : List Attempted} (h : KeyInv ttl limit timeMs stored es) (ht : timeMs ≤ timeMs') :
    KeyInv ttl limit timeMs' stored es := by
  cases stored with
  | none => exact h
  | some stored => exact ⟨h.1, Counted.later h.2 ht⟩

/-- An attempt joins the windows of its key when the limit leaves room for it. -/
theorem Windows.snoc {ttl limit : Nat} {es : List Attempted} {o : Attempted}
    (h : Windows ttl limit es)
    (hlast : ∀ o' ∈ es, o'.windowEnd = o.windowEnd ∨ o'.windowEnd + ttl ≤ o.windowEnd)
    (hown : o.admitted = true → o.windowEnd ≤ o.now + ttl ∧ (o.now : Int) < o.windowEnd)
    (hroom : o.admitted = true → admittedUntil es o.windowEnd < limit) :
    Windows ttl limit (es ++ [o]) := by
  refine ⟨?_, ?_, ?_⟩
  · intro a ha b hb
    rcases List.mem_append.mp ha with ha | ha <;> rcases List.mem_append.mp hb with hb | hb
    · exact h.apart a ha b hb
    · rw [List.mem_singleton.mp hb]
      have := hlast a ha
      omega
    · rw [List.mem_singleton.mp ha]
      have := hlast b hb
      omega
    · rw [List.mem_singleton.mp ha, List.mem_singleton.mp hb]
      exact Or.inl rfl
  · intro a ha hadm
    rcases List.mem_append.mp ha with ha | ha
    · exact h.own a ha hadm
    · rw [List.mem_singleton.mp ha] at hadm ⊢
      exact hown hadm
  · intro windowEnd
    rw [admittedUntil_snoc]
    have hf := h.full windowEnd
    split_ifs with hc
    · obtain ⟨hadm,rfl⟩ := hc
      have := hroom hadm
      omega
    · omega

/-- What a command finds of a stored key. -/
def foundAt (timeMs : Nat) (stored : Option BucketKey) : Option BucketKey :=
  stored.filter (fun s => s.lastMs.all (timeMs ≤ ·))

theorem foundAt_some {timeMs : Nat} {stored : Option BucketKey} {b : Bucket}
    (h : (foundAt timeMs stored).map BucketKey.bucket = some b) :
    ∃ s, stored = some s ∧ s.bucket = b := by
  obtain ⟨s,hs,rfl⟩ := Option.map_eq_some_iff.mp h
  exact ⟨s, (Option.filter_eq_some_iff.mp hs).1, rfl⟩

/-- Before a fresh window, every window of the key is over. -/
theorem KeyInv.over {ttl limit timeMs timeMs' : Nat} {stored : Option BucketKey}
    {es : List Attempted} (h : KeyInv ttl limit timeMs stored es)
    (hstale : ∀ b, (foundAt timeMs' stored).map BucketKey.bucket = some b → Stale b (timeMs' / 1000)) :
    ∀ o ∈ es, o.windowEnd ≤ (timeMs' / 1000 : Nat) := by
  cases stored with
  | none =>
    rw [h.2]
    simp
  | some s =>
    have hc : Counted ttl timeMs s es := h.2
    have hover : s.bucket.expiresAt ≤ timeMs' / 1000 := by
      by_cases halive : s.lastMs.all (timeMs' ≤ ·) = true
      · have hst := hstale s.bucket (by simp [foundAt, halive])
        unfold Stale at hst
        split at hst
        · next hb => exact Nat.le_trans (hc.blocked hb) hst
        · exact hst
      · cases hl : s.lastMs with
        | none => simp [hl] at halive
        | some last =>
          have := (hc.lives last hl).1
          simp only [hl, Option.all_some, decide_eq_true_eq] at halive
          omega
    intro o ho
    have := hc.latest o ho
    omega

/-- The last millisecond of a key that a run of the script leaves with `b`. -/
def lifeAfter (timeMs : Nat) (b : Bucket) (kept : Option Nat) : Option Nat :=
  if timeMs / 1000 < max b.expiresAt b.blockExpiresAt then
    some (timeMs + (max b.expiresAt b.blockExpiresAt - timeMs / 1000) * 1000)
  else kept

/-- It covers the window and the block. -/
theorem lives_of_alive {b : Bucket} {timeMs : Nat} {kept : Option Nat}
    (halive : timeMs / 1000 < max b.expiresAt b.blockExpiresAt) :
    ∀ last, lifeAfter timeMs b kept = some last →
      b.expiresAt * 1000 ≤ last ∧ b.blockExpiresAt * 1000 ≤ last := by
  intro last hl
  rw [lifeAfter, if_pos halive] at hl
  cases hl
  omega

/-- A hit keeps the windows, in whichever window it falls. -/
theorem KeyInv.hit {ttl limit timeMs before windowEnd : Nat} {es : List Attempted}
    {kept : Option Nat} {o : Attempted} {b : Bucket} (h : Windows ttl limit es)
    (hit : Hit limit ttl (timeMs / 1000) before windowEnd b)
    (hlatest : ∀ o' ∈ es, o'.windowEnd = windowEnd ∨ o'.windowEnd + ttl ≤ windowEnd)
    (hcount : admittedUntil es windowEnd ≤ before) (hopened : windowEnd ≤ timeMs / 1000 + ttl)
    (hopen : timeMs / 1000 < windowEnd) (hnow : o.now = timeMs / 1000)
    (hadm : o.admitted = !b.isBlocked) (hend : o.windowEnd = b.expiresAt) :
    KeyInv ttl limit timeMs (some ⟨b, lifeAfter timeMs b kept⟩) (es ++ [o]) := by
  have hexp := hit.expiresAt
  have hend' : o.windowEnd = windowEnd := by rw [hend, hexp]
  have hroom : o.admitted = true → before < limit := by
    intro ha
    rw [hadm, hit.isBlocked] at ha
    simp only [Bool.not_eq_true', decide_eq_false_iff_not] at ha
    omega
  have hlast : ∀ o' ∈ es, o'.windowEnd = o.windowEnd ∨ o'.windowEnd + ttl ≤ o.windowEnd := by
    rwa [hend']
  refine ⟨h.snoc hlast (fun _ => by omega) ?_, ?_, ?_, ?_, ?_, lives_of_alive (by omega)⟩
  · intro ha
    have := hroom ha
    rw [hend']
    omega
  · intro a ha
    rw [hexp]
    rcases List.mem_append.mp ha with ha | ha
    · exact hlatest a ha
    · rw [List.mem_singleton.mp ha]
      exact Or.inl hend'
  · intro hblk
    simp only at hblk ⊢
    rw [hexp, hit.hits, admittedUntil_snoc]
    split <;> omega
  · intro hblk
    simp only at hblk ⊢
    rw [hexp, hit.blockExpiresAt hblk]
    exact hopened
  · simp only [hexp]
    exact hopened

/-- One attempt, under the key it counts under. -/
theorem KeyInv.step {ttl limit timeMs timeMs' : Nat} {stored : Option BucketKey}
    {es : List Attempted} {kept : Option Nat} {o : Attempted} {b : Bucket} (hpos : 0 < ttl)
    (h : KeyInv ttl limit timeMs stored es) (ht : timeMs ≤ timeMs')
    (hb : throttlerIncrement ((foundAt timeMs' stored).map BucketKey.bucket) ttl limit ttl
      (timeMs' / 1000) = b)
    (hnow : o.now = timeMs' / 1000) (hadm : o.admitted = !b.isBlocked)
    (hend : o.windowEnd = b.expiresAt) :
    KeyInv ttl limit timeMs' (some ⟨b, lifeAfter timeMs' b kept⟩) (es ++ [o]) := by
  have hdiv : timeMs / 1000 ≤ timeMs' / 1000 := Nat.div_le_div_right ht
  rcases throttlerIncrement_cases ((foundAt timeMs' stored).map BucketKey.bucket) ttl limit ttl
    (timeMs' / 1000) with ⟨b',hf,hblk,hlt,he⟩ | ⟨b',hf,hblk,hlt,hit⟩ | ⟨hstale,hit⟩
  · -- the block stands, and the attempt is refused
    rw [he] at hb
    subst hb
    obtain ⟨s,rfl,rfl⟩ := foundAt_some hf
    have hc : Counted ttl timeMs s es := h.2
    have hno : o.admitted = false := by rw [hadm, hblk]; rfl
    have hlatest := hc.latest
    rw [← hend] at hlatest
    refine ⟨h.1.snoc hlatest (by simp [hno]) (by simp [hno]), ?_, by simp [hblk],
      fun _ => hc.blocked hblk, by have := hc.opened; simp only; omega, lives_of_alive (by omega)⟩
    intro a ha
    rcases List.mem_append.mp ha with ha | ha
    · exact hc.latest a ha
    · rw [List.mem_singleton.mp ha]
      exact Or.inl hend
  · -- a hit in the window that is open
    rw [hb] at hit
    obtain ⟨s,rfl,rfl⟩ := foundAt_some hf
    have hc : Counted ttl timeMs s es := h.2
    exact KeyInv.hit h.1 hit hc.latest (hc.count hblk) (by have := hc.opened; omega) hlt hnow hadm
      hend
  · -- the first hit of a window, none of the earlier ones reaching into it
    rw [hb] at hit
    have hover := h.over hstale
    refine KeyInv.hit h.1 hit ?_ (Nat.le_of_eq (admittedUntil_zero ?_)) (Nat.le_refl _) (by omega)
      hnow hadm hend
    · intro a ha
      have := hover a ha
      omega
    · intro a ha
      have := hover a ha
      omega

/-- The attempts counted under one key. -/
def countedAs (log : List Attempted) (key : JsString) : List Attempted :=
  log.filter (fun o => bucketOf guard o.request = key)

/-- The key of Redis that holds a bucket. -/
def redisKeyOf (key : JsString) : JsString := redisKey config.redisKeyPrefix (js "throttle") [key]

theorem redisKeyOf_inj {key key' : JsString} (h : redisKeyOf config key = redisKeyOf config key') :
    key = key' := by
  simp [redisKeyOf, redisKey, List.intercalate] at h
  exact h

def Inv (timeMs : Nat) (traffic : RegisterTraffic) : Prop :=
  traffic.redis.up = true ∧ ∀ key,
    KeyInv config.registerThrottleTtlSeconds config.registerThrottleLimit timeMs
      (traffic.redis.buckets (redisKeyOf config key)) (countedAs guard traffic.log key)

/-- The bucket an attempt leaves under its key. -/
def nextBucket (traffic : RegisterTraffic) (a : Attempt) : Bucket :=
  throttlerIncrement
    ((foundAt a.timeMs (traffic.redis.buckets (redisKeyOf config (bucketOf guard a.request)))).map
      BucketKey.bucket)
    config.registerThrottleTtlSeconds config.registerThrottleLimit
    (guard.blockDuration (ttl config) / 1000) (a.timeMs / 1000)

theorem attempt_eq {traffic : RegisterTraffic} (hup : traffic.redis.up = true) (a : Attempt) :
    ∃ kept, traffic.attempt config guard a =
      ⟨⟨true, Function.update traffic.redis.buckets (redisKeyOf config (bucketOf guard a.request))
          (some ⟨nextBucket config guard traffic a,
            lifeAfter a.timeMs (nextBucket config guard traffic a) kept⟩)⟩,
        traffic.log ++ [{
          request := a.request
          now := a.timeMs / 1000
          admitted := !(nextBucket config guard traffic a).isBlocked
          windowEnd := (nextBucket config guard traffic a).expiresAt }]⟩ := by
  have httl : ttl config / 1000 = config.registerThrottleTtlSeconds :=
    Nat.mul_div_cancel _ (by decide)
  have hend : ∀ windowEnd : Nat, ((a.timeMs / 1000 : Nat) : Int) +
      ((windowEnd : Int) - (a.timeMs / 1000 : Nat)) = windowEnd := by omega
  refine ⟨(foundAt a.timeMs
    (traffic.redis.buckets (redisKeyOf config (bucketOf guard a.request)))).bind BucketKey.lastMs, ?_⟩
  simp only [RegisterTraffic.attempt, canActivate, RedisThrottlerStorage.increment, hup, ↓reduceIte,
    tipThrottlerIncrement, httl, hend]
  rfl

theorem Inv.start (timeMs : Nat) : Inv config guard timeMs .start :=
  ⟨rfl, fun _ => ⟨Windows.nil _ _, rfl⟩⟩

variable {config guard}

theorem Inv.attempt {timeMs : Nat} {traffic : RegisterTraffic} {a : Attempt}
    (hpos : 0 < config.registerThrottleTtlSeconds)
    (hblock : guard.blockDuration (ttl config) = ttl config) (h : Inv config guard timeMs traffic)
    (ht : timeMs ≤ a.timeMs) : Inv config guard a.timeMs (traffic.attempt config guard a) := by
  obtain ⟨hup,hkeys⟩ := h
  have hblockS : guard.blockDuration (ttl config) / 1000 = config.registerThrottleTtlSeconds := by
    rw [hblock]
    exact Nat.mul_div_cancel _ (by decide)
  obtain ⟨kept,he⟩ := attempt_eq config guard hup a
  rw [he]
  refine ⟨rfl, fun key => ?_⟩
  by_cases hk : key = bucketOf guard a.request
  · subst hk
    simp only [Function.update_self, countedAs, List.filter_append, List.filter_singleton,
      decide_true, cond_true]
    exact (hkeys _).step hpos ht (by rw [nextBucket, hblockS]) rfl rfl rfl
  · have hne : redisKeyOf config key ≠ redisKeyOf config (bucketOf guard a.request) :=
      fun heq => hk (redisKeyOf_inj config heq)
    simp only [Function.update_of_ne hne, countedAs, List.filter_append, List.filter_singleton,
      decide_eq_false (Ne.symm hk), cond_false, List.append_nil]
    exact (hkeys key).later ht

theorem Inv.run {timeMs : Nat} {traffic : RegisterTraffic}
    (hpos : 0 < config.registerThrottleTtlSeconds)
    (hblock : guard.blockDuration (ttl config) = ttl config) (h : Inv config guard timeMs traffic)
    {attempts : List Attempt} (horder : InOrder attempts)
    (hfrom : ∀ a ∈ attempts, timeMs ≤ a.timeMs) :
    ∃ timeMs', Inv config guard timeMs'
      (Lib.run (RegisterTraffic.attempt config guard) traffic attempts) := by
  induction attempts generalizing timeMs traffic with
  | nil => exact ⟨timeMs, h⟩
  | cons a attempts ih =>
    obtain ⟨hfirst,hrest⟩ := List.pairwise_cons.mp horder
    exact ih (h.attempt hpos hblock (hfrom a List.mem_cons_self)) hrest hfirst

/-- The attempts that `same` keeps stay within the limit when they all count under one key. -/
theorem Inv.limited {timeMs : Nat} {traffic : RegisterTraffic} (h : Inv config guard timeMs traffic)
    {o : Attempted} (ho : o ∈ traffic.log) {same : RegisterRequest → Bool}
    (hsame : ∀ o' ∈ traffic.log, same o'.request = true →
      bucketOf guard o'.request = bucketOf guard o.request) :
    admittedWith config traffic.log o same ≤ config.registerThrottleLimit := by
  have hw := (h.2 (bucketOf guard o.request)).1
  have hmem : o ∈ countedAs guard traffic.log (bucketOf guard o.request) :=
    List.mem_filter.mpr ⟨ho, by simp⟩
  calc admittedWith config traffic.log o same
      ≤ traffic.log.countP (fun o' => (o'.admitted && decide (o'.windowEnd = o.windowEnd)) &&
          decide (bucketOf guard o'.request = bucketOf guard o.request)) := by
        apply List.countP_mono_left
        intro o' ho' hp
        simp only [Bool.and_eq_true, decide_eq_true_eq] at hp ⊢
        obtain ⟨⟨hadm,hs⟩,hfrom,hto⟩ := hp
        have hkey := hsame o' ho' hs
        have hmem' : o' ∈ countedAs guard traffic.log (bucketOf guard o.request) :=
          List.mem_filter.mpr ⟨ho', by simp [hkey]⟩
        have hown := hw.own o' hmem' hadm
        have hapart := hw.apart o' hmem' o hmem
        exact ⟨⟨hadm, by omega⟩, hkey⟩
    _ = admittedUntil (countedAs guard traffic.log (bucketOf guard o.request)) o.windowEnd := by
        rw [admittedUntil, countedAs, List.countP_filter]
    _ ≤ config.registerThrottleLimit := hw.full _

/-- With a limit of zero nothing is admitted. -/
theorem Inv.none_admitted {timeMs : Nat} {traffic : RegisterTraffic}
    (h : Inv config guard timeMs traffic) (hzero : config.registerThrottleLimit = 0)
    (o : Attempted) (same : RegisterRequest → Bool) :
    admittedWith config traffic.log o same = 0 := by
  apply List.countP_eq_zero.mpr
  intro o' ho' hp
  simp only [Bool.and_eq_true] at hp
  have hfull := (h.2 (bucketOf guard o'.request)).1.full o'.windowEnd
  rw [hzero] at hfull
  have hmem : o' ∈ countedAs guard traffic.log (bucketOf guard o'.request) :=
    List.mem_filter.mpr ⟨ho', by simp⟩
  have hpos : 0 < admittedUntil (countedAs guard traffic.log (bucketOf guard o'.request))
      o'.windowEnd := List.countP_pos_iff.mpr ⟨o', hmem, by simp [hp.1.1]⟩
  omega

theorem admittedWith_no_window (hzero : config.registerThrottleTtlSeconds = 0)
    (log : List Attempted) (o : Attempted) (same : RegisterRequest → Bool) :
    admittedWith config log o same = 0 := by
  apply List.countP_eq_zero.mpr
  intro o' _ hp
  simp only [Bool.and_eq_true, decide_eq_true_eq, Within, hzero] at hp
  omega

theorem logged_requests (traffic : RegisterTraffic) (attempts : List Attempt) :
    (Lib.run (RegisterTraffic.attempt config guard) traffic attempts).log.map Attempted.request =
      traffic.log.map Attempted.request ++ attempts.map Attempt.request := by
  induction attempts generalizing traffic with
  | nil => simp
  | cons a attempts ih =>
    rw [run_cons, ih]
    simp [RegisterTraffic.attempt]

theorem logOf_callers (config : RegisterConfig) (guard : ThrottlerGuard)
    {attempts : List Attempt} {callers : RegisterRequest → Prop}
    (h : ∀ a ∈ attempts, callers a.request) :
    ∀ o ∈ logOf config guard attempts, callers o.request := by
  intro o ho
  have hm : o.request ∈ (logOf config guard attempts).map Attempted.request := List.mem_map_of_mem ho
  rw [logOf, logged_requests] at hm
  obtain ⟨a,ha,he⟩ := List.mem_map.mp (by simpa [RegisterTraffic.start] using hm)
  exact he ▸ h a ha

/-- A bucket of `n` hits, all of them in the very first second. -/
def filled (config : RegisterConfig) : Nat → Option BucketKey
  | 0 => none
  | n + 1 => some ⟨⟨n + 1, config.registerThrottleTtlSeconds, 0, false⟩,
      some (config.registerThrottleTtlSeconds * 1000)⟩

def firstSecond (config : RegisterConfig) (req : RegisterRequest) : Attempted :=
  ⟨req, 0, true, config.registerThrottleTtlSeconds⟩

theorem throttlerIncrement_filled {n blockDuration : Nat}
    (hpos : 0 < config.registerThrottleTtlSeconds) (hn : n < config.registerThrottleLimit) :
    throttlerIncrement ((foundAt 0 (filled config n)).map BucketKey.bucket)
      config.registerThrottleTtlSeconds config.registerThrottleLimit blockDuration 0 =
      ⟨n + 1, config.registerThrottleTtlSeconds, 0, false⟩ := by
  have hne : config.registerThrottleTtlSeconds ≠ 0 := by omega
  have hlim : ¬ config.registerThrottleLimit < n + 1 := by omega
  cases n with
  | zero => simp [throttlerIncrement, foundAt, filled, hne, hlim]
  | succ n =>
    have hfound : (foundAt 0 (filled config (n + 1))).map BucketKey.bucket =
        some ⟨n + 1, config.registerThrottleTtlSeconds, 0, false⟩ := by
      simp [foundAt, filled]
    rw [hfound]
    simp [throttlerIncrement, hne, hlim]

theorem attempt_filled {traffic : RegisterTraffic} {req : RegisterRequest} {n : Nat}
    (hpos : 0 < config.registerThrottleTtlSeconds) (hup : traffic.redis.up = true)
    (hfill : traffic.redis.buckets (redisKeyOf config (bucketOf guard req)) = filled config n)
    (hn : n < config.registerThrottleLimit) :
    traffic.attempt config guard ⟨req, 0⟩ =
      ⟨⟨true, Function.update traffic.redis.buckets (redisKeyOf config (bucketOf guard req))
        (filled config (n + 1))⟩, traffic.log ++ [firstSecond config req]⟩ := by
  obtain ⟨kept,he⟩ := attempt_eq config guard hup ⟨req, 0⟩
  have hnext : nextBucket config guard traffic ⟨req, 0⟩ =
      ⟨n + 1, config.registerThrottleTtlSeconds, 0, false⟩ := by
    simp only [nextBucket, hfill]
    exact throttlerIncrement_filled hpos hn
  rw [he, hnext]
  simp [lifeAfter, hpos, filled, firstSecond]

/-- As many attempts of one caller as the limit, all admitted. -/
theorem run_filled (guard : ThrottlerGuard) (req : RegisterRequest) {n : Nat}
    (hpos : 0 < config.registerThrottleTtlSeconds) (hn : n ≤ config.registerThrottleLimit) :
    ∃ traffic, Lib.run (RegisterTraffic.attempt config guard) .start (List.replicate n ⟨req, 0⟩) =
        traffic ∧ traffic.redis.up = true ∧
      (∀ key, traffic.redis.buckets key =
        if key = redisKeyOf config (bucketOf guard req) then filled config n else none) ∧
      traffic.log = List.replicate n (firstSecond config req) := by
  induction n with
  | zero => exact ⟨_, rfl, rfl, fun key => by split <;> rfl, rfl⟩
  | succ n ih =>
    obtain ⟨traffic,hrun,hup,hbuckets,hlog⟩ := ih (by omega)
    have hfill : traffic.redis.buckets (redisKeyOf config (bucketOf guard req)) = filled config n := by
      rw [hbuckets, if_pos rfl]
    have ha := attempt_filled hpos hup hfill hn
    refine ⟨_, rfl, ?_⟩
    rw [List.replicate_succ', run_snoc, hrun, ha]
    refine ⟨rfl, fun key => ?_, by rw [hlog, ← List.replicate_succ']⟩
    by_cases hk : key = redisKeyOf config (bucketOf guard req)
    · subst hk
      simp
    · simp [hbuckets, hk]

theorem inOrder_first {attempts : List Attempt} (h : ∀ a ∈ attempts, a.timeMs = 0) :
    InOrder attempts := by
  induction attempts with
  | nil => exact List.Pairwise.nil
  | cons a attempts ih =>
    refine List.pairwise_cons.mpr ⟨fun b _ => ?_, ih (fun b hb => h b (List.mem_cons_of_mem _ hb))⟩
    rw [h a List.mem_cons_self]
    exact Nat.zero_le _

/-- Callers counted under two keys get one attempt past the limit admitted, in one window. -/
theorem logOf_two_keys {r r' : RegisterRequest} (hpos : 0 < config.registerThrottleTtlSeconds)
    (hlim : 0 < config.registerThrottleLimit) (hne : bucketOf guard r ≠ bucketOf guard r') :
    logOf config guard (List.replicate config.registerThrottleLimit ⟨r, 0⟩ ++ [⟨r', 0⟩]) =
      List.replicate config.registerThrottleLimit (firstSecond config r) ++
        [firstSecond config r'] := by
  obtain ⟨traffic,hrun,hup,hbuckets,hlog⟩ :=
    run_filled guard r hpos (Nat.le_refl config.registerThrottleLimit)
  have hfree : traffic.redis.buckets (redisKeyOf config (bucketOf guard r')) = filled config 0 := by
    rw [hbuckets, if_neg (fun heq => hne (redisKeyOf_inj config heq).symm)]
    rfl
  rw [logOf, run_snoc, hrun, attempt_filled hpos hup hfree hlim, hlog]

theorem admittedWith_two_keys {r r' : RegisterRequest} {same : RegisterRequest → Bool}
    (hpos : 0 < config.registerThrottleTtlSeconds) (hr : same r = true) (hr' : same r' = true) :
    admittedWith config (List.replicate config.registerThrottleLimit (firstSecond config r) ++
      [firstSecond config r']) (firstSecond config r') same = config.registerThrottleLimit + 1 := by
  simp [admittedWith, List.countP_append, List.countP_replicate, firstSecond, Within, hr,
    hr', hpos]

/-- The bound per pubkey and per address holds of all runs of a set of callers exactly when
callers who share a pubkey or an address share a bucket, a limit of zero and a window of no
length apart. -/
theorem limited_iff (config : RegisterConfig) (guard : ThrottlerGuard)
    (hblock : guard.blockDuration (ttl config) = ttl config) (callers : RegisterRequest → Prop) :
    (∀ attempts, InOrder attempts → (∀ a ∈ attempts, callers a.request) →
      RateLimited config (logOf config guard attempts)) ↔
    config.registerThrottleLimit = 0 ∨ config.registerThrottleTtlSeconds = 0 ∨
      ∀ r r', callers r → callers r' → r.authPubkey = r'.authPubkey ∨ r.ip = r'.ip →
        bucketOf guard r = bucketOf guard r' := by
  constructor
  · intro h
    by_contra hno
    push Not at hno
    obtain ⟨hlim,hpos,r,r',hr,hr',hshare,hne⟩ := hno
    have hlim := Nat.pos_of_ne_zero hlim
    have hpos := Nat.pos_of_ne_zero hpos
    have hlog := logOf_two_keys hpos hlim hne
    have hl := h (List.replicate config.registerThrottleLimit ⟨r, 0⟩ ++ [⟨r', 0⟩]) ?_ ?_
    · rw [hlog] at hl
      rcases hshare with hkey | hip
      · have := hl.perPubkey (firstSecond config r') (by simp)
        rw [admittedWith_two_keys hpos (by simp [firstSecond, hkey]) (by simp [firstSecond])] at this
        omega
      · have := hl.perIp (firstSecond config r') (by simp)
        rw [admittedWith_two_keys hpos (by simp [firstSecond, hip]) (by simp [firstSecond])] at this
        omega
    · apply inOrder_first
      intro a ha
      rcases List.mem_append.mp ha with ha | ha
      · rw [(List.mem_replicate.mp ha).2]
      · rw [List.mem_singleton.mp ha]
    · intro a ha
      rcases List.mem_append.mp ha with ha | ha
      · rw [(List.mem_replicate.mp ha).2]
        exact hr
      · rw [List.mem_singleton.mp ha]
        exact hr'
  · intro hcond attempts horder hcallers
    by_cases hpos : config.registerThrottleTtlSeconds = 0
    · exact ⟨fun o _ => by rw [admittedWith_no_window hpos]; exact Nat.zero_le _,
        fun o _ => by rw [admittedWith_no_window hpos]; exact Nat.zero_le _⟩
    · obtain ⟨timeMs,hinv⟩ := (Inv.start config guard 0).run (Nat.pos_of_ne_zero hpos) hblock horder
        (fun _ _ => Nat.zero_le _)
      rcases hcond with hlim | hz | hshare
      · exact ⟨fun o _ => Nat.le_trans (Nat.le_of_eq (hinv.none_admitted hlim o _)) (Nat.zero_le _),
          fun o _ => Nat.le_trans (Nat.le_of_eq (hinv.none_admitted hlim o _)) (Nat.zero_le _)⟩
      · exact absurd hz hpos
      · have hc := logOf_callers config guard hcallers
        refine ⟨fun o ho => hinv.limited ho ?_, fun o ho => hinv.limited ho ?_⟩
        · intro o' ho' hs
          exact hshare _ _ (hc o' ho') (hc o ho) (Or.inl (by simpa using hs))
        · intro o' ho' hs
          exact hshare _ _ (hc o' ho') (hc o ho) (Or.inr (by simpa using hs))

/-- The defaults of the deployment. -/
def sampleConfig : RegisterConfig := ⟨60, 3, js "tip:"⟩

def sampleGuard : ThrottlerGuard := ⟨id, id⟩

def phone : RegisterRequest := ⟨some (js "203.0.113.7"), some (js "pubkey")⟩

/-- Four attempts in one second, from one place. -/
def repeating : List Attempt := [⟨phone, 0⟩, ⟨phone, 200⟩, ⟨phone, 400⟩, ⟨phone, 600⟩]

theorem one_caller_limited :
    RateLimited sampleConfig (logOf sampleConfig sampleGuard repeating) := by
  have hiff := limited_iff sampleConfig sampleGuard rfl (fun req => req = phone)
  refine hiff.mpr (Or.inr (Or.inr (fun _ _ hr hr' _ => by rw [hr, hr']))) repeating ?_ ?_
  · unfold InOrder
    decide
  · simp [repeating]

/-- Four attempts of one pubkey in one second, from two addresses, against a limit of three. -/
def rotating : List Attempt :=
  [⟨⟨some (js "203.0.113.7"), some (js "pubkey")⟩, 0⟩,
    ⟨⟨some (js "203.0.113.7"), some (js "pubkey")⟩, 200⟩,
    ⟨⟨some (js "203.0.113.8"), some (js "pubkey")⟩, 400⟩,
    ⟨⟨some (js "203.0.113.8"), some (js "pubkey")⟩, 600⟩]

theorem rotating_admitted :
    InOrder rotating ∧ ¬ RateLimited sampleConfig (logOf sampleConfig sampleGuard rotating) := by
  refine ⟨by unfold InOrder; decide, fun h => ?_⟩
  have hl := h.perPubkey ⟨phone, 0, true, 60⟩ (by decide)
  exact absurd hl (by decide)

end Tagwise.Proofs.RateLimit
