import Tagwise.Lib.Limiter
import Tagwise.Proofs.RateLimit

namespace Tagwise.Proofs.ThrottleScript
open Js Lib Tagwise.Api
open RateLimit (redisKeyOf foundAt lifeAfter lives_of_alive throttlerIncrement_cases)

/-- A call of `increment` for the bucket, and whether Redis has removed a key whose life
is over by then. -/
structure Call where
  timeMs : Nat
  removed : Bool

/-- The key with its life over and not removed yet. -/
def lingering (redis : ThrottlerRedis) (key : JsString) : ThrottlerRedis :=
  { redis with
    buckets := Function.update redis.buckets key
      ((redis.buckets key).map (fun stored => { stored with lastMs := none })) }

/-- What a call finds of Redis. -/
def foundBy (config : RegisterConfig) (key : JsString) (redis : ThrottlerRedis) (call : Call) :
    ThrottlerRedis :=
  if call.removed then redis else lingering redis (redisKeyOf config key)

def increment (config : RegisterConfig) (key : JsString) (l : Limits) (redis : ThrottlerRedis)
    (call : Call) : ThrottlerRedis × ThrottlerStorageRecord :=
  RedisThrottlerStorage.increment config (foundBy config key redis call) key (l.ttl * 1000) l.limit
    (l.blockDuration * 1000) call.timeMs

/-- The results of a sequence of calls. -/
def records (config : RegisterConfig) (key : JsString) (l : Limits) (redis : ThrottlerRedis) :
    List Call → List ThrottlerStorageRecord
  | [] => []
  | call :: calls =>
    (increment config key l redis call).2 ::
      records config key l (increment config key l redis call).1 calls

/-- The answer of a limiter in the script's four numbers. -/
def recordOf (now : Nat) (answer : LimiterAnswer) : ThrottlerStorageRecord where
  totalHits := answer.hits
  timeToExpire := (answer.windowEnd : Int) - now
  isBlocked := answer.blockEnd.isSome
  timeToBlockExpire := answer.blockEnd.elim 0 (fun blockEnd => (blockEnd : Int) - now)

/-- How a stored bucket stands to the limiter after a call in the second `now`. -/
inductive Shows (l : Limits) (now : Nat) : Option Bucket → Limiter → Prop
  | idle : Shows l now none .idle
  | counting (b : Bucket) (open_ : b.isBlocked = false) (fits : b.hits ≤ l.limit)
      (past : b.blockExpiresAt ≤ now) : Shows l now (some b) (.counting b.expiresAt b.hits)
  | blocked (b : Bucket) (blocked : b.isBlocked = true) (hits : b.hits = l.limit + 1) :
      Shows l now (some b) (.blocked b.expiresAt b.blockExpiresAt)

/-- A key lives as long as its window and its block. -/
def Lives (stored : Option BucketKey) : Prop :=
  ∀ s ∈ stored, ∀ last ∈ s.lastMs, s.bucket.expiresAt * 1000 ≤ last ∧
    s.bucket.blockExpiresAt * 1000 ≤ last

section Step
variable {l : Limits} {now now' : Nat} {data : Option Bucket} {s : Limiter}

theorem Shows.later (h : Shows l now data s) (hle : now ≤ now') : Shows l now' data s := by
  cases h with
  | idle => exact .idle
  | counting b open_ fits past => exact .counting b open_ fits (Nat.le_trans past hle)
  | blocked b hb hits => exact .blocked b hb hits

/-- Outside a block the script leaves the end of the last one where it was. -/
theorem blockExpiresAt_kept {ttl limit blockDuration : Nat}
    (h : (throttlerIncrement data ttl limit blockDuration now).isBlocked = false) :
    (throttlerIncrement data ttl limit blockDuration now).blockExpiresAt =
      (data.map Bucket.blockExpiresAt).getD 0 := by
  have hlast : ∀ b : Bucket, (if limit < b.hits ∧ (!b.isBlocked) = true then
      { b with isBlocked := true, blockExpiresAt := now + blockDuration } else b).isBlocked = false →
      (if limit < b.hits ∧ (!b.isBlocked) = true then
        { b with isBlocked := true, blockExpiresAt := now + blockDuration }
      else b).blockExpiresAt = b.blockExpiresAt := by
    intro b hb
    split at hb
    · cases hb
    · rename_i hno
      rw [if_neg hno]
  rw [throttlerIncrement] at h ⊢
  refine (hlast _ h).trans ?_
  have hdata : (data.getD ⟨0,now + ttl,0,false⟩).blockExpiresAt =
      (data.map Bucket.blockExpiresAt).getD 0 := by
    cases data with
    | none => rfl
    | some b => rfl
  rw [← hdata]
  split <;> split <;> split <;> rfl

/-- What the script returns of the fields it has written. -/
def written (now : Nat) (b : Bucket) : ThrottlerStorageRecord where
  totalHits := b.hits
  timeToExpire := (b.expiresAt : Int) - now
  isBlocked := b.isBlocked
  timeToBlockExpire := max 0 ((b.blockExpiresAt : Int) - now)

/-- The fields after a call stand to the limiter after it, with its answer, and the key lives on. -/
structure Answers (l : Limits) (now : Nat) (b : Bucket) (after : Limiter × LimiterAnswer) : Prop where
  shows : Shows l now (some b) after.1
  record : written now b = recordOf now after.2
  alive : now < max b.expiresAt b.blockExpiresAt

/-- A hit that leaves the window open. -/
theorem answers_open {b : Bucket} {before windowEnd : Nat}
    (hit : RateLimit.Hit l.limit l.blockDuration now before windowEnd b) (hroom : before < l.limit)
    (hover : b.blockExpiresAt ≤ now) (hopen : now < windowEnd) :
    Answers l now b (.counting windowEnd (before + 1), ⟨before + 1, windowEnd, none⟩) := by
  have hb : b.isBlocked = false := by
    rw [hit.isBlocked]
    exact decide_eq_false (by omega)
  have hshows := Shows.counting (l := l) b hb (by rw [hit.hits]; exact hroom) hover
  rw [hit.expiresAt, hit.hits] at hshows
  refine ⟨hshows,?_,?_⟩
  · have hzero : max 0 ((b.blockExpiresAt : Int) - now) = 0 := by omega
    rw [written, hzero, hit.hits, hit.expiresAt, hb]
    rfl
  · rw [hit.expiresAt]
    omega

/-- The hit that is one too many. -/
theorem answers_full {b : Bucket} {windowEnd : Nat}
    (hit : RateLimit.Hit l.limit l.blockDuration now l.limit windowEnd b) :
    Answers l now b (.blocked windowEnd (now + l.blockDuration),
      ⟨l.limit + 1, windowEnd, some (now + l.blockDuration)⟩) := by
  have hb : b.isBlocked = true := by
    rw [hit.isBlocked]
    exact decide_eq_true (Nat.lt_succ_self _)
  have hend := hit.blockExpiresAt hb
  have hshows : Shows l now (some b) (.blocked b.expiresAt b.blockExpiresAt) :=
    .blocked b hb hit.hits
  rw [hit.expiresAt, hend] at hshows
  have hblocks := l.blocks
  refine ⟨hshows,?_,?_⟩
  · have hpos : max 0 ((b.blockExpiresAt : Int) - now) = (now + l.blockDuration : Nat) - now := by
      omega
    rw [written, hpos, hit.hits, hit.expiresAt, hb]
    rfl
  · rw [hend]
    omega

/-- What the script finds: the fields last written, or, once both ends are past, nothing. -/
def Found (now : Nat) (data found : Option Bucket) : Prop :=
  found = data ∨ found = none ∧ ∀ b ∈ data, b.expiresAt ≤ now ∧ b.blockExpiresAt ≤ now

theorem Found.here {found : Option Bucket} {b : Bucket} (hf : Found now data found)
    (hb : found = some b) : data = some b := by
  rcases hf with rfl | ⟨rfl,_⟩
  · exact hb
  · cases hb

/-- Once its bucket is stale, the limiter opens a window. -/
theorem Shows.stale (h : Shows l now data s) (hle : now ≤ now')
    (hover : ∀ b, data = some b → RateLimit.Stale b now') :
    Limiter.call l s now' = Limiter.fresh l now' ∧ ∀ b, data = some b → b.blockExpiresAt ≤ now' := by
  cases h with
  | idle => exact ⟨rfl,fun b hb => by cases hb⟩
  | counting b hopen fits past =>
    have hend := hover b rfl
    rw [RateLimit.Stale, if_neg (by rw [hopen]; exact Bool.false_ne_true)] at hend
    refine ⟨Limiter.counting_over hend,fun b' hb => ?_⟩
    cases hb
    exact Nat.le_trans past hle
  | blocked b hblocked hits =>
    have hend := hover b rfl
    rw [RateLimit.Stale, if_pos hblocked] at hend
    refine ⟨Limiter.blocked_over hend,fun b' hb => ?_⟩
    cases hb
    exact hend

/-- One call. -/
theorem Shows.step {found : Option Bucket} (h : Shows l now data s) (hle : now ≤ now')
    (hf : Found now' data found) :
    Answers l now' (throttlerIncrement found l.ttl l.limit l.blockDuration now')
      (Limiter.call l s now') := by
  have hkept : (throttlerIncrement found l.ttl l.limit l.blockDuration now').isBlocked = false →
      (throttlerIncrement found l.ttl l.limit l.blockDuration now').blockExpiresAt =
        (found.map Bucket.blockExpiresAt).getD 0 := blockExpiresAt_kept
  rcases throttlerIncrement_cases found l.ttl l.limit l.blockDuration now' with
    ⟨b,hfound,hb,hlt,he⟩ | ⟨b,hfound,hb,hlt,hit⟩ | ⟨hstale,hit⟩
  · -- the block stands
    have hdata := hf.here hfound
    subst hdata
    cases h with
    | counting _ hopen => cases hb.symm.trans hopen
    | blocked _ _ hits =>
      rw [he, Limiter.call, if_pos hlt]
      refine ⟨.blocked b hb hits,?_,by omega⟩
      have hpos : max 0 ((b.blockExpiresAt : Int) - now') = (b.blockExpiresAt : Int) - now' := by
        omega
      rw [written, hpos, hits, hb]
      rfl
  · -- a hit in the window that is open
    have hdata := hf.here hfound
    subst hdata
    cases h with
    | blocked _ hblocked => cases hb.symm.trans hblocked
    | counting _ _ fits past =>
      rw [Limiter.call, if_pos hlt]
      by_cases hroom : b.hits < l.limit
      · rw [if_pos hroom]
        have hunblocked : (throttlerIncrement found l.ttl l.limit l.blockDuration now').isBlocked =
            false := by
          rw [hit.isBlocked]
          exact decide_eq_false (by omega)
        have hend := hkept hunblocked
        rw [hfound, Option.map_some, Option.getD_some] at hend
        exact answers_open hit hroom (by rw [hfound, hend]; omega) hlt
      · have hfull : b.hits = l.limit := Nat.le_antisymm fits (Nat.le_of_not_lt hroom)
        rw [if_neg hroom]
        rw [hfull] at hit
        exact answers_full hit
  · -- the first hit of a window
    have hover : ∀ b, data = some b → RateLimit.Stale b now' := by
      intro b hb
      rcases hf with rfl | ⟨rfl,hpast⟩
      · exact hstale b hb
      · obtain ⟨hwindow,hblock⟩ := hpast b hb
        unfold RateLimit.Stale
        split
        · exact hblock
        · exact hwindow
    obtain ⟨hcall,hend⟩ := h.stale hle hover
    have hadmits := l.admits
    have hunblocked : (throttlerIncrement found l.ttl l.limit l.blockDuration now').isBlocked =
        false := by
      rw [hit.isBlocked]
      exact decide_eq_false (by omega)
    rw [hcall]
    refine answers_open hit hadmits ?_ (Nat.lt_add_of_pos_right l.opens)
    rw [hkept hunblocked]
    rcases hf with rfl | ⟨rfl,_⟩
    · cases found with
      | none => exact Nat.zero_le _
      | some b => exact hend b rfl
    · exact Nat.zero_le _

end Step

section Calls
variable (config : RegisterConfig) (key : JsString) (l : Limits)

/-- How Redis stands to the limiter after a call in the second `now`. -/
structure Keeps (now : Nat) (redis : ThrottlerRedis) (s : Limiter) : Prop where
  up : redis.up = true
  shows : Shows l now ((redis.buckets (redisKeyOf config key)).map BucketKey.bucket) s
  lives : Lives (redis.buckets (redisKeyOf config key))

variable {config key l} {redis : ThrottlerRedis} {call : Call} {now : Nat} {s : Limiter}

variable (call) in
/-- Removed or not, a key past its life held nothing that still counts. -/
theorem found_live (h : Lives (redis.buckets (redisKeyOf config key))) :
    Found (call.timeMs / 1000) ((redis.buckets (redisKeyOf config key)).map BucketKey.bucket)
      (((foundBy config key redis call).live (redisKeyOf config key) call.timeMs).map
        BucketKey.bucket) := by
  rw [foundBy]
  by_cases hr : call.removed = true
  · rw [if_pos hr, ThrottlerRedis.live]
    cases hs : redis.buckets (redisKeyOf config key) with
    | none => exact .inl rfl
    | some stored =>
      by_cases halive : stored.lastMs.all (call.timeMs ≤ ·) = true
      · exact .inl (by rw [Option.filter_some, if_pos halive])
      · cases hl : stored.lastMs with
        | none => simp [hl] at halive
        | some last =>
          obtain ⟨hwindow,hblock⟩ := h stored hs last hl
          simp only [hl, Option.all_some, decide_eq_true_eq] at halive
          refine .inr ⟨by simp [Option.filter_some, hl, halive],fun b hb => ?_⟩
          cases hb
          omega
  · rw [if_neg hr, ThrottlerRedis.live, lingering]
    left
    simp only [Function.update_self]
    cases redis.buckets (redisKeyOf config key) <;> rfl

theorem increment_keeps (h : Keeps config key l now redis s) (hle : now ≤ call.timeMs / 1000) :
    Keeps config key l (call.timeMs / 1000) (increment config key l redis call).1
      (Limiter.call l s (call.timeMs / 1000)).1 ∧
    (increment config key l redis call).2 =
      recordOf (call.timeMs / 1000) (Limiter.call l s (call.timeMs / 1000)).2 := by
  have hanswers := h.shows.step hle (found_live call h.lives)
  have hup : (foundBy config key redis call).up = true := by
    rw [foundBy]
    split
    · exact h.up
    · exact h.up
  have httl : l.ttl * 1000 / 1000 = l.ttl := Nat.mul_div_cancel _ (by omega)
  have hblock : l.blockDuration * 1000 / 1000 = l.blockDuration := Nat.mul_div_cancel _ (by omega)
  have hincrement : increment config key l redis call = tipThrottlerIncrement
      (foundBy config key redis call) (redisKeyOf config key) (l.ttl * 1000) l.limit
      (l.blockDuration * 1000) call.timeMs := if_pos hup
  rw [hincrement, tipThrottlerIncrement, httl, hblock]
  refine ⟨⟨hup,?_,?_⟩,hanswers.record⟩
  · simp only [Function.update_self, Option.map_some]
    exact hanswers.shows
  · simp only [Function.update_self]
    intro stored hs
    cases hs
    exact lives_of_alive hanswers.alive

theorem keeps_unused {redis : ThrottlerRedis} (up : redis.up = true)
    (unused : redis.buckets (redisKeyOf config key) = none) : Keeps config key l 0 redis .idle := by
  refine ⟨up,?_,?_⟩
  · rw [unused]
    exact .idle
  · rw [unused]
    intro stored hs
    cases hs

theorem records_answers {calls : List Call} (h : Keeps config key l now redis s)
    (horder : (now :: calls.map (fun call => call.timeMs / 1000)).Pairwise (· ≤ ·)) :
    records config key l redis calls =
      (Limiter.answers l s (calls.map (fun call => call.timeMs / 1000))).map
        (fun (now, answer) => recordOf now answer) := by
  induction calls generalizing now redis s with
  | nil => rfl
  | cons call calls ih =>
    obtain ⟨hle,hrest⟩ := List.pairwise_cons.mp horder
    have hnext : now ≤ call.timeMs / 1000 := hle _ List.mem_cons_self
    obtain ⟨hkeeps,hrecord⟩ := increment_keeps h hnext
    rw [records, hrecord, ih hkeeps hrest]
    rfl

end Calls

/-- The results of any calls in order are those of a limiter, round after round, and the same
whichever keys past their life Redis has removed. -/
theorem script_rounds (config : RegisterConfig) (key : JsString) (l : Limits)
    (redis : ThrottlerRedis) (up : redis.up = true)
    (unused : redis.buckets (redisKeyOf config key) = none) (calls : List Call)
    (inOrder : (calls.map (fun call => call.timeMs / 1000)).Pairwise (· ≤ ·)) :
    (∃ answers, Limiter.Rounds l answers ∧
      answers.map Prod.fst = calls.map (fun call => call.timeMs / 1000) ∧
      records config key l redis calls = answers.map (fun (now, answer) => recordOf now answer)) ∧
    ∀ calls' : List Call, calls'.map Call.timeMs = calls.map Call.timeMs →
      records config key l redis calls' = records config key l redis calls := by
  have hseconds : ∀ calls' : List Call, calls'.map Call.timeMs = calls.map Call.timeMs →
      calls'.map (fun call => call.timeMs / 1000) = calls.map (fun call => call.timeMs / 1000) := by
    intro calls' he
    have hdiv := congrArg (List.map (· / 1000)) he
    rw [List.map_map, List.map_map] at hdiv
    exact hdiv
  have hrecords : ∀ calls' : List Call, calls'.map Call.timeMs = calls.map Call.timeMs →
      records config key l redis calls' =
        (Limiter.answers l .idle (calls.map (fun call => call.timeMs / 1000))).map
          (fun (now, answer) => recordOf now answer) := by
    intro calls' he
    rw [← hseconds calls' he] at inOrder ⊢
    exact records_answers (keeps_unused up unused) (List.pairwise_cons.mpr ⟨fun _ _ => Nat.zero_le _,inOrder⟩)
  refine ⟨⟨_,Limiter.answers_rounds _,Limiter.answers_times _ _,hrecords calls rfl⟩,fun calls' he => ?_⟩
  rw [hrecords calls' he, hrecords calls rfl]

/-- One hit in two seconds, and a block of three. -/
def sampleLimits : Limits := ⟨2,1,3,by decide,by decide,by decide⟩

/-- A call, one too many in the next second, and one just after the block's end that finds the
key removed or not. -/
def threeCalls (removed : Bool) : List Call := [⟨0,removed⟩,⟨1500,removed⟩,⟨4900,removed⟩]

theorem three_calls :
    records RateLimit.sampleConfig (js "bucket") sampleLimits ⟨true,fun _ => none⟩
        (threeCalls true) = [⟨1,2,false,0⟩,⟨2,1,true,3⟩,⟨1,2,false,0⟩] ∧
    records RateLimit.sampleConfig (js "bucket") sampleLimits ⟨true,fun _ => none⟩
        (threeCalls false) = [⟨1,2,false,0⟩,⟨2,1,true,3⟩,⟨1,2,false,0⟩] := by
  obtain ⟨_,hsame⟩ := script_rounds RateLimit.sampleConfig (js "bucket") sampleLimits
    ⟨true,fun _ => none⟩ rfl rfl (threeCalls true) (by decide)
  have hremoved : records RateLimit.sampleConfig (js "bucket") sampleLimits ⟨true,fun _ => none⟩
      (threeCalls true) = [⟨1,2,false,0⟩,⟨2,1,true,3⟩,⟨1,2,false,0⟩] := by decide
  exact ⟨hremoved,(hsame (threeCalls false) rfl).trans hremoved⟩

end Tagwise.Proofs.ThrottleScript
