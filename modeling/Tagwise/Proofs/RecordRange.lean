import Tagwise.Proofs.ThrottleScript

namespace Tagwise.Proofs.RecordRange
open Js Lib Tagwise.Api ThrottleScript
open RateLimit (redisKeyOf)

/-- The ranges that the fields of a record keep to, in seconds. -/
structure InRange (l : Limits) (record : ThrottlerStorageRecord) : Prop where
  timeToExpire : 0 ≤ record.timeToExpire ∧ record.timeToExpire ≤ l.ttl
  timeToBlockExpire : 0 ≤ record.timeToBlockExpire ∧ record.timeToBlockExpire ≤ l.blockDuration
  totalHits : 1 ≤ record.totalHits ∧ record.totalHits ≤ l.limit + 1
  isBlocked : record.isBlocked = true ↔ 0 < record.timeToBlockExpire

instance (l : Limits) (record : ThrottlerStorageRecord) : Decidable (InRange l record) :=
  decidable_of_iff ((0 ≤ record.timeToExpire ∧ record.timeToExpire ≤ l.ttl) ∧
      (0 ≤ record.timeToBlockExpire ∧ record.timeToBlockExpire ≤ l.blockDuration) ∧
      (1 ≤ record.totalHits ∧ record.totalHits ≤ l.limit + 1) ∧
      (record.isBlocked = true ↔ 0 < record.timeToBlockExpire))
    ⟨fun h => ⟨h.1,h.2.1,h.2.2.1,h.2.2.2⟩,fun h => ⟨h.1,h.2,h.3,h.4⟩⟩

/-- The bucket is still blocked at `now`, when the window its block began in is over. -/
def Outlived (data : Option Bucket) (now : Nat) : Prop :=
  ∃ b ∈ data, b.isBlocked = true ∧ b.expiresAt < now ∧ now < b.blockExpiresAt

/-- No call finds its bucket so. -/
def InWindow (config : RegisterConfig) (key : JsString) (l : Limits) (redis : ThrottlerRedis) :
    List Call → Prop
  | [] => True
  | call :: calls =>
    ¬ Outlived ((redis.buckets (redisKeyOf config key)).map BucketKey.bucket) (call.timeMs / 1000) ∧
      InWindow config key l (increment config key l redis call).1 calls

section Step
variable {l : Limits} {now : Nat}

theorem outlived_iff {data : Option Bucket} {s : Limiter} {before : Nat}
    (h : Shows l before data s) : Outlived data now ↔ Limiter.Outlasts s now := by
  constructor
  · intro hout
    obtain ⟨b,hb,hblocked,hpast,hunder⟩ := hout
    cases h with
    | idle => cases hb
    | counting b' hopen =>
      cases hb
      cases hblocked.symm.trans hopen
    | blocked b' =>
      cases hb
      exact ⟨hpast,hunder⟩
  · intro hout
    cases h with
    | idle => exact hout.elim
    | counting => exact hout.elim
    | blocked b hblocked => exact ⟨b,rfl,hblocked,hout⟩

/-- Only a call that comes after its window's end falls out of the ranges. -/
theorem inRange_iff {answer : LimiterAnswer} (h : Limiter.Bounded l now answer) :
    InRange l (recordOf now answer) ↔ now ≤ answer.windowEnd := by
  have hblock : (0 ≤ (recordOf now answer).timeToBlockExpire ∧
      (recordOf now answer).timeToBlockExpire ≤ l.blockDuration) ∧
      ((recordOf now answer).isBlocked = true ↔ 0 < (recordOf now answer).timeToBlockExpire) := by
    cases hb : answer.blockEnd with
    | none => simp [recordOf, hb]
    | some blockEnd =>
      obtain ⟨hunder,hdue⟩ := h.blockEnd blockEnd hb
      simp only [recordOf, hb, Option.elim_some, Option.isSome_some, true_iff]
      omega
  have hdue := h.windowEnd
  constructor
  · intro hrange
    have hexpire : 0 ≤ (answer.windowEnd : Int) - now := hrange.timeToExpire.1
    omega
  · intro hin
    refine ⟨?_,hblock.1,h.hits,hblock.2⟩
    rw [recordOf]
    simp only
    omega

end Step

section Calls
variable {config : RegisterConfig} {key : JsString} {l : Limits}

/-- The calls of a bucket as they come to the limiter it shows. -/
theorem ranges {redis : ThrottlerRedis} {s : Limiter} {now : Nat} {calls : List Call}
    (h : Keeps config key l now redis s) (hdue : Limiter.Due l now s)
    (inOrder : (now :: calls.map (fun call => call.timeMs / 1000)).Pairwise (· ≤ ·)) :
    ((∀ record ∈ records config key l redis calls, InRange l record) ↔
      InWindow config key l redis calls) ∧
    (InWindow config key l redis calls ↔
      Limiter.Inside l s (calls.map (fun call => call.timeMs / 1000))) := by
  induction calls generalizing now redis s with
  | nil => exact ⟨iff_of_true (by simp [records]) trivial,Iff.rfl⟩
  | cons call calls ih =>
    obtain ⟨hle,hrest⟩ := List.pairwise_cons.mp inOrder
    have hnext : now ≤ call.timeMs / 1000 := hle _ List.mem_cons_self
    obtain ⟨hkeeps,hrecord⟩ := increment_keeps h hnext
    obtain ⟨hdue,hbounded,hin⟩ := Limiter.call_due hdue hnext
    obtain ⟨hrecords,hinside⟩ := ih hkeeps hdue hrest
    have hout : Outlived ((redis.buckets (redisKeyOf config key)).map BucketKey.bucket)
        (call.timeMs / 1000) ↔ Limiter.Outlasts s (call.timeMs / 1000) := outlived_iff h.shows
    constructor
    · rw [records, List.forall_mem_cons, hrecord, inRange_iff hbounded, hin, hrecords, InWindow, hout]
    · rw [InWindow, hout, hinside]
      rfl

end Calls

/-- A call at the start of a second. -/
def callAt (second : Nat) : Call := ⟨second * 1000, false⟩

/-- A bucket that no call has come to yet: its records keep to their ranges exactly when no call
finds it under a block that has outlived its window, whatever the calls exactly when blocks
last two seconds at most. -/
theorem ranges_iff (config : RegisterConfig) (key : JsString) (l : Limits) (redis : ThrottlerRedis)
    (up : redis.up = true) (unused : redis.buckets (redisKeyOf config key) = none) :
    (∀ calls : List Call, (calls.map (fun call => call.timeMs / 1000)).Pairwise (· ≤ ·) →
      ((∀ record ∈ records config key l redis calls, InRange l record) ↔
        InWindow config key l redis calls)) ∧
    ((∀ calls : List Call, (calls.map (fun call => call.timeMs / 1000)).Pairwise (· ≤ ·) →
      ∀ record ∈ records config key l redis calls, InRange l record) ↔ l.blockDuration ≤ 2) := by
  have hranges : ∀ calls : List Call,
      (calls.map (fun call => call.timeMs / 1000)).Pairwise (· ≤ ·) →
      ((∀ record ∈ records config key l redis calls, InRange l record) ↔
        InWindow config key l redis calls) ∧
      (InWindow config key l redis calls ↔
        Limiter.Inside l .idle (calls.map (fun call => call.timeMs / 1000))) :=
    fun calls inOrder => ranges (keeps_unused up unused) trivial
      (List.pairwise_cons.mpr ⟨fun _ _ => Nat.zero_le _,inOrder⟩)
  refine ⟨fun calls inOrder => (hranges calls inOrder).1,?_⟩
  rw [← Limiter.inside_iff]
  constructor
  · intro h nows horder
    have hseconds : (nows.map callAt).map (fun call => call.timeMs / 1000) = nows := by
      rw [List.map_map]
      exact List.map_id'' (fun second => Nat.mul_div_cancel _ (by decide)) nows
    have hnows := hranges (nows.map callAt)
    rw [hseconds] at hnows
    obtain ⟨hin,hinside⟩ := hnows horder
    exact hinside.mp (hin.mp (h _ (by rwa [hseconds])))
  · intro h calls inOrder
    obtain ⟨hin,hinside⟩ := hranges calls inOrder
    exact hin.mpr (hinside.mpr (h _ inOrder))

/-- Five calls in a minute, and a block of one. -/
def perMinute : Limits := ⟨60,5,60,by decide,by decide,by decide⟩

/-- A block that starts in the last second of its window, a call under it as the window ends,
and one after the block. -/
def promptCalls : List Call := [0,59,59,59,59,59,60,119].map callAt

theorem prompt_calls :
    records RateLimit.sampleConfig (js "bucket") perMinute ⟨true,fun _ => none⟩ promptCalls =
      [⟨1,60,false,0⟩,⟨2,1,false,0⟩,⟨3,1,false,0⟩,⟨4,1,false,0⟩,⟨5,1,false,0⟩,⟨6,1,true,60⟩,
        ⟨6,0,true,59⟩,⟨1,60,false,0⟩] ∧
    InWindow RateLimit.sampleConfig (js "bucket") perMinute ⟨true,fun _ => none⟩ promptCalls := by
  have hrecords : records RateLimit.sampleConfig (js "bucket") perMinute ⟨true,fun _ => none⟩
      promptCalls = [⟨1,60,false,0⟩,⟨2,1,false,0⟩,⟨3,1,false,0⟩,⟨4,1,false,0⟩,⟨5,1,false,0⟩,
        ⟨6,1,true,60⟩,⟨6,0,true,59⟩,⟨1,60,false,0⟩] := by decide
  obtain ⟨hiff,_⟩ := ranges_iff RateLimit.sampleConfig (js "bucket") perMinute
    ⟨true,fun _ => none⟩ rfl rfl
  refine ⟨hrecords,(hiff promptCalls (by decide)).mp ?_⟩
  rw [hrecords]
  decide

/-- The same with a call under the block a second later. -/
def lateCalls : List Call := [0,59,59,59,59,59,61].map callAt

theorem late_calls :
    (lateCalls.map (fun call => call.timeMs / 1000)).Pairwise (· ≤ ·) ∧
    ¬ ∀ record ∈ records RateLimit.sampleConfig (js "bucket") perMinute ⟨true,fun _ => none⟩ lateCalls,
      InRange perMinute record := by decide

end Tagwise.Proofs.RecordRange
