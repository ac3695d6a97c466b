import Mathlib.Logic.Function.Basic
import Tagwise.Api.Auth
import Tagwise.Lib.Machine

namespace Tagwise.Api
open Js

/-- The hash fields of a rate-limit bucket, in whole seconds. -/
structure Bucket where
  hits : Nat
  expiresAt : Nat
  blockExpiresAt : Nat
  isBlocked : Bool
  deriving DecidableEq

/-- `THROTTLER_INCREMENT_LUA` between its read and its write of the fields. -/
def throttlerIncrement (data : Option Bucket) (ttl limit blockDuration now : Nat) : Bucket :=
  let b := data.getD { hits := 0, expiresAt := now + ttl, blockExpiresAt := 0, isBlocked := false }
  let b := if b.isBlocked ∧ b.blockExpiresAt ≤ now then
    { b with isBlocked := false, hits := 0, expiresAt := now + ttl } else b
  let b := if !b.isBlocked ∧ b.expiresAt ≤ now then { b with hits := 0, expiresAt := now + ttl } else b
  let b := if !b.isBlocked then { b with hits := b.hits + 1 } else b
  if limit < b.hits ∧ !b.isBlocked then
    { b with isBlocked := true, blockExpiresAt := now + blockDuration }
  else b

/-- A key of Redis: its fields, and the last millisecond of its life. -/
structure BucketKey where
  bucket : Bucket
  lastMs : Option Nat
  deriving DecidableEq

structure ThrottlerRedis where
  up : Bool
  buckets : JsString → Option BucketKey

/-- What a command at `timeMs` finds under a key. -/
def ThrottlerRedis.live (redis : ThrottlerRedis) (key : JsString) (timeMs : Nat) : Option BucketKey :=
  (redis.buckets key).filter (fun stored => stored.lastMs.all (timeMs ≤ ·))

structure ThrottlerStorageRecord where
  totalHits : Nat
  timeToExpire : Int
  isBlocked : Bool
  timeToBlockExpire : Int
  deriving DecidableEq

/-- The whole script: `HMSET` keeps a life that `EXPIRE` does not replace. -/
def tipThrottlerIncrement (redis : ThrottlerRedis) (key : JsString)
    (ttlMs limit blockDurationMs timeMs : Nat) : ThrottlerRedis × ThrottlerStorageRecord :=
  let now := timeMs / 1000
  let stored := redis.live key timeMs
  let b := throttlerIncrement (stored.map BucketKey.bucket) (ttlMs / 1000) limit
    (blockDurationMs / 1000) now
  let expireAt := max b.expiresAt b.blockExpiresAt
  let lastMs := if now < expireAt then some (timeMs + (expireAt - now) * 1000)
    else stored.bind BucketKey.lastMs
  ({ redis with buckets := Function.update redis.buckets key (some ⟨b, lastMs⟩) },
    { totalHits := b.hits
      timeToExpire := (b.expiresAt : Int) - now
      isBlocked := b.isBlocked
      timeToBlockExpire := max 0 ((b.blockExpiresAt : Int) - now) })

structure RegisterConfig where
  registerThrottleTtlSeconds : Nat
  registerThrottleLimit : Nat
  redisKeyPrefix : JsString

namespace RedisThrottlerStorage

/-- Fails open: without Redis nothing counts as blocked. -/
def increment (config : RegisterConfig) (redis : ThrottlerRedis) (key : JsString)
    (ttl limit blockDuration timeMs : Nat) : ThrottlerRedis × ThrottlerStorageRecord :=
  if redis.up then
    tipThrottlerIncrement redis (redisKey config.redisKeyPrefix (js "throttle") [key]) ttl limit
      blockDuration timeMs
  else
    (redis, { totalHits := 0, timeToExpire := ((ttl + 999) / 1000 : Nat), isBlocked := false,
              timeToBlockExpire := 0 })

end RedisThrottlerStorage

/-- What the code takes from the throttler package: the hash that names a tracker's bucket,
and the block duration, in milliseconds, of a throttler that sets none. -/
structure ThrottlerGuard where
  generateKey : JsString → JsString
  blockDuration : Nat → Nat

/-- What the guards in front of the handler leave on the request. -/
structure RegisterRequest where
  ip : Option JsString
  authPubkey : Option JsString
  deriving DecidableEq

namespace RegisterThrottlerGuard

def getTracker (req : RegisterRequest) : JsString :=
  req.ip.getD (js "unknown-ip") ++ js ":" ++ req.authPubkey.getD (js "unauthenticated")

def ttl (config : RegisterConfig) : Nat := config.registerThrottleTtlSeconds * 1000

/-- One attempt at `timeMs`: it is admitted unless its bucket is blocked. -/
def canActivate (config : RegisterConfig) (guard : ThrottlerGuard) (redis : ThrottlerRedis)
    (req : RegisterRequest) (timeMs : Nat) : ThrottlerRedis × ThrottlerStorageRecord :=
  RedisThrottlerStorage.increment config redis (guard.generateKey (getTracker req)) (ttl config)
    config.registerThrottleLimit (guard.blockDuration (ttl config)) timeMs

end RegisterThrottlerGuard

structure Attempt where
  request : RegisterRequest
  timeMs : Nat
  deriving DecidableEq

/-- What became of an attempt, and the second at which its bucket's window ends. -/
structure Attempted where
  request : RegisterRequest
  now : Nat
  admitted : Bool
  windowEnd : Int
  deriving DecidableEq

structure RegisterTraffic where
  redis : ThrottlerRedis
  log : List Attempted

def RegisterTraffic.start : RegisterTraffic := ⟨⟨true, fun _ => none⟩, []⟩

def RegisterTraffic.attempt (config : RegisterConfig) (guard : ThrottlerGuard)
    (traffic : RegisterTraffic) (a : Attempt) : RegisterTraffic :=
  let (redis, record) :=
    RegisterThrottlerGuard.canActivate config guard traffic.redis a.request a.timeMs
  ⟨redis, traffic.log ++ [{
    request := a.request
    now := a.timeMs / 1000
    admitted := !record.isBlocked
    windowEnd := (a.timeMs / 1000 : Nat) + record.timeToExpire }]⟩

end Tagwise.Api
