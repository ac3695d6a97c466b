import Tagwise.Core.Account
import Tagwise.Services.Deployment
import Tagwise.Services.World

namespace Tagwise.Api
open Js Tagwise.Core Services Lib

def presentTag (tag : JsString) : JsString := js "@" ++ tag

def buildPaymentLink (baseUrl tag : JsString) : JsString := baseUrl ++ js "/@" ++ tag

def buildProfileLink (baseUrl tag : JsString) : JsString := baseUrl ++ js "/@" ++ tag

def buildQrLink (baseUrl tag : JsString) : JsString := baseUrl ++ js "/@" ++ tag ++ js "/qr"

namespace RedisCacheReader

def isResolveKey (dep : Deployment) (key : JsString) : Bool :=
  (dep.redisKeyPrefix ++ js "resolve:").isPrefixOf key

def get (dep : Deployment) (key : JsString) : Async (Option CacheValue) :=
  if !isResolveKey dep key then return none
  else do
    match ← redisGet key with
    | .ok value => return value
    | .error () => return none

def set (dep : Deployment) (key : JsString) (value : CacheValue) (ttlSeconds : Option Nat) :
    Async Unit :=
  if !isResolveKey dep key then return ()
  else do
    let _ ← redisSet key value (ttlSeconds.getD dep.resolveCacheTtlSeconds)
    return ()

def delete (dep : Deployment) (key : JsString) : Async Unit :=
  if !isResolveKey dep key then return ()
  else do
    let _ ← redisDel key
    return ()

theorem isResolveKey_built (dep : Deployment) (tag : JsString) :
    isResolveKey dep (buildResolveCacheKey dep.redisKeyPrefix tag) = true :=
  List.isPrefixOf_iff_prefix.mpr (List.prefix_append _ _)

end RedisCacheReader

/-- What an answer of the RPC node says of a tag, profile fields aside. -/
def fromAccount (dep : Deployment) : Except Unit (Option (List UInt8)) → Option Identity
  | .ok (some data) =>
    match decodeTagAccount dep.sol data with
    | .error _ => none
    | .ok decoded => some {
        tag := decoded.tag
        owner := decoded.owner
        wallet := decoded.wallet
        bump := decoded.bump.toNat
        displayName := none
        avatar := none
        bio := none
        preferredToken := none
        verified := false
        merchant := false
        status := .active
        lastAppliedSlot := 0
        createdAt := 0 }
  | _ => none

def SolanaChainFallback.lookup (dep : Deployment) (tag : JsString) : Async (Option Identity) :=
  match deriveTagPda dep.sol tag with
  | .error e => .fail (.pda e)
  | .ok (pda, _) => do
    let account ← getAccountInfo pda
    return fromAccount dep account

def notFound (tag : JsString) : Thrown := .notFound (js "tag " ++ presentTag tag ++ js " not found")

def findActiveIdentity (tag : JsString) : Async (Option Identity) := do
  let row ← findUnique tag
  return row.filter (fun row => row.status = .active)

def resolveResponse (dep : Deployment) (tag : JsString) (row : Identity) : ResolveResponse where
  tag := presentTag tag
  wallet := row.wallet
  displayName := row.displayName
  avatar := row.avatar
  verified := row.verified
  merchant := row.merchant
  preferredToken := row.preferredToken
  paymentLink := buildPaymentLink dep.paymentLinkBaseUrl tag
  profileLink := buildProfileLink dep.paymentLinkBaseUrl tag
  qrLink := buildQrLink dep.paymentLinkBaseUrl tag

/-- The row to answer from, and its override of the time to live. A row in the mirror,
active or not, keeps the chain out of it. -/
def sourceRow (dep : Deployment) (tag : JsString) :
    Option Identity → Async (Option Identity × Option Nat)
  | some mirrorRow => return (if mirrorRow.status = .active then some mirrorRow else none, none)
  | none => do
    let fromChain ← SolanaChainFallback.lookup dep tag
    match fromChain with
    | some row =>
      if row.status = .active then return (some row, some dep.resolveCacheNegativeTtlSeconds)
      else return (none, none)
    | none => return (none, none)

/-- The end of `resolveUncached`: the answer is cached before it is given. -/
def answerFrom (dep : Deployment) (tag cacheKey : JsString) :
    Option Identity × Option Nat → Async ResolveResponse
  | (none, _) => do
    RedisCacheReader.set dep cacheKey .negative (some dep.resolveCacheNegativeTtlSeconds)
    .fail (notFound tag)
  | (some row, ttlOverride) => do
    let response := resolveResponse dep tag row
    RedisCacheReader.set dep cacheKey (.response response) ttlOverride
    return response

def resolveUncached (dep : Deployment) (tag cacheKey : JsString) : Async ResolveResponse := do
  let mirrorRow ← findUnique tag
  let source ← sourceRow dep tag mirrorRow
  answerFrom dep tag cacheKey source

/-- A promise's outcome as a value, and back. -/
def settle (p : Async α) : Async (Except Thrown α) :=
  (do return .ok (← p) : Async (Except Thrown α)).tryCatch (fun e => return .error e)

def settled : Except Thrown α → Async α
  | .ok a => return a
  | .error e => .fail e

def enterFlight (server : Nat) (key : JsString) : Async Flight :=
  Prog.request (Command.enterFlight server key)

def leaveFlight (server : Nat) (key : JsString) (flight : Nat)
    (result : Except Thrown ResolveResponse) : Async Unit :=
  Prog.request (Command.leaveFlight server key flight result)

def awaitFlight (flight : Nat) : Async (Except Thrown ResolveResponse) :=
  Prog.request (Command.awaitFlight flight)

/-- Every API instance has a map of the lookups in flight. The `finally` that takes a
lookup out of it and the settling of the promise others hold are one turn. -/
def resolve (dep : Deployment) (server : Nat) (tag : NormalizedTag) : Async ResolveResponse := do
  let cacheKey := buildResolveCacheKey dep.redisKeyPrefix tag
  match ← RedisCacheReader.get dep cacheKey with
  | some .negative => .fail (notFound tag)
  | some (.response cached) => return cached
  | none =>
    match ← enterFlight server cacheKey with
    | .joins flight => settled (← awaitFlight flight)
    | .leads flight =>
      let result ← settle (resolveUncached dep tag cacheKey)
      leaveFlight server cacheKey flight result
      settled result

structure IdentityResponse where
  tag : JsString
  owner : JsString
  wallet : JsString
  displayName : Option JsString
  avatar : Option JsString
  bio : Option JsString
  preferredToken : Option JsString
  verified : Bool
  merchant : Bool
  createdAt : Nat
  deriving DecidableEq

def toIdentityResponse (tag : JsString) (row : Identity) : IdentityResponse where
  tag := presentTag tag
  owner := row.owner
  wallet := row.wallet
  displayName := row.displayName
  avatar := row.avatar
  bio := row.bio
  preferredToken := row.preferredToken
  verified := row.verified
  merchant := row.merchant
  createdAt := row.createdAt

/-- `undefined` and `null` alike are `none`. -/
structure UpdateIdentityRequestDto where
  displayName : Option JsString
  avatar : Option JsString
  bio : Option JsString
  preferredToken : Option JsString
  deriving DecidableEq

structure UpdateIdentityProvidedFields where
  displayName : Bool
  avatar : Bool
  bio : Bool
  preferredToken : Bool
  deriving DecidableEq

structure UpdateIdentityParams where
  tag : NormalizedTag
  ownerPubkey : JsString
  dto : UpdateIdentityRequestDto
  provided : UpdateIdentityProvidedFields
  deriving DecidableEq

/-- The profanity check on one free text. -/
def checkFreeText (dep : Deployment) (field : JsString) : Option JsString → Async Unit
  | none => return ()
  | some text =>
    match Moderation.isBlockedName dep.engine text with
    | .error () => .fail .moderation
    | .ok true =>
      .fail (.forbidden (field ++ js " is not allowed: profanity") (some (js "profanity")))
    | .ok false => return ()

/-- The check passes or throws, and sends nothing. -/
theorem checkFreeText_cases (dep : Deployment) (field : JsString) (text : Option JsString) :
    checkFreeText dep field text = .done () ∨ ∃ e, checkFreeText dep field text = .fail e := by
  cases text with
  | none => exact .inl rfl
  | some text =>
    rw [checkFreeText]
    cases Moderation.isBlockedName dep.engine text with
    | error e => exact .inr ⟨_,rfl⟩
    | ok blocked =>
      cases blocked with
      | true => exact .inr ⟨_,rfl⟩
      | false => exact .inl rfl

def profileData (dto : UpdateIdentityRequestDto) (provided : UpdateIdentityProvidedFields) :
    IdentityData where
  displayName := if provided.displayName then some dto.displayName else none
  avatar := if provided.avatar then some dto.avatar else none
  bio := if provided.bio then some dto.bio else none
  preferredToken := if provided.preferredToken then some dto.preferredToken else none

def updateIdentity (dep : Deployment) (params : UpdateIdentityParams) : Async IdentityResponse := do
  match ← findActiveIdentity params.tag with
  | none => .fail (notFound params.tag)
  | some row =>
    if row.owner ≠ params.ownerPubkey then
      .fail (.forbidden (js "caller does not own this tag") none)
    else
      checkFreeText dep (js "displayName") params.dto.displayName
      checkFreeText dep (js "bio") params.dto.bio
      let updated ← update params.tag (profileData params.dto params.provided)
      RedisCacheReader.delete dep (buildResolveCacheKey dep.redisKeyPrefix params.tag)
      return toIdentityResponse params.tag updated

end Tagwise.Api
