import Tagwise.Api.Endpoints
import Tagwise.Api.Throttle

/-! The patch of a profile, from the JSON body to the handler: the guards in their order,
then the validation of the body. -/

namespace Tagwise.Api
open Js Tagwise.Core Services Lib

/-- The body as it is parsed: a key is missing, `null` or a string. -/
structure UpdateIdentityBody where
  displayName : Option (Option JsString)
  avatar : Option (Option JsString)
  bio : Option (Option JsString)
  preferredToken : Option (Option JsString)
  deriving DecidableEq

/-- `EDITABLE_FIELDS` of the raw body. -/
def UpdateIdentityBody.provided (body : UpdateIdentityBody) : UpdateIdentityProvidedFields where
  displayName := body.displayName.isSome
  avatar := body.avatar.isSome
  bio := body.bio.isSome
  preferredToken := body.preferredToken.isSome

def trimIfString (value : Option JsString) : Option JsString := value.map trim

/-- The instance that the pipe makes of the body. -/
def plainToInstance (body : UpdateIdentityBody) : UpdateIdentityRequestDto where
  displayName := trimIfString body.displayName.join
  avatar := body.avatar.join
  bio := trimIfString body.bio.join
  preferredToken := body.preferredToken.join

/-- The validator package's checks of a string. -/
structure Validators where
  minLength : JsString → Nat → Bool
  maxLength : JsString → Nat → Bool
  /-- With `https` as the one protocol, which has to be there, and any host. -/
  isUrl : JsString → Bool

def isUpperUnit (u : UInt16) : Bool := 65 ≤ u.toNat && u.toNat ≤ 90

/-- `/^[A-Z]{2,10}$/`. -/
def preferredTokenPattern (s : JsString) : Bool :=
  2 ≤ s.length && s.length ≤ 10 && s.all isUpperUnit

def complaint (passes : Bool) (message : JsString) : List JsString := if passes then [] else [message]

def tooLongMessage (field : JsString) (max : Nat) : JsString :=
  field ++ js " must be shorter than or equal to " ++ decimal max ++ js " characters"

/-- The checks of `displayName` and `bio`. A decorator applies before the one above it. -/
def freeTextErrors (v : Validators) (field : JsString) (max : Nat) (text : JsString) :
    List JsString :=
  complaint (v.maxLength text max) (tooLongMessage field max) ++
    complaint (v.minLength text 1) (field ++ js " must not be empty")

def avatarErrors (v : Validators) (avatar : JsString) : List JsString :=
  complaint (v.maxLength avatar 2048) (tooLongMessage (js "avatar") 2048) ++
    complaint (v.isUrl avatar) (js "avatar must be a URL address")

def preferredTokenErrors (preferredToken : JsString) : List JsString :=
  complaint (preferredTokenPattern preferredToken)
    (js ("preferredToken must be an uppercase symbol of 2-10 letters, for example SOL, USDC, or USDT"))

/-- `@IsOptional()`: `null` and `undefined` are not checked. -/
def isOptional (errors : JsString → List JsString) (value : Option JsString) : List JsString :=
  (value.map errors).getD []

def UpdateIdentityRequestDto.errors (v : Validators) (dto : UpdateIdentityRequestDto) :
    List JsString :=
  isOptional (freeTextErrors v (js "displayName") 50) dto.displayName ++
    isOptional (avatarErrors v) dto.avatar ++
    isOptional (freeTextErrors v (js "bio") 160) dto.bio ++
    isOptional preferredTokenErrors dto.preferredToken

def validationPipe (v : Validators) (body : UpdateIdentityBody) :
    ApiAsync UpdateIdentityRequestDto :=
  let dto := plainToInstance body
  match dto.errors v with
  | [] => return dto
  | messages => .fail (.validation messages)

def bearerPrefix : JsString := js "Bearer "

/-- The text behind the prefix, which may be empty. -/
def bearerToken (header : JsString) : Option JsString :=
  if bearerPrefix.isPrefixOf header then some (header.drop bearerPrefix.length) else none

/-- The subject of the token, which is the caller from here on. `verify` is the check of
its signature and of its time. -/
def JwtAuthGuard.canActivate (verify : JsString → Option JsString)
    (authorization : Option JsString) : ApiAsync JsString :=
  match authorization.bind bearerToken with
  | none | some [] => .fail (.unauthorized (js "missing bearer token"))
  | some token =>
    match verify token with
    | none => .fail (.unauthorized (js "invalid or expired token"))
    | some sub => return sub

structure ProfileConfig extends RegisterConfig where
  dep : Deployment
  identityUpdateThrottleTtlSeconds : Nat
  identityUpdateThrottleLimit : Nat
  throttler : ThrottlerGuard
  verify : JsString → Option JsString
  validators : Validators

/-- The buckets as a request finds them, and the time at which it does. -/
structure Moment where
  throttlerRedis : ThrottlerRedis
  timeMs : Nat

/-- The tracker is the caller alone. What the count leaves in its bucket is no part of the
world here. -/
def IdentityUpdateThrottlerGuard.canActivate (config : ProfileConfig) (moment : Moment)
    (authPubkey : JsString) : ApiAsync Unit :=
  let ttl := config.identityUpdateThrottleTtlSeconds * 1000
  let record := (RedisThrottlerStorage.increment config.toRegisterConfig moment.throttlerRedis
    (config.throttler.generateKey authPubkey) ttl config.identityUpdateThrottleLimit
    (config.throttler.blockDuration ttl) moment.timeMs).2
  if record.isBlocked then
    .fail (.tooManyRequests (js "ThrottlerException: Too Many Requests"))
  else return ()

/-- What is provided is read off the raw body, its values off the instance. -/
def TagsController.updateIdentity (dep : Deployment) (rawTag : JsString)
    (dto : UpdateIdentityRequestDto) (body : UpdateIdentityBody) (ownerPubkey : JsString) :
    ApiAsync IdentityResponse := do
  let tag ← normalizeTagParamOrThrow rawTag
  relay (Api.updateIdentity dep { tag, ownerPubkey, dto, provided := body.provided })

structure PatchRequest where
  authorization : Option JsString
  rawTag : JsString
  body : UpdateIdentityBody
  deriving DecidableEq

/-- `PATCH /v1/identity/:tag`. -/
def patchIdentity (config : ProfileConfig) (moment : Moment) (request : PatchRequest) :
    ApiAsync IdentityResponse := do
  let authPubkey ← JwtAuthGuard.canActivate config.verify request.authorization
  TagOwnershipGuard.canActivate authPubkey request.rawTag
  IdentityUpdateThrottlerGuard.canActivate config moment authPubkey
  let dto ← validationPipe config.validators request.body
  TagsController.updateIdentity config.dep request.rawTag dto request.body authPubkey

end Tagwise.Api
