import Tagwise.Api.Auth
import Tagwise.Api.Profile

/-! The routes over tags and sessions, from the request as it arrives: its guards in their
order, the checks of its body, and the handler. -/

namespace Tagwise.Api
open Js Tagwise.Core Services Lib

structure HttpConfig extends ApiConfig where
  /-- The check of a session token at a time, which gives its subject. -/
  verifyAsync : Nat → JsString → Option JsString
  throttles : RegisterConfig
  identityUpdateThrottleTtlSeconds : Nat
  identityUpdateThrottleLimit : Nat
  throttler : ThrottlerGuard
  validators : Validators

/-- The same settings, for a request that arrives at a moment. -/
def HttpConfig.profile (cfg : HttpConfig) (moment : Moment) : ProfileConfig where
  toRegisterConfig := cfg.throttles
  dep := cfg.dep
  identityUpdateThrottleTtlSeconds := cfg.identityUpdateThrottleTtlSeconds
  identityUpdateThrottleLimit := cfg.identityUpdateThrottleLimit
  throttler := cfg.throttler
  verify := cfg.verifyAsync moment.timeMs
  validators := cfg.validators

structure RegisterBody where
  tag : JsString
  wallet : Nullish JsString
  feePayer : Nullish JsString
  deriving DecidableEq

inductive Route
  | resolve (rawTag : JsString)
  | identity (rawTag : JsString)
  | availability (rawTag : JsString)
  | search (q : Option JsString)
  | qr (rawTag : JsString)
  | paymentLink (rawTag : JsString)
  | updateIdentity (rawTag : JsString) (body : UpdateIdentityBody)
  | updateWallet (rawTag wallet : JsString)
  | register (body : RegisterBody)
  | me
  deriving DecidableEq

structure HttpRequest where
  authorization : Option JsString
  ip : Option JsString
  route : Route
  deriving DecidableEq

inductive HttpAnswer
  | api (answer : ApiAnswer)
  | me (pubkey : JsString)
  deriving DecidableEq

def tooShortMessage (field : JsString) (min : Nat) : JsString :=
  field ++ js " must be longer than or equal to " ++ decimal min ++ js " characters"

def lengthErrors (v : Validators) (field : JsString) (min : Nat) (text : JsString) :
    List JsString :=
  complaint (v.minLength text min) (tooShortMessage field min)

/-- `@IsOptional()` of a field that stays `null` where the body has `null`. -/
def Nullish.errors (errors : JsString → List JsString) : Nullish JsString → List JsString
  | .undefined | .null => []
  | .value text => errors text

def RegisterBody.errors (v : Validators) (body : RegisterBody) : List JsString :=
  lengthErrors v (js "tag") 1 body.tag ++
    Nullish.errors (lengthErrors v (js "wallet") 32) body.wallet ++
    Nullish.errors (lengthErrors v (js "feePayer") 32) body.feePayer

def validated : List JsString → ApiAsync Unit
  | [] => return ()
  | messages => .fail (.validation messages)

def RegisterThrottlerGuard.admit (cfg : HttpConfig) (moment : Moment) (ip : Option JsString)
    (authPubkey : JsString) : ApiAsync Unit :=
  let record := (RegisterThrottlerGuard.canActivate cfg.throttles cfg.throttler
    moment.throttlerRedis { ip, authPubkey := some authPubkey } moment.timeMs).2
  if record.isBlocked then
    .fail (.tooManyRequests (js "ThrottlerException: Too Many Requests"))
  else return ()

/-- `POST /v1/identity/:tag/wallet`. -/
def postWallet (cfg : HttpConfig) (moment : Moment) (authorization : Option JsString)
    (rawTag wallet : JsString) : ApiAsync TransactionResponse := do
  let authPubkey ← JwtAuthGuard.canActivate (cfg.verifyAsync moment.timeMs) authorization
  TagOwnershipGuard.canActivate authPubkey rawTag
  IdentityUpdateThrottlerGuard.canActivate (cfg.profile moment) moment authPubkey
  validated (lengthErrors cfg.validators (js "wallet") 32 wallet)
  let tag ← normalizeTagParamOrThrow rawTag
  WalletUpdateService.buildTransaction cfg.toApiConfig tag authPubkey wallet

/-- `POST /v1/register`. -/
def postRegister (cfg : HttpConfig) (moment : Moment) (request : HttpRequest)
    (body : RegisterBody) : ApiAsync TransactionResponse := do
  let authPubkey ← JwtAuthGuard.canActivate (cfg.verifyAsync moment.timeMs) request.authorization
  RegisterThrottlerGuard.admit cfg moment request.ip authPubkey
  validated (body.errors cfg.validators)
  Api.register cfg.toApiConfig {
    rawTag := body.tag
    wallet := body.wallet
    feePayer := body.feePayer
    ownerPubkey := authPubkey }

/-- `GET /v1/auth/me`. -/
def getMe (cfg : HttpConfig) (moment : Moment) (authorization : Option JsString) :
    ApiAsync JsString :=
  JwtAuthGuard.canActivate (cfg.verifyAsync moment.timeMs) authorization

/-- A request of a route without guards. -/
def openRoute (cfg : HttpConfig) (server : Nat) (asked : ApiRequest) : ApiAsync HttpAnswer := do
  return .api (← asked.body cfg.toApiConfig server)

def HttpRequest.body (cfg : HttpConfig) (server : Nat) (moment : Moment) (request : HttpRequest) :
    ApiAsync HttpAnswer :=
  match request.route with
  | .resolve rawTag => openRoute cfg server (.resolve rawTag)
  | .identity rawTag => openRoute cfg server (.identity rawTag)
  | .availability rawTag => openRoute cfg server (.availability rawTag)
  | .search q => openRoute cfg server (.search (q.getD []))
  | .qr rawTag => openRoute cfg server (.qr rawTag)
  | .paymentLink rawTag => openRoute cfg server (.paymentLink rawTag)
  | .updateIdentity rawTag body => do
    return .api (.identity (← patchIdentity (cfg.profile moment) moment
      { authorization := request.authorization, rawTag, body }))
  | .updateWallet rawTag wallet => do
    return .api (.transaction
      (← postWallet cfg moment request.authorization rawTag wallet))
  | .register body => do return .api (.transaction (← postRegister cfg moment request body))
  | .me => do return .me (← getMe cfg moment request.authorization)

end Tagwise.Api
