import Tagwise.Api.CacheText
import Tagwise.Api.ExceptionFilter
import Tagwise.Api.Http
import Tagwise.Js.Date
import Tagwise.Js.Url
import Tagwise.Lib.Layer

/-! The API's side of the wire: from the text of a request to one of the routes, and from what
the route answers or throws to the text of the reply. -/

namespace Tagwise.Api
open Js Tagwise.Core Services Lib

/-- A request as it comes in; the target is what its URL has behind the origin. -/
structure WireRequest where
  method : JsString
  target : JsString
  authorization : Option JsString
  body : Option JsString
  deriving DecidableEq

structure WireReply where
  status : Nat
  text : JsString
  deriving DecidableEq

structure WireConfig extends HttpConfig where
  /-- What the framework's own exceptions make of a message, a description and a status. -/
  createBody : Json → JsString → Nat → List (JsString × Json)
  /-- The text that a number literal converts to. -/
  numberText : JsString → JsString

/-- A property that may be missing, `null` or a string; of another type there is none here. -/
def nullishOf : Option Json → Option (Nullish JsString)
  | none => some .undefined
  | some .null => some .null
  | some (.string text) => some (.value text)
  | _ => none

def registerBodyOf (body : Json) : Option RegisterBody := do
  return {
    tag := ← textOf (property (js "tag") (some body))
    wallet := ← nullishOf (property (js "wallet") (some body))
    feePayer := ← nullishOf (property (js "feePayer") (some body)) }

/-- The same, where a missing one is told from `null`. -/
def presentOf : Option Json → Option (Option (Option JsString))
  | none => some none
  | value => (nullableOf value).map some

def updateIdentityBodyOf (body : Json) : Option UpdateIdentityBody := do
  return {
    displayName := ← presentOf (property (js "displayName") (some body))
    avatar := ← presentOf (property (js "avatar") (some body))
    bio := ← presentOf (property (js "bio") (some body))
    preferredToken := ← presentOf (property (js "preferredToken") (some body)) }

def walletOf (body : Json) : Option JsString := textOf (property (js "wallet") (some body))

/-- The reads of one tag, `GET /v1/<name>/:tag`. -/
def readRoute (name rawTag : JsString) : Option Route :=
  if name = js "resolve" then some (.resolve rawTag)
  else if name = js "identity" then some (.identity rawTag)
  else if name = js "availability" then some (.availability rawTag)
  else if name = js "qr" then some (.qr rawTag)
  else if name = js "payment-link" then some (.paymentLink rawTag)
  else none

def getRoute (path : List JsString) (query : List (JsString × JsString)) : Option Route :=
  match path with
  | [version, name] =>
    if version = js "v1" ∧ name = js "search" then some (.search (query.lookup (js "q"))) else none
  | [version, name, last] =>
    if version ≠ js "v1" then none
    else if name = js "auth" ∧ last = js "me" then some .me
    else readRoute name last
  | _ => none

def postRoute (path : List JsString) (body : Json) : Option Route :=
  match path with
  | [version, name] =>
    if version = js "v1" ∧ name = js "register" then (registerBodyOf body).map .register else none
  | [version, name, rawTag, last] =>
    if version = js "v1" ∧ name = js "identity" ∧ last = js "wallet" then
      (walletOf body).map (.updateWallet rawTag)
    else none
  | _ => none

def patchRoute (path : List JsString) (body : Json) : Option Route :=
  match path with
  | [version, name, rawTag] =>
    if version = js "v1" ∧ name = js "identity" then
      (updateIdentityBodyOf body).map (.updateIdentity rawTag)
    else none
  | _ => none

/-- The route that takes a request, of those modelled here and with a body of its types. -/
def routeOf (numberText : JsString → JsString) (request : WireRequest) : Option Route :=
  let (path, query) := readTarget request.target
  let body := request.body.bind (fun text => Json.parse numberText (throughUtf8 text))
  if request.method = js "GET" then getRoute path query
  else if request.method = js "POST" then body.bind (postRoute path)
  else if request.method = js "PATCH" then body.bind (patchRoute path)
  else none

def identityJson (response : IdentityResponse) : Json := .object [
  (js "tag", .string response.tag),
  (js "owner", .string response.owner),
  (js "wallet", .string response.wallet),
  (js "displayName", jsonText response.displayName),
  (js "avatar", jsonText response.avatar),
  (js "bio", jsonText response.bio),
  (js "preferredToken", jsonText response.preferredToken),
  (js "verified", .bool response.verified),
  (js "merchant", .bool response.merchant),
  (js "createdAt", .string (toISOString response.createdAt))]

def linkJson (response : PaymentLinkResponse) : Json := .object [
  (js "tag", .string response.tag),
  (js "wallet", .string response.wallet),
  (js "paymentLink", .string response.paymentLink)]

def availabilityJson (response : AvailabilityResponse) : Json := .object [
  (js "tag", .string response.tag),
  (js "available", .bool response.available),
  (js "reason", .string response.reason)]

def itemJson (item : SearchResultItem) : Json := .object [
  (js "tag", .string item.tag),
  (js "displayName", jsonText item.displayName),
  (js "avatar", jsonText item.avatar),
  (js "verified", .bool item.verified)]

def transactionJson (response : TransactionResponse) : Json := .object [
  (js "transaction", .string response.transaction),
  (js "pda", .string response.pda),
  (js "lastValidBlockHeight", .string response.lastValidBlockHeight)]

def HttpAnswer.json : HttpAnswer → Json
  | .api (.resolved response) => responseJson response
  | .api (.identity response) => identityJson response
  | .api (.link response) => linkJson response
  | .api (.found items) => .array (items.map itemJson)
  | .api (.transaction response) => transactionJson response
  | .api (.availability response) => availabilityJson response
  | .me pubkey => .object [(js "pubkey", .string pubkey)]

/-- The status of an answer: a `POST` creates. -/
def Route.status : Route → Nat
  | .updateWallet _ _ | .register _ => 201
  | _ => 200

def WireConfig.reply (cfg : WireConfig) (route : Route) : Except ApiError HttpAnswer → WireReply
  | .ok answer => ⟨route.status, answer.json.stringify⟩
  | .error error =>
    let reply := GlobalExceptionFilter.catch (error.exception cfg.createBody)
    ⟨reply.status, reply.body.stringify⟩

/-- What the API does with a request that one of the routes takes. -/
def WireConfig.serve {ε : Type} (cfg : WireConfig) (server : Nat) (moment : Moment)
    (ip : Option JsString) (request : WireRequest) :
    Option (Prog ApiCommand ApiReply ε WireReply) :=
  (routeOf cfg.numberText request).map (fun route => do
    let asked : HttpRequest := ⟨request.authorization, ip, route⟩
    return cfg.reply route (← (asked.body cfg.toHttpConfig server moment).attempt))

end Tagwise.Api
