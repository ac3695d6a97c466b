import Tagwise.Sdk.Client

/-! The client's `fetch` with the API behind it, and what a client is meant to hear from there. -/

namespace Tagwise.Protocol
open Js Tagwise.Core Services Lib Api
open Sdk.Http hiding request
open Sdk (TipApiErrorFields bigInt)

def methodText : HttpMethod → JsString
  | .get => js "GET"
  | .post => js "POST"
  | .patch => js "PATCH"

def isHeaderSpace (u : UInt16) : Bool := [9, 10, 13, 32].contains u

/-- The value as it is sent: white space around it is dropped, and one with a unit that is no
byte, or that ends a line, is refused. -/
def headerValue (value : JsString) : Option JsString :=
  let kept := ((value.dropWhile isHeaderSpace).reverse.dropWhile isHeaderSpace).reverse
  if kept.all (fun u => u.toNat < 256 && !([0, 10, 13].contains u)) then some kept else none

/-- Where the API is, and what a request finds there. -/
structure Remote where
  origin : JsString
  api : WireConfig
  server : Nat
  moment : Moment
  ip : Option JsString

/-- A request to the origin. -/
def Remote.arrive (remote : Remote) (c : FetchCommand) : Option WireRequest := do
  let target ← behind remote.origin c.url
  let authorization ← match c.init.headers.lookup (js "authorization") with
    | none => some none
    | some value => (headerValue value).map some
  return { method := methodText c.init.method, target, authorization, body := c.init.body }

def Remote.received (remote : Remote) (reply : WireReply) : Response :=
  ⟨reply.status,Json.parse remote.api.numberText (throughUtf8 reply.text)⟩

/-- A `fetch` that is refused, or that goes where the model does not. -/
def unreached : ClientError := .raised (.native .typeError)

def Remote.fetch (remote : Remote) (c : FetchCommand) :
    Prog ApiCommand ApiReply ClientError Response :=
  let served := (remote.arrive c).bind (remote.api.serve remote.server remote.moment remote.ip)
  match served with
  | none => .fail unreached
  | some reply => do return remote.received (← reply)

/-- The base URL is the origin's, as the platform writes URLs. -/
def Mounted (client : TipClient) (origin : JsString) : Prop :=
  let trimmedBase := if client.baseUrl.getLast? = some slash then client.baseUrl.dropLast
    else client.baseUrl
  ∀ segments pairs, segments ≠ [] → (∀ s ∈ segments, s ≠ [] ∧ PlainSegment s) →
    client.toUrl (trimmedBase ++ pathText segments) pairs =
      origin ++ (pathText segments ++ searchText pairs)

/-- The framework puts the description of a status where a message is empty. -/
def said (message description : JsString) : JsString := if message = [] then description else message

/-- The error that stands for what the API has thrown: its class goes by what was thrown, and it
has its message, its status and its body, and the reason or the amounts where there are some. -/
def typedError (createBody : Json → JsString → Nat → List (JsString × Json)) (error : ApiError) :
    Raised :=
  let reply := GlobalExceptionFilter.catch (error.exception createBody)
  let fields (message : JsString) : TipApiErrorFields := ⟨message,reply.status,some reply.body⟩
  match error with
  | .thrown (.notFound message) => .tip (.tagNotFound (fields (said message (js "Not Found"))))
  | .thrown (.forbidden message none) => .tip (.forbidden (fields (said message (js "Forbidden"))))
  | .thrown (.forbidden message (some _)) => .tip (.forbidden (fields message))
  | .unauthorized _ =>
    .tip (.unauthorized
      (fields (js "session expired or invalid, call connect() again to reconnect")))
  | .tooManyRequests message => .tip (.rateLimited (fields message))
  | .badRequest message reason => .tip (.validation (fields message) (some (.string reason)))
  | .validation messages => .tip (.validation (fields ((js ",").intercalate messages)) none)
  | .conflict message _ => .tip (.unexpectedApi (fields message))
  | .paymentRequired message requiredLamports currentLamports shortfallLamports =>
    match bigInt requiredLamports, bigInt currentLamports, bigInt shortfallLamports with
    | .ok required, .ok current, .ok shortfall =>
      .tip (.insufficientBalance (fields message) required current shortfall)
    | _, _, _ => .native .syntaxError
  | _ => .tip (.unexpectedApi (fields (js "internal server error")))

/-- The route itself, its answer as JSON and its exceptions as the client's errors. -/
def heard (cfg : WireConfig) (p : ApiAsync HttpAnswer) : Prog ApiCommand ApiReply ClientError Json :=
  p.mapResult (fun error => .raised (typedError cfg.createBody error)) HttpAnswer.json

/-- The statuses of what the API throws. -/
def errorStatuses : List Nat := [400, 401, 402, 403, 404, 409, 429, 500]

/-- What the framework promises of the bodies it makes: the message is in them, no reason is,
and nothing that JSON would not bring back. -/
structure Framework (cfg : WireConfig) : Prop where
  message : ∀ message description status,
    lastField (js "message") (cfg.createBody (.string message) description status) =
      some (.string (said message description))
  messages : ∀ messages description status,
    lastField (js "message") (cfg.createBody (.array messages) description status) =
      some (.array messages)
  reason : ∀ message description status,
    lastField (js "reason") (cfg.createBody message description status) = none
  plain : ∀ message description, message.Plain cfg.numberText → ∀ status ∈ errorStatuses,
    PlainFields cfg.numberText (cfg.createBody message description status)
  numbers : ∀ status ∈ errorStatuses, cfg.numberText (decimal status) = decimal status

end Tagwise.Protocol
