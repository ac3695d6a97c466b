import Tagwise.Api.Wire
import Tagwise.Sdk.Http
import Tagwise.Sdk.Profile

/-! `TipClient` over a `fetch` that is not answered yet. -/

namespace Tagwise.Sdk.Http
open Js Tagwise.Core Services Lib

/-- A call of `fetch`. -/
structure FetchCommand where
  url : JsString
  init : FetchInit
  deriving DecidableEq

inductive ClientError
  | noSession
  | tagInvalid (tag : JsString) (reason : TagRejectionReason)
  | raised (error : Raised)

abbrev ClientAsync (α : Type) := Prog FetchCommand (fun _ => Response) ClientError α

/-- What `request` makes of a response. -/
def settle (response : Response) : Except Raised Json :=
  if !response.ok then
    match mapErrorResponse response.status (safeParseJson response) with
    | .ok error => .error (.tip error)
    | .error error => .error (.native error)
  else
    match response.json with
    | some value => .ok value
    | none => .error (.native .syntaxError)

def settled (response : Response) : ClientAsync Json :=
  match settle response with
  | .ok value => return value
  | .error error => .fail (.raised error)

/-- `toUrl` is the platform's `URL` with its search parameters. -/
structure TipClient where
  baseUrl : JsString
  toUrl : JsString → List (JsString × JsString) → JsString
  sessionToken : Option JsString

namespace TipClient

def answeredBy (client : TipClient) (fetchImpl : JsString → FetchInit → Response) : Client :=
  ⟨client.baseUrl,client.toUrl,fetchImpl⟩

/-- The call that `request` makes. -/
def fetching (client : TipClient) (params : RequestParams) : FetchCommand where
  url := buildUrl (client.answeredBy (fun _ _ => ⟨0, none⟩)) params.path params.query
  init := { method := params.method, headers := headers params, body := params.body }

def request (client : TipClient) (params : RequestParams) : ClientAsync Json := do
  settled (← Prog.request (client.fetching params))

def normalizeTagOrThrow (rawTag : JsString) : ClientAsync NormalizedTag :=
  match normalizeTag rawTag with
  | .accepted tag => return tag
  | .rejected reason => .fail (.tagInvalid rawTag reason)

def get (client : TipClient) (path : JsString) (query : List (JsString × Option JsString)) :
    ClientAsync Json :=
  client.request { method := .get, path, query, body := none, token := none }

/-- The read of one tag under a path. -/
def read (client : TipClient) (path tag : JsString) : ClientAsync Json := do
  let normalized ← normalizeTagOrThrow tag
  client.get (path ++ normalized.text) []

def resolve (client : TipClient) (tag : JsString) : ClientAsync Json :=
  client.read (js "/v1/resolve/") tag

def identity (client : TipClient) (tag : JsString) : ClientAsync Json :=
  client.read (js "/v1/identity/") tag

/-- A malformed tag is answered without a request. -/
def availability (client : TipClient) (tag : JsString) : ClientAsync Json :=
  match normalizeTag tag with
  | .rejected _ => return .object [
      (js "tag", .string (js "@" ++ tag)),
      (js "available", .bool false),
      (js "reason", .string (js "invalid"))]
  | .accepted result => client.get (js "/v1/availability/" ++ result.text) []

def search (client : TipClient) (q : JsString) : ClientAsync Json :=
  client.get (js "/v1/search") [(js "q", some q)]

def qr (client : TipClient) (tag : JsString) : ClientAsync Json :=
  client.read (js "/v1/qr/") tag

def paymentLink (client : TipClient) (tag : JsString) : ClientAsync Json :=
  client.read (js "/v1/payment-link/") tag

def requireSession (client : TipClient) : ClientAsync JsString :=
  match client.sessionToken with
  | none | some [] => .fail .noSession
  | some token => return token

/-- A string that is not empty. -/
def truthy : Nullish JsString → Option JsString
  | .undefined | .null | .value [] => none
  | .value text => some text

def optionalField (name : JsString) (value : Option Json) : List (JsString × Json) :=
  (value.map (name, ·)).toList

structure RegisterParams where
  tag : JsString
  wallet : Nullish JsString
  feePayer : Nullish JsString
  deriving DecidableEq

def registerJson (tag : NormalizedTag) (params : RegisterParams) : Json :=
  .object ((js "tag", .string tag.text) ::
    (optionalField (js "wallet") ((truthy params.wallet).map .string) ++
      optionalField (js "feePayer") ((truthy params.feePayer).map .string)))

def register (client : TipClient) (params : RegisterParams) : ClientAsync Json := do
  let token ← client.requireSession
  let normalized ← normalizeTagOrThrow params.tag
  client.request {
    method := .post
    path := js "/v1/register"
    query := []
    body := some (registerJson normalized params).stringify
    token := some token }

def updateWallet (client : TipClient) (tag newWallet : JsString) : ClientAsync Json := do
  let token ← client.requireSession
  let normalized ← normalizeTagOrThrow tag
  client.request {
    method := .post
    path := js "/v1/identity/" ++ normalized.text ++ js "/wallet"
    query := []
    body := some (Json.object [(js "wallet", .string newWallet)]).stringify
    token := some token }

/-- The properties of the fields that `JSON.stringify` writes. -/
def fieldsJson (fields : UpdateProfileFields) : Json :=
  .object (optionalField (js "displayName") ((jsonField fields.displayName).map Api.jsonText) ++
    optionalField (js "avatar") ((jsonField fields.avatar).map Api.jsonText) ++
    optionalField (js "bio") ((jsonField fields.bio).map Api.jsonText) ++
    optionalField (js "preferredToken") ((jsonField fields.preferredToken).map Api.jsonText))

def updateProfile (client : TipClient) (tag : JsString) (fields : UpdateProfileFields) :
    ClientAsync Json := do
  let token ← client.requireSession
  let normalized ← normalizeTagOrThrow tag
  client.request {
    method := .patch
    path := js "/v1/identity/" ++ normalized.text
    query := []
    body := some (fieldsJson fields).stringify
    token := some token }

/-- Behind a `fetch` that answers at once, this is `request` as it is on its own. -/
theorem request_run (client : TipClient) (params : RequestParams)
    (fetchImpl : JsString → FetchInit → Response) :
    (client.request params).run (fun (u : Unit) c => some (u, fetchImpl c.url c.init)) () =
      some ((), match Http.request (client.answeredBy fetchImpl) params with
        | .ok value => .ok value
        | .error error => .error (.raised error)) := by
  have hsettle : Http.request (client.answeredBy fetchImpl) params =
      settle (answer (client.answeredBy fetchImpl) params) := rfl
  rw [hsettle]
  change (settled (answer (client.answeredBy fetchImpl) params)).run _ () = _
  unfold settled
  cases settle (answer (client.answeredBy fetchImpl) params) <;> rfl

end TipClient

end Tagwise.Sdk.Http
