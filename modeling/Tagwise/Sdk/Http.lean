import Tagwise.Sdk.Errors

/-! The one place that talks to `fetch`. -/

namespace Tagwise.Sdk.Http
open Js

inductive HttpMethod
  | get
  | post
  | patch
  deriving DecidableEq, Repr

structure RequestParams where
  method : HttpMethod
  path : JsString
  query : List (JsString × Option JsString)
  /-- As `JSON.stringify` writes it. -/
  body : Option JsString
  token : Option JsString

structure FetchInit where
  method : HttpMethod
  headers : List (JsString × JsString)
  body : Option JsString
  deriving DecidableEq

/-- A response, and what its body parses as where it is JSON. -/
structure Response where
  status : Nat
  json : Option Json

def Response.ok (response : Response) : Bool := 200 ≤ response.status && response.status ≤ 299

/-- The base URL with the platform's `URL` and its search parameters, and a `fetch` that is
answered. -/
structure Client where
  baseUrl : JsString
  toUrl : JsString → List (JsString × JsString) → JsString
  fetchImpl : JsString → FetchInit → Response

def slash : UInt16 := 47

def buildUrl (client : Client) (path : JsString) (query : List (JsString × Option JsString)) :
    JsString :=
  let trimmedBase := if client.baseUrl.getLast? = some slash then client.baseUrl.dropLast
    else client.baseUrl
  client.toUrl (trimmedBase ++ path)
    (query.filterMap (fun (key, value) => value.map (fun text => (key, text))))

/-- `undefined` where the body is no JSON. -/
def safeParseJson (response : Response) : Option Json := response.json

/-- A value that `typeof` calls a string. -/
def stringField (key : JsString) (body : Option Json) : Option JsString :=
  match property key body with
  | some (.string s) => some s
  | _ => none

/-- By type only: the amounts are strings, of any text. -/
def isInsufficientBalanceBody (body : Option Json) : Option InsufficientBalanceBody := do
  let requiredLamports ← stringField (js "requiredLamports") body
  let currentLamports ← stringField (js "currentLamports") body
  let shortfallLamports ← stringField (js "shortfallLamports") body
  return { body, requiredLamports, currentLamports, shortfallLamports }

def mapErrorResponse (status : Nat) (body : Option Json) : Except NativeError TipApiError :=
  let message := coalesce (.string (js "request failed with status " ++ decimal status))
    (property (js "message") body)
  if status = 404 then TagNotFoundError message status body
  else if status = 401 then UnauthorizedError body
  else if status = 403 then ForbiddenError message status body
  else if status = 429 then RateLimitedError message status body
  else if status = 402 then
    match isInsufficientBalanceBody body with
    | some amounts => InsufficientBalanceError amounts
    | none => UnexpectedApiError message status body
  else if status = 400 then ValidationError message body (property (js "reason") body)
  else UnexpectedApiError message status body

/-- What is thrown: an error of the SDK, or one that the engine threw while it was made. -/
inductive Raised
  | tip (error : TipApiError)
  | native (error : NativeError)

def headers (params : RequestParams) : List (JsString × JsString) :=
  (if params.body.isSome then [(js "content-type", js "application/json")] else []) ++
    match params.token with
    | none | some [] => []
    | some token => [(js "authorization", js "Bearer " ++ token)]

/-- What `fetch` answers to the request. -/
def answer (client : Client) (params : RequestParams) : Response :=
  client.fetchImpl (buildUrl client params.path params.query)
    { method := params.method, headers := headers params, body := params.body }

def request (client : Client) (params : RequestParams) : Except Raised Json :=
  let response := answer client params
  if !response.ok then
    match mapErrorResponse response.status (safeParseJson response) with
    | .ok error => .error (.tip error)
    | .error error => .error (.native error)
  else
    match response.json with
    | some value => .ok value
    | none => .error (.native .syntaxError)

end Tagwise.Sdk.Http
