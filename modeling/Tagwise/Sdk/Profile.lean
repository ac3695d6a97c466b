import Tagwise.Api.Profile

namespace Tagwise.Sdk
open Js Tagwise.Core Services Lib Api

/-- Each field may be left out, and given as `undefined`, `null` or a string. -/
structure UpdateProfileFields where
  displayName : Option (Nullish JsString)
  avatar : Option (Nullish JsString)
  bio : Option (Nullish JsString)
  preferredToken : Option (Nullish JsString)
  deriving DecidableEq

/-- A property through `JSON.stringify` and back: `undefined` is left out. -/
def jsonField : Option (Nullish JsString) → Option (Option JsString)
  | none | some .undefined => none
  | some .null => some none
  | some (.value text) => some (some text)

def UpdateProfileFields.body (fields : UpdateProfileFields) : UpdateIdentityBody where
  displayName := jsonField fields.displayName
  avatar := jsonField fields.avatar
  bio := jsonField fields.bio
  preferredToken := jsonField fields.preferredToken

inductive TipError
  | noSession
  | tagInvalid (tag : JsString) (reason : TagRejectionReason)
  /-- What a response that is not ok becomes, by what the API has thrown. -/
  | response (error : ApiError)
  deriving DecidableEq

abbrev SdkAsync (α : Type) := Prog ApiCommand ApiReply TipError α

/-- The request in the API's hands. -/
def request : ApiAsync α → SdkAsync α := Prog.embed id (fun _ reply => reply) .response

def normalizeTagOrThrow (rawTag : JsString) : SdkAsync NormalizedTag :=
  match normalizeTag rawTag with
  | .accepted tag => return tag
  | .rejected reason => .fail (.tagInvalid rawTag reason)

namespace TipClient

def requireSession : Option JsString → SdkAsync JsString
  | none | some [] => .fail .noSession
  | some token => return token

def updateProfile (config : ProfileConfig) (moment : Moment) (sessionToken : Option JsString)
    (tag : JsString) (fields : UpdateProfileFields) : SdkAsync IdentityResponse := do
  let token ← requireSession sessionToken
  let normalized ← normalizeTagOrThrow tag
  request (patchIdentity config moment {
    authorization := some (bearerPrefix ++ token)
    rawTag := normalized
    body := fields.body })

end TipClient

end Tagwise.Sdk
