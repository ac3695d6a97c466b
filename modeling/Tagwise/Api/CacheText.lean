import Tagwise.Js.JsonText
import Tagwise.Services.World

/-! What Redis holds under a resolve key: the text that the cache reader writes, and what it
makes of one that it finds. -/

namespace Tagwise.Api
open Js Services

/-- The wire format of a negative entry. -/
def negativeSentinel : JsString := js "__TIP_CACHE_NEGATIVE__"

def jsonText : Option JsString → Json
  | none => .null
  | some text => .string text

/-- The response as the object literal that `resolveUncached` builds. -/
def responseJson (response : ResolveResponse) : Json := .object [
  (js "tag", .string response.tag),
  (js "wallet", .string response.wallet),
  (js "displayName", jsonText response.displayName),
  (js "avatar", jsonText response.avatar),
  (js "verified", .bool response.verified),
  (js "merchant", .bool response.merchant),
  (js "preferredToken", jsonText response.preferredToken),
  (js "paymentLink", .string response.paymentLink),
  (js "links", .object [
    (js "profile", .string response.profileLink),
    (js "qr", .string response.qrLink)])]

/-- The text that `set` sends. -/
def cacheText : CacheValue → JsString
  | .negative => negativeSentinel
  | .response response => (responseJson response).stringify

def textOf : Option Json → Option JsString
  | some (.string text) => some text
  | _ => none

/-- A property that is `null` or a string. -/
def nullableOf : Option Json → Option (Option JsString)
  | some .null => some none
  | some (.string text) => some (some text)
  | _ => none

def boolOf : Option Json → Option Bool
  | some (.bool b) => some b
  | _ => none

/-- The cast `as ResolveResponseDto`, where the value is one. -/
def responseOf (value : Json) : Option ResolveResponse := do
  let field (name : String) : Option Json := property (js name) (some value)
  let links := field "links"
  return {
    tag := ← textOf (field "tag")
    wallet := ← textOf (field "wallet")
    displayName := ← nullableOf (field "displayName")
    avatar := ← nullableOf (field "avatar")
    verified := ← boolOf (field "verified")
    merchant := ← boolOf (field "merchant")
    preferredToken := ← nullableOf (field "preferredToken")
    paymentLink := ← textOf (field "paymentLink")
    profileLink := ← textOf (property (js "profile") links)
    qrLink := ← textOf (property (js "qr") links) }

/-- What `get` makes of a text: one that does not parse is a miss. -/
def readCacheText (numberText : JsString → JsString) (raw : JsString) : Option CacheValue :=
  if raw = negativeSentinel then some .negative
  else (Json.parse numberText raw).bind (fun value => (responseOf value).map .response)

section Texts
variable (numberText : JsString → JsString)

theorem plain_jsonText (text : Option JsString) : (jsonText text).Plain numberText := by
  cases text <;> exact trivial

theorem plain_responseJson (response : ResolveResponse) :
    (responseJson response).Plain numberText :=
  ⟨trivial,trivial,plain_jsonText numberText _,plain_jsonText numberText _,trivial,trivial,
    plain_jsonText numberText _,trivial,⟨trivial,trivial,trivial⟩,trivial⟩

theorem responseOf_json (response : ResolveResponse) :
    responseOf (responseJson response) = some response := by
  obtain ⟨tag,wallet,displayName,avatar,verified,merchant,preferredToken,paymentLink,profile,qr⟩ :=
    response
  cases displayName <;> cases avatar <;> cases preferredToken <;> rfl

/-- A response is an object, so that no text of one is the sentinel. -/
theorem responseText_ne (response : ResolveResponse) :
    (responseJson response).stringify ≠ negativeSentinel := by
  intro h
  have hhead := congrArg List.head? h
  rw [responseJson, Json.stringify, List.head?_cons] at hhead
  exact absurd hhead (by decide)

/-- No text loses anything on its way to Redis and back. -/
theorem sent_cacheText (value : CacheValue) : throughUtf8 (cacheText value) = cacheText value := by
  apply throughUtf8_paired
  cases value with
  | negative => exact paired_word (by decide)
  | response response => exact paired_stringify _ (plain_responseJson id response)

theorem readCacheText_text (value : CacheValue) :
    readCacheText numberText (cacheText value) = some value := by
  cases value with
  | negative => exact if_pos rfl
  | response response =>
    rw [cacheText, readCacheText, if_neg (responseText_ne response),
      parse_stringify (plain_responseJson numberText response), Option.bind_some,
      responseOf_json, Option.map_some]

end Texts

end Tagwise.Api
