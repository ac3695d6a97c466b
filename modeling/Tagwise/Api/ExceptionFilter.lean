import Tagwise.Api.Endpoints
import Tagwise.Js.BigInt
import Tagwise.Js.Json

/-! What an exception becomes on the wire. -/

namespace Tagwise.Api
open Js Services

/-- An exception as the filter tells it apart: `getStatus` and `getResponse` of an
`HttpException`, or anything else. -/
inductive Exception
  | httpText (status : Nat) (response : JsString)
  | http (status : Nat) (response : List (JsString × Json))
  | other

structure HttpReply where
  status : Nat
  body : Json

/-- The body's own `statusCode` comes after the one put in front of it. -/
def GlobalExceptionFilter.catch : Exception → HttpReply
  | .httpText status body =>
    ⟨status, .object [(js "statusCode", .number (decimal status)), (js "message", .string body)]⟩
  | .http status body => ⟨status, .object ((js "statusCode", .number (decimal status)) :: body)⟩
  | .other =>
    ⟨500, .object [(js "statusCode", .number (decimal 500)),
      (js "message", .string (js "internal server error"))]⟩

structure InsufficientBalanceDetails where
  requiredLamports : Int
  currentLamports : Int
  shortfallLamports : Int
  deriving DecidableEq

def InsufficientBalanceException (details : InsufficientBalanceDetails) : Exception :=
  .http 402 [
    (js "statusCode", .number (decimal 402)),
    (js "message", .string (js "insufficient balance to cover rent and fees for this registration")),
    (js "requiredLamports", .string (bigIntText details.requiredLamports)),
    (js "currentLamports", .string (bigIntText details.currentLamports)),
    (js "shortfallLamports", .string (bigIntText details.shortfallLamports))]

/-- The exception behind an answer that is none. `createBody` is what the framework's own
exceptions make of a message, the text of their status and their status. -/
def ApiError.exception (createBody : Json → JsString → Nat → List (JsString × Json)) :
    ApiError → Exception
  | .thrown (.notFound message) => .http 404 (createBody (.string message) (js "Not Found") 404)
  | .thrown (.forbidden message none) =>
    .http 403 (createBody (.string message) (js "Forbidden") 403)
  | .thrown (.forbidden message (some reason)) =>
    .http 403 [(js "message", .string message), (js "reason", .string reason)]
  | .badRequest message reason =>
    .http 400 [(js "message", .string message), (js "reason", .string reason)]
  | .conflict message reason =>
    .http 409 [(js "message", .string message), (js "reason", .string reason)]
  | .paymentRequired message requiredLamports currentLamports shortfallLamports =>
    .http 402 [(js "statusCode", .number (decimal 402)), (js "message", .string message),
      (js "requiredLamports", .string requiredLamports),
      (js "currentLamports", .string currentLamports),
      (js "shortfallLamports", .string shortfallLamports)]
  | .unauthorized message => .http 401 (createBody (.string message) (js "Unauthorized") 401)
  | .tooManyRequests message => .httpText 429 message
  | .validation messages =>
    .http 400 (createBody (.array (messages.map .string)) (js "Bad Request") 400)
  | _ => .other

theorem exception_status (createBody : Json → JsString → Nat → List (JsString × Json))
    (error : ApiError) :
    (GlobalExceptionFilter.catch (error.exception createBody)).status = error.status := by
  cases error with
  | thrown error =>
    cases error with
    | forbidden message reason => cases reason <;> rfl
    | _ => rfl
  | _ => rfl

/-- The 402 of a registration has its amounts as the exception writes them. -/
theorem insufficientBalance_exception {requiredLamports currentLamports : Nat}
    (createBody : Json → JsString → Nat → List (JsString × Json))
    (h : currentLamports ≤ requiredLamports) :
    (insufficientBalance requiredLamports currentLamports).exception createBody =
      InsufficientBalanceException ⟨requiredLamports,currentLamports,
        requiredLamports - currentLamports⟩ := by
  rw [InsufficientBalanceException, ← Int.ofNat_sub h]
  rfl

end Tagwise.Api
