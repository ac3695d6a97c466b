import Tagwise.Js.BigInt
import Tagwise.Js.Json

/-! The classes of errors that come from a response, each made by its constructor. -/

namespace Tagwise.Sdk
open Js

/-- What the engine throws of its own: `ToString` or `BigInt` on a value it cannot convert. -/
inductive NativeError
  | typeError
  | syntaxError
  deriving DecidableEq

/-- The fields of `TipApiError`. -/
structure TipApiErrorFields where
  message : JsString
  statusCode : Nat
  body : Option Json

/-- An instance, by its class and what the class adds. -/
inductive TipApiError
  | tagNotFound (fields : TipApiErrorFields)
  | unauthorized (fields : TipApiErrorFields)
  | forbidden (fields : TipApiErrorFields)
  | rateLimited (fields : TipApiErrorFields)
  | insufficientBalance (fields : TipApiErrorFields)
      (requiredLamports currentLamports shortfallLamports : Int)
  | validation (fields : TipApiErrorFields) (reason : Option Json)
  | unexpectedApi (fields : TipApiErrorFields)

inductive ErrorClass
  | tagNotFoundError
  | unauthorizedError
  | forbiddenError
  | rateLimitedError
  | insufficientBalanceError
  | validationError
  | unexpectedApiError
  deriving DecidableEq, Repr

namespace TipApiError

def fields : TipApiError → TipApiErrorFields
  | .tagNotFound fields | .unauthorized fields | .forbidden fields | .rateLimited fields
  | .insufficientBalance fields _ _ _ | .validation fields _ | .unexpectedApi fields => fields

/-- `new.target`. -/
def target : TipApiError → ErrorClass
  | .tagNotFound _ => .tagNotFoundError
  | .unauthorized _ => .unauthorizedError
  | .forbidden _ => .forbiddenError
  | .rateLimited _ => .rateLimitedError
  | .insufficientBalance _ _ _ _ => .insufficientBalanceError
  | .validation _ _ => .validationError
  | .unexpectedApi _ => .unexpectedApiError

end TipApiError

/-- Up to `Error`, which converts the message it is given. -/
def TipApiErrorFields.construct (message : Json) (statusCode : Nat) (body : Option Json) :
    Except NativeError TipApiErrorFields :=
  match message.toText with
  | none => .error .typeError
  | some text => .ok ⟨text,statusCode,body⟩

/-- The value of `BigInt` on a string. -/
def bigInt (s : JsString) : Except NativeError Int :=
  match stringToBigInt s with
  | none => .error .syntaxError
  | some n => .ok n

def TagNotFoundError (message : Json) (statusCode : Nat) (body : Option Json) :
    Except NativeError TipApiError :=
  .tagNotFound <$> TipApiErrorFields.construct message statusCode body

def UnauthorizedError (body : Option Json) : Except NativeError TipApiError :=
  .unauthorized <$> TipApiErrorFields.construct
    (.string (js "session expired or invalid, call connect() again to reconnect")) 401 body

def ForbiddenError (message : Json) (statusCode : Nat) (body : Option Json) :
    Except NativeError TipApiError :=
  .forbidden <$> TipApiErrorFields.construct message statusCode body

def RateLimitedError (message : Json) (statusCode : Nat) (body : Option Json) :
    Except NativeError TipApiError :=
  .rateLimited <$> TipApiErrorFields.construct message statusCode body

/-- A body that has the three amounts, as strings. -/
structure InsufficientBalanceBody where
  body : Option Json
  requiredLamports : JsString
  currentLamports : JsString
  shortfallLamports : JsString

/-- The message is converted first, then the amounts in their order. -/
def InsufficientBalanceError (amounts : InsufficientBalanceBody) :
    Except NativeError TipApiError := do
  let message := coalesce (.string (js "insufficient balance to cover rent and fees"))
    (property (js "message") amounts.body)
  let fields ← TipApiErrorFields.construct message 402 amounts.body
  let requiredLamports ← bigInt amounts.requiredLamports
  let currentLamports ← bigInt amounts.currentLamports
  let shortfallLamports ← bigInt amounts.shortfallLamports
  return .insufficientBalance fields requiredLamports currentLamports shortfallLamports

def ValidationError (message : Json) (body : Option Json) (reason : Option Json) :
    Except NativeError TipApiError :=
  (.validation · reason) <$> TipApiErrorFields.construct message 400 body

def UnexpectedApiError (message : Json) (statusCode : Nat) (body : Option Json) :
    Except NativeError TipApiError :=
  .unexpectedApi <$> TipApiErrorFields.construct message statusCode body

end Tagwise.Sdk
