import Tagwise.Js.Text

namespace Tagwise.Js

/-- `Number.prototype.toString` on a natural number. -/
def decimal (n : Nat) : JsString := js (toString n)

def hexDigit (n : Nat) : UInt16 := UInt16.ofNat (if n < 10 then 48 + n else 87 + n)

def hexByte (byte : UInt8) : JsString := [hexDigit (byte.toNat / 16), hexDigit (byte.toNat % 16)]

def jsonUnit (u : UInt16) : JsString :=
  let n := u.toNat
  if n = 0x22 then js "\\\""
  else if n = 0x5C then js "\\\\"
  else if n = 8 then js "\\b"
  else if n = 9 then js "\\t"
  else if n = 10 then js "\\n"
  else if n = 12 then js "\\f"
  else if n = 13 then js "\\r"
  else if n < 0x20 || isSurrogate n then
    js "\\u" ++ [hexDigit (n / 4096), hexDigit (n / 256 % 16), hexDigit (n / 16 % 16), hexDigit (n % 16)]
  else [u]

def jsonUnits : JsString → JsString
  | [] => []
  | [u] => jsonUnit u
  | u :: v :: rest =>
    if isHighSurrogate u.toNat && isLowSurrogate v.toNat then u :: v :: jsonUnits rest
    else jsonUnit u ++ jsonUnits (v :: rest)

/-- `JSON.stringify` on a string: a lone surrogate is escaped, a pair is not. -/
def jsonStringify (s : JsString) : JsString := js "\"" ++ jsonUnits s ++ js "\""

/-- What a property reads as, where it may be left out or `null`. -/
inductive Nullish (α : Type)
  | undefined
  | null
  | value (a : α)
  deriving DecidableEq

/-- `x ?? other`. -/
def Nullish.coalesce {α : Type} : Nullish α → α → α
  | .value a, _ => a
  | .undefined, other | .null, other => other

end Tagwise.Js
