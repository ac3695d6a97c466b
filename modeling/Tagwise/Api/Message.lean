import Tagwise.Js.Text

namespace Tagwise.Api
open Js

def statement : JsString := js ("Sign in to authenticate with the TIP API. " ++
  "This request will not trigger a blockchain transaction or cost any fees.")

structure SignInMessageFields where
  domain : JsString
  pubkey : JsString
  nonce : JsString
  issuedAt : JsString
  expirationTime : JsString
  deriving DecidableEq

def newline : UInt16 := 10

def domainLineSuffix : JsString := js " wants you to sign in with your Solana account:"
def noncePrefix : JsString := js "Nonce: "
def issuedAtPrefix : JsString := js "Issued At: "
def expirationPrefix : JsString := js "Expiration Time: "

def buildSignInMessage (fields : SignInMessageFields) : JsString :=
  [newline].intercalate [
    fields.domain ++ domainLineSuffix,
    fields.pubkey,
    [],
    statement,
    [],
    noncePrefix ++ fields.nonce,
    issuedAtPrefix ++ fields.issuedAt,
    expirationPrefix ++ fields.expirationTime]

/-- What `.` matches in a pattern without flags. -/
def isDotUnit (u : UInt16) : Bool :=
  u.toNat ≠ 0x0A && u.toNat ≠ 0x0D && u.toNat ≠ 0x2028 && u.toNat ≠ 0x2029

/-- `/^(.*) wants you to sign in with your Solana account:$/`, the group matched. -/
def domainLinePattern (line : JsString) : Option JsString :=
  let domain := line.take (line.length - domainLineSuffix.length)
  if domainLineSuffix.isSuffixOf line && domain.all isDotUnit then some domain else none

/-- What follows the first line that starts so. -/
def findLine (lines : List JsString) (start : JsString) : Option JsString :=
  (lines.find? start.isPrefixOf).map (·.drop start.length)

def parseSignInMessage (message : JsString) : Option SignInMessageFields :=
  let lines := message.splitOn newline
  match lines.head?.bind domainLinePattern, lines[1]?, findLine lines noncePrefix,
    findLine lines issuedAtPrefix, findLine lines expirationPrefix with
  | some domain, some pubkey, some nonce, some issuedAt, some expirationTime =>
    if pubkey = [] then none
    else if domain = [] then none
    else some { domain, pubkey, nonce, issuedAt, expirationTime }
  | _, _, _, _, _ => none

end Tagwise.Api
