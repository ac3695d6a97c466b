import Mathlib.Logic.Function.Basic
import Tagwise.Api.Message
import Tagwise.Js.Date
import Tagwise.Lib.Pool
import Tagwise.Program.State

namespace Tagwise.Api
open Js Lib

/-- What the code takes from its libraries: the address check and the two encoders
of the Solana kit, ed25519, and an engine's reading of dates in other formats. -/
structure Kit where
  isAddress : JsString → Bool
  addressEncoder : JsString → Option (List UInt8)
  base58Encoder : JsString → Option (List UInt8)
  /-- Of a message, a signature and a public key. -/
  detachedVerify : List UInt8 → List UInt8 → List UInt8 → Bool
  otherDate : JsString → Option Int

structure AuthConfig where
  authDomain : JsString
  authNonceTtlSeconds : Nat
  redisKeyPrefix : JsString
  kit : Kit

def signatureLengthBytes : Nat := 64
def nonceBytes : Nat := 24

/-- Fails on malformed input and never throws. -/
def verifySignature (kit : Kit) (message signatureBase58 pubkeyBase58 : JsString) : Bool :=
  if !kit.isAddress pubkeyBase58 then false
  else match kit.addressEncoder pubkeyBase58, kit.base58Encoder signatureBase58 with
    | some pubkey, some signature =>
      if signature.length ≠ signatureLengthBytes then false
      else kit.detachedVerify (encodeUtf8 message) signature pubkey
    | _, _ => false

structure RedisEntry where
  value : JsString
  /-- The last millisecond of its life. -/
  lastMs : Nat
  deriving DecidableEq

/-- The clock, the nonce keys of Redis, and what the random source will give. -/
structure AuthWorld where
  now : Nat
  redis : List UInt8 → Option RedisEntry
  redisUp : Bool
  random : List (Program.Bytes nonceBytes)

inductive AuthCommand
  | randomBytes
  | dateNow
  | setEx (key value : JsString) (ttlSeconds : Nat)
  | getdel (key : JsString)

@[reducible] def AuthReply : AuthCommand → Type
  | .randomBytes => Program.Bytes nonceBytes
  | .dateNow => Nat
  | .setEx _ _ _ => Except Unit Unit
  | .getdel _ => Except Unit (Option JsString)

namespace AuthWorld

/-- No nonce issued yet. -/
def start (now : Nat) (random : List (Program.Bytes nonceBytes)) : AuthWorld where
  now := now
  redis := fun _ => none
  redisUp := true
  random := random

/-- A key is its UTF-8 bytes, and an entry past its time is not there. -/
def live (w : AuthWorld) (key : JsString) : Option RedisEntry :=
  (w.redis (encodeUtf8 key)).filter (fun entry => w.now ≤ entry.lastMs)

def put (w : AuthWorld) (key : JsString) (entry : Option RedisEntry) : AuthWorld :=
  { w with redis := Function.update w.redis (encodeUtf8 key) entry }

def handle (w : AuthWorld) : (c : AuthCommand) → Option (AuthWorld × AuthReply c)
  | .randomBytes =>
    match w.random with
    | [] => none
    | bytes :: random => some ({ w with random }, bytes)
  | .dateNow => some (w, w.now)
  | .setEx key value ttlSeconds =>
    if w.redisUp ∧ 0 < ttlSeconds then
      some (w.put key (some ⟨value, w.now + ttlSeconds * 1000⟩), .ok ())
    else some (w, .error ())
  | .getdel key =>
    if w.redisUp then some (w.put key none, .ok ((w.live key).map RedisEntry.value))
    else some (w, .error ())

end AuthWorld

/-- What happens beside the calls. -/
inductive AuthWeather
  | tick (ms : Nat)
  | redis (up : Bool)

def AuthWorld.act (w : AuthWorld) : AuthWeather → AuthWorld
  | .tick ms => { w with now := w.now + ms }
  | .redis up => { w with redisUp := up }

inductive AuthError
  | badRequest (message : JsString)
  | unauthorized (message : JsString)
  | serviceUnavailable (message : JsString)
  deriving DecidableEq

inductive AuthResult
  | message (text : JsString)
  /-- A session token, with its subject. -/
  | token (sub : JsString)
  deriving DecidableEq

abbrev AuthAsync (α : Type) := Prog AuthCommand AuthReply AuthError α

/-! The client calls, one command each. -/

def randomBytes : AuthAsync (Program.Bytes nonceBytes) := Prog.request AuthCommand.randomBytes

def dateNow : AuthAsync Nat := Prog.request AuthCommand.dateNow

def setEx (key value : JsString) (ttlSeconds : Nat) : AuthAsync (Except Unit Unit) :=
  Prog.request (AuthCommand.setEx key value ttlSeconds)

def getdel (key : JsString) : AuthAsync (Except Unit (Option JsString)) :=
  Prog.request (AuthCommand.getdel key)

def redisKey (pre subConcern : JsString) (rest : List JsString) : JsString :=
  (js ":").intercalate ((pre ++ subConcern) :: rest)

structure NonceRecord where
  pubkey : JsString
  nonce : JsString
  /-- `Number(value)`, as it was stored. -/
  expiresAt : JsString
  deriving DecidableEq

namespace RedisNonceStore

def key (config : AuthConfig) (pubkey nonce : JsString) : JsString :=
  redisKey config.redisKeyPrefix (js "nonce") [pubkey, nonce]

def put (config : AuthConfig) (pubkey nonce : JsString) (ttlSeconds : Nat) : AuthAsync Unit := do
  let now ← dateNow
  let expiresAt := now + ttlSeconds * 1000
  match ← setEx (key config pubkey nonce) (decimal expiresAt) ttlSeconds with
  | .ok () => return ()
  | .error () => .fail (.serviceUnavailable (js "nonce store is unavailable"))

def take (config : AuthConfig) (pubkey nonce : JsString) : AuthAsync (Option NonceRecord) := do
  match ← getdel (key config pubkey nonce) with
  | .ok (some expiresAt) => return some { pubkey, nonce, expiresAt }
  | .ok none => return none
  | .error () => .fail (.serviceUnavailable (js "nonce store is unavailable"))

end RedisNonceStore

/-- `toString("hex")`. -/
def hex (bytes : Program.Bytes nonceBytes) : JsString := bytes.data.flatMap hexByte

/-- The fields of a message issued at a time. -/
def issuedFields (config : AuthConfig) (pubkey : JsString) (random : Program.Bytes nonceBytes)
    (issuedAt : Nat) : SignInMessageFields where
  domain := config.authDomain
  pubkey := pubkey
  nonce := hex random
  issuedAt := toISOString issuedAt
  expirationTime := toISOString (issuedAt + config.authNonceTtlSeconds * 1000)

def challenge (config : AuthConfig) (pubkey : JsString) : AuthAsync AuthResult :=
  if !config.kit.isAddress pubkey then
    .fail (.badRequest (js "pubkey is not a valid base58 Solana address"))
  else do
    let random ← randomBytes
    let issuedAt ← dateNow
    let fields := issuedFields config pubkey random issuedAt
    RedisNonceStore.put config pubkey fields.nonce config.authNonceTtlSeconds
    return .message (buildSignInMessage fields)

/-- `NaN < now` is false: a date that is none has not expired. -/
@[irreducible] def expired (kit : Kit) (expirationTime : JsString) (now : Nat) : Bool :=
  (dateTime kit.otherDate expirationTime).any (· < (now : Int))

def verify (config : AuthConfig) (pubkey message signature : JsString) : AuthAsync AuthResult :=
  match parseSignInMessage message with
  | none => .fail (.unauthorized (js "invalid or malformed sign-in message"))
  | some parsed =>
    if parsed.pubkey ≠ pubkey then
      .fail (.unauthorized (js "message pubkey does not match request pubkey"))
    else do
      let now ← dateNow
      if expired config.kit parsed.expirationTime now then
        .fail (.unauthorized (js "sign-in message has expired"))
      else
        let consumed ← RedisNonceStore.take config pubkey parsed.nonce
        if consumed.isNone then
          .fail (.unauthorized (js "nonce is missing, expired, or already used"))
        else if !verifySignature config.kit message signature pubkey then
          .fail (.unauthorized (js "signature verification failed"))
        else return .token pubkey

inductive AuthCall
  | challenge (pubkey : JsString)
  | verify (pubkey message signature : JsString)
  deriving DecidableEq

def AuthCall.body (config : AuthConfig) : AuthCall → AuthAsync AuthResult
  | .challenge pubkey => Api.challenge config pubkey
  | .verify pubkey message signature => Api.verify config pubkey message signature

abbrev AuthPool := Pool AuthCommand AuthReply AuthError AuthResult AuthWorld AuthCall

abbrev AuthEvent := Event AuthCall AuthWeather

/-- The pool after any calls, turns, clock ticks and outages. -/
def AuthPool.after (config : AuthConfig) (w : AuthWorld) (events : List AuthEvent) : AuthPool :=
  run (Pool.step AuthWorld.handle (AuthCall.body config) AuthWorld.act) (Pool.init w) events

end Tagwise.Api
