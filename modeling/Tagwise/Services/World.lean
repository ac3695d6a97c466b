import Mathlib.Logic.Function.Basic
import Tagwise.Core.Seeds
import Tagwise.Lib.Prog
import Tagwise.Services.Identity

namespace Tagwise.Services
open Js

inductive DbError
  | unavailable
  | uniqueViolation
  | recordNotFound
  | invalidText
  deriving DecidableEq, Repr

/-- The exceptions a call can end in. -/
inductive Thrown
  | database (error : DbError)
  | rpc
  | moderation
  | pda (error : Core.PdaError)
  | notFound (message : JsString)
  | forbidden (message : JsString) (reason : Option JsString)
  deriving DecidableEq

structure ResolveResponse where
  tag : JsString
  wallet : JsString
  displayName : Option JsString
  avatar : Option JsString
  verified : Bool
  merchant : Bool
  preferredToken : Option JsString
  paymentLink : JsString
  profileLink : JsString
  qrLink : JsString
  deriving DecidableEq

/-- What a resolve key holds: the not-found sentinel, or a response as JSON. -/
inductive CacheValue
  | negative
  | response (value : ResolveResponse)
  deriving DecidableEq

/-- Everything the processes talk to: Postgres, the resolve keys of Redis, the RPC
node's present answers, and each API instance's map of lookups in flight. -/
structure World where
  identities : Identities
  /-- The one `indexer_state` row. -/
  lastProcessedSlot : Option Nat
  now : Nat
  dbUp : Bool
  redis : JsString → Option CacheValue
  redisUp : Bool
  rpcUp : Bool
  /-- The context slot and the accounts of `getProgramAccounts`. -/
  programAccounts : Nat × List (JsString × List UInt8)
  /-- The data of `getAccountInfo`. -/
  accountInfo : JsString → Option (List UInt8)
  inFlight : Nat → JsString → Option Nat
  nextFlight : Nat
  settled : Nat → Option (Except Thrown ResolveResponse)

/-- Services that answer and have stored nothing. -/
def World.fresh : World where
  identities := Lib.Table.empty
  lastProcessedSlot := none
  now := 0
  dbUp := true
  redis := fun _ => none
  redisUp := true
  rpcUp := true
  programAccounts := (0, [])
  accountInfo := fun _ => none
  inFlight := fun _ _ => none
  nextFlight := 0
  settled := fun _ => none

/-- The single statements and requests the code awaits, and the two turns of an API
instance's event loop that touch its map. -/
inductive Command
  | updateManyIdentity (cond : IdentityWhere) (data : IdentityData)
  | findUniqueIdentity (tag : JsString)
  | findManyActiveTags
  | updateIdentity (tag : JsString) (data : IdentityData)
  | createIdentity (data : IdentityCreate)
  | updateManyState (slot : Nat)
  | findUniqueState
  | createState (slot : Nat)
  | redisGet (key : JsString)
  | redisSet (key : JsString) (value : CacheValue) (ttl : Nat)
  | redisDel (key : JsString)
  | getProgramAccounts
  | getAccountInfo (address : JsString)
  | enterFlight (server : Nat) (key : JsString)
  | leaveFlight (server : Nat) (key : JsString) (flight : Nat)
      (result : Except Thrown ResolveResponse)
  | awaitFlight (flight : Nat)

/-- Whether a resolve call found a lookup to share or opened one. -/
inductive Flight
  | joins (flight : Nat)
  | leads (flight : Nat)
  deriving DecidableEq

@[reducible] def Reply : Command → Type
  | .updateManyIdentity _ _ => Except DbError Nat
  | .findUniqueIdentity _ => Except DbError (Option Identity)
  | .findManyActiveTags => Except DbError (List JsString)
  | .updateIdentity _ _ => Except DbError Identity
  | .createIdentity _ => Except DbError Unit
  | .updateManyState _ => Except DbError Nat
  | .findUniqueState => Except DbError (Option Nat)
  | .createState _ => Except DbError Unit
  | .redisGet _ => Except Unit (Option CacheValue)
  | .redisSet _ _ _ => Except Unit Unit
  | .redisDel _ => Except Unit Unit
  | .getProgramAccounts => Except Unit (Nat × List (JsString × List UInt8))
  | .getAccountInfo _ => Except Unit (Option (List UInt8))
  | .enterFlight _ _ => Flight
  | .leaveFlight _ _ _ _ => Unit
  | .awaitFlight _ => Except Thrown ResolveResponse

namespace World

def updateManyIdentity (w : World) (cond : IdentityWhere) (data : IdentityData) : World :=
  { w with identities := w.identities.updateMany cond.selects data.apply data.apply_tag }

def putKey (w : World) (key : JsString) (value : Option CacheValue) : World :=
  { w with redis := Function.update w.redis key value }

/-- One command, done at once; `none` while a shared lookup has no result. -/
def handle (w : World) : (c : Command) → Option (World × Reply c)
  | .updateManyIdentity cond data =>
    if w.dbUp then
      some (w.updateManyIdentity cond data, .ok (w.identities.count cond.selects))
    else some (w, .error .unavailable)
  | .findUniqueIdentity tag =>
    if w.dbUp then some (w, .ok (w.identities.find tag)) else some (w, .error .unavailable)
  | .findManyActiveTags =>
    if w.dbUp then
      some (w, .ok ((w.identities.rows.filter (fun row => row.status = .active)).map Identity.tag))
    else some (w, .error .unavailable)
  | .updateIdentity tag data =>
    if w.dbUp then
      if data.storable then
        match w.identities.find tag with
        | some row => some (w.updateManyIdentity { tag } data, .ok (data.apply row))
        | none => some (w, .error .recordNotFound)
      else some (w, .error .invalidText)
    else some (w, .error .unavailable)
  | .createIdentity data =>
    if w.dbUp then
      match w.identities.insert (data.row w.now) with
      | some identities => some ({ w with identities }, .ok ())
      | none => some (w, .error .uniqueViolation)
    else some (w, .error .unavailable)
  | .updateManyState slot =>
    if w.dbUp then
      match w.lastProcessedSlot with
      | some stored =>
        if stored < slot then some ({ w with lastProcessedSlot := some slot }, .ok 1)
        else some (w, .ok 0)
      | none => some (w, .ok 0)
    else some (w, .error .unavailable)
  | .findUniqueState =>
    if w.dbUp then some (w, .ok w.lastProcessedSlot) else some (w, .error .unavailable)
  | .createState slot =>
    if w.dbUp then
      match w.lastProcessedSlot with
      | none => some ({ w with lastProcessedSlot := some slot }, .ok ())
      | some _ => some (w, .error .uniqueViolation)
    else some (w, .error .unavailable)
  | .redisGet key => if w.redisUp then some (w, .ok (w.redis key)) else some (w, .error ())
  | .redisSet key value ttl =>
    if w.redisUp ∧ 0 < ttl then some (w.putKey key (some value), .ok ()) else some (w, .error ())
  | .redisDel key =>
    if w.redisUp then some (w.putKey key none, .ok ()) else some (w, .error ())
  | .getProgramAccounts =>
    if w.rpcUp then some (w, .ok w.programAccounts) else some (w, .error ())
  | .getAccountInfo address =>
    if w.rpcUp then some (w, .ok (w.accountInfo address)) else some (w, .error ())
  | .enterFlight server key =>
    match w.inFlight server key with
    | some flight => some (w, .joins flight)
    | none =>
      some ({ w with
        inFlight := Function.update w.inFlight server
          (Function.update (w.inFlight server) key (some w.nextFlight))
        nextFlight := w.nextFlight + 1 }, .leads w.nextFlight)
  | .leaveFlight server key flight result =>
    some ({ w with
      inFlight := Function.update w.inFlight server
        (Function.update (w.inFlight server) key none)
      settled := Function.update w.settled flight (some result) }, ())
  | .awaitFlight flight =>
    match w.settled flight with
    | some result => some (w, result)
    | none => none

section Answers
variable {w : World} (up : w.dbUp = true)
include up

theorem handle_updateMany (cond : IdentityWhere) (data : IdentityData) :
    w.handle (.updateManyIdentity cond data) =
      some (w.updateManyIdentity cond data, .ok (w.identities.count cond.selects)) :=
  if_pos up

theorem handle_findUnique (tag : JsString) :
    w.handle (.findUniqueIdentity tag) = some (w, .ok (w.identities.find tag)) :=
  if_pos up

theorem handle_create {data : IdentityCreate} {identities : Identities}
    (h : w.identities.insert (data.row w.now) = some identities) :
    w.handle (.createIdentity data) = some ({ w with identities }, .ok ()) := by
  apply (if_pos up).trans
  rw [h]

theorem handle_create_taken {data : IdentityCreate}
    (h : w.identities.insert (data.row w.now) = none) :
    w.handle (.createIdentity data) = some (w, .error .uniqueViolation) := by
  apply (if_pos up).trans
  rw [h]

end Answers

/-- An update of one row is made and answered with the row, or it is refused. -/
theorem handle_update_cases {w w' : World} {tag : JsString} {data : IdentityData}
    {r : Reply (.updateIdentity tag data)} (h : w.handle (.updateIdentity tag data) = some (w', r)) :
    (∃ row, w.identities.find tag = some row ∧ w' = w.updateManyIdentity { tag } data ∧
      r = .ok (data.apply row)) ∨ w' = w ∧ ∃ e, r = .error e := by
  simp only [World.handle] at h
  split at h
  · split at h
    · split at h
      · rename_i row hf
        cases h
        exact .inl ⟨row,hf,rfl,rfl⟩
      · cases h
        exact .inr ⟨rfl,_,rfl⟩
    · cases h
      exact .inr ⟨rfl,_,rfl⟩
  · cases h
    exact .inr ⟨rfl,_,rfl⟩

/-- A deletion always comes back: with Redis down it is an error and no change. -/
theorem handle_redisDel (w : World) (key : JsString) :
    ∃ redis r, w.handle (.redisDel key) = some ({ w with redis }, r) := by
  by_cases h : w.redisUp = true
  · exact ⟨_,_,if_pos h⟩
  · exact ⟨w.redis,_,if_neg h⟩

end World

abbrev Async (α : Type) := Lib.Prog Command Reply Thrown α

/-- `await` on a statement: its error is the caller's exception. -/
def awaitDb (p : Async (Except DbError α)) : Async α := do
  match ← p with
  | .ok a => return a
  | .error e => .fail (.database e)

theorem always_awaitDb {P : Command → Prop} {p : Async (Except DbError α)} (h : p.Always P) :
    (awaitDb p).Always P := by
  refine Lib.Prog.always_bind h (fun r => ?_)
  cases r with
  | ok a => exact trivial
  | error e => exact trivial

/-! The client calls of the code, one command each. -/

def updateMany (cond : IdentityWhere) (data : IdentityData) : Async Nat :=
  awaitDb (Lib.Prog.request (Command.updateManyIdentity cond data))

def findUnique (tag : JsString) : Async (Option Identity) :=
  awaitDb (Lib.Prog.request (Command.findUniqueIdentity tag))

def findManyActiveTags : Async (List JsString) :=
  awaitDb (Lib.Prog.request Command.findManyActiveTags)

def update (tag : JsString) (data : IdentityData) : Async Identity :=
  awaitDb (Lib.Prog.request (Command.updateIdentity tag data))

def create (data : IdentityCreate) : Async Unit :=
  awaitDb (Lib.Prog.request (Command.createIdentity data))

def updateManyState (slot : Nat) : Async Nat :=
  awaitDb (Lib.Prog.request (Command.updateManyState slot))

def findUniqueState : Async (Option Nat) := awaitDb (Lib.Prog.request Command.findUniqueState)

def createState (slot : Nat) : Async Unit := awaitDb (Lib.Prog.request (Command.createState slot))

def redisGet (key : JsString) : Async (Except Unit (Option CacheValue)) :=
  Lib.Prog.request (Command.redisGet key)

def redisSet (key : JsString) (value : CacheValue) (ttl : Nat) : Async (Except Unit Unit) :=
  Lib.Prog.request (Command.redisSet key value ttl)

def redisDel (key : JsString) : Async (Except Unit Unit) :=
  Lib.Prog.request (Command.redisDel key)

def getProgramAccounts : Async (Except Unit (Nat × List (JsString × List UInt8))) :=
  Lib.Prog.request Command.getProgramAccounts

def getAccountInfo (address : JsString) : Async (Except Unit (Option (List UInt8))) :=
  Lib.Prog.request (Command.getAccountInfo address)

end Tagwise.Services
