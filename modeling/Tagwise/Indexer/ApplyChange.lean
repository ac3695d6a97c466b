import Tagwise.Core.Account
import Tagwise.Services.Deployment
import Tagwise.Services.World

namespace Tagwise.Indexer
open Js Tagwise.Core Services Lib

structure VerifiedTagChange where
  address : JsString
  tag : NormalizedTag
  owner : JsString
  wallet : JsString
  bump : Nat
  slot : Nat
  deriving DecidableEq

/-- What `abcAccount` at its address says, seen in some slot. -/
def VerifiedTagChange.abc (slot : Nat) : VerifiedTagChange where
  address := Program.base58 Program.abcAddress
  tag := .abc
  owner := Program.base58 Program.sampleOwner
  wallet := Program.base58 Program.sampleOwner
  bump := 255
  slot := slot

inductive ApplyOutcome
  | created
  | updated
  | skippedStale
  deriving DecidableEq, Repr

/-- Fails safe: a gate that throws leaves the tag active. -/
def shouldBlockTag (engine : Moderation.ProfanityEngine) (tag : JsString) : Bool :=
  match Moderation.isBlockedName engine tag with
  | .ok blocked => blocked
  | .error _ => false

/-- Fails soft: the reply, error or not, is only logged. -/
def invalidate (dep : Deployment) (tag : JsString) : Async Unit := do
  let _ ← redisDel (buildResolveCacheKey dep.redisKeyPrefix tag)
  return ()

/-- `status` when the gate blocks, and otherwise no mention of the column. -/
def blockedStatus (blocked : Bool) : Option IdentityStatus := if blocked then some .blocked else none

def updateData (change : VerifiedTagChange) (blocked : Bool) : IdentityData where
  owner := some change.owner
  wallet := some change.wallet
  bump := some change.bump
  lastAppliedSlot := some change.slot
  status := blockedStatus blocked

def createData (change : VerifiedTagChange) (blocked : Bool) : IdentityCreate where
  tag := change.tag.text
  owner := change.owner
  wallet := change.wallet
  bump := change.bump
  lastAppliedSlot := change.slot
  status := blockedStatus blocked

def notNewer (change : VerifiedTagChange) : IdentityWhere :=
  { tag := change.tag.text, lastAppliedSlotLte := some change.slot }

def applyChange (dep : Deployment) (change : VerifiedTagChange) : Async ApplyOutcome := do
  let blocked := shouldBlockTag dep.engine change.tag
  let count ← updateMany (notNewer change) (updateData change blocked)
  if count > 0 then
    invalidate dep change.tag
    return .updated
  let existing ← findUnique change.tag.text
  match existing with
  | some _ => return .skippedStale
  | none =>
    create (createData change blocked)
    invalidate dep change.tag
    return .created

def shouldApply (incomingSlot : Nat) : Option Nat → Bool
  | none => true
  | some storedSlot => incomingSlot ≥ storedSlot

end Tagwise.Indexer
