import Tagwise.Api.Tags
import Tagwise.Indexer.BackfillModeration
import Tagwise.Lib.Pool

/-! The calls of both processes that read or write the mirror and its resolve keys. -/

namespace Tagwise.Api
open Js Tagwise.Core Services Lib

inductive MirrorCall
  | resolve (server : Nat) (tag : NormalizedTag)
  | applyChange (change : Indexer.VerifiedTagChange)
  | updateIdentity (params : UpdateIdentityParams)
  | backfillModerationGate
  deriving DecidableEq

inductive MirrorResult
  | resolved (response : ResolveResponse)
  | applied (outcome : Indexer.ApplyOutcome)
  | identity (response : IdentityResponse)
  | backfilled (result : Indexer.BackfillResult)
  deriving DecidableEq

def MirrorCall.body (dep : Deployment) : MirrorCall → Async MirrorResult
  | .resolve server tag => do return .resolved (← Api.resolve dep server tag)
  | .applyChange change => do return .applied (← Indexer.applyChange dep change)
  | .updateIdentity params => do return .identity (← Api.updateIdentity dep params)
  | .backfillModerationGate => do return .backfilled (← Indexer.backfillModerationGate dep)

/-- What happens beside the calls. Redis answers throughout, and no key runs out. -/
inductive MirrorWeather
  | tick (ms : Nat)
  | database (up : Bool)
  | rpc (up : Bool)
  | chain (accountInfo : JsString → Option (List UInt8))

def MirrorWeather.act (w : World) : MirrorWeather → World
  | .tick ms => { w with now := w.now + ms }
  | .database up => { w with dbUp := up }
  | .rpc up => { w with rpcUp := up }
  | .chain accountInfo => { w with accountInfo }

abbrev MirrorPool := Pool Command Reply Thrown MirrorResult World MirrorCall

abbrev MirrorEvent := Event MirrorCall MirrorWeather

namespace MirrorPool

/-- Any rows, and nothing cached, started or in flight yet. -/
def start (identities : Identities) : MirrorPool := Pool.init { World.fresh with identities }

def step (dep : Deployment) : MirrorPool → MirrorEvent → MirrorPool :=
  Pool.step World.handle (MirrorCall.body dep) MirrorWeather.act

/-- The pool after any calls, turns, outages and moves of the chain. -/
def after (dep : Deployment) (identities : Identities) (events : List MirrorEvent) : MirrorPool :=
  run (step dep) (start identities) events

end MirrorPool

/-- What happens beside the instances. It may change any service, but a resolve key only
runs out, and what an instance keeps in memory is its own. -/
structure Beside where
  act : World → World
  keys : ∀ w key v, (act w).redis key = some v → w.redis key = some v
  inFlight : ∀ w, (act w).inFlight = w.inFlight
  nextFlight : ∀ w, (act w).nextFlight = w.nextFlight
  settled : ∀ w, (act w).settled = w.settled

abbrev InstanceEvent := Event MirrorCall Beside

namespace InstancePool

def start : MirrorPool := Pool.init World.fresh

def step (dep : Deployment) : MirrorPool → InstanceEvent → MirrorPool :=
  Pool.step World.handle (MirrorCall.body dep) (fun w what => what.act w)

/-- The pool after any calls and turns, with anything happening between them. -/
def after (dep : Deployment) (events : List InstanceEvent) : MirrorPool :=
  run (step dep) start events

end InstancePool

end Tagwise.Api
