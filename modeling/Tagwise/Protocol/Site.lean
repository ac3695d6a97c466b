import Tagwise.Api.Http
import Tagwise.Protocol.Network

/-! The whole site: sign-ins at the auth service beside the requests over HTTP, which present
what the sign-ins have given out. -/

namespace Tagwise.Protocol
open Js Tagwise.Core Services Lib Api

structure SiteConfig extends HttpConfig where
  programId : Program.Pubkey
  auth : AuthConfig

def SiteConfig.network (cfg : SiteConfig) : NetworkConfig where
  toApiConfig := cfg.toApiConfig
  programId := cfg.programId

inductive IndexerCall
  | notification (observation : Indexer.Observation)
  | reconcile
  | backfillModerationGate
  deriving DecidableEq

def IndexerCall.call : IndexerCall → NetworkCall
  | .notification o => .notification o
  | .reconcile => .reconcile
  | .backfillModerationGate => .backfillModerationGate

/-- A request at one of the instances, with what it finds when it arrives, or the indexer. -/
inductive SiteCall
  | http (server : Nat) (moment : Moment) (request : HttpRequest)
  | indexer (call : IndexerCall)

inductive SiteResult
  | http (answer : HttpAnswer)
  | network (result : NetworkResult)
  deriving DecidableEq

def SiteCall.body (cfg : SiteConfig) : SiteCall → ApiAsync SiteResult
  | .http server moment request => do
    return .http (← request.body cfg.toHttpConfig server moment)
  | .indexer call => do return .network (← call.call.body cfg.network)

abbrev RequestPool := Pool ApiCommand ApiReply ApiError SiteResult Network SiteCall

structure Site where
  auth : AuthPool
  requests : RequestPool

inductive SiteEvent
  | auth (event : AuthEvent)
  | request (event : Event SiteCall NetworkWeather)

namespace Site

def step (cfg : SiteConfig) (site : Site) : SiteEvent → Site
  | .auth event =>
    let auth := site.auth.step AuthWorld.handle (AuthCall.body cfg.auth) AuthWorld.act event
    { site with auth }
  | .request event =>
    let requests := site.requests.step Network.handle (SiteCall.body cfg) (Network.act cfg.network)
      event
    { site with requests }

/-- Nobody has signed in, and nothing is registered. -/
def start (now : Nat) (random : List (Program.Bytes nonceBytes)) (node : RpcNode)
    (order : ScanOrder) : Site :=
  ⟨Pool.init (AuthWorld.start now random), Pool.init (Network.start node order)⟩

def after (cfg : SiteConfig) (site : Site) (events : List SiteEvent) : Site :=
  run (step cfg) site events

end Site

/-- The request's token is good, and names this caller. -/
def Caller (cfg : HttpConfig) (moment : Moment) (authorization : Option JsString)
    (pubkey : JsString) : Prop :=
  ∃ token, authorization.bind bearerToken = some token ∧ token ≠ [] ∧
    cfg.verifyAsync moment.timeMs token = some pubkey

/-- A verify has ended in a token for this pubkey. -/
def Issued (auth : AuthPool) (pubkey : JsString) : Prop :=
  ∃ i, auth.result i = some (.ok (.token pubkey))

/-- Nobody can make a token up: one that passes the check has been given out by a sign-in. -/
def Unforged (cfg : SiteConfig) (site : Site) : SiteEvent → Prop
  | .request (.spawn (.http _ moment request)) =>
    ∀ token pubkey, request.authorization.bind bearerToken = some token →
      cfg.verifyAsync moment.timeMs token = some pubkey → Issued site.auth pubkey
  | _ => True

end Tagwise.Protocol
