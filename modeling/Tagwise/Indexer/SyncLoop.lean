import Tagwise.Indexer.Pipeline
import Tagwise.Program.Instructions

namespace Tagwise.Indexer
open Js Services Lib

/-! `main` and `runLiveSubscription`, while the program's accounts change on chain. -/

/-- A program notification: an account as a change has left it. -/
structure Notification where
  slot : Nat
  pubkey : Program.Pubkey
  account : Program.TagAccount
  deriving DecidableEq

def Notification.observation (sol : Program.Solana) (n : Notification) : Observation where
  address := sol.base58 n.pubkey
  data := n.account.serialize
  slot := n.slot

def initialBackoffMs : Nat := 1000
def maxBackoffMs : Nat := 30000

/-- What the indexer awaits. -/
inductive Stage
  /-- The startup sweep of `main`. -/
  | backfilling (rest : Async ReconcileResult)
  | subscribing
  /-- The sweep after a reconnect. -/
  | healing (rest : Async ReconcileResult)
  /-- The next notification. -/
  | consuming
  | processing (rest : Async ProcessOutcome)
  | sleeping
  | stopped

structure SyncLoop where
  world : World
  chain : Program.Chain
  slot : Nat
  stage : Stage
  backoffMs : Nat
  firstConnection : Bool
  aborted : Bool
  /-- The last subscription is still open. -/
  live : Bool
  notifications : List Notification
  /-- The chain as the startup sweep read it, once it has. -/
  swept : Option Program.Chain

inductive Act
  /-- A submission lands, some slots after the last one. -/
  | submit (later : Nat) (sub : Program.Submission)
  /-- The awaited command, sweep or notification comes back. -/
  | turn
  | subscribed
  | refused
  /-- The websocket closes under the subscription. -/
  | dropped
  /-- The iteration over the notifications ends or throws. -/
  | ended
  | woke
  | abort
  /-- Whatever else happens to the services; the mirror's rows are the indexer's. -/
  | elsewhere (services : World)

namespace SyncLoop

/-- Nothing of the services but the mirror's rows is settled at the start. -/
def start (dep : Deployment) (world : World) (chain : Program.Chain) (slot : Nat) : SyncLoop where
  world := world
  chain := chain
  slot := slot
  stage := .backfilling (reconcile dep)
  backoffMs := initialBackoffMs
  firstConnection := true
  aborted := false
  live := false
  notifications := []
  swept := none

/-- The head of `while (!aborted)`. -/
def enter (loop : SyncLoop) : SyncLoop :=
  { loop with stage := if loop.aborted then .stopped else .subscribing }

/-- Where the body of the loop ends, by an error or not. -/
def pause (loop : SyncLoop) : SyncLoop :=
  { loop with stage := if loop.aborted then .stopped else .sleeping, live := false }

/-- The account a submission has written, to an open subscription. -/
def notice (loop : SyncLoop) (sub : Program.Submission) : List Notification :=
  if loop.live then
    ((loop.chain.tagAccounts sub.instruction.tagAccount).map
      (Notification.mk loop.slot sub.instruction.tagAccount)).toList
  else []

def submit (sol : Program.Solana) (loop : SyncLoop) (later : Nat) (sub : Program.Submission) :
    SyncLoop :=
  match Program.execute sol loop.chain sub with
  | .error _ => { loop with slot := loop.slot + later }
  | .ok chain =>
    let loop := { loop with chain, slot := loop.slot + later }
    { loop with notifications := loop.notifications ++ loop.notice sub }

/-- The next command of what is left, and what is left then. -/
def command (loop : SyncLoop) (c : Command) (resume : Reply c → Stage) : SyncLoop :=
  match loop.world.handle c with
  | some (world, r) => { loop with world, stage := resume r }
  | none => loop

/-- The loop stands at the read of a sweep. -/
def reading (loop : SyncLoop) : Bool :=
  match loop.stage with
  | .backfilling (.call .getProgramAccounts _) => true
  | .healing (.call .getProgramAccounts _) => true
  | _ => false

def turn (dep : Deployment) (loop : SyncLoop) : SyncLoop :=
  match loop.stage with
  | .backfilling (.done _) => loop.enter
  | .backfilling (.fail _) => { loop with stage := .stopped }
  | .backfilling (.call c k) =>
    { loop with swept := loop.swept.or (if loop.reading then some loop.chain else none) }.command c
      (fun r => .backfilling (k r))
  | .healing (.done _) => { loop with stage := .consuming, firstConnection := false }
  | .healing (.fail _) => loop.pause
  | .healing (.call c k) => loop.command c (fun r => .healing (k r))
  | .consuming =>
    match loop.notifications with
    | [] => loop
    | n :: notifications =>
      { loop with
        stage := .processing (processAccountObservation dep (n.observation dep.sol))
        notifications }
  | .processing (.done _) => { loop with stage := .consuming }
  | .processing (.fail _) => loop.pause
  | .processing (.call c k) => loop.command c (fun r => .processing (k r))
  | .subscribing => loop
  | .sleeping => loop
  | .stopped => loop

/-- `subscribe` comes back with a new, empty stream. -/
def connect (dep : Deployment) (loop : SyncLoop) : SyncLoop :=
  let loop := { loop with
    backoffMs := initialBackoffMs
    live := !loop.aborted
    notifications := [] }
  if loop.firstConnection then { loop with stage := .consuming, firstConnection := false }
  else { loop with stage := .healing (reconcile dep) }

def step (dep : Deployment) (loop : SyncLoop) : Act → SyncLoop
  | .submit later sub => loop.submit dep.sol later sub
  | .turn => loop.turn dep
  | .subscribed =>
    match loop.stage with
    | .subscribing => loop.connect dep
    | _ => loop
  | .refused =>
    match loop.stage with
    | .subscribing => loop.pause
    | _ => loop
  | .dropped => { loop with live := false }
  | .ended =>
    match loop.stage with
    | .consuming => loop.pause
    | _ => loop
  | .woke =>
    match loop.stage with
    | .sleeping => { loop with backoffMs := min (loop.backoffMs * 2) maxBackoffMs }.enter
    | _ => loop
  | .abort => { loop with aborted := true, live := false }
  | .elsewhere services =>
    { loop with world := { services with identities := loop.world.identities } }

end SyncLoop

end Tagwise.Indexer
