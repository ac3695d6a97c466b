import Tagwise.Api.Tags
import Tagwise.Api.Transactions
import Tagwise.Lib.TwoRun

/-! What the handlers of the API talk to: the mirror with its resolve keys, the search
over the mirror, and the RPC node's side of a transaction. -/

namespace Tagwise.Api
open Js Tagwise.Core Services Lib

structure ApiConfig where
  dep : Deployment
  kit : Kit
  codecs : Codecs
  tipRegistryProgramId : JsString
  /-- `base64Decoder.decode` of a message's bytes. -/
  messageBase64 : List UInt8 → JsString
  getBase64EncodedWireTransaction : CompiledTransaction → JsString
  /-- The database's matching of a tag against a query, -/
  tagStartsWith : JsString → JsString → Bool
  /-- and of a display name, case aside. -/
  displayNameContains : JsString → JsString → Bool

/-- The order in which the database happens to return the rows it has found. It may be any,
and it is one order wherever the same rows are found. -/
structure ScanOrder where
  scan : List Identity → List Identity
  perm : ∀ rows, (scan rows).Perm rows
  agrees : ∀ rows rows', (rows.map Identity.tag).Nodup → rows.Perm rows' → scan rows = scan rows'

def tagLe (a b : Identity) : Bool := a.tag ≤ b.tag

theorem sorted_tagLe (rows : List Identity) :
    (rows.mergeSort tagLe).Pairwise (fun a b => tagLe a b = true) := by
  apply List.pairwise_mergeSort
  · intro a b c hab hbc
    exact decide_eq_true (List.le_trans (of_decide_eq_true hab) (of_decide_eq_true hbc))
  · intro a b
    simpa [tagLe] using List.le_total a.tag b.tag

/-- Sorted by tag, which no two rows share. -/
def ScanOrder.byTag : ScanOrder where
  scan := fun rows => rows.mergeSort tagLe
  perm := fun rows => List.mergeSort_perm rows tagLe
  agrees := by
    intro rows rows' hu hp
    have hrows := List.mergeSort_perm rows tagLe
    have hperm := (hrows.trans hp).trans (List.mergeSort_perm rows' tagLe).symm
    refine List.Perm.eq_of_pairwise ?_ (sorted_tagLe rows) (sorted_tagLe rows') hperm
    intro a b ha hb hab hba
    have htag := List.le_antisymm (of_decide_eq_true hab) (of_decide_eq_true hba)
    exact List.inj_on_of_nodup_map hu (hrows.mem_iff.mp ha)
      (hrows.mem_iff.mp (hperm.mem_iff.mpr hb)) htag

/-- What the RPC node says of blocks, fees and balances. -/
structure RpcNode where
  latestBlockhash : BlockhashLifetime
  minimumBalanceForRentExemption : Nat → Nat
  /-- `null` where the node cannot tell. -/
  feeForMessage : JsString → Option Nat
  balance : JsString → Nat

structure ApiWorld where
  mirror : World
  node : RpcNode
  order : ScanOrder

inductive ApiCommand
  | mirror (command : Command)
  /-- Of the condition, `query` is the text that the database is sent. -/
  | findManyActive (query : JsString) (cond : Identity → Bool) (take : Nat)
  | getLatestBlockhash
  | getMinimumBalanceForRentExemption (size : Nat)
  | getFeeForMessage (messageBase64 : JsString)
  | getBalance (address : JsString)

@[reducible] def ApiReply : ApiCommand → Type
  | .mirror command => Reply command
  | .findManyActive _ _ _ => Except DbError (List Identity)
  | .getLatestBlockhash => Except Unit BlockhashLifetime
  | .getMinimumBalanceForRentExemption _ => Except Unit Nat
  | .getFeeForMessage _ => Except Unit (Option Nat)
  | .getBalance _ => Except Unit Nat

namespace ApiWorld

def withMirror (w : ApiWorld) (mirror : World) : ApiWorld := { w with mirror }

/-- The same world around other rows. -/
def withRows (w : ApiWorld) (identities : Identities) : ApiWorld :=
  w.withMirror { w.mirror with identities }

/-- The node answers `getAccountInfo` and the rest from one connection. -/
def rpc (w : ApiWorld) (answer : RpcNode → α) : Except Unit α :=
  if w.mirror.rpcUp then .ok (answer w.node) else .error ()

def handle (w : ApiWorld) : (c : ApiCommand) → Option (ApiWorld × ApiReply c)
  | .mirror command => (w.mirror.handle command).map (fun r => (w.withMirror r.1, r.2))
  | .findManyActive query cond take =>
    let active := w.mirror.identities.rows.filter (fun row => row.status = .active)
    some (w, if w.mirror.dbUp then
        if storable query then .ok ((w.order.scan (active.filter cond)).take take)
        else .error .invalidText
      else .error .unavailable)
  | .getLatestBlockhash => some (w, w.rpc RpcNode.latestBlockhash)
  | .getMinimumBalanceForRentExemption size =>
    some (w, w.rpc (fun node => node.minimumBalanceForRentExemption size))
  | .getFeeForMessage messageBase64 =>
    some (w, w.rpc (fun node => node.feeForMessage messageBase64))
  | .getBalance address => some (w, w.rpc (fun node => node.balance address))

/-- The rows of a search are active ones of the mirror. -/
theorem handle_findMany_ok {w w' : ApiWorld} {query : JsString} {cond : Identity → Bool}
    {take : Nat} {rows : List Identity}
    (h : w.handle (.findManyActive query cond take) = some (w', .ok rows)) :
    ∀ row ∈ rows, row ∈ w.mirror.identities.rows ∧ row.status = .active := by
  obtain ⟨_,hr⟩ := Prod.mk.inj (Option.some.inj h)
  intro row hrow
  split at hr
  · split at hr
    · cases hr
      have hmem := (w.order.perm _).mem_iff.mp (List.mem_of_mem_take hrow)
      obtain ⟨hrows,hactive⟩ := List.mem_filter.mp (List.mem_filter.mp hmem).1
      exact ⟨hrows,of_decide_eq_true hactive⟩
    · cases hr
  · cases hr

end ApiWorld

/-- What a handler answers when it does not answer a value. -/
inductive ApiError
  | thrown (error : Thrown)
  | badRequest (message reason : JsString)
  | conflict (message reason : JsString)
  | paymentRequired (message requiredLamports currentLamports shortfallLamports : JsString)
  | build (error : BuildError)
  | unauthorized (message : JsString)
  | tooManyRequests (message : JsString)
  /-- The messages of the checks that the body fails. -/
  | validation (messages : List JsString)
  /-- Thrown by the engine, where `null` stands for a string. -/
  | typeError
  deriving DecidableEq

/-- The status of the answer that the exception becomes. -/
def ApiError.status : ApiError → Nat
  | .badRequest _ _ | .validation _ => 400
  | .unauthorized _ => 401
  | .paymentRequired _ _ _ _ => 402
  | .thrown (.forbidden _ _) => 403
  | .thrown (.notFound _) => 404
  | .conflict _ _ => 409
  | .tooManyRequests _ => 429
  | _ => 500

abbrev ApiAsync (α : Type) := Prog ApiCommand ApiReply ApiError α

/-- A call of a service that only knows the mirror. -/
def relay : Async α → ApiAsync α := Prog.embed ApiCommand.mirror (fun _ reply => reply) .thrown

theorem run_relay (p : Async α) (w : ApiWorld) : (relay p).run ApiWorld.handle w =
    (p.run World.handle w.mirror).map (fun r => (w.withMirror r.1, r.2.mapError .thrown)) := by
  apply Prog.run_embed ApiWorld.mirror ApiWorld.withMirror (fun _ => rfl) (fun _ _ => rfl)
    (fun _ _ _ => rfl)
  intro w command
  rw [ApiWorld.handle, Option.map_map]
  rfl

def awaitRpc (p : ApiAsync (Except Unit α)) : ApiAsync α := do
  match ← p with
  | .ok a => return a
  | .error () => .fail (.thrown .rpc)

def findManyActive (query : JsString) (cond : Identity → Bool) (take : Nat) :
    ApiAsync (List Identity) := do
  match ← Prog.request (ApiCommand.findManyActive query cond take) with
  | .ok rows => return rows
  | .error e => .fail (.thrown (.database e))

def getLatestBlockhash : ApiAsync BlockhashLifetime :=
  awaitRpc (Prog.request ApiCommand.getLatestBlockhash)

def getMinimumBalanceForRentExemption (size : Nat) : ApiAsync Nat :=
  awaitRpc (Prog.request (ApiCommand.getMinimumBalanceForRentExemption size))

def getFeeForMessage (messageBase64 : JsString) : ApiAsync (Option Nat) :=
  awaitRpc (Prog.request (ApiCommand.getFeeForMessage messageBase64))

def getBalance (address : JsString) : ApiAsync Nat :=
  awaitRpc (Prog.request (ApiCommand.getBalance address))

/-- A builder's exception is the caller's. -/
def built : Except BuildError α → ApiAsync α
  | .ok a => return a
  | .error e => .fail (.build e)

end Tagwise.Api
