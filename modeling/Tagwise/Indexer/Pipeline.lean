import Tagwise.Indexer.ApplyChange

namespace Tagwise.Indexer
open Js Tagwise.Core Services Lib

/-- Never moves the cursor backward. -/
def advanceCursor (slot : Nat) : Async Unit := do
  let count ← updateManyState slot
  if count > 0 then return ()
  let existing ← findUniqueState
  if existing.isNone then createState slot

structure Observation where
  address : JsString
  data : List UInt8
  slot : Nat
  deriving DecidableEq

/-- The change an account buffer speaks for, or why it is rejected. -/
def decodeAndVerify (dep : Deployment) (o : Observation) :
    Async (Except JsString VerifiedTagChange) :=
  match decodeTagAccount dep.sol o.data with
  | .error e => return .error (js "decode failed for " ++ o.address ++ js ": " ++ e.message)
  | .ok decoded =>
    match deriveTagPda dep.sol decoded.tag.text with
    | .error e => .fail (.pda e)
    | .ok (derivedAddress, _) =>
      if derivedAddress ≠ o.address then
        return .error (js "PDA mismatch for tag " ++ decoded.tag.text ++ js ": account address " ++
          o.address ++ js " does not match derived address " ++ derivedAddress)
      else return .ok {
        address := o.address
        tag := decoded.tag
        owner := decoded.owner
        wallet := decoded.wallet
        bump := decoded.bump.toNat
        slot := o.slot }

inductive ProcessOutcome
  | applied
  | skipped
  deriving DecidableEq, Repr

def processAccountObservation (dep : Deployment) (o : Observation) : Async ProcessOutcome := do
  match ← decodeAndVerify dep o with
  | .error _ => return .skipped
  | .ok change =>
    let outcome ← applyChange dep change
    if outcome ≠ .skippedStale then advanceCursor o.slot
    return if outcome = .skippedStale then .skipped else .applied

structure ReconcileResult where
  slot : Nat
  scanned : Nat
  applied : Nat
  skipped : Nat
  deriving DecidableEq

/-- The loop over the accounts of one response. -/
def sweep (dep : Deployment) (slot : Nat) (applied skipped : Nat) :
    List (JsString × List UInt8) → Async (Nat × Nat)
  | [] => return (applied, skipped)
  | (address, data) :: rest => do
    match ← processAccountObservation dep { address, data, slot } with
    | .applied => sweep dep slot (applied + 1) skipped rest
    | .skipped => sweep dep slot applied (skipped + 1) rest

def reconcile (dep : Deployment) : Async ReconcileResult := do
  match ← getProgramAccounts with
  | .error _ => .fail .rpc
  | .ok (slot, accounts) =>
    let (applied, skipped) ← sweep dep slot 0 0 accounts
    return { slot, scanned := accounts.length, applied, skipped }

end Tagwise.Indexer
