import Tagwise.Core.Account
import Tagwise.Services.World

namespace Tagwise.Sdk
open Js Tagwise.Core Services Lib

/-- What the chain alone says of a tag; the columns the mirror adds have no value here. -/
structure OnChainIdentity where
  tag : JsString
  owner : JsString
  wallet : JsString
  bump : Nat
  displayName : Option JsString
  avatar : Option JsString
  bio : Option JsString
  preferredToken : Option JsString
  verified : Bool
  merchant : Bool
  deriving DecidableEq

/-- A node that cannot be reached is the caller's exception. -/
def resolveOnChainAccount (sol : Program.Solana) (tag : NormalizedTag) :
    Async (Option OnChainIdentity) :=
  match deriveTagPda sol tag with
  | .error e => .fail (.pda e)
  | .ok (pda, _) => do
    match ← getAccountInfo pda with
    | .error () => .fail .rpc
    | .ok none => return none
    | .ok (some data) =>
      match decodeTagAccount sol data with
      | .error _ => return none
      | .ok decoded => return some {
          tag := decoded.tag
          owner := decoded.owner
          wallet := decoded.wallet
          bump := decoded.bump.toNat
          displayName := none
          avatar := none
          bio := none
          preferredToken := none
          verified := false
          merchant := false }

end Tagwise.Sdk
