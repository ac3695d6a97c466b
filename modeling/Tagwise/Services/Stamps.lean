import Tagwise.Services.World

/-! `updatedAt`, the one column that no statement of the code names: the client stamps it
on every row that a statement writes. -/

namespace Tagwise.Services
open Js Lib

/-- The rows of a tag that a command has written. An update that names no column is none. -/
def written (w : World) : (c : Command) → Reply c → JsString → Bool
  | .updateManyIdentity cond data, .ok _, tag =>
    data ≠ {} && (w.identities.find tag).any cond.selects
  | .updateIdentity updated data, .ok _, tag => data ≠ {} && updated = tag
  | .createIdentity data, .ok (), tag => data.tag = tag
  | _, _, _ => false

/-- `updatedAt` of the rows, by tag, after a command. -/
def stamp (w : World) (c : Command) (r : Reply c) (updatedAt : JsString → Nat) : JsString → Nat :=
  fun tag => if written w c r tag then w.now else updatedAt tag

end Tagwise.Services
