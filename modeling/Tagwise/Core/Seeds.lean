import Tagwise.Core.Normalize
import Tagwise.Program.State

namespace Tagwise.Core
open Js

inductive SeedsError
  | tooLong (length : Nat)
  | nonAscii (index : Nat) (code : Nat)
  deriving DecidableEq, Repr

/-- A `Uint8Array` filled with char codes; a store keeps the low byte. -/
def asciiBytes (value : JsString) : List UInt8 := value.map (fun u => UInt8.ofNat u.toNat)

def assertShapeOfNormalizedTag (tag : JsString) : Except SeedsError Unit :=
  if tag.length > maxTagLength then .error (.tooLong tag.length)
  else match tag.zipIdx.find? (fun (u, _) => u.toNat > 127) with
    | some (u, i) => .error (.nonAscii i u.toNat)
    | none => .ok ()

/-- The guard is there for strings that reach the `NormalizedTag` type through a cast. -/
def buildTagSeeds (normalizedTag : JsString) : Except SeedsError (List (List UInt8)) :=
  match assertShapeOfNormalizedTag normalizedTag with
  | .error e => .error e
  | .ok () => .ok [asciiBytes tagSeedPrefix, asciiBytes normalizedTag]

inductive PdaError
  | seeds (error : SeedsError)
  | noViableBump
  deriving DecidableEq, Repr

/-- The base58 address and the bump of a tag's account under the program of `sol`. -/
def deriveTagPda (sol : Program.Solana) (normalizedTag : JsString) :
    Except PdaError (JsString × UInt8) :=
  match buildTagSeeds normalizedTag with
  | .error e => .error (.seeds e)
  | .ok seeds =>
    match sol.findProgramAddress seeds with
    | none => .error .noViableBump
    | some (address, bump) => .ok (sol.base58 address, bump)

theorem asciiBytes_prefix : asciiBytes tagSeedPrefix = Program.tagSeedPrefix := by decide

theorem assertShape_ok {tag : JsString} (hl : tag.length ≤ maxTagLength) (ha : Ascii tag) :
    assertShapeOfNormalizedTag tag = .ok () := by
  have hf : tag.zipIdx.find? (fun (u, _) => u.toNat > 127) = none := by
    apply List.find?_eq_none.mpr
    rintro ⟨u,i⟩ hm
    have := ha u (List.fst_mem_of_mem_zipIdx hm)
    simp only [decide_eq_true_eq, Nat.not_lt]
    omega
  rw [assertShapeOfNormalizedTag, if_neg (Nat.not_lt.mpr hl), hf]

/-- On what `normalizeTag` accepts the guard never fires. -/
theorem buildTagSeeds_normalized (t : NormalizedTag) :
    buildTagSeeds t.text = .ok [Program.tagSeedPrefix, asciiBytes t.text] := by
  rw [buildTagSeeds, assertShape_ok t.short t.ascii, asciiBytes_prefix]

theorem asciiBytes_fromCharCodes (bytes : List UInt8) : asciiBytes (fromCharCodes bytes) = bytes := by
  rw [asciiBytes, fromCharCodes, List.map_map]
  calc bytes.map _ = bytes.map id := by
        apply List.map_congr_left
        intro b _
        simp
    _ = bytes := List.map_id bytes

theorem fromCharCodes_asciiBytes {s : JsString} (h : Ascii s) : fromCharCodes (asciiBytes s) = s :=
  widen_bytes h

end Tagwise.Core
