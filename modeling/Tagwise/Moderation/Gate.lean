import Tagwise.Core.Normalize
import Tagwise.Core.Reserved
import Tagwise.Moderation.Profanity

namespace Tagwise.Moderation
open Js Tagwise.Core

inductive ModerationGateReason
  | reserved
  | inappropriate
  deriving DecidableEq, Repr

inductive ModerationGateResult
  | allowed
  | refused (reason : ModerationGateReason)
  deriving DecidableEq, Repr

/-- Reserved first, so that a reserved name never reaches the engine. -/
def checkModerationGate (engine : ProfanityEngine) (tag : NormalizedTag) :
    Except Unit ModerationGateResult := do
  if isReservedTag tag then return .refused .reserved
  if ← isBlockedName engine tag then return .refused .inappropriate
  return .allowed

theorem checkModerationGate_reserved (engine : ProfanityEngine) {tag : NormalizedTag}
    (h : isReservedTag tag = true) : checkModerationGate engine tag = .ok (.refused .reserved) := by
  rw [checkModerationGate, if_pos h]
  rfl

/-- Past the reserved names the gate refuses what is blocked, and throws as the engine does. -/
theorem checkModerationGate_open (engine : ProfanityEngine) {tag : NormalizedTag}
    (h : isReservedTag tag = false) : checkModerationGate engine tag =
      (isBlockedName engine tag).map (fun blocked =>
        if blocked then .refused .inappropriate else .allowed) := by
  rw [checkModerationGate, if_neg (by rw [h]; decide)]
  cases isBlockedName engine tag with
  | error e => rfl
  | ok blocked => cases blocked <;> rfl

end Tagwise.Moderation
