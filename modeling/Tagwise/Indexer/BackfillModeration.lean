import Tagwise.Indexer.ApplyChange

namespace Tagwise.Indexer
open Js Services

structure BackfillResult where
  checked : Nat
  blocked : Nat
  deriving DecidableEq

/-- The loop over the rows read. One that is no longer active is left to whoever
wrote it. -/
def backfillRows (dep : Deployment) (blocked : Nat) : List JsString → Async Nat
  | [] => return blocked
  | tag :: rest =>
    if !shouldBlockTag dep.engine tag then backfillRows dep blocked rest
    else do
      let count ← updateMany { tag, status := some .active } { status := some .blocked }
      if count = 0 then backfillRows dep blocked rest
      else
        invalidate dep tag
        backfillRows dep (blocked + 1) rest

def backfillModerationGate (dep : Deployment) : Async BackfillResult := do
  let activeRows ← findManyActiveTags
  let blocked ← backfillRows dep 0 activeRows
  return { checked := activeRows.length, blocked }

end Tagwise.Indexer
