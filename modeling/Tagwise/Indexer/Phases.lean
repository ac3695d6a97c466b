import Tagwise.Indexer.Spec
import Tagwise.Lib.Pool

namespace Tagwise.Indexer
open Js Tagwise.Core Services Lib

/-! An `applyChange` call between its statements, the database reachable. -/

inductive Phase
  | start
  /-- The guarded update found no row to write. -/
  | missed
  /-- The lookup found no row either. -/
  | absent
  | updating
  | creating
  | finished (outcome : ApplyOutcome)
  | failed
  deriving DecidableEq

/-- What is left of the call. -/
def resume (dep : Deployment) (change : VerifiedTagChange) : Phase → Async ApplyOutcome
  | .start => applyChange dep change
  | .missed => do
    let existing ← findUnique change.tag.text
    match existing with
    | some _ => return .skippedStale
    | none =>
      create (createData change (shouldBlockTag dep.engine change.tag))
      invalidate dep change.tag
      return .created
  | .absent => do
    create (createData change (shouldBlockTag dep.engine change.tag))
    invalidate dep change.tag
    return .created
  | .updating => do
    invalidate dep change.tag
    return .updated
  | .creating => do
    invalidate dep change.tag
    return .created
  | .finished outcome => .done outcome
  | .failed => .fail (.database .uniqueViolation)

/-- The rows one statement leaves. -/
def written (dep : Deployment) (change : VerifiedTagChange) (ids : Identities) (now : Nat) :
    Phase → Identities
  | .start => ids.updateMany (notNewer change).selects
      (updateData change (shouldBlockTag dep.engine change.tag)).apply (IdentityData.apply_tag _)
  | .absent =>
    (ids.insert ((createData change (shouldBlockTag dep.engine change.tag)).row now)).getD ids
  | _ => ids

def advance (change : VerifiedTagChange) (row : Option Identity) : Phase → Phase
  | .start => if row.any (·.lastAppliedSlot ≤ change.slot) then .updating else .missed
  | .missed => match row with
    | some _ => .finished .skippedStale
    | none => .absent
  | .absent => match row with
    | some _ => .failed
    | none => .creating
  | .updating => .finished .updated
  | .creating => .finished .created
  | .finished outcome => .finished outcome
  | .failed => .failed

/-- The stored slot that the statement, when it is the lookup, hears of. -/
def heard (row : Option Identity) : Phase → List Nat
  | .missed => (row.map Identity.lastAppliedSlot).toList
  | _ => []

abbrev ApplyPool := Pool Command Reply Thrown ApplyOutcome World VerifiedTagChange

def storedSlot : Entry Command Reply World → Option Nat
  | ⟨_, _, .findUniqueIdentity _, .ok (some row)⟩ => some row.lastAppliedSlot
  | _ => none

/-- The slots a thread has read off stored rows, oldest first. -/
def slotsHeard (trace : List (Entry Command Reply World)) (who : Nat) : List Nat :=
  (trace.filter (fun e => e.who = who)).filterMap storedSlot

theorem slotsHeard_append (trace tail : List (Entry Command Reply World)) (who : Nat) :
    slotsHeard (trace ++ tail) who = slotsHeard trace who ++ slotsHeard tail who := by
  rw [slotsHeard, List.filter_append, List.filterMap_append]
  rfl

theorem slotsHeard_one (e : Entry Command Reply World) (i : Nat) :
    slotsHeard [e] i = if i = e.who then (storedSlot e).toList else [] := by
  by_cases h : e.who = i
  · subst h
    simp only [slotsHeard, List.filter_cons, decide_true, ↓reduceIte, List.filter_nil,
      List.filterMap_cons, List.filterMap_nil]
    cases storedSlot e <;> rfl
  · have hne : i ≠ e.who := fun he => h he.symm
    simp [slotsHeard, h, hne]

theorem set_same {l : List α} {i : Nat} {a : α} (h : l[i]? = some a) : l.set i a = l := by
  apply List.ext_getElem?
  intro j
  rw [List.getElem?_set]
  split
  · rename_i he
    subst he
    obtain ⟨hlt,he⟩ := List.getElem?_eq_some_iff.mp h
    simp [hlt, he]
  · rfl

theorem resume_updated {dep : Deployment} {change : VerifiedTagChange} {ids : Identities} :
    (if ids.count (notNewer change).selects > 0 then do
      invalidate dep change.tag
      return ApplyOutcome.updated
    else resume dep change .missed) =
    resume dep change (advance change (ids.find change.tag.text) .start) := by
  rw [count_notNewer, advance]
  split
  · rfl
  · rfl

/-- The row under the change's tag after a statement, from the row before it. -/
def rowAfter (dep : Deployment) (change : VerifiedTagChange) (now : Nat) (row : Option Identity) :
    Phase → Option Identity
  | .start => row.map (fun r => if r.lastAppliedSlot ≤ change.slot then
      (updateData change (shouldBlockTag dep.engine change.tag)).apply r else r)
  | .absent =>
    some (row.getD ((createData change (shouldBlockTag dep.engine change.tag)).row now))
  | _ => row

theorem written_find (dep : Deployment) (change : VerifiedTagChange) (ids : Identities) (now : Nat)
    (p : Phase) : (written dep change ids now p).find change.tag.text =
      rowAfter dep change now (ids.find change.tag.text) p := by
  cases p with
  | start => rw [written, find_written, if_pos rfl, rowAfter]
  | absent =>
    cases hf : ids.find change.tag.text with
    | none =>
      obtain ⟨ids',hi,hfind⟩ := Table.insert_some
        (r := (createData change (shouldBlockTag dep.engine change.tag)).row now) hf
      rw [written, hi, Option.getD_some, hfind]
      exact if_pos rfl
    | some row =>
      have hi := Table.insert_taken
        (r := (createData change (shouldBlockTag dep.engine change.tag)).row now) hf
      rw [written, hi, Option.getD_none, hf]
      rfl
  | missed | updating | creating | finished | failed => rfl

/-- One turn of a call is one statement; nothing else of the world moves but Redis. -/
theorem turn_resume (dep : Deployment) {pool : ApplyPool} {who : Nat} {change : VerifiedTagChange}
    {p : Phase} (up : pool.shared.dbUp = true)
    (ht : pool.threads[who]? = some ⟨change, resume dep change p⟩) :
    ∃ redis tail, pool.turn World.handle who =
      ⟨{ pool.shared with
          identities := written dep change pool.shared.identities pool.shared.now p
          redis := redis },
        pool.threads.set who ⟨change, resume dep change
          (advance change (pool.shared.identities.find change.tag.text) p)⟩,
        pool.trace ++ tail⟩ ∧
      ∀ i, slotsHeard tail i =
        if i = who then heard (pool.shared.identities.find change.tag.text) p else [] := by
  cases p with
  | start =>
    have h := Pool.turn_call ht (World.handle_updateMany up (notNewer change)
      (updateData change (shouldBlockTag dep.engine change.tag)))
    rw [h, ← resume_updated]
    exact ⟨pool.shared.redis,_,rfl,slotsHeard_one _⟩
  | missed =>
    have h := Pool.turn_call ht (World.handle_findUnique up change.tag.text)
    rw [h]
    cases pool.shared.identities.find change.tag.text with
    | none =>
      exact ⟨pool.shared.redis,_,rfl,slotsHeard_one _⟩
    | some row =>
      exact ⟨pool.shared.redis,_,rfl,slotsHeard_one _⟩
  | absent =>
    cases hf : pool.shared.identities.find change.tag.text with
    | none =>
      obtain ⟨ids,hi,_⟩ := Table.insert_some
        (r := (createData change (shouldBlockTag dep.engine change.tag)).row pool.shared.now) hf
      rw [Pool.turn_call ht (World.handle_create up hi), written, hi]
      exact ⟨pool.shared.redis,_,rfl,slotsHeard_one _⟩
    | some row =>
      have hi := Table.insert_taken
        (r := (createData change (shouldBlockTag dep.engine change.tag)).row pool.shared.now) hf
      rw [Pool.turn_call ht (World.handle_create_taken up hi), written, hi]
      exact ⟨pool.shared.redis,_,rfl,slotsHeard_one _⟩
  | updating =>
    obtain ⟨redis,r,hr⟩ := pool.shared.handle_redisDel
      (buildResolveCacheKey dep.redisKeyPrefix change.tag)
    exact ⟨redis,_,Pool.turn_call ht hr,slotsHeard_one _⟩
  | creating =>
    obtain ⟨redis,r,hr⟩ := pool.shared.handle_redisDel
      (buildResolveCacheKey dep.redisKeyPrefix change.tag)
    exact ⟨redis,_,Pool.turn_call ht hr,slotsHeard_one _⟩
  | finished outcome =>
    refine ⟨pool.shared.redis,[],?_,?_⟩
    · rw [Pool.turn_done ht, List.append_nil, advance, set_same ht]
      rfl
    · intro i
      simp [slotsHeard, heard]
  | failed =>
    refine ⟨pool.shared.redis,[],?_,?_⟩
    · rw [Pool.turn_fail ht, List.append_nil, advance, set_same ht]
      rfl
    · intro i
      simp [slotsHeard, heard]

end Tagwise.Indexer
