import Tagwise.Api.Mirror
import Tagwise.Lib.Debt

/-! The record of a mirror pool: which entries write a row, read it, cache an answer
or move a lookup, and what the services hold because of them. -/

namespace Tagwise.Proofs.MirrorRecord
open Js Tagwise.Core Services Api Lib

abbrev MirrorEntry := Entry Command Reply World

/-- The tag whose row a command has written. -/
def writes : (c : Command) → Reply c → Option JsString
  | .updateManyIdentity cond _, .ok count => if 0 < count then some cond.tag else none
  | .updateIdentity tag _, .ok _ => some tag
  | .createIdentity data, .ok () => some data.tag
  | _, _ => none

/-- Of the writes, those that block. -/
def blocks : Command → Bool
  | .updateManyIdentity _ data => data.status = some .blocked
  | .createIdentity data => data.status = some .blocked
  | _ => false

/-- No row made active again. -/
def unblocks : Command → Bool
  | .updateManyIdentity _ data => data.status = some .active
  | .updateIdentity _ data => data.status = some .active
  | _ => false

/-- Commands that write no row. -/
def Reading (c : Command) : Prop := ∀ r, writes c r = none

/-- What a read has found under a tag. -/
def finds (tag : JsString) : (c : Command) → Reply c → Option (Option Identity)
  | .findUniqueIdentity t, .ok row => if t = tag then some row else none
  | _, _ => none

/-- The instance, the key and the number of a lookup opened. -/
def leads : (c : Command) → Reply c → Option (Nat × JsString × Nat)
  | .enterFlight server key, .leads flight => some (server, key, flight)
  | _, _ => none

def isLeave : Command → Bool
  | .leaveFlight _ _ _ _ => true
  | _ => false

structure Quiet (c : Command) (r : Reply c) : Prop where
  write : writes c r = none
  lead : leads c r = none
  leave : isLeave c = false
  del : ∀ key, c ≠ .redisDel key

/-- The rows, the keys and the lookups after a command, with Redis up. -/
inductive Does (w : World) : (c : Command) → Reply c → World → Prop
  | nothing {c : Command} {r : Reply c} {w' : World} (quiet : Quiet c r)
      (rows : w'.identities = w.identities) (redis : w'.redis = w.redis)
      (inFlight : w'.inFlight = w.inFlight) (nextFlight : w'.nextFlight = w.nextFlight)
      (settled : w'.settled = w.settled) (up : w'.redisUp = w.redisUp) : Does w c r w'
  | updated (cond : IdentityWhere) (data : IdentityData) :
      Does w (.updateManyIdentity cond data) (.ok (w.identities.count cond.selects))
        (w.updateManyIdentity cond data)
  | updatedOne (tag : JsString) (data : IdentityData) (row : Identity) :
      Does w (.updateIdentity tag data) (.ok row) (w.updateManyIdentity { tag } data)
  | created (data : IdentityCreate) {identities : Identities}
      (fits : w.identities.insert (data.row w.now) = some identities) :
      Does w (.createIdentity data) (.ok ()) { w with identities }
  | set (key : JsString) (value : CacheValue) (ttl : Nat) :
      Does w (.redisSet key value ttl) (.ok ()) (w.putKey key (some value))
  | deleted (key : JsString) : Does w (.redisDel key) (.ok ()) (w.putKey key none)
  | opened (server : Nat) (key : JsString) :
      Does w (.enterFlight server key) (.leads w.nextFlight)
        { w with
          inFlight := Function.update w.inFlight server
            (Function.update (w.inFlight server) key (some w.nextFlight))
          nextFlight := w.nextFlight + 1 }
  | left (server : Nat) (key : JsString) (flight : Nat)
      (result : Except Thrown ResolveResponse) :
      Does w (.leaveFlight server key flight result) ()
        { w with
          inFlight := Function.update w.inFlight server
            (Function.update (w.inFlight server) key none)
          settled := Function.update w.settled flight (some result) }

/-- With Redis down a deletion is the one command that fails of those above. -/
theorem handle_does_or {w w' : World} {c : Command} {r : Reply c}
    (h : w.handle c = some (w', r)) :
    Does w c r w' ∨ w.redisUp ≠ true ∧ w' = w ∧ ∃ key, c = .redisDel key := by
  by_cases hdel : w.redisUp ≠ true ∧ ∃ key, c = .redisDel key
  · obtain ⟨down,key,rfl⟩ := hdel
    cases (if_neg down).symm.trans h
    exact .inr ⟨down,rfl,key,rfl⟩
  left
  have quiet : ∀ c r, writes c r = none → leads c r = none → isLeave c = false →
      (∀ key, c ≠ .redisDel key) → ∀ lastProcessedSlot : Option Nat,
      Does w c r { w with lastProcessedSlot } :=
    fun c r hw hl hv hd _ => .nothing ⟨hw,hl,hv,hd⟩ rfl rfl rfl rfl rfl rfl
  cases c with
  | updateManyIdentity cond data =>
    simp only [World.handle] at h
    split at h
    · cases h
      exact .updated cond data
    · cases h
      exact quiet _ _ rfl rfl rfl (by simp) _
  | findUniqueIdentity | findManyActiveTags | findUniqueState | redisGet
  | getProgramAccounts | getAccountInfo =>
    simp only [World.handle] at h
    split at h
    all_goals
      cases h
      exact quiet _ _ rfl rfl rfl (by simp) _
  | updateIdentity tag data =>
    rcases World.handle_update_cases h with ⟨row,_,rfl,rfl⟩ | ⟨rfl,e,rfl⟩
    · exact .updatedOne tag data _
    · exact quiet _ _ rfl rfl rfl (by simp) _
  | createIdentity data =>
    simp only [World.handle] at h
    split at h
    · split at h
      · rename_i fits
        cases h
        exact .created data fits
      · cases h
        exact quiet _ _ rfl rfl rfl (by simp) _
    · cases h
      exact quiet _ _ rfl rfl rfl (by simp) _
  | updateManyState slot =>
    simp only [World.handle] at h
    split at h
    · split at h
      · split at h
        all_goals
          cases h
          exact quiet _ _ rfl rfl rfl (by simp) _
      · cases h
        exact quiet _ _ rfl rfl rfl (by simp) _
    · cases h
      exact quiet _ _ rfl rfl rfl (by simp) _
  | createState slot =>
    simp only [World.handle] at h
    split at h
    · split at h
      all_goals
        cases h
        exact quiet _ _ rfl rfl rfl (by simp) _
    · cases h
      exact quiet _ _ rfl rfl rfl (by simp) _
  | redisSet key value ttl =>
    simp only [World.handle] at h
    split at h
    · cases h
      exact .set key value ttl
    · cases h
      exact quiet _ _ rfl rfl rfl (by simp) _
  | redisDel key =>
    have up : w.redisUp = true := by
      by_contra down
      exact hdel ⟨down,key,rfl⟩
    cases (if_pos up).symm.trans h
    exact .deleted key
  | enterFlight server key =>
    simp only [World.handle] at h
    split at h
    · cases h
      exact quiet _ _ rfl rfl rfl (by simp) _
    · cases h
      exact .opened server key
  | leaveFlight server key flight result =>
    cases h
    exact .left server key flight result
  | awaitFlight flight =>
    simp only [World.handle] at h
    split at h
    · cases h
      exact quiet _ _ rfl rfl rfl (by simp) _
    · cases h

theorem handle_does {w w' : World} {c : Command} {r : Reply c} (up : w.redisUp = true)
    (h : w.handle c = some (w', r)) : Does w c r w' := by
  rcases handle_does_or h with hd | ⟨down,_⟩
  · exact hd
  · exact absurd up down

theorem find_unselected {ids : Identities} {cond : IdentityWhere} {data : IdentityData}
    {tag : JsString} (h : cond.tag ≠ tag ∨ ids.count cond.selects = 0) :
    (ids.updateMany cond.selects data.apply data.apply_tag).find tag = ids.find tag := by
  rw [Table.find_updateMany]
  cases hf : ids.find tag with
  | none => rfl
  | some row =>
    obtain ⟨hmem,htag⟩ := Table.find_mem hf
    have hnot : cond.selects row = false := by
      cases hs : cond.selects row with
      | false => rfl
      | true =>
        rcases h with h | h
        · exact absurd (((cond.selects_iff row).mp hs).1.symm.trans htag) h
        · rw [Table.count, List.countP_eq_zero] at h
          exact absurd hs (h row hmem)
    simp [hnot]

theorem find_inserted {ids ids' : Identities} {row : Identity} (h : ids.insert row = some ids')
    (tag : JsString) : ids'.find tag = if tag = row.tag then some row else ids.find tag := by
  cases hf : ids.find row.tag with
  | none =>
    obtain ⟨ids'',hi,hfind⟩ := Table.insert_some hf
    cases hi.symm.trans h
    exact hfind tag
  | some row' =>
    cases (Table.insert_taken hf).symm.trans h

section Effects
variable {w w' : World} {c : Command} {r : Reply c} (h : Does w c r w')
include h

/-- A row stands until its tag is written. -/
theorem Does.row_kept {tag : JsString} (hw : writes c r ≠ some tag) :
    w'.identities.find tag = w.identities.find tag := by
  cases h with
  | nothing quiet rows => rw [rows]
  | updated cond data =>
    refine find_unselected ?_
    by_cases hc : cond.tag = tag
    · exact .inr (Nat.eq_zero_of_not_pos fun hpos => hw (by simp [writes, hpos, hc]))
    · exact .inl hc
  | updatedOne t data row => exact find_unselected (.inl fun ht => hw (congrArg some ht))
  | created data fits =>
    rw [find_inserted fits, if_neg]
    rintro rfl
    exact hw rfl
  | set | deleted | opened | left => rfl

/-- A key holds what was set last, until it is deleted. -/
theorem Does.key_kept {key : JsString} {v : CacheValue} (hv : w'.redis key = some v) :
    (∃ ttl, c = .redisSet key v ttl) ∨ w.redis key = some v ∧ c ≠ .redisDel key := by
  cases h with
  | nothing quiet rows redis =>
    rw [redis] at hv
    exact .inr ⟨hv,quiet.del key⟩
  | updated | updatedOne | created | opened | left => exact .inr ⟨hv,by simp⟩
  | set k value ttl =>
    by_cases hk : key = k
    · subst hk
      simp only [World.putKey, Function.update_self] at hv
      cases hv
      exact .inl ⟨ttl,rfl⟩
    · simp only [World.putKey, Function.update_of_ne hk] at hv
      exact .inr ⟨hv,by simp⟩
  | deleted k =>
    by_cases hk : key = k
    · subst hk
      simp only [World.putKey, Function.update_self] at hv
      cases hv
    · simp only [World.putKey, Function.update_of_ne hk] at hv
      exact .inr ⟨hv,by simpa using fun he => hk he.symm⟩

/-- A lookup is in flight from its opening until it leaves. -/
theorem Does.flight_kept {server : Nat} {key : JsString} {flight : Nat}
    (hv : w'.inFlight server key = some flight) : leads c r = some (server, key, flight) ∨
    w.inFlight server key = some flight ∧ ∀ f result, c ≠ .leaveFlight server key f result := by
  cases h with
  | nothing quiet rows redis inFlight =>
    rw [inFlight] at hv
    refine .inr ⟨hv,?_⟩
    rintro f result rfl
    cases quiet.leave
  | updated | updatedOne | created | set | deleted => exact .inr ⟨hv,by simp⟩
  | opened s k =>
    by_cases hs : server = s
    · subst hs
      by_cases hk : key = k
      · subst hk
        simp only [Function.update_self] at hv
        cases hv
        exact .inl rfl
      · simp only [Function.update_self, Function.update_of_ne hk] at hv
        exact .inr ⟨hv,by simp⟩
    · simp only [Function.update_of_ne hs] at hv
      exact .inr ⟨hv,by simp⟩
  | left s k f result =>
    by_cases hs : server = s
    · subst hs
      by_cases hk : key = k
      · subst hk
        simp only [Function.update_self] at hv
        cases hv
      · simp only [Function.update_self, Function.update_of_ne hk] at hv
        refine .inr ⟨hv,fun f' result' he => ?_⟩
        cases he
        exact hk rfl
    · simp only [Function.update_of_ne hs] at hv
      refine .inr ⟨hv,fun f' result' he => ?_⟩
      cases he
      exact hs rfl

theorem Does.settled_kept {flight : Nat} {result : Except Thrown ResolveResponse}
    (hv : w'.settled flight = some result) :
    (∃ server key, c = .leaveFlight server key flight result) ∨ w.settled flight = some result := by
  cases h with
  | nothing quiet rows redis inFlight nextFlight settled =>
    rw [settled] at hv
    exact .inr hv
  | updated | updatedOne | created | set | deleted | opened => exact .inr hv
  | left s k f result' =>
    by_cases hf : flight = f
    · subst hf
      simp only [Function.update_self] at hv
      cases hv
      exact .inl ⟨s,k,rfl⟩
    · simp only [Function.update_of_ne hf] at hv
      exact .inr hv

theorem Does.counted : w'.nextFlight = w.nextFlight + 1 ∧
      (∃ server key, leads c r = some (server, key, w.nextFlight)) ∨
    w'.nextFlight = w.nextFlight ∧ leads c r = none := by
  cases h with
  | nothing quiet rows redis inFlight nextFlight => exact .inr ⟨nextFlight,quiet.lead⟩
  | opened server key => exact .inl ⟨rfl,server,key,rfl⟩
  | updated | updatedOne | created | set | deleted | left => exact .inr ⟨rfl,rfl⟩

/-- A row blocked stays so, unless someone makes it active. -/
theorem Does.blocked_kept (hc : unblocks c = false) {tag : JsString} {row : Identity}
    (hf : w.identities.find tag = some row) (hb : row.status = .blocked) :
    ∃ row', w'.identities.find tag = some row' ∧ row'.status = .blocked := by
  have hdata : ∀ data : IdentityData, data.status ≠ some .active →
      (data.apply row).status = .blocked := by
    intro data hne
    cases hs : data.status with
    | none => simp [IdentityData.apply, hs, hb]
    | some status =>
      cases status with
      | active => exact absurd hs hne
      | blocked => simp [IdentityData.apply, hs]
  have hmany : ∀ (cond : IdentityWhere) (data : IdentityData), data.status ≠ some .active →
      ∃ row', (w.updateManyIdentity cond data).identities.find tag = some row' ∧
        row'.status = .blocked := by
    intro cond data hne
    simp only [World.updateManyIdentity, Table.find_updateMany, hf, Option.map_some]
    refine ⟨_,rfl,?_⟩
    split
    · exact hdata data hne
    · exact hb
  cases h with
  | nothing quiet rows => exact ⟨row,by rw [rows]; exact hf,hb⟩
  | updated cond data => exact hmany cond data (of_decide_eq_false hc)
  | updatedOne t data row' => exact hmany { tag := t } data (of_decide_eq_false hc)
  | created data fits =>
    refine ⟨row,?_,hb⟩
    rw [find_inserted fits, if_neg]
    · exact hf
    · rintro rfl
      cases (Table.insert_taken hf).symm.trans fits
  | set | deleted | opened | left => exact ⟨row,hf,hb⟩

theorem Does.blocked_set {tag : JsString} (hw : writes c r = some tag) (hb : blocks c = true) :
    ∃ row, w'.identities.find tag = some row ∧ row.status = .blocked := by
  cases h with
  | nothing quiet => cases quiet.write.symm.trans hw
  | updated cond data =>
    have hstatus : data.status = some .blocked := of_decide_eq_true hb
    simp only [writes, Option.ite_none_right_eq_some, Option.some.injEq] at hw
    obtain ⟨hpos,rfl⟩ := hw
    rw [Table.count_key w.identities (p := cond.selects) (k := cond.tag)
      (fun row hs => ((cond.selects_iff row).mp hs).1)] at hpos
    cases hf : w.identities.find cond.tag with
    | none => simp [hf] at hpos
    | some row =>
      have hs : cond.selects row = true := by
        by_contra hn
        simp [hf, hn] at hpos
      simp only [World.updateManyIdentity, Table.find_updateMany, hf, Option.map_some, hs,
        ↓reduceIte]
      exact ⟨_,rfl,by simp [IdentityData.apply, hstatus]⟩
  | updatedOne t data row => cases hb
  | created data fits =>
    have hstatus : data.status = some .blocked := of_decide_eq_true hb
    cases hw
    exact ⟨_,by rw [find_inserted fits]; exact if_pos rfl,by simp [IdentityCreate.row, hstatus]⟩
  | set | deleted | opened | left => cases hw

theorem Does.up : w'.redisUp = w.redisUp := by
  cases h with
  | nothing quiet rows redis inFlight nextFlight settled up => exact up
  | updated | updatedOne | created | set | deleted | opened | left => rfl

end Effects

section Flights
variable {w w' : World} {c : Command} {r : Reply c} (h : w.handle c = some (w', r))
include h

theorem handle_flight_kept {server : Nat} {key : JsString} {flight : Nat}
    (hv : w'.inFlight server key = some flight) : leads c r = some (server, key, flight) ∨
    w.inFlight server key = some flight ∧ ∀ f result, c ≠ .leaveFlight server key f result := by
  rcases handle_does_or h with hd | ⟨_,rfl,key',rfl⟩
  · exact hd.flight_kept hv
  · exact .inr ⟨hv,by simp⟩

theorem handle_settled_kept {flight : Nat} {result : Except Thrown ResolveResponse}
    (hv : w'.settled flight = some result) :
    (∃ server key, c = .leaveFlight server key flight result) ∨ w.settled flight = some result := by
  rcases handle_does_or h with hd | ⟨_,rfl,_⟩
  · exact hd.settled_kept hv
  · exact .inr hv

theorem handle_counted : w'.nextFlight = w.nextFlight + 1 ∧
      (∃ server key, leads c r = some (server, key, w.nextFlight)) ∨
    w'.nextFlight = w.nextFlight ∧ leads c r = none := by
  rcases handle_does_or h with hd | ⟨_,rfl,key,rfl⟩
  · exact hd.counted
  · exact .inr ⟨rfl,rfl⟩

end Flights

end Tagwise.Proofs.MirrorRecord
