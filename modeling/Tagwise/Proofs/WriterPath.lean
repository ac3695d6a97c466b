import Tagwise.Proofs.LookupPath

/-! What the calls that write the mirror send, and that each row written has its key
deleted next. -/

namespace Tagwise.Proofs.WriterPath
open Js Tagwise.Core Services Api Lib
open MirrorRecord (writes leads isLeave unblocks Reading)
open LookupPath (resolveKey uncached_looking)

/-- Nothing cached, no lookup opened or left. -/
def Plain (c : Command) : Prop :=
  (∀ key v ttl, c ≠ .redisSet key v ttl) ∧ (∀ server key, c ≠ .enterFlight server key) ∧
    isLeave c = false

abbrev Deletes (dep : Deployment) (tag : JsString) (c : Command) : Prop :=
  c = .redisDel (resolveKey dep tag)

abbrev Invalidating (dep : Deployment) (owed : Option JsString) (p : Async α) : Prop :=
  p.Pays writes (Deletes dep) owed

theorem deletes_apart (dep : Deployment) : ∀ (tag : JsString) (c : Command) (r : Reply c),
    Deletes dep tag c → writes c r = none := by
  rintro tag c r rfl
  rfl

section Paying
variable {dep : Deployment}

theorem updateMany_pays (cond : IdentityWhere) (data : IdentityData) {f : Nat → Async α}
    (hf : ∀ count, Invalidating dep (if 0 < count then some cond.tag else none) (f count)) :
    Invalidating dep none (updateMany cond data >>= f) := by
  intro r
  cases r with
  | error e => rfl
  | ok count => exact hf count

theorem update_pays (tag : JsString) (data : IdentityData) {f : Identity → Async α}
    (hf : ∀ row, Invalidating dep (some tag) (f row)) :
    Invalidating dep none (update tag data >>= f) := by
  intro r
  cases r with
  | error e => rfl
  | ok row => exact hf row

theorem create_pays (data : IdentityCreate) {f : Unit → Async α}
    (hf : Invalidating dep (some data.tag) (f ())) :
    Invalidating dep none (create data >>= f) := by
  intro r
  cases r with
  | error e => rfl
  | ok u => exact hf

theorem invalidate_pays (tag : JsString) {f : Unit → Async α} (hf : Invalidating dep none (f ())) :
    Invalidating dep (some tag) (Indexer.invalidate dep tag >>= f) :=
  ⟨rfl,fun _ => hf⟩

theorem delete_pays (tag : JsString) {f : Unit → Async α} (hf : Invalidating dep none (f ())) :
    Invalidating dep (some tag)
      (RedisCacheReader.delete dep (buildResolveCacheKey dep.redisKeyPrefix tag) >>= f) := by
  rw [RedisCacheReader.delete, RedisCacheReader.isResolveKey_built]
  exact ⟨rfl,fun _ => hf⟩

theorem applyChange_pays (change : Indexer.VerifiedTagChange) :
    Invalidating dep none (Indexer.applyChange dep change) := by
  refine updateMany_pays _ _ (fun count => ?_)
  by_cases hc : 0 < count
  · rw [if_pos hc]
    simp only [gt_iff_lt, hc, ↓reduceIte]
    exact invalidate_pays _ rfl
  · rw [if_neg hc]
    simp only [gt_iff_lt, hc, ↓reduceIte]
    refine Prog.pays_bind (Prog.pays_of_always (always_awaitDb ⟨fun _ => rfl,fun _ => trivial⟩))
      (fun existing => ?_)
    cases existing with
    | some row => rfl
    | none => exact create_pays _ (invalidate_pays _ rfl)

theorem checkFreeText_pays (field : JsString) (text : Option JsString) :
    Invalidating dep none (checkFreeText dep field text) := by
  rcases checkFreeText_cases dep field text with h | ⟨e,h⟩
  · rw [h]
    rfl
  · rw [h]
    rfl

theorem updateIdentity_pays (params : UpdateIdentityParams) :
    Invalidating dep none (Api.updateIdentity dep params) := by
  have hfind : Invalidating dep none (findActiveIdentity params.tag) :=
    Prog.pays_bind (Prog.pays_of_always (always_awaitDb ⟨fun _ => rfl,fun _ => trivial⟩))
      (fun row => rfl)
  refine Prog.pays_bind hfind (fun row => ?_)
  cases row with
  | none => rfl
  | some row =>
    by_cases ho : row.owner ≠ params.ownerPubkey
    · simp only [ho, ne_eq, not_false_eq_true, ↓reduceIte]
      rfl
    · simp only [ho, ↓reduceIte]
      exact Prog.pays_bind (checkFreeText_pays _ _) (fun _ =>
        Prog.pays_bind (checkFreeText_pays _ _) (fun _ =>
          update_pays _ _ (fun _ => delete_pays _ rfl)))

theorem backfillRows_pays (blocked : Nat) (tags : List JsString) :
    Invalidating dep none (Indexer.backfillRows dep blocked tags) := by
  induction tags generalizing blocked with
  | nil => rfl
  | cons tag tags ih =>
    rw [Indexer.backfillRows]
    split
    · exact ih blocked
    · refine updateMany_pays _ _ (fun count => ?_)
      by_cases hc : 0 < count
      · rw [if_pos hc, if_neg (Nat.pos_iff_ne_zero.mp hc)]
        exact invalidate_pays _ (ih _)
      · rw [if_neg hc, if_pos (Nat.eq_zero_of_not_pos hc)]
        exact ih blocked

theorem backfill_pays : Invalidating dep none (Indexer.backfillModerationGate dep) :=
  Prog.pays_bind (Prog.pays_of_always (always_awaitDb ⟨fun _ => rfl,fun _ => trivial⟩))
    (fun tags => Prog.pays_bind (backfillRows_pays 0 tags) (fun _ => rfl))

end Paying

section Sending
variable (dep : Deployment) {P : Command → Prop}

theorem invalidate_always {tag : JsString} (hd : P (.redisDel (resolveKey dep tag))) :
    (Indexer.invalidate dep tag).Always P := ⟨hd,fun _ => trivial⟩

theorem delete_always {key : JsString} (hd : P (.redisDel key)) :
    (RedisCacheReader.delete dep key).Always P := Prog.always_ite trivial ⟨hd,fun _ => trivial⟩

/-- The four statements of `applyChange`. -/
theorem applyChange_always {change : Indexer.VerifiedTagChange}
    (hu : P (.updateManyIdentity (Indexer.notNewer change)
      (Indexer.updateData change (Indexer.shouldBlockTag dep.engine change.tag))))
    (hf : P (.findUniqueIdentity change.tag))
    (hc : P (.createIdentity
      (Indexer.createData change (Indexer.shouldBlockTag dep.engine change.tag))))
    (hd : P (.redisDel (resolveKey dep change.tag))) :
    (Indexer.applyChange dep change).Always P := by
  refine Prog.always_bind (always_awaitDb ⟨hu,fun _ => trivial⟩) (fun count =>
    Prog.always_ite (Prog.always_bind (invalidate_always dep hd) (fun _ => trivial))
      (Prog.always_bind (always_awaitDb ⟨hf,fun _ => trivial⟩) (fun existing => ?_)))
  cases existing with
  | some row => exact trivial
  | none =>
    exact Prog.always_bind (always_awaitDb ⟨hc,fun _ => trivial⟩)
      (fun _ => Prog.always_bind (invalidate_always dep hd) (fun _ => trivial))

theorem checkFreeText_always (field : JsString) (text : Option JsString) :
    (checkFreeText dep field text).Always P := by
  rcases checkFreeText_cases dep field text with h | ⟨e,h⟩
  · rw [h]
    exact trivial
  · rw [h]
    exact trivial

theorem updateIdentity_always {params : UpdateIdentityParams}
    (hf : P (.findUniqueIdentity params.tag))
    (hu : P (.updateIdentity params.tag (profileData params.dto params.provided)))
    (hd : P (.redisDel (resolveKey dep params.tag))) :
    (Api.updateIdentity dep params).Always P := by
  refine Prog.always_bind (Prog.always_bind (always_awaitDb ⟨hf,fun _ => trivial⟩)
    (fun _ => trivial)) (fun row => ?_)
  cases row with
  | none => exact trivial
  | some row =>
    exact Prog.always_ite trivial (Prog.always_bind (checkFreeText_always dep _ _) (fun _ =>
      Prog.always_bind (checkFreeText_always dep _ _) (fun _ =>
        Prog.always_bind (always_awaitDb ⟨hu,fun _ => trivial⟩) (fun _ =>
          Prog.always_bind (delete_always dep hd) (fun _ => trivial)))))

theorem backfillRows_always
    (hu : ∀ tag, P (.updateManyIdentity { tag, status := some .active } { status := some .blocked }))
    (hd : ∀ tag, P (.redisDel (resolveKey dep tag))) (blocked : Nat) (tags : List JsString) :
    (Indexer.backfillRows dep blocked tags).Always P := by
  induction tags generalizing blocked with
  | nil => exact trivial
  | cons tag tags ih =>
    exact Prog.always_ite (ih blocked) (Prog.always_bind
      (always_awaitDb ⟨hu tag,fun _ => trivial⟩) (fun count => Prog.always_ite (ih blocked)
        (Prog.always_bind (invalidate_always dep (hd tag)) (fun _ => ih (blocked + 1)))))

theorem backfill_always (hm : P .findManyActiveTags)
    (hu : ∀ tag, P (.updateManyIdentity { tag, status := some .active } { status := some .blocked }))
    (hd : ∀ tag, P (.redisDel (resolveKey dep tag))) :
    (Indexer.backfillModerationGate dep).Always P :=
  Prog.always_bind (always_awaitDb ⟨hm,fun _ => trivial⟩) (fun tags =>
    Prog.always_bind (backfillRows_always dep hu hd 0 tags) (fun _ => trivial))

/-- A command of a call that writes the mirror. -/
def Writing (c : Command) : Prop := Plain c ∧ unblocks c = false

/-- A command of a resolve call. -/
def Resolving (c : Command) : Prop := Reading c ∧ unblocks c = false

theorem plain_of {c : Command} (hs : ∀ key v ttl, c ≠ .redisSet key v ttl := by simp)
    (he : ∀ server key, c ≠ .enterFlight server key := by simp) (hl : isLeave c = false := by rfl)
    (hu : unblocks c = false := by rfl) : Writing c := ⟨⟨hs,he,hl⟩,hu⟩

theorem blockedStatus_ne (blocked : Bool) :
    Indexer.blockedStatus blocked ≠ some .active := by
  cases blocked with
  | true => simp [Indexer.blockedStatus]
  | false => simp [Indexer.blockedStatus]

theorem applyChange_writing (change : Indexer.VerifiedTagChange) :
    (Indexer.applyChange dep change).Always Writing :=
  applyChange_always dep (plain_of (by simp) (by simp) rfl (decide_eq_false (blockedStatus_ne _)))
    plain_of plain_of plain_of

theorem updateIdentity_writing (params : UpdateIdentityParams) :
    (Api.updateIdentity dep params).Always Writing :=
  updateIdentity_always dep plain_of plain_of plain_of

theorem backfill_writing : (Indexer.backfillModerationGate dep).Always Writing :=
  backfill_always dep plain_of (fun _ => plain_of) (fun _ => plain_of)

theorem settle_always {P : Command → Prop} {p : Async α} (h : p.Always P) :
    (settle p).Always P := by
  induction p with
  | done a => exact trivial
  | fail e => exact trivial
  | call c k ih => exact ⟨h.1,fun r => ih r (h.2 r)⟩

theorem resolve_resolving (server : Nat) (tag : NormalizedTag) :
    (Api.resolve dep server tag).Always Resolving := by
  have hlook : ∀ key, (settle (resolveUncached dep tag key)).Always Resolving := fun key =>
    settle_always (Prog.always_mono (fun c h => ⟨h.write,h.unblock⟩) (uncached_looking dep tag key))
  have hget : ∀ key, (RedisCacheReader.get dep key).Always Resolving := by
    intro key
    refine Prog.always_ite trivial ⟨⟨fun _ => rfl,rfl⟩,fun r => ?_⟩
    cases r with
    | ok value => exact trivial
    | error u => exact trivial
  have hsettled : ∀ result, (settled result : Async ResolveResponse).Always Resolving := by
    intro result
    cases result with
    | ok a => exact trivial
    | error e => exact trivial
  refine Prog.always_bind (hget _) (fun cached => ?_)
  match cached with
  | some .negative => exact trivial
  | some (.response response) => exact trivial
  | none =>
    refine ⟨⟨fun _ => rfl,rfl⟩,fun flight => ?_⟩
    cases flight with
    | joins flight => exact ⟨⟨fun _ => rfl,rfl⟩,hsettled⟩
    | leads flight =>
      change Prog.Always Resolving (settle (resolveUncached dep tag _) >>= fun result =>
        leaveFlight server _ flight result >>= fun _ => settled result)
      exact Prog.always_bind (hlook _) (fun result => ⟨⟨fun _ => rfl,rfl⟩,fun _ => hsettled result⟩)

end Sending

end Tagwise.Proofs.WriterPath
