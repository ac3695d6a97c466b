import Tagwise.Proofs.ColumnOwnership
import Tagwise.Proofs.Freshness
import Tagwise.Services.Stamps

namespace Tagwise.Proofs.Backfill
open Js Lib Tagwise.Core Services Api Indexer
open LookupPath (resolveKey)
open MirrorRecord (MirrorEntry)

/-- An active row whose tag fails the gate. -/
def failing (dep : Deployment) (row : Identity) : Bool :=
  row.status = .active && shouldBlockTag dep.engine row.tag

def blockedRow (row : Identity) : Identity := { row with status := .blocked }

theorem blockedRow_tag (row : Identity) : (blockedRow row).tag = row.tag := rfl

/-- Every row whose tag fails the gate is blocked. -/
def Gated (dep : Deployment) (identities : Identities) : Prop :=
  ∀ row ∈ identities.rows, shouldBlockTag dep.engine row.tag = true → row.status = .blocked

/-- What a run leaves beside the services: the stamps of the rows, and the keys deleted. -/
structure Notes where
  updatedAt : JsString → Nat
  deleted : List JsString

def deletedKey : Command → List JsString
  | .redisDel key => [key]
  | _ => []

def Notes.take (w : World) (c : Command) (r : Reply c) (notes : Notes) : Notes where
  updatedAt := stamp w c r notes.updatedAt
  deleted := notes.deleted ++ deletedKey c

abbrev handle : World × Notes → (c : Command) → Option ((World × Notes) × Reply c) :=
  Prog.alongside World.handle Notes.take

/-- The rows that a pass over these tags blocks. -/
def hit (dep : Deployment) (tags : List JsString) (row : Identity) : Bool :=
  tags.contains row.tag && failing dep row

/-- The tags of a list whose rows are failing. -/
def failingTags (dep : Deployment) (identities : Identities) (tags : List JsString) :
    List JsString :=
  tags.filter (fun tag => (identities.find tag).any (failing dep))

/-- The keys of Redis after a deletion of each of these, which do nothing while it is down. -/
def deleting (up : Bool) (keys : List JsString) (redis : JsString → Option CacheValue) :
    JsString → Option CacheValue :=
  fun key => if up && keys.contains key then none else redis key

theorem deleting_append (up : Bool) (keys keys' : List JsString)
    (redis : JsString → Option CacheValue) :
    deleting up keys' (deleting up keys redis) = deleting up (keys ++ keys') redis := by
  funext key
  by_cases hu : up = true
  · by_cases hk : key ∈ keys <;> by_cases hk' : key ∈ keys' <;> simp [deleting, hu, hk, hk']
  · simp [deleting, hu]

theorem deleting_nil (up : Bool) (redis : JsString → Option CacheValue) :
    deleting up [] redis = redis := by
  funext key
  simp [deleting]

def stamping (now : Nat) (tags : List JsString) (updatedAt : JsString → Nat) : JsString → Nat :=
  fun tag => if tags.contains tag then now else updatedAt tag

theorem stamping_append (now : Nat) (tags tags' : List JsString) (updatedAt : JsString → Nat) :
    stamping now tags' (stamping now tags updatedAt) = stamping now (tags ++ tags') updatedAt := by
  funext tag
  by_cases ht : tag ∈ tags <;> by_cases ht' : tag ∈ tags' <;> simp [stamping, ht, ht']

theorem stamping_nil (now : Nat) (updatedAt : JsString → Nat) :
    stamping now [] updatedAt = updatedAt := by
  funext tag
  simp [stamping]

def swept (dep : Deployment) (tags : List JsString) (w : World) : World :=
  { w with
    identities := w.identities.updateMany (hit dep tags) blockedRow blockedRow_tag
    redis := deleting w.redisUp ((failingTags dep w.identities tags).map (resolveKey dep)) w.redis }

def sweptNotes (dep : Deployment) (tags : List JsString) (w : World) (notes : Notes) : Notes where
  updatedAt := stamping w.now (failingTags dep w.identities tags) notes.updatedAt
  deleted := notes.deleted ++ (failingTags dep w.identities tags).map (resolveKey dep)

section Loop
variable {dep : Deployment} {w : World} {tag : JsString} {tags : List JsString}

variable (tag tags) in
theorem hit_cons (row : Identity) :
    hit dep (tag :: tags) row = (hit dep [tag] row || hit dep tags row) := by
  simp [hit, Bool.and_or_distrib_right]

theorem hit_blocked (row : Identity) : hit dep tags (blockedRow row) = false := by
  simp [hit, failing, blockedRow]

theorem find_swept (ht : tag ∉ tags) :
    (swept dep tags w).identities.find tag = w.identities.find tag := by
  rw [swept, Table.find_updateMany]
  cases hf : w.identities.find tag with
  | none => rfl
  | some row =>
    have hrow := (Table.find_mem hf).2
    simp [hit, hrow, ht]

variable (dep tag tags) in
theorem failingTags_cons (identities : Identities) :
    failingTags dep identities (tag :: tags) =
      failingTags dep identities [tag] ++ failingTags dep identities tags := by
  simp only [failingTags]
  rw [← List.filter_append]
  rfl

variable (dep w) in
/-- Later passes see the rows of other tags as they were. -/
theorem failingTags_swept (ht : tag ∉ tags) :
    failingTags dep (swept dep [tag] w).identities tags = failingTags dep w.identities tags := by
  apply List.filter_congr
  intro t hm
  have hne : t ∉ [tag] := by
    rw [List.mem_singleton]
    rintro rfl
    exact ht hm
  rw [find_swept hne]

theorem swept_cons (ht : tag ∉ tags) :
    swept dep tags (swept dep [tag] w) = swept dep (tag :: tags) w := by
  have hids : (swept dep tags (swept dep [tag] w)).identities =
      (swept dep (tag :: tags) w).identities := by
    apply Table.updateMany_updateMany w.identities blockedRow_tag
    intro row _
    rw [hit_cons tag tags row]
    by_cases h : hit dep [tag] row = true
    · rw [if_pos h, hit_blocked, h]
      rfl
    · rw [if_neg h, Bool.eq_false_iff.mpr h]
      rfl
  have hredis : (swept dep tags (swept dep [tag] w)).redis = (swept dep (tag :: tags) w).redis := by
    have hf := failingTags_swept dep w ht
    have happ := deleting_append w.redisUp
      ((failingTags dep w.identities [tag]).map (resolveKey dep))
      ((failingTags dep w.identities tags).map (resolveKey dep)) w.redis
    rw [← List.map_append, ← failingTags_cons dep tag tags, ← hf] at happ
    exact happ
  have hrest : ∀ w' : World, w' = { w with identities := w'.identities, redis := w'.redis } →
      w'.identities = (swept dep (tag :: tags) w).identities →
      w'.redis = (swept dep (tag :: tags) w).redis → w' = swept dep (tag :: tags) w := by
    intro w' he hi hr
    rw [he, hi, hr]
    rfl
  exact hrest _ rfl hids hredis

theorem sweptNotes_cons (ht : tag ∉ tags) (notes : Notes) :
    sweptNotes dep tags (swept dep [tag] w) (sweptNotes dep [tag] w notes) =
      sweptNotes dep (tag :: tags) w notes := by
  have hf := failingTags_swept dep w ht
  have hnow : (swept dep [tag] w).now = w.now := rfl
  simp only [sweptNotes, hf, hnow, stamping_append, List.append_assoc]
  rw [failingTags_cons dep tag tags, List.map_append]

theorem failingTags_none (h : ∀ row, w.identities.find tag = some row → failing dep row = false) :
    failingTags dep w.identities [tag] = [] := by
  rw [failingTags, List.filter_singleton]
  cases hf : w.identities.find tag with
  | none => rfl
  | some row => rw [Option.any_some, h row hf]; rfl

theorem swept_none (h : ∀ row, w.identities.find tag = some row → failing dep row = false)
    (notes : Notes) :
    swept dep [tag] w = w ∧ sweptNotes dep [tag] w notes = notes := by
  have hids : w.identities.updateMany (hit dep [tag]) blockedRow blockedRow_tag = w.identities := by
    apply Table.updateMany_none
    intro row hrow
    by_cases ht : row.tag = tag
    · have hf := Table.find_of_mem hrow
      rw [ht] at hf
      simp [hit, h row hf]
    · simp [hit, ht]
  constructor
  · rw [swept, hids, failingTags_none h, List.map_nil, deleting_nil]
  · rw [sweptNotes, failingTags_none h, List.map_nil, stamping_nil, List.append_nil]

theorem noted_updateMany (up : w.dbUp = true) (cond : IdentityWhere) (data : IdentityData)
    (f : Nat → Async α) (notes : Notes) :
    (updateMany cond data >>= f).run handle (w, notes) =
      (f (w.identities.count cond.selects)).run handle (w.updateManyIdentity cond data,
        Notes.take w (.updateManyIdentity cond data) (.ok (w.identities.count cond.selects)) notes) :=
  Prog.run_call (Prog.alongside_some (World.handle_updateMany up cond data) notes)

variable (dep w tag) in
theorem noted_invalidate (f : Unit → Async α) (notes : Notes) :
    (invalidate dep tag >>= f).run handle (w, notes) = (f ()).run handle
      ({ w with redis := deleting w.redisUp [resolveKey dep tag] w.redis },
        ⟨notes.updatedAt,notes.deleted ++ [resolveKey dep tag]⟩) := by
  have hdel : ∃ r, w.handle (.redisDel (resolveKey dep tag)) =
      some ({ w with redis := deleting w.redisUp [resolveKey dep tag] w.redis }, r) := by
    by_cases hu : w.redisUp = true
    · have hredis : Function.update w.redis (resolveKey dep tag) none =
          deleting w.redisUp [resolveKey dep tag] w.redis := by
        funext key
        simp [deleting, hu, Function.update_apply]
      rw [← hredis]
      exact ⟨_,if_pos hu⟩
    · have hredis : deleting w.redisUp [resolveKey dep tag] w.redis = w.redis := by
        funext key
        simp [deleting, hu]
      rw [hredis]
      exact ⟨_,if_neg hu⟩
  obtain ⟨r,hdel⟩ := hdel
  exact Prog.run_call (Prog.alongside_some hdel notes)

/-- The statement of the loop. -/
def activeOf (tag : JsString) : IdentityWhere := { tag, status := some .active }

def toBlocked : IdentityData := { status := some .blocked }

/-- It finds no row, or one that is not active. -/
theorem statement_missed (h : ∀ row, w.identities.find tag = some row → row.status ≠ .active)
    (notes : Notes) :
    w.identities.count (activeOf tag).selects = 0 ∧ w.updateManyIdentity (activeOf tag) toBlocked = w ∧
    Notes.take w (.updateManyIdentity (activeOf tag) toBlocked) (.ok 0) notes = notes := by
  have hnone : ∀ row ∈ w.identities.rows, (activeOf tag).selects row = false := by
    intro row hrow
    by_cases ht : row.tag = tag
    · have hf := Table.find_of_mem hrow
      rw [ht] at hf
      simp [activeOf, IdentityWhere.selects, h row hf]
    · simp [activeOf, IdentityWhere.selects, ht]
  refine ⟨?_,?_,?_⟩
  · rw [Table.count, List.countP_eq_zero]
    intro row hrow
    rw [hnone row hrow]
    simp
  · rw [World.updateManyIdentity, Table.updateMany_none _ _ hnone]
  · have hstamp : stamp w (.updateManyIdentity (activeOf tag) toBlocked) (.ok 0) notes.updatedAt =
        notes.updatedAt := by
      funext t
      have hw : written w (.updateManyIdentity (activeOf tag) toBlocked) (.ok 0) t = false := by
        cases hf : w.identities.find t with
        | none => simp [Services.written, hf]
        | some row => simp [Services.written, hf, hnone row (Table.find_mem hf).1]
      simp [stamp, hw]
    rw [Notes.take, hstamp]
    simp [deletedKey]

/-- It finds an active row. -/
theorem statement_hit {row : Identity} (hf : w.identities.find tag = some row)
    (hrow : row.status = .active) (hgate : shouldBlockTag dep.engine tag = true) (notes : Notes) :
    w.identities.count (activeOf tag).selects = 1 ∧
    (w.updateManyIdentity (activeOf tag) toBlocked).identities =
      w.identities.updateMany (hit dep [tag]) blockedRow blockedRow_tag ∧
    Notes.take w (.updateManyIdentity (activeOf tag) toBlocked) (.ok 1) notes =
      ⟨stamping w.now [tag] notes.updatedAt,notes.deleted⟩ := by
  have htag := (Table.find_mem hf).2
  have hselects : ∀ t r, w.identities.find t = some r →
      (activeOf tag).selects r = decide (t = tag) := by
    intro t r hr
    have hrt := (Table.find_mem hr).2
    by_cases ht : t = tag
    · subst ht
      cases hf.symm.trans hr
      simp [activeOf, IdentityWhere.selects, htag, hrow]
    · simp [activeOf, IdentityWhere.selects, hrt, ht]
  refine ⟨?_,?_,?_⟩
  · rw [Table.count_key w.identities (k := tag)
      (fun r hs => ((IdentityWhere.selects_iff _ r).mp hs).1), hf, Option.any_some, hselects tag row hf]
    simp
  · refine Table.updateMany_congr _ toBlocked.apply_tag blockedRow_tag (fun r hr => ?_)
    have hfr := Table.find_of_mem hr
    rw [hselects r.tag r hfr]
    by_cases ht : r.tag = tag
    · rw [ht, hf] at hfr
      cases hfr
      simp [hit, failing, htag, hrow, hgate, toBlocked, IdentityData.apply, blockedRow]
    · simp [hit, ht]
  · have hstamp : stamp w (.updateManyIdentity (activeOf tag) toBlocked) (.ok 1) notes.updatedAt =
        stamping w.now [tag] notes.updatedAt := by
      funext t
      have hw : written w (.updateManyIdentity (activeOf tag) toBlocked) (.ok 1) t =
          decide (t = tag) := by
        cases hft : w.identities.find t with
        | none =>
          have hne : t ≠ tag := by
            intro ht
            cases (ht ▸ hf).symm.trans hft
          simp [Services.written, hft, hne]
        | some r => simp [Services.written, hft, hselects t r hft, toBlocked]
      simp [stamp, hw, stamping]
    rw [Notes.take, hstamp]
    simp [deletedKey]

/-- One pass of the loop. -/
theorem tag_run (up : w.dbUp = true) (blocked : Nat) (notes : Notes) :
    (backfillRows dep blocked (tag :: tags)).run handle (w, notes) =
      (backfillRows dep (blocked + (failingTags dep w.identities [tag]).length) tags).run handle
        (swept dep [tag] w, sweptNotes dep [tag] w notes) := by
  by_cases hgate : shouldBlockTag dep.engine tag = true
  · rw [backfillRows]
    simp only [hgate, Bool.not_true, Bool.false_eq_true, ↓reduceIte]
    have hrun := noted_updateMany up (activeOf tag) toBlocked (fun count =>
      if count = 0 then backfillRows dep blocked tags
      else do
        invalidate dep tag
        backfillRows dep (blocked + 1) tags) notes
    refine hrun.trans ?_
    by_cases hactive : ∃ row, w.identities.find tag = some row ∧ row.status = .active
    · obtain ⟨row,hf,hrow⟩ := hactive
      obtain ⟨hcount,hids,hnotes⟩ := statement_hit hf hrow hgate notes
      have hfailing : failingTags dep w.identities [tag] = [tag] := by
        simp [failingTags, hf, failing, (Table.find_mem hf).2, hrow, hgate]
      have hswept : swept dep [tag] w = { w with
          identities := (w.updateManyIdentity (activeOf tag) toBlocked).identities
          redis := deleting w.redisUp [resolveKey dep tag] w.redis } := by
        rw [swept, hfailing, hids]
        rfl
      rw [hcount, if_neg Nat.one_ne_zero, noted_invalidate, hnotes, hswept, sweptNotes, hfailing]
      rfl
    · have hmiss : ∀ row, w.identities.find tag = some row → row.status ≠ .active :=
        fun row hf hrow => hactive ⟨row,hf,hrow⟩
      have hpass : ∀ row, w.identities.find tag = some row → failing dep row = false := by
        intro row hf
        simp [failing, hmiss row hf]
      obtain ⟨hcount,hkept,hnotes⟩ := statement_missed hmiss notes
      obtain ⟨hw,hn⟩ := swept_none hpass notes
      rw [hcount, hkept, hnotes, hw, hn, failingTags_none hpass, if_pos rfl]
      rfl
  · have hpass : ∀ row, w.identities.find tag = some row → failing dep row = false := by
      intro row hf
      simp [failing, (Table.find_mem hf).2, hgate]
    obtain ⟨hw,hn⟩ := swept_none hpass notes
    rw [hw, hn, failingTags_none hpass, backfillRows]
    simp [hgate]

variable (dep w) in
theorem swept_nil (notes : Notes) : swept dep [] w = w ∧ sweptNotes dep [] w notes = notes := by
  have hids : w.identities.updateMany (hit dep []) blockedRow blockedRow_tag = w.identities :=
    Table.updateMany_none _ _ (fun _ _ => rfl)
  have hnone : failingTags dep w.identities [] = [] := rfl
  constructor
  · rw [swept, hids, hnone, List.map_nil, deleting_nil]
  · rw [sweptNotes, hnone, List.map_nil, stamping_nil, List.append_nil]

theorem rows_run (hdistinct : tags.Nodup) (up : w.dbUp = true) (blocked : Nat) (notes : Notes) :
    (backfillRows dep blocked tags).run handle (w, notes) =
      some ((swept dep tags w, sweptNotes dep tags w notes),
        .ok (blocked + (failingTags dep w.identities tags).length)) := by
  induction tags generalizing w blocked notes with
  | nil =>
    obtain ⟨hw,hn⟩ := swept_nil dep w notes
    rw [hw, hn]
    rfl
  | cons tag tags ih =>
    obtain ⟨hnot,hdistinct⟩ := List.nodup_cons.mp hdistinct
    rw [tag_run up, ih hdistinct (w := swept dep [tag] w) up, swept_cons hnot, sweptNotes_cons hnot,
      failingTags_swept dep w hnot, failingTags_cons dep tag tags, List.length_append, Nat.add_assoc]

end Loop

section Alone
variable (dep : Deployment) (w : World)

def activeTags (identities : Identities) : List JsString :=
  (identities.rows.filter (fun row => row.status = .active)).map Identity.tag

theorem activeTags_nodup (identities : Identities) : (activeTags identities).Nodup :=
  (List.filter_sublist.map Identity.tag).nodup identities.unique

theorem hit_active {identities : Identities} {row : Identity} (hrow : row ∈ identities.rows) :
    hit dep (activeTags identities) row = failing dep row := by
  by_cases ha : row.status = .active
  · have hm : row.tag ∈ activeTags identities :=
      List.mem_map_of_mem (List.mem_filter.mpr ⟨hrow,by simpa using ha⟩)
    simp [hit, hm]
  · simp [hit, failing, ha]

theorem failingTags_active (identities : Identities) :
    failingTags dep identities (activeTags identities) =
      (identities.rows.filter (failing dep)).map Identity.tag := by
  rw [failingTags, activeTags, List.filter_map, List.filter_filter]
  congr 1
  apply List.filter_congr
  intro row hrow
  rw [Function.comp_apply, Table.find_of_mem hrow, Option.any_some]
  simp only [failing]
  cases decide (row.status = .active) <;> simp

/-- The active rows whose tags fail the gate. -/
def failingRows : List Identity := w.identities.rows.filter (failing dep)

/-- Those rows blocked, and their keys deleted. -/
def blocking : World :=
  { w with
    identities := w.identities.updateMany (failing dep) blockedRow blockedRow_tag
    redis := deleting w.redisUp ((failingRows dep w).map (fun row => resolveKey dep row.tag)) w.redis }

def checkedCount : Nat := w.identities.count (fun row => row.status = .active)

variable {dep w}

theorem backfill_run (up : w.dbUp = true) (notes : Notes) :
    (backfillModerationGate dep).run handle (w, notes) = some ((blocking dep w,
      ⟨stamping w.now ((failingRows dep w).map Identity.tag) notes.updatedAt,
        notes.deleted ++ (failingRows dep w).map (fun row => resolveKey dep row.tag)⟩),
      .ok ⟨checkedCount w,(failingRows dep w).length⟩) := by
  have hanswer : w.handle .findManyActiveTags = some (w, .ok (activeTags w.identities)) := if_pos up
  have hread : findManyActiveTags.run handle (w, notes) =
      some ((w, ⟨stamp w .findManyActiveTags (.ok (activeTags w.identities)) notes.updatedAt,
        notes.deleted ++ []⟩), .ok (activeTags w.identities)) :=
    (Prog.run_call (Prog.alongside_some hanswer notes)).trans rfl
  have hnotes : (⟨stamp w .findManyActiveTags (.ok (activeTags w.identities)) notes.updatedAt,
      notes.deleted ++ []⟩ : Notes) = notes := by
    rw [List.append_nil]
    rfl
  rw [hnotes] at hread
  have hloop : (backfillRows dep 0 (activeTags w.identities)).run handle (w, notes) = _ :=
    rows_run (activeTags_nodup w.identities) up 0 notes
  rw [backfillModerationGate, Prog.run_bind_ok hread, Prog.run_bind_ok hloop]
  have hids : w.identities.updateMany (hit dep (activeTags w.identities)) blockedRow blockedRow_tag =
      w.identities.updateMany (failing dep) blockedRow blockedRow_tag :=
    Table.updateMany_congr _ _ _ (fun row hrow => by rw [hit_active dep hrow])
  have hlength : (activeTags w.identities).length = checkedCount w := by
    rw [activeTags, List.length_map, checkedCount, Table.count, List.countP_eq_length_filter]
  rw [swept, sweptNotes, hids, failingTags_active, List.map_map, hlength, List.length_map,
    Nat.zero_add]
  rfl

/-- After a run no active row fails. -/
theorem blocking_none : ∀ row ∈ (blocking dep w).identities.rows, failing dep row = false := by
  intro row hrow
  obtain ⟨old,_,rfl⟩ := List.mem_map.mp hrow
  by_cases h : failing dep old = true
  · rw [if_pos h]
    rfl
  · rw [if_neg h]
    exact Bool.eq_false_iff.mpr h

/-- Every failing row is active, and is not after the run. -/
theorem blocking_checked :
    checkedCount (blocking dep w) = checkedCount w - (failingRows dep w).length := by
  have hafter : checkedCount (blocking dep w) =
      w.identities.rows.countP (fun row => row.status = .active && !failing dep row) := by
    rw [checkedCount, Table.count, blocking, Table.updateMany, List.countP_map]
    apply List.countP_congr
    intro row _
    by_cases h : failing dep row = true
    · simp [h, blockedRow]
    · simp [h]
  have hfailing : (failingRows dep w).length =
      w.identities.rows.countP (fun row => row.status = .active && failing dep row) := by
    rw [failingRows, ← List.countP_eq_length_filter]
    apply List.countP_congr
    intro row _
    simp only [failing]
    cases decide (row.status = .active) <;> simp
  have hsplit : ∀ rows : List Identity, rows.countP (fun row => row.status = .active) =
      rows.countP (fun row => row.status = .active && !failing dep row) +
        rows.countP (fun row => row.status = .active && failing dep row) := by
    intro rows
    induction rows with
    | nil => rfl
    | cons row rows ih =>
      simp only [List.countP_cons, ih]
      cases decide (row.status = .active) <;> cases failing dep row <;> simp <;> omega
  rw [hafter, hfailing, checkedCount, Table.count, hsplit, Nat.add_sub_cancel]

/-- A later run that finds the rows so flips nothing. -/
theorem again_run {again : World} (hrows : again.identities = (blocking dep w).identities)
    (up : again.dbUp = true) (notes : Notes) :
    (backfillModerationGate dep).run handle (again, notes) =
      some ((again, notes), .ok ⟨checkedCount w - (failingRows dep w).length,0⟩) := by
  have hnone : ∀ row ∈ again.identities.rows, failing dep row = false := by
    rw [hrows]
    exact blocking_none
  have hfailing : failingRows dep again = [] := by
    apply List.filter_eq_nil_iff.mpr
    intro row hrow
    rw [hnone row hrow]
    simp
  have hkept : blocking dep again = again := by
    rw [blocking, hfailing, List.map_nil, deleting_nil, Table.updateMany_none _ _ hnone]
  have hchecked : checkedCount again = checkedCount (blocking dep w) := by
    rw [checkedCount, hrows]
    rfl
  rw [backfill_run up, hkept, hfailing, hchecked, blocking_checked, List.map_nil, List.map_nil,
    stamping_nil, List.append_nil, List.length_nil]

end Alone

section Later
variable {dep : Deployment} {pool : MirrorPool}

theorem gated_find {identities : Identities} : Gated dep identities ↔ ∀ tag row,
    identities.find tag = some row → shouldBlockTag dep.engine tag = true → row.status = .blocked := by
  constructor
  · intro h tag row hf hb
    obtain ⟨hrow,rfl⟩ := Table.find_mem hf
    exact h row hrow hb
  · intro h row hrow hb
    exact h row.tag row (Table.find_of_mem hrow) hb

theorem blocking_gated (dep : Deployment) (w : World) :
    Gated dep (blocking dep w).identities := by
  intro row hrow hb
  have h := blocking_none row hrow
  cases hs : row.status with
  | blocked => rfl
  | active => simp [failing, hs, hb] at h

theorem moves_gated {call : MirrorCall} {tag : JsString} {found left : Option Identity}
    (h : ColumnOwnership.Moves dep call tag found left)
    (hfound : ∀ row, found = some row → row.status = .blocked)
    (hb : shouldBlockTag dep.engine tag = true) : ∀ row, left = some row → row.status = .blocked := by
  intro row hleft
  cases h with
  | kept => exact hfound row hleft
  | applied change old is here =>
    cases hleft
    rw [← here] at hb
    simp [IdentityData.apply, updateData, blockedStatus, hb]
  | created change now is here =>
    cases hleft
    rw [← here] at hb
    simp [IdentityCreate.row, createData, blockedStatus, hb]
  | edited params old is here =>
    cases hleft
    exact hfound old rfl
  | blocked old is active =>
    cases hleft
    rfl

theorem step_gated (hr : Recorded World.handle (MirrorCall.body dep) pool)
    (h : Gated dep pool.shared.identities) (event : ColumnOwnership.RowEvent) :
    Gated dep (ColumnOwnership.step dep pool event).shared.identities := by
  rw [gated_find] at h ⊢
  intro tag row hf hb
  rcases ColumnOwnership.step_moves hr event tag with hkept | ⟨call,_,hmoves⟩
  · exact h tag row (hkept ▸ hf) hb
  · exact moves_gated hmoves (fun old hold => h tag old hold hb) hb row hf

theorem run_gated {w : World} (h : Gated dep w.identities) (events : List ColumnOwnership.RowEvent) :
    Gated dep (ColumnOwnership.after dep w events).shared.identities := by
  let Holds (pool : MirrorPool) : Prop :=
    Recorded World.handle (MirrorCall.body dep) pool ∧ Gated dep pool.shared.identities
  have hstep : ∀ pool event, Holds pool → Holds (ColumnOwnership.step dep pool event) :=
    fun pool event h => ⟨step_recorded pool event h.1,step_gated h.1 h.2 event⟩
  have hstart : Holds (Pool.init w) := ⟨init_recorded w,h⟩
  exact (run_invariant hstart hstep events).2

end Later

section Among
variable (dep : Deployment)

/-- The tag of a row that the statement of the loop has found active. -/
def flips (e : MirrorEntry) : Option JsString :=
  match e.command, e.reply with
  | .updateManyIdentity cond data, .ok count =>
    if data = toBlocked ∧ 0 < count then some cond.tag else none
  | _, _ => none

def deletes (e : MirrorEntry) : Option JsString :=
  match e.command with
  | .redisDel key => some key
  | _ => none

/-- The row of a tag is active when the entry finds it, and blocked when it leaves it. -/
def Flipped (e : MirrorEntry) (tag : JsString) : Prop :=
  ∃ row w', e.found.identities.find tag = some row ∧ row.status = .active ∧
    e.found.handle e.command = some (w', e.reply) ∧
    w'.identities.find tag = some (blockedRow row)

/-- Only what its own statements have flipped is deleted, in their order, and counted. -/
structure OwnFlips (es : List MirrorEntry) (blocked : Option Nat) : Prop where
  flipped : ∀ e ∈ es, ∀ tag, flips e = some tag → Flipped e tag
  deleted : es.filterMap deletes <+: (es.filterMap flips).map (resolveKey dep)
  counted : ∀ n, blocked = some n → n = (es.filterMap flips).length ∧
    es.filterMap deletes = (es.filterMap flips).map (resolveKey dep)

variable {dep}

/-- What has been sent of a pass that had `blocked` behind it. -/
structure Tally (dep : Deployment) (blocked : Nat) (es : List MirrorEntry) (q : Async Nat) : Prop where
  deleted : es.filterMap deletes <+: (es.filterMap flips).map (resolveKey dep)
  counted : ∀ n, q = .done n → n = blocked + (es.filterMap flips).length ∧
    es.filterMap deletes = (es.filterMap flips).map (resolveKey dep)

section Tallies
variable {blocked : Nat} {tag : JsString} {e del : MirrorEntry} {es : List MirrorEntry} {q : Async Nat}

theorem tally_standing (hq : ∀ n, q ≠ .done n) : Tally dep blocked [] q :=
  ⟨List.prefix_rfl,fun n hn => absurd hn (hq n)⟩

theorem Tally.missed (h : Tally dep blocked es q) (hf : flips e = none) (hd : deletes e = none) :
    Tally dep blocked (e :: es) q := by
  constructor
  · rw [List.filterMap_cons_none hf, List.filterMap_cons_none hd]
    exact h.deleted
  · rw [List.filterMap_cons_none hf, List.filterMap_cons_none hd]
    exact h.counted

theorem tally_flip (hq : ∀ n, q ≠ .done n) (hd : deletes e = none) : Tally dep blocked [e] q := by
  refine ⟨?_,fun n hn => absurd hn (hq n)⟩
  rw [List.filterMap_cons_none hd]
  exact List.nil_prefix

theorem Tally.flip (h : Tally dep (blocked + 1) es q) (hf : flips e = some tag)
    (hd : deletes e = none) (hquiet : flips del = none)
    (hdel : deletes del = some (resolveKey dep tag)) : Tally dep blocked (e :: del :: es) q := by
  have hflips : (e :: del :: es).filterMap flips = tag :: es.filterMap flips := by
    rw [List.filterMap_cons_some hf, List.filterMap_cons_none hquiet]
  have hdeletes : (e :: del :: es).filterMap deletes = resolveKey dep tag :: es.filterMap deletes := by
    rw [List.filterMap_cons_none hd, List.filterMap_cons_some hdel]
  constructor
  · rw [hflips, hdeletes, List.map_cons]
    exact List.cons_prefix_cons.mpr ⟨rfl,h.deleted⟩
  · intro n hn
    obtain ⟨hlength,hkeys⟩ := h.counted n hn
    rw [hflips, hdeletes, List.map_cons, hkeys, List.length_cons, hlength, Nat.add_assoc,
      Nat.add_comm 1]
    exact ⟨rfl,rfl⟩

end Tallies

theorem rows_tally {blocked : Nat} {tags : List JsString} {es : List MirrorEntry} {q : Async Nat}
    (h : Follows (backfillRows dep blocked tags) es q) : Tally dep blocked es q := by
  induction tags generalizing blocked es with
  | nil =>
    obtain ⟨rfl,rfl⟩ := h.done_inv
    refine ⟨List.prefix_rfl,fun n hn => ?_⟩
    cases hn
    exact ⟨rfl,rfl⟩
  | cons tag tags ih =>
    rw [backfillRows] at h
    split at h
    · exact ih h
    rcases Follows.call_inv h with ⟨rfl,rfl⟩ | ⟨who,found,r,rest,rfl,hrest⟩
    · exact tally_standing (fun n hn => by cases hn)
    cases r with
    | error e =>
      obtain ⟨rfl,rfl⟩ := Follows.fail_inv hrest
      exact (tally_standing (fun n hn => by cases hn)).missed rfl rfl
    | ok count =>
      change Follows (if count = 0 then backfillRows dep blocked tags
        else invalidate dep tag >>= fun _ => backfillRows dep (blocked + 1) tags) rest q at hrest
      by_cases hc : count = 0
      · rw [if_pos hc] at hrest
        exact (ih hrest).missed (by simp [flips, hc]) rfl
      · rw [if_neg hc] at hrest
        rcases Follows.call_inv hrest with ⟨rfl,rfl⟩ | ⟨who',found',r,rest',rfl,hrest'⟩
        · exact tally_flip (fun n hn => by cases hn) rfl
        · exact (ih hrest').flip (by simp [flips, toBlocked, Nat.pos_of_ne_zero hc]) rfl rfl rfl

theorem body_tally {es : List MirrorEntry} {q : Async MirrorResult}
    (h : Follows (MirrorCall.body dep .backfillModerationGate) es q) :
    ∃ p, Tally dep 0 es p ∧
      ∀ result, q = .done (.backfilled result) → p = .done result.blocked := by
  rcases Follows.call_inv h with ⟨rfl,rfl⟩ | ⟨who,found,r,rest,rfl,hrest⟩
  · exact ⟨.call .findManyActiveTags (fun _ => .done 0),tally_standing (fun n hn => by cases hn),
      fun result hr => by cases hr⟩
  cases r with
  | error e =>
    obtain ⟨rfl,rfl⟩ := Follows.fail_inv hrest
    exact ⟨.fail (.database e),(tally_standing (fun n hn => by cases hn)).missed rfl rfl,
      fun result hr => by cases hr⟩
  | ok tags =>
    change Follows (backfillRows dep 0 tags >>= (fun blocked =>
      (.done ⟨tags.length,blocked⟩ : Async BackfillResult)) >>= fun result =>
        (.done (.backfilled result) : Async MirrorResult)) rest q at hrest
    rw [Prog.bind_assoc] at hrest
    rcases hrest.bind_inv with ⟨p,hp,hne,rfl⟩ | ⟨front,back,blocked,rfl,hp,hback⟩
    · refine ⟨p,(rows_tally hp).missed rfl rfl,fun result hr => ?_⟩
      cases p with
      | done blocked => exact absurd rfl (hne blocked)
      | fail e => cases hr
      | call c k => cases hr
    · obtain ⟨rfl,rfl⟩ := Follows.done_inv hback
      rw [List.append_nil]
      refine ⟨.done blocked,(rows_tally hp).missed rfl rfl,fun result hr => ?_⟩
      cases hr
      rfl

/-- A statement of the loop that says it wrote a row has found it active. -/
theorem statement_flipped {e : MirrorEntry} {tag : JsString} {w' : World}
    (hs : ColumnOwnership.Sends dep .backfillModerationGate e.command)
    (ha : e.found.handle e.command = some (w', e.reply)) (hf : flips e = some tag) :
    Flipped e tag := by
  obtain ⟨who,found,c,r⟩ := e
  rcases hs with hs | ⟨t,rfl⟩
  · cases c with
    | updateManyIdentity cond data => cases hs
    | _ => cases hf
  · cases r with
    | error e => cases hf
    | ok count =>
      have hpos : 0 < count ∧ t = tag := by simpa [flips, toBlocked] using hf
      obtain ⟨hpos,rfl⟩ := hpos
      have hup : found.dbUp = true := by
        by_contra hdown
        cases (if_neg hdown).symm.trans ha
      cases (World.handle_updateMany hup (activeOf t) toBlocked).symm.trans ha
      rw [Table.count_key found.identities (k := t)
        (fun row hrow => ((IdentityWhere.selects_iff _ row).mp hrow).1)] at hpos
      cases hrow : found.identities.find t with
      | none => simp [hrow] at hpos
      | some row =>
        have hs : (activeOf t).selects row = true := by
          by_contra hn
          simp [hrow, hn] at hpos
        have hactive := ((IdentityWhere.selects_iff _ row).mp hs).2.2 .active rfl
        refine ⟨row,_,hrow,hactive,ha,?_⟩
        rw [World.updateManyIdentity, Table.find_updateMany, hrow, Option.map_some, if_pos hs]
        rfl

/-- Any calls of both processes, any turns, and anything at all done to the services beside them. -/
abbrev AnyEvent := Event MirrorCall (World → World)

variable (dep) in
def among (w : World) (events : List AnyEvent) : MirrorPool :=
  run (Pool.step World.handle (MirrorCall.body dep) (fun w act => act w)) (Pool.init w) events

/-- What a thread has returned as a backfill. -/
def tallied (pool : MirrorPool) (i : Nat) : Option Nat :=
  match pool.result i with
  | some (.ok (.backfilled result)) => some result.blocked
  | _ => none

theorem among_ownFlips (w : World) (events : List AnyEvent) (i : Nat) (rest : Async MirrorResult)
    (h : (among dep w events).threads[i]? = some ⟨.backfillModerationGate, rest⟩) :
    OwnFlips dep (own (among dep w events).trace i) (tallied (among dep w events) i) := by
  have hr : Recorded World.handle (MirrorCall.body dep) (among dep w events) := run_recorded w events
  have hfollows := hr.follows i _ h
  obtain ⟨p,htally,hresult⟩ := body_tally hfollows
  refine ⟨fun e he tag hf => ?_,htally.deleted,fun n hn => ?_⟩
  · obtain ⟨w',ha⟩ := hr.answered e (mem_own.mp he).1
    exact statement_flipped (hfollows.always (ColumnOwnership.body_sends dep _) e he) ha hf
  · have hdone : ∃ result, rest = .done (.backfilled result) ∧ result.blocked = n := by
      cases rest with
      | call c k => simp [tallied, Pool.result, h] at hn
      | fail e => simp [tallied, Pool.result, h] at hn
      | done result =>
        cases result with
        | backfilled result => exact ⟨result,rfl,by simpa [tallied, Pool.result, h] using hn⟩
        | resolved | applied | identity => simp [tallied, Pool.result, h] at hn
    obtain ⟨result,rfl,rfl⟩ := hdone
    obtain ⟨hcount,hkeys⟩ := htally.counted result.blocked (hresult result rfl)
    exact ⟨by omega,hkeys⟩

end Among

/-- A run alone blocks the active rows that fail, stamps them and deletes their keys, and
changes nothing else; a run after it flips nothing. What it leaves, every call keeps. And a
run among any others deletes and counts what its own statements have flipped. -/
theorem backfill_blocks (dep : Deployment) (w : World) (up : w.dbUp = true) (notes : Notes) :
    (backfillModerationGate dep).run handle (w, notes) = some ((blocking dep w,
      ⟨stamping w.now ((failingRows dep w).map Identity.tag) notes.updatedAt,
        notes.deleted ++ (failingRows dep w).map (fun row => resolveKey dep row.tag)⟩),
      .ok ⟨checkedCount w,(failingRows dep w).length⟩) ∧
    (∀ (again : World) (notes : Notes), again.identities = (blocking dep w).identities →
      again.dbUp = true →
      (backfillModerationGate dep).run handle (again, notes) =
        some ((again, notes), .ok ⟨checkedCount w - (failingRows dep w).length,0⟩)) ∧
    (∀ (later : World) (events : List ColumnOwnership.RowEvent),
      later.identities = (blocking dep w).identities →
      Gated dep (ColumnOwnership.after dep later events).shared.identities) ∧
    ∀ (start : World) (events : List AnyEvent) (i : Nat) (rest : Async MirrorResult),
      (among dep start events).threads[i]? = some ⟨.backfillModerationGate, rest⟩ →
      OwnFlips dep (own (among dep start events).trace i) (tallied (among dep start events) i) := by
  refine ⟨backfill_run up notes,fun again notes hrows hup => again_run hrows hup notes,
    fun later events hrows => ?_,among_ownFlips⟩
  apply run_gated
  rw [hrows]
  exact blocking_gated dep w

/-- The row of `abc`, which the gate of this deployment blocks, last written at 0. -/
def abcMirror : World := { World.fresh with identities := Freshness.abcIdentities, now := 5 }

def unwritten : Notes := ⟨fun _ => 0,[]⟩

theorem abc_backfilled :
    ((backfillModerationGate Freshness.strictDeployment).run handle (abcMirror, unwritten)).map
        Prod.snd = some (.ok ⟨1,1⟩) ∧
    ∀ events : List ColumnOwnership.RowEvent, Gated Freshness.strictDeployment
      (ColumnOwnership.after Freshness.strictDeployment
        (blocking Freshness.strictDeployment abcMirror) events).shared.identities := by
  obtain ⟨hrun,_,hlater,_⟩ := backfill_blocks Freshness.strictDeployment abcMirror rfl unwritten
  refine ⟨?_,fun events => hlater _ events rfl⟩
  rw [hrun]
  decide

/-- The row flipped is stamped as well. -/
theorem updatedAt_moved :
    ¬ ∀ (dep : Deployment) (w : World), w.dbUp = true → ∀ notes : Notes, ∃ w' left result,
      (backfillModerationGate dep).run handle (w, notes) = some ((w', left), .ok result) ∧
      left.updatedAt = notes.updatedAt := by
  intro h
  obtain ⟨w',left,result,hrun,hkept⟩ := h Freshness.strictDeployment abcMirror rfl unwritten
  cases (backfill_run rfl unwritten).symm.trans hrun
  have hmoved : stamping abcMirror.now
      ((failingRows Freshness.strictDeployment abcMirror).map Identity.tag) unwritten.updatedAt
        (js "abc") = 5 := by decide
  cases hmoved.symm.trans (congrFun hkept (js "abc"))

end Tagwise.Proofs.Backfill
