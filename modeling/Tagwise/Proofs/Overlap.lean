import Tagwise.Indexer.Phases

namespace Tagwise.Proofs.Overlap
open Js Tagwise.Core Services Indexer Lib

/-- Two calls of one process on one tag, over any mirror a live database holds. -/
structure Race where
  dep : Deployment
  world : World
  up : world.dbUp = true
  older : VerifiedTagChange
  newer : VerifiedTagChange
  sameTag : older.tag = newer.tag
  slots : older.slot < newer.slot

namespace Race

def tag (o : Race) : JsString := o.newer.tag.text

/-- The row the calls find when they start. -/
def row (o : Race) : Option Identity := o.world.identities.find o.tag

def step (o : Race) : ApplyPool → Event VerifiedTagChange Empty → ApplyPool :=
  Pool.step World.handle (applyChange o.dep) (fun _ e => e.elim)

/-- Both calls under way, the older change's as thread 0. -/
def start (o : Race) : ApplyPool :=
  run o.step (Pool.init o.world) [.spawn o.older, .spawn o.newer]

/-- The calls under a schedule of turns, `true` for the newer change's. -/
def after (o : Race) (schedule : List Bool) : ApplyPool :=
  run o.step o.start (schedule.map (fun b => .turn (if b then 1 else 0)))

end Race

/-- The on-chain columns a change writes. -/
structure Holds (change : VerifiedTagChange) (row : Identity) : Prop where
  owner : row.owner = change.owner
  wallet : row.wallet = change.wallet
  bump : row.bump = change.bump
  slot : row.lastAppliedSlot = change.slot

/-- Both calls end well, the newer change stands unless the row was newer still, and
staleness is reported only of a stored slot that was greater. -/
structure NoLostUpdate (o : Race) (schedule : List Bool) : Prop where
  completes : ∃ older newer, (o.after schedule).result 0 = some (.ok older) ∧
    (o.after schedule).result 1 = some (.ok newer) ∧
    (older = .skippedStale → ∃ s ∈ slotsHeard (o.after schedule).trace 0, o.older.slot < s) ∧
    (newer = .skippedStale → ∃ s ∈ slotsHeard (o.after schedule).trace 1, o.newer.slot < s)
  newerStands : (∀ r, o.row = some r → r.lastAppliedSlot ≤ o.newer.slot) →
    ∃ r, (o.after schedule).shared.identities.find o.tag = some r ∧ Holds o.newer r

/-- Whether two calls on a missing row get in each other's way, the turns each has
had being counted. A call's third statement is its create; it goes wrong when the
other has already looked and not found, unless that is the older with its guarded
update alone behind it. -/
def collides (older newer : Nat) : List Bool → Bool
  | [] => false
  | false :: rest =>
    if older = 2 then decide (newer ≠ 0) else collides (older + 1) newer rest
  | true :: rest =>
    if newer = 2 then decide (older = 2) else collides older (newer + 1) rest

/-- The two calls and the one row they contend for. -/
structure Duo where
  row : Option Identity
  older : Phase
  newer : Phase
  heardOlder : List Nat
  heardNewer : List Nat

def Duo.step (o : Race) (d : Duo) : Bool → Duo
  | false => { d with
    row := rowAfter o.dep o.older o.world.now d.row d.older
    older := advance o.older d.row d.older
    heardOlder := d.heardOlder ++ heard d.row d.older }
  | true => { d with
    row := rowAfter o.dep o.newer o.world.now d.row d.newer
    newer := advance o.newer d.row d.newer
    heardNewer := d.heardNewer ++ heard d.row d.newer }

def Duo.start (o : Race) : Duo := ⟨o.row, .start, .start, [], []⟩

/-- The pool behind a duo. -/
structure Runs (o : Race) (pool : ApplyPool) (d : Duo) : Prop where
  up : pool.shared.dbUp = true
  now : pool.shared.now = o.world.now
  row : pool.shared.identities.find o.tag = d.row
  threads : pool.threads =
    [⟨o.older, resume o.dep o.older d.older⟩, ⟨o.newer, resume o.dep o.newer d.newer⟩]
  heardOlder : slotsHeard pool.trace 0 = d.heardOlder
  heardNewer : slotsHeard pool.trace 1 = d.heardNewer

theorem start_runs (o : Race) : Runs o o.start (Duo.start o) :=
  ⟨o.up,rfl,rfl,rfl,rfl,rfl⟩

theorem turn_runs {o : Race} {pool : ApplyPool} {d : Duo} (h : Runs o pool d) (b : Bool) :
    Runs o (pool.turn World.handle (if b then 1 else 0)) (d.step o b) := by
  cases b with
  | false =>
    have htag : o.older.tag.text = o.tag := by rw [o.sameTag]; rfl
    have ht : pool.threads[0]? = some ⟨o.older, resume o.dep o.older d.older⟩ := by
      rw [h.threads]
      rfl
    obtain ⟨redis,tail,he,hs⟩ := turn_resume o.dep h.up ht
    have hw := written_find o.dep o.older pool.shared.identities pool.shared.now d.older
    rw [htag, h.row] at he hs hw
    simp only [Bool.false_eq_true, ↓reduceIte]
    rw [he]
    refine ⟨h.up,h.now,?_,?_,?_,?_⟩
    · exact hw.trans (by rw [h.now]; rfl)
    · rw [h.threads]
      rfl
    · rw [slotsHeard_append, h.heardOlder, hs]
      rfl
    · rw [slotsHeard_append, h.heardNewer, hs]
      exact List.append_nil _
  | true =>
    have htag : o.newer.tag.text = o.tag := rfl
    have ht : pool.threads[1]? = some ⟨o.newer, resume o.dep o.newer d.newer⟩ := by
      rw [h.threads]
      rfl
    obtain ⟨redis,tail,he,hs⟩ := turn_resume o.dep h.up ht
    have hw := written_find o.dep o.newer pool.shared.identities pool.shared.now d.newer
    rw [htag, h.row] at he hs hw
    simp only [↓reduceIte]
    rw [he]
    refine ⟨h.up,h.now,?_,?_,?_,?_⟩
    · exact hw.trans (by rw [h.now]; rfl)
    · rw [h.threads]
      rfl
    · rw [slotsHeard_append, h.heardOlder, hs]
      exact List.append_nil _
    · rw [slotsHeard_append, h.heardNewer, hs]
      rfl

theorem after_runs (o : Race) (schedule : List Bool) :
    Runs o (o.after schedule) (run (Duo.step o) (Duo.start o) schedule) := by
  have general : ∀ {pool : ApplyPool} {d : Duo}, Runs o pool d →
      Runs o (run o.step pool (schedule.map (fun b => .turn (if b then 1 else 0))))
        (run (Duo.step o) d schedule) := by
    induction schedule with
    | nil => exact fun h => h
    | cons b rest ih => exact fun h => ih (turn_runs h b)
  exact general (start_runs o)

/-- The statements a call has left at most. -/
def rank : Phase → Nat
  | .start => 4
  | .missed => 3
  | .absent => 2
  | .updating | .creating => 1
  | .finished _ | .failed => 0

theorem rank_advance (change : VerifiedTagChange) (row : Option Identity) (p : Phase) :
    rank (advance change row p) ≤ rank p - 1 := by
  cases p with
  | start =>
    rw [advance]
    split
    · simp [rank]
    · simp [rank]
  | missed | absent => cases row <;> simp [advance, rank]
  | updating | creating | finished | failed => exact Nat.le_refl _

theorem run_rank (o : Race) (d : Duo) (schedule : List Bool) :
    rank (run (Duo.step o) d schedule).older ≤ rank d.older - schedule.count false ∧
    rank (run (Duo.step o) d schedule).newer ≤ rank d.newer - schedule.count true := by
  induction schedule generalizing d with
  | nil => exact ⟨Nat.le_refl _,Nat.le_refl _⟩
  | cons b rest ih =>
    obtain ⟨ho,hn⟩ := ih (d.step o b)
    cases b with
    | false =>
      have := rank_advance o.older d.row d.older
      simp only [List.count_cons_self, run_cons, List.count_cons_of_ne (by decide : false ≠ true)]
      simp only [Duo.step] at ho hn ⊢
      exact ⟨by omega,hn⟩
    | true =>
      have := rank_advance o.newer d.row d.newer
      simp only [List.count_cons_self, run_cons, List.count_cons_of_ne (by decide : true ≠ false)]
      simp only [Duo.step] at ho hn ⊢
      exact ⟨ho,by omega⟩

/-- With a row in place: who is where, and what they know of it. No missed call is
ever wrong from here on. -/
structure Settled (o : Race) (bound : Nat) (r : Identity) (d : Duo) : Prop where
  row : d.row = some r
  limit : r.lastAppliedSlot ≤ bound ∨ r.lastAppliedSlot ≤ o.newer.slot
  olderThere : d.older ≠ .absent ∧ d.older ≠ .failed
  newerThere : d.newer ≠ .absent ∧ d.newer ≠ .failed
  olderMissed : d.older = .missed → o.older.slot < r.lastAppliedSlot
  newerMissed : d.newer = .missed → o.newer.slot < r.lastAppliedSlot
  newerPassed : d.newer = .missed ∨ d.newer = .finished .skippedStale → o.newer.slot < bound
  newerWrote : d.newer = .updating ∨ d.newer = .creating ∨ d.newer = .finished .updated ∨
    d.newer = .finished .created → Holds o.newer r
  olderSkipped : d.older = .finished .skippedStale → ∃ s ∈ d.heardOlder, o.older.slot < s
  newerSkipped : d.newer = .finished .skippedStale → ∃ s ∈ d.heardNewer, o.newer.slot < s

theorem updated_holds (change : VerifiedTagChange) (r : Identity) (blocked : Bool) :
    Holds change ((updateData change blocked).apply r) := ⟨rfl,rfl,rfl,rfl⟩

theorem created_holds (change : VerifiedTagChange) (blocked : Bool) (now : Nat) :
    Holds change ((createData change blocked).row now) := ⟨rfl,rfl,rfl,rfl⟩

theorem settled_older {o : Race} {bound : Nat} {r : Identity} {d : Duo} (h : Settled o bound r d) :
    ∃ r', Settled o bound r' (d.step o false) := by
  obtain ⟨row,older,newer,ho,hn⟩ := d
  obtain ⟨hr,hl,ho1,hn1,hom,hnm,hnp,hnw,hos,hns⟩ := h
  simp only at hr ho1 hn1 hom hnm hnp hnw hos hns
  subst hr
  have := o.slots
  cases older with
  | start =>
    by_cases hle : r.lastAppliedSlot ≤ o.older.slot
    · have hu := updated_holds o.older r (shouldBlockTag o.dep.engine o.older.tag)
      refine ⟨(updateData o.older (shouldBlockTag o.dep.engine o.older.tag)).apply r,
        ⟨by simp [Duo.step, rowAfter, hle],.inr (by rw [hu.slot]; omega),
          by simp [Duo.step, advance, hle],hn1,by simp [Duo.step, advance, hle],
          fun hm => by have := hnm hm; omega,hnp,
          fun hw => by have := (hnw hw).slot; omega,
          by simp [Duo.step, advance, hle],hns⟩⟩
    · exact ⟨r,⟨by simp [Duo.step, rowAfter, hle],hl,by simp [Duo.step, advance, hle],hn1,
        fun _ => Nat.lt_of_not_le hle,hnm,hnp,hnw,by simp [Duo.step, advance, hle],hns⟩⟩
  | missed =>
    exact ⟨r,⟨rfl,hl,by simp [Duo.step, advance],hn1,by simp [Duo.step, advance],hnm,hnp,hnw,
      fun _ => ⟨r.lastAppliedSlot,by simp [Duo.step, heard],hom rfl⟩,hns⟩⟩
  | absent => exact absurd rfl ho1.1
  | updating | creating =>
    exact ⟨r,⟨rfl,hl,by simp [Duo.step, advance],hn1,by simp [Duo.step, advance],hnm,hnp,hnw,
      by simp [Duo.step, advance],hns⟩⟩
  | finished outcome =>
    exact ⟨r,⟨rfl,hl,ho1,hn1,hom,hnm,hnp,hnw,by simpa [Duo.step, advance, heard] using hos,hns⟩⟩
  | failed => exact absurd rfl ho1.2

theorem settled_newer {o : Race} {bound : Nat} {r : Identity} {d : Duo} (h : Settled o bound r d) :
    ∃ r', Settled o bound r' (d.step o true) := by
  obtain ⟨row,older,newer,ho,hn⟩ := d
  obtain ⟨hr,hl,ho1,hn1,hom,hnm,hnp,hnw,hos,hns⟩ := h
  simp only at hr ho1 hn1 hom hnm hnp hnw hos hns
  subst hr
  have := o.slots
  cases newer with
  | start =>
    by_cases hle : r.lastAppliedSlot ≤ o.newer.slot
    · have hu := updated_holds o.newer r (shouldBlockTag o.dep.engine o.newer.tag)
      refine ⟨(updateData o.newer (shouldBlockTag o.dep.engine o.newer.tag)).apply r,
        ⟨by simp [Duo.step, rowAfter, hle],.inr (Nat.le_of_eq hu.slot),ho1,
          by simp [Duo.step, advance, hle],fun hm => by rw [hu.slot]; omega,
          by simp [Duo.step, advance, hle],by simp [Duo.step, advance, hle],fun _ => hu,hos,
          by simp [Duo.step, advance, hle]⟩⟩
    · exact ⟨r,⟨by simp [Duo.step, rowAfter, hle],hl,ho1,by simp [Duo.step, advance, hle],hom,
        fun _ => Nat.lt_of_not_le hle,fun _ => by omega,by simp [Duo.step, advance, hle],hos,
        by simp [Duo.step, advance, hle]⟩⟩
  | missed =>
    exact ⟨r,⟨rfl,hl,ho1,by simp [Duo.step, advance],hom,by simp [Duo.step, advance],
      fun _ => hnp (.inl rfl),by simp [Duo.step, advance],hos,
      fun _ => ⟨r.lastAppliedSlot,by simp [Duo.step, heard],hnm rfl⟩⟩⟩
  | absent => exact absurd rfl hn1.1
  | updating | creating =>
    exact ⟨r,⟨rfl,hl,ho1,by simp [Duo.step, advance],hom,by simp [Duo.step, advance],
      by simp [Duo.step, advance],fun _ => hnw (by simp),hos,by simp [Duo.step, advance]⟩⟩
  | finished outcome =>
    exact ⟨r,⟨rfl,hl,ho1,hn1,hom,hnm,hnp,hnw,hos,by simpa [Duo.step, advance, heard] using hns⟩⟩
  | failed => exact absurd rfl hn1.2

theorem run_settled {o : Race} {bound : Nat} {d : Duo} (h : ∃ r, Settled o bound r d)
    (schedule : List Bool) : ∃ r, Settled o bound r (run (Duo.step o) d schedule) :=
  run_invariant (I := fun d => ∃ r, Settled o bound r d) h (fun d b hd => by
    obtain ⟨r,hr⟩ := hd
    cases b with
    | false => exact settled_older hr
    | true => exact settled_newer hr) schedule

/-- The three ways it goes wrong on a missing row. -/
inductive Lost (o : Race) (d : Duo) : Prop
  /-- The newer change missed the row, and finds the older one's in its place. -/
  | passedOver (r : Identity) (row : d.row = some r) (slot : r.lastAppliedSlot = o.older.slot)
      (older : d.older = .creating ∨ d.older = .finished .created)
      (newer : d.newer = .missed ∨ d.newer = .finished .skippedStale)
      (heard : ∀ s ∈ d.heardNewer, s ≤ o.older.slot)
  | newerFails (r : Identity) (row : d.row = some r)
      (older : d.older = .creating ∨ d.older = .finished .created)
      (newer : d.newer = .absent ∨ d.newer = .failed)
  | olderFails (r : Identity) (row : d.row = some r)
      (older : d.older = .absent ∨ d.older = .failed)
      (newer : d.newer = .creating ∨ d.newer = .finished .created)

theorem lost_step {o : Race} {d : Duo} (h : Lost o d) (b : Bool) : Lost o (d.step o b) := by
  obtain ⟨row,older,newer,ho,hn⟩ := d
  cases h with
  | passedOver r row slot older newer heard =>
    simp only at row older newer heard
    subst row
    cases b with
    | false =>
      rcases older with rfl | rfl
      · exact .passedOver r rfl slot (.inr rfl) newer heard
      · exact .passedOver r rfl slot (.inr rfl) newer heard
    | true =>
      rcases newer with rfl | rfl
      · refine .passedOver r rfl slot older (.inr rfl) ?_
        intro s hs
        rcases List.mem_append.mp hs with hs | hs
        · exact heard s hs
        · have he : s = r.lastAppliedSlot := by simpa [Indexer.heard] using hs
          omega
      · refine .passedOver r rfl slot older (.inr rfl) ?_
        intro s hs
        rcases List.mem_append.mp hs with hs | hs
        · exact heard s hs
        · cases hs
  | newerFails r row older newer =>
    simp only at row older newer
    subst row
    cases b with
    | false => rcases older with rfl | rfl <;> exact .newerFails r rfl (.inr rfl) newer
    | true => rcases newer with rfl | rfl <;> exact .newerFails r rfl older (.inr rfl)
  | olderFails r row older newer =>
    simp only at row older newer
    subst row
    cases b with
    | false => rcases older with rfl | rfl <;> exact .olderFails r rfl (.inr rfl) newer
    | true => rcases newer with rfl | rfl <;> exact .olderFails r rfl older (.inr rfl)

theorem run_lost {o : Race} {d : Duo} (h : Lost o d) (schedule : List Bool) :
    Lost o (run (Duo.step o) d schedule) :=
  run_invariant h (fun _ b hd => lost_step hd b) schedule

/-- Where a call stands after so many turns on a missing row. -/
def phaseAt : Nat → Phase
  | 0 => .start
  | 1 => .missed
  | _ => .absent

def racing (older newer : Nat) : Duo := ⟨none, phaseAt older, phaseAt newer, [], []⟩

/-- On a missing row the schedule decides, and `collides` reads it off. -/
theorem racing_run (o : Race) (schedule : List Bool) (older newer : Nat) (ho : older ≤ 2)
    (hn : newer ≤ 2) :
    if collides older newer schedule then Lost o (run (Duo.step o) (racing older newer) schedule)
    else (∃ r, Settled o 0 r (run (Duo.step o) (racing older newer) schedule)) ∨
      ∃ older' newer', run (Duo.step o) (racing older newer) schedule = racing older' newer' := by
  induction schedule generalizing older newer with
  | nil => exact .inr ⟨older,newer,rfl⟩
  | cons b rest ih =>
    have hs := o.slots
    cases b with
    | false =>
      by_cases h2 : older = 2
      · subst h2
        have hc := created_holds o.older (shouldBlockTag o.dep.engine o.older.tag) o.world.now
        have hrow : (racing 2 newer).step o false = ⟨some ((createData o.older
          (shouldBlockTag o.dep.engine o.older.tag)).row o.world.now), .creating, phaseAt newer,
          [], []⟩ := rfl
        rw [collides, if_pos rfl, run_cons, hrow]
        obtain rfl | rfl | rfl : newer = 0 ∨ newer = 1 ∨ newer = 2 := by omega
        · refine .inl (run_settled ⟨_,⟨rfl,.inr ?_,?_,?_,?_,?_,?_,?_,?_,?_⟩⟩ rest)
          · rw [hc.slot]
            omega
          all_goals simp [phaseAt]
        · exact run_lost (.passedOver _ rfl hc.slot (.inl rfl) (.inl rfl) (by simp)) rest
        · exact run_lost (.newerFails _ rfl (.inl rfl) (.inl rfl)) rest
      · have hstep : (racing older newer).step o false = racing (older + 1) newer := by
          obtain rfl | rfl : older = 0 ∨ older = 1 := by omega
          · rfl
          · rfl
        rw [collides, if_neg h2, run_cons, hstep]
        exact ih _ _ (by omega) hn
    | true =>
      by_cases h2 : newer = 2
      · subst h2
        have hc := created_holds o.newer (shouldBlockTag o.dep.engine o.newer.tag) o.world.now
        have hrow : (racing older 2).step o true = ⟨some ((createData o.newer
          (shouldBlockTag o.dep.engine o.newer.tag)).row o.world.now), phaseAt older, .creating,
          [], []⟩ := rfl
        rw [collides, if_pos rfl, run_cons, hrow]
        obtain h | rfl : older < 2 ∨ older = 2 := by omega
        · have hne : ¬ older = 2 := by omega
          simp only [hne, decide_false, Bool.false_eq_true, ↓reduceIte]
          have hp : phaseAt older ≠ .absent ∧ phaseAt older ≠ .failed ∧
              phaseAt older ≠ .finished .skippedStale := by
            obtain rfl | rfl : older = 0 ∨ older = 1 := by omega
            · decide
            · decide
          exact .inl (run_settled ⟨_,⟨rfl,.inr (Nat.le_of_eq hc.slot),⟨hp.1,hp.2.1⟩,by simp,
            fun _ => hc.slot.symm ▸ hs,by simp,by simp,fun _ => hc,fun he => absurd he hp.2.2,
            by simp⟩⟩ rest)
        · exact run_lost (.olderFails _ rfl (.inl rfl) (.inl rfl)) rest
      · have hstep : (racing older newer).step o true = racing older (newer + 1) := by
          obtain rfl | rfl : newer = 0 ∨ newer = 1 := by omega
          · rfl
          · rfl
        rw [collides, if_neg h2, run_cons, hstep]
        exact ih _ _ ho (by omega)

theorem rank_zero {p : Phase} (h : rank p = 0) : p = .failed ∨ ∃ outcome, p = .finished outcome := by
  cases p with
  | finished outcome => exact .inr ⟨outcome,rfl⟩
  | failed => exact .inl rfl
  | start | missed | absent | updating | creating => cases h

/-- Four turns each end both calls. -/
theorem both_end {o : Race} {d : Duo} {schedule : List Bool} (hd : rank d.older ≤ 4)
    (hd' : rank d.newer ≤ 4) (ho : 4 ≤ schedule.count false) (hn : 4 ≤ schedule.count true) :
    rank (run (Duo.step o) d schedule).older = 0 ∧ rank (run (Duo.step o) d schedule).newer = 0 := by
  obtain ⟨h,h'⟩ := run_rank o d schedule
  omega

theorem Runs.result {o : Race} {pool : ApplyPool} {d : Duo} (h : Runs o pool d) :
    (∀ r, d.older = .finished r → pool.result 0 = some (.ok r)) ∧
    (∀ r, d.newer = .finished r → pool.result 1 = some (.ok r)) ∧
    (d.older = .failed → pool.result 0 = some (.error (.database .uniqueViolation))) ∧
    (d.newer = .failed → pool.result 1 = some (.error (.database .uniqueViolation))) := by
  refine ⟨?_, ?_, ?_, ?_⟩
  all_goals
    intros
    rename_i he
    rw [Pool.result, h.threads, he]
    rfl

theorem settled_good {o : Race} {bound : Nat} {schedule : List Bool} {d : Duo} {r : Identity}
    (hruns : Runs o (o.after schedule) d) (h : Settled o bound r d) (ho : rank d.older = 0)
    (hn : rank d.newer = 0)
    (hbound : (∀ r, o.row = some r → r.lastAppliedSlot ≤ o.newer.slot) → bound ≤ o.newer.slot) :
    NoLostUpdate o schedule := by
  obtain he | ⟨older,he⟩ := rank_zero ho
  · exact absurd he h.olderThere.2
  obtain he' | ⟨newer,he'⟩ := rank_zero hn
  · exact absurd he' h.newerThere.2
  refine ⟨⟨older,newer,hruns.result.1 _ he,hruns.result.2.1 _ he',?_,?_⟩,?_⟩
  · rintro rfl
    rw [hruns.heardOlder]
    exact h.olderSkipped he
  · rintro rfl
    rw [hruns.heardNewer]
    exact h.newerSkipped he'
  · intro hrow
    have hle := hbound hrow
    refine ⟨r,hruns.row.trans h.row,h.newerWrote ?_⟩
    cases newer with
    | created => exact .inr (.inr (.inr he'))
    | updated => exact .inr (.inr (.inl he'))
    | skippedStale =>
      have := h.newerPassed (.inr he')
      omega

theorem lost_bad {o : Race} {schedule : List Bool} {d : Duo}
    (hruns : Runs o (o.after schedule) d) (h : Lost o d) (ho : rank d.older = 0)
    (hn : rank d.newer = 0) : ¬ NoLostUpdate o schedule := by
  rintro ⟨⟨older,newer,hr,hr',_,hs⟩,_⟩
  cases h with
  | passedOver r row slot older newer heard =>
    rcases newer with he | he
    · rw [he] at hn
      cases hn
    · rw [hruns.result.2.1 _ he] at hr'
      cases hr'
      obtain ⟨s,hm,hlt⟩ := hs rfl
      rw [hruns.heardNewer] at hm
      have := heard s hm
      have := o.slots
      omega
  | newerFails r row older newer =>
    rcases newer with he | he
    · rw [he] at hn
      cases hn
    · rw [hruns.result.2.2.2 he] at hr'
      cases hr'
  | olderFails r row older newer =>
    rcases older with he | he
    · rw [he] at ho
      cases ho
    · rw [hruns.result.2.2.1 he] at hr
      cases hr

/-- The two calls are safe exactly when the row is there before them, or the schedule
keeps them from meeting on the missing row. -/
theorem noLostUpdate_iff (o : Race) {schedule : List Bool} (ho : 4 ≤ schedule.count false)
    (hn : 4 ≤ schedule.count true) :
    NoLostUpdate o schedule ↔ o.row ≠ none ∨ collides 0 0 schedule = false := by
  have hruns := after_runs o schedule
  obtain ⟨hro,hrn⟩ := both_end (o := o) (d := Duo.start o) (Nat.le_refl 4) (Nat.le_refl 4) ho hn
  cases hrow : o.row with
  | some r =>
    have hset : Settled o r.lastAppliedSlot r (Duo.start o) :=
      ⟨hrow,.inl (Nat.le_refl _),by simp [Duo.start],by simp [Duo.start],by simp [Duo.start],
        by simp [Duo.start],by simp [Duo.start],by simp [Duo.start],by simp [Duo.start],
        by simp [Duo.start]⟩
    obtain ⟨r',hend⟩ := run_settled ⟨r,hset⟩ schedule
    refine iff_of_true (settled_good hruns hend hro hrn ?_) (.inl (by simp))
    exact fun h => h r hrow
  | none =>
    have hstart : Duo.start o = racing 0 0 := by rw [Duo.start, hrow]; rfl
    have hrace := racing_run o schedule 0 0 (by omega) (by omega)
    rw [hstart] at hruns hro hrn
    cases hc : collides 0 0 schedule with
    | true =>
      rw [hc, if_pos rfl] at hrace
      simp [lost_bad hruns hrace hro hrn]
    | false =>
      rw [hc] at hrace
      simp only [Bool.false_eq_true, ↓reduceIte] at hrace
      rcases hrace with ⟨r,hend⟩ | ⟨k,l,he⟩
      · refine iff_of_true (settled_good hruns hend hro hrn ?_) (.inr rfl)
        exact fun _ => Nat.zero_le _
      · rw [he] at hro
        cases k with
        | zero => cases hro
        | succ k => cases k <;> cases hro

/-- Two calls for `abc` over an empty mirror, its account seen in slots 1 and 2. -/
def abcRace : Race where
  dep := .sample
  world := .fresh
  up := rfl
  older := .abc 1
  newer := .abc 2
  sameTag := rfl
  slots := by decide

theorem abc_in_turn : NoLostUpdate abcRace [false, false, false, false, true, true, true, true] :=
  (noLostUpdate_iff abcRace (by decide) (by decide)).mpr (.inr (by decide))

/-- The newer change looks for the row before the older one creates it, and again after. -/
theorem newer_passed_over : ¬ ∀ (o : Race) (schedule : List Bool), 4 ≤ schedule.count false →
    4 ≤ schedule.count true → NoLostUpdate o schedule := by
  intro h
  obtain ⟨_,hstands⟩ := h abcRace [true, false, false, false, false, true, true, true]
    (by decide) (by decide)
  obtain ⟨r,hf,hr⟩ := hstands (fun r hr => by cases hr)
  have hslot : ((abcRace.after [true, false, false, false, false, true, true,
      true]).shared.identities.find abcRace.tag).map Identity.lastAppliedSlot = some 1 := by
    decide
  rw [hf, Option.map_some, hr.slot] at hslot
  cases hslot

end Tagwise.Proofs.Overlap
