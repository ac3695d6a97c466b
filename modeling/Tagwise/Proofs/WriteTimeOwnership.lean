import Tagwise.Proofs.ColumnOwnership

namespace Tagwise.Proofs.WriteTimeOwnership
open Js Tagwise.Core Services Api Lib
open MirrorRecord (MirrorEntry writes)
open Indexer (VerifiedTagChange)
open ColumnOwnership (Elsewhere Moves Sends writesRows body_sends handle_moves)

/-- What happens beside the calls: someone blocks a row, or whatever writes none. -/
inductive Beside
  | blocks (tag : JsString)
  | elsewhere (what : Elsewhere)

def Beside.act (w : World) : Beside → World
  | .blocks tag => w.updateManyIdentity { tag } { status := some .blocked }
  | .elsewhere what => what.act w

abbrev OwnedEvent := Event MirrorCall Beside

def step (dep : Deployment) : MirrorPool → OwnedEvent → MirrorPool :=
  Pool.step World.handle (MirrorCall.body dep) Beside.act

def after (dep : Deployment) (w : World) (events : List OwnedEvent) : MirrorPool :=
  run (step dep) (Pool.init w) events

/-- The caller is the owner of the row, and the row is active. -/
def Held (params : UpdateIdentityParams) (found : Option Identity) : Prop :=
  ∃ row, found = some row ∧ row.owner = params.ownerPubkey ∧ row.status = .active

/-- Every row written on behalf of a caller was the caller's, and active, when written. -/
def OwnersOnly (pool : MirrorPool) : Prop :=
  ∀ e ∈ pool.trace, ∀ params rest, pool.threads[e.who]? = some ⟨.updateIdentity params, rest⟩ →
    ∀ tag, writes e.command e.reply = some tag →
      tag = params.tag.text ∧ Held params (e.found.identities.find tag)

/-- A call that has read its row and will write it next. -/
def Checked (pool : MirrorPool) (params : UpdateIdentityParams) : Prop :=
  ∃ (who : Nat) (tag : JsString) (data : IdentityData)
    (k : Reply (.updateIdentity tag data) → Async MirrorResult),
    pool.threads[who]? = some ⟨.updateIdentity params, .call (.updateIdentity tag data) k⟩

/-- The step leaves owner and status to the rows that a call has read and not yet written. -/
def Undisturbed (dep : Deployment) (pool : MirrorPool) (event : OwnedEvent) : Prop :=
  ∀ params, Checked pool params → ∀ row,
    pool.shared.identities.find params.tag.text = some row →
    ∃ row', (step dep pool event).shared.identities.find params.tag.text = some row' ∧
      row'.owner = row.owner ∧ row'.status = row.status

variable {dep : Deployment}

/-- What is left of a call whose caller has passed the checks. -/
def writing (dep : Deployment) (params : UpdateIdentityParams) : Async MirrorResult :=
  (do
    let updated ← update params.tag (profileData params.dto params.provided)
    RedisCacheReader.delete dep (buildResolveCacheKey dep.redisKeyPrefix params.tag)
    return toIdentityResponse params.tag updated : Async IdentityResponse) >>=
  fun response => return .identity response

/-- A call reads its row, and goes on only if it is active and the caller's. -/
theorem updateIdentity_reads (dep : Deployment) (params : UpdateIdentityParams) :
    ∃ k, MirrorCall.body dep (.updateIdentity params) = .call (.findUniqueIdentity params.tag) k ∧
      ∀ r, (∃ e, k r = .fail e) ∨ ∃ row, r = .ok (some row) ∧ row.owner = params.ownerPubkey ∧
        row.status = .active ∧ k r = writing dep params := by
  refine ⟨_,rfl,fun r => ?_⟩
  cases r with
  | error e => exact .inl ⟨_,rfl⟩
  | ok found =>
    cases found with
    | none => exact .inl ⟨_,rfl⟩
    | some row =>
      cases hs : row.status with
      | blocked =>
        refine .inl ⟨notFound params.tag,?_⟩
        simp only [Prog.bind, pure, Option.filter_some, hs, reduceCtorEq, decide_false,
          Bool.false_eq_true, ↓reduceIte]
      | active =>
        by_cases ho : row.owner = params.ownerPubkey
        · rcases checkFreeText_cases dep (js "displayName") params.dto.displayName with hd | ⟨e,hd⟩
          · rcases checkFreeText_cases dep (js "bio") params.dto.bio with hb | ⟨e,hb⟩
            · refine .inr ⟨row,rfl,ho,hs,?_⟩
              simp only [Prog.bind, pure, Option.filter_some, hs, decide_true, ↓reduceIte, ho,
                ne_eq, not_true_eq_false, hd, hb, Prog.done_bind]
              rfl
            · refine .inl ⟨e,?_⟩
              simp only [Prog.bind, pure, Option.filter_some, hs, decide_true, ↓reduceIte, ho,
                ne_eq, not_true_eq_false, hd, hb, Prog.done_bind, Prog.fail_bind]
          · refine .inl ⟨e,?_⟩
            simp only [Prog.bind, pure, Option.filter_some, hs, decide_true, ↓reduceIte, ho,
              ne_eq, not_true_eq_false, hd, Prog.fail_bind]
        · refine .inl ⟨.forbidden (js "caller does not own this tag") none,?_⟩
          simp only [Prog.bind, pure, Option.filter_some, hs, decide_true, ↓reduceIte, ho,
            ne_eq, not_false_eq_true]

/-- The one write of a call, and no row command behind it. -/
theorem writing_writes (dep : Deployment) (params : UpdateIdentityParams) :
    ∃ k, writing dep params =
        .call (.updateIdentity params.tag (profileData params.dto params.provided)) k ∧
      ∀ r, (k r).Always (fun c => writesRows c = false) := by
  refine ⟨_,rfl,fun r => ?_⟩
  cases r with
  | error e => exact trivial
  | ok row =>
    exact Prog.always_bind (Prog.always_bind trivial (fun _ =>
      Prog.always_bind (WriterPath.delete_always dep rfl) (fun _ => trivial))) (fun _ => trivial)

/-- A call about to write has read its own row, active and the caller's, and nothing else. -/
theorem write_after_read {params : UpdateIdentityParams} {es : List MirrorEntry} {c : Command}
    {k : Reply c → Async MirrorResult} (hc : writesRows c = true)
    (h : Follows (MirrorCall.body dep (.updateIdentity params)) es (.call c k)) :
    c = .updateIdentity params.tag (profileData params.dto params.provided) ∧
    ∃ who found row, es = [⟨who, found, .findUniqueIdentity params.tag, .ok (some row)⟩] ∧
      row.owner = params.ownerPubkey ∧ row.status = .active := by
  obtain ⟨k',hbody,hread⟩ := updateIdentity_reads dep params
  rw [hbody] at h
  rcases h.call_inv with ⟨_,hq⟩ | ⟨who,found,r,rest,rfl,hrest⟩
  · cases hq
    cases hc
  rcases hread r with ⟨e,hfail⟩ | ⟨row,rfl,ho,hs,hwriting⟩
  · rw [hfail] at hrest
    cases hrest.fail_inv.2
  obtain ⟨k'',hcall,hquiet⟩ := writing_writes dep params
  rw [hwriting, hcall] at hrest
  rcases hrest.call_inv with ⟨rfl,hq⟩ | ⟨_,_,r',_,_,hrest⟩
  · cases hq
    exact ⟨rfl,who,found,row,rfl,ho,hs⟩
  · cases hc.symm.trans (hrest.stands (hquiet r'))

/-- A call that has checked its row and not yet written it can still rely on the check. -/
def ChecksStand (pool : MirrorPool) : Prop :=
  ∀ params, Checked pool params → Held params (pool.shared.identities.find params.tag.text)

theorem Held.of_same {params : UpdateIdentityParams} {found found' : Option Identity}
    (h : Held params found) (hsame : ∀ row, found = some row → ∃ row', found' = some row' ∧
      row'.owner = row.owner ∧ row'.status = row.status) : Held params found' := by
  obtain ⟨row,hf,ho,hs⟩ := h
  obtain ⟨row',hf',ho',hs'⟩ := hsame row hf
  exact ⟨row',hf',ho'.trans ho,hs'.trans hs⟩

theorem checked_recorded {pool : MirrorPool} (hr : Recorded World.handle (MirrorCall.body dep) pool)
    {who : Nat} {params : UpdateIdentityParams} {tag : JsString} {data : IdentityData}
    {k : Reply (.updateIdentity tag data) → Async MirrorResult}
    (ht : pool.threads[who]? = some ⟨.updateIdentity params, .call (.updateIdentity tag data) k⟩) :
    ∃ found row, own pool.trace who =
        [⟨who, found, .findUniqueIdentity params.tag, .ok (some row)⟩] ∧
      row.owner = params.ownerPubkey ∧ row.status = .active := by
  obtain ⟨_,who',found,row,hown,ho,hs⟩ := write_after_read rfl (hr.follows who _ ht)
  have hmem : (⟨who', found, .findUniqueIdentity params.tag, .ok (some row)⟩ : MirrorEntry) ∈
      own pool.trace who := by
    rw [hown]
    exact List.mem_singleton_self _
  obtain rfl : who' = who := (mem_own.mp hmem).2
  exact ⟨found,row,hown,ho,hs⟩

theorem handle_find {w w' : World} {tag : JsString} {found : Option Identity}
    (h : w.handle (.findUniqueIdentity tag) = some (w', .ok found)) :
    w' = w ∧ w.identities.find tag = found := by
  simp only [World.handle] at h
  split at h
  · cases h
    exact ⟨rfl,rfl⟩
  · cases h

theorem step_checks {pool : MirrorPool} {event : OwnedEvent}
    (hr : Recorded World.handle (MirrorCall.body dep) pool) (hi : ChecksStand pool)
    (hu : Undisturbed dep pool event) : ChecksStand (step dep pool event) := by
  have hr' : Recorded World.handle (MirrorCall.body dep) (step dep pool event) :=
    step_recorded pool event hr
  intro params hchecked
  have hold : Checked pool params →
      Held params ((step dep pool event).shared.identities.find params.tag.text) :=
    fun hc => (hi params hc).of_same (hu params hc)
  obtain ⟨who,tag,data,k,ht⟩ := hchecked
  obtain ⟨found,row,hown,ho,hs⟩ := checked_recorded hr' ht
  rcases step_back pool event ht with hsame | ⟨c,k',rfl,_⟩ | hbody
  · exact hold ⟨who,tag,data,k,hsame⟩
  · rcases pool.turn_cases World.handle who with he | ⟨call,c,k',w',r,ht',hh,he⟩
    · refine hold ⟨who,tag,data,k,?_⟩
      rw [step, Pool.step, he] at ht
      exact ht
    -- the call has just read its row, and the reply it goes on with is the row that is there
    · have hpool : step dep pool (.turn who) = ⟨w',pool.threads.set who ⟨call, k' r⟩,
          pool.trace ++ [⟨who, pool.shared, c, r⟩]⟩ := he
      rw [hpool] at hown ⊢
      rw [own_append, own_self ⟨who, pool.shared, c, r⟩] at hown
      obtain ⟨_,hentry⟩ := List.append_inj' (hown.trans (List.nil_append _).symm) rfl
      cases hentry
      obtain ⟨rfl,hf⟩ := handle_find hh
      exact ⟨row,hf,ho,hs⟩
  · obtain ⟨k',hread,_⟩ := updateIdentity_reads dep params
    cases hbody.trans hread

theorem step_owners {pool : MirrorPool} {event : OwnedEvent}
    (hr : Recorded World.handle (MirrorCall.body dep) pool) (hi : ChecksStand pool)
    (ho : OwnersOnly pool) : OwnersOnly (step dep pool event) := by
  have hold : ∀ e ∈ pool.trace, ∀ params rest,
      (step dep pool event).threads[e.who]? = some ⟨.updateIdentity params, rest⟩ →
      ∀ tag, writes e.command e.reply = some tag →
        tag = params.tag.text ∧ Held params (e.found.identities.find tag) := by
    intro e he params rest ht
    obtain ⟨⟨call,before⟩,hbefore⟩ : ∃ t, pool.threads[e.who]? = some t :=
      ⟨_,List.getElem?_eq_getElem (hr.known e he)⟩
    obtain ⟨rest',hrest⟩ : ∃ rest', (step dep pool event).threads[e.who]? = some ⟨call, rest'⟩ :=
      step_call pool event hbefore
    cases ht.symm.trans hrest
    exact ho e he params before hbefore
  intro e he
  cases event with
  | spawn call => exact hold e he
  | outside what => exact hold e he
  | turn who =>
    rcases pool.turn_cases World.handle who with hstill | ⟨call,c,k,w',r,ht,hh,hturn⟩
    · refine hold e ?_
      rw [step, Pool.step, hstill] at he
      exact he
    · have hpool : step dep pool (.turn who) = ⟨w',pool.threads.set who ⟨call, k r⟩,
          pool.trace ++ [⟨who, pool.shared, c, r⟩]⟩ := hturn
      rw [hpool] at he
      rcases List.mem_append.mp he with he | he
      · exact hold e he
      · rw [List.mem_singleton.mp he]
        intro params rest hcall tag hw
        have hthread : pool.threads[who]? = some ⟨.updateIdentity params, .call c k⟩ := by
          rw [hpool] at hcall
          simp only at hcall
          rw [List.getElem?_set_self (List.getElem?_eq_some_iff.mp ht).1] at hcall
          cases hcall
          exact ht
        obtain ⟨rfl,_⟩ := write_after_read (ColumnOwnership.writesRows_of_writes hw)
          (hr.follows who _ hthread)
        cases r with
        | error e => cases hw
        | ok row =>
          cases hw
          exact ⟨rfl,hi params ⟨who,_,_,k,hthread⟩⟩

/-- Where no step takes a checked row from its owner or blocks it before it is written,
every profile write is made by the row's owner, and on an active row. -/
theorem written_by_owner (dep : Deployment) (w : World) (events : List OwnedEvent)
    (h : Along (step dep) (Undisturbed dep) (Pool.init w) events) :
    OwnersOnly (after dep w events) := by
  have hstart : ChecksStand (Pool.init w) := by
    rintro params ⟨who,tag,data,k,ht⟩
    cases ht
  have hrun : Recorded World.handle (MirrorCall.body dep) (after dep w events) ∧
      ChecksStand (after dep w events) ∧ OwnersOnly (after dep w events) := by
    apply run_invariant_along (I := fun pool : MirrorPool =>
      Recorded World.handle (MirrorCall.body dep) pool ∧ ChecksStand pool ∧ OwnersOnly pool) _ _ h
    · exact ⟨init_recorded w,hstart,fun e he => (by cases he)⟩
    · rintro pool event ⟨hr,hi,ho⟩ hu
      exact ⟨step_recorded pool event hr,step_checks hr hi hu,step_owners hr hi ho⟩
  exact hrun.2.2

theorem edit_kept {params : UpdateIdentityParams} {tag : JsString} {row : Identity}
    {found : Option Identity} (h : Moves dep (.updateIdentity params) tag (some row) found) :
    ∃ row', found = some row' ∧ row'.owner = row.owner ∧ row'.status = row.status := by
  cases h with
  | kept => exact ⟨row,rfl,rfl,rfl⟩
  | applied change _ is => cases is
  | edited params' _ is => exact ⟨_,rfl,rfl,rfl⟩
  | blocked _ is => cases is

/-- A profile edit leaves every row's owner and status alone, its own and any other's. -/
theorem edit_undisturbed {pool : MirrorPool}
    (hr : Recorded World.handle (MirrorCall.body dep) pool) {event : OwnedEvent}
    {params : UpdateIdentityParams} (h : Takes pool event (.updateIdentity params)) :
    Undisturbed dep pool event := by
  obtain ⟨who,rest,rfl,ht⟩ := h
  intro other _ row hf
  rcases step_shared (body_sends dep) hr (.turn who) with he | ⟨what,hw,_⟩ | ⟨call,c,r,hcall,hs,hh⟩
  · exact ⟨row,(congrArg (fun w => w.identities.find other.tag.text) he).trans hf,rfl,rfl⟩
  · cases hw
  · obtain ⟨_,rest',hevent,ht'⟩ := hcall
    cases hevent
    cases ht.symm.trans ht'
    have hm := handle_moves hs hh other.tag.text
    rw [hf] at hm
    exact edit_kept hm

theorem spawn_undisturbed {pool : MirrorPool} (call : MirrorCall) :
    Undisturbed dep pool (.spawn call) := fun _ _ row hf => ⟨row,hf,rfl,rfl⟩

theorem edits_undisturbed {pool : MirrorPool} {who : Nat} {params : UpdateIdentityParams}
    {rest : Async MirrorResult} (hr : Recorded World.handle (MirrorCall.body dep) pool)
    (ht : pool.threads[who]? = some ⟨.updateIdentity params, rest⟩) (n : Nat) :
    Along (step dep) (Undisturbed dep) pool (List.replicate n (.turn who)) := by
  induction n generalizing pool rest with
  | zero => exact trivial
  | succ n ih =>
    obtain ⟨rest',ht'⟩ := step_call pool (.turn who) ht
    exact ⟨edit_undisturbed hr ⟨who,rest,rfl,ht⟩,ih (step_recorded pool (.turn who) hr) ht'⟩

def heldNow (params : UpdateIdentityParams) (found : Option Identity) : Bool :=
  found.any (fun row => row.owner = params.ownerPubkey && row.status = .active)

/-- The entries that stand in the way of `OwnersOnly`. -/
def writesUnowned (pool : MirrorPool) (e : MirrorEntry) : Bool :=
  match pool.threads[e.who]?, writes e.command e.reply with
  | some ⟨.updateIdentity params, _⟩, some tag => !heldNow params (e.found.identities.find tag)
  | _, _ => false

theorem not_ownersOnly {pool : MirrorPool} (h : pool.trace.any (writesUnowned pool) = true) :
    ¬ OwnersOnly pool := by
  intro howners
  obtain ⟨e,he,hbad⟩ := List.any_eq_true.mp h
  unfold writesUnowned at hbad
  split at hbad
  · rename_i params rest tag ht hw
    obtain ⟨_,row,hf,ho,hs⟩ := howners e he params rest ht tag hw
    simp [heldNow, hf, ho, hs] at hbad
  · cases hbad

/-- The row of `abc`, Alice's. -/
def abcRow : Identity where
  tag := js "abc"
  owner := js "alice"
  wallet := js "alice"
  bump := 255
  displayName := none
  avatar := none
  bio := none
  preferredToken := none
  verified := false
  merchant := false
  status := .active
  lastAppliedSlot := 1
  createdAt := 0

def abcWorld : World := { World.fresh with identities := ⟨[abcRow], by simp⟩ }

/-- Alice sets her display name. -/
def aliceEdit : UpdateIdentityParams where
  tag := .abc
  ownerPubkey := js "alice"
  dto := ⟨some (js "mine"),none,none,none⟩
  provided := ⟨true,false,false,false⟩

/-- The chain hands `abc` to Bob. -/
def toBob : VerifiedTagChange := ⟨[],.abc,js "bob",js "bob",255,2⟩

def transferred : List OwnedEvent :=
  [.spawn (.updateIdentity aliceEdit),.turn 0,.spawn (.applyChange toBob),.turn 1,.turn 0]

def blockedMeanwhile : List OwnedEvent :=
  [.spawn (.updateIdentity aliceEdit),.turn 0,.outside (.blocks NormalizedTag.abc),.turn 0]

def abcAfter (events : List OwnedEvent) : MirrorPool := after .sample abcWorld events

/-- Bob's row gets the name that Alice chose, and a blocked row gets it too. -/
theorem written_by_former_owner :
    ((abcAfter transferred).shared.identities.find NormalizedTag.abc.text).map
        (fun row => (row.owner,row.displayName)) = some (js "bob",some (js "mine")) ∧
    ¬ OwnersOnly (abcAfter transferred) ∧
    ((abcAfter blockedMeanwhile).shared.identities.find NormalizedTag.abc.text).map
        (fun row => (row.status,row.displayName)) = some (.blocked,some (js "mine")) ∧
    ¬ OwnersOnly (abcAfter blockedMeanwhile) :=
  ⟨by decide,not_ownersOnly (by decide),by decide,
    not_ownersOnly (by decide)⟩

/-- Left alone, Alice's edit is written by Alice. -/
def alone : List OwnedEvent :=
  .spawn (.updateIdentity aliceEdit) :: List.replicate 3 (.turn 0)

theorem alone_along :
    Along (step .sample) (Undisturbed .sample) (Pool.init abcWorld) alone :=
  ⟨spawn_undisturbed _,edits_undisturbed (step_recorded _ _ (init_recorded abcWorld)) rfl 3⟩

theorem alone_owned :
    ((abcAfter alone).shared.identities.find NormalizedTag.abc.text).map
        (fun row => (row.owner,row.displayName)) = some (js "alice",some (js "mine")) ∧
    OwnersOnly (abcAfter alone) :=
  ⟨by decide,written_by_owner .sample abcWorld alone alone_along⟩

end Tagwise.Proofs.WriteTimeOwnership
