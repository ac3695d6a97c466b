import Tagwise.Api.Endpoints
import Tagwise.Proofs.WriterPath

/-! Two mirrors that differ in blocked rows only, and the same requests made of both. -/

namespace Tagwise.Proofs.BlockedInvisible
open Js Tagwise.Core Services Lib Api

def activeRows (identities : Identities) : List Identity :=
  identities.rows.filter (fun row => row.status = .active)

/-- The chain lookup of the tag ends in not found. -/
def NotOnChain (dep : Deployment) (w : World) (tag : JsString) : Prop :=
  ∃ pda bump, deriveTagPda dep.sol tag = .ok (pda, bump) ∧
    fromAccount dep (.ok (w.accountInfo pda)) = none

/-- One world but for the rows. The active ones are the same, and a name with a row on one
side only is not on the chain. -/
structure Alike (dep : Deployment) (s t : World) : Prop where
  rest : t = { s with identities := t.identities }
  active : (activeRows s.identities).Perm (activeRows t.identities)
  chain : ∀ tag : NormalizedTag,
    (s.identities.find tag.text).isSome ≠ (t.identities.find tag.text).isSome →
      NotOnChain dep s tag.text

variable {dep : Deployment} {s t : World}

theorem Alike.symm (h : Alike dep s t) : Alike dep t s where
  rest := by
    have hr := h.rest
    rw [hr]
  active := h.active.symm
  chain := by
    intro tag hne
    obtain ⟨pda,bump,hpda,hfrom⟩ := h.chain tag hne.symm
    have ha : t.accountInfo = s.accountInfo := by rw [h.rest]
    exact ⟨pda,bump,hpda,by rw [ha]; exact hfrom⟩

theorem Alike.up (h : Alike dep s t) : t.dbUp = s.dbUp := by rw [h.rest]

/-- No active row shows a difference. -/
theorem Alike.find (h : Alike dep s t) (tag : JsString) :
    (s.identities.find tag).filter (fun row => row.status = .active) =
      (t.identities.find tag).filter (fun row => row.status = .active) := by
  apply Option.ext
  intro row
  rw [Table.find_filter, Table.find_filter]
  exact and_congr_left' h.active.mem_iff

theorem Alike.find_active (h : Alike dep s t) {tag : JsString} {row : Identity}
    (hf : s.identities.find tag = some row) (ha : row.status = .active) :
    t.identities.find tag = some row := by
  have hs := h.find tag
  rw [hf, Option.filter_some, if_pos (by simpa using ha)] at hs
  exact (Option.filter_eq_some_iff.mp hs.symm).1

/-- The commands that have to do with rows. -/
def onRows : Command → Bool
  | .updateManyIdentity _ _ | .findUniqueIdentity _ | .findManyActiveTags | .updateIdentity _ _
  | .createIdentity _ => true
  | _ => false

/-- All other commands go the same way under any rows. -/
theorem handle_aside {c : Command} (hc : onRows c = false) (w : World) (identities : Identities) :
    ({ w with identities } : World).handle c =
      (w.handle c).map (fun r => ({ r.1 with identities }, r.2)) := by
  cases c <;> try cases hc
  all_goals
    simp only [World.handle, World.putKey]
    (repeat' split) <;> simp_all

theorem handle_aside_keeps {c : Command} (hc : onRows c = false) {w w' : World} {r : Reply c}
    (h : w.handle c = some (w', r)) :
    w'.identities = w.identities ∧ w'.accountInfo = w.accountInfo := by
  cases c <;> try cases hc
  all_goals
    simp only [World.handle, World.putKey] at h
    (repeat' split at h) <;> cases h <;> exact ⟨rfl,rfl⟩

theorem Alike.aside (h : Alike dep s t) {c : Command} (hc : onRows c = false) :
    Both (Equal (Alike dep)) (s.handle c) (t.handle c) := by
  rw [h.rest, handle_aside hc s t.identities]
  cases hs : s.handle c with
  | none => exact .stuck
  | some reply =>
    obtain ⟨s',r⟩ := reply
    obtain ⟨hi,ha⟩ := handle_aside_keeps hc hs
    refine .ended ⟨rfl,rfl,?_,?_⟩
    · simp only [hi]
      exact h.active
    · intro tag hne
      rw [hi] at hne
      obtain ⟨pda,bump,hpda,hfrom⟩ := h.chain tag hne
      exact ⟨pda,bump,hpda,by rw [ha]; exact hfrom⟩

abbrev Unseen (dep : Deployment) (p : Async α) : Prop := Prog.Twin World.handle (Alike dep) p

theorem unseen_aside {p : Async α} (hp : p.Always (fun c => onRows c = false)) : Unseen dep p :=
  Prog.twin_of_always (fun _ hc _ _ h => h.aside hc) hp

theorem findUnique_run (tag : JsString) (w : World) :
    (findUnique tag).run World.handle w =
      some (w, if w.dbUp then .ok (w.identities.find tag) else .error (.database .unavailable)) := by
  by_cases up : w.dbUp = true
  · rw [if_pos up]
    exact Prog.run_call (World.handle_findUnique up tag)
  · have hd : w.handle (.findUniqueIdentity tag) = some (w, .error .unavailable) := if_neg up
    rw [if_neg up]
    exact Prog.run_call hd

/-- A read of a row by its key, where the two sides may see different rows. -/
theorem findUnique_paired (tag : JsString) :
    Prog.Paired World.handle (Alike dep) (findUnique tag) (findUnique tag)
      (Prog.Agree (Alike dep) (fun a b s t =>
        Alike dep s t ∧ a = s.identities.find tag ∧ b = t.identities.find tag)) := by
  intro s t h
  rw [findUnique_run, findUnique_run, h.up]
  split
  · exact .ended ⟨h,rfl,rfl⟩
  · exact .ended ⟨rfl,h⟩

/-- What is read of active rows is the same on both sides. -/
theorem findActive_paired (tag : JsString) :
    Prog.Paired World.handle (Alike dep) (findActiveIdentity tag) (findActiveIdentity tag)
      (Prog.Agree (Alike dep) (fun a b s t => a = b ∧ Alike dep s t ∧
        a = (s.identities.find tag).filter (fun row => row.status = .active))) := by
  apply Prog.paired_bind (findUnique_paired tag)
  · intro a b
    apply Prog.paired_done
    intro s t hst
    obtain ⟨h,rfl,rfl⟩ := hst
    exact ⟨h.find tag,h,rfl⟩
  · exact fun e s t h => ⟨rfl,h⟩

theorem findActive_unseen (tag : JsString) : Unseen dep (findActiveIdentity tag) := by
  apply (findActive_paired tag).mono (fun _ _ h => h)
  intro x y s t h
  apply Prog.agree_equal.mp
  cases x <;> cases y
  case ok.ok => exact ⟨h.1,h.2.1⟩
  all_goals exact h

theorem identity_unseen (tag : NormalizedTag) : Unseen dep (identity tag) := by
  apply Prog.twin_bind (findActive_unseen tag.text)
  intro found
  cases found with
  | none => exact Prog.twin_fail _
  | some row => exact Prog.twin_done _

theorem linkOf_unseen (tag : NormalizedTag) : Unseen dep (linkOf dep tag) := by
  apply Prog.twin_bind (findActive_unseen tag.text)
  intro found
  cases found with
  | none => exact Prog.twin_fail _
  | some row => exact Prog.twin_done _

theorem lookup_hidden {w : World} {tag : JsString} (h : NotOnChain dep w tag) :
    (SolanaChainFallback.lookup dep tag).run World.handle w = some (w, .ok none) := by
  obtain ⟨pda,bump,hpda,hfrom⟩ := h
  rw [SolanaChainFallback.lookup, hpda]
  -- without an answer of the node there is no account either
  by_cases up : w.rpcUp = true
  · have hr : w.handle (.getAccountInfo pda) = some (w, .ok (w.accountInfo pda)) := if_pos up
    exact (Prog.run_call hr).trans (congrArg (fun found => some (w, Except.ok found)) hfrom)
  · have hr : w.handle (.getAccountInfo pda) = some (w, .error ()) := if_neg up
    exact Prog.run_call hr

/-- Blocked in the mirror, or missing from it and from the chain: one outcome. -/
theorem sourceRow_nothing {w : World} {tag : JsString} {row : Option Identity}
    (hrow : ∀ r, row = some r → r.status ≠ .active) (hnone : row = none → NotOnChain dep w tag) :
    (sourceRow dep tag row).run World.handle w = some (w, .ok (none, none)) := by
  cases row with
  | none =>
    rw [sourceRow, Prog.run_bind_ok (lookup_hidden (hnone rfl))]
    rfl
  | some r =>
    rw [sourceRow, if_neg (hrow r rfl)]
    rfl

theorem lookup_unseen (tag : JsString) : Unseen dep (sourceRow dep tag none) := by
  apply unseen_aside
  apply Prog.always_bind
  · rw [SolanaChainFallback.lookup]
    split
    · exact trivial
    · exact ⟨rfl,fun _ => trivial⟩
  · intro found
    split
    · exact Prog.always_ite trivial trivial
    · exact trivial

/-- The rows of a name on the two sides are one active row, or neither of them is active. -/
theorem sourceRow_paired (tag : NormalizedTag) (a b : Option Identity) :
    Prog.Paired World.handle
      (fun s t => Alike dep s t ∧ a = s.identities.find tag.text ∧ b = t.identities.find tag.text)
      (sourceRow dep tag a) (sourceRow dep tag b) (Equal (Alike dep)) := by
  intro s t hst
  obtain ⟨h,hs,ht⟩ := hst
  by_cases hnone : a = none ∧ b = none
  · obtain ⟨rfl,rfl⟩ := hnone
    exact lookup_unseen tag.text s t h
  · by_cases hactive : ∃ row, a = some row ∧ row.status = .active
    · obtain ⟨row,rfl,ha⟩ := hactive
      rw [ht, h.find_active hs.symm ha]
      exact .ended ⟨rfl,h⟩
    · have hb : ∀ row, b = some row → row.status ≠ .active := by
        rintro row rfl ha
        exact hactive ⟨row,hs.trans (h.symm.find_active ht.symm ha),ha⟩
      have hn : a = none ∨ b = none → NotOnChain dep s tag.text := by
        intro hor
        apply h.chain tag
        rw [← hs, ← ht]
        intro he
        cases a <;> cases b
        case none.none => exact hnone ⟨rfl,rfl⟩
        case some.some => rcases hor with h | h <;> cases h
        all_goals cases he
      have hn' : b = none → NotOnChain dep t tag.text := by
        intro he
        obtain ⟨pda,bump,hpda,hfrom⟩ := hn (.inr he)
        exact ⟨pda,bump,hpda,by rw [h.rest]; exact hfrom⟩
      rw [sourceRow_nothing (fun row he ha => hactive ⟨row,he,ha⟩) (fun he => hn (.inl he)),
        sourceRow_nothing hb hn']
      exact .ended ⟨rfl,h⟩

theorem cacheSet_aside (key : JsString) (value : CacheValue) (ttl : Option Nat) :
    (RedisCacheReader.set dep key value ttl).Always (fun c => onRows c = false) := by
  rw [RedisCacheReader.set]
  exact Prog.always_ite trivial ⟨rfl,fun _ => trivial⟩

theorem answerFrom_unseen (tag key : JsString) (source : Option Identity × Option Nat) :
    Unseen dep (answerFrom dep tag key source) := by
  apply unseen_aside
  obtain ⟨row,ttlOverride⟩ := source
  cases row with
  | none => exact Prog.always_bind (cacheSet_aside _ _ _) (fun _ => trivial)
  | some row => exact Prog.always_bind (cacheSet_aside _ _ _) (fun _ => trivial)

theorem resolveUncached_unseen (tag : NormalizedTag) (key : JsString) :
    Unseen dep (resolveUncached dep tag key) := by
  apply Prog.paired_bind (findUnique_paired tag.text)
  · intro a b
    apply Prog.paired_bind (M := Equal (Alike dep))
      ((sourceRow_paired tag a b).mono (fun _ _ h => h) (fun _ _ _ _ h => Prog.agree_equal.mpr h))
    · intro source _ s t hst
      obtain ⟨rfl,h⟩ := hst
      exact answerFrom_unseen tag.text key source s t h
    · exact fun e s t h => ⟨rfl,h⟩
  · exact fun e s t h => ⟨rfl,h⟩

theorem settled_unseen (result : Except Thrown α) : Unseen dep (settled result) := by
  cases result with
  | ok a => exact Prog.twin_done a
  | error e => exact Prog.twin_fail e

theorem settle_unseen {p : Async α} (hp : Unseen dep p) : Unseen dep (settle p) :=
  Prog.twin_tryCatch (Prog.twin_bind hp (fun _ => Prog.twin_done _)) (fun _ => Prog.twin_done _)

theorem cacheGet_unseen (key : JsString) : Unseen dep (RedisCacheReader.get dep key) := by
  apply unseen_aside
  rw [RedisCacheReader.get]
  refine Prog.always_ite trivial ⟨rfl,fun r => ?_⟩
  cases r with
  | ok value => exact trivial
  | error e => exact trivial

/-- A lookup that leads: its row may be read differently, its end is the same. -/
theorem resolve_unseen (server : Nat) (tag : NormalizedTag) : Unseen dep (resolve dep server tag) := by
  apply Prog.twin_bind (cacheGet_unseen _)
  intro cached
  cases cached with
  | some value =>
    cases value with
    | negative => exact Prog.twin_fail _
    | response cached => exact Prog.twin_done _
  | none =>
    apply Prog.twin_bind (p := enterFlight server _) (unseen_aside ⟨rfl,fun _ => trivial⟩)
    intro flight
    cases flight with
    | joins flight =>
      exact Prog.twin_bind (p := awaitFlight flight) (unseen_aside ⟨rfl,fun _ => trivial⟩)
        settled_unseen
    | leads flight =>
      apply Prog.twin_bind (settle_unseen (resolveUncached_unseen tag _))
      intro result
      exact Prog.twin_bind (p := leaveFlight server _ flight result)
        (unseen_aside ⟨rfl,fun _ => trivial⟩) (fun _ => settled_unseen result)

/-- Both sides have this active row under the tag. -/
structure Found (dep : Deployment) (row : Identity) (s t : World) : Prop where
  alike : Alike dep s t
  active : row.status = .active
  found : s.identities.find row.tag = some row

theorem Found.symm {row : Identity} (h : Found dep row s t) : Found dep row t s :=
  ⟨h.alike.symm,h.active,h.alike.find_active h.found h.active⟩

/-- The checks on free text send nothing. -/
theorem checkFreeText_unseen (I : World → World → Prop) (field : JsString)
    (text : Option JsString) : Prog.Twin World.handle I (checkFreeText dep field text) :=
  Prog.twin_of_always (P := fun _ => False) (fun _ h => h.elim)
    (WriterPath.checkFreeText_always dep field text)

/-- A write that leaves the status alone keeps the sides alike. -/
theorem Alike.write (h : Alike dep s t) (tag : JsString) {data : IdentityData}
    (hd : data.status = none) :
    Alike dep (s.updateManyIdentity { tag } data) (t.updateManyIdentity { tag } data) := by
  have hkind : ∀ row : Identity, decide ((data.apply row).status = .active) =
      decide (row.status = .active) := by
    intro row
    rw [IdentityData.apply, hd]
    rfl
  refine ⟨?_,?_,?_⟩
  · rw [h.rest]
    rfl
  · have hw : ∀ w : World, activeRows (w.updateManyIdentity { tag } data).identities =
        (activeRows w.identities).map (fun row =>
          if (IdentityWhere.selects { tag } row) then data.apply row else row) :=
      fun w => Table.filter_updateMany w.identities data.apply_tag hkind
    rw [hw, hw]
    exact h.active.map _
  · intro key hne
    simp only [World.updateManyIdentity, Table.find_updateMany, Option.isSome_map] at hne
    exact h.chain key hne

theorem update_run {w : World} {row : Identity} (hf : w.identities.find row.tag = some row)
    (data : IdentityData) : (update row.tag data).run World.handle w =
      if w.dbUp then
        if data.storable then
          some (w.updateManyIdentity { tag := row.tag } data, .ok (data.apply row))
        else some (w, .error (.database .invalidText))
      else some (w, .error (.database .unavailable)) := by
  by_cases up : w.dbUp = true
  · rw [if_pos up]
    by_cases hs : data.storable = true
    · have hu : w.handle (.updateIdentity row.tag data) =
          some (w.updateManyIdentity { tag := row.tag } data, .ok (data.apply row)) := by
        simp only [World.handle, if_pos up, if_pos hs, hf]
      rw [if_pos hs]
      exact Prog.run_call hu
    · have hi : w.handle (.updateIdentity row.tag data) = some (w, .error .invalidText) :=
        (if_pos up).trans (if_neg hs)
      rw [if_neg hs]
      exact Prog.run_call hi
  · have hd : w.handle (.updateIdentity row.tag data) = some (w, .error .unavailable) := if_neg up
    rw [if_neg up]
    exact Prog.run_call hd

theorem update_paired (row : Identity) {data : IdentityData} (hd : data.status = none) :
    Prog.Paired World.handle (Found dep row) (update row.tag data) (update row.tag data)
      (Equal (Alike dep)) := by
  intro s t h
  rw [update_run h.found, update_run h.symm.found, h.alike.up]
  split
  · split
    · exact .ended ⟨rfl,h.alike.write row.tag hd⟩
    · exact .ended ⟨rfl,h.alike⟩
  · exact .ended ⟨rfl,h.alike⟩

theorem updateIdentity_unseen (params : UpdateIdentityParams) :
    Unseen dep (updateIdentity dep params) := by
  apply Prog.paired_bind (findActive_paired params.tag.text) ?_ (fun e s t h => ⟨rfl,h⟩)
  intro found found'
  cases found with
  | none =>
    intro s t hst
    obtain ⟨rfl,h,-⟩ := hst
    exact .ended ⟨rfl,h⟩
  | some row =>
    intro s t hst
    obtain ⟨rfl,h,hrow⟩ := hst
    obtain ⟨hfind,hactive⟩ := Option.filter_eq_some_iff.mp hrow.symm
    obtain ⟨-,htag⟩ := Table.find_mem hfind
    have hfound : Found dep row s t := ⟨h,by simpa using hactive,by rw [htag]; exact hfind⟩
    refine (?_ : Prog.Paired World.handle (Found dep row) _ _ (Equal (Alike dep))) s t hfound
    simp only
    split
    · exact Prog.paired_fail (fun s t h => ⟨rfl,h.alike⟩)
    · refine Prog.equal_bind (checkFreeText_unseen _ _ _) (fun s t h => h.alike) (fun _ => ?_)
      refine Prog.equal_bind (checkFreeText_unseen _ _ _) (fun s t h => h.alike) (fun _ => ?_)
      rw [← htag]
      refine Prog.twin_bind (update_paired row rfl) (fun updated => ?_)
      exact Prog.twin_bind (unseen_aside (WriterPath.delete_always dep rfl))
        (fun _ => Prog.twin_done _)

structure Level (dep : Deployment) (s t : ApiWorld) : Prop where
  mirror : Alike dep s.mirror t.mirror
  node : t.node = s.node
  order : t.order = s.order

abbrev Hidden (dep : Deployment) (p : ApiAsync α) : Prop := Prog.Twin ApiWorld.handle (Level dep) p

/-- What holds of the mirrors after a relayed call holds of them within the servers. -/
theorem relay_paired {p : Async α} {q : Async β} {M : α → β → World → World → Prop}
    (h : Prog.Paired World.handle (Alike dep) p q (Prog.Agree (Alike dep) M)) :
    Prog.Paired ApiWorld.handle (Level dep) (relay p) (relay q)
      (Prog.Agree (Level dep) (fun a b s t =>
        M a b s.mirror t.mirror ∧ t.node = s.node ∧ t.order = s.order)) := by
  intro s t hst
  obtain ⟨hm,hn,ho⟩ := hst
  have hb := h s.mirror t.mirror hm
  rw [run_relay, run_relay]
  generalize p.run World.handle s.mirror = a at hb
  generalize q.run World.handle t.mirror = b at hb
  cases hb with
  | stuck => exact .stuck
  | @ended s' t' x y h =>
    refine .ended ?_
    cases x <;> cases y
    case ok.ok a b => exact ⟨h,hn,ho⟩
    case error.error e e' => exact ⟨congrArg ApiError.thrown h.1,h.2,hn,ho⟩
    all_goals exact h

theorem relay_hidden {p : Async α} (h : Unseen dep p) : Hidden dep (relay p) := by
  have hr := relay_paired (h.mono (fun _ _ h => h) (fun _ _ _ _ h => Prog.agree_equal.mpr h))
  apply hr.mono (fun _ _ h => h)
  intro x y s t h
  apply Prog.agree_equal.mp
  cases x <;> cases y
  case ok.ok a b => exact ⟨h.1.1,h.1.2,h.2.1,h.2.2⟩
  all_goals exact h

/-- The commands beside those of the mirror. -/
def ownCommand : ApiCommand → Bool
  | .mirror _ => false
  | _ => true

theorem own_readOnly {c : ApiCommand} (hc : ownCommand c = true) (w : ApiWorld) :
    ∃ r, w.handle c = some (w, r) := by
  cases c with
  | mirror c => cases hc
  | _ => exact ⟨_,rfl⟩

theorem own_replies {s t : ApiWorld} (h : Level dep s t) {c : ApiCommand}
    (hc : ownCommand c = true) : Both (Equal (Level dep)) (s.handle c) (t.handle c) := by
  have hrpc : ∀ (α : Type) (answer : RpcNode → α), t.rpc answer = s.rpc answer := by
    intro α answer
    rw [ApiWorld.rpc, h.node, h.mirror.rest]
    rfl
  cases c with
  | mirror c => cases hc
  | findManyActive query cond take =>
    refine .ended ⟨?_,h⟩
    have hu : (((activeRows s.mirror.identities).filter cond).map Identity.tag).Nodup :=
      s.mirror.identities.unique.sublist
        ((List.filter_sublist.trans List.filter_sublist).map Identity.tag)
    have ha := s.order.agrees _ _ hu (h.mirror.active.filter cond)
    unfold activeRows at ha
    rw [ha, h.order, h.mirror.up]
  | _ => exact .ended ⟨(hrpc _ _).symm,h⟩

theorem own_hidden {p : ApiAsync α} (hp : p.Always (fun c => ownCommand c = true)) :
    Hidden dep p :=
  Prog.twin_of_always (fun _ hc _ _ h => own_replies h hc) hp

theorem param_always {P : ApiCommand → Prop} (raw : JsString) :
    (normalizeTagParamOrThrow raw).Always P := by
  rw [normalizeTagParamOrThrow]
  split <;> exact trivial

theorem built_always {P : ApiCommand → Prop} (result : Except BuildError α) :
    (built result).Always P := by
  cases result <;> exact trivial

theorem awaitRpc_always {P : ApiCommand → Prop} {p : ApiAsync (Except Unit α)} (h : p.Always P) :
    (awaitRpc p).Always P := by
  refine Prog.always_bind h (fun r => ?_)
  cases r <;> exact trivial

theorem param_hidden (raw : JsString) : Hidden dep (normalizeTagParamOrThrow raw) :=
  own_hidden (param_always raw)

/-- A check of the status looks at active rows only. -/
theorem activeOrThrow_filter (error : Thrown) (found : Option Identity) :
    activeOrThrow error found =
      activeOrThrow error (found.filter (fun row => row.status = .active)) := by
  cases found with
  | none => rfl
  | some row =>
    by_cases ha : row.status = .active
    · rw [Option.filter_some, if_pos (decide_eq_true ha)]
    · rw [Option.filter_some, if_neg (by simpa using ha)]
      exact if_pos ha

/-- Every endpoint that reads a row and checks its status before all else. -/
theorem row_hidden (tag : NormalizedTag) (error : Thrown) {f : Identity → ApiAsync α}
    (hf : ∀ row, Hidden dep (f row)) :
    Hidden dep (relay (findUnique tag) >>= fun found => activeOrThrow error found >>= f) := by
  apply Prog.paired_bind (relay_paired (findUnique_paired tag.text)) ?_ (fun e s t h => ⟨rfl,h⟩)
  intro a b s t hst
  obtain ⟨⟨h,rfl,rfl⟩,hn,ho⟩ := hst
  rw [activeOrThrow_filter, activeOrThrow_filter error (t.mirror.identities.find _), h.find]
  refine Prog.twin_bind (own_hidden ?_) hf s t ⟨h,hn,ho⟩
  cases Option.filter _ (t.mirror.identities.find tag.text) with
  | none => exact trivial
  | some row => exact Prog.always_ite trivial trivial

theorem guard_hidden (authPubkey rawTag : JsString) :
    Hidden dep (TagOwnershipGuard.canActivate authPubkey rawTag) := by
  rw [TagOwnershipGuard.canActivate]
  split
  · exact Prog.twin_fail _
  · refine Prog.twin_bind (param_hidden rawTag) (fun tag => row_hidden tag _ (fun row => ?_))
    exact own_hidden (Prog.always_ite trivial trivial)

theorem updateWallet_hidden (cfg : ApiConfig) (tag : NormalizedTag)
    (ownerPubkey newWallet : JsString) :
    Hidden dep (WalletUpdateService.buildTransaction cfg tag ownerPubkey newWallet) := by
  refine row_hidden tag _ (fun row => own_hidden ?_)
  rw [WalletUpdateService.buildFor]
  refine Prog.always_ite trivial (Prog.always_ite trivial ?_)
  exact Prog.always_bind (awaitRpc_always ⟨rfl,fun _ => trivial⟩)
    (fun _ => Prog.always_bind (built_always _) (fun _ => trivial))

theorem search_hidden (cfg : ApiConfig) (rawQuery : JsString) :
    Hidden dep (search cfg rawQuery) := by
  apply own_hidden
  rw [search]
  refine Prog.always_ite trivial (Prog.always_bind ⟨rfl,fun r => ?_⟩ (fun _ => trivial))
  cases r <;> exact trivial

def takenResult : NamingGateResult := ⟨false,.alreadyRegistered⟩

theorem gate_paired (tag : NormalizedTag) :
    Prog.Paired World.handle (Alike dep) (checkNamingGate dep tag) (checkNamingGate dep tag)
      (Prog.Agree (Alike dep) (fun a b s t =>
        (a = b ∨ a = takenResult ∨ b = takenResult) ∧ Alike dep s t)) := by
  rw [checkNamingGate]
  split
  · exact Prog.paired_fail (fun _ _ h => ⟨rfl,h⟩)
  · exact Prog.paired_done (fun _ _ h => ⟨.inl rfl,h⟩)
  · exact Prog.paired_done (fun _ _ h => ⟨.inl rfl,h⟩)
  · apply Prog.paired_bind (findUnique_paired tag.text) ?_ (fun e s t h => ⟨rfl,h⟩)
    intro a b s t hst
    obtain ⟨h,-,-⟩ := hst
    cases a <;> cases b
    case none.none => exact .ended ⟨.inl rfl,h⟩
    case none.some => exact .ended ⟨.inr (.inr rfl),h⟩
    case some.none => exact .ended ⟨.inr (.inl rfl),h⟩
    case some.some => exact .ended ⟨.inl rfl,h⟩

theorem checkFeePayer_always {P : ApiCommand → Prop} (kit : Kit) (feePayer : Nullish JsString) :
    (checkFeePayer kit feePayer).Always P := by
  cases feePayer with
  | undefined | null => exact trivial
  | value feePayer => exact Prog.always_ite trivial trivial

theorem registerFree_always (cfg : ApiConfig) (params : RegisterParams) (tag : NormalizedTag) :
    (registerFree cfg params tag).Always (fun c => ownCommand c = true) := by
  rw [registerFree]
  refine Prog.always_ite trivial (Prog.always_bind (checkFeePayer_always _ _) (fun _ => ?_))
  refine Prog.always_bind (awaitRpc_always ⟨rfl,fun _ => trivial⟩) (fun blockhash => ?_)
  refine Prog.always_bind (built_always _) (fun tx => Prog.always_bind ?_ (fun _ => trivial))
  refine Prog.always_bind (awaitRpc_always ⟨rfl,fun _ => trivial⟩) (fun rent => ?_)
  refine Prog.always_bind (awaitRpc_always ⟨rfl,fun _ => trivial⟩) (fun fee => ?_)
  refine Prog.always_bind (built_always _) (fun payer => ?_)
  exact Prog.always_bind (awaitRpc_always ⟨rfl,fun _ => trivial⟩)
    (fun balance => Prog.always_ite trivial trivial)

theorem registerGated_always (cfg : ApiConfig) (params : RegisterParams) (tag : NormalizedTag)
    (gateResult : NamingGateResult) :
    (registerGated cfg params tag gateResult).Always (fun c => ownCommand c = true) := by
  rw [registerGated]
  exact Prog.always_ite (Prog.always_ite trivial trivial) (registerFree_always cfg params tag)

/-- `already_registered`, as each of the two endpoints that ask for free names puts it. -/
def SaysTaken : ApiRequest → Option (Except ApiError ApiAnswer) → Prop
  | .availability rawTag, answer => ∃ tag, normalizeTag rawTag = .accepted tag ∧
      answer = some (.ok (.availability
        ⟨presentTag tag.text, false, NamingGateReason.alreadyRegistered.text⟩))
  | .register _, answer => answer = some (.error alreadyRegistered)
  | _, _ => False

/-- One answer for both sides, but that one side may answer `already_registered`. -/
def Indistinct (request : ApiRequest) (a b : Option (Except ApiError ApiAnswer)) : Prop :=
  a = b ∨ SaysTaken request a ∨ SaysTaken request b

/-- What the two sides end a request in. -/
def Answered (dep : Deployment) (request : ApiRequest) (x y : Except ApiError ApiAnswer)
    (s t : ApiWorld) : Prop := Indistinct request (some x) (some y) ∧ Level dep s t

theorem answered_of_hidden (request : ApiRequest) {p : ApiAsync ApiAnswer} (h : Hidden dep p) :
    Prog.Paired ApiWorld.handle (Level dep) p p (Answered dep request) :=
  h.mono (fun _ _ h => h) (fun _ _ _ _ h => ⟨.inl (congrArg some h.1),h.2⟩)

theorem availability_paired (rawTag : JsString) :
    Prog.Paired World.handle (Alike dep) (availability dep rawTag) (availability dep rawTag)
      (Prog.Agree (Alike dep) (fun a b s t => (a = b ∨ ∃ tag, normalizeTag rawTag = .accepted tag ∧
        (a = ⟨presentTag tag.text, false, NamingGateReason.alreadyRegistered.text⟩ ∨
          b = ⟨presentTag tag.text, false, NamingGateReason.alreadyRegistered.text⟩)) ∧
        Alike dep s t)) := by
  rw [availability]
  split
  · exact Prog.paired_done (fun _ _ h => ⟨.inl rfl,h⟩)
  · next tag hn =>
    apply Prog.paired_bind (gate_paired tag) ?_ (fun e s t h => ⟨rfl,h⟩)
    intro a b s t hst
    rcases hst with ⟨rfl | rfl | rfl,h⟩
    · exact .ended ⟨.inl rfl,h⟩
    · exact .ended ⟨.inr ⟨tag,hn,.inl rfl⟩,h⟩
    · exact .ended ⟨.inr ⟨tag,hn,.inr rfl⟩,h⟩

theorem availability_answered (cfg : ApiConfig) (server : Nat) (rawTag : JsString) :
    Prog.Paired ApiWorld.handle (Level cfg.dep) ((ApiRequest.availability rawTag).body cfg server)
      ((ApiRequest.availability rawTag).body cfg server) (Answered cfg.dep (.availability rawTag)) := by
  apply Prog.paired_bind (relay_paired (availability_paired rawTag)) ?_
    (fun e s t h => ⟨.inl rfl,h⟩)
  intro a b s t hst
  rcases hst with ⟨⟨rfl | ⟨tag,hn,rfl | rfl⟩,h⟩,hrest⟩
  · exact .ended ⟨.inl rfl,h,hrest.1,hrest.2⟩
  · exact .ended ⟨.inr (.inl ⟨tag,hn,rfl⟩),h,hrest.1,hrest.2⟩
  · exact .ended ⟨.inr (.inr ⟨tag,hn,rfl⟩),h,hrest.1,hrest.2⟩

/-- Behind the gate nothing is written, so a side that goes on leaves no trace either. -/
theorem registerGated_answered (cfg : ApiConfig) (params : RegisterParams) (tag : NormalizedTag)
    {a b : NamingGateResult} (hab : a = b ∨ a = takenResult ∨ b = takenResult) :
    Prog.Paired ApiWorld.handle (Level dep)
      (do return ApiAnswer.transaction (← registerGated cfg params tag a))
      (do return ApiAnswer.transaction (← registerGated cfg params tag b))
      (Answered dep (.register params)) := by
  have hall : ∀ g, (do return ApiAnswer.transaction (← registerGated cfg params tag g) :
      ApiAsync ApiAnswer).Always (fun c => ownCommand c = true) := fun g =>
    Prog.always_bind (registerGated_always cfg params tag g) (fun _ => trivial)
  have hread : ∀ g, Prog.ReadOnly ApiWorld.handle
      (do return ApiAnswer.transaction (← registerGated cfg params tag g) : ApiAsync ApiAnswer) :=
    fun g => Prog.readOnly_of_always (fun _ hc w => own_readOnly hc w) (hall g)
  have htaken : ∀ t, (do return ApiAnswer.transaction (← registerGated cfg params tag takenResult) :
      ApiAsync ApiAnswer).run ApiWorld.handle t = some (t, .error alreadyRegistered) :=
    fun t => rfl
  rcases hab with rfl | rfl | rfl
  · exact answered_of_hidden _ (own_hidden (hall a))
  · intro s t h
    obtain ⟨y,hy⟩ := hread b t
    rw [htaken, hy]
    exact .ended ⟨.inr (.inl rfl),h⟩
  · exact Prog.paired_ended (hread a) htaken (fun y s t h => ⟨.inr (.inr rfl),h⟩)

theorem register_answered (cfg : ApiConfig) (server : Nat) (params : RegisterParams) :
    Prog.Paired ApiWorld.handle (Level cfg.dep) ((ApiRequest.register params).body cfg server)
      ((ApiRequest.register params).body cfg server) (Answered cfg.dep (.register params)) := by
  have hbody : (ApiRequest.register params).body cfg server =
      (normalizeTagParamOrThrow params.rawTag >>= fun tag => relay (checkNamingGate cfg.dep tag) >>=
        fun gateResult => do
          return .transaction (← registerGated cfg params tag gateResult)) := by
    simp only [ApiRequest.body, register, Prog.bind_assoc]
  rw [hbody]
  apply Prog.paired_bind (M := Equal (Level cfg.dep)) ?_ ?_ (fun e s t h => ⟨.inl rfl,h⟩)
  · exact (param_hidden params.rawTag).mono (fun _ _ h => h)
      (fun _ _ _ _ h => Prog.agree_equal.mpr h)
  · intro tag _ s t hst
    obtain ⟨rfl,h⟩ := hst
    refine Prog.paired_bind (relay_paired (gate_paired tag)) ?_ (fun e s t h => ⟨.inl rfl,h⟩) s t h
    intro a b s t hst
    obtain ⟨⟨hab,h⟩,hn,ho⟩ := hst
    exact registerGated_answered cfg params tag hab s t ⟨h,hn,ho⟩

/-- One request, on two servers whose mirrors differ in blocked rows. -/
theorem request_answered (cfg : ApiConfig) (server : Nat) (request : ApiRequest) :
    Prog.Paired ApiWorld.handle (Level cfg.dep) (request.body cfg server) (request.body cfg server)
      (Answered cfg.dep request) := by
  have htag : ∀ (rawTag : JsString) {f : NormalizedTag → ApiAsync ApiAnswer},
      (∀ tag, Hidden cfg.dep (f tag)) → Hidden cfg.dep (normalizeTagParamOrThrow rawTag >>= f) :=
    fun rawTag _ hf => Prog.twin_bind (param_hidden rawTag) hf
  have hrelay : ∀ {α : Type} {p : Async α} (f : α → ApiAnswer), Unseen cfg.dep p →
      Hidden cfg.dep (do return f (← relay p)) :=
    fun f hp => Prog.twin_bind (relay_hidden hp) (fun _ => Prog.twin_done _)
  cases request with
  | resolve rawTag =>
    exact answered_of_hidden _ (htag rawTag (fun tag => hrelay .resolved (resolve_unseen server tag)))
  | identity rawTag =>
    exact answered_of_hidden _ (htag rawTag (fun tag => hrelay .identity (identity_unseen tag)))
  | qr rawTag =>
    exact answered_of_hidden _ (htag rawTag (fun tag => hrelay .link (linkOf_unseen tag)))
  | paymentLink rawTag =>
    exact answered_of_hidden _ (htag rawTag (fun tag => hrelay .link (linkOf_unseen tag)))
  | search rawQuery =>
    exact answered_of_hidden _ (Prog.twin_bind (search_hidden cfg rawQuery)
      (fun _ => Prog.twin_done _))
  | updateIdentity rawTag authPubkey dto provided =>
    refine answered_of_hidden _ (Prog.twin_bind (guard_hidden authPubkey rawTag) (fun _ => ?_))
    exact htag rawTag (fun tag => hrelay .identity (updateIdentity_unseen _))
  | updateWallet rawTag authPubkey wallet =>
    refine answered_of_hidden _ (Prog.twin_bind (guard_hidden authPubkey rawTag) (fun _ => ?_))
    exact htag rawTag (fun tag => Prog.twin_bind (updateWallet_hidden cfg tag authPubkey wallet)
      (fun _ => Prog.twin_done _))
  | availability rawTag => exact availability_answered cfg server rawTag
  | register params => exact register_answered cfg server params

theorem Level.weather {s t : ApiWorld} (h : Level dep s t) (weather : ApiWeather) :
    Level dep (weather.act s) (weather.act t) := by
  obtain ⟨⟨hrest,hactive,hchain⟩,hn,ho⟩ := h
  cases weather with
  | node latest => exact ⟨⟨hrest,hactive,hchain⟩,rfl,ho⟩
  | order latest => exact ⟨⟨hrest,hactive,hchain⟩,hn,rfl⟩
  | _ => exact ⟨⟨by simp only [ApiWeather.act, ApiWorld.withMirror, World.putKey]; rw [hrest],
      hactive,hchain⟩,hn,ho⟩

/-- What the two sides show of one event. -/
inductive Shown : Option ApiOutput → Option ApiOutput → Prop
  | weather : Shown none none
  | request (request : ApiRequest) {a b : Option (Except ApiError ApiAnswer)}
      (h : Indistinct request a b) : Shown (some (request, a)) (some (request, b))

theorem serve_shown (cfg : ApiConfig) {s t : ApiWorld} (event : ApiEvent)
    (h : Level cfg.dep s t) : Level cfg.dep (s.serve cfg event).1 (t.serve cfg event).1 ∧
      Shown (s.serve cfg event).2 (t.serve cfg event).2 := by
  cases event with
  | weather weather => exact ⟨h.weather weather,.weather⟩
  | request server request =>
    have ha := request_answered cfg server request s t h
    rw [ApiWorld.serve, ApiWorld.serve]
    generalize (request.body cfg server).run ApiWorld.handle s = a at ha
    generalize (request.body cfg server).run ApiWorld.handle t = b at ha
    cases ha with
    | stuck => exact ⟨h,.request request (.inl rfl)⟩
    | ended ha => exact ⟨ha.2,.request request ha.1⟩

/-- Callers who see every answer of a server do not learn which rows are blocked, or what
is in them, but for the two endpoints that refuse a taken name. -/
theorem blocked_invisible (cfg : ApiConfig) (w : ApiWorld) (mirror₁ mirror₂ : Identities)
    (hactive : (activeRows mirror₁).Perm (activeRows mirror₂))
    (hchain : ∀ tag : NormalizedTag,
      (mirror₁.find tag.text).isSome ≠ (mirror₂.find tag.text).isSome →
        NotOnChain cfg.dep w.mirror tag.text)
    (events : List ApiEvent) :
    List.Forall₂ Shown ((w.withRows mirror₁).answers cfg events)
      ((w.withRows mirror₂).answers cfg events) := by
  have h : Level cfg.dep (w.withRows mirror₁) (w.withRows mirror₂) :=
    ⟨⟨rfl,hactive,hchain⟩,rfl,rfl⟩
  exact outputs_related (fun _ _ event h => serve_shown cfg event h) h events

def sampleRow (tag : String) (status : IdentityStatus) : Identity where
  tag := js tag
  owner := js "owner"
  wallet := js "wallet"
  bump := 254
  displayName := some (js "Name")
  avatar := none
  bio := none
  preferredToken := none
  verified := false
  merchant := false
  status := status
  lastAppliedSlot := 1
  createdAt := 0

def moderatedRows : Identities :=
  ⟨[sampleRow "abc" .active, sampleRow "daniel" .blocked],by decide⟩

def plainRows : Identities := ⟨[sampleRow "abc" .active],by decide⟩

def sampleConfig : ApiConfig where
  dep := .sample
  kit := ⟨fun _ => true,fun _ => none,fun _ => none,fun _ _ _ => false,fun _ => none⟩
  codecs := ⟨fun _ => [],fun _ => [],fun encoder _ => encoder,fun _ => .error .encoding⟩
  tipRegistryProgramId := js "program"
  messageBase64 := fun _ => []
  getBase64EncodedWireTransaction := fun _ => []
  tagStartsWith := fun tag query => query.isPrefixOf tag
  displayNameContains := fun name query => query.isPrefixOf (toLowerCase name)

def sampleWorld : ApiWorld where
  mirror := World.fresh
  node := ⟨⟨js "11111111111111111111111111111111",0⟩,fun _ => 0,fun _ => none,fun _ => 0⟩
  order := .byTag

/-- Two lookups of a blocked name, one cached, a search that its row would match, and the
question whether it is free. -/
def sampleEvents : List ApiEvent :=
  [.resolve (js "daniel"), .resolve (js "@Daniel"), .search (js "name"), .qr (js "abc"),
    .availability (js "daniel")].map (.request 0)

theorem sample_invisible : List.Forall₂ Shown
    ((sampleWorld.withRows moderatedRows).answers sampleConfig sampleEvents)
    ((sampleWorld.withRows plainRows).answers sampleConfig sampleEvents) := by
  apply blocked_invisible sampleConfig sampleWorld moderatedRows plainRows (.of_eq rfl)
  intro tag hne
  by_cases ht : tag.text = js "daniel"
  · have hpda : deriveTagPda sampleConfig.dep.sol (js "daniel") =
        .ok (Program.base58 Program.danielAddress, 254) := by decide
    rw [ht]
    exact ⟨_,_,hpda,rfl⟩
  · refine absurd ?_ hne
    have hd : ¬js "daniel" = tag.text := fun he => ht he.symm
    simp [moderatedRows, plainRows, Table.find, sampleRow, List.find?_cons, hd]

example : (sampleWorld.withRows moderatedRows).answers sampleConfig
    [.request 0 (.availability (js "daniel"))] ≠ (sampleWorld.withRows plainRows).answers sampleConfig
    [.request 0 (.availability (js "daniel"))] := by decide

end Tagwise.Proofs.BlockedInvisible
