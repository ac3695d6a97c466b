import Tagwise.Proofs.Journey
import Tagwise.Proofs.WriteTimeOwnership

/-! A name that the moderation gate refuses never shows in the mirror. -/

namespace Tagwise.Proofs.Screening
open Js Tagwise.Core Services Lib Api Protocol
open Indexer (shouldBlockTag)

variable (dep : Deployment)

/-- The gate lets the name be shown. -/
def Clean (tag : JsString) : Prop := shouldBlockTag dep.engine tag = false

/-- The row is blocked if the gate refuses its name. -/
def Screened (row : Identity) : Prop := row.status = .active → Clean dep row.tag

/-- No row is made active again, and none is created active under a refused name. -/
def May : Command → Prop
  | .updateManyIdentity _ data | .updateIdentity _ data => data.status ≠ some .active
  | .createIdentity data => data.status ≠ some .blocked → Clean dep data.tag
  | _ => True

def Told : (c : Command) → Reply c → Prop
  | .findUniqueIdentity tag, .ok (some row) => row.tag = tag ∧ Screened dep row
  | _, _ => True

def ApiMay : ApiCommand → Prop
  | .mirror c => May dep c
  | _ => True

def ApiTold : (c : ApiCommand) → ApiReply c → Prop
  | .mirror c, r => Told dep c r
  | .findManyActive _ _ _, .ok rows => ∀ row ∈ rows, Clean dep row.tag
  | _, _ => True

/-- The mirror shows no refused name. -/
def Decent (w : World) : Prop := ∀ row ∈ w.identities.rows, Screened dep row

variable {dep : Deployment}

theorem screened_apply {data : IdentityData} (hd : data.status ≠ some .active) {row : Identity}
    (h : Screened dep row) : Screened dep (data.apply row) := by
  intro hactive
  apply h
  cases hs : data.status with
  | none => simpa [IdentityData.apply, hs] using hactive
  | some status =>
    cases status with
    | active => exact absurd hs hd
    | blocked => simp [IdentityData.apply, hs] at hactive

theorem handle_decent {w w' : World} {c : Command} {r : Reply c} (h : Decent dep w)
    (hmay : May dep c) (hh : w.handle c = some (w', r)) : Decent dep w' := by
  by_cases hc : ColumnOwnership.writesRows c = true
  · intro row hrow
    have hfind := Table.find_of_mem hrow
    have hold : w.identities.find row.tag = some row → Screened dep row :=
      fun hf => h row (Table.find_mem hf).1
    cases c with
    | updateManyIdentity cond data =>
      rcases ColumnOwnership.handle_updateMany_rows hh row.tag with he | ⟨old,_,hf,hf'⟩
      · exact hold (he ▸ hfind)
      · cases hf'.symm.trans hfind
        exact screened_apply hmay (h old (Table.find_mem hf).1)
    | updateIdentity tag data =>
      rcases ColumnOwnership.handle_update_rows hh row.tag with he | ⟨old,_,hf,hf'⟩
      · exact hold (he ▸ hfind)
      · cases hf'.symm.trans hfind
        exact screened_apply hmay (h old (Table.find_mem hf).1)
    | createIdentity data =>
      rcases ColumnOwnership.handle_create_rows hh row.tag with he | ⟨_,_,hf'⟩
      · exact hold (he ▸ hfind)
      · cases hf'.symm.trans hfind
        intro hactive
        refine hmay (fun hs => ?_)
        simp [IdentityCreate.row, hs] at hactive
    | _ => cases hc
  · rw [Decent, ColumnOwnership.handle_kept (Bool.eq_false_iff.mpr hc) hh]
    exact h

theorem handle_told {w w' : World} {c : Command} {r : Reply c} (h : Decent dep w)
    (hh : w.handle c = some (w', r)) : Told dep c r := by
  cases c with
  | findUniqueIdentity tag =>
    cases r with
    | error e => trivial
    | ok found =>
      cases found with
      | none => trivial
      | some row =>
        obtain ⟨_,hf⟩ := WriteTimeOwnership.handle_find hh
        obtain ⟨hmem,htag⟩ := Table.find_mem hf
        exact ⟨htag,h row hmem⟩
  | _ => trivial

theorem serves (trace : List (Entry ApiCommand ApiReply Network)) :
    Serves Network.handle (ApiMay dep) (ApiTold dep)
      (fun n => Decent dep n.services.mirror) trace := by
  intro e _ n hh hdecent hmay
  obtain ⟨⟨services,r⟩,hs,heq⟩ := Option.map_eq_some_iff.mp hh
  cases heq
  obtain ⟨who,found,c,r⟩ := e
  cases c with
  | mirror c =>
    obtain ⟨⟨mirror,r'⟩,hm,heq⟩ := Option.map_eq_some_iff.mp hs
    cases heq
    exact ⟨handle_decent hdecent hmay hm,handle_told hdecent hm⟩
  | findManyActive query cond take =>
    cases congrArg (Option.map Prod.fst) hs
    refine ⟨hdecent,?_⟩
    cases r with
    | error e => trivial
    | ok rows =>
      intro row hrow
      obtain ⟨hrows,hactive⟩ := ApiWorld.handle_findMany_ok hs row hrow
      exact hdecent row hrows hactive
  | _ =>
    cases congrArg (Option.map Prod.fst) hs
    exact ⟨hdecent,trivial⟩

section Programs

abbrev Keeps (dep : Deployment) (p : Async α) (Q : α → Prop) : Prop :=
  p.Honours (May dep) (Told dep) Q

theorem honours_of_always {p : Async α} (h : p.Always (May dep)) : Keeps dep p (fun _ => True) :=
  Prog.honours_always h

theorem may_of_reading {c : Command} (h : ColumnOwnership.writesRows c = false) : May dep c := by
  cases c with
  | updateManyIdentity | updateIdentity | createIdentity => cases h
  | _ => trivial

theorem applyChange_may (change : Indexer.VerifiedTagChange) :
    (Indexer.applyChange dep change).Always (May dep) := by
  refine WriterPath.applyChange_always dep (WriterPath.blockedStatus_ne _) trivial
    (fun hs => ?_) trivial
  cases hb : shouldBlockTag dep.engine change.tag with
  | false => exact hb
  | true => exact absurd (by simp [Indexer.createData, Indexer.blockedStatus, hb]) hs

theorem advanceCursor_always {P : Command → Prop} (hupdate : ∀ slot, P (.updateManyState slot))
    (hfind : P .findUniqueState) (hcreate : ∀ slot, P (.createState slot)) (slot : Nat) :
    (Indexer.advanceCursor slot).Always P := by
  refine Prog.always_bind (always_awaitDb ⟨hupdate slot,fun _ => trivial⟩) (fun count => ?_)
  refine Prog.always_ite trivial (Prog.always_bind (always_awaitDb ⟨hfind,fun _ => trivial⟩)
    (fun existing => Prog.always_ite ?_ trivial))
  exact always_awaitDb ⟨hcreate slot,fun _ => trivial⟩

section Sent
variable {P : Command → Prop} (hchange : ∀ change, (Indexer.applyChange dep change).Always P)
  (hcursor : ∀ slot, (Indexer.advanceCursor slot).Always P)
include hchange hcursor

/-- What is sent for an observation: the statements of its change, and those of the cursor. -/
theorem process_always (o : Indexer.Observation) :
    (Indexer.processAccountObservation dep o).Always P := by
  have hread : (Indexer.decodeAndVerify dep o).Always P := by
    unfold Indexer.decodeAndVerify
    split
    · trivial
    · split
      · trivial
      · exact Prog.always_ite trivial trivial
  refine Prog.always_bind hread (fun read => ?_)
  cases read with
  | error reason => trivial
  | ok change =>
    refine Prog.always_bind (hchange change) (fun outcome => ?_)
    by_cases ho : outcome ≠ .skippedStale
    · simp only [if_pos ho]
      exact Prog.always_bind (hcursor o.slot) (fun _ => trivial)
    · simp only [if_neg ho]
      trivial

theorem sweep_always (slot : Nat) (accounts : List (JsString × List UInt8))
    (applied skipped : Nat) : (Indexer.sweep dep slot applied skipped accounts).Always P := by
  induction accounts generalizing applied skipped with
  | nil => trivial
  | cons account accounts ih =>
    refine Prog.always_bind (process_always hchange hcursor _) (fun outcome => ?_)
    cases outcome with
    | applied => exact ih (applied + 1) skipped
    | skipped => exact ih applied (skipped + 1)

theorem reconcile_always (hget : P .getProgramAccounts) : (Indexer.reconcile dep).Always P := by
  refine Prog.always_bind ⟨hget,fun _ => trivial⟩ (fun response => ?_)
  match response with
  | .error () => trivial
  | .ok (slot, accounts) =>
    exact Prog.always_bind (sweep_always hchange hcursor slot accounts 0 0) (fun _ => trivial)

end Sent

theorem advanceCursor_may (slot : Nat) : (Indexer.advanceCursor slot).Always (May dep) :=
  advanceCursor_always (fun _ => trivial) trivial (fun _ => trivial) slot

theorem backfill_may : (Indexer.backfillModerationGate dep).Always (May dep) :=
  WriterPath.backfill_always dep trivial (fun tag h => by cases h) (fun tag => trivial)

theorem resolve_may (server : Nat) (tag : NormalizedTag) :
    (Api.resolve dep server tag).Always (May dep) :=
  Prog.always_mono (fun _ hc => may_of_reading (ColumnOwnership.reading_sends hc.1))
    (WriterPath.resolve_resolving dep server tag)

/-- A row that a lookup gives out bears a clean name. -/
theorem findActive_keeps (tag : JsString) :
    Keeps dep (findActiveIdentity tag) (fun found => found.isSome → Clean dep tag) := by
  have hfind : Keeps dep (findUnique tag)
      (fun found => ∀ row, found = some row → row.tag = tag ∧ Screened dep row) := by
    refine ⟨trivial,fun r hr => ?_⟩
    cases r with
    | error e => trivial
    | ok found =>
      intro row hrow
      subst hrow
      exact hr
  refine Prog.honours_bind hfind (fun found hfound hsome => ?_)
  obtain ⟨row,hrow⟩ := Option.isSome_iff_exists.mp hsome
  obtain ⟨hrow,hactive⟩ := Option.filter_eq_some_iff.mp hrow
  obtain ⟨htag,hscreened⟩ := hfound row hrow
  exact htag ▸ hscreened (of_decide_eq_true hactive)

theorem identity_keeps (tag : NormalizedTag) :
    Keeps dep (identity tag) (fun response => Clean dep tag ∧ response.tag = presentTag tag) := by
  refine Prog.honours_bind (findActive_keeps tag.text) (fun found h => ?_)
  cases found with
  | none => trivial
  | some row => exact ⟨h rfl,rfl⟩

theorem linkOf_keeps (tag : NormalizedTag) :
    Keeps dep (linkOf dep tag) (fun response => Clean dep tag ∧ response.tag = presentTag tag) := by
  refine Prog.honours_bind (findActive_keeps tag.text) (fun found h => ?_)
  cases found with
  | none => trivial
  | some row => exact ⟨h rfl,rfl⟩

theorem updateIdentity_keeps (params : UpdateIdentityParams) :
    Keeps dep (updateIdentity dep params)
      (fun response => Clean dep params.tag ∧ response.tag = presentTag params.tag) := by
  have hcheck : ∀ field text, Keeps dep (checkFreeText dep field text) (fun _ => True) :=
    fun field text => honours_of_always (WriterPath.checkFreeText_always dep field text)
  refine Prog.honours_bind (findActive_keeps params.tag.text) (fun found h => ?_)
  cases found with
  | none => trivial
  | some row =>
    have hclean : Clean dep params.tag := h rfl
    refine Prog.honours_ite (fun _ => trivial) (fun _ => ?_)
    refine Prog.honours_bind (hcheck _ _) (fun _ _ => Prog.honours_bind (hcheck _ _) (fun _ _ => ?_))
    refine Prog.honours_bind (honours_of_always (always_awaitDb ⟨?_,fun _ => trivial⟩))
      (fun updated _ => ?_)
    · intro h
      cases h
    · exact Prog.honours_bind (honours_of_always (WriterPath.delete_always dep trivial))
        (fun _ _ => ⟨hclean,rfl⟩)

end Programs

/-- No endpoint over the rows answers for a refused name, and no registration is built for one. -/
def Proper (dep : Deployment) : ApiRequest → ApiAnswer → Prop
  | .identity rawTag, .identity response | .updateIdentity rawTag _ _ _, .identity response =>
    ∃ tag, normalizeTag rawTag = .accepted tag ∧ Clean dep tag ∧ response.tag = presentTag tag
  | .qr rawTag, .link response | .paymentLink rawTag, .link response =>
    ∃ tag, normalizeTag rawTag = .accepted tag ∧ Clean dep tag ∧ response.tag = presentTag tag
  | .search _, .found items => ∀ item ∈ items, ∃ tag, Clean dep tag ∧ item.tag = presentTag tag
  | .updateWallet rawTag _ _, .transaction _ =>
    ∃ tag, normalizeTag rawTag = .accepted tag ∧ Clean dep tag
  | .register params, .transaction _ =>
    ∃ tag, normalizeTag params.rawTag = .accepted tag ∧ Clean dep tag
  | .resolve _, .resolved _ | .availability _, .availability _ => True
  | _, _ => False

def NetworkProper (dep : Deployment) : NetworkCall → NetworkResult → Prop
  | .request _ asked, .answer answer => Proper dep asked answer
  | .request _ _, _ => False
  | _, _ => True

section Requests

abbrev ApiKeeps (dep : Deployment) (p : ApiAsync α) (Q : α → Prop) : Prop :=
  p.Honours (ApiMay dep) (ApiTold dep) Q

theorem relay_keeps {p : Async α} {Q : α → Prop} (h : Keeps dep p Q) :
    ApiKeeps dep (relay p) Q := by
  have hmay : ∀ c, May dep c → ApiMay dep (.mirror c) := fun _ h => h
  have htold : ∀ c r, ApiTold dep (.mirror c) r → Told dep c r := fun _ _ h => h
  exact Prog.honours_embed hmay htold h

theorem own_keeps {p : ApiAsync α} (h : p.Always (fun c => BlockedInvisible.ownCommand c = true)) :
    ApiKeeps dep p (fun _ => True) := by
  refine Prog.honours_always (Prog.always_mono (fun c hc => ?_) h)
  cases c with
  | mirror c => cases hc
  | _ => trivial

theorem param_keeps (rawTag : JsString) : ApiKeeps dep (normalizeTagParamOrThrow rawTag)
    (fun tag => normalizeTag rawTag = .accepted tag) := by
  unfold normalizeTagParamOrThrow
  split
  · assumption
  · trivial

/-- What the guard and the wallet's service begin with. -/
theorem row_keeps (error : Thrown) (tag : NormalizedTag) {f : Identity → ApiAsync α} {Q : α → Prop}
    (hf : ∀ row, Clean dep tag → ApiKeeps dep (f row) Q) :
    ApiKeeps dep (do
      let found ← relay (findUnique tag)
      let row ← activeOrThrow error found
      f row) Q := by
  refine ⟨trivial,fun r hr => ?_⟩
  cases r with
  | error e => trivial
  | ok found =>
    cases found with
    | none => trivial
    | some row =>
      change ApiKeeps dep (activeOrThrow error (some row) >>= f) Q
      refine Prog.honours_bind (Q := fun _ => Clean dep tag)
        (Prog.honours_ite (fun _ => trivial) (fun hactive => ?_)) hf
      obtain ⟨htag,hscreened⟩ := hr
      exact htag ▸ hscreened (not_not.mp hactive)

theorem search_keeps (cfg : ApiConfig) (rawQuery : JsString) :
    ApiKeeps dep (search cfg rawQuery)
      (fun items => ∀ item ∈ items, ∃ tag, Clean dep tag ∧ item.tag = presentTag tag) := by
  unfold search
  refine Prog.honours_ite (fun _ item hi => by cases hi) (fun _ => ?_)
  have hfind : ∀ query cond take, ApiKeeps dep (findManyActive query cond take)
      (fun rows => ∀ row ∈ rows, Clean dep row.tag) := by
    intro query cond take
    have hmay : ApiMay dep (.findManyActive query cond take) := trivial
    refine Prog.honours_bind (Prog.honours_request hmay) (fun r hr => ?_)
    cases r with
    | ok rows => exact hr
    | error e => trivial
  refine Prog.honours_bind (hfind _ _ _) (fun rows hrows item hitem => ?_)
  obtain ⟨⟨row,rank⟩,hmem,rfl⟩ := List.mem_map.mp hitem
  have hranked := List.mem_mergeSort.mp (List.mem_of_mem_take hmem)
  obtain ⟨row',hrow,he⟩ := List.mem_map.mp (List.mem_filter.mp hranked).1
  cases he
  exact ⟨row.tag,hrows row hrow,rfl⟩

theorem updateWallet_keeps (cfg : ApiConfig) (tag : NormalizedTag)
    (ownerPubkey newWallet : JsString) :
    ApiKeeps dep (WalletUpdateService.buildTransaction cfg tag ownerPubkey newWallet)
      (fun _ => Clean dep tag) := by
  refine row_keeps (notFound tag) tag (fun row hclean => ?_)
  refine Prog.honours_ite (fun _ => trivial) (fun _ => Prog.honours_ite (fun _ => trivial)
    (fun _ => ?_))
  refine Prog.honours_bind (own_keeps (BlockedInvisible.awaitRpc_always ⟨rfl,fun _ => trivial⟩))
    (fun blockhash _ => ?_)
  exact Prog.honours_bind (own_keeps (BlockedInvisible.built_always _)) (fun tx _ => hclean)

theorem guard_keeps (authPubkey rawTag : JsString) :
    ApiKeeps dep (TagOwnershipGuard.canActivate authPubkey rawTag) (fun _ => True) := by
  refine Prog.honours_ite (fun _ => trivial) (fun _ => ?_)
  refine Prog.honours_bind (param_keeps rawTag) (fun tag _ => ?_)
  exact row_keeps _ tag (fun row _ => Prog.honours_ite (fun _ => trivial) (fun _ => trivial))

theorem gate_keeps (tag : NormalizedTag) :
    Keeps dep (checkNamingGate dep tag) (fun result => result.available = true → Clean dep tag) := by
  unfold checkNamingGate
  split
  · trivial
  · exact fun h => by cases h
  · exact fun h => by cases h
  · rename_i hallowed
    refine Prog.honours_bind (honours_of_always (always_awaitDb ⟨trivial,fun _ => trivial⟩))
      (fun found _ => ?_)
    exact Prog.honours_ite (fun _ h => by cases h)
      (fun _ _ => Journey.unblocked_of_allowed hallowed)

theorem register_keeps (cfg : ApiConfig) (params : RegisterParams) :
    ApiKeeps cfg.dep (register cfg params)
      (fun _ => ∃ tag, normalizeTag params.rawTag = .accepted tag ∧ Clean cfg.dep tag) := by
  refine Prog.honours_bind (param_keeps params.rawTag) (fun tag hn => ?_)
  refine Prog.honours_bind (relay_keeps (gate_keeps tag)) (fun gateResult hgate => ?_)
  refine Prog.honours_ite (fun _ => Prog.honours_ite (fun _ => trivial) (fun _ => trivial))
    (fun hfree => ?_)
  have hclean := hgate (by simpa using hfree)
  exact Prog.honours_mono (fun _ _ => ⟨tag,hn,hclean⟩)
    (own_keeps (BlockedInvisible.registerFree_always cfg params tag))

theorem request_keeps (cfg : ApiConfig) (server : Nat) (asked : ApiRequest) :
    ApiKeeps cfg.dep (asked.body cfg server) (Proper cfg.dep asked) := by
  cases asked with
  | resolve rawTag =>
    exact Prog.honours_bind (param_keeps rawTag) (fun tag _ => Prog.honours_bind
      (relay_keeps (honours_of_always (resolve_may server tag))) (fun _ _ => trivial))
  | identity rawTag =>
    exact Prog.honours_bind (param_keeps rawTag) (fun tag hn => Prog.honours_bind
      (relay_keeps (identity_keeps tag)) (fun response h => ⟨tag,hn,h⟩))
  | qr rawTag | paymentLink rawTag =>
    exact Prog.honours_bind (param_keeps rawTag) (fun tag hn => Prog.honours_bind
      (relay_keeps (linkOf_keeps tag)) (fun response h => ⟨tag,hn,h⟩))
  | search rawQuery =>
    exact Prog.honours_bind (search_keeps cfg rawQuery) (fun items h => h)
  | updateIdentity rawTag authPubkey dto provided =>
    refine Prog.honours_bind (guard_keeps authPubkey rawTag) (fun _ _ => ?_)
    exact Prog.honours_bind (param_keeps rawTag) (fun tag hn => Prog.honours_bind
      (relay_keeps (updateIdentity_keeps _)) (fun response h => ⟨tag,hn,h⟩))
  | updateWallet rawTag authPubkey wallet =>
    refine Prog.honours_bind (guard_keeps authPubkey rawTag) (fun _ _ => ?_)
    exact Prog.honours_bind (param_keeps rawTag) (fun tag hn => Prog.honours_bind
      (updateWallet_keeps cfg tag authPubkey wallet) (fun response h => ⟨tag,hn,h⟩))
  | availability rawTag =>
    refine Prog.honours_bind (Q := fun _ => True) (relay_keeps ?_) (fun _ _ => trivial)
    unfold availability
    split
    · trivial
    · exact Prog.honours_bind (gate_keeps _) (fun _ _ => trivial)
  | register params => exact Prog.honours_bind (register_keeps cfg params) (fun response h => h)

theorem call_keeps (cfg : NetworkConfig) (call : NetworkCall) :
    (call.body cfg).Honours (ApiMay cfg.dep) (ApiTold cfg.dep) (NetworkProper cfg.dep call) := by
  cases call with
  | request server asked =>
    exact Prog.honours_bind (request_keeps cfg.toApiConfig server asked) (fun answer ha => ha)
  | notification o =>
    exact Prog.honours_bind (relay_keeps (honours_of_always
      (process_always applyChange_may advanceCursor_may o))) (fun _ _ => trivial)
  | reconcile =>
    exact Prog.honours_bind (relay_keeps (honours_of_always
      (reconcile_always applyChange_may advanceCursor_may trivial))) (fun _ _ => trivial)
  | backfillModerationGate =>
    exact Prog.honours_bind (relay_keeps (honours_of_always backfill_may)) (fun _ _ => trivial)

end Requests

/-- Whatever the chain holds and the node reports, and however the calls interleave: a row under
a refused name is blocked from its first moment on, and no answer from the rows names one. -/
theorem refused_never_shown (cfg : NetworkConfig) (node : RpcNode) (order : ScanOrder)
    (events : List NetworkEvent) :
    Decent cfg.dep (NetworkPool.after cfg node order events).shared.services.mirror ∧
    ∀ (who : Nat) t result, (NetworkPool.after cfg node order events).threads[who]? = some t →
      (NetworkPool.after cfg node order events).result who = some (.ok result) →
      NetworkProper cfg.dep t.call result := by
  have hkept : Kept (ApiMay cfg.dep) (ApiTold cfg.dep)
      (fun n : Network => Decent cfg.dep n.services.mirror) (NetworkProper cfg.dep)
      (NetworkPool.after cfg node order events) := by
    have hfair : Along (NetworkPool.step cfg) (fun _ _ => True)
        (Pool.init (Network.start node order)) events := along_always (fun _ _ => trivial) _ _
    refine run_kept (fun pool what _ h => ?_) (fun pool call _ => call_keeps cfg call)
      ⟨fun row hrow => (by cases hrow),fun i t ht => (by cases ht)⟩ (serves _) hfair
    cases what with
    | land tx signed payerFunded => exact h
    | report accountInfo programAccounts => exact h
    | services weather => cases weather <;> exact h
  exact ⟨hkept.shared,fun who t result ht hr => hkept.result ht hr⟩

end Tagwise.Proofs.Screening
