import Tagwise.Lib.Bargain
import Tagwise.Proofs.BlockedInvisible
import Tagwise.Proofs.Codec
import Tagwise.Proofs.MirrorRecord
import Tagwise.Proofs.Representation
import Tagwise.Protocol.Network

namespace Tagwise.Proofs.Provenance
open Js Tagwise.Core Services Lib Api Protocol
open MirrorRecord (leads handle_does_or)

/-! `K` is what may be said of a tag, its owner and its wallet, and `G` which lookup in flight
is for which key. -/

variable (dep : Deployment) (K : JsString → JsString → JsString → Prop)
variable (G : Nat → JsString → Prop)

/-- The response is made of something that may be said of its tag. -/
def Tells (tag : JsString) (response : ResolveResponse) : Prop :=
  ∃ row, K tag row.owner row.wallet ∧ response = resolveResponse dep tag row

/-- What decodes at the address of a tag may be said of it. -/
def Sincere (address : JsString) (data : List UInt8) : Prop :=
  ∀ decoded, decodeTagAccount dep.sol data = .ok decoded → ∀ (tag : NormalizedTag) bump,
    deriveTagPda dep.sol tag = .ok (address, bump) → K tag decoded.owner decoded.wallet

def CachedTells (key : JsString) (response : ResolveResponse) : Prop :=
  ∀ tag, key = buildResolveCacheKey dep.redisKeyPrefix tag → Tells dep K tag response

def FlightTells (flight : Nat) (response : ResolveResponse) : Prop :=
  ∀ tag, G flight (buildResolveCacheKey dep.redisKeyPrefix tag) → Tells dep K tag response

def May : Command → Prop
  | .updateManyIdentity cond data =>
    (data.owner = none ∧ data.wallet = none) ∨
    ∃ owner wallet, data.owner = some owner ∧ data.wallet = some wallet ∧ K cond.tag owner wallet
  | .updateIdentity _ data => data.owner = none ∧ data.wallet = none
  | .createIdentity data => K data.tag data.owner data.wallet
  | .redisSet key (.response response) _ => CachedTells dep K key response
  | .leaveFlight _ _ flight (.ok response) => FlightTells dep K G flight response
  | _ => True

def Told : (c : Command) → Reply c → Prop
  | .findUniqueIdentity tag, .ok (some row) => row.tag = tag ∧ K tag row.owner row.wallet
  | .updateIdentity tag _, .ok row => row.tag = tag ∧ K tag row.owner row.wallet
  | .redisGet key, .ok (some (.response response)) => CachedTells dep K key response
  | .getProgramAccounts, .ok (_, accounts) =>
    ∀ account ∈ accounts, Sincere dep K account.1 account.2
  | .getAccountInfo address, .ok (some data) => Sincere dep K address data
  | .enterFlight _ key, .joins flight => G flight key
  | .enterFlight _ key, .leads flight => G flight key
  | .awaitFlight flight, .ok response => FlightTells dep K G flight response
  | _, _ => True

/-- The services hold nothing but what may be said. -/
structure Truthful (w : World) : Prop where
  rows : ∀ row ∈ w.identities.rows, K row.tag row.owner row.wallet
  cached : ∀ key response, w.redis key = some (.response response) → CachedTells dep K key response
  flying : ∀ server key flight, w.inFlight server key = some flight → G flight key
  settled : ∀ flight response, w.settled flight = some (.ok response) →
    FlightTells dep K G flight response
  accounts : ∀ account ∈ w.programAccounts.2, Sincere dep K account.1 account.2
  info : ∀ address data, w.accountInfo address = some data → Sincere dep K address data

variable {dep : Deployment} {K : JsString → JsString → JsString → Prop}
variable {G : Nat → JsString → Prop}

theorem rows_updateMany {ids : Identities} {cond : IdentityWhere} {data : IdentityData}
    (h : ∀ row ∈ ids.rows, K row.tag row.owner row.wallet)
    (hd : (data.owner = none ∧ data.wallet = none) ∨
      ∃ owner wallet, data.owner = some owner ∧ data.wallet = some wallet ∧ K cond.tag owner wallet) :
    ∀ row ∈ (ids.updateMany cond.selects data.apply data.apply_tag).rows,
      K row.tag row.owner row.wallet := by
  intro row hrow
  obtain ⟨old,hold,rfl⟩ := List.mem_map.mp hrow
  by_cases hs : cond.selects old = true
  · rw [if_pos hs]
    rcases hd with ⟨ho,hw⟩ | ⟨owner,wallet,ho,hw,hk⟩
    · simpa [IdentityData.apply, ho, hw] using h old hold
    · have htag := ((cond.selects_iff old).mp hs).1
      simpa [IdentityData.apply, ho, hw, htag] using hk
  · rw [if_neg hs]
    exact h old hold

theorem truthful_rows {w : World} (h : Truthful dep K G w) {identities : Identities}
    (hrows : ∀ row ∈ identities.rows, K row.tag row.owner row.wallet) :
    Truthful dep K G { w with identities } :=
  ⟨hrows,h.cached,h.flying,h.settled,h.accounts,h.info⟩

theorem find_told {w : World} (h : Truthful dep K G w) {tag : JsString} {row : Identity}
    (hf : w.identities.find tag = some row) : row.tag = tag ∧ K tag row.owner row.wallet := by
  obtain ⟨hmem,htag⟩ := Table.find_mem hf
  exact ⟨htag,htag ▸ h.rows row hmem⟩

theorem truthful_put {w : World} (h : Truthful dep K G w) {key : JsString}
    {value : Option CacheValue}
    (hv : ∀ response, value = some (.response response) → CachedTells dep K key response) :
    Truthful dep K G (w.putKey key value) := by
  refine ⟨h.rows,fun key' response hr => ?_,h.flying,h.settled,h.accounts,h.info⟩
  simp only [World.putKey, Function.update_apply] at hr
  split at hr
  · rename_i he
    exact he ▸ hv response hr
  · exact h.cached key' response hr

/-- One instance's map with one key set or cleared. -/
theorem flying_update {w : World} (h : Truthful dep K G w) {server : Nat} {key : JsString}
    {entry : Option Nat} (hg : ∀ flight, entry = some flight → G flight key) :
    ∀ server' key' flight, Function.update w.inFlight server
      (Function.update (w.inFlight server) key entry) server' key' = some flight →
      G flight key' := by
  intro server' key' flight hf
  rw [Function.update_apply] at hf
  split at hf
  · rename_i hs
    rw [Function.update_apply] at hf
    split at hf
    · rename_i hk
      exact hk ▸ hg flight hf
    · exact h.flying server key' flight hf
  · exact h.flying server' key' flight hf

theorem settled_update {w : World} (h : Truthful dep K G w) {flight : Nat}
    {result : Except Thrown ResolveResponse}
    (hr : ∀ response, result = .ok response → FlightTells dep K G flight response) :
    ∀ flight' response, Function.update w.settled flight (some result) flight' =
      some (.ok response) → FlightTells dep K G flight' response := by
  intro flight' response hf
  rw [Function.update_apply] at hf
  split at hf
  · rename_i he
    exact he ▸ hr response (Option.some.inj hf)
  · exact h.settled flight' response hf

/-- What the node reports is not the services' to change. -/
theorem handle_reports {w w' : World} {c : Command} {r : Reply c}
    (h : w.handle c = some (w', r)) :
    w'.programAccounts = w.programAccounts ∧ w'.accountInfo = w.accountInfo := by
  cases c
  all_goals simp only [World.handle] at h
  all_goals repeat' split at h
  all_goals first | (cases h; exact ⟨rfl,rfl⟩) | cases h

/-- Asked only for what may be asked, the services stay truthful. Which key a new lookup
is for is left to `G`. -/
theorem handle_truthful {w w' : World} {c : Command} {r : Reply c} (h : Truthful dep K G w)
    (hmay : May dep K G c) (hh : w.handle c = some (w', r))
    (hlead : ∀ server key, leads c r = some (server, key, w.nextFlight) → G w.nextFlight key) :
    Truthful dep K G w' := by
  obtain ⟨haccounts,hinfo⟩ := handle_reports hh
  rcases handle_does_or hh with hd | ⟨_,rfl,_⟩
  · cases hd with
    | nothing quiet rows redis inFlight nextFlight settled up =>
      exact ⟨rows ▸ h.rows,redis ▸ h.cached,inFlight ▸ h.flying,settled ▸ h.settled,
        haccounts ▸ h.accounts,hinfo ▸ h.info⟩
    | updated cond data => exact truthful_rows h (rows_updateMany h.rows hmay)
    | updatedOne tag data row => exact truthful_rows h (rows_updateMany h.rows (.inl hmay))
    | created data fits =>
      refine truthful_rows h (fun row hrow => ?_)
      rcases Table.mem_insert fits hrow with hrow | rfl
      · exact h.rows row hrow
      · exact hmay
    | set key value ttl =>
      refine truthful_put h (fun response hr => ?_)
      cases hr
      exact hmay
    | deleted key => exact truthful_put h (fun response hr => by cases hr)
    | opened server key =>
      refine ⟨h.rows,h.cached,flying_update h (fun flight hf => ?_),h.settled,h.accounts,h.info⟩
      cases hf
      exact hlead server key rfl
    | left server key flight result =>
      refine ⟨h.rows,h.cached,flying_update h (fun flight hf => by cases hf),
        settled_update h (fun response hr => ?_),h.accounts,h.info⟩
      cases hr
      exact hmay
  · exact h

/-- And what they answer may be relied on. -/
theorem handle_told {w w' : World} {c : Command} {r : Reply c} (h : Truthful dep K G w)
    (hmay : May dep K G c) (hh : w.handle c = some (w', r))
    (hlead : ∀ server key, leads c r = some (server, key, w.nextFlight) → G w.nextFlight key) :
    Told dep K G c r := by
  cases c with
  | findUniqueIdentity tag =>
    simp only [World.handle] at hh
    split at hh
    · cases hh
      cases hf : w.identities.find tag with
      | none => trivial
      | some row => exact find_told h hf
    · cases hh
      trivial
  | updateIdentity tag data =>
    rcases World.handle_update_cases hh with ⟨row,hf,rfl,rfl⟩ | ⟨rfl,e,rfl⟩
    · obtain ⟨htag,hk⟩ := find_told h hf
      refine ⟨htag,?_⟩
      simpa [IdentityData.apply, hmay.1, hmay.2] using hk
    · trivial
  | redisGet key =>
    simp only [World.handle] at hh
    split at hh
    · cases hh
      cases hv : w.redis key with
      | none => trivial
      | some value =>
        cases value with
        | negative => trivial
        | response response => exact h.cached key response hv
    · cases hh
      trivial
  | getProgramAccounts =>
    simp only [World.handle] at hh
    split at hh
    · cases hh
      exact h.accounts
    · cases hh
      trivial
  | getAccountInfo address =>
    simp only [World.handle] at hh
    split at hh
    · cases hh
      cases hv : w.accountInfo address with
      | none => trivial
      | some data => exact h.info address data hv
    · cases hh
      trivial
  | enterFlight server key =>
    simp only [World.handle] at hh
    split at hh
    · rename_i flight hf
      cases hh
      exact h.flying server key flight hf
    · cases hh
      exact hlead server key rfl
  | awaitFlight flight =>
    simp only [World.handle] at hh
    split at hh
    · rename_i result hs
      cases hh
      cases r with
      | ok response => exact h.settled flight response hs
      | error e => trivial
    · cases hh
  | updateManyIdentity | findManyActiveTags | createIdentity | updateManyState | findUniqueState
  | createState | redisSet | redisDel | leaveFlight => trivial

section Programs

theorem awaitDb_honours {α : Type} {p : Async (Except DbError α)} {Q : Except DbError α → Prop}
    (h : p.Honours (May dep K G) (Told dep K G) Q) :
    (awaitDb p).Honours (May dep K G) (Told dep K G) (fun a => Q (.ok a)) := by
  refine Prog.honours_bind h (fun r hr => ?_)
  cases r with
  | ok a => exact hr
  | error e => trivial

theorem findUnique_honours (tag : JsString) :
    (findUnique tag).Honours (May dep K G) (Told dep K G)
      (fun found => ∀ row, found = some row → row.tag = tag ∧ K tag row.owner row.wallet) := by
  refine Prog.honours_mono (fun found h row hr => ?_) (awaitDb_honours (Prog.honours_request trivial))
  subst hr
  exact h

theorem invalidate_honours (tag : JsString) :
    (Indexer.invalidate dep tag).Honours (May dep K G) (Told dep K G) (fun _ => True) :=
  ⟨trivial,fun _ _ => trivial⟩

theorem applyChange_honours {change : Indexer.VerifiedTagChange}
    (h : K change.tag change.owner change.wallet) :
    (Indexer.applyChange dep change).Honours (May dep K G) (Told dep K G) (fun _ => True) := by
  unfold Indexer.applyChange
  refine Prog.honours_bind (awaitDb_honours (Prog.honours_request
    (.inr ⟨change.owner,change.wallet,rfl,rfl,h⟩))) (fun count _ => ?_)
  refine Prog.honours_ite (fun _ => ?_) (fun _ => ?_)
  · exact Prog.honours_bind (invalidate_honours change.tag) (fun _ _ => trivial)
  · refine Prog.honours_bind (findUnique_honours change.tag.text) (fun existing _ => ?_)
    cases existing with
    | some row => trivial
    | none =>
      exact Prog.honours_bind (awaitDb_honours (Prog.honours_request h)) (fun _ _ =>
        Prog.honours_bind (invalidate_honours change.tag) (fun _ _ => trivial))

theorem advanceCursor_honours (slot : Nat) :
    (Indexer.advanceCursor slot).Honours (May dep K G) (Told dep K G) (fun _ => True) := by
  unfold Indexer.advanceCursor
  refine Prog.honours_bind (awaitDb_honours (Prog.honours_request trivial)) (fun count _ => ?_)
  refine Prog.honours_ite (fun _ => trivial) (fun _ => ?_)
  refine Prog.honours_bind (awaitDb_honours (Prog.honours_request trivial)) (fun existing _ => ?_)
  refine Prog.honours_ite (fun _ => ?_) (fun _ => trivial)
  exact Prog.honours_mono (fun _ _ => trivial) (awaitDb_honours (Prog.honours_request trivial))

/-- A change is read off an account at its tag's own address. -/
theorem decodeAndVerify_honours {o : Indexer.Observation} (h : Sincere dep K o.address o.data) :
    (Indexer.decodeAndVerify dep o).Honours (May dep K G) (Told dep K G)
      (fun read => ∀ change, read = .ok change → K change.tag change.owner change.wallet) := by
  unfold Indexer.decodeAndVerify
  split
  · intro change hc
    cases hc
  · rename_i decoded hd
    split
    · trivial
    · rename_i derived bump hp
      refine Prog.honours_ite (fun _ change hc => by cases hc) (fun he change hc => ?_)
      cases hc
      have haddress := not_not.mp he
      exact h decoded hd decoded.tag bump (haddress ▸ hp)

theorem process_honours {o : Indexer.Observation} (h : Sincere dep K o.address o.data) :
    (Indexer.processAccountObservation dep o).Honours (May dep K G) (Told dep K G)
      (fun _ => True) := by
  unfold Indexer.processAccountObservation
  refine Prog.honours_bind (decodeAndVerify_honours h) (fun read hread => ?_)
  cases read with
  | error reason => trivial
  | ok change =>
    refine Prog.honours_bind (applyChange_honours (hread change rfl)) (fun outcome _ => ?_)
    by_cases ho : outcome ≠ .skippedStale
    · simp only [if_pos ho]
      exact Prog.honours_bind (advanceCursor_honours o.slot) (fun _ _ => trivial)
    · simp only [if_neg ho]
      trivial

theorem sweep_honours (slot : Nat) {accounts : List (JsString × List UInt8)}
    (h : ∀ account ∈ accounts, Sincere dep K account.1 account.2) (applied skipped : Nat) :
    (Indexer.sweep dep slot applied skipped accounts).Honours (May dep K G) (Told dep K G)
      (fun _ => True) := by
  induction accounts generalizing applied skipped with
  | nil => trivial
  | cons account accounts ih =>
    have hrest := ih (fun b hb => h b (List.mem_cons_of_mem _ hb))
    refine Prog.honours_bind (process_honours (h account List.mem_cons_self)) (fun outcome _ => ?_)
    cases outcome with
    | applied => exact hrest (applied + 1) skipped
    | skipped => exact hrest applied (skipped + 1)

theorem reconcile_honours :
    (Indexer.reconcile dep).Honours (May dep K G) (Told dep K G) (fun _ => True) := by
  refine Prog.honours_bind (Prog.honours_request trivial) (fun response hr => ?_)
  match response with
  | .error () => trivial
  | .ok (slot, accounts) =>
    exact Prog.honours_bind (sweep_honours slot hr 0 0) (fun _ _ => trivial)

theorem backfillRows_honours (blocked : Nat) (tags : List JsString) :
    (Indexer.backfillRows dep blocked tags).Honours (May dep K G) (Told dep K G)
      (fun _ => True) := by
  induction tags generalizing blocked with
  | nil => trivial
  | cons tag tags ih =>
    refine Prog.honours_ite (fun _ => ih blocked) (fun _ => ?_)
    refine Prog.honours_bind (awaitDb_honours (Prog.honours_request (.inl ⟨rfl,rfl⟩)))
      (fun count _ => ?_)
    refine Prog.honours_ite (fun _ => ih blocked) (fun _ => ?_)
    exact Prog.honours_bind (invalidate_honours tag) (fun _ _ => ih (blocked + 1))

theorem backfill_honours :
    (Indexer.backfillModerationGate dep).Honours (May dep K G) (Told dep K G) (fun _ => True) := by
  refine Prog.honours_bind (awaitDb_honours (Prog.honours_request trivial)) (fun tags _ => ?_)
  exact Prog.honours_bind (backfillRows_honours 0 tags) (fun _ _ => trivial)

theorem cacheGet_honours (tag : JsString) :
    (RedisCacheReader.get dep (buildResolveCacheKey dep.redisKeyPrefix tag)).Honours
      (May dep K G) (Told dep K G)
      (fun cached => ∀ response, cached = some (.response response) → Tells dep K tag response) := by
  unfold RedisCacheReader.get
  refine Prog.honours_ite (fun _ response hr => by cases hr) (fun _ => ⟨trivial,fun r hr => ?_⟩)
  cases r with
  | error e =>
    intro response hc
    cases hc
  | ok value =>
    intro response hc
    cases hc
    exact hr tag rfl

theorem cacheSet_honours {tag : JsString} {value : CacheValue} (ttl : Option Nat)
    (h : ∀ response, value = .response response → Tells dep K tag response) :
    (RedisCacheReader.set dep (buildResolveCacheKey dep.redisKeyPrefix tag) value ttl).Honours
      (May dep K G) (Told dep K G) (fun _ => True) := by
  unfold RedisCacheReader.set
  refine Prog.honours_ite (fun _ => trivial) (fun _ => ⟨?_,fun _ _ => trivial⟩)
  cases value with
  | negative => trivial
  | response response =>
    intro tag' hk
    cases buildResolveCacheKey_inj hk
    exact h response rfl

theorem cacheDelete_honours (key : JsString) :
    (RedisCacheReader.delete dep key).Honours (May dep K G) (Told dep K G) (fun _ => True) := by
  unfold RedisCacheReader.delete
  exact Prog.honours_ite (fun _ => trivial) (fun _ => ⟨trivial,fun _ _ => trivial⟩)

theorem lookup_honours (tag : NormalizedTag) :
    (SolanaChainFallback.lookup dep tag).Honours (May dep K G) (Told dep K G)
      (fun found => ∀ row, found = some row → K tag row.owner row.wallet) := by
  unfold SolanaChainFallback.lookup
  split
  · trivial
  · rename_i pda bump hp
    refine ⟨trivial,fun account ha row hr => ?_⟩
    match account with
    | .error () => cases hr
    | .ok none => cases hr
    | .ok (some data) =>
      simp only [fromAccount] at hr
      cases hd : decodeTagAccount dep.sol data with
      | error e =>
        rw [hd] at hr
        cases hr
      | ok decoded =>
        rw [hd] at hr
        cases hr
        exact ha decoded hd tag bump hp

/-- The row to answer from, wherever it comes from. -/
theorem sourceRow_honours (tag : NormalizedTag) {mirrorRow : Option Identity}
    (h : ∀ row, mirrorRow = some row → row.tag = tag ∧ K tag row.owner row.wallet) :
    (sourceRow dep tag mirrorRow).Honours (May dep K G) (Told dep K G)
      (fun source => ∀ row, source.1 = some row → K tag row.owner row.wallet) := by
  cases mirrorRow with
  | some mirrorRow =>
    intro row hr
    simp only at hr
    split at hr
    · cases hr
      exact (h mirrorRow rfl).2
    · cases hr
  | none =>
    refine Prog.honours_bind (lookup_honours tag) (fun fromChain hc => ?_)
    cases fromChain with
    | none =>
      intro row hr
      cases hr
    | some found =>
      refine Prog.honours_ite (fun _ row hr => ?_) (fun _ row hr => by cases hr)
      cases hr
      exact hc found rfl

theorem answerFrom_honours (tag : JsString) {source : Option Identity × Option Nat}
    (h : ∀ row, source.1 = some row → K tag row.owner row.wallet) :
    (answerFrom dep tag (buildResolveCacheKey dep.redisKeyPrefix tag) source).Honours
      (May dep K G) (Told dep K G) (Tells dep K tag) := by
  obtain ⟨row,ttl⟩ := source
  cases row with
  | none =>
    exact Prog.honours_bind (cacheSet_honours _ (fun response hr => by cases hr))
      (fun _ _ => trivial)
  | some row =>
    have htells : Tells dep K tag (resolveResponse dep tag row) := ⟨row,h row rfl,rfl⟩
    refine Prog.honours_bind (cacheSet_honours ttl (fun response hr => ?_)) (fun _ _ => htells)
    cases hr
    exact htells

theorem resolveUncached_honours (tag : NormalizedTag) :
    (resolveUncached dep tag (buildResolveCacheKey dep.redisKeyPrefix tag)).Honours
      (May dep K G) (Told dep K G) (Tells dep K tag) := by
  unfold resolveUncached
  refine Prog.honours_bind (findUnique_honours tag.text) (fun mirrorRow hm => ?_)
  exact Prog.honours_bind (sourceRow_honours tag hm) (fun source hs => answerFrom_honours tag hs)

theorem settle_honours {α : Type} {p : Async α} {Q : α → Prop}
    (h : p.Honours (May dep K G) (Told dep K G) Q) :
    (settle p).Honours (May dep K G) (Told dep K G) (fun r => ∀ a, r = .ok a → Q a) := by
  refine Prog.honours_tryCatch (Prog.honours_bind h (fun a ha b hb => ?_)) (fun e a ha => by cases ha)
  cases hb
  exact ha

theorem settled_honours {α : Type} {Q : α → Prop} {r : Except Thrown α} (h : ∀ a, r = .ok a → Q a) :
    (settled r).Honours (May dep K G) (Told dep K G) Q := by
  cases r with
  | ok a => exact h a rfl
  | error e => trivial

/-- Whether it finds the answer cached, shares a lookup or makes its own. -/
theorem resolve_honours (hg : ∀ flight key key', G flight key → G flight key' → key = key')
    (server : Nat) (tag : NormalizedTag) :
    (resolve dep server tag).Honours (May dep K G) (Told dep K G) (Tells dep K tag) := by
  unfold resolve
  refine Prog.honours_bind (cacheGet_honours tag.text) (fun cached hc => ?_)
  match cached with
  | some .negative => trivial
  | some (.response response) => exact hc response rfl
  | none =>
    refine Prog.honours_bind (Prog.honours_request trivial) (fun flight hf => ?_)
    cases flight with
    | joins flight =>
      refine ⟨trivial,fun result hr => settled_honours (fun response he => ?_)⟩
      subst he
      exact hr tag hf
    | leads flight =>
      refine Prog.honours_bind (settle_honours (resolveUncached_honours tag)) (fun result hr => ?_)
      refine ⟨?_,fun _ _ => settled_honours hr⟩
      cases result with
      | error e => trivial
      | ok response =>
        intro tag' hg'
        cases buildResolveCacheKey_inj (hg flight _ _ hg' hf)
        exact hr response rfl

theorem findActive_honours (tag : JsString) :
    (findActiveIdentity tag).Honours (May dep K G) (Told dep K G)
      (fun found => ∀ row, found = some row → K tag row.owner row.wallet) := by
  refine Prog.honours_bind (findUnique_honours tag) (fun found h row hr => ?_)
  exact (h row (Option.filter_eq_some_iff.mp hr).1).2

theorem identity_honours (tag : NormalizedTag) :
    (identity tag).Honours (May dep K G) (Told dep K G)
      (fun response => ∃ row, K tag row.owner row.wallet ∧ response = toIdentityResponse tag row) := by
  refine Prog.honours_bind (findActive_honours tag.text) (fun found h => ?_)
  cases found with
  | none => trivial
  | some row => exact ⟨row,h row rfl,rfl⟩

theorem linkOf_honours (tag : NormalizedTag) :
    (linkOf dep tag).Honours (May dep K G) (Told dep K G)
      (fun response => ∃ owner, K tag owner response.wallet ∧ response.tag = presentTag tag ∧
        response.paymentLink = buildPaymentLink dep.paymentLinkBaseUrl tag) := by
  refine Prog.honours_bind (findActive_honours tag.text) (fun found h => ?_)
  cases found with
  | none => trivial
  | some row => exact ⟨row.owner,h row rfl,rfl,rfl⟩

theorem updateIdentity_honours (params : UpdateIdentityParams) :
    (updateIdentity dep params).Honours (May dep K G) (Told dep K G)
      (fun response => ∃ row, K params.tag row.owner row.wallet ∧
        response = toIdentityResponse params.tag row) := by
  have hcheck : ∀ field text, (checkFreeText dep field text).Honours (May dep K G) (Told dep K G)
      (fun _ => True) := fun field text =>
    Prog.honours_always (WriterPath.checkFreeText_always dep field text)
  refine Prog.honours_bind (findActive_honours params.tag.text) (fun found _ => ?_)
  cases found with
  | none => trivial
  | some row =>
    refine Prog.honours_ite (fun _ => trivial) (fun _ => ?_)
    refine Prog.honours_bind (hcheck _ _) (fun _ _ => Prog.honours_bind (hcheck _ _) (fun _ _ => ?_))
    have hupdate : (update params.tag.text (profileData params.dto params.provided)).Honours
        (May dep K G) (Told dep K G) (fun row => row.tag = params.tag.text ∧
          K params.tag row.owner row.wallet) := by
      have hmay : May dep K G (.updateIdentity params.tag.text
          (profileData params.dto params.provided)) := ⟨rfl,rfl⟩
      exact Prog.honours_mono (fun _ h => h) (awaitDb_honours (Prog.honours_request hmay))
    refine Prog.honours_bind hupdate (fun updated hu => ?_)
    exact Prog.honours_bind (cacheDelete_honours _) (fun _ _ => ⟨updated,hu.2,rfl⟩)

theorem gate_honours (tag : NormalizedTag) :
    (checkNamingGate dep tag).Honours (May dep K G) (Told dep K G)
      (fun result => (result.reason = .alreadyRegistered → ∃ owner wallet, K tag owner wallet) ∧
        (result.available = true →
          Moderation.checkModerationGate dep.engine tag = .ok .allowed)) := by
  unfold checkNamingGate
  split
  · trivial
  · exact ⟨fun h => (by cases h),fun h => (by cases h)⟩
  · exact ⟨fun h => (by cases h),fun h => (by cases h)⟩
  · rename_i hallowed
    refine Prog.honours_bind (findUnique_honours tag.text) (fun found hf => ?_)
    cases found with
    | none => exact ⟨fun h => (by cases h),fun _ => hallowed⟩
    | some row => exact ⟨fun _ => ⟨row.owner,row.wallet,(hf row rfl).2⟩,fun h => (by cases h)⟩

theorem reason_injective : Function.Injective NamingGateReason.text := by
  intro a b h
  cases a <;> cases b
  all_goals first | rfl | exact absurd h (by decide)

theorem availability_honours (rawTag : JsString) :
    (availability dep rawTag).Honours (May dep K G) (Told dep K G)
      (fun response => response.reason = NamingGateReason.alreadyRegistered.text →
        ∃ tag owner wallet, normalizeTag rawTag = .accepted tag ∧ K tag.text owner wallet) := by
  unfold availability
  split
  · have hne : js "invalid" ≠ NamingGateReason.alreadyRegistered.text := by decide
    exact fun h => absurd h hne
  · rename_i tag hn
    refine Prog.honours_bind (gate_honours tag) (fun result hg ht => ?_)
    obtain ⟨owner,wallet,hk⟩ := hg.1 (reason_injective ht)
    exact ⟨tag,owner,wallet,hn,hk⟩

end Programs

variable (dep K G) in
def ApiMay : ApiCommand → Prop
  | .mirror c => May dep K G c
  | _ => True

variable (dep K G) in
def ApiTold : (c : ApiCommand) → ApiReply c → Prop
  | .mirror c, r => Told dep K G c r
  | .findManyActive _ _ _, .ok rows => ∀ row ∈ rows, K row.tag row.owner row.wallet
  | _, _ => True

section Requests

theorem relay_honours {α : Type} {p : Async α} {Q : α → Prop}
    (h : p.Honours (May dep K G) (Told dep K G) Q) :
    (relay p).Honours (ApiMay dep K G) (ApiTold dep K G) Q := by
  have hmay : ∀ c, May dep K G c → ApiMay dep K G (.mirror c) := fun _ h => h
  have htold : ∀ c r, ApiTold dep K G (.mirror c) r → Told dep K G c r := fun _ _ h => h
  exact Prog.honours_embed hmay htold h

/-- The commands beside the mirror's may be sent by anyone. -/
theorem own_honours {α : Type} {p : ApiAsync α}
    (h : p.Always (fun c => BlockedInvisible.ownCommand c = true)) :
    p.Honours (ApiMay dep K G) (ApiTold dep K G) (fun _ => True) := by
  refine Prog.honours_always (Prog.always_mono (fun c hc => ?_) h)
  cases c with
  | mirror c => cases hc
  | _ => trivial

theorem param_honours (rawTag : JsString) :
    (normalizeTagParamOrThrow rawTag).Honours (ApiMay dep K G) (ApiTold dep K G)
      (fun tag => normalizeTag rawTag = .accepted tag) := by
  unfold normalizeTagParamOrThrow
  split
  · assumption
  · trivial

/-- A handler behind the check of its tag. -/
theorem tagged_honours {Q : ApiAnswer → Prop} (rawTag : JsString)
    {f : NormalizedTag → ApiAsync ApiAnswer}
    (h : ∀ tag, normalizeTag rawTag = .accepted tag →
      (f tag).Honours (ApiMay dep K G) (ApiTold dep K G) Q) :
    (normalizeTagParamOrThrow rawTag >>= f).Honours (ApiMay dep K G) (ApiTold dep K G) Q :=
  Prog.honours_bind (param_honours rawTag) h

theorem answer_honours {α : Type} {p : ApiAsync α} {Q : α → Prop} {Q' : ApiAnswer → Prop}
    {f : α → ApiAnswer} (hp : p.Honours (ApiMay dep K G) (ApiTold dep K G) Q)
    (hq : ∀ a, Q a → Q' (f a)) :
    (do return f (← p) : ApiAsync ApiAnswer).Honours (ApiMay dep K G) (ApiTold dep K G) Q' :=
  Prog.honours_bind hp hq

theorem activeOrThrow_honours (error : Thrown) (found : Option Identity) :
    (activeOrThrow error found).Honours (ApiMay dep K G) (ApiTold dep K G)
      (fun row => found = some row) := by
  cases found with
  | none => trivial
  | some row => exact Prog.honours_ite (fun _ => trivial) (fun _ => rfl)

/-- Whoever passes may be called the tag's owner. -/
theorem guard_honours (authPubkey rawTag : JsString) :
    (TagOwnershipGuard.canActivate authPubkey rawTag).Honours (ApiMay dep K G) (ApiTold dep K G)
      (fun _ => ∃ tag wallet, normalizeTag rawTag = .accepted tag ∧
        K tag.text authPubkey wallet) := by
  unfold TagOwnershipGuard.canActivate
  refine Prog.honours_ite (fun _ => trivial) (fun _ => ?_)
  refine Prog.honours_bind (param_honours rawTag) (fun tag hn => ?_)
  refine Prog.honours_bind (relay_honours (findUnique_honours tag.text)) (fun found hf => ?_)
  refine Prog.honours_bind (activeOrThrow_honours _ found) (fun row hr => ?_)
  refine Prog.honours_ite (fun _ => trivial) (fun ho => ?_)
  exact ⟨tag,row.wallet,hn,not_not.mp ho ▸ (hf row hr).2⟩

theorem blockhash_honours :
    getLatestBlockhash.Honours (ApiMay dep K G) (ApiTold dep K G) (fun _ => True) :=
  own_honours (BlockedInvisible.awaitRpc_always ⟨rfl,fun _ => trivial⟩)

theorem built_honours {α : Type} (result : Except BuildError α) :
    (built result).Honours (ApiMay dep K G) (ApiTold dep K G) (fun a => result = .ok a) := by
  cases result with
  | ok a => exact rfl
  | error e => trivial

theorem search_honours (cfg : ApiConfig) (rawQuery : JsString) :
    (search cfg rawQuery).Honours (ApiMay dep K G) (ApiTold dep K G)
      (fun items => ∀ item ∈ items, ∃ tag owner wallet,
        item.tag = presentTag tag ∧ K tag owner wallet) := by
  unfold search
  refine Prog.honours_ite (fun _ item hi => by cases hi) (fun _ => ?_)
  have hfind : ∀ query cond take, (findManyActive query cond take).Honours (ApiMay dep K G)
      (ApiTold dep K G) (fun rows => ∀ row ∈ rows, K row.tag row.owner row.wallet) := by
    intro query cond take
    have hmay : ApiMay dep K G (.findManyActive query cond take) := trivial
    refine Prog.honours_bind (Prog.honours_request hmay) (fun r hr => ?_)
    cases r with
    | ok rows => exact hr
    | error e => trivial
  refine Prog.honours_bind (hfind _ _ _) (fun rows hrows item hitem => ?_)
  obtain ⟨⟨row,rank⟩,hmem,rfl⟩ := List.mem_map.mp hitem
  have hranked := List.mem_mergeSort.mp (List.mem_of_mem_take hmem)
  obtain ⟨row',hrow,he⟩ := List.mem_map.mp (List.mem_filter.mp hranked).1
  cases he
  exact ⟨row.tag,row.owner,row.wallet,rfl,hrows row hrow⟩

/-- The transaction is built for the owner the row names, whatever the guard has seen. -/
theorem updateWallet_honours (cfg : ApiConfig) (tag : NormalizedTag)
    (ownerPubkey newWallet : JsString) :
    (WalletUpdateService.buildTransaction cfg tag ownerPubkey newWallet).Honours
      (ApiMay dep K G) (ApiTold dep K G) (fun response => (∃ old, K tag.text ownerPubkey old) ∧
        IssuedToUpdate cfg tag ownerPubkey newWallet response) := by
  refine Prog.honours_bind (relay_honours (findUnique_honours tag.text)) (fun found hf => ?_)
  refine Prog.honours_bind (activeOrThrow_honours _ found) (fun row hr => ?_)
  refine Prog.honours_ite (fun _ => trivial) (fun ho => ?_)
  have hk : ∃ old, K tag.text ownerPubkey old := ⟨row.wallet,not_not.mp ho ▸ (hf row hr).2⟩
  refine Prog.honours_ite (fun _ => trivial) (fun _ => ?_)
  refine Prog.honours_bind blockhash_honours (fun blockhash _ => ?_)
  exact Prog.honours_bind (built_honours _) (fun tx htx => ⟨hk,blockhash,tx,htx,rfl⟩)

theorem registerFree_honours (cfg : ApiConfig) (params : RegisterParams) (tag : NormalizedTag)
    (hn : normalizeTag params.rawTag = .accepted tag)
    (hgate : Moderation.checkModerationGate cfg.dep.engine tag = .ok .allowed) :
    (registerFree cfg params tag).Honours (ApiMay dep K G) (ApiTold dep K G)
      (IssuedToRegister cfg params) := by
  unfold registerFree
  refine Prog.honours_ite (fun _ => trivial) (fun _ => ?_)
  refine Prog.honours_bind (own_honours (BlockedInvisible.checkFeePayer_always _ _)) (fun _ _ => ?_)
  refine Prog.honours_bind blockhash_honours (fun blockhash _ => ?_)
  refine Prog.honours_bind (built_honours _) (fun tx htx => ?_)
  refine Prog.honours_bind (own_honours ?_) (fun _ _ => ⟨tag,blockhash,tx,hn,hgate,htx,rfl⟩)
  refine Prog.always_bind (BlockedInvisible.awaitRpc_always ⟨rfl,fun _ => trivial⟩) (fun rent => ?_)
  refine Prog.always_bind (BlockedInvisible.awaitRpc_always ⟨rfl,fun _ => trivial⟩) (fun fee => ?_)
  refine Prog.always_bind (BlockedInvisible.built_always _) (fun payer => ?_)
  exact Prog.always_bind (BlockedInvisible.awaitRpc_always ⟨rfl,fun _ => trivial⟩)
    (fun balance => Prog.always_ite trivial trivial)

theorem register_honours (cfg : ApiConfig) (params : RegisterParams) :
    (register cfg params).Honours (ApiMay cfg.dep K G) (ApiTold cfg.dep K G)
      (IssuedToRegister cfg params) := by
  refine Prog.honours_bind (param_honours params.rawTag) (fun tag hn => ?_)
  refine Prog.honours_bind (relay_honours (gate_honours tag)) (fun gateResult hg => ?_)
  refine Prog.honours_ite (fun _ => Prog.honours_ite (fun _ => trivial) (fun _ => trivial))
    (fun ha => ?_)
  exact registerFree_honours cfg params tag hn (hg.2 (by simpa using ha))

/-- Every request answers only what may be said. -/
theorem request_honours {cfg : ApiConfig} {K : JsString → JsString → JsString → Prop}
    (hg : ∀ flight key key', G flight key → G flight key' → key = key') (server : Nat)
    (asked : ApiRequest) :
    (asked.body cfg server).Honours (ApiMay cfg.dep K G) (ApiTold cfg.dep K G)
      (Vouched cfg K asked) := by
  cases asked with
  | resolve rawTag =>
    refine tagged_honours rawTag (fun tag hn => ?_)
    refine answer_honours (relay_honours (resolve_honours hg server tag)) (fun response h => ?_)
    obtain ⟨row,hk,rfl⟩ := h
    exact ⟨tag,row,hn,hk,rfl⟩
  | identity rawTag =>
    refine tagged_honours rawTag (fun tag hn => ?_)
    refine answer_honours (relay_honours (identity_honours tag)) (fun response h => ?_)
    obtain ⟨row,hk,rfl⟩ := h
    exact ⟨tag,row,hn,hk,rfl⟩
  | qr rawTag | paymentLink rawTag =>
    refine tagged_honours rawTag (fun tag hn => ?_)
    refine answer_honours (relay_honours (linkOf_honours tag)) (fun response h => ?_)
    obtain ⟨owner,hk,ht,hl⟩ := h
    exact ⟨tag,owner,hn,hk,ht,hl⟩
  | search rawQuery => exact answer_honours (search_honours cfg rawQuery) (fun items h => h)
  | updateIdentity rawTag authPubkey dto provided =>
    refine Prog.honours_bind (guard_honours authPubkey rawTag) (fun _ _ => ?_)
    refine tagged_honours rawTag (fun tag hn => ?_)
    refine answer_honours (relay_honours (updateIdentity_honours _)) (fun response h => ?_)
    obtain ⟨row,hk,rfl⟩ := h
    exact ⟨tag,row,hn,hk,rfl⟩
  | updateWallet rawTag authPubkey wallet =>
    refine Prog.honours_bind (guard_honours authPubkey rawTag) (fun _ _ => ?_)
    refine tagged_honours rawTag (fun tag hn => ?_)
    refine answer_honours (updateWallet_honours cfg tag authPubkey wallet) (fun response h => ?_)
    obtain ⟨⟨old,hk⟩,hissued⟩ := h
    exact ⟨tag,old,hn,hk,hissued⟩
  | availability rawTag =>
    exact answer_honours (relay_honours (availability_honours rawTag)) (fun response h => h)
  | register params =>
    exact answer_honours (register_honours cfg params) (fun response h => h)

/-- And so does whatever else runs in the network. -/
theorem call_honours {cfg : NetworkConfig} {K : JsString → JsString → JsString → Prop}
    (hg : ∀ flight key key', G flight key → G flight key' → key = key') (call : NetworkCall)
    (h : ∀ o, call = .notification o → Sincere cfg.dep K o.address o.data) :
    (call.body cfg).Honours (ApiMay cfg.dep K G) (ApiTold cfg.dep K G)
      (NetworkVouched cfg.toApiConfig K call) := by
  cases call with
  | request server asked =>
    have hasked : (asked.body cfg.toApiConfig server).Honours (ApiMay cfg.dep K G)
        (ApiTold cfg.dep K G) (Vouched cfg.toApiConfig K asked) := request_honours hg server asked
    exact Prog.honours_bind hasked (fun answer ha => ha)
  | notification o =>
    exact Prog.honours_bind (relay_honours (process_honours (h o rfl))) (fun _ _ => trivial)
  | reconcile => exact Prog.honours_bind (relay_honours reconcile_honours) (fun _ _ => trivial)
  | backfillModerationGate =>
    exact Prog.honours_bind (relay_honours backfill_honours) (fun _ _ => trivial)

end Requests

end Tagwise.Proofs.Provenance
