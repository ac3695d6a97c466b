import Tagwise.Api.Sample
import Tagwise.Proofs.Provenance

/-! Nothing the network says of a tag is made up: whatever is stored or answered has once
stood on the chain. -/

namespace Tagwise.Proofs.Attestation
open Js Tagwise.Core Services Lib Api Protocol Provenance
open MirrorRecord (leads handle_counted)
open Proofs.Representation (WellFormed AllWellFormed DerivesApart)

/-- The submission is an instruction of the transaction, under the signatures it carries. -/
structure Carries (programId : Program.Pubkey) (tx : Program.Transaction)
    (signed : List Program.Pubkey) (sub : Program.Submission) : Prop where
  signers : sub.signers = tx.signers
  signed : ∀ key ∈ tx.signers, key ∈ signed
  instruction : ∃ raw ∈ tx.instructions, raw.programId = programId ∧
    Program.readInstruction raw.accounts raw.data = .ok sub.instruction

/-- The submission that an instruction of this program comes to. -/
def submissionOf (programId : Program.Pubkey) (tx : Program.Transaction) (payerFunded : Bool)
    (raw : Program.RawInstruction) : Option Program.Submission :=
  if raw.programId ≠ programId then none
  else
    match Program.readInstruction raw.accounts raw.data with
    | .error _ => none
    | .ok instruction => some ⟨instruction,tx.signers,tx.writable,payerFunded⟩

/-- What the program does for a transaction: its instructions in their order, or nothing at all
where one of them fails or a signature is missing. -/
def performed (sol : Program.Solana) (programId : Program.Pubkey) (tx : Program.Transaction)
    (signed : List Program.Pubkey) (payerFunded : Bool) (chain : Program.Chain) :
    List Program.Submission :=
  match Program.processTransaction sol programId tx signed payerFunded chain with
  | .error _ => []
  | .ok _ => tx.instructions.filterMap (submissionOf programId tx payerFunded)

theorem submissionOf_carried {programId : Program.Pubkey} {tx : Program.Transaction}
    {signed : List Program.Pubkey} {payerFunded : Bool} {sub : Program.Submission}
    (hsigned : ∀ key ∈ tx.signers, key ∈ signed)
    (h : sub ∈ tx.instructions.filterMap (submissionOf programId tx payerFunded)) :
    Carries programId tx signed sub := by
  obtain ⟨raw,hraw,hs⟩ := List.mem_filterMap.mp h
  rw [submissionOf] at hs
  by_cases hid : raw.programId = programId
  · rw [if_neg (by simpa using hid)] at hs
    cases hr : Program.readInstruction raw.accounts raw.data with
    | error e =>
      rw [hr] at hs
      cases hs
    | ok instruction =>
      rw [hr] at hs
      cases hs
      exact ⟨rfl,hsigned,raw,hraw,hid,hr⟩
  · rw [if_pos hid] at hs
    cases hs

/-- Instructions that all go through are a run of submissions that all succeed. -/
theorem processInstructions_run {sol : Program.Solana} {programId : Program.Pubkey}
    {tx : Program.Transaction} {payerFunded : Bool} {chain chain' : Program.Chain}
    {raws : List Program.RawInstruction}
    (h : Program.processInstructions sol programId tx payerFunded chain raws = .ok chain') :
    chain' = run (Program.submit sol) chain
        (raws.filterMap (submissionOf programId tx payerFunded)) ∧
      Along (Program.submit sol) (Authority.Succeeds sol) chain
        (raws.filterMap (submissionOf programId tx payerFunded)) := by
  induction raws generalizing chain with
  | nil =>
    cases h
    exact ⟨rfl,trivial⟩
  | cons raw raws ih =>
    rw [Program.processInstructions] at h
    cases hp : Program.processInstruction sol programId tx payerFunded chain raw with
    | error e =>
      rw [hp] at h
      cases h
    | ok mid =>
      rw [hp] at h
      by_cases hid : raw.programId = programId
      · cases hr : Program.readInstruction raw.accounts raw.data with
        | error e =>
          simp only [Program.processInstruction, hid, ne_eq, not_true_eq_false, ↓reduceIte, hr] at hp
          cases hp
        | ok instruction =>
          have hsub : submissionOf programId tx payerFunded raw =
              some ⟨instruction,tx.signers,tx.writable,payerFunded⟩ := by
            rw [submissionOf, if_neg (by simpa using hid), hr]
          rw [Program.processInstruction_own hid hr] at hp
          cases he : Program.execute sol chain ⟨instruction,tx.signers,tx.writable,payerFunded⟩ with
          | error e =>
            rw [he] at hp
            cases hp
          | ok next =>
            rw [he] at hp
            cases hp
            rw [List.filterMap_cons_some hsub, run_cons, Authority.submit_ok he]
            obtain ⟨hrun,halong⟩ := ih h
            refine ⟨hrun,⟨_,he⟩,?_⟩
            rw [Authority.submit_ok he]
            exact halong
      · have hsub : submissionOf programId tx payerFunded raw = none := if_pos hid
        rw [Program.processInstruction, if_pos hid] at hp
        cases hp
        rw [List.filterMap_cons_none hsub]
        exact ih h

/-- A transaction is the run of what is performed for it. -/
theorem submitTransaction_run (sol : Program.Solana) (programId : Program.Pubkey)
    (tx : Program.Transaction) (signed : List Program.Pubkey) (payerFunded : Bool)
    (chain : Program.Chain) :
    let subs := performed sol programId tx signed payerFunded chain
    Program.submitTransaction sol programId tx signed payerFunded chain =
      run (Program.submit sol) chain subs ∧
    Along (Program.submit sol) (Authority.Succeeds sol) chain subs ∧
    ∀ sub ∈ subs, Carries programId tx signed sub := by
  intro subs
  simp only [subs, performed, Program.submitTransaction]
  cases hp : Program.processTransaction sol programId tx signed payerFunded chain with
  | error e => exact ⟨rfl,trivial,fun sub hs => by cases hs⟩
  | ok chain' =>
    rw [Program.processTransaction] at hp
    split at hp
    · rename_i hall
      obtain ⟨hrun,halong⟩ := processInstructions_run hp
      refine ⟨hrun,halong,fun sub hs => submissionOf_carried (fun key hk => ?_) hs⟩
      exact List.contains_iff_mem.mp (List.all_eq_true.mp hall key hk)
    · cases hp

/-- The present chain and every past one are states the program leads to. -/
structure Historic (sol : Program.Solana) (n : Network) : Prop where
  present : n.chain ∈ n.past
  led : ∀ chain ∈ n.past, ∃ subs, chain = Authority.after sol subs

theorem historic_act {cfg : NetworkConfig} {n : Network} (h : Historic cfg.dep.sol n)
    (weather : NetworkWeather) : Historic cfg.dep.sol (n.act cfg weather) := by
  cases weather with
  | land tx signed payerFunded =>
    refine ⟨List.mem_cons_self,fun chain hc => ?_⟩
    rcases List.mem_cons.mp hc with rfl | hc
    · have hsubs := (submitTransaction_run cfg.dep.sol cfg.programId tx signed payerFunded
        n.chain).1
      obtain ⟨before,hbefore⟩ := h.led n.chain h.present
      refine ⟨before ++ performed cfg.dep.sol cfg.programId tx signed payerFunded n.chain,?_⟩
      rw [hsubs, Authority.after, run_append]
      exact congrArg (run (Program.submit cfg.dep.sol) ·
        (performed cfg.dep.sol cfg.programId tx signed payerFunded n.chain)) hbefore
    · exact h.led chain hc
  | services weather => exact ⟨h.present,h.led⟩
  | report accountInfo programAccounts => exact ⟨h.present,h.led⟩

theorem handle_chain {n n' : Network} {c : ApiCommand} {r : ApiReply c}
    (h : n.handle c = some (n', r)) : n'.chain = n.chain ∧ n'.past = n.past := by
  obtain ⟨reply,_,he⟩ := Option.map_eq_some_iff.mp h
  cases he
  exact ⟨rfl,rfl⟩

section Pools
variable {cfg : NetworkConfig}

theorem step_historic (pool : NetworkPool) (event : NetworkEvent)
    (h : Historic cfg.dep.sol pool.shared) : Historic cfg.dep.sol (pool.step cfg event).shared := by
  cases event with
  | spawn call => exact h
  | turn who =>
    rcases Pool.turn_cases Network.handle pool who with he | ⟨call,c,k,n,r,ht,hh,he⟩
    · rw [NetworkPool.step, Pool.step, he]
      exact h
    · rw [NetworkPool.step, Pool.step, he]
      obtain ⟨hchain,hpast⟩ := handle_chain hh
      exact ⟨hchain ▸ hpast ▸ h.present,hpast ▸ h.led⟩
  | outside what => exact historic_act h what

/-- The past only grows. -/
theorem step_past (pool : NetworkPool) (event : NetworkEvent) :
    pool.shared.past ⊆ (pool.step cfg event).shared.past := by
  cases event with
  | spawn call => exact List.Subset.refl _
  | turn who =>
    rcases Pool.turn_cases Network.handle pool who with he | ⟨call,c,k,n,r,ht,hh,he⟩
    · rw [NetworkPool.step, Pool.step, he]
      exact List.Subset.refl _
    · rw [NetworkPool.step, Pool.step, he]
      exact (handle_chain hh).2 ▸ List.Subset.refl _
  | outside what =>
    cases what with
    | land tx signed payerFunded => exact List.subset_cons_self _ _
    | services weather => exact List.Subset.refl _
    | report accountInfo programAccounts => exact List.Subset.refl _

def apiLeads : (c : ApiCommand) → ApiReply c → Option (Nat × JsString × Nat)
  | .mirror c, r => leads c r
  | _, _ => none

/-- The lookup is one that the record shows opened under this key. -/
def Opened (trace : List (Entry ApiCommand ApiReply Network)) (flight : Nat) (key : JsString) :
    Prop :=
  ∃ e ∈ trace, ∃ server, apiLeads e.command e.reply = some (server, key, flight)

structure Numbered (pool : NetworkPool) : Prop where
  counted : ∀ flight key, Opened pool.trace flight key →
    flight < pool.shared.services.mirror.nextFlight
  once : ∀ flight key key', Opened pool.trace flight key → Opened pool.trace flight key' → key = key'

theorem handle_numbered {n n' : Network} {c : ApiCommand} {r : ApiReply c}
    (h : n.handle c = some (n', r)) :
    n.services.mirror.nextFlight ≤ n'.services.mirror.nextFlight ∧
    ∀ server key flight, apiLeads c r = some (server, key, flight) →
      flight = n.services.mirror.nextFlight ∧ flight < n'.services.mirror.nextFlight := by
  obtain ⟨⟨w,r'⟩,hw,he⟩ := Option.map_eq_some_iff.mp h
  cases he
  cases c with
  | mirror c =>
    obtain ⟨⟨mirror,r''⟩,hm,he⟩ := Option.map_eq_some_iff.mp hw
    cases he
    rcases handle_counted hm with ⟨hnext,server',key',hl'⟩ | ⟨hnext,hl'⟩
    · refine ⟨by simp only [ApiWorld.withMirror]; omega,fun server key flight hl => ?_⟩
      cases hl'.symm.trans hl
      exact ⟨rfl,by simp only [ApiWorld.withMirror]; omega⟩
    · refine ⟨by simp only [ApiWorld.withMirror]; omega,fun server key flight hl => ?_⟩
      cases hl'.symm.trans hl
  | _ =>
    cases hw
    exact ⟨Nat.le_refl _,fun _ _ _ hl => by cases hl⟩

theorem step_numbered (pool : NetworkPool) (event : NetworkEvent) (h : Numbered pool) :
    Numbered (pool.step cfg event) := by
  cases event with
  | spawn call => exact ⟨h.counted,h.once⟩
  | turn who =>
    rcases Pool.turn_cases Network.handle pool who with he | ⟨call,c,k,n,r,ht,hh,he⟩
    · rw [NetworkPool.step, Pool.step, he]
      exact h
    · rw [NetworkPool.step, Pool.step, he]
      obtain ⟨hle,hlead⟩ := handle_numbered hh
      have hnew : ∀ flight key, Opened (pool.trace ++ [⟨who,pool.shared,c,r⟩]) flight key →
          Opened pool.trace flight key ∨ ∃ server, apiLeads c r = some (server, key, flight) := by
        intro flight key ho
        obtain ⟨e,hm,server,hl⟩ := ho
        rcases List.mem_append.mp hm with hm | hm
        · exact .inl ⟨e,hm,server,hl⟩
        · cases List.mem_singleton.mp hm
          exact .inr ⟨server,hl⟩
      refine ⟨fun flight key ho => ?_,fun flight key key' ho ho' => ?_⟩
      · rcases hnew flight key ho with ho | ⟨server,hl⟩
        · exact Nat.lt_of_lt_of_le (h.counted flight key ho) hle
        · exact (hlead server key flight hl).2
      · rcases hnew flight key ho with ho | ⟨server,hl⟩
        · rcases hnew flight key' ho' with ho' | ⟨server',hl'⟩
          · exact h.once flight key key' ho ho'
          · exact absurd (h.counted flight key ho)
              (by rw [(hlead server' key' flight hl').1]; exact Nat.lt_irrefl _)
        · rcases hnew flight key' ho' with ho' | ⟨server',hl'⟩
          · exact absurd (h.counted flight key' ho')
              (by rw [(hlead server key flight hl).1]; exact Nat.lt_irrefl _)
          · cases hl.symm.trans hl'
            rfl
  | outside what =>
    refine ⟨fun flight key ho => ?_,h.once⟩
    have hc := h.counted flight key ho
    cases what with
    | land tx signed payerFunded => exact hc
    | services weather => cases weather <;> exact hc
    | report accountInfo programAccounts => exact hc

end Pools

/-- What the node reports at a tag's address has been the tag's account. -/
theorem sincere_of_reported {dep : Deployment} (hapart : DerivesApart dep.sol)
    (hbase : Function.Injective dep.sol.base58) {past past' : List Program.Chain}
    (hled : ∀ chain ∈ past, ∃ subs, chain = Authority.after dep.sol subs) (hsub : past ⊆ past')
    {address : JsString} {data : List UInt8} (h : Reported dep.sol past address data) :
    Sincere dep (Stood dep.sol past') address data := by
  intro decoded hd tag bump hp
  obtain ⟨chain,hmem,key,account,ha,rfl,rfl⟩ := h ⟨decoded,hd⟩
  obtain ⟨subs,hsubs⟩ := hled chain hmem
  have hw : WellFormed dep.sol key account :=
    Representation.after_wellFormed dep.sol subs key account (hsubs ▸ ha)
  obtain ⟨decoded',hd',hdenotes,_⟩ := Codec.decode_of_serialize dep.sol hw.stores
  cases hd'.symm.trans hd
  simp only [deriveTagPda, buildTagSeeds_normalized] at hp
  split at hp
  · cases hp
  rename_i key' bump' hfind
  obtain ⟨hkey,rfl⟩ := Prod.mk.inj (Except.ok.inj hp)
  cases hbase hkey
  have hcanonical : Program.CanonicalBytes (asciiBytes tag.text) := by
    rw [asciiBytes, ← encodeUtf8_ascii tag.ascii]
    exact Parity.canonical_normalized tag
  have hslice := hapart _ _ key account.bump bump' hw.stores.canonical hcanonical hw.derived hfind
  refine ⟨tag,rfl,chain,hsub hmem,key,account,ha,?_,?_,hdenotes.owner,hdenotes.wallet⟩
  · rw [← hslice]
    exact hw.derived
  · rw [← hslice]
    exact hw.stores

/-- What the mirror and the cache hold and what the calls have answered. -/
structure Attested (cfg : ApiConfig) (pool : NetworkPool) : Prop where
  rows : ∀ row ∈ pool.shared.services.mirror.identities.rows,
    Stood cfg.dep.sol pool.shared.past row.tag row.owner row.wallet
  cached : ∀ tag response, pool.shared.services.mirror.redis
      (buildResolveCacheKey cfg.dep.redisKeyPrefix tag) = some (.response response) →
    ∃ row, Stood cfg.dep.sol pool.shared.past tag row.owner row.wallet ∧
      response = resolveResponse cfg.dep tag row
  /-- What a shared lookup has come to, for whoever still waits for it. -/
  shared : ∀ flight tag response, Opened pool.trace flight
      (buildResolveCacheKey cfg.dep.redisKeyPrefix tag) →
    pool.shared.services.mirror.settled flight = some (.ok response) →
    ∃ row, Stood cfg.dep.sol pool.shared.past tag row.owner row.wallet ∧
      response = resolveResponse cfg.dep tag row
  answers : ∀ (who : Nat) t result, pool.threads[who]? = some t →
    pool.result who = some (.ok result) →
    NetworkVouched cfg (Stood cfg.dep.sol pool.shared.past) t.call result

section Runs
variable {cfg : NetworkConfig} {K : JsString → JsString → JsString → Prop}

/-- The services' side of the bargain, inside the network. -/
theorem serves (trace : List (Entry ApiCommand ApiReply Network)) :
    Serves Network.handle (ApiMay cfg.dep K (Opened trace)) (ApiTold cfg.dep K (Opened trace))
      (fun n => Truthful cfg.dep K (Opened trace) n.services.mirror) trace := by
  intro e he n hh htruthful hmay
  obtain ⟨⟨services,r⟩,hs,heq⟩ := Option.map_eq_some_iff.mp hh
  cases heq
  have hlead : ∀ server key flight, apiLeads e.command e.reply = some (server, key, flight) →
      Opened trace flight key := fun server key flight hl => ⟨e,he,server,hl⟩
  obtain ⟨who,found,c,r⟩ := e
  cases c with
  | mirror c =>
    obtain ⟨⟨mirror,r'⟩,hm,heq⟩ := Option.map_eq_some_iff.mp hs
    cases heq
    exact ⟨handle_truthful htruthful hmay hm (fun server key hl => hlead server key _ hl),
      handle_told htruthful hmay hm (fun server key hl => hlead server key _ hl)⟩
  | findManyActive query cond take =>
    cases congrArg (Option.map Prod.fst) hs
    refine ⟨htruthful,?_⟩
    cases r with
    | error e => trivial
    | ok rows =>
      exact fun row hrow => htruthful.rows row (ApiWorld.handle_findMany_ok hs row hrow).1
  | _ =>
    cases congrArg (Option.map Prod.fst) hs
    exact ⟨htruthful,trivial⟩

theorem act_truthful {G : Nat → JsString → Prop} {n : Network} {what : NetworkWeather}
    (h : Truthful cfg.dep K G n.services.mirror)
    (hreport : ∀ accountInfo programAccounts, what = .report accountInfo programAccounts →
      (∀ address data, accountInfo address = some data → Sincere cfg.dep K address data) ∧
      ∀ account ∈ programAccounts.2, Sincere cfg.dep K account.1 account.2) :
    Truthful cfg.dep K G (n.act cfg what).services.mirror := by
  cases what with
  | land tx signed payerFunded => exact h
  | report accountInfo programAccounts =>
    obtain ⟨hinfo,haccounts⟩ := hreport _ _ rfl
    exact ⟨h.rows,h.cached,h.flying,h.settled,haccounts,hinfo⟩
  | services weather =>
    cases weather with
    | expire key => exact truthful_put h (fun response hr => by cases hr)
    | tick | database | redis | rpc | node | order =>
      exact ⟨h.rows,h.cached,h.flying,h.settled,h.accounts,h.info⟩

/-- The record of a run numbers the lookups it shows. -/
theorem after_numbered (node : RpcNode) (order : ScanOrder) (events : List NetworkEvent) :
    Numbered (NetworkPool.after cfg node order events) := by
  refine run_invariant ⟨fun flight key ho => ?_,fun flight key key' ho => ?_⟩ step_numbered events
  all_goals
    obtain ⟨e,he,_⟩ := ho
    cases he

theorem after_historic (node : RpcNode) (order : ScanOrder) (events : List NetworkEvent) :
    Historic cfg.dep.sol (NetworkPool.after cfg node order events).shared :=
  run_invariant (I := fun pool : NetworkPool => Historic cfg.dep.sol pool.shared)
    ⟨List.mem_singleton_self _,fun _ hc => ⟨[],List.mem_singleton.mp hc⟩⟩ step_historic events

/-- Both sides have kept to it, the network's way. -/
abbrev Honoured (cfg : ApiConfig) (K : JsString → JsString → JsString → Prop)
    (G : Nat → JsString → Prop) : NetworkPool → Prop :=
  Kept (ApiMay cfg.dep K G) (ApiTold cfg.dep K G)
    (fun n => Truthful cfg.dep K G n.services.mirror) (NetworkVouched cfg K)

theorem start_honoured {cfg : ApiConfig} {G : Nat → JsString → Prop} (node : RpcNode)
    (order : ScanOrder) : Honoured cfg K G (Pool.init (Network.start node order)) := by
  refine ⟨⟨?_,?_,?_,?_,?_,?_⟩,fun i t hi => by cases hi⟩
  · exact fun row hrow => by cases hrow
  · exact fun key response hr => by cases hr
  · exact fun server key flight hf => by cases hf
  · exact fun flight response hr => by cases hr
  · exact fun account ha => by cases ha
  · exact fun address data hd => by cases hd

variable (cfg K) in
/-- What the node brings may be said. -/
def Brings : NetworkEvent → Prop
  | .spawn (.notification o) => Sincere cfg.dep K o.address o.data
  | .outside (.report accountInfo programAccounts) =>
    (∀ address data, accountInfo address = some data → Sincere cfg.dep K address data) ∧
    ∀ account ∈ programAccounts.2, Sincere cfg.dep K account.1 account.2
  | _ => True

theorem Brings.mono {K' : JsString → JsString → JsString → Prop} {event : NetworkEvent}
    (h : Brings cfg K event) (hk : ∀ tag owner wallet, K tag owner wallet → K' tag owner wallet) :
    Brings cfg K' event := by
  have hsincere : ∀ {address : JsString} {data : List UInt8}, Sincere cfg.dep K address data →
      Sincere cfg.dep K' address data :=
    fun hs decoded hd tag bump hp => hk _ _ _ (hs decoded hd tag bump hp)
  cases event with
  | spawn call =>
    cases call with
    | notification o => exact hsincere h
    | request | reconcile | backfillModerationGate => trivial
  | turn who => trivial
  | outside what =>
    cases what with
    | report accountInfo programAccounts =>
      exact ⟨fun address data hd => hsincere (h.1 address data hd),
        fun account ha => hsincere (h.2 account ha)⟩
    | land | services => trivial

/-- Where what the node brings may be said, so may what the network holds and answers. -/
theorem after_honoured (node : RpcNode) (order : ScanOrder) (events : List NetworkEvent)
    (h : Along (NetworkPool.step cfg) (fun _ event => Brings cfg K event)
      (Pool.init (Network.start node order)) events) :
    Honoured cfg.toApiConfig K (Opened (NetworkPool.after cfg node order events).trace)
      (NetworkPool.after cfg node order events) := by
  have hnumbered : Numbered (NetworkPool.after cfg node order events) :=
    after_numbered node order events
  refine run_kept (fun pool what hf hi => ?_) (fun pool call hf => ?_) (start_honoured node order)
    (serves _) h
  · refine act_truthful hi (fun accountInfo programAccounts he => ?_)
    subst he
    exact hf
  · refine call_honours hnumbered.once call (fun o he => ?_)
    subst he
    exact hf

/-- An honest node brings nothing but what has stood on the chain. -/
theorem after_brings (hapart : DerivesApart cfg.dep.sol)
    (hbase : Function.Injective cfg.dep.sol.base58) (node : RpcNode) (order : ScanOrder)
    (events : List NetworkEvent)
    (honest : Along (NetworkPool.step cfg) (Honest cfg) (Pool.init (Network.start node order))
      events) :
    Along (NetworkPool.step cfg) (fun _ event => Brings cfg
        (Stood cfg.dep.sol (NetworkPool.after cfg node order events).shared.past) event)
      (Pool.init (Network.start node order)) events := by
  have hled : ∀ chain ∈ (NetworkPool.after cfg node order events).shared.past,
      ∃ subs, chain = Authority.after cfg.dep.sol subs := (after_historic node order events).led
  have hpast : Along (NetworkPool.step cfg)
      (fun pool _ => pool.shared.past ⊆ (NetworkPool.after cfg node order events).shared.past)
      (Pool.init (Network.start node order)) events :=
    along_end (R := fun s t : NetworkPool => s.shared.past ⊆ t.shared.past)
      (fun _ => List.Subset.refl _) (fun _ _ _ h h' => List.Subset.trans h h') step_past _ _
  generalize (NetworkPool.after cfg node order events).shared.past = past at hled hpast
  refine along_mono (fun pool event h => ?_) (along_and honest hpast)
  obtain ⟨hhonest,hsub⟩ := h
  have hsincere : ∀ {address : JsString} {data : List UInt8},
      Reported cfg.dep.sol pool.shared.past address data →
      Sincere cfg.dep (Stood cfg.dep.sol past) address data := fun h =>
    sincere_of_reported hapart hbase (fun chain hc => hled chain (hsub hc)) hsub h
  cases event with
  | spawn call =>
    cases call with
    | notification o => exact hsincere hhonest
    | request | reconcile | backfillModerationGate => trivial
  | turn who => trivial
  | outside what =>
    cases what with
    | report accountInfo programAccounts =>
      exact ⟨fun address data hd => hsincere (hhonest.1 address data hd),
        fun account ha => hsincere (hhonest.2 account ha)⟩
    | land | services => trivial

/-- However transactions, late and repeated reports, lookups, profile updates, sweeps, outages
and expiries interleave: with an honest node the network says of a tag only what has stood on
the chain in an account of that tag, owner and wallet together. -/
theorem nothing_fabricated (cfg : NetworkConfig) (hapart : DerivesApart cfg.dep.sol)
    (hbase : Function.Injective cfg.dep.sol.base58) (node : RpcNode) (order : ScanOrder)
    (events : List NetworkEvent)
    (honest : Along (NetworkPool.step cfg) (Honest cfg) (Pool.init (Network.start node order))
      events) :
    Attested cfg.toApiConfig (NetworkPool.after cfg node order events) := by
  have hkept := after_honoured node order events (after_brings hapart hbase node order events honest)
  exact ⟨hkept.shared.rows,fun tag response hr => hkept.shared.cached _ response hr tag rfl,
    fun flight tag response ho hr => hkept.shared.settled flight response hr tag ho,
    fun who t result ht hr => hkept.result ht hr⟩

end Runs

def sampleConfig : NetworkConfig where
  toApiConfig := BlockedInvisible.sampleConfig
  programId := Program.sampleProgram

/-- The transaction that registers `abc`. -/
def registersAbc : Program.Transaction where
  signers := [Program.sampleOwner]
  writable := [Program.abcAddress, Program.sampleOwner]
  instructions := [⟨Program.sampleProgram,
    [Program.abcAddress, Program.sampleOwner, Program.sampleOwner, Program.sampleSolana.systemProgram],
    Program.registerTagDiscriminator ++ Borsh.string "abc"⟩]

def abcObservation : Indexer.Observation :=
  ⟨Program.base58 Program.abcAddress,Program.abcAccount.serialize,7⟩

/-- The account is announced twice. -/
def abcAnnounced : List NetworkEvent :=
  [.outside (.land registersAbc [Program.sampleOwner] true), .spawn (.notification abcObservation),
    .spawn (.notification abcObservation)]

/-- One observation is processed to its end, the other while the tag is asked for. -/
def abcTurns : List NetworkEvent :=
  List.replicate 7 (.turn 0) ++ [.turn 1, .spawn (.request 1 (.identity (js "@ABC"))), .turn 2] ++
    List.replicate 4 (.turn 1)

def afterAbc : NetworkPool :=
  NetworkPool.after sampleConfig BlockedInvisible.sampleWorld.node .byTag (abcAnnounced ++ abcTurns)

theorem abc_reported : Reported Program.sampleSolana
    ((Network.start BlockedInvisible.sampleWorld.node .byTag).act sampleConfig
      (.land registersAbc [Program.sampleOwner] true)).past
    abcObservation.address abcObservation.data :=
  fun _ => ⟨_,List.mem_cons_self,Program.abcAddress,Program.abcAccount,by decide,rfl,rfl⟩

theorem abc_honest : Along (NetworkPool.step sampleConfig) (Honest sampleConfig)
    (Pool.init (Network.start BlockedInvisible.sampleWorld.node .byTag))
    (abcAnnounced ++ abcTurns) := by
  refine along_append.mpr ⟨⟨trivial,abc_reported,abc_reported,trivial⟩,?_⟩
  simp [abcTurns, Along, Honest]

theorem abc_attested : Attested sampleConfig.toApiConfig afterAbc ∧
    afterAbc.shared.services.mirror.identities.rows.length = 1 ∧
    afterAbc.result 2 = some (.ok (.answer (.identity
      ⟨js "@abc",Program.base58 Program.sampleOwner,Program.base58 Program.sampleOwner,none,none,
        none,none,false,false,0⟩))) :=
  ⟨nothing_fabricated sampleConfig Representation.sample_apart (fun _ _ => Program.base58_injective)
    _ _ _ abc_honest,by decide +kernel,by decide +kernel⟩

end Tagwise.Proofs.Attestation
