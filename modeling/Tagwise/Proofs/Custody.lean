import Tagwise.Proofs.Attestation

/-! How a tag came to its owner and to its wallet: by signatures, on the chain and in whatever
the network shows of it. -/

namespace Tagwise.Proofs.Custody
open Js Tagwise.Core Services Lib Api Protocol
open Program (Solana Submission Pubkey)
open Attestation (Carries Brings)
open Proofs.Representation (DerivesApart)

/-- The submission gives the account this wallet: its registration by that very key, or the
signed word of the one who owns it. -/
inductive Chooses (chain : Program.Chain) (sub : Submission) (key wallet : Pubkey) : Prop
  | registers (accounts : Program.RegisterTag) (tag : String)
      (is : sub.instruction = .registerTag accounts tag) (place : accounts.tagAccount = key)
      (itself : accounts.owner = wallet) (signed : wallet ∈ sub.signers)
  | updates (accounts : Program.UpdateWallet) (account : Program.TagAccount)
      (is : sub.instruction = .updateWallet accounts wallet) (place : accounts.tagAccount = key)
      (found : chain.tagAccounts key = some account) (signed : account.owner ∈ sub.signers)

section Chain
variable (sol : Solana) (key : Pubkey)

/-- The account is the holder's after these submissions: it has registered the account, or has
been handed it by the holder before, and it has not handed it on. -/
inductive Title : List Submission → Pubkey → Prop
  | registered (subs : List Submission) (sub : Submission) (accounts : Program.RegisterTag)
      (tag : String) (is : sub.instruction = .registerTag accounts tag)
      (place : accounts.tagAccount = key) (signed : accounts.owner ∈ sub.signers)
      (fresh : (Authority.after sol subs).tagAccounts key = none) :
      Title (subs ++ [sub]) accounts.owner
  | handed (subs : List Submission) (sub : Submission) (holder newOwner : Pubkey)
      (accounts : Program.TransferOwnership) (title : Title subs holder)
      (is : sub.instruction = .transferOwnership accounts newOwner)
      (place : accounts.tagAccount = key) (signed : holder ∈ sub.signers) :
      Title (subs ++ [sub]) newOwner
  | kept (subs : List Submission) (sub : Submission) (holder : Pubkey) (account : Program.TagAccount)
      (title : Title subs holder)
      (found : (Authority.after sol (subs ++ [sub])).tagAccounts key = some account)
      (still : account.owner = holder) : Title (subs ++ [sub]) holder

/-- The last of the submissions that gave the account a wallet gave it this one. -/
def Chosen (subs : List Submission) (wallet : Pubkey) : Prop :=
  ∃ before sub later, subs = before ++ sub :: later ∧
    Chooses (Authority.after sol before) sub key wallet ∧
    ∀ more, more <+: later → ∃ account,
      (Authority.after sol (before ++ sub :: more)).tagAccounts key = some account ∧
      account.wallet = wallet

variable {sol key} {subs : List Submission} {sub : Submission} {wallet : Pubkey}

theorem Chosen.first (h : Chooses (Authority.after sol subs) sub key wallet) {account : Program.TagAccount}
    (hf : (Authority.after sol (subs ++ [sub])).tagAccounts key = some account)
    (hw : account.wallet = wallet) : Chosen sol key (subs ++ [sub]) wallet := by
  refine ⟨subs,sub,[],rfl,h,fun more hm => ?_⟩
  rw [List.prefix_nil.mp hm]
  exact ⟨account,hf,hw⟩

theorem Chosen.still (h : Chosen sol key subs wallet) {account : Program.TagAccount}
    (hf : (Authority.after sol (subs ++ [sub])).tagAccounts key = some account)
    (hw : account.wallet = wallet) : Chosen sol key (subs ++ [sub]) wallet := by
  obtain ⟨before,chooser,later,rfl,hc,hsince⟩ := h
  refine ⟨before,chooser,later ++ [sub],by simp,hc,fun more hm => ?_⟩
  rcases List.prefix_concat_iff.mp hm with rfl | hm
  · refine ⟨account,?_,hw⟩
    rw [← hf]
    simp
  · exact hsince more hm

/-- An account that was not there before has been registered. -/
theorem effect_created {chain chain' : Program.Chain} (h : Program.Effect sol chain sub chain')
    (hfree : chain.tagAccounts key = none) {account : Program.TagAccount}
    (hf : chain'.tagAccounts key = some account) :
    ∃ accounts tag, sub.instruction = .registerTag accounts tag ∧ accounts.tagAccount = key ∧
      accounts.owner ∈ sub.signers ∧ account.owner = accounts.owner ∧
      account.wallet = accounts.owner := by
  have hother : ∀ {place : Pubkey} {old new : Program.TagAccount},
      chain.tagAccounts place = some old → (chain.put place new).tagAccounts key ≠ some account := by
    intro place old new hfound hnew
    by_cases he : key = place
    · cases (he ▸ hfree).symm.trans hfound
    · rw [chain.put_other new he, hfree] at hnew
      cases hnew
  cases h with
  | failed => cases hfree.symm.trans hf
  | rewalleted accounts newWallet old is checked => exact absurd hf (hother checked.found)
  | transferred accounts newOwner old is checked => exact absurd hf (hother checked.found)
  | registered accounts tag new is checked =>
    by_cases he : key = accounts.tagAccount
    · subst he
      rw [chain.put_self] at hf
      cases hf
      exact ⟨accounts,tag,is,rfl,checked.ownerSigned,checked.owner,checked.wallet⟩
    · rw [chain.put_other new he, hfree] at hf
      cases hf

/-- Whatever was submitted: an account's owner has come to it by registering it or from hand to
hand, each time with the signature of the one who gave it away, and its wallet was named by the
owner of that time. -/
theorem custody (sol : Solana) (key : Pubkey) (subs : List Submission) {account : Program.TagAccount}
    (h : (Authority.after sol subs).tagAccounts key = some account) :
    Title sol key subs account.owner ∧ Chosen sol key subs account.wallet := by
  induction subs using List.reverseRecOn generalizing account with
  | nil => cases h
  | append_singleton subs sub ih =>
    have hnow := h
    rw [Authority.after_snoc] at h
    cases hbefore : (Authority.after sol subs).tagAccounts key with
    | none =>
      obtain ⟨accounts,tag,his,hplace,hsigned,howner,hwallet⟩ :=
        effect_created (Program.submit_effect sol _ sub) hbefore h
      refine ⟨howner ▸ .registered subs sub accounts tag his hplace hsigned hbefore,?_⟩
      exact .first (.registers accounts tag his hplace hwallet.symm (hwallet ▸ hsigned)) hnow rfl
    | some old =>
      obtain ⟨htitle,hchosen⟩ := ih hbefore
      rcases Authority.effect_change (Program.submit_effect sol _ sub) hbefore h with
        rfl | ⟨accounts,newWallet,his,hplace,hsigned,rfl⟩ |
        ⟨accounts,newOwner,his,hplace,hsigned,rfl⟩
      · exact ⟨.kept _ _ _ _ htitle hnow rfl,hchosen.still hnow rfl⟩
      · exact ⟨.kept _ _ _ _ htitle hnow rfl,
          .first (.updates accounts old his hplace hbefore hsigned) hnow rfl⟩
      · exact ⟨.handed _ _ _ _ accounts htitle his hplace hsigned,hchosen.still hnow rfl⟩

end Chain

/-- The chain, and what the program has done, as transactions land. -/
def land (cfg : NetworkConfig) (s : Program.Chain × List Submission) :
    NetworkEvent → Program.Chain × List Submission
  | .outside (.land tx signed payerFunded) =>
    (Program.submitTransaction cfg.dep.sol cfg.programId tx signed payerFunded s.1,
      s.2 ++ Attestation.performed cfg.dep.sol cfg.programId tx signed payerFunded s.1)
  | _ => s

/-- All that the program has done in a run of the network, in its order: the instructions of the
transactions that went through, and none of the refused ones. -/
def ledger (cfg : NetworkConfig) (events : List NetworkEvent) : List Submission :=
  (run (land cfg) (Program.Chain.genesis, []) events).2

section Network
variable {cfg : NetworkConfig}

variable (cfg) in
/-- The submission was an instruction of a transaction that reached the program, and its signers
have signed that transaction. -/
def Landed (events : List NetworkEvent) (sub : Submission) : Prop :=
  ∃ tx signed payerFunded, Event.outside (NetworkWeather.land tx signed payerFunded) ∈ events ∧
    Carries cfg.programId tx signed sub

variable (cfg) in
/-- The ledger has made the chain what it is: every deed in it has landed, and succeeded where
it stands. -/
structure Kept (chain : Program.Chain) (events : List NetworkEvent) : Prop where
  made : chain = Authority.after cfg.dep.sol (ledger cfg events)
  landed : ∀ sub ∈ ledger cfg events, Landed cfg events sub
  succeeded : Along (Program.submit cfg.dep.sol) (Authority.Succeeds cfg.dep.sol)
    Program.Chain.genesis (ledger cfg events)

variable (cfg) in
/-- On the chain as it was after some of the events, this was the tag's owner and this its
wallet, and the ledger tells how they came to it. -/
def Directed (node : RpcNode) (order : ScanOrder) (events : List NetworkEvent)
    (text owner wallet : JsString) : Prop :=
  ∃ earlier, earlier <+: events ∧
    Kept cfg (NetworkPool.after cfg node order earlier).shared.chain earlier ∧
    ∃ key account,
      (NetworkPool.after cfg node order earlier).shared.chain.tagAccounts key = some account ∧
      cfg.dep.sol.findProgramAddress [Program.tagSeedPrefix, asciiBytes text] =
        some (key, account.bump) ∧
      owner = cfg.dep.sol.base58 account.owner ∧
      Title cfg.dep.sol key (ledger cfg earlier) account.owner ∧
      wallet = cfg.dep.sol.base58 account.wallet ∧
      Chosen cfg.dep.sol key (ledger cfg earlier) account.wallet

theorem Landed.later {events later : List NetworkEvent} {sub : Submission}
    (h : Landed cfg events sub) : Landed cfg (events ++ later) sub := by
  obtain ⟨tx,signed,payerFunded,hm,hc⟩ := h
  exact ⟨tx,signed,payerFunded,List.mem_append_left _ hm,hc⟩

theorem ledger_snoc (events : List NetworkEvent) (event : NetworkEvent) :
    ledger cfg (events ++ [event]) =
      (land cfg (run (land cfg) (Program.Chain.genesis, []) events) event).2 := by
  rw [ledger, run_snoc]

/-- An event lands a transaction, or it leaves the chain and the ledger as they are. -/
theorem land_or_quiet (pool : NetworkPool) (event : NetworkEvent) :
    (∃ tx signed payerFunded, event = .outside (.land tx signed payerFunded)) ∨
    (∀ s, land cfg s event = s) ∧
      (NetworkPool.step cfg pool event).shared.chain = pool.shared.chain ∧
      (NetworkPool.step cfg pool event).shared.past = pool.shared.past := by
  cases event with
  | spawn call => exact .inr ⟨fun _ => rfl,rfl,rfl⟩
  | turn who =>
    refine .inr ⟨fun _ => rfl,?_⟩
    rcases Pool.turn_cases Network.handle pool who with he | ⟨call,c,k,n,r,ht,hh,he⟩
    · rw [NetworkPool.step, Pool.step, he]
      exact ⟨rfl,rfl⟩
    · rw [NetworkPool.step, Pool.step, he]
      exact Attestation.handle_chain hh
  | outside what =>
    cases what with
    | services weather => exact .inr ⟨fun _ => rfl,rfl,rfl⟩
    | report accountInfo programAccounts => exact .inr ⟨fun _ => rfl,rfl,rfl⟩
    | land tx signed payerFunded => exact .inl ⟨tx,signed,payerFunded,rfl⟩

theorem after_snoc (node : RpcNode) (order : ScanOrder) (events : List NetworkEvent)
    (event : NetworkEvent) : NetworkPool.after cfg node order (events ++ [event]) =
      NetworkPool.step cfg (NetworkPool.after cfg node order events) event :=
  run_snoc ..

/-- The chain that the ledger is written beside is the network's. -/
theorem land_chain (node : RpcNode) (order : ScanOrder) (events : List NetworkEvent) :
    (run (land cfg) (Program.Chain.genesis, []) events).1 =
      (NetworkPool.after cfg node order events).shared.chain := by
  induction events using List.reverseRecOn with
  | nil => rfl
  | append_singleton events event ih =>
    rw [run_snoc, after_snoc]
    rcases land_or_quiet (NetworkPool.after cfg node order events) event with
      ⟨tx,signed,payerFunded,rfl⟩ | ⟨hquiet,hchain,_⟩
    · exact congrArg (Program.submitTransaction cfg.dep.sol cfg.programId tx signed payerFunded) ih
    · rw [hquiet, hchain]
      exact ih

/-- Of every run. -/
theorem ledger_kept (node : RpcNode) (order : ScanOrder) (events : List NetworkEvent) :
    Kept cfg (NetworkPool.after cfg node order events).shared.chain events := by
  rw [← land_chain node order events]
  induction events using List.reverseRecOn with
  | nil => exact ⟨rfl,fun sub hs => (by cases hs),trivial⟩
  | append_singleton events event ih =>
    obtain ⟨hmade,hlanded,hsucceeded⟩ := ih
    rcases land_or_quiet (NetworkPool.after cfg node order events) event with
      ⟨tx,signed,payerFunded,rfl⟩ | ⟨hquiet,_⟩
    · obtain ⟨hrun,halong,hcarried⟩ := Attestation.submitTransaction_run cfg.dep.sol cfg.programId
        tx signed payerFunded (run (land cfg) (Program.Chain.genesis, []) events).1
      have hledger : ledger cfg (events ++ [.outside (.land tx signed payerFunded)]) =
          ledger cfg events ++ Attestation.performed cfg.dep.sol cfg.programId tx signed
            payerFunded (run (land cfg) (Program.Chain.genesis, []) events).1 :=
        ledger_snoc _ _
      have hchain : run (Program.submit cfg.dep.sol) Program.Chain.genesis (ledger cfg events) =
          (run (land cfg) (Program.Chain.genesis, []) events).1 := hmade.symm
      refine ⟨?_,fun sub hs => ?_,?_⟩
      · rw [hledger, run_snoc, Authority.after, run_append, hchain]
        exact hrun
      · rw [hledger] at hs
        rcases List.mem_append.mp hs with hs | hs
        · exact (hlanded sub hs).later
        · exact ⟨tx,signed,payerFunded,List.mem_concat_self,hcarried sub hs⟩
      · rw [hledger]
        refine along_append.mpr ⟨hsucceeded,?_⟩
        rw [hchain]
        exact halong
    · have hsame : ledger cfg (events ++ [event]) = ledger cfg events :=
        (ledger_snoc events event).trans (congrArg Prod.snd (hquiet _))
      refine ⟨?_,fun sub hs => ?_,hsame ▸ hsucceeded⟩
      · rw [run_snoc, hquiet, hsame]
        exact hmade
      · exact (hlanded sub (hsame ▸ hs)).later

/-- Every past state is that of the chain after some of the events. -/
theorem past_earlier (node : RpcNode) (order : ScanOrder) (events : List NetworkEvent)
    {chain : Program.Chain} (h : chain ∈ (NetworkPool.after cfg node order events).shared.past) :
    ∃ earlier, earlier <+: events ∧
      chain = (NetworkPool.after cfg node order earlier).shared.chain := by
  induction events using List.reverseRecOn with
  | nil => exact ⟨[],List.prefix_rfl,List.mem_singleton.mp h⟩
  | append_singleton events event ih =>
    have hold : chain ∈ (NetworkPool.after cfg node order events).shared.past →
        ∃ earlier, earlier <+: events ++ [event] ∧
          chain = (NetworkPool.after cfg node order earlier).shared.chain := by
      intro hc
      obtain ⟨earlier,hearlier,he⟩ := ih hc
      exact ⟨earlier,hearlier.trans (List.prefix_append _ _),he⟩
    rw [after_snoc] at h
    rcases land_or_quiet (NetworkPool.after cfg node order events) event with
      ⟨tx,signed,payerFunded,rfl⟩ | ⟨_,_,hpast⟩
    · rcases List.mem_cons.mp h with rfl | hc
      · exact ⟨_,List.prefix_rfl,by rw [after_snoc]; rfl⟩
      · exact hold hc
    · exact hold (hpast ▸ h)

theorem Directed.of_stood {node : RpcNode} {order : ScanOrder} {events : List NetworkEvent}
    {text owner wallet : JsString} (h : Stood cfg.dep.sol
      (NetworkPool.after cfg node order events).shared.past text owner wallet) :
    Directed cfg node order events text owner wallet := by
  obtain ⟨tag,rfl,chain,hc,key,account,hf,hd,hs,rfl,rfl⟩ := h
  obtain ⟨earlier,hearlier,rfl⟩ := past_earlier node order events hc
  have hkept : Kept cfg _ earlier := ledger_kept node order earlier
  obtain ⟨htitle,hchosen⟩ := custody cfg.dep.sol key (ledger cfg earlier) (hkept.made ▸ hf)
  exact ⟨earlier,hearlier,hkept,key,account,hf,hd,rfl,htitle,rfl,hchosen⟩

/-- Whoever asks where to pay: in any run of the network with an honest node, the wallet that an
answer names was put there by a landed instruction under the signature of the tag's owner of
that time, who had come to the tag by a chain of such signatures, and so is the owner it names. -/
theorem paid_where_directed (cfg : NetworkConfig) (hapart : DerivesApart cfg.dep.sol)
    (hbase : Function.Injective cfg.dep.sol.base58) (node : RpcNode) (order : ScanOrder)
    (events : List NetworkEvent)
    (honest : Along (NetworkPool.step cfg) (Honest cfg) (Pool.init (Network.start node order))
      events) {who : Nat} {call : NetworkCall} {result : NetworkResult}
    (hcall : (NetworkPool.after cfg node order events).threads[who]?.map Thread.call = some call)
    (hr : (NetworkPool.after cfg node order events).result who = some (.ok result)) :
    NetworkVouched cfg.toApiConfig (Directed cfg node order events) call result := by
  obtain ⟨t,ht,rfl⟩ := Option.map_eq_some_iff.mp hcall
  have hbrings : Along (NetworkPool.step cfg)
      (fun _ event => Brings cfg (Directed cfg node order events) event)
      (Pool.init (Network.start node order)) events :=
    along_mono (fun pool event h => h.mono (fun _ _ _ => Directed.of_stood))
      (Attestation.after_brings hapart hbase node order events honest)
  exact (Attestation.after_honoured node order events hbrings).result ht hr

/-- The wallet of `abc` is its owner's word: the answer that names it goes back to the landed
registration. -/
theorem abc_directed : NetworkVouched Attestation.sampleConfig.toApiConfig
    (Directed Attestation.sampleConfig BlockedInvisible.sampleWorld.node .byTag
      (Attestation.abcAnnounced ++ Attestation.abcTurns))
    (.request 1 (.identity (js "@ABC"))) (.answer (.identity
      ⟨js "@abc",Program.base58 Program.sampleOwner,Program.base58 Program.sampleOwner,none,none,
        none,none,false,false,0⟩)) := by
  have hcall : Attestation.afterAbc.threads[2]?.map Thread.call =
    some (.request 1 (.identity (js "@ABC"))) := by decide +kernel
  exact paid_where_directed _ Representation.sample_apart (fun _ _ => Program.base58_injective) _ _ _
    Attestation.abc_honest hcall (by decide +kernel)

end Network

end Tagwise.Proofs.Custody
