import Tagwise.Proofs.BlockedInvisible
import Tagwise.Proofs.ChainReaders
import Tagwise.Proofs.ColumnOwnership
import Tagwise.Proofs.Transactions

namespace Tagwise.Proofs.Registration
open Js Tagwise.Core Services Api Lib Moderation

/-- The services answer, and the libraries do as they are documented to. -/
structure Serving (cfg : ApiConfig) (w : ApiWorld) (params : RegisterParams) : Prop where
  database : w.mirror.dbUp = true
  rpc : w.mirror.rpcUp = true
  /-- Whoever is signed in has an address, -/
  owner : cfg.kit.isAddress params.ownerPubkey = true
  /-- and so have the program and the system's. -/
  program : cfg.kit.isAddress cfg.tipRegistryProgramId = true
  system : cfg.kit.isAddress systemProgramAddress = true
  blockhash : cfg.kit.isAddress w.node.latestBlockhash.blockhash = true
  encodes : ∀ text, cfg.kit.isAddress text = true →
    ∃ bytes, cfg.kit.addressEncoder text = some bytes ∧ bytes.length = 32
  tagData : ∀ tag : NormalizedTag,
    (encodeRegisterTagInstructionData cfg.codecs tag).length < 2 ^ 16
  compiles : cfg.codecs.Compiles cfg.kit
  engine : ∀ text, ∃ found, cfg.dep.engine.existsIn text = .ok found
  /-- The tag's account has an address of its own. -/
  derives : ∀ tag, normalizeTag params.rawTag = .accepted tag →
    ∃ pda bump, deriveTagPda cfg.dep.sol tag = .ok (pda, bump) ∧
      cfg.kit.isAddress pda = true ∧ pda ≠ cfg.tipRegistryProgramId

/-- A field of the body, `null` being as good as nothing. -/
def given : Nullish JsString → Option JsString
  | .value text => some text
  | .undefined | .null => none

def walletOf (params : RegisterParams) : JsString := (given params.wallet).getD params.ownerPubkey

def payerOf (params : RegisterParams) : JsString := (given params.feePayer).getD params.ownerPubkey

def unavailable (reason : NamingGateReason) : ApiError :=
  .thrown (.forbidden (js "tag is not available: " ++ reason.text) (some reason.text))

/-- The first of the reasons to refuse a request unseen by the node. -/
def refusal (cfg : ApiConfig) (identities : Identities) (params : RegisterParams) :
    Option ApiError :=
  match normalizeTag params.rawTag with
  | .rejected reason => some (.badRequest (js "invalid tag: " ++ reason.text) reason.text)
  | .accepted tag =>
    if isReservedTag tag then some (unavailable .reserved)
    else if isBlockedName cfg.dep.engine tag = .ok true then some (unavailable .inappropriate)
    else if (identities.find tag).isSome then some alreadyRegistered
    else if cfg.kit.isAddress (walletOf params) = false then some invalidWallet
    else if (given params.feePayer).any (fun feePayer => !cfg.kit.isAddress feePayer) then
      some invalidFeePayer
    else none

/-- The transaction of the owner, the payer and the wallet, as built and not signed. -/
structure Unsigned (cfg : ApiConfig) (params : RegisterParams) (tag : NormalizedTag)
    (blockhash : BlockhashLifetime) (tx : BuiltTransaction) : Prop where
  built : buildRegisterTagTransaction cfg.dep.sol cfg.kit cfg.codecs {
    programId := cfg.tipRegistryProgramId
    tag
    ownerPubkey := params.ownerPubkey
    payerPubkey := payerOf params
    walletAddress := walletOf params
    blockhash } = .ok tx
  pays : tx.message.feePayer = payerOf params
  owns : ⟨params.ownerPubkey, .readonlySigner⟩ ∈ tx.message.accounts
  receives : walletOf params ≠ params.ownerPubkey →
    ∃ bytes, cfg.kit.addressEncoder (walletOf params) = some bytes ∧
      updateWalletDiscriminator ++ bytes ∈ tx.message.instructions.map Instruction.data

/-- Rent and fee, by what the node says of both. -/
def requiredLamports (cfg : ApiConfig) (node : RpcNode) (transaction : CompiledTransaction) : Nat :=
  node.minimumBalanceForRentExemption tagAccountSize +
    (node.feeForMessage (cfg.messageBase64 transaction.messageBytes)).getD
      feeEstimateFallbackLamports

/-- What a request that is not refused ends in. -/
def Settles (cfg : ApiConfig) (w : ApiWorld) (params : RegisterParams)
    (result : Except ApiError TransactionResponse) : Prop :=
  ∃ tag tx, normalizeTag params.rawTag = .accepted tag ∧
    Unsigned cfg params tag w.node.latestBlockhash tx ∧
    let required := requiredLamports cfg w.node tx.transaction
    let current := w.node.balance (payerOf params)
    (current < required ∧ 0 < required - current ∧
      result = .error (insufficientBalance required current) ∨
    required ≤ current ∧ result = .ok (cfg.transactionResponse tx w.node.latestBlockhash))

def isRpc : ApiCommand → Bool
  | .mirror .getProgramAccounts | .mirror (.getAccountInfo _) | .getLatestBlockhash
  | .getMinimumBalanceForRentExemption _ | .getFeeForMessage _ | .getBalance _ => true
  | _ => false

/-- The node is asked after everything else, and not at all about what is refused. -/
structure InOrder (refused : Prop) (sent : List ApiCommand) : Prop where
  order : ∃ checks calls, sent = checks ++ calls ∧ (∀ c ∈ checks, isRpc c = false) ∧
    (∀ c ∈ calls, isRpc c = true) ∧ (refused → calls = [])
  reads : ∀ command, .mirror command ∈ sent → ColumnOwnership.writesRows command = false

/-- The world with a note of every command sent. -/
def noted (w : ApiWorld × List ApiCommand) (c : ApiCommand) :
    Option ((ApiWorld × List ApiCommand) × ApiReply c) :=
  Prog.alongside ApiWorld.handle (fun _ c _ sent => sent ++ [c]) w c

/-- The request ends in the first outcome that applies, and writes nothing. -/
def Classified (cfg : ApiConfig) (w : ApiWorld) (params : RegisterParams) : Prop :=
  ∃ sent result, (register cfg params).run noted (w, []) = some ((w, sent), result) ∧
    InOrder (refusal cfg w.mirror.identities params ≠ none) sent ∧
    match refusal cfg w.mirror.identities params with
    | some error => result = .error error ∧ error.status ∈ [400, 403, 409]
    | none => Settles cfg w params result

section Run
variable {cfg : ApiConfig} {w : ApiWorld} {params : RegisterParams} {tag : NormalizedTag}
variable {α : Type}

theorem noted_call {c : ApiCommand} {k : ApiReply c → ApiAsync α} {r : ApiReply c}
    (h : w.handle c = some (w, r)) (sent : List ApiCommand) :
    (Prog.call c k).run noted (w, sent) = (k r).run noted (w, sent ++ [c]) :=
  Prog.run_call (Prog.alongside_some h sent)

theorem anyBlocked_ok {engine : ProfanityEngine}
    (h : ∀ text, ∃ found, engine.existsIn text = .ok found) (variants : List JsString) :
    ∃ blocked, anyBlocked engine variants = .ok blocked := by
  induction variants with
  | nil => exact ⟨false,rfl⟩
  | cons variant rest ih =>
    obtain ⟨found,hfound⟩ := h variant
    obtain ⟨blocked,hrest⟩ := ih
    rw [anyBlocked, containsBlockedContent, hfound]
    cases found with
    | true => exact ⟨true,rfl⟩
    | false => exact ⟨blocked,hrest⟩

theorem isBlockedName_ok {engine : ProfanityEngine}
    (h : ∀ text, ∃ found, engine.existsIn text = .ok found) (text : JsString) :
    ∃ blocked, isBlockedName engine text = .ok blocked := by
  obtain ⟨found,hfound⟩ := h (toLowerCase text)
  obtain ⟨blocked,hrest⟩ := anyBlocked_ok h (generateProfanityCheckVariants (toLowerCase text))
  rw [isBlockedName, containsBlockedContent, hfound]
  by_cases hlist : toLowerCase text ∈ allowlist
  · exact ⟨false,if_pos hlist⟩
  rw [if_neg hlist]
  cases found with
  | true => exact ⟨true,rfl⟩
  | false => exact ⟨blocked,hrest⟩

/-- The gate, by the reason it gives. -/
theorem gate_run (h : Serving cfg w params) (tag : NormalizedTag) :
    (isReservedTag tag = true ∧ (relay (checkNamingGate cfg.dep tag)).run noted (w, []) =
      some ((w, []), .ok ⟨false, .reserved⟩)) ∨
    (isReservedTag tag = false ∧ isBlockedName cfg.dep.engine tag = .ok true ∧
      (relay (checkNamingGate cfg.dep tag)).run noted (w, []) =
        some ((w, []), .ok ⟨false, .inappropriate⟩)) ∨
    (isReservedTag tag = false ∧ isBlockedName cfg.dep.engine tag = .ok false ∧
      (relay (checkNamingGate cfg.dep tag)).run noted (w, []) =
        some ((w, [.mirror (.findUniqueIdentity tag)]), .ok
          (if (w.mirror.identities.find tag).isSome then ⟨false, .alreadyRegistered⟩
          else ⟨true, .available⟩))) := by
  cases hreserved : isReservedTag tag with
  | true =>
    refine .inl ⟨rfl,?_⟩
    rw [checkNamingGate, checkModerationGate_reserved _ hreserved]
    rfl
  | false =>
    obtain ⟨blocked,hblocked⟩ := isBlockedName_ok h.engine tag.text
    have hgate := checkModerationGate_open cfg.dep.engine hreserved
    rw [hblocked] at hgate
    cases blocked with
    | true =>
      refine .inr (.inl ⟨rfl,hblocked,?_⟩)
      rw [checkNamingGate, hgate]
      rfl
    | false =>
      refine .inr (.inr ⟨rfl,hblocked,?_⟩)
      have hfind : w.handle (.mirror (.findUniqueIdentity tag)) =
          some (w, .ok (w.mirror.identities.find tag)) := by
        rw [ApiWorld.handle, World.handle_findUnique h.database]
        rfl
      rw [checkNamingGate, hgate]
      refine (noted_call hfind []).trans ?_
      cases w.mirror.identities.find tag with
      | none => rfl
      | some row => rfl

theorem coalesce_given (field : Nullish JsString) (other : JsString) :
    field.coalesce other = (given field).getD other := by
  cases field with
  | undefined | null | value => rfl

/-- The message of a request, with what its wallet is encoded to. -/
def messageOf (cfg : ApiConfig) (params : RegisterParams) (tag : NormalizedTag)
    (blockhash : BlockhashLifetime) (pda : JsString) (wallet : List (List UInt8)) :
    TransactionMessage where
  feePayer := payerOf params
  lifetime := blockhash
  instructions := Transactions.registration cfg.tipRegistryProgramId pda params.ownerPubkey
    (payerOf params) (encodeRegisterTagInstructionData cfg.codecs tag) wallet

/-- With all three addresses checked, all that is left to the builder is the compilation. -/
theorem message_built (h : Serving cfg w params) (hn : normalizeTag params.rawTag = .accepted tag)
    (hwallet : cfg.kit.isAddress (walletOf params) = true)
    (hpayer : cfg.kit.isAddress (payerOf params) = true) (blockhash : BlockhashLifetime) :
    ∃ pda wallet, buildRegisterTagTransaction cfg.dep.sol cfg.kit cfg.codecs {
        programId := cfg.tipRegistryProgramId
        tag
        ownerPubkey := params.ownerPubkey
        payerPubkey := payerOf params
        walletAddress := walletOf params
        blockhash } =
        compiled cfg.codecs (messageOf cfg params tag blockhash pda wallet) pda ∧
      cfg.kit.isAddress pda = true ∧ pda ≠ cfg.tipRegistryProgramId ∧
      wallet.length ≤ 1 ∧ (∀ bytes ∈ wallet, bytes.length = 32) ∧
      (walletOf params ≠ params.ownerPubkey →
        ∃ bytes ∈ wallet, cfg.kit.addressEncoder (walletOf params) = some bytes) := by
  obtain ⟨pda,bump,hpda,haddr,hne⟩ := h.derives tag hn
  obtain ⟨bytes,hbytes,hlength⟩ := h.encodes _ hwallet
  have haddress : ∀ {text}, cfg.kit.isAddress text = true → address cfg.kit text = .ok text :=
    fun ha => if_pos ha
  have htag : tagPda cfg.dep.sol tag = .ok pda := by rw [tagPda, hpda]
  have hdata : encodeUpdateWalletInstructionData cfg.kit (walletOf params) =
      .ok (updateWalletDiscriminator ++ bytes) := by
    rw [encodeUpdateWalletInstructionData, hbytes]
  by_cases hown : walletOf params ≠ params.ownerPubkey
  · refine ⟨pda,[bytes],?_,haddr,hne,Nat.le_refl 1,by simpa using hlength,
      fun _ => ⟨bytes,List.mem_singleton_self _,hbytes⟩⟩
    simp only [buildRegisterTagTransaction, htag, haddress h.owner, haddress hpayer,
      haddress h.program, bind, Except.bind, if_pos hown, haddress hwallet, hdata]
    rfl
  · refine ⟨pda,[],?_,haddr,hne,Nat.zero_le 1,by simp,fun h => absurd h hown⟩
    simp only [buildRegisterTagTransaction, htag, haddress h.owner, haddress hpayer,
      haddress h.program, bind, Except.bind, if_neg hown]
    rfl

/-- The program's own address apart, any payer is fit for it. -/
theorem unsigned_built (h : Serving cfg w params) (hn : normalizeTag params.rawTag = .accepted tag)
    (hwallet : cfg.kit.isAddress (walletOf params) = true)
    (hpayer : cfg.kit.isAddress (payerOf params) = true)
    (hfit : payerOf params ≠ cfg.tipRegistryProgramId) :
    ∃ tx, Unsigned cfg params tag w.node.latestBlockhash tx := by
  obtain ⟨pda,wallet,hbuild,haddr,hne,hone,hbytes,hreceives⟩ :=
    message_built h hn hwallet hpayer w.node.latestBlockhash
  have hcompilable : (messageOf cfg params tag w.node.latestBlockhash pda wallet).Compilable
      cfg.kit :=
    Transactions.registration_compilable haddr h.owner hpayer h.system h.program h.blockhash hne
      hfit (h.tagData tag) hone hbytes
  obtain ⟨tx,htx⟩ := Transactions.compiled_of h.compiles hcompilable pda
  refine ⟨tx,hbuild.trans htx,?_,?_,fun hw => ?_⟩
  · rw [(Transactions.compiled_ok htx).1]
    rfl
  · rw [(Transactions.compiled_ok htx).1]
    simp [TransactionMessage.accounts, messageOf, Transactions.registration]
  · obtain ⟨bytes,hin,hencoded⟩ := hreceives hw
    refine ⟨bytes,hencoded,?_⟩
    rw [(Transactions.compiled_ok htx).1]
    simp only [messageOf, Transactions.registration, List.map_cons, List.map_map]
    exact List.mem_cons_of_mem _ (List.mem_map.mpr ⟨bytes,hin,rfl⟩)

/-- The kit lets no program pay that is called. -/
theorem program_refused (h : Serving cfg w params) (hn : normalizeTag params.rawTag = .accepted tag)
    (hwallet : cfg.kit.isAddress (walletOf params) = true)
    (hpays : payerOf params = cfg.tipRegistryProgramId) (blockhash : BlockhashLifetime) :
    ∃ e, buildRegisterTagTransaction cfg.dep.sol cfg.kit cfg.codecs {
        programId := cfg.tipRegistryProgramId
        tag
        ownerPubkey := params.ownerPubkey
        payerPubkey := payerOf params
        walletAddress := walletOf params
        blockhash } = .error (.compile e) := by
  obtain ⟨pda,wallet,hbuild,_⟩ := message_built h hn hwallet (hpays ▸ h.program) blockhash
  obtain ⟨e,he⟩ := h.compiles.refuses
    (messageOf cfg params tag blockhash pda wallet)
    ⟨_,List.mem_cons_self,hpays.symm⟩
  exact ⟨e,hbuild.trans (by rw [compiled, he])⟩

theorem await_run {c : ApiCommand} {p : ApiAsync (Except Unit α)} {a : α} {sent : List ApiCommand}
    (hp : p.run noted (w, sent) = some ((w, sent ++ [c]), .ok (.ok a))) :
    (awaitRpc p).run noted (w, sent) = some ((w, sent ++ [c]), .ok a) := by
  rw [awaitRpc, Prog.run_bind_ok hp]
  rfl

/-- The balance against what the node wants for this message. -/
theorem balance_run (up : w.mirror.rpcUp = true) {payer : JsString}
    (hpayer : cfg.kit.isAddress payer = true) (transaction : CompiledTransaction)
    (sent : List ApiCommand) :
    (checkSufficientBalance cfg payer transaction).run noted (w, sent) =
      some ((w, sent ++ [.getMinimumBalanceForRentExemption tagAccountSize,
          .getFeeForMessage (cfg.messageBase64 transaction.messageBytes), .getBalance payer]),
        if requiredLamports cfg w.node transaction ≤ w.node.balance payer then .ok ()
        else .error (insufficientBalance (requiredLamports cfg w.node transaction)
          (w.node.balance payer))) := by
  have hrpc : ∀ {β : Type} (answer : RpcNode → β), w.rpc answer = .ok (answer w.node) :=
    fun answer => if_pos up
  have hrent : w.handle (.getMinimumBalanceForRentExemption tagAccountSize) =
      some (w, .ok (w.node.minimumBalanceForRentExemption tagAccountSize)) := by
    rw [ApiWorld.handle, hrpc]
  have hfee : w.handle (.getFeeForMessage (cfg.messageBase64 transaction.messageBytes)) =
      some (w, .ok (w.node.feeForMessage (cfg.messageBase64 transaction.messageBytes))) := by
    rw [ApiWorld.handle, hrpc]
  have hbalance : w.handle (.getBalance payer) = some (w, .ok (w.node.balance payer)) := by
    rw [ApiWorld.handle, hrpc]
  have haddress : built (address cfg.kit payer) = .done payer := by
    rw [address, if_pos hpayer]
    rfl
  rw [checkSufficientBalance, getMinimumBalanceForRentExemption,
    Prog.run_bind_ok (await_run (noted_call hrent sent)), getFeeForMessage,
    Prog.run_bind_ok (await_run (noted_call hfee _)), haddress, Prog.done_bind, getBalance,
    Prog.run_bind_ok (await_run (noted_call hbalance _))]
  simp only [List.append_assoc, List.cons_append, List.nil_append]
  rw [← requiredLamports]
  by_cases hle : requiredLamports cfg w.node transaction ≤ w.node.balance payer
  · rw [if_pos hle, if_pos hle]
    rfl
  · rw [if_neg hle, if_neg hle]
    rfl

/-- The payer has passed its check, or is who is signed in. -/
theorem payer_checked (h : Serving cfg w params) (hnull : params.feePayer ≠ .null)
    (hpayer : (given params.feePayer).any (fun feePayer => !cfg.kit.isAddress feePayer) = false) :
    cfg.kit.isAddress (payerOf params) = true ∧
      checkFeePayer cfg.kit params.feePayer = .done () := by
  rw [payerOf]
  cases hf : params.feePayer with
  | undefined => exact ⟨h.owner,rfl⟩
  | null => exact absurd hf hnull
  | value feePayer =>
    rw [hf] at hpayer
    have hok : cfg.kit.isAddress feePayer = true := by simpa [given] using hpayer
    exact ⟨hok,if_neg (by simp [hok])⟩

/-- From the check of the payer on. -/
theorem free_building (h : Serving cfg w params)
    (hwallet : cfg.kit.isAddress (walletOf params) = true)
    (hcheck : checkFeePayer cfg.kit params.feePayer = .done ()) (sent : List ApiCommand) :
    (registerFree cfg params tag).run noted (w, sent) =
      (do let tx ← built (buildRegisterTagTransaction cfg.dep.sol cfg.kit cfg.codecs {
            programId := cfg.tipRegistryProgramId
            tag
            ownerPubkey := params.ownerPubkey
            payerPubkey := payerOf params
            walletAddress := walletOf params
            blockhash := w.node.latestBlockhash })
          checkSufficientBalance cfg (payerOf params) tx.transaction
          return cfg.transactionResponse tx w.node.latestBlockhash :
        ApiAsync TransactionResponse).run noted (w, sent ++ [.getLatestBlockhash]) := by
  have hblock : w.handle .getLatestBlockhash = some (w, .ok w.node.latestBlockhash) := by
    rw [ApiWorld.handle, ApiWorld.rpc, if_pos h.rpc]
  rw [registerFree, coalesce_given, coalesce_given, ← walletOf, ← payerOf, if_neg (by simp [hwallet]),
    hcheck, Prog.done_bind, getLatestBlockhash, Prog.run_bind_ok (await_run (noted_call hblock sent))]

/-- What is sent for a name that is free. -/
theorem free_run (h : Serving cfg w params) (hn : normalizeTag params.rawTag = .accepted tag)
    (hnull : params.feePayer ≠ .null) (hfit : payerOf params ≠ cfg.tipRegistryProgramId)
    (hwallet : cfg.kit.isAddress (walletOf params) = true)
    (hpayer : (given params.feePayer).any (fun feePayer => !cfg.kit.isAddress feePayer) = false)
    (sent : List ApiCommand) :
    ∃ calls result, (registerFree cfg params tag).run noted (w, sent) =
        some ((w, sent ++ calls), result) ∧ (∀ c ∈ calls, isRpc c = true) ∧
      (∀ command, .mirror command ∉ calls) ∧ Settles cfg w params result := by
  obtain ⟨hok,hcheck⟩ := payer_checked h hnull hpayer
  obtain ⟨tx,htx⟩ := unsigned_built h hn hwallet hok hfit
  have hbalance := balance_run h.rpc hok tx.transaction (sent ++ [.getLatestBlockhash])
  have hrun : (registerFree cfg params tag).run noted (w, sent) =
      (do checkSufficientBalance cfg (payerOf params) tx.transaction
          return cfg.transactionResponse tx w.node.latestBlockhash :
        ApiAsync TransactionResponse).run noted (w, sent ++ [.getLatestBlockhash]) := by
    rw [free_building h hwallet hcheck, htx.built]
    rfl
  rw [hrun, Prog.run_bind, hbalance]
  refine ⟨[.getLatestBlockhash, .getMinimumBalanceForRentExemption tagAccountSize,
    .getFeeForMessage (cfg.messageBase64 tx.transaction.messageBytes),
    .getBalance (payerOf params)],?_⟩
  by_cases hle : requiredLamports cfg w.node tx.transaction ≤ w.node.balance (payerOf params)
  · rw [if_pos hle]
    exact ⟨_,by simp,by simp [isRpc],by simp,tag,tx,hn,htx,.inr ⟨hle,rfl⟩⟩
  · rw [if_neg hle]
    exact ⟨_,by simp,by simp [isRpc],by simp,tag,tx,hn,htx,.inl ⟨by omega,by omega,rfl⟩⟩

/-- Where the program itself would pay, the builder's exception is the end of it. -/
theorem free_refused (h : Serving cfg w params) (hn : normalizeTag params.rawTag = .accepted tag)
    (hnull : params.feePayer ≠ .null) (hpays : payerOf params = cfg.tipRegistryProgramId)
    (hwallet : cfg.kit.isAddress (walletOf params) = true)
    (hpayer : (given params.feePayer).any (fun feePayer => !cfg.kit.isAddress feePayer) = false)
    (sent : List ApiCommand) :
    ∃ e, (registerFree cfg params tag).run noted (w, sent) =
      some ((w, sent ++ [.getLatestBlockhash]), .error (.build (.compile e))) := by
  obtain ⟨_,hcheck⟩ := payer_checked h hnull hpayer
  obtain ⟨e,he⟩ := program_refused h hn hwallet hpays w.node.latestBlockhash
  refine ⟨e,?_⟩
  rw [free_building h hwallet hcheck, he]
  rfl

/-- The mirror's part of a run: nothing, or the one read of the row. -/
def Checks (tag : NormalizedTag) (sent : List ApiCommand) : Prop :=
  sent = [] ∨ sent = [.mirror (.findUniqueIdentity tag)]

variable (tag) in
theorem Checks.apart {sent : List ApiCommand} (h : Checks tag sent) :
    (∀ c ∈ sent, isRpc c = false) ∧
      ∀ command, .mirror command ∈ sent → ColumnOwnership.writesRows command = false := by
  rcases h with rfl | rfl
  · simp
  · simp [isRpc, ColumnOwnership.writesRows]

theorem refusal_status {identities : Identities} {error : ApiError}
    (h : refusal cfg identities params = some error) : error.status ∈ [400, 403, 409] := by
  unfold refusal at h
  split at h
  · cases h
    simp [ApiError.status]
  · split_ifs at h <;> cases h <;>
      simp [ApiError.status, unavailable, alreadyRegistered, invalidWallet, invalidFeePayer]

variable (tag) in
theorem classified_refused {error : ApiError} {sent : List ApiCommand} (hc : Checks tag sent)
    (hr : refusal cfg w.mirror.identities params = some error)
    (hrun : (register cfg params).run noted (w, []) = some ((w, sent), .error error)) :
    Classified cfg w params := by
  refine ⟨sent,_,hrun,⟨⟨sent,[],by simp,(hc.apart tag).1,by simp,fun _ => rfl⟩,(hc.apart tag).2⟩,?_⟩
  rw [hr]
  exact ⟨rfl,refusal_status hr⟩

variable (cfg w params tag) in
/-- The run behind the gate, on a name that passes it. -/
def freeRun : Option ((ApiWorld × List ApiCommand) × Except ApiError TransactionResponse) :=
  (registerFree cfg params tag).run noted (w, [.mirror (.findUniqueIdentity tag)])

/-- A request is refused before its addresses are looked at, or it comes to them. -/
theorem register_cases (h : Serving cfg w params) :
    (Classified cfg w params ∧ refusal cfg w.mirror.identities params ≠ none) ∨
    ∃ tag, normalizeTag params.rawTag = .accepted tag ∧
      (register cfg params).run noted (w, []) = freeRun cfg w params tag ∧
      refusal cfg w.mirror.identities params =
        if cfg.kit.isAddress (walletOf params) = false then some invalidWallet
        else if (given params.feePayer).any (fun feePayer => !cfg.kit.isAddress feePayer) then
          some invalidFeePayer
        else none := by
  cases hn : normalizeTag params.rawTag with
  | rejected reason =>
    have hr : refusal cfg w.mirror.identities params =
        some (.badRequest (js "invalid tag: " ++ reason.text) reason.text) := by
      rw [refusal, hn]
    refine .inl ⟨classified_refused .abc (.inl rfl) hr ?_,by simp [hr]⟩
    rw [register, normalizeTagParamOrThrow, hn]
    rfl
  | accepted tag =>
    have hregister : register cfg params =
        (relay (checkNamingGate cfg.dep tag) >>= registerGated cfg params tag) := by
      rw [register, normalizeTagParamOrThrow, hn]
      rfl
    rcases gate_run h tag with ⟨hres,hgate⟩ | ⟨hres,hblocked,hgate⟩ | ⟨hres,hblocked,hgate⟩
    · have hr : refusal cfg w.mirror.identities params = some (unavailable .reserved) := by
        simp only [refusal, hn, hres, if_true]
      refine .inl ⟨classified_refused tag (.inl rfl) hr ?_,by simp [hr]⟩
      rw [hregister, Prog.run_bind_ok hgate]
      rfl
    · have hr : refusal cfg w.mirror.identities params = some (unavailable .inappropriate) := by
        simp [refusal, hn, hres, hblocked]
      refine .inl ⟨classified_refused tag (.inl rfl) hr ?_,by simp [hr]⟩
      rw [hregister, Prog.run_bind_ok hgate]
      rfl
    · cases hrow : w.mirror.identities.find tag with
      | some row =>
        have hr : refusal cfg w.mirror.identities params = some alreadyRegistered := by
          simp [refusal, hn, hres, hblocked, hrow]
        refine .inl ⟨classified_refused tag (.inr rfl) hr ?_,by simp [hr]⟩
        rw [hregister, Prog.run_bind_ok hgate, hrow]
        rfl
      | none =>
        refine .inr ⟨tag,rfl,?_,by simp [refusal, hn, hres, hblocked, hrow]⟩
        rw [hregister, Prog.run_bind_ok hgate, hrow]
        rfl

theorem free_failed {error : ApiError} (hwallet : cfg.kit.isAddress (walletOf params) = true)
    (hcheck : checkFeePayer cfg.kit params.feePayer = .fail error) :
    freeRun cfg w params tag =
      some ((w, [.mirror (.findUniqueIdentity tag)]), .error error) := by
  rw [freeRun, registerFree, coalesce_given, ← walletOf, if_neg (by simp [hwallet]), hcheck]
  rfl

/-- An exception that is none of the outcomes. -/
theorem unclassified_of {error : ApiError} {sent : List ApiCommand}
    (hr : refusal cfg w.mirror.identities params = none)
    (hrun : (register cfg params).run noted (w, []) = some ((w, sent), .error error))
    (hne : ∀ required current, error ≠ insufficientBalance required current) :
    ¬ Classified cfg w params := by
  intro ⟨sent',result,hrun',_,hends⟩
  rw [hr] at hends
  cases hrun.symm.trans hrun'
  obtain ⟨_,_,_,_,⟨_,_,he⟩ | ⟨_,he⟩⟩ := hends
  · exact hne _ _ (Except.error.inj he)
  · cases he

/-- What is not refused comes to its addresses, and they are good. -/
theorem unrefused_cases (h : Serving cfg w params)
    (hr : refusal cfg w.mirror.identities params = none) :
    ∃ tag, normalizeTag params.rawTag = .accepted tag ∧
      (register cfg params).run noted (w, []) = freeRun cfg w params tag ∧
      cfg.kit.isAddress (walletOf params) = true ∧
      (given params.feePayer).any (fun feePayer => !cfg.kit.isAddress feePayer) = false := by
  rcases register_cases h with ⟨_,hne⟩ | ⟨tag,hn,hrun,hif⟩
  · exact absurd hr hne
  rw [hr] at hif
  split_ifs at hif with hw hp
  exact ⟨tag,hn,hrun,by simpa using hw,by simpa using hp⟩

/-- The check of a `null` throws what no outcome is. -/
theorem null_unclassified (h : Serving cfg w params) (hnull : params.feePayer = .null)
    (hr : refusal cfg w.mirror.identities params = none) :
    (∃ sent, (register cfg params).run noted (w, []) = some ((w, sent), .error .typeError)) ∧
      ¬ Classified cfg w params := by
  obtain ⟨tag,_,hrun,hw,_⟩ := unrefused_cases h hr
  have hthrown := hrun.trans (free_failed hw (by rw [hnull, checkFeePayer]))
  exact ⟨⟨_,hthrown⟩,unclassified_of hr hthrown (fun _ _ he => by cases he)⟩

/-- Nor is the kit's refusal of a program as a payer one of them. -/
theorem program_unclassified (h : Serving cfg w params) (hnull : params.feePayer ≠ .null)
    (hpays : payerOf params = cfg.tipRegistryProgramId)
    (hr : refusal cfg w.mirror.identities params = none) :
    (∃ sent e, (register cfg params).run noted (w, []) =
      some ((w, sent), .error (.build (.compile e)))) ∧ ¬ Classified cfg w params := by
  obtain ⟨tag,hn,hrun,hw,hp⟩ := unrefused_cases h hr
  obtain ⟨e,hfree⟩ := free_refused h hn hnull hpays hw hp [.mirror (.findUniqueIdentity tag)]
  have hthrown := hrun.trans hfree
  exact ⟨⟨_,e,hthrown⟩,unclassified_of hr hthrown (fun _ _ he => by cases he)⟩

theorem free_classified (h : Serving cfg w params) (hnull : params.feePayer ≠ .null)
    (hfit : payerOf params ≠ cfg.tipRegistryProgramId)
    (hr : refusal cfg w.mirror.identities params = none) : Classified cfg w params := by
  obtain ⟨tag,hn,hrun,hw,hp⟩ := unrefused_cases h hr
  obtain ⟨calls,result,hcalls,hrpc,hmirror,hsettles⟩ :=
    free_run h hn hnull hfit hw hp [.mirror (.findUniqueIdentity tag)]
  have happart := Checks.apart tag (.inr rfl)
  refine ⟨_,result,hrun.trans hcalls,⟨⟨_,calls,rfl,happart.1,hrpc,fun hne => absurd hr hne⟩,?_⟩,?_⟩
  · intro command hc
    rcases List.mem_append.mp hc with hc | hc
    · exact happart.2 command hc
    · exact absurd hc (hmirror command)
  · rw [hr]
    exact hsettles

/-- A refused request is refused for the first of the reasons there are. -/
theorem refused_classified (h : Serving cfg w params)
    (hr : refusal cfg w.mirror.identities params ≠ none) : Classified cfg w params := by
  rcases register_cases h with ⟨hc,_⟩ | ⟨tag,hn,hrun,hif⟩
  · exact hc
  by_cases hwallet : cfg.kit.isAddress (walletOf params) = false
  · rw [if_pos hwallet] at hif
    refine classified_refused tag (.inr rfl) hif ?_
    rw [hrun, freeRun, registerFree, coalesce_given, ← walletOf, if_pos (by simp [hwallet])]
    rfl
  have hw : cfg.kit.isAddress (walletOf params) = true := by simpa using hwallet
  rw [if_neg hwallet] at hif
  cases hf : params.feePayer with
  | undefined | null =>
    rw [hf] at hif
    exact absurd hif hr
  | value feePayer =>
    cases hpayer : cfg.kit.isAddress feePayer with
    | true =>
      rw [hf, given, Option.any_some, hpayer] at hif
      exact absurd hif hr
    | false =>
      rw [hf, given, Option.any_some, hpayer, Bool.not_false, if_pos rfl] at hif
      refine classified_refused tag (.inr rfl) hif (hrun.trans (free_failed hw ?_))
      rw [hf, checkFeePayer, hpayer]
      rfl

/-- Every request is classified but those that nothing refuses before their fee payer and
whose fee payer is `null`, or whose payer is the program. -/
theorem classified_iff (cfg : ApiConfig) (w : ApiWorld) (params : RegisterParams)
    (h : Serving cfg w params) : Classified cfg w params ↔
      (params.feePayer = .null ∨ payerOf params = cfg.tipRegistryProgramId →
        refusal cfg w.mirror.identities params ≠ none) := by
  constructor
  · intro hc hpayer hr
    by_cases hnull : params.feePayer = .null
    · exact (null_unclassified h hnull hr).2 hc
    · exact (program_unclassified h hnull (hpayer.resolve_left hnull) hr).2 hc
  · intro hpayer
    by_cases hr : refusal cfg w.mirror.identities params = none
    · exact free_classified h (fun hnull => hpayer (.inl hnull) hr)
        (fun hpays => hpayer (.inr hpays) hr) hr
    · exact refused_classified h hr

/-- Served without the notes, it ends in the same outcome. -/
theorem Classified.served (h : Classified cfg w params) :
    ∃ result, (register cfg params).run ApiWorld.handle w = some (w, result) ∧
      (∀ error, refusal cfg w.mirror.identities params = some error → result = .error error) ∧
      (refusal cfg w.mirror.identities params = none → Settles cfg w params result) := by
  obtain ⟨sent,result,hrun,_,hends⟩ := h
  have hnoted : (register cfg params).run
      (Prog.alongside ApiWorld.handle (fun _ c _ sent => sent ++ [c])) (w, []) =
      some ((w, sent), result) := hrun
  have hplain : (register cfg params).run ApiWorld.handle w = some (w, result) :=
    (Prog.run_alongside (register cfg params) w []).symm.trans (congrArg (Option.map _) hnoted)
  refine ⟨result,hplain,fun error hr => ?_,fun hr => ?_⟩
  · rw [hr] at hends
    exact hends.1
  · rw [hr] at hends
    exact hends

end Run

def abcConfig : ApiConfig :=
  { BlockedInvisible.sampleConfig with
    kit := sampleKit
    codecs := sampleCodecs
    tipRegistryProgramId := Program.base58 Program.sampleProgram }

def abcParams (feePayer : Nullish JsString) : RegisterParams where
  rawTag := js "@Abc"
  wallet := .null
  feePayer := feePayer
  ownerPubkey := wallet

theorem abc_serving (feePayer : Nullish JsString) :
    Serving abcConfig BlockedInvisible.sampleWorld (abcParams feePayer) where
  database := rfl
  rpc := rfl
  owner := (by decide : sampleKit.isAddress wallet = true)
  program := by decide
  system := by decide
  blockhash := by decide
  encodes := by
    intro text h
    obtain ⟨bytes,hbytes⟩ := Option.isSome_iff_exists.mp h
    exact ⟨bytes,hbytes,addressBytes_length hbytes⟩
  tagData := Transactions.sample_documented.registerData_short
  compiles := sampleCodecs_compiles
  engine := fun text => ⟨false,rfl⟩
  derives := by
    intro tag hn
    have habc : normalizeTag (js "@Abc") = .accepted .abc := by decide
    cases habc.symm.trans hn
    exact ⟨_,_,ChainReaders.abc_derived,by decide,by decide⟩

theorem null_throws :
    (∃ sent, (register abcConfig (abcParams .null)).run noted (BlockedInvisible.sampleWorld, []) =
      some ((BlockedInvisible.sampleWorld, sent), .error .typeError)) ∧
    ¬ Classified abcConfig BlockedInvisible.sampleWorld (abcParams .null) :=
  null_unclassified (abc_serving .null) rfl (by decide)

theorem abc_classified :
    Classified abcConfig BlockedInvisible.sampleWorld (abcParams .undefined) :=
  (classified_iff abcConfig BlockedInvisible.sampleWorld (abcParams .undefined)
    (abc_serving .undefined)).mpr (by
      intro h
      rcases h with h | h
      · cases h
      · exact absurd h (by decide))

end Tagwise.Proofs.Registration
