import Tagwise.Api.Sample
import Tagwise.Api.Transactions
import Tagwise.Proofs.Representation

namespace Tagwise.Proofs.Transactions
open Js Program Lib
open Tagwise.Core (NormalizedTag asciiBytes deriveTagPda buildTagSeeds_normalized)
open Tagwise.Api (Kit Codecs BuiltTransaction BuildError buildRegisterTagTransaction
  buildUpdateWalletTransaction BlockhashLifetime compiled)
open Proofs.Representation (AllWellFormed)

/-- What the builders take from the Solana kit, as it is documented: addresses are the
base58 text of 32 bytes, numbers little-endian, and a size stands before its content. -/
structure Documented (sol : Solana) (kit : Kit) (codecs : Codecs) : Prop where
  isAddress : ∀ key, kit.isAddress (sol.base58 key) = true
  addressEncoder : ∀ key, kit.addressEncoder (sol.base58 key) = some key.data
  systemProgram : sol.base58 sol.systemProgram = Api.systemProgramAddress
  utf8Encoder : ∀ text, codecs.utf8Encoder text = encodeUtf8 text
  u32Encoder : ∀ n < 2 ^ 32, codecs.u32Encoder n = Borsh.u32 n
  addEncoderSizePrefix : ∀ encoder sizeEncoder text,
    codecs.addEncoderSizePrefix encoder sizeEncoder text =
      sizeEncoder (encoder text).length ++ encoder text
  compiles : codecs.Compiles kit

/-- The built message, signed by exactly the keys it needs and with a funded payer, goes
through. -/
def Lands (sol : Solana) (kit : Kit) (programId : Pubkey) (built : BuiltTransaction)
    (chain chain' : Chain) : Prop :=
  ∃ tx, built.message.compile kit = some tx ∧
    processTransaction sol programId tx tx.signers true chain = .ok chain' ∧
    submitTransaction sol programId tx tx.signers true chain = chain'

/-- It is refused, so signed, and the chain is as it was. -/
def Fails (sol : Solana) (kit : Kit) (programId : Pubkey) (built : BuiltTransaction)
    (chain : Chain) : Prop :=
  ∃ tx e, built.message.compile kit = some tx ∧
    processTransaction sol programId tx tx.signers true chain = .error e ∧
    submitTransaction sol programId tx tx.signers true chain = chain

section
variable {sol : Solana} {kit : Kit} {codecs : Codecs}

theorem Documented.address (hd : Documented sol kit codecs) (key : Pubkey) :
    Api.address kit (sol.base58 key) = .ok (sol.base58 key) :=
  if_pos (hd.isAddress key)

theorem Documented.keyOf (hd : Documented sol kit codecs) (key : Pubkey) :
    Api.keyOf kit (sol.base58 key) = some key := by
  simp only [Api.keyOf, hd.addressEncoder, key.size, ↓reduceDIte]

theorem Documented.base58_injective (hd : Documented sol kit codecs) {key key' : Pubkey}
    (h : sol.base58 key = sol.base58 key') : key = key' := by
  have hk := hd.keyOf key
  rw [h, hd.keyOf] at hk
  exact (Option.some.inj hk).symm

theorem Documented.base58_ne (hd : Documented sol kit codecs) {key key' : Pubkey}
    (h : key ≠ key') : sol.base58 key ≠ sol.base58 key' :=
  fun he => h (hd.base58_injective he)

theorem Documented.keyOf_system (hd : Documented sol kit codecs) :
    Api.keyOf kit Api.systemProgramAddress = some sol.systemProgram := by
  rw [← hd.systemProgram, hd.keyOf]

theorem asciiBytes_utf8 (tag : NormalizedTag) : encodeUtf8 tag.text = asciiBytes tag.text :=
  encodeUtf8_ascii tag.ascii

theorem submitted_bytes (tag : NormalizedTag) :
    asBytes (Parity.submitted tag.text) = asciiBytes tag.text := by
  rw [Parity.asBytes_submitted, asciiBytes_utf8]

theorem submitted_canonical (tag : NormalizedTag) :
    CanonicalBytes (asBytes (Parity.submitted tag.text)) := by
  rw [Parity.asBytes_submitted]
  exact Parity.canonical_normalized tag

theorem Documented.registerData (hd : Documented sol kit codecs) (tag : NormalizedTag) :
    Api.encodeRegisterTagInstructionData codecs tag =
      registerTagDiscriminator ++ Borsh.string (Parity.submitted tag.text) := by
  have hb : Borsh.stringBytes (Parity.submitted tag.text) = encodeUtf8 tag.text :=
    Parity.asBytes_submitted tag.text
  have hl : (encodeUtf8 tag.text).length < 2 ^ 32 := by
    have := (Parity.canonical_normalized tag).short
    simp only [Program.maxTagLength] at this
    omega
  rw [Api.encodeRegisterTagInstructionData, hd.addEncoderSizePrefix, hd.utf8Encoder,
    hd.u32Encoder _ hl, Borsh.string, hb]
  rfl

theorem Documented.registerData_short (hd : Documented sol kit codecs) (tag : NormalizedTag) :
    (Api.encodeRegisterTagInstructionData codecs tag).length < 2 ^ 16 := by
  have hshort := (Parity.canonical_normalized tag).short
  have hb : Borsh.stringBytes (Parity.submitted tag.text) = encodeUtf8 tag.text :=
    Parity.asBytes_submitted tag.text
  simp only [Program.maxTagLength] at hshort
  rw [hd.registerData, List.length_append, Borsh.string, hb, List.length_append]
  have hdiscriminator : registerTagDiscriminator.length = 8 := rfl
  have hsize : (Borsh.u32 (encodeUtf8 tag.text).length).length = 4 := rfl
  omega

theorem Documented.updateData (hd : Documented sol kit codecs) (key : Pubkey) :
    Api.encodeUpdateWalletInstructionData kit (sol.base58 key) =
      .ok (updateWalletDiscriminator ++ key.data) := by
  simp only [Api.encodeUpdateWalletInstructionData, hd.addressEncoder]
  rfl

theorem tagPda_found {tag : NormalizedTag} {pda : Pubkey} {bump : UInt8}
    (hp : sol.findProgramAddress [tagSeedPrefix, asciiBytes tag.text] = some (pda, bump)) :
    Api.tagPda sol tag = .ok (sol.base58 pda) := by
  simp only [Api.tagPda, deriveTagPda, buildTagSeeds_normalized, hp]

theorem tagPda_none {tag : NormalizedTag}
    (hp : sol.findProgramAddress [tagSeedPrefix, asciiBytes tag.text] = none) :
    Api.tagPda sol tag = .error (.pda .noViableBump) := by
  simp only [Api.tagPda, deriveTagPda, buildTagSeeds_normalized, hp]

end

def registerRaw (sol : Solana) (programId pda owner payer : Pubkey) (tag : NormalizedTag) :
    RawInstruction where
  programId := programId
  accounts := [pda, owner, payer, sol.systemProgram]
  data := registerTagDiscriminator ++ Borsh.string (Parity.submitted tag.text)

def updateRaw (programId pda owner wallet : Pubkey) : RawInstruction where
  programId := programId
  accounts := [pda, owner]
  data := updateWalletDiscriminator ++ wallet.data

theorem compiled_ok {codecs : Codecs} {message : Api.TransactionMessage} {pda : Js.JsString}
    {built : BuiltTransaction} (h : compiled codecs message pda = .ok built) :
    built.message = message ∧ built.pda = pda := by
  rw [compiled] at h
  split at h
  · cases h
  · cases h
    exact ⟨rfl,rfl⟩

theorem compiled_of {kit : Kit} {codecs : Codecs} (hc : codecs.Compiles kit)
    {message : Api.TransactionMessage} (h : message.Compilable kit) (pda : Js.JsString) :
    ∃ built, compiled codecs message pda = .ok built := by
  obtain ⟨transaction,ht⟩ := hc.ok message h
  exact ⟨_,by rw [compiled, ht]⟩

/-- The instruction that registers, and, with a wallet of its own, the one that sets it. -/
def registration (programAddress pda owner payer : Js.JsString) (data : List UInt8)
    (wallet : List (List UInt8)) : List Api.Instruction :=
  { programAddress
    accounts := [⟨pda, .writable⟩, ⟨owner, .readonlySigner⟩, ⟨payer, .writableSigner⟩,
      ⟨Api.systemProgramAddress, .readonly⟩]
    data } ::
  wallet.map (fun bytes => {
    programAddress
    accounts := [⟨pda, .writable⟩, ⟨owner, .readonlySigner⟩]
    data := updateWalletDiscriminator ++ bytes })

section Compiled
variable {kit : Kit} {programAddress pda owner payer : Js.JsString} {data : List UInt8}
  {wallet : List (List UInt8)} {blockhash : BlockhashLifetime}

theorem registration_program {instruction : Api.Instruction}
    (h : instruction ∈ registration programAddress pda owner payer data wallet) :
    instruction.programAddress = programAddress := by
  rcases List.mem_cons.mp h with rfl | h
  · rfl
  · obtain ⟨bytes,_,rfl⟩ := List.mem_map.mp h
    rfl

/-- Its accounts are the four of the first instruction. -/
theorem registration_accounts {account : Api.AccountMeta}
    (h : account ∈ Api.TransactionMessage.accounts
      ⟨payer, blockhash, registration programAddress pda owner payer data wallet⟩) :
    account ∈ [⟨pda, .writable⟩, ⟨owner, .readonlySigner⟩, ⟨payer, .writableSigner⟩,
      (⟨Api.systemProgramAddress, .readonly⟩ : Api.AccountMeta)] := by
  rw [Api.TransactionMessage.accounts, registration, List.flatMap_cons] at h
  rcases List.mem_cons.mp h with rfl | h
  · simp
  · rcases List.mem_append.mp h with h | h
    · exact h
    · obtain ⟨instruction,hi,ha⟩ := List.mem_flatMap.mp h
      obtain ⟨bytes,_,rfl⟩ := List.mem_map.mp hi
      simp only [List.mem_cons, List.not_mem_nil, or_false] at ha
      rcases ha with rfl | rfl
      · simp
      · simp

/-- Nothing but the program itself is unfit to pay for it. -/
theorem registration_compilable (hpda : kit.isAddress pda = true)
    (howner : kit.isAddress owner = true) (hpayer : kit.isAddress payer = true)
    (hsystem : kit.isAddress Api.systemProgramAddress = true)
    (hprogram : kit.isAddress programAddress = true)
    (hblockhash : kit.isAddress blockhash.blockhash = true)
    (hne : pda ≠ programAddress) (hfit : payer ≠ programAddress)
    (hdata : data.length < 2 ^ 16) (hone : wallet.length ≤ 1)
    (hbytes : ∀ bytes ∈ wallet, bytes.length = 32) :
    Api.TransactionMessage.Compilable kit
      ⟨payer, blockhash, registration programAddress pda owner payer data wallet⟩ where
  accounts := by
    intro account ha
    have hin := registration_accounts ha
    simp only [List.mem_cons, List.not_mem_nil, or_false] at hin
    rcases hin with rfl | rfl | rfl | rfl
    · exact hpda
    · exact howner
    · exact hpayer
    · exact hsystem
  blockhash := hblockhash
  programs := by
    intro instruction hi
    rw [registration_program hi]
    refine ⟨hprogram,fun account ha hw => ?_⟩
    have hin := registration_accounts ha
    simp only [List.mem_cons, List.not_mem_nil, or_false] at hin
    rcases hin with rfl | rfl | rfl | rfl
    · exact hne
    · cases hw
    · exact hfit
    · cases hw
  keys := by
    cases wallet with
    | nil => simp [Api.TransactionMessage.accounts, registration]
    | cons bytes rest =>
      have hrest : rest = [] := List.length_eq_zero_iff.mp (by simpa using hone)
      rw [hrest]
      simp [Api.TransactionMessage.accounts, registration]
  data := by
    intro instruction hi
    rcases List.mem_cons.mp hi with rfl | hi
    · exact hdata
    · obtain ⟨bytes,hb,rfl⟩ := List.mem_map.mp hi
      simp [updateWalletDiscriminator, hbytes bytes hb]

end Compiled

section
variable {sol : Solana} {kit : Kit} {codecs : Codecs} (hd : Documented sol kit codecs)
  {tag : NormalizedTag} {pda : Pubkey} {bump : UInt8}
  (hp : sol.findProgramAddress [tagSeedPrefix, asciiBytes tag.text] = some (pda, bump))

include hd hp

/-- The registration for a wallet of its own is one instruction, for another wallet two. -/
theorem register_message (programId owner payer wallet : Pubkey) (blockhash : BlockhashLifetime) :
    ∃ message, buildRegisterTagTransaction sol kit codecs
        { programId := sol.base58 programId, tag, ownerPubkey := sol.base58 owner,
          payerPubkey := sol.base58 payer, walletAddress := sol.base58 wallet, blockhash } =
          compiled codecs message (sol.base58 pda) ∧
      (pda ≠ programId → payer ≠ programId → kit.isAddress blockhash.blockhash = true →
        message.Compilable kit) ∧
      ∃ tx, message.compile kit = some tx ∧
        (owner ∈ tx.signers ∧ payer ∈ tx.signers) ∧ (pda ∈ tx.writable ∧ payer ∈ tx.writable) ∧
        tx.instructions = registerRaw sol programId pda owner payer tag ::
          (if sol.base58 wallet ≠ sol.base58 owner then
            [updateRaw programId pda owner wallet] else []) := by
  have hsystem : kit.isAddress Api.systemProgramAddress = true := by
    rw [← hd.systemProgram]
    exact hd.isAddress _
  have hcompilable : ∀ wallet : List (List UInt8), wallet.length ≤ 1 →
      (∀ bytes ∈ wallet, bytes.length = 32) → pda ≠ programId → payer ≠ programId →
      kit.isAddress blockhash.blockhash = true →
      Api.TransactionMessage.Compilable kit ⟨sol.base58 payer, blockhash,
        registration (sol.base58 programId) (sol.base58 pda) (sol.base58 owner) (sol.base58 payer)
          (Api.encodeRegisterTagInstructionData codecs tag) wallet⟩ :=
    fun wallet hone hbytes hpda hpayer hblockhash =>
      registration_compilable (hd.isAddress pda) (hd.isAddress owner) (hd.isAddress payer) hsystem
        (hd.isAddress programId) hblockhash (hd.base58_ne hpda) (hd.base58_ne hpayer)
        (hd.registerData_short tag) hone hbytes
  by_cases hw : sol.base58 wallet ≠ sol.base58 owner
  · simp only [buildRegisterTagTransaction, tagPda_found hp, hd.address, bind, Except.bind, hw,
      ne_eq, not_false_eq_true, ↓reduceIte, hd.updateData]
    refine ⟨_,rfl,hcompilable [wallet.data] (Nat.le_refl 1) (by simp [wallet.size]),?_⟩
    simp [Api.TransactionMessage.compile, Api.TransactionMessage.accounts, Api.Instruction.compile,
      Api.AccountRole.isSigner, Api.AccountRole.isWritable, hd.keyOf, hd.keyOf_system,
      hd.registerData, registerRaw, updateRaw]
  · simp only [buildRegisterTagTransaction, tagPda_found hp, hd.address, bind, Except.bind, hw,
      ↓reduceIte]
    refine ⟨_,rfl,hcompilable [] (Nat.zero_le 1) (by simp),?_⟩
    simp [Api.TransactionMessage.compile, Api.TransactionMessage.accounts, Api.Instruction.compile,
      Api.AccountRole.isSigner, Api.AccountRole.isWritable, hd.keyOf, hd.keyOf_system,
      hd.registerData, registerRaw]

theorem update_message (programId owner newWallet : Pubkey) (blockhash : BlockhashLifetime) :
    ∃ message, buildUpdateWalletTransaction sol kit codecs
        { programId := sol.base58 programId, tag, ownerPubkey := sol.base58 owner,
          newWallet := sol.base58 newWallet, blockhash } =
          compiled codecs message (sol.base58 pda) ∧
      (pda ≠ programId → owner ≠ programId → kit.isAddress blockhash.blockhash = true →
        message.Compilable kit) ∧
      ∃ tx, message.compile kit = some tx ∧ owner ∈ tx.signers ∧ pda ∈ tx.writable ∧
        tx.instructions = [updateRaw programId pda owner newWallet] := by
  simp only [buildUpdateWalletTransaction, tagPda_found hp, hd.address, bind, Except.bind,
    hd.updateData]
  refine ⟨_,rfl,fun hpda howner hblockhash => ⟨?_,hblockhash,?_,?_,?_⟩,?_⟩
  · simp [Api.TransactionMessage.accounts, hd.isAddress]
  · simp [Api.TransactionMessage.accounts, hd.isAddress, Api.AccountRole.isWritable,
      hd.base58_ne hpda, hd.base58_ne howner]
  · simp [Api.TransactionMessage.accounts]
  · simp [newWallet.size, updateWalletDiscriminator]
  simp [Api.TransactionMessage.compile, Api.TransactionMessage.accounts, Api.Instruction.compile,
    Api.AccountRole.isSigner, Api.AccountRole.isWritable, hd.keyOf, updateRaw]

/-- What was built has been compiled. -/
theorem register_compiled {programId owner payer wallet : Pubkey} {blockhash : BlockhashLifetime}
    {built : BuiltTransaction} (h : buildRegisterTagTransaction sol kit codecs
        { programId := sol.base58 programId, tag, ownerPubkey := sol.base58 owner,
          payerPubkey := sol.base58 payer, walletAddress := sol.base58 wallet, blockhash } =
            .ok built) :
    ∃ tx, built.message.compile kit = some tx ∧
      (owner ∈ tx.signers ∧ payer ∈ tx.signers) ∧ (pda ∈ tx.writable ∧ payer ∈ tx.writable) ∧
      tx.instructions = registerRaw sol programId pda owner payer tag ::
        (if sol.base58 wallet ≠ sol.base58 owner then
          [updateRaw programId pda owner wallet] else []) := by
  obtain ⟨message,hbuild,_,htx⟩ := register_message hd hp programId owner payer wallet blockhash
  rw [(compiled_ok (hbuild.symm.trans h)).1]
  exact htx

theorem update_compiled {programId owner newWallet : Pubkey} {blockhash : BlockhashLifetime}
    {built : BuiltTransaction} (h : buildUpdateWalletTransaction sol kit codecs
        { programId := sol.base58 programId, tag, ownerPubkey := sol.base58 owner,
          newWallet := sol.base58 newWallet, blockhash } = .ok built) :
    ∃ tx, built.message.compile kit = some tx ∧ owner ∈ tx.signers ∧ pda ∈ tx.writable ∧
      tx.instructions = [updateRaw programId pda owner newWallet] := by
  obtain ⟨message,hbuild,_,htx⟩ := update_message hd hp programId owner newWallet blockhash
  rw [(compiled_ok (hbuild.symm.trans h)).1]
  exact htx

end

section
variable {sol : Solana} {programId pda owner payer wallet : Pubkey} {tag : NormalizedTag}
  {bump : UInt8} {tx : Transaction} {chain : Chain}

theorem registerRaw_read :
    readInstruction (registerRaw sol programId pda owner payer tag).accounts
        (registerRaw sol programId pda owner payer tag).data =
      .ok (.registerTag ⟨pda,owner,payer,sol.systemProgram⟩ (Parity.submitted tag.text)) := by
  apply readInstruction_registerTag
  have := (submitted_canonical tag).short
  simp only [Program.maxTagLength] at this
  omega

theorem registerRaw_process : processInstruction sol programId tx true chain
    (registerRaw sol programId pda owner payer tag) = (execute sol chain
      ⟨.registerTag ⟨pda,owner,payer,sol.systemProgram⟩ (Parity.submitted tag.text),
        tx.signers,tx.writable,true⟩).mapError .program :=
  processInstruction_own rfl registerRaw_read

theorem updateRaw_process : processInstruction sol programId tx true chain
    (updateRaw programId pda owner wallet) = (execute sol chain
      ⟨.updateWallet ⟨pda,owner⟩ wallet,tx.signers,tx.writable,true⟩).mapError .program :=
  processInstruction_own rfl (readInstruction_updateWallet pda owner wallet)

/-- On a free address the first instruction leaves the tag's account, owner and wallet
the same key. -/
theorem registerRaw_lands (programId : Pubkey)
    (hp : sol.findProgramAddress [tagSeedPrefix, asciiBytes tag.text] = some (pda, bump))
    (hs : owner ∈ tx.signers ∧ payer ∈ tx.signers) (hw : pda ∈ tx.writable ∧ payer ∈ tx.writable)
    (hn : chain.tagAccounts pda = none) :
    ∃ account, processInstruction sol programId tx true chain
        (registerRaw sol programId pda owner payer tag) = .ok (chain.put pda account) ∧
      account.owner = owner ∧ account.wallet = owner ∧
      StoresTag account (asciiBytes tag.text) ∧ account.bump = bump := by
  have hd := submitted_bytes tag ▸ hp
  have hruns : ∃ chain', registerTag sol chain
      ⟨.registerTag ⟨pda,owner,payer,sol.systemProgram⟩ (Parity.submitted tag.text),
        tx.signers,tx.writable,true⟩
      ⟨pda,owner,payer,sol.systemProgram⟩ (Parity.submitted tag.text) = .ok chain' :=
    registerTag_runs hs.1 hs.2 rfl hd hw.1 hn rfl hw.2 (submitted_canonical tag)
  obtain ⟨chain',hr⟩ := hruns
  obtain ⟨account,hreg,rfl⟩ := registerTag_ok hr
  have hbump := hreg.derived
  rw [hd] at hbump
  simp only [Option.some.injEq, Prod.mk.injEq, true_and] at hbump
  refine ⟨account,?_,hreg.owner,hreg.wallet,submitted_bytes tag ▸ hreg.stored,hbump.symm⟩
  rw [registerRaw_process]
  simp only [execute, hr, Except.mapError]

theorem registerRaw_taken (ht : chain.tagAccounts pda ≠ none) :
    ∃ e, processInstruction sol programId tx true chain
      (registerRaw sol programId pda owner payer tag) = .error e := by
  rw [registerRaw_process]
  simp only [execute]
  cases hr : registerTag sol chain _ _ _ with
  | error e => exact ⟨.program e,rfl⟩
  | ok chain' =>
    obtain ⟨account,hreg,_⟩ := registerTag_ok hr
    exact absurd hreg.fresh ht

theorem updateRaw_lands {account : TagAccount} {slice : List UInt8}
    (hf : chain.tagAccounts pda = some account) (hs : owner ∈ tx.signers)
    (hslice : sliceTag account = .ok slice)
    (hc : sol.createProgramAddress [tagSeedPrefix, slice, [account.bump]] = some pda)
    (hw : pda ∈ tx.writable) (ho : account.owner = owner) :
    processInstruction sol programId tx true chain (updateRaw programId pda owner wallet) =
      .ok (chain.put pda { account with wallet }) := by
  have hr : updateWallet sol chain
      ⟨.updateWallet ⟨pda,owner⟩ wallet,tx.signers,tx.writable,true⟩ ⟨pda,owner⟩ wallet =
      .ok (chain.put pda { account with wallet }) :=
    updateWallet_runs wallet hf hs hslice hc hw ho
  rw [updateRaw_process]
  simp only [execute, hr, Except.mapError]

theorem updateRaw_foreign
    (ho : ∀ account, chain.tagAccounts pda = some account → account.owner ≠ owner) :
    ∃ e, processInstruction sol programId tx true chain
      (updateRaw programId pda owner wallet) = .error e := by
  rw [updateRaw_process]
  simp only [execute]
  cases hr : updateWallet sol chain _ _ _ with
  | error e => exact ⟨.program e,rfl⟩
  | ok chain' =>
    obtain ⟨account,howns,_⟩ := updateWallet_ok hr
    exact absurd howns.owner (ho account howns.found)

end

theorem lands_of {sol : Solana} {kit : Kit} {programId : Pubkey} {built : BuiltTransaction}
    {chain chain' : Chain} {tx : Transaction} (hc : built.message.compile kit = some tx)
    (h : processInstructions sol programId tx true chain tx.instructions = .ok chain') :
    Lands sol kit programId built chain chain' := by
  have hp : processTransaction sol programId tx tx.signers true chain = .ok chain' := by
    rw [processTransaction_signed, h]
  exact ⟨tx,hc,hp,by rw [submitTransaction, hp]⟩

/-- The first instruction that is refused takes the whole transaction with it. -/
theorem fails_of {sol : Solana} {kit : Kit} {programId : Pubkey} {built : BuiltTransaction}
    {chain : Chain} {tx : Transaction} {raw : RawInstruction} {rest : List RawInstruction}
    {e : TransactionError} (hc : built.message.compile kit = some tx)
    (hi : tx.instructions = raw :: rest)
    (h : processInstruction sol programId tx true chain raw = .error e) :
    Fails sol kit programId built chain := by
  have hp : processTransaction sol programId tx tx.signers true chain = .error e := by
    rw [processTransaction_signed, hi, processInstructions, h]
  exact ⟨tx,e,hc,hp,by rw [submitTransaction, hp]⟩

/-- What the registering transaction does for one tag at its address. -/
structure RegistersTag (sol : Solana) (kit : Kit) (programId pda : Pubkey) (bump : UInt8)
    (tag : NormalizedTag) (owner wallet : Pubkey) (register : BuiltTransaction) : Prop where
  taken : ∀ chain, chain.tagAccounts pda ≠ none → Fails sol kit programId register chain
  registers : ∀ chain, chain.tagAccounts pda = none → ∃ account,
    Lands sol kit programId register chain (chain.put pda account) ∧
    account.owner = owner ∧ account.wallet = wallet ∧
    StoresTag account (asciiBytes tag.text) ∧ account.bump = bump

/-- What the other does. -/
structure SetsWallet (sol : Solana) (kit : Kit) (programId pda owner wallet : Pubkey)
    (update : BuiltTransaction) : Prop where
  foreign : ∀ chain, (∀ account, chain.tagAccounts pda = some account → account.owner ≠ owner) →
    Fails sol kit programId update chain
  /-- On every chain that the program's instructions lead to. -/
  updates : ∀ history account, (Authority.after sol history).tagAccounts pda = some account →
    account.owner = owner → Lands sol kit programId update (Authority.after sol history)
      ((Authority.after sol history).put pda { account with wallet })

section
variable {sol : Solana} {kit : Kit} {codecs : Codecs} {programId pda owner payer wallet : Pubkey}
  {tag : NormalizedTag} {bump : UInt8} {tx : Transaction} {built : BuiltTransaction} {chain : Chain}

theorem chain_put_put (chain : Chain) (key : Pubkey) (account account' : TagAccount) :
    (chain.put key account).put key account' = chain.put key account' := by
  simp only [Chain.put, Function.update_idem]

/-- The second instruction finds the account that the first one has written. -/
theorem register_lands (hd : Documented sol kit codecs)
    (hp : sol.findProgramAddress [tagSeedPrefix, asciiBytes tag.text] = some (pda, bump))
    (hc : built.message.compile kit = some tx) (hs : owner ∈ tx.signers ∧ payer ∈ tx.signers)
    (hw : pda ∈ tx.writable ∧ payer ∈ tx.writable)
    (hi : tx.instructions = registerRaw sol programId pda owner payer tag ::
      (if sol.base58 wallet ≠ sol.base58 owner then
        [updateRaw programId pda owner wallet] else []))
    (hn : chain.tagAccounts pda = none) :
    ∃ account, Lands sol kit programId built chain (chain.put pda account) ∧
      account.owner = owner ∧ account.wallet = wallet ∧
      StoresTag account (asciiBytes tag.text) ∧ account.bump = bump := by
  obtain ⟨first,hrun,howner,hwallet,hstored,hbump⟩ := registerRaw_lands programId hp hs hw hn
  by_cases hne : sol.base58 wallet ≠ sol.base58 owner
  · rw [if_pos hne] at hi
    have hcreate := hbump ▸ sol.findProgramAddress_create hp
    have hsecond : processInstruction sol programId tx true (chain.put pda first)
        (updateRaw programId pda owner wallet) = .ok _ :=
      updateRaw_lands (chain.put_self pda first) hs.1 hstored.sliceTag hcreate hw.1 howner
    refine ⟨{ first with wallet },lands_of hc ?_,howner,rfl,
      ⟨hstored.canonical,hstored.buffer,hstored.tagLen⟩,hbump⟩
    rw [hi, processInstructions, hrun]
    simp only [processInstructions, hsecond, chain_put_put]
  · rw [if_neg hne] at hi
    have hsame := hd.base58_injective (not_not.mp hne)
    refine ⟨first,lands_of hc ?_,howner,hwallet.trans hsame.symm,hstored,hbump⟩
    rw [hi, processInstructions, hrun]
    rfl

end

section
variable {sol : Solana} {kit : Kit} {codecs : Codecs} {programId pda owner payer wallet : Pubkey}
  {tag : NormalizedTag} {bump : UInt8} {blockhash : BlockhashLifetime}

theorem register_asked (hd : Documented sol kit codecs)
    (hp : sol.findProgramAddress [tagSeedPrefix, asciiBytes tag.text] = some (pda, bump))
    (hblockhash : kit.isAddress blockhash.blockhash = true) (hpda : pda ≠ programId)
    (hpayer : payer ≠ programId) :
    ∃ r, buildRegisterTagTransaction sol kit codecs
        { programId := sol.base58 programId, tag, ownerPubkey := sol.base58 owner,
          payerPubkey := sol.base58 payer, walletAddress := sol.base58 wallet, blockhash } = .ok r ∧
      RegistersTag sol kit programId pda bump tag owner wallet r := by
  obtain ⟨message,hbuild,hcompilable,_⟩ := register_message hd hp programId owner payer wallet blockhash
  obtain ⟨r,hr⟩ := compiled_of hd.compiles (hcompilable hpda hpayer hblockhash) (sol.base58 pda)
  obtain ⟨tx,hc,hs,hw,hi⟩ := register_compiled hd hp (hbuild.trans hr)
  refine ⟨r,hbuild.trans hr,fun chain ht => ?_,fun chain hn => register_lands hd hp hc hs hw hi hn⟩
  obtain ⟨e,he⟩ := registerRaw_taken ht
  exact fails_of hc hi he

theorem update_asked (hd : Documented sol kit codecs)
    (hp : sol.findProgramAddress [tagSeedPrefix, asciiBytes tag.text] = some (pda, bump))
    (hblockhash : kit.isAddress blockhash.blockhash = true) (hpda : pda ≠ programId)
    (howner : owner ≠ programId) :
    ∃ u, buildUpdateWalletTransaction sol kit codecs
        { programId := sol.base58 programId, tag, ownerPubkey := sol.base58 owner,
          newWallet := sol.base58 wallet, blockhash } = .ok u ∧
      SetsWallet sol kit programId pda owner wallet u := by
  obtain ⟨message,hbuild,hcompilable,_⟩ := update_message hd hp programId owner wallet blockhash
  obtain ⟨u,hu⟩ := compiled_of hd.compiles (hcompilable hpda howner hblockhash) (sol.base58 pda)
  obtain ⟨tx,hc,hs,hw,hi⟩ := update_compiled hd hp (hbuild.trans hu)
  refine ⟨u,hbuild.trans hu,fun chain ho => ?_,fun history account hf ho => ?_⟩
  · obtain ⟨e,he⟩ := updateRaw_foreign ho
    exact fails_of hc hi he
  · have hwf := Representation.after_wellFormed sol history pda account hf
    obtain ⟨hslice,hcreate⟩ := hwf.checked
    apply lands_of hc
    rw [hi, processInstructions, updateRaw_lands hf hs hslice hcreate hw ho]
    rfl

end

/-- Registration and wallet update, built for any keys, do on the chain what was asked for,
where it is not the program itself that pays; without an address for the tag both builders
throw. -/
theorem built_transactions {sol : Solana} {kit : Kit} {codecs : Codecs}
    (hd : Documented sol kit codecs) (programId owner payer wallet : Pubkey) (tag : NormalizedTag)
    (blockhash : BlockhashLifetime) (hblockhash : kit.isAddress blockhash.blockhash = true) :
    let register := buildRegisterTagTransaction sol kit codecs
      { programId := sol.base58 programId, tag, ownerPubkey := sol.base58 owner,
        payerPubkey := sol.base58 payer, walletAddress := sol.base58 wallet, blockhash }
    let update := buildUpdateWalletTransaction sol kit codecs
      { programId := sol.base58 programId, tag, ownerPubkey := sol.base58 owner,
        newWallet := sol.base58 wallet, blockhash }
    match sol.findProgramAddress [tagSeedPrefix, asciiBytes tag.text] with
    | none => register = .error (.pda .noViableBump) ∧ update = .error (.pda .noViableBump)
    | some (pda, bump) => pda ≠ programId →
      (payer ≠ programId → ∃ r, register = .ok r ∧
        RegistersTag sol kit programId pda bump tag owner wallet r) ∧
      (owner ≠ programId → ∃ u, update = .ok u ∧
        SetsWallet sol kit programId pda owner wallet u) := by
  intro register update
  split
  · rename_i hp
    have ht := tagPda_none hp
    simp only [register, update, buildRegisterTagTransaction, buildUpdateWalletTransaction, ht,
      bind, Except.bind, and_self]
  · rename_i pda bump hp
    exact fun hpda => ⟨register_asked hd hp hblockhash hpda,update_asked hd hp hblockhash hpda⟩

theorem sample_documented : Documented sampleSolana Api.sampleKit Api.sampleCodecs where
  isAddress := fun key => congrArg Option.isSome (Api.addressBytes_base58 key)
  addressEncoder := Api.addressBytes_base58
  systemProgram := by decide
  utf8Encoder := fun _ => rfl
  u32Encoder := fun _ _ => rfl
  addEncoderSizePrefix := fun _ _ _ => rfl
  compiles := Api.sampleCodecs_compiles

/-- One key owns `abc`, another pays for it and is paid under it. -/
theorem abc_built :
    (∃ r, buildRegisterTagTransaction sampleSolana Api.sampleKit Api.sampleCodecs
      { programId := base58 sampleProgram, tag := .abc, ownerPubkey := base58 sampleOwner,
        payerPubkey := base58 Api.walletKey, walletAddress := base58 Api.walletKey,
        blockhash := ⟨base58 danielAddress,0⟩ } = .ok r ∧
      RegistersTag sampleSolana Api.sampleKit sampleProgram abcAddress 255 .abc sampleOwner
        Api.walletKey r) ∧
    ∃ u, buildUpdateWalletTransaction sampleSolana Api.sampleKit Api.sampleCodecs
      { programId := base58 sampleProgram, tag := .abc, ownerPubkey := base58 sampleOwner,
        newWallet := base58 Api.walletKey, blockhash := ⟨base58 danielAddress,0⟩ } = .ok u ∧
      SetsWallet sampleSolana Api.sampleKit sampleProgram abcAddress sampleOwner Api.walletKey u := by
  have h := built_transactions sample_documented sampleProgram sampleOwner Api.walletKey
    Api.walletKey .abc ⟨base58 danielAddress,0⟩ (sample_documented.isAddress danielAddress)
  have hp : sampleSolana.findProgramAddress [tagSeedPrefix, asciiBytes NormalizedTag.abc.text] =
    some (abcAddress, 255) := by decide
  simp only [hp] at h
  obtain ⟨hregister,hupdate⟩ := h (by decide)
  exact ⟨hregister (by decide),hupdate (by decide)⟩

end Tagwise.Proofs.Transactions
