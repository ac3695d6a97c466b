import Tagwise.Lib.Borsh
import Tagwise.Program.Instructions

/-! From a signed transaction to the handlers: the dispatch on the first eight
bytes, the arguments behind them, the accounts by position. -/

namespace Tagwise.Program
open Lib

/-- `sha256("global:register_tag")[..8]`, as Anchor derives it. -/
def registerTagDiscriminator : List UInt8 := [74, 29, 15, 99, 244, 166, 160, 42]

/-- `sha256("global:update_wallet")[..8]`. -/
def updateWalletDiscriminator : List UInt8 := [30, 233, 126, 238, 58, 16, 215, 184]

/-- `sha256("global:transfer_ownership")[..8]`. -/
def transferOwnershipDiscriminator : List UInt8 := [65, 177, 215, 73, 53, 45, 99, 47]

/-- An instruction as a transaction carries it. -/
structure RawInstruction where
  programId : Pubkey
  accounts : List Pubkey
  data : List UInt8
  deriving DecidableEq

/-- The roles of a key hold for all its uses: who signs and what is locked for
writing is said once for the whole transaction. -/
structure Transaction where
  signers : List Pubkey
  writable : List Pubkey
  instructions : List RawInstruction
  deriving DecidableEq

inductive TransactionError
  | signatureMissing
  | instructionFallbackNotFound
  | instructionDidNotDeserialize
  | accountNotEnoughKeys
  | program (error : ProgramError)
  deriving DecidableEq, Repr

def readPubkey : Borsh.Reader Pubkey := fun data =>
  if h : 32 ≤ data.length then some (⟨data.take 32, by simp [h]⟩, data.drop 32) else none

/-- The accounts in the order of the struct; more than it names are left over. -/
def RegisterTag.ofKeys : List Pubkey → Option RegisterTag
  | tagAccount :: owner :: payer :: systemProgram :: _ =>
    some { tagAccount, owner, payer, systemProgram }
  | _ => none

def UpdateWallet.ofKeys : List Pubkey → Option UpdateWallet
  | tagAccount :: owner :: _ => some { tagAccount, owner }
  | _ => none

def TransferOwnership.ofKeys : List Pubkey → Option TransferOwnership
  | tagAccount :: owner :: _ => some { tagAccount, owner }
  | _ => none

/-- The arguments, then the accounts; bytes behind the arguments are ignored. -/
def readCall (args : Option (α × List UInt8)) (accounts : Option β) (make : β → α → Instruction) :
    Except TransactionError Instruction :=
  match args, accounts with
  | none, _ => .error .instructionDidNotDeserialize
  | some _, none => .error .accountNotEnoughKeys
  | some (a, _), some b => .ok (make b a)

/-- The entry point of `#[program]`. -/
def readInstruction (accounts : List Pubkey) (data : List UInt8) :
    Except TransactionError Instruction :=
  let args := data.drop anchorDiscriminator
  if registerTagDiscriminator.isPrefixOf data then
    readCall (Borsh.readString args) (RegisterTag.ofKeys accounts) .registerTag
  else if updateWalletDiscriminator.isPrefixOf data then
    readCall (readPubkey args) (UpdateWallet.ofKeys accounts) .updateWallet
  else if transferOwnershipDiscriminator.isPrefixOf data then
    readCall (readPubkey args) (TransferOwnership.ofKeys accounts) .transferOwnership
  else .error .instructionFallbackNotFound

/-- Another program's instruction cannot write the accounts of this one. -/
def processInstruction (sol : Solana) (programId : Pubkey) (tx : Transaction) (payerFunded : Bool)
    (chain : Chain) (raw : RawInstruction) : Except TransactionError Chain :=
  if raw.programId ≠ programId then .ok chain
  else
    match readInstruction raw.accounts raw.data with
    | .error e => .error e
    | .ok instruction =>
      match execute sol chain
        { instruction, signers := tx.signers, writable := tx.writable, payerFunded } with
      | .error e => .error (.program e)
      | .ok chain' => .ok chain'

/-- The instructions in order, each on the state the ones before it have left. -/
def processInstructions (sol : Solana) (programId : Pubkey) (tx : Transaction) (payerFunded : Bool)
    (chain : Chain) : List RawInstruction → Except TransactionError Chain
  | [] => .ok chain
  | raw :: rest =>
    match processInstruction sol programId tx payerFunded chain raw with
    | .error e => .error e
    | .ok chain' => processInstructions sol programId tx payerFunded chain' rest

def processTransaction (sol : Solana) (programId : Pubkey) (tx : Transaction)
    (signed : List Pubkey) (payerFunded : Bool) (chain : Chain) : Except TransactionError Chain :=
  if tx.signers.all (fun key => signed.contains key) then
    processInstructions sol programId tx payerFunded chain tx.instructions
  else .error .signatureMissing

/-- A transaction lands whole or not at all. -/
def submitTransaction (sol : Solana) (programId : Pubkey) (tx : Transaction)
    (signed : List Pubkey) (payerFunded : Bool) (chain : Chain) : Chain :=
  match processTransaction sol programId tx signed payerFunded chain with
  | .ok chain' => chain'
  | .error _ => chain

/-- Signed by its own signers, a transaction comes to its instructions. -/
theorem processTransaction_signed (sol : Solana) (programId : Pubkey) (tx : Transaction)
    (payerFunded : Bool) (chain : Chain) :
    processTransaction sol programId tx tx.signers payerFunded chain =
      processInstructions sol programId tx payerFunded chain tx.instructions :=
  if_pos (List.all_eq_true.mpr (fun _ hk => List.contains_iff_mem.mpr hk))

theorem readPubkey_append (key : Pubkey) (rest : List UInt8) :
    readPubkey (key.data ++ rest) = some (key, rest) := by
  have hl : 32 ≤ (key.data ++ rest).length := by simp [key.size]
  have ht : (key.data ++ rest).take 32 = key.data := List.take_left' key.size
  have hd : (key.data ++ rest).drop 32 = rest := List.drop_left' key.size
  cases key
  simp only at ht hd hl
  simp only [readPubkey, hl, ↓reduceDIte, ht, hd]

theorem readInstruction_registerTag {tag : String} (h : (asBytes tag).length < 2 ^ 32)
    (tagAccount owner payer systemProgram : Pubkey) :
    readInstruction [tagAccount, owner, payer, systemProgram]
        (registerTagDiscriminator ++ Borsh.string tag) =
      .ok (.registerTag { tagAccount, owner, payer, systemProgram } tag) := by
  have hp : registerTagDiscriminator.isPrefixOf (registerTagDiscriminator ++ Borsh.string tag) =
    true := by simp
  have hr := Borsh.readString_string h []
  rw [List.append_nil] at hr
  have hd : (registerTagDiscriminator ++ Borsh.string tag).drop anchorDiscriminator =
    Borsh.string tag := rfl
  simp only [readInstruction, hp, ↓reduceIte, hd, hr, RegisterTag.ofKeys, readCall]

theorem readInstruction_updateWallet (tagAccount owner newWallet : Pubkey) :
    readInstruction [tagAccount, owner] (updateWalletDiscriminator ++ newWallet.data) =
      .ok (.updateWallet { tagAccount, owner } newWallet) := by
  have hr : registerTagDiscriminator.isPrefixOf (updateWalletDiscriminator ++ newWallet.data) =
    false := rfl
  have hp : updateWalletDiscriminator.isPrefixOf (updateWalletDiscriminator ++ newWallet.data) =
    true := by simp
  have hk := readPubkey_append newWallet []
  rw [List.append_nil] at hk
  have hd : (updateWalletDiscriminator ++ newWallet.data).drop anchorDiscriminator =
    newWallet.data := rfl
  simp only [readInstruction, hr, Bool.false_eq_true, ↓reduceIte, hp, hd, hk, UpdateWallet.ofKeys,
    readCall]

/-- An instruction of this program is its handler, under the roles of the transaction. -/
theorem processInstruction_own {sol : Solana} {programId : Pubkey} {tx : Transaction}
    {payerFunded : Bool} {chain : Chain} {raw : RawInstruction} {instruction : Instruction}
    (hp : raw.programId = programId) (h : readInstruction raw.accounts raw.data = .ok instruction) :
    processInstruction sol programId tx payerFunded chain raw =
      (execute sol chain ⟨instruction,tx.signers,tx.writable,payerFunded⟩).mapError .program := by
  simp only [processInstruction, hp, ne_eq, not_true_eq_false, ↓reduceIte, h]
  cases execute sol chain ⟨instruction,tx.signers,tx.writable,payerFunded⟩ with
  | error e => rfl
  | ok chain' => rfl

end Tagwise.Program
