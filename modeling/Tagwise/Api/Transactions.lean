import Tagwise.Api.Auth
import Tagwise.Core.Seeds
import Tagwise.Program.Entry

namespace Tagwise.Api
open Js Lib
open Tagwise.Core (NormalizedTag deriveTagPda PdaError)

def registerTagDiscriminator : List UInt8 := [74, 29, 15, 99, 244, 166, 160, 42]
def updateWalletDiscriminator : List UInt8 := [30, 233, 126, 238, 58, 16, 215, 184]

inductive AccountRole
  | readonly
  | writable
  | readonlySigner
  | writableSigner
  deriving DecidableEq, Repr

def AccountRole.isSigner : AccountRole → Bool
  | .readonlySigner | .writableSigner => true
  | .readonly | .writable => false

def AccountRole.isWritable : AccountRole → Bool
  | .writable | .writableSigner => true
  | .readonly | .readonlySigner => false

structure AccountMeta where
  address : JsString
  role : AccountRole
  deriving DecidableEq

structure Instruction where
  programAddress : JsString
  accounts : List AccountMeta
  data : List UInt8
  deriving DecidableEq

structure BlockhashLifetime where
  blockhash : JsString
  lastValidBlockHeight : Nat
  deriving DecidableEq

structure TransactionMessage where
  feePayer : JsString
  lifetime : BlockhashLifetime
  instructions : List Instruction
  deriving DecidableEq

/-- A transaction that nobody has signed: its message's bytes, and who is to sign them. -/
structure CompiledTransaction where
  messageBytes : List UInt8
  signers : List JsString
  deriving DecidableEq

inductive CompileError
  | invokedProgramsCannotPayFees (programAddress : JsString)
  | invokedProgramsMustNotBeWritable (programAddress : JsString)
  /-- An address or the blockhash is no encoding of 32 bytes. -/
  | encoding
  deriving DecidableEq

/-- The codecs of the Solana kit that the instruction encoders are made of, and the kit's
compilation of a message. -/
structure Codecs where
  utf8Encoder : JsString → List UInt8
  u32Encoder : Nat → List UInt8
  /-- Of an encoder and the encoder of its size. -/
  addEncoderSizePrefix : (JsString → List UInt8) → (Nat → List UInt8) → JsString → List UInt8
  compileTransaction : TransactionMessage → Except CompileError CompiledTransaction

inductive BuildError
  | pda (error : PdaError)
  | invalidAddress (text : JsString)
  | compile (error : CompileError)
  deriving DecidableEq

def encodeRegisterTagInstructionData (codecs : Codecs) (tag : JsString) : List UInt8 :=
  let tagEncoder := codecs.addEncoderSizePrefix codecs.utf8Encoder codecs.u32Encoder
  registerTagDiscriminator ++ tagEncoder tag

def encodeUpdateWalletInstructionData (kit : Kit) (newWallet : JsString) :
    Except BuildError (List UInt8) :=
  match kit.addressEncoder newWallet with
  | none => .error (.invalidAddress newWallet)
  | some walletBytes => .ok (updateWalletDiscriminator ++ walletBytes)

/-- A brand on checked text; throws on anything else. -/
def address (kit : Kit) (text : JsString) : Except BuildError JsString :=
  if kit.isAddress text then .ok text else .error (.invalidAddress text)

def systemProgramAddress : JsString := js "11111111111111111111111111111111"

def tagPda (sol : Program.Solana) (tag : NormalizedTag) : Except BuildError JsString :=
  match deriveTagPda sol tag with
  | .error e => .error (.pda e)
  | .ok (pda, _) => .ok pda

structure RegisterTransactionParams where
  programId : JsString
  tag : NormalizedTag
  ownerPubkey : JsString
  payerPubkey : JsString
  walletAddress : JsString
  blockhash : BlockhashLifetime

/-- The transaction beside the message it is compiled from and the tag's account. -/
structure BuiltTransaction where
  message : TransactionMessage
  transaction : CompiledTransaction
  pda : JsString
  deriving DecidableEq

def compiled (codecs : Codecs) (message : TransactionMessage) (pda : JsString) :
    Except BuildError BuiltTransaction :=
  match codecs.compileTransaction message with
  | .error e => .error (.compile e)
  | .ok transaction => .ok { message, transaction, pda }

def buildRegisterTagTransaction (sol : Program.Solana) (kit : Kit) (codecs : Codecs)
    (params : RegisterTransactionParams) : Except BuildError BuiltTransaction := do
  let pda ← tagPda sol params.tag
  let ownerAddress ← address kit params.ownerPubkey
  let payerAddress ← address kit params.payerPubkey
  let programAddress ← address kit params.programId
  let registerInstruction : Instruction := {
    programAddress
    accounts := [
      ⟨pda, .writable⟩,
      ⟨ownerAddress, .readonlySigner⟩,
      ⟨payerAddress, .writableSigner⟩,
      ⟨systemProgramAddress, .readonly⟩]
    data := encodeRegisterTagInstructionData codecs params.tag }
  let message (instructions : List Instruction) : TransactionMessage :=
    { feePayer := payerAddress, lifetime := params.blockhash, instructions }
  if params.walletAddress ≠ params.ownerPubkey then
    let walletAddress ← address kit params.walletAddress
    let data ← encodeUpdateWalletInstructionData kit walletAddress
    compiled codecs (message [registerInstruction, {
      programAddress
      accounts := [⟨pda, .writable⟩, ⟨ownerAddress, .readonlySigner⟩]
      data }]) pda
  else compiled codecs (message [registerInstruction]) pda

structure UpdateWalletTransactionParams where
  programId : JsString
  tag : NormalizedTag
  ownerPubkey : JsString
  newWallet : JsString
  blockhash : BlockhashLifetime

def buildUpdateWalletTransaction (sol : Program.Solana) (kit : Kit) (codecs : Codecs)
    (params : UpdateWalletTransactionParams) : Except BuildError BuiltTransaction := do
  let pda ← tagPda sol params.tag
  let ownerAddress ← address kit params.ownerPubkey
  let newWalletAddress ← address kit params.newWallet
  let programAddress ← address kit params.programId
  let data ← encodeUpdateWalletInstructionData kit newWalletAddress
  let instruction : Instruction := {
    programAddress
    accounts := [⟨pda, .writable⟩, ⟨ownerAddress, .readonlySigner⟩]
    data }
  compiled codecs {
    feePayer := ownerAddress
    lifetime := params.blockhash
    instructions := [instruction] } pda

def keyOf (kit : Kit) (text : JsString) : Option Program.Pubkey :=
  match kit.addressEncoder text with
  | none => none
  | some bytes => if h : bytes.length = 32 then some ⟨bytes, h⟩ else none

def Instruction.compile (kit : Kit) (instruction : Instruction) :
    Option Program.RawInstruction := do
  let programId ← keyOf kit instruction.programAddress
  let accounts ← instruction.accounts.mapM (fun account => keyOf kit account.address)
  return { programId, accounts, data := instruction.data }

def TransactionMessage.accounts (message : TransactionMessage) : List AccountMeta :=
  ⟨message.feePayer, .writableSigner⟩ :: message.instructions.flatMap Instruction.accounts

/-- One set of keys: a key that some account list wants to sign, or to write, does so
in every list, and the fee payer does both. -/
def TransactionMessage.compile (kit : Kit) (message : TransactionMessage) :
    Option Program.Transaction := do
  let keys (wanted : AccountRole → Bool) :=
    (message.accounts.filter (fun account => wanted account.role)).mapM
      (fun account => keyOf kit account.address)
  let signers ← keys AccountRole.isSigner
  let writable ← keys AccountRole.isWritable
  let instructions ← message.instructions.mapM (Instruction.compile kit)
  return { signers, writable, instructions }

/-- What the kit compiles: the programs called neither pay nor are written to, and the counts
of keys and of bytes fit their encodings. -/
structure TransactionMessage.Compilable (kit : Kit) (message : TransactionMessage) : Prop where
  accounts : ∀ account ∈ message.accounts, kit.isAddress account.address = true
  blockhash : kit.isAddress message.lifetime.blockhash = true
  programs : ∀ instruction ∈ message.instructions,
    kit.isAddress instruction.programAddress = true ∧
      ∀ account ∈ message.accounts, account.role.isWritable = true →
        account.address ≠ instruction.programAddress
  keys : message.accounts.length + message.instructions.length < 256
  data : ∀ instruction ∈ message.instructions, instruction.data.length < 2 ^ 16

/-- What the kit's compilation is documented to do. -/
structure Codecs.Compiles (kit : Kit) (codecs : Codecs) : Prop where
  ok : ∀ message : TransactionMessage, message.Compilable kit →
    ∃ transaction, codecs.compileTransaction message = .ok transaction
  /-- An invoked program cannot pay fees. -/
  refuses : ∀ message : TransactionMessage,
    (∃ instruction ∈ message.instructions, instruction.programAddress = message.feePayer) →
      ∃ error, codecs.compileTransaction message = .error error

end Tagwise.Api
