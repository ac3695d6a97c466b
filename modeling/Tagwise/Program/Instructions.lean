import Tagwise.Lib.Prog
import Tagwise.Program.Validation

namespace Tagwise.Program
open Lib

structure RegisterTag where
  tagAccount : Pubkey
  owner : Pubkey
  payer : Pubkey
  systemProgram : Pubkey
  deriving DecidableEq

structure UpdateWallet where
  tagAccount : Pubkey
  owner : Pubkey
  deriving DecidableEq

structure TransferOwnership where
  tagAccount : Pubkey
  owner : Pubkey
  deriving DecidableEq

inductive Instruction
  | registerTag (accounts : RegisterTag) (tag : String)
  | updateWallet (accounts : UpdateWallet) (newWallet : Pubkey)
  | transferOwnership (accounts : TransferOwnership) (newOwner : Pubkey)
  deriving DecidableEq

/-- The one account an instruction writes. -/
def Instruction.tagAccount : Instruction → Pubkey
  | .registerTag accounts _ => accounts.tagAccount
  | .updateWallet accounts _ => accounts.tagAccount
  | .transferOwnership accounts _ => accounts.tagAccount

/-- An instruction as the runtime receives it: the keys whose signatures the
transaction carries, the keys it locks for writing, and whether the payer's
lamports cover the rent. -/
structure Submission where
  instruction : Instruction
  signers : List Pubkey
  writable : List Pubkey
  payerFunded : Bool

def require (p : Prop) [Decidable p] (error : ProgramError) : Except ProgramError Unit :=
  if p then .ok () else .error error

/-- `padded[..len].copy_from_slice(bytes)` over a zeroed buffer; a longer slice panics. -/
def padTag (bytes : List UInt8) : Except ProgramError (Bytes maxTagLength) :=
  if h : bytes.length ≤ maxTagLength then
    .ok ⟨bytes ++ List.replicate (maxTagLength - bytes.length) 0, by simp; omega⟩
  else .error .panicked

/-- `tag[..tag_len as usize]`; a length past the buffer panics. -/
def sliceTag (account : TagAccount) : Except ProgramError (List UInt8) :=
  if account.tagLen.toNat ≤ maxTagLength then .ok (account.tag.data.take account.tagLen.toNat)
  else .error .panicked

/-- The constraints of `RegisterTag`: two signers, the derived address, and an
`init` that fails on an account that exists. Returns `ctx.bumps.tag_account`. -/
def RegisterTag.tryAccounts (sol : Solana) (chain : Chain) (sub : Submission)
    (accounts : RegisterTag) (tag : String) : Except ProgramError UInt8 := do
  require (accounts.owner ∈ sub.signers) .accountNotSigner
  require (accounts.payer ∈ sub.signers) .accountNotSigner
  require (accounts.systemProgram = sol.systemProgram) .invalidProgramId
  match sol.findProgramAddress [tagSeedPrefix, asBytes tag] with
  | none => .error .panicked
  | some (address, bump) =>
    require (accounts.tagAccount = address) .constraintSeeds
    require (accounts.tagAccount ∈ sub.writable) .constraintMut
    require (chain.tagAccounts accounts.tagAccount = none) .accountAlreadyInUse
    require (sub.payerFunded = true) .insufficientFunds
    require (accounts.payer ∈ sub.writable) .constraintMut
    return bump

def registerTag (sol : Solana) (chain : Chain) (sub : Submission) (accounts : RegisterTag)
    (tag : String) : Except ProgramError Chain := do
  let bump ← accounts.tryAccounts sol chain sub tag
  validateTagAccess tag
  let tagBytes := asBytes tag
  let padded ← padTag tagBytes
  return chain.put accounts.tagAccount {
    owner := accounts.owner
    wallet := accounts.owner
    tag := padded
    tagLen := UInt8.ofNat tagBytes.length
    bump := bump }

/-- The constraints `UpdateWallet` and `TransferOwnership` share: an existing
account at the address its own bytes derive, writable, whose `owner` field is
the signing account. -/
def tryOwned (sol : Solana) (chain : Chain) (sub : Submission) (tagAccount owner : Pubkey) :
    Except ProgramError TagAccount :=
  match chain.tagAccounts tagAccount with
  | none => .error .accountNotInitialized
  | some account => do
    require (owner ∈ sub.signers) .accountNotSigner
    let slice ← sliceTag account
    require (sol.createProgramAddress [tagSeedPrefix, slice, [account.bump]] = some tagAccount)
      .constraintSeeds
    require (tagAccount ∈ sub.writable) .constraintMut
    require (account.owner = owner) (.registry .unauthorized)
    return account

def updateWallet (sol : Solana) (chain : Chain) (sub : Submission) (accounts : UpdateWallet)
    (newWallet : Pubkey) : Except ProgramError Chain := do
  let account ← tryOwned sol chain sub accounts.tagAccount accounts.owner
  return chain.put accounts.tagAccount { account with wallet := newWallet }

def transferOwnership (sol : Solana) (chain : Chain) (sub : Submission)
    (accounts : TransferOwnership) (newOwner : Pubkey) : Except ProgramError Chain := do
  let account ← tryOwned sol chain sub accounts.tagAccount accounts.owner
  return chain.put accounts.tagAccount { account with owner := newOwner }

def execute (sol : Solana) (chain : Chain) (sub : Submission) : Except ProgramError Chain :=
  match sub.instruction with
  | .registerTag accounts tag => registerTag sol chain sub accounts tag
  | .updateWallet accounts newWallet => updateWallet sol chain sub accounts newWallet
  | .transferOwnership accounts newOwner => transferOwnership sol chain sub accounts newOwner

/-- A failed instruction leaves no trace. -/
def submit (sol : Solana) (chain : Chain) (sub : Submission) : Chain :=
  match execute sol chain sub with
  | .ok chain' => chain'
  | .error _ => chain

theorem require_bind {p : Prop} [Decidable p] {e : ProgramError} {f : Unit → Except ProgramError α}
    {r : α} : (require p e >>= f) = .ok r ↔ p ∧ f () = .ok r := by
  unfold require
  by_cases h : p
  · simp [h, bind, Except.bind]
  · simp [h, bind, Except.bind]

theorem require_failed {p : Prop} [Decidable p] {e e' : ProgramError}
    {f : Unit → Except ProgramError α} :
    (require p e >>= f) = .error e' ↔ (¬ p ∧ e = e') ∨ (p ∧ f () = .error e') := by
  unfold require
  by_cases h : p
  · simp [h, bind, Except.bind]
  · simp [h, bind, Except.bind]

theorem bind_failed {x : Except ProgramError α} {f : α → Except ProgramError β} {e : ProgramError} :
    (x >>= f) = .error e ↔ x = .error e ∨ ∃ a, x = .ok a ∧ f a = .error e := by
  cases x with
  | error e' => simp [bind, Except.bind]
  | ok a => simp [bind, Except.bind]

theorem pure_ok {a r : α} : (pure a : Except ProgramError α) = .ok r ↔ a = r := by
  simp [pure, Except.pure]

/-- What a `register_tag` that goes through has checked. -/
structure Registers (sol : Solana) (chain : Chain) (sub : Submission) (accounts : RegisterTag)
    (tag : String) (account : TagAccount) : Prop where
  ownerSigned : accounts.owner ∈ sub.signers
  payerSigned : accounts.payer ∈ sub.signers
  derived : sol.findProgramAddress [tagSeedPrefix, asBytes tag] =
    some (accounts.tagAccount, account.bump)
  fresh : chain.tagAccounts accounts.tagAccount = none
  owner : account.owner = accounts.owner
  wallet : account.wallet = accounts.owner
  stored : StoresTag account (asBytes tag)

theorem padTag_ok {bytes : List UInt8} {padded : Bytes maxTagLength}
    (h : padTag bytes = .ok padded) :
    padded.data = bytes ++ List.replicate (maxTagLength - bytes.length) 0 := by
  unfold padTag at h
  split at h
  · cases h; rfl
  · cases h

theorem tryAccounts_ok {sol : Solana} {chain : Chain} {sub : Submission} {accounts : RegisterTag}
    {tag : String} {bump : UInt8} (h : accounts.tryAccounts sol chain sub tag = .ok bump) :
    accounts.owner ∈ sub.signers ∧ accounts.payer ∈ sub.signers ∧
    sol.findProgramAddress [tagSeedPrefix, asBytes tag] = some (accounts.tagAccount, bump) ∧
    chain.tagAccounts accounts.tagAccount = none := by
  simp only [RegisterTag.tryAccounts, require_bind] at h
  obtain ⟨ho,hp,_,h⟩ := h
  split at h
  · cases h
  · rename_i address found hf
    simp only [require_bind, pure_ok] at h
    obtain ⟨ha,_,hn,_,_,rfl⟩ := h
    exact ⟨ho,hp,by rw [hf, ha],hn⟩

theorem registerTag_ok {sol : Solana} {chain chain' : Chain} {sub : Submission}
    {accounts : RegisterTag} {tag : String}
    (h : registerTag sol chain sub accounts tag = .ok chain') :
    ∃ account, Registers sol chain sub accounts tag account ∧
      chain' = chain.put accounts.tagAccount account := by
  simp only [registerTag, except_bind_ok, pure_ok] at h
  obtain ⟨bump,ht,_,hv,padded,hp,rfl⟩ := h
  obtain ⟨ho,hpay,hd,hn⟩ := tryAccounts_ok ht
  have hs := (validateTagAccess_ok tag).mp hv
  exact ⟨_,⟨ho,hpay,hd,hn,rfl,rfl,hs,padTag_ok hp,rfl⟩,rfl⟩

/-- What an owner's instruction that goes through has checked. -/
structure Owns (sol : Solana) (chain : Chain) (sub : Submission) (tagAccount owner : Pubkey)
    (account : TagAccount) : Prop where
  found : chain.tagAccounts tagAccount = some account
  signed : owner ∈ sub.signers
  owner : account.owner = owner

theorem tryOwned_ok {sol : Solana} {chain : Chain} {sub : Submission} {tagAccount owner : Pubkey}
    {account : TagAccount} (h : tryOwned sol chain sub tagAccount owner = .ok account) :
    Owns sol chain sub tagAccount owner account := by
  unfold tryOwned at h
  split at h
  · cases h
  · rename_i found hf
    obtain ⟨hs,h⟩ := require_bind.mp h
    obtain ⟨slice,_,h⟩ := except_bind_ok.mp h
    simp only [require_bind, pure_ok] at h
    obtain ⟨_,_,ho,rfl⟩ := h
    exact ⟨hf,hs,ho⟩

theorem updateWallet_ok {sol : Solana} {chain chain' : Chain} {sub : Submission}
    {accounts : UpdateWallet} {newWallet : Pubkey}
    (h : updateWallet sol chain sub accounts newWallet = .ok chain') :
    ∃ account, Owns sol chain sub accounts.tagAccount accounts.owner account ∧
      chain' = chain.put accounts.tagAccount { account with wallet := newWallet } := by
  simp only [updateWallet, except_bind_ok, pure_ok] at h
  obtain ⟨account,ht,rfl⟩ := h
  exact ⟨account,tryOwned_ok ht,rfl⟩

theorem transferOwnership_ok {sol : Solana} {chain chain' : Chain} {sub : Submission}
    {accounts : TransferOwnership} {newOwner : Pubkey}
    (h : transferOwnership sol chain sub accounts newOwner = .ok chain') :
    ∃ account, Owns sol chain sub accounts.tagAccount accounts.owner account ∧
      chain' = chain.put accounts.tagAccount { account with owner := newOwner } := by
  simp only [transferOwnership, except_bind_ok, pure_ok] at h
  obtain ⟨account,ht,rfl⟩ := h
  exact ⟨account,tryOwned_ok ht,rfl⟩

/-- Nothing else stands in the way of a registration. -/
theorem registerTag_runs {sol : Solana} {chain : Chain} {sub : Submission} {accounts : RegisterTag}
    {tag : String} {bump : UInt8} (ho : accounts.owner ∈ sub.signers)
    (hp : accounts.payer ∈ sub.signers) (hs : accounts.systemProgram = sol.systemProgram)
    (hd : sol.findProgramAddress [tagSeedPrefix, asBytes tag] = some (accounts.tagAccount, bump))
    (hw : accounts.tagAccount ∈ sub.writable) (hn : chain.tagAccounts accounts.tagAccount = none)
    (hf : sub.payerFunded = true) (hpw : accounts.payer ∈ sub.writable)
    (hc : CanonicalBytes (asBytes tag)) :
    ∃ chain', registerTag sol chain sub accounts tag = .ok chain' := by
  have ht : accounts.tryAccounts sol chain sub tag = .ok bump := by
    simp only [RegisterTag.tryAccounts, require_bind, hd, pure_ok, true_and, and_true]
    exact ⟨ho,hp,hs,hw,hn,hf,hpw⟩
  have hpad : ∃ padded, padTag (asBytes tag) = .ok padded := by
    rw [padTag, dif_pos hc.short]
    exact ⟨_,rfl⟩
  obtain ⟨padded,hpad⟩ := hpad
  have hv : validateTagAccess tag = .ok () := (validateTagAccess_ok tag).mpr hc
  simp only [registerTag, except_bind_ok, pure_ok]
  exact ⟨_,bump,ht,(),hv,padded,hpad,rfl⟩

theorem updateWallet_runs {sol : Solana} {chain : Chain} {sub : Submission}
    {accounts : UpdateWallet} {account : TagAccount} {slice : List UInt8} (newWallet : Pubkey)
    (hf : chain.tagAccounts accounts.tagAccount = some account)
    (ho : accounts.owner ∈ sub.signers) (hs : sliceTag account = .ok slice)
    (hc : sol.createProgramAddress [tagSeedPrefix, slice, [account.bump]] =
      some accounts.tagAccount)
    (hw : accounts.tagAccount ∈ sub.writable) (howner : account.owner = accounts.owner) :
    updateWallet sol chain sub accounts newWallet =
      .ok (chain.put accounts.tagAccount { account with wallet := newWallet }) := by
  have ht : tryOwned sol chain sub accounts.tagAccount accounts.owner = .ok account := by
    rw [tryOwned, hf]
    apply require_bind.mpr ⟨ho,?_⟩
    apply except_bind_ok.mpr ⟨slice,hs,?_⟩
    simp only [require_bind, pure_ok, and_true]
    exact ⟨hc,hw,howner⟩
  simp only [updateWallet, except_bind_ok, pure_ok]
  exact ⟨account,ht,rfl⟩

theorem StoresTag.sliceTag {account : TagAccount} {bytes : List UInt8}
    (h : StoresTag account bytes) : sliceTag account = .ok bytes := by
  rw [Program.sliceTag, if_pos (h.length ▸ h.canonical.short), h.slice]

/-- Everything one submission can do to the chain. -/
inductive Effect (sol : Solana) (chain : Chain) (sub : Submission) : Chain → Prop
  | failed : Effect sol chain sub chain
  | registered (accounts : RegisterTag) (tag : String) (account : TagAccount)
      (is : sub.instruction = .registerTag accounts tag)
      (checked : Registers sol chain sub accounts tag account) :
      Effect sol chain sub (chain.put accounts.tagAccount account)
  | rewalleted (accounts : UpdateWallet) (newWallet : Pubkey) (account : TagAccount)
      (is : sub.instruction = .updateWallet accounts newWallet)
      (checked : Owns sol chain sub accounts.tagAccount accounts.owner account) :
      Effect sol chain sub (chain.put accounts.tagAccount { account with wallet := newWallet })
  | transferred (accounts : TransferOwnership) (newOwner : Pubkey) (account : TagAccount)
      (is : sub.instruction = .transferOwnership accounts newOwner)
      (checked : Owns sol chain sub accounts.tagAccount accounts.owner account) :
      Effect sol chain sub (chain.put accounts.tagAccount { account with owner := newOwner })

theorem execute_effect {sol : Solana} {chain chain' : Chain} {sub : Submission}
    (h : execute sol chain sub = .ok chain') : Effect sol chain sub chain' := by
  unfold execute at h
  split at h
  · rename_i accounts tag hi
    obtain ⟨account,hr,rfl⟩ := registerTag_ok h
    exact .registered accounts tag account hi hr
  · rename_i accounts newWallet hi
    obtain ⟨account,ho,rfl⟩ := updateWallet_ok h
    exact .rewalleted accounts newWallet account hi ho
  · rename_i accounts newOwner hi
    obtain ⟨account,ho,rfl⟩ := transferOwnership_ok h
    exact .transferred accounts newOwner account hi ho

/-- A submission that goes through writes its one account, and no tag changes. -/
theorem execute_put {sol : Solana} {chain chain' : Chain} {sub : Submission}
    (h : execute sol chain sub = .ok chain') :
    ∃ account, chain' = chain.put sub.instruction.tagAccount account ∧
      ∀ old, chain.tagAccounts sub.instruction.tagAccount = some old →
        account.tag = old.tag ∧ account.tagLen = old.tagLen := by
  unfold execute at h
  split at h
  · rename_i accounts tag hi
    obtain ⟨account,hr,rfl⟩ := registerTag_ok h
    rw [hi]
    refine ⟨account,rfl,fun old ho => ?_⟩
    cases hr.fresh.symm.trans ho
  · rename_i accounts newWallet hi
    obtain ⟨account,ho,rfl⟩ := updateWallet_ok h
    rw [hi]
    refine ⟨_,rfl,fun old hold => ?_⟩
    cases ho.found.symm.trans hold
    exact ⟨rfl,rfl⟩
  · rename_i accounts newOwner hi
    obtain ⟨account,ho,rfl⟩ := transferOwnership_ok h
    rw [hi]
    refine ⟨_,rfl,fun old hold => ?_⟩
    cases ho.found.symm.trans hold
    exact ⟨rfl,rfl⟩

theorem submit_effect (sol : Solana) (chain : Chain) (sub : Submission) :
    Effect sol chain sub (submit sol chain sub) := by
  unfold submit
  split
  · rename_i chain' h
    exact execute_effect h
  · exact .failed

end Tagwise.Program
