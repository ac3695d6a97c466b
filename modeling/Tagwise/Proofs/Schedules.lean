import Tagwise.Lib.Schedule
import Tagwise.Program.Entry
import Tagwise.Program.Sample
import Tagwise.Proofs.Authority

/-! Transactions that write no account in common may land in either order, and so may any two
sequences of transactions that differ in such swaps only. -/

namespace Tagwise.Proofs.Schedules
open Program Lib

/-- A transaction with the signatures it carries. -/
structure Sent where
  tx : Transaction
  signed : List Pubkey
  payerFunded : Bool
  deriving DecidableEq

def land (sol : Solana) (programId : Pubkey) (chain : Chain) (sent : Sent) : Chain :=
  submitTransaction sol programId sent.tx sent.signed sent.payerFunded chain

/-- What the runtime locks for the time a transaction runs. -/
def Locks (sent : Sent) (key : Pubkey) : Prop := key ∈ sent.tx.writable

/-- No account is written by both. -/
def Apart (a b : Sent) : Prop := ∀ key, Locks a key → ¬ Locks b key

section Instructions
variable {sol : Solana} {chain chain' : Chain} {sub : Submission}

theorem execute_writable (h : execute sol chain sub = .ok chain') :
    sub.instruction.tagAccount ∈ sub.writable := by
  have howned : ∀ {key owner : Pubkey} {account : TagAccount},
      tryOwned sol chain sub key owner = .ok account → key ∈ sub.writable := by
    intro key owner account ho
    unfold tryOwned at ho
    split at ho
    · cases ho
    · obtain ⟨_,ho⟩ := require_bind.mp ho
      obtain ⟨slice,_,ho⟩ := except_bind_ok.mp ho
      simp only [require_bind] at ho
      exact ho.2.1
  unfold execute at h
  split at h
  · rename_i accounts tag hi
    simp only [registerTag, except_bind_ok] at h
    obtain ⟨bump,ht,_⟩ := h
    simp only [RegisterTag.tryAccounts, require_bind] at ht
    obtain ⟨_,_,_,ht⟩ := ht
    split at ht
    · cases ht
    · simp only [require_bind] at ht
      rw [hi]
      exact ht.2.1
  · rename_i accounts newWallet hi
    obtain ⟨account,ho,_⟩ := except_bind_ok.mp h
    rw [hi]
    exact howned ho
  · rename_i accounts newOwner hi
    obtain ⟨account,ho,_⟩ := except_bind_ok.mp h
    rw [hi]
    exact howned ho

variable (sol) in
/-- Of the chain an instruction looks at its one account only. -/
theorem execute_sees (h : chain.tagAccounts sub.instruction.tagAccount =
    chain'.tagAccounts sub.instruction.tagAccount) :
    ∃ outcome : Except ProgramError TagAccount,
      execute sol chain sub = outcome.map (chain.put sub.instruction.tagAccount) ∧
      execute sol chain' sub = outcome.map (chain'.put sub.instruction.tagAccount) := by
  have howned : ∀ {key owner : Pubkey}, chain.tagAccounts key = chain'.tagAccounts key →
      tryOwned sol chain' sub key owner = tryOwned sol chain sub key owner := by
    intro key owner hk
    rw [tryOwned, tryOwned, hk]
  unfold execute
  cases hi : sub.instruction with
  | registerTag accounts tag =>
    rw [hi] at h
    have hsame : accounts.tryAccounts sol chain' sub tag = accounts.tryAccounts sol chain sub tag := by
      rw [RegisterTag.tryAccounts, RegisterTag.tryAccounts]
      simp only [Instruction.tagAccount] at h
      rw [h]
    simp only [registerTag, hsame]
    cases accounts.tryAccounts sol chain sub tag with
    | error e => exact ⟨.error e,rfl,rfl⟩
    | ok bump =>
      cases hv : validateTagAccess tag with
      | error e => exact ⟨.error e,rfl,rfl⟩
      | ok _ =>
        cases hp : padTag (asBytes tag) with
        | error e => exact ⟨.error e,rfl,rfl⟩
        | ok padded =>
          exact ⟨.ok ⟨accounts.owner,accounts.owner,padded,UInt8.ofNat (asBytes tag).length,bump⟩,
            rfl,rfl⟩
  | updateWallet accounts newWallet =>
    rw [hi] at h
    have hsame : tryOwned sol chain' sub accounts.tagAccount accounts.owner =
        tryOwned sol chain sub accounts.tagAccount accounts.owner := howned h
    simp only [updateWallet, hsame]
    cases tryOwned sol chain sub accounts.tagAccount accounts.owner with
    | error e => exact ⟨.error e,rfl,rfl⟩
    | ok account => exact ⟨.ok { account with wallet := newWallet },rfl,rfl⟩
  | transferOwnership accounts newOwner =>
    rw [hi] at h
    have hsame : tryOwned sol chain' sub accounts.tagAccount accounts.owner =
        tryOwned sol chain sub accounts.tagAccount accounts.owner := howned h
    simp only [transferOwnership, hsame]
    cases tryOwned sol chain sub accounts.tagAccount accounts.owner with
    | error e => exact ⟨.error e,rfl,rfl⟩
    | ok account => exact ⟨.ok { account with owner := newOwner },rfl,rfl⟩

end Instructions

section Transactions
variable {sol : Solana} {programId : Pubkey} {tx : Transaction} {payerFunded : Bool}
variable {chain chain' landed : Chain}

/-- The two hold the same in the accounts that are locked. -/
def SameUnder (writable : List Pubkey) (chain chain' : Chain) : Prop :=
  ∀ key ∈ writable, chain.tagAccounts key = chain'.tagAccounts key

theorem SameUnder.symm {writable : List Pubkey} (h : SameUnder writable chain chain') :
    SameUnder writable chain' chain := fun key hk => (h key hk).symm

theorem SameUnder.put {writable : List Pubkey} (h : SameUnder writable chain chain') (key : Pubkey)
    (account : TagAccount) : SameUnder writable (chain.put key account) (chain'.put key account) := by
  intro other ho
  by_cases he : other = key
  · rw [he, Chain.put_self, Chain.put_self]
  · rw [Chain.put_other _ _ he, Chain.put_other _ _ he, h other ho]

theorem processInstruction_frame {raw : RawInstruction}
    (h : processInstruction sol programId tx payerFunded chain raw = .ok landed) {key : Pubkey}
    (hk : key ∉ tx.writable) : landed.tagAccounts key = chain.tagAccounts key := by
  unfold processInstruction at h
  split at h
  · cases h
    rfl
  · split at h
    · cases h
    · split at h
      · cases h
      · rename_i ran he
        cases h
        obtain ⟨account,hput,_⟩ := execute_put he
        rw [hput]
        exact Chain.put_other _ _ (fun heq => hk (heq ▸ execute_writable he))

theorem processInstruction_sees {raw : RawInstruction} (hs : SameUnder tx.writable chain chain')
    (h : processInstruction sol programId tx payerFunded chain raw = .ok landed) :
    ∃ landed', processInstruction sol programId tx payerFunded chain' raw = .ok landed' ∧
      SameUnder tx.writable landed landed' := by
  unfold processInstruction at h ⊢
  split at h
  · rename_i hp
    cases h
    rw [if_pos hp]
    exact ⟨chain',rfl,hs⟩
  · rename_i hp
    rw [if_neg hp]
    cases hi : readInstruction raw.accounts raw.data with
    | error e =>
      rw [hi] at h
      cases h
    | ok instruction =>
      rw [hi] at h
      dsimp only at h ⊢
      split at h
      · cases h
      · rename_i ran he
        cases h
        have htarget := execute_writable he
        obtain ⟨outcome,hleft,hright⟩ := execute_sees sol (hs _ htarget)
        rw [hleft] at he
        rw [hright]
        cases outcome with
        | error e => cases he
        | ok account =>
          cases he
          exact ⟨_,rfl,hs.put _ account⟩

theorem processInstructions_frame (raws : List RawInstruction) :
    ∀ {chain : Chain}, processInstructions sol programId tx payerFunded chain raws = .ok landed →
    ∀ {key : Pubkey}, key ∉ tx.writable → landed.tagAccounts key = chain.tagAccounts key := by
  induction raws with
  | nil =>
    intro chain h key hk
    cases h
    rfl
  | cons raw rest ih =>
    intro chain h key hk
    simp only [processInstructions] at h
    split at h
    · cases h
    · rename_i ran hran
      rw [ih h hk, processInstruction_frame hran hk]

theorem processInstructions_sees (raws : List RawInstruction) :
    ∀ {chain chain' : Chain}, SameUnder tx.writable chain chain' →
    processInstructions sol programId tx payerFunded chain raws = .ok landed →
    ∃ landed', processInstructions sol programId tx payerFunded chain' raws = .ok landed' ∧
      SameUnder tx.writable landed landed' := by
  induction raws with
  | nil =>
    intro chain chain' hs h
    cases h
    exact ⟨chain',rfl,hs⟩
  | cons raw rest ih =>
    intro chain chain' hs h
    simp only [processInstructions] at h ⊢
    split at h
    · cases h
    · rename_i ran hran
      obtain ⟨ran',hran',hsame⟩ := processInstruction_sees hs hran
      rw [hran']
      exact ih hsame h

end Transactions

/-- A transaction keeps to the accounts it has locked: it writes no other, and whether it lands
and what it writes depends on no other. -/
theorem land_confined (sol : Solana) (programId : Pubkey) :
    Confined (land sol programId) Chain.tagAccounts Locks := by
  constructor
  case frame =>
    intro chain sent key hk
    unfold land submitTransaction
    split
    · rename_i landed h
      unfold processTransaction at h
      split at h
      · exact processInstructions_frame _ h hk
      · cases h
    · rfl
  case sees =>
    intro chain chain' sent hs key hk
    unfold land submitTransaction processTransaction
    split
    · rename_i landed h
      split at h
      · rename_i hsigned
        obtain ⟨landed',h',hsame⟩ := processInstructions_sees _ hs h
        rw [if_pos hsigned, h']
        exact hsame key hk
      · cases h
    · rename_i e h
      split
      · rename_i landed' h'
        split at h'
        · rename_i hsigned
          obtain ⟨landed,h'',_⟩ := processInstructions_sees _ (SameUnder.symm hs) h'
          rw [if_pos hsigned, h''] at h
          cases h
        · cases h'
      · exact hs key hk

/-- Two orders of the same transactions that keep those with an account in common in theirs
leave the same accounts behind. -/
theorem schedules_agree (sol : Solana) (programId : Pubkey) {sents sents' : List Sent}
    (h : Reordered Apart sents sents') (chain : Chain) :
    run (land sol programId) chain sents = run (land sol programId) chain sents' := by
  refine (land_confined sol programId).reordered (fun s t hst => ?_) h chain
  cases s
  cases t
  congr 1
  exact funext hst

/-- A registration paid by its owner. -/
def registers (programId tagAccount owner : Pubkey) (tag : String) : Sent where
  tx := {
    signers := [owner]
    writable := [tagAccount, owner]
    instructions := [⟨programId,[tagAccount, owner, owner, sampleSolana.systemProgram],
      registerTagDiscriminator ++ Borsh.string tag⟩] }
  signed := [owner]
  payerFunded := true

def otherOwner : Pubkey := ⟨List.replicate 32 9, rfl⟩

def abcFirst : List Sent :=
  [registers sampleOwner abcAddress sampleOwner "abc",
    registers sampleOwner danielAddress otherOwner "daniel"]

theorem two_registrations :
    run (land sampleSolana sampleOwner) .genesis abcFirst =
      run (land sampleSolana sampleOwner) .genesis abcFirst.reverse ∧
    (run (land sampleSolana sampleOwner) .genesis abcFirst.reverse).tagAccounts abcAddress =
      some abcAccount := by
  refine ⟨schedules_agree _ _ (.swap [] _ _ [] ?_) _,by decide +kernel⟩
  intro key hk hk'
  have hk : key ∈ [abcAddress, sampleOwner] := hk
  have hnone : ∀ key ∈ [abcAddress, sampleOwner], key ∉ [danielAddress, otherOwner] := by decide
  exact hnone key hk hk'

end Tagwise.Proofs.Schedules
