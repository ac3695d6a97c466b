import Tagwise.Lib.Cells
import Tagwise.Lib.Machine
import Tagwise.Program.Instructions

namespace Tagwise.Proofs.Authority
open Program

/-- The chain after a sequence of submissions, the program starting with no account. -/
def after (sol : Solana) (subs : List Submission) : Chain :=
  Lib.run (submit sol) Chain.genesis subs

def Succeeds (sol : Solana) (chain : Chain) (sub : Submission) : Prop :=
  ∃ chain', execute sol chain sub = .ok chain'

theorem after_snoc (sol : Solana) (subs : List Submission) (sub : Submission) :
    after sol (subs ++ [sub]) = submit sol (after sol subs) sub :=
  Lib.run_snoc (submit sol) _ subs sub

theorem submit_ok {sol : Solana} {chain chain' : Chain} {sub : Submission}
    (h : execute sol chain sub = .ok chain') : submit sol chain sub = chain' := by
  simp [submit, h]

theorem submit_failed {sol : Solana} {chain : Chain} {sub : Submission}
    (h : ¬ Succeeds sol chain sub) : submit sol chain sub = chain := by
  cases he : execute sol chain sub with
  | ok chain' => exact absurd ⟨chain',he⟩ h
  | error e => simp [submit, he]

/-- The program's accounts are cells controlled by their owners, and the keys
present are those that signed. -/
theorem effect_act {sol : Solana} {chain chain' : Chain} {sub : Submission}
    (h : Effect sol chain sub chain') :
    Lib.Act TagAccount.owner (· ∈ sub.signers) chain.tagAccounts chain'.tagAccounts := by
  cases h with
  | failed => exact .idle
  | registered accounts tag account is checked =>
    exact .create accounts.tagAccount account checked.fresh
  | rewalleted accounts newWallet account is checked =>
    exact .change accounts.tagAccount account _ checked.found (checked.owner ▸ checked.signed)
  | transferred accounts newOwner account is checked =>
    exact .change accounts.tagAccount account _ checked.found (checked.owner ▸ checked.signed)

theorem submit_act (sol : Solana) (chain : Chain) (sub : Submission) :
    Lib.Act TagAccount.owner (· ∈ sub.signers) chain.tagAccounts
      (submit sol chain sub).tagAccounts :=
  effect_act (submit_effect sol chain sub)

theorem run_kept (sol : Solana) {chain : Chain} {key : Pubkey}
    (h : chain.tagAccounts key ≠ none) (subs : List Submission) :
    (Lib.run (submit sol) chain subs).tagAccounts key ≠ none :=
  Lib.run_invariant (I := fun c : Chain => c.tagAccounts key ≠ none) h
    (fun c sub hc => (submit_act sol c sub).kept hc) subs

/-- Each field has one instruction that changes it, signed by the stored owner. -/
theorem effect_change {sol : Solana} {chain chain' : Chain} {sub : Submission}
    (h : Effect sol chain sub chain') {key : Pubkey} {account account' : TagAccount}
    (ha : chain.tagAccounts key = some account) (hb : chain'.tagAccounts key = some account') :
    account' = account ∨
    (∃ accounts newWallet, sub.instruction = .updateWallet accounts newWallet ∧
      accounts.tagAccount = key ∧ account.owner ∈ sub.signers ∧
      account' = { account with wallet := newWallet }) ∨
    (∃ accounts newOwner, sub.instruction = .transferOwnership accounts newOwner ∧
      accounts.tagAccount = key ∧ account.owner ∈ sub.signers ∧
      account' = { account with owner := newOwner }) := by
  cases h with
  | failed => exact .inl (Option.some.inj (hb.symm.trans ha))
  | registered accounts tag new is checked =>
    have hne : key ≠ accounts.tagAccount := by
      rintro rfl
      rw [checked.fresh] at ha
      cases ha
    rw [chain.put_other new hne, ha] at hb
    exact .inl (Option.some.inj hb).symm
  | rewalleted accounts newWallet old is checked =>
    by_cases he : key = accounts.tagAccount
    · subst he
      have ho : old = account := Option.some.inj (checked.found.symm.trans ha)
      subst ho
      rw [chain.put_self] at hb
      exact .inr (.inl ⟨accounts,newWallet,is,rfl,checked.owner ▸ checked.signed,
        (Option.some.inj hb).symm⟩)
    · rw [chain.put_other _ he, ha] at hb
      exact .inl (Option.some.inj hb).symm
  | transferred accounts newOwner old is checked =>
    by_cases he : key = accounts.tagAccount
    · subst he
      have ho : old = account := Option.some.inj (checked.found.symm.trans ha)
      subst ho
      rw [chain.put_self] at hb
      exact .inr (.inr ⟨accounts,newOwner,is,rfl,checked.owner ▸ checked.signed,
        (Option.some.inj hb).symm⟩)
    · rw [chain.put_other _ he, ha] at hb
      exact .inl (Option.some.inj hb).symm

theorem register_effect {sol : Solana} {chain : Chain} {sub : Submission} {accounts : RegisterTag}
    {tag : String} (hi : sub.instruction = .registerTag accounts tag)
    (hs : Succeeds sol chain sub) :
    ∃ account, Registers sol chain sub accounts tag account ∧
      submit sol chain sub = chain.put accounts.tagAccount account := by
  obtain ⟨chain',he⟩ := hs
  rw [submit_ok he]
  simp only [execute, hi] at he
  exact registerTag_ok he

/-- Once its address is taken, a tag can be registered by nobody. -/
theorem register_taken {sol : Solana} {chain : Chain} {sub : Submission} {accounts : RegisterTag}
    {tag : String} {address : Pubkey} {bump : UInt8}
    (hd : sol.findProgramAddress [tagSeedPrefix, asBytes tag] = some (address, bump))
    (ht : chain.tagAccounts address ≠ none)
    (hi : sub.instruction = .registerTag accounts tag) : ¬ Succeeds sol chain sub := by
  intro hs
  obtain ⟨account,hr,_⟩ := register_effect hi hs
  have he := hr.derived
  rw [hd] at he
  simp only [Option.some.injEq, Prod.mk.injEq] at he
  exact ht (he.1 ▸ hr.fresh)

/-- What one submission may do to a chain some run has reached. -/
structure Authorised (sol : Solana) (chain : Chain) (sub : Submission) (chain' : Chain) : Prop where
  /-- A registration that goes through was of a free address and records the signing owner. -/
  registers : ∀ accounts tag, sub.instruction = .registerTag accounts tag → Succeeds sol chain sub →
    chain.tagAccounts accounts.tagAccount = none ∧ accounts.owner ∈ sub.signers ∧
    ∃ account, chain' = chain.put accounts.tagAccount account ∧
      sol.findProgramAddress [tagSeedPrefix, asBytes tag] =
        some (accounts.tagAccount, account.bump) ∧
      account.owner = accounts.owner ∧ account.wallet = accounts.owner
  walletByOwner : ∀ key account account', chain.tagAccounts key = some account →
    chain'.tagAccounts key = some account' → account'.wallet ≠ account.wallet →
    account.owner ∈ sub.signers ∧ ∃ accounts newWallet,
      sub.instruction = .updateWallet accounts newWallet ∧ accounts.tagAccount = key
  ownerByOwner : ∀ key account account', chain.tagAccounts key = some account →
    chain'.tagAccounts key = some account' → account'.owner ≠ account.owner →
    account.owner ∈ sub.signers ∧ ∃ accounts newOwner,
      sub.instruction = .transferOwnership accounts newOwner ∧ accounts.tagAccount = key
  /-- The two owner's instructions write their one field of their one account. -/
  updates : ∀ accounts newWallet, sub.instruction = .updateWallet accounts newWallet →
    Succeeds sol chain sub → ∃ account, chain.tagAccounts accounts.tagAccount = some account ∧
      account.owner = accounts.owner ∧ account.owner ∈ sub.signers ∧
      chain' = chain.put accounts.tagAccount { account with wallet := newWallet }
  transfers : ∀ accounts newOwner, sub.instruction = .transferOwnership accounts newOwner →
    Succeeds sol chain sub → ∃ account, chain.tagAccounts accounts.tagAccount = some account ∧
      account.owner = accounts.owner ∧ account.owner ∈ sub.signers ∧
      chain' = chain.put accounts.tagAccount { account with owner := newOwner }
  failure : ¬ Succeeds sol chain sub → chain' = chain
  kept : ∀ key, chain.tagAccounts key ≠ none → chain'.tagAccounts key ≠ none
  /-- Whoever signs, without the current owner's key the account stays as it is. -/
  guarded : ∀ key account, chain.tagAccounts key = some account → account.owner ∉ sub.signers →
    chain'.tagAccounts key = some account

theorem submit_authorised (sol : Solana) (chain : Chain) (sub : Submission) :
    Authorised sol chain sub (submit sol chain sub) := by
  have hact := submit_act sol chain sub
  refine ⟨?_, ?_, ?_, ?_, ?_, submit_failed, fun _ hk => hact.kept hk,
    fun _ _ hk ha => hact.guarded hk ha⟩
  · intro accounts tag hi hs
    obtain ⟨account,hr,he⟩ := register_effect hi hs
    exact ⟨hr.fresh,hr.ownerSigned,account,he,hr.derived,hr.owner,hr.wallet⟩
  · intro key account account' ha hb hne
    rcases effect_change (submit_effect sol chain sub) ha hb with he |
      ⟨accounts,w,hi,hk,hs,_⟩ | ⟨_,_,_,_,_,he⟩
    · exact absurd (by rw [he]) hne
    · exact ⟨hs,accounts,w,hi,hk⟩
    · exact absurd (by rw [he]) hne
  · intro key account account' ha hb hne
    rcases effect_change (submit_effect sol chain sub) ha hb with he |
      ⟨_,_,_,_,_,he⟩ | ⟨accounts,w,hi,hk,hs,_⟩
    · exact absurd (by rw [he]) hne
    · exact absurd (by rw [he]) hne
    · exact ⟨hs,accounts,w,hi,hk⟩
  · rintro accounts newWallet hi ⟨chain',he⟩
    rw [submit_ok he]
    simp only [execute, hi] at he
    obtain ⟨account,ho,rfl⟩ := updateWallet_ok he
    exact ⟨account,ho.found,ho.owner,ho.owner ▸ ho.signed,rfl⟩
  · rintro accounts newOwner hi ⟨chain',he⟩
    rw [submit_ok he]
    simp only [execute, hi] at he
    obtain ⟨account,ho,rfl⟩ := transferOwnership_ok he
    exact ⟨account,ho.found,ho.owner,ho.owner ▸ ho.signed,rfl⟩

/-- Over every run: each submission does only what `Authorised` allows, and after
the first successful `register_tag` of a tag every later one fails without effect. -/
theorem onchain_authority (sol : Solana) (subs : List Submission) (sub : Submission) :
    Authorised sol (after sol subs) sub (after sol (subs ++ [sub])) ∧
    ∀ accounts tag, sub.instruction = .registerTag accounts tag →
      Succeeds sol (after sol subs) sub →
      ∀ later again accounts', again.instruction = .registerTag accounts' tag →
        ¬ Succeeds sol (after sol (subs ++ [sub] ++ later)) again ∧
        after sol (subs ++ [sub] ++ later ++ [again]) = after sol (subs ++ [sub] ++ later) := by
  constructor
  · rw [after_snoc]
    exact submit_authorised sol _ sub
  · intro accounts tag hi hs later again accounts' hi'
    obtain ⟨account,hr,he⟩ := register_effect hi hs
    have htaken : (after sol (subs ++ [sub])).tagAccounts accounts.tagAccount ≠ none := by
      rw [after_snoc, he, Chain.put_self]
      simp
    have hlater : (after sol (subs ++ [sub] ++ later)).tagAccounts accounts.tagAccount ≠ none := by
      rw [after, Lib.run_append]
      exact run_kept sol htaken later
    have hfail := register_taken hr.derived hlater hi'
    exact ⟨hfail, by rw [after_snoc]; exact submit_failed hfail⟩

end Tagwise.Proofs.Authority
