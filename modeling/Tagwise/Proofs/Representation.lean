import Tagwise.Core.Seeds
import Tagwise.Program.Sample
import Tagwise.Proofs.Authority
import Tagwise.Proofs.Parity

namespace Tagwise.Proofs.Representation
open Js Program Authority
open Tagwise.Core (buildTagSeeds buildTagSeeds_normalized asciiBytes_fromCharCodes)

/-- What every account the program owns looks like at its address. -/
structure WellFormed (sol : Solana) (address : Pubkey) (account : TagAccount) : Prop where
  long : Program.minTagLength ≤ account.tagLen.toNat
  short : account.tagLen.toNat ≤ Program.maxTagLength
  allowed : ∀ b ∈ account.tag.data.take account.tagLen.toNat, isCanonicalByte b = true
  padding : ∀ b ∈ account.tag.data.drop account.tagLen.toNat, b = 0
  derived : sol.findProgramAddress
    [Program.tagSeedPrefix, account.tag.data.take account.tagLen.toNat] =
    some (address, account.bump)

def AllWellFormed (sol : Solana) (chain : Chain) : Prop :=
  ∀ address account, chain.tagAccounts address = some account → WellFormed sol address account

theorem registered_wellFormed {sol : Solana} {chain : Chain} {sub : Submission}
    {accounts : RegisterTag} {tag : String} {account : TagAccount}
    (h : Registers sol chain sub accounts tag account) :
    WellFormed sol accounts.tagAccount account := by
  have hs := h.stored
  refine ⟨?_, ?_, ?_, hs.padding, ?_⟩
  · rw [hs.length]; exact hs.canonical.long
  · rw [hs.length]; exact hs.canonical.short
  · rw [hs.slice]; exact hs.canonical.allowed
  · rw [hs.slice]; exact h.derived

theorem put_wellFormed {sol : Solana} {chain : Chain} (hc : AllWellFormed sol chain)
    {address : Pubkey} {account : TagAccount} (ha : WellFormed sol address account) :
    AllWellFormed sol (chain.put address account) := by
  intro key found hk
  by_cases he : key = address
  · subst he
    rw [Chain.put_self] at hk
    cases hk
    exact ha
  · rw [chain.put_other account he] at hk
    exact hc key found hk

theorem submit_wellFormed {sol : Solana} {chain : Chain} (hc : AllWellFormed sol chain)
    (sub : Submission) : AllWellFormed sol (submit sol chain sub) := by
  have he := submit_effect sol chain sub
  generalize submit sol chain sub = chain' at he
  cases he with
  | failed => exact hc
  | registered accounts tag account is checked =>
    exact put_wellFormed hc (registered_wellFormed checked)
  | rewalleted accounts newWallet account is checked =>
    obtain ⟨hl,hs,ha,hp,hd⟩ := hc _ _ checked.found
    exact put_wellFormed hc ⟨hl,hs,ha,hp,hd⟩
  | transferred accounts newOwner account is checked =>
    obtain ⟨hl,hs,ha,hp,hd⟩ := hc _ _ checked.found
    exact put_wellFormed hc ⟨hl,hs,ha,hp,hd⟩

theorem run_wellFormed {sol : Solana} {chain : Chain} (hc : AllWellFormed sol chain)
    (subs : List Submission) : AllWellFormed sol (Lib.run (submit sol) chain subs) :=
  Lib.run_invariant hc (fun _ sub h => submit_wellFormed h sub) subs

theorem after_wellFormed (sol : Solana) (subs : List Submission) :
    AllWellFormed sol (after sol subs) :=
  run_wellFormed (fun _ _ h => by cases h) subs

theorem WellFormed.stores {sol : Solana} {address : Pubkey} {account : TagAccount}
    (h : WellFormed sol address account) :
    StoresTag account (account.tag.data.take account.tagLen.toNat) := by
  have hlen := slice_length h.short
  exact storesTag_slice h.short ⟨hlen.symm ▸ h.long,hlen.symm ▸ h.short,h.allowed⟩ h.padding

/-- The stored slice never panics, and the address check on it passes. -/
theorem WellFormed.checked {sol : Solana} {address : Pubkey} {account : TagAccount}
    (h : WellFormed sol address account) :
    sliceTag account = .ok (account.tag.data.take account.tagLen.toNat) ∧
    sol.createProgramAddress
      [Program.tagSeedPrefix, account.tag.data.take account.tagLen.toNat, [account.bump]] =
      some address :=
  ⟨if_pos h.short,sol.findProgramAddress_create h.derived⟩

/-- An owner's instruction fails only for a reason of the sender's making. -/
theorem tryOwned_failure {sol : Solana} {chain : Chain} (hc : AllWellFormed sol chain)
    {sub : Submission} {tagAccount owner : Pubkey} {e : ProgramError}
    (h : tryOwned sol chain sub tagAccount owner = .error e) :
    e = .accountNotInitialized ∨ e = .accountNotSigner ∨ e = .constraintMut ∨
      e = .registry .unauthorized := by
  unfold tryOwned at h
  split at h
  · cases h; simp
  · rename_i account hf
    obtain ⟨hslice,hcreate⟩ := (hc _ _ hf).checked
    rcases require_failed.mp h with ⟨_,rfl⟩ | ⟨_,h⟩
    · exact .inr (.inl rfl)
    rcases bind_failed.mp h with h | ⟨slice,hs,h⟩
    · rw [hslice] at h
      cases h
    rw [hslice] at hs
    cases hs
    rcases require_failed.mp h with ⟨hn,_⟩ | ⟨_,h⟩
    · exact absurd hcreate hn
    rcases require_failed.mp h with ⟨_,rfl⟩ | ⟨_,h⟩
    · exact .inr (.inr (.inl rfl))
    rcases require_failed.mp h with ⟨_,rfl⟩ | ⟨_,h⟩
    · exact .inr (.inr (.inr rfl))
    · cases h

/-- The checks an owner's instruction makes on stored bytes never stop it. -/
def ChecksPass (sol : Solana) (chain : Chain) : Prop :=
  ∀ sub : Submission, (∀ accounts tag, sub.instruction ≠ .registerTag accounts tag) →
    execute sol chain sub ≠ .error .panicked ∧ execute sol chain sub ≠ .error .constraintSeeds

theorem checksPass {sol : Solana} {chain : Chain} (hc : AllWellFormed sol chain) :
    ChecksPass sol chain := by
  have owned : ∀ {sub : Submission} {key owner : Pubkey} {e : ProgramError}
      {f : TagAccount → Chain}, (do return f (← tryOwned sol chain sub key owner)) = .error e →
      e ≠ .panicked ∧ e ≠ .constraintSeeds := by
    intro sub key owner e f he
    have hf : tryOwned sol chain sub key owner = .error e := by
      simpa [bind_failed, pure, Except.pure] using he
    rcases tryOwned_failure hc hf with rfl | rfl | rfl | rfl <;> simp
  intro sub hi
  cases hins : sub.instruction with
  | registerTag accounts tag => exact absurd hins (hi accounts tag)
  | updateWallet accounts newWallet =>
    simp only [execute, hins, updateWallet]
    exact ⟨fun h => (owned h).1 rfl,fun h => (owned h).2 rfl⟩
  | transferOwnership accounts newOwner =>
    simp only [execute, hins, transferOwnership]
    exact ⟨fun h => (owned h).1 rfl,fun h => (owned h).2 rfl⟩

/-- The fields no instruction writes after registration. -/
def SameTag (account account' : TagAccount) : Prop :=
  account'.tag = account.tag ∧ account'.tagLen = account.tagLen ∧ account'.bump = account.bump

theorem submit_sameTag (sol : Solana) (chain : Chain) (sub : Submission) {address : Pubkey}
    {account : TagAccount} (h : chain.tagAccounts address = some account) :
    ∃ account', (submit sol chain sub).tagAccounts address = some account' ∧
      SameTag account account' := by
  cases hs : (submit sol chain sub).tagAccounts address with
  | none => exact absurd hs ((submit_act sol chain sub).kept (by rw [h]; simp))
  | some account' =>
    refine ⟨account',rfl,?_⟩
    rcases effect_change (submit_effect sol chain sub) h hs with rfl |
      ⟨_,_,_,_,_,rfl⟩ | ⟨_,_,_,_,_,rfl⟩
    all_goals exact ⟨rfl,rfl,rfl⟩

theorem run_sameTag (sol : Solana) {chain : Chain} {address : Pubkey} {account : TagAccount}
    (h : chain.tagAccounts address = some account) (subs : List Submission) :
    ∃ account', (Lib.run (submit sol) chain subs).tagAccounts address = some account' ∧
      SameTag account account' := by
  apply Lib.run_invariant (I := fun c : Chain =>
    ∃ account', c.tagAccounts address = some account' ∧ SameTag account account')
  · exact ⟨account,h,rfl,rfl,rfl⟩
  · rintro c sub ⟨mid,hm,ht,hl,hb⟩
    obtain ⟨account',ha,ht',hl',hb'⟩ := submit_sameTag sol c sub hm
    exact ⟨account',ha,ht'.trans ht,hl'.trans hl,hb'.trans hb⟩

/-- The stored bytes are the UTF-8 form of one string, from which the client
builds the very seeds the program used. -/
theorem clientSeeds {bytes : List UInt8} (h : CanonicalBytes bytes) :
    ∃ tag : String, asBytes tag = bytes ∧ utf16 tag = fromCharCodes bytes ∧
      buildTagSeeds (utf16 tag) = .ok [Program.tagSeedPrefix, bytes] := by
  obtain ⟨t,_,ht⟩ := Parity.normalizeTag_bytes h
  have hbytes := Parity.encodeUtf8_normalized ht
  have hb : asBytes (Parity.submitted t.text) = bytes := by rw [Parity.asBytes_submitted, hbytes]
  have hutf : encodeUtf8 (utf16 (Parity.submitted t.text)) = encodeUtf8 t.text := by
    rw [encodeUtf8_utf16, hbytes, ← hb, asBytes]
  have htext : utf16 (Parity.submitted t.text) = t.text := eq_of_encodeUtf8 t.ascii hutf
  refine ⟨Parity.submitted t.text,hb,htext.trans ht,?_⟩
  rw [htext, buildTagSeeds_normalized, ht, asciiBytes_fromCharCodes]

/-- Derivation keeps the tags the program accepts apart. -/
def DerivesApart (sol : Solana) : Prop :=
  ∀ t t' address bump bump', CanonicalBytes t → CanonicalBytes t' →
    sol.findProgramAddress [Program.tagSeedPrefix, t] = some (address, bump) →
    sol.findProgramAddress [Program.tagSeedPrefix, t'] = some (address, bump') → t = t'

/-- What an account at its address can be relied on for, now and later. -/
structure Represented (sol : Solana) (chain : Chain) (address : Pubkey) (account : TagAccount) :
    Prop where
  wellFormed : WellFormed sol address account
  /-- The string whose seeds the client builds is the one the account stores. -/
  clientSeeds : ∃ tag : String, asBytes tag = account.tag.data.take account.tagLen.toNat ∧
    buildTagSeeds (utf16 tag) =
      .ok [Program.tagSeedPrefix, account.tag.data.take account.tagLen.toNat]
  slice : sliceTag account = .ok (account.tag.data.take account.tagLen.toNat)
  seeds : sol.createProgramAddress
    [Program.tagSeedPrefix, account.tag.data.take account.tagLen.toNat, [account.bump]] =
    some address
  stable : ∀ later, ∃ account', (Lib.run (submit sol) chain later).tagAccounts address =
    some account' ∧ SameTag account account'
  unshared : ∀ tag bump, validateCanonicalTag tag = .ok () →
    sol.findProgramAddress [Program.tagSeedPrefix, asBytes tag] = some (address, bump) →
    asBytes tag = account.tag.data.take account.tagLen.toNat

/-- In every reachable state each account is what its address says it is, the
owner's instructions never trip over stored bytes, and no two tags meet. -/
theorem tag_representation (sol : Solana) (hapart : DerivesApart sol) (subs : List Submission) :
    ChecksPass sol (after sol subs) ∧
    ∀ address account, (after sol subs).tagAccounts address = some account →
      Represented sol (after sol subs) address account := by
  have hall := after_wellFormed sol subs
  refine ⟨checksPass hall, ?_⟩
  intro address account ha
  have hw := hall address account ha
  obtain ⟨tag,hbytes,_,hseeds⟩ := clientSeeds hw.stores.canonical
  refine ⟨hw,⟨tag,hbytes,hseeds⟩,hw.checked.1,hw.checked.2,run_sameTag sol ha, ?_⟩
  intro tag' bump hv hd
  exact hapart _ _ _ _ _ ((validateCanonicalTag_ok tag').mp hv) hw.stores.canonical hd hw.derived

theorem sample_apart : DerivesApart sampleSolana := by
  intro t t' address bump bump' hc hc' h h'
  exact sampleKey_injective hc hc' ((sample_found hc h).symm.trans (sample_found hc' h'))

/-- One key registers `abc`, signing as owner and payer. -/
def registersAbc : Submission where
  instruction := .registerTag ⟨abcAddress, sampleOwner, sampleOwner, sampleSolana.systemProgram⟩ "abc"
  signers := [sampleOwner]
  writable := [abcAddress, sampleOwner]
  payerFunded := true

theorem abc_represented :
    (after sampleSolana [registersAbc]).tagAccounts abcAddress = some abcAccount ∧
    Represented sampleSolana (after sampleSolana [registersAbc]) abcAddress abcAccount := by
  have ha : (after sampleSolana [registersAbc]).tagAccounts abcAddress = some abcAccount := by
    decide
  exact ⟨ha,(tag_representation sampleSolana sample_apart [registersAbc]).2 abcAddress abcAccount ha⟩

end Tagwise.Proofs.Representation
