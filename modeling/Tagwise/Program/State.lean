import Mathlib.Logic.Function.Basic
import Tagwise.Js.Text

namespace Tagwise.Program

/-- A Rust array `[u8; n]`. -/
structure Bytes (n : Nat) where
  data : List UInt8
  size : data.length = n
  deriving DecidableEq

abbrev Pubkey := Bytes 32

def anchorDiscriminator : Nat := 8
def minTagLength : Nat := 3
def maxTagLength : Nat := 20

/-- `b"tag"`. -/
def tagSeedPrefix : List UInt8 := [116, 97, 103]

structure TagAccount where
  owner : Pubkey
  wallet : Pubkey
  tag : Bytes maxTagLength
  tagLen : UInt8
  bump : UInt8
  deriving DecidableEq

/-- `sha256("account:TagAccount")[..8]`, as Anchor derives it. -/
def TagAccount.discriminator : List UInt8 := [206, 141, 84, 39, 161, 42, 185, 170]

/-- The account's data: the discriminator, then Borsh over the fields in order. -/
def TagAccount.serialize (account : TagAccount) : List UInt8 :=
  TagAccount.discriminator ++ account.owner.data ++ account.wallet.data ++ account.tag.data ++
    [account.tagLen] ++ [account.bump]

/-- What the program and its clients take from Solana: address derivation under
one program id, where `none` is a point on the curve or a seed over the limit,
and the base58 text of a key. -/
structure Solana where
  createProgramAddress : List (List UInt8) → Option Pubkey
  systemProgram : Pubkey
  base58 : Pubkey → Js.JsString

/-- The bumps from `bump` down to 1, the first that leaves the curve winning. -/
def Solana.searchBump (sol : Solana) (seeds : List (List UInt8)) : Nat → Option (Pubkey × UInt8)
  | 0 => none
  | bump + 1 =>
    match sol.createProgramAddress (seeds ++ [[UInt8.ofNat (bump + 1)]]) with
    | some address => some (address, UInt8.ofNat (bump + 1))
    | none => sol.searchBump seeds bump

def Solana.findProgramAddress (sol : Solana) (seeds : List (List UInt8)) : Option (Pubkey × UInt8) :=
  sol.searchBump seeds 255

/-- The accounts this program owns, by address. -/
structure Chain where
  tagAccounts : Pubkey → Option TagAccount

def Chain.genesis : Chain := ⟨fun _ => none⟩

def Chain.put (chain : Chain) (address : Pubkey) (account : TagAccount) : Chain :=
  ⟨Function.update chain.tagAccounts address (some account)⟩

@[simp] theorem Chain.put_self (chain : Chain) (address : Pubkey) (account : TagAccount) :
    (chain.put address account).tagAccounts address = some account := by
  simp [Chain.put]

theorem Chain.put_other (chain : Chain) {address key : Pubkey} (account : TagAccount)
    (h : key ≠ address) : (chain.put address account).tagAccounts key = chain.tagAccounts key :=
  Function.update_of_ne h _ _

/-- The canonical bump is one that `createProgramAddress` accepts. -/
theorem Solana.searchBump_create (sol : Solana) {seeds : List (List UInt8)} {n : Nat}
    {address : Pubkey} {bump : UInt8} (h : sol.searchBump seeds n = some (address, bump)) :
    sol.createProgramAddress (seeds ++ [[bump]]) = some address := by
  induction n with
  | zero => cases h
  | succ n ih =>
    cases hc : sol.createProgramAddress (seeds ++ [[UInt8.ofNat (n + 1)]]) with
    | none =>
      simp only [Solana.searchBump, hc] at h
      exact ih h
    | some found =>
      simp only [Solana.searchBump, hc, Option.some.injEq, Prod.mk.injEq] at h
      obtain ⟨rfl,rfl⟩ := h
      exact hc

theorem Solana.findProgramAddress_create (sol : Solana) {seeds : List (List UInt8)}
    {address : Pubkey} {bump : UInt8} (h : sol.findProgramAddress seeds = some (address, bump)) :
    sol.createProgramAddress (seeds ++ [[bump]]) = some address :=
  sol.searchBump_create h

end Tagwise.Program
