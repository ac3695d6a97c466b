import Mathlib.Data.Nat.Digits.Defs
import Mathlib.Data.Nat.Digits.Lemmas
import Tagwise.Program.Validation

/-! One concrete Solana: base58 as it is, and an address derivation that agrees
with the published vectors on their tags and pads every other tag to a key. -/

namespace Tagwise.Program
open Js

def base58Alphabet : JsString := js "123456789ABCDEFGHJKLMNPQRSTUVWXYZabcdefghijkmnopqrstuvwxyz"

def base58Unit (digit : Nat) : UInt16 := base58Alphabet.getD digit 0

/-- The key as one big-endian number. -/
def keyNumber (key : Pubkey) : Nat := Nat.ofDigits 256 (key.data.reverse.map UInt8.toNat)

/-- Most significant first, after a zero for each leading zero byte. -/
def base58Digits (key : Pubkey) : List Nat :=
  List.replicate (key.data.takeWhile (· == 0)).length 0 ++ (Nat.digits 58 (keyNumber key)).reverse

def base58 (key : Pubkey) : JsString := (base58Digits key).map base58Unit

def abcTag : List UInt8 := [97, 98, 99]
def danielTag : List UInt8 := [100, 97, 110, 105, 101, 108]

def abcAddress : Pubkey := ⟨[150, 70, 145, 192, 91, 220, 130, 185, 116, 252, 178, 22, 186, 130, 110,
  137, 82, 138, 214, 210, 226, 185, 96, 153, 253, 203, 157, 208, 93, 210, 172, 254], rfl⟩

def danielAddress : Pubkey := ⟨[181, 86, 4, 188, 233, 245, 230, 25, 25, 60, 75, 125, 41, 171, 55,
  189, 222, 223, 219, 27, 62, 57, 98, 59, 59, 245, 185, 85, 0, 23, 126, 180], rfl⟩

def padKey (bytes : List UInt8) : Option Pubkey :=
  if h : bytes.length ≤ 32 then
    some ⟨bytes ++ List.replicate (32 - bytes.length) 0, by simp; omega⟩
  else none

def sampleSolana : Solana where
  createProgramAddress
    | [_, tag, [bump]] =>
      if tag = abcTag then if bump = 255 then some abcAddress else none
      else if tag = danielTag then if bump = 254 then some danielAddress else none
      else if bump = 255 then padKey tag else none
    | _ => none
  systemProgram := ⟨List.replicate 32 0, rfl⟩
  base58 := base58

def sampleOwner : Pubkey := ⟨List.replicate 32 7, rfl⟩

/-- The program's declared id. -/
def sampleProgram : Pubkey := ⟨[58, 79, 49, 243, 97, 214, 194, 240, 232, 101, 81, 56, 172, 147, 159,
  151, 10, 15, 77, 82, 97, 144, 28, 55, 184, 38, 85, 252, 51, 7, 145, 3], rfl⟩

/-- What registering `abc` stores for `sampleOwner`. -/
def abcAccount : TagAccount :=
  ⟨sampleOwner, sampleOwner, ⟨abcTag ++ List.replicate 17 0, rfl⟩, 3, 255⟩

theorem keyNumber_injective {key key' : Pubkey} (h : keyNumber key = keyNumber key') :
    key = key' := by
  have hlt : ∀ k : Pubkey, ∀ d ∈ k.data.reverse.map UInt8.toNat, d < 256 := by
    intro k d hd
    obtain ⟨b,_,rfl⟩ := List.mem_map.mp hd
    exact b.toNat_lt
  have hmap := Nat.ofDigits_inj_of_len_eq (by decide)
    (by simp [key.size, key'.size]) (hlt key) (hlt key') h
  have hrev := List.map_injective_iff.mpr (fun _ _ he => UInt8.toNat_inj.mp he) hmap
  have hdata := List.reverse_injective hrev
  cases key; cases key'; cases hdata; rfl

theorem base58Digits_lt (key : Pubkey) : ∀ d ∈ base58Digits key, d < 58 := by
  intro d hd
  rcases List.mem_append.mp hd with hd | hd
  · rw [List.eq_of_mem_replicate hd]; decide
  · exact Nat.digits_lt_base (by decide) (List.mem_reverse.mp hd)

theorem base58Unit_digit : ∀ d < 58, base58Alphabet.idxOf (base58Unit d) = d := by
  decide

/-- The digits carry the number, however many zeros stand in front. -/
theorem base58Digits_number (key : Pubkey) :
    Nat.ofDigits 58 (base58Digits key).reverse = keyNumber key := by
  rw [base58Digits, List.reverse_append, List.reverse_reverse, List.reverse_replicate,
    Nat.ofDigits_append_replicate_zero, Nat.ofDigits_digits]

theorem base58_digits (key : Pubkey) : (base58 key).map base58Alphabet.idxOf = base58Digits key := by
  rw [base58, List.map_map]
  calc (base58Digits key).map _ = (base58Digits key).map id :=
        List.map_congr_left (fun d hd => base58Unit_digit d (base58Digits_lt key d hd))
    _ = base58Digits key := List.map_id _

theorem base58_injective {key key' : Pubkey} (h : base58 key = base58 key') : key = key' := by
  apply keyNumber_injective
  rw [← base58Digits_number, ← base58Digits_number, ← base58_digits, ← base58_digits, h]

example : base58 sampleProgram = js "4vcgrBuzoWw3kBanVTtx7Pi1v9WyTJBJQsFAQMqjJZjx" := by decide

example : base58 abcAddress = js "B7cZrsDEz7JuXtt2eCf2uDdPG5VtzYtV1gvzmbxeGP73" := by decide

/-- The bytes of a key behind its leading zeros. -/
def keyTail (key : Pubkey) : List UInt8 := key.data.dropWhile (· == 0)

theorem key_split (key : Pubkey) :
    List.replicate (key.data.takeWhile (· == 0)).length 0 ++ keyTail key = key.data := by
  have hz : key.data.takeWhile (· == 0) = List.replicate (key.data.takeWhile (· == 0)).length 0 := by
    apply List.eq_replicate_of_mem
    intro b hb
    simpa using List.all_eq_true.mp List.all_takeWhile b hb
  rw [← hz, keyTail, List.takeWhile_append_dropWhile]

theorem keyNumber_tail (key : Pubkey) :
    keyNumber key = Nat.ofDigits 256 ((keyTail key).reverse.map UInt8.toNat) := by
  rw [keyNumber, ← key_split key, List.reverse_append, List.reverse_replicate, List.map_append,
    List.map_replicate, UInt8.toNat_zero, Nat.ofDigits_append_replicate_zero]

theorem keyNumber_digits (key : Pubkey) :
    Nat.digits 256 (keyNumber key) = (keyTail key).reverse.map UInt8.toNat := by
  rw [keyNumber_tail]
  apply Nat.digits_ofDigits 256 (by decide)
  · intro d hd
    obtain ⟨b,_,rfl⟩ := List.mem_map.mp hd
    exact b.toNat_lt
  · intro hne hz
    obtain ⟨b,hb,hlast⟩ : ∃ b, (keyTail key).head? = some b ∧ b.toNat = 0 := by
      rw [List.getLast_eq_iff_getLast?_eq_some] at hz
      simpa using hz
    have hd := List.head?_dropWhile_not (· == 0) key.data
    rw [← keyTail, hb] at hd
    exact absurd (UInt8.toNat_inj.mp hlast) (by simpa using hd)

theorem base58Digits_length (key : Pubkey) :
    32 ≤ (base58Digits key).length ∧ (base58Digits key).length ≤ 44 := by
  have hsize := congrArg List.length (key_split key)
  rw [key.size, List.length_append, List.length_replicate] at hsize
  have h256 : (Nat.digits 256 (keyNumber key)).length = (keyTail key).length := by
    rw [keyNumber_digits, List.length_map, List.length_reverse]
  have hlt := (Nat.digits_length_le_iff (by decide) _).mp h256.le
  have hpow : ∀ r ≤ 32, 256 ^ r ≤ 58 ^ (12 + r) := by decide
  have hup : (Nat.digits 58 (keyNumber key)).length ≤ 12 + (keyTail key).length :=
    (Nat.digits_length_le_iff (by decide) _).mpr (hlt.trans_le (hpow _ (by omega)))
  have hlow : (keyTail key).length ≤ (Nat.digits 58 (keyNumber key)).length := by
    cases hr : (keyTail key).length with
    | zero => exact Nat.zero_le _
    | succ r =>
      have hle : 256 ^ r ≤ keyNumber key := (Nat.lt_digits_length_iff (by decide) _).mp (by omega)
      exact (Nat.lt_digits_length_iff (by decide) _).mpr
        ((Nat.pow_le_pow_left (by decide) r).trans hle)
  rw [base58Digits, List.length_append, List.length_replicate, List.length_reverse]
  omega

/-- Where the sample derivation puts a tag the program accepts. -/
def sampleKey (tag : List UInt8) : List UInt8 :=
  if tag = abcTag then abcAddress.data
  else if tag = danielTag then danielAddress.data
  else tag ++ List.replicate (32 - tag.length) 0

theorem sample_found {tag : List UInt8} {address : Pubkey} {bump : UInt8}
    (hc : CanonicalBytes tag)
    (h : sampleSolana.findProgramAddress [tagSeedPrefix, tag] = some (address, bump)) :
    address.data = sampleKey tag := by
  have hlen : tag.length ≤ 32 := Nat.le_trans hc.short (by decide)
  have h255 : UInt8.ofNat (254 + 1) = 255 := rfl
  have h254 : UInt8.ofNat (253 + 1) = 254 := rfl
  rw [Solana.findProgramAddress, Solana.searchBump] at h
  by_cases ha : tag = abcTag
  · subst ha
    simp only [sampleSolana, List.cons_append, List.nil_append, h255, ↓reduceIte] at h
    cases h
    simp [sampleKey]
  by_cases hd : tag = danielTag
  · subst hd
    rw [Solana.searchBump] at h
    simp only [sampleSolana, List.cons_append, List.nil_append, h255, h254, ha, ↓reduceIte] at h
    cases h
    simp [sampleKey, ha]
  · simp only [sampleSolana, List.cons_append, List.nil_append, h255, ha, hd, ↓reduceIte, padKey,
      hlen, ↓reduceDIte] at h
    cases h
    simp [sampleKey, ha, hd]

/-- A canonical tag is what stands before the first zero of its padding. -/
theorem canonical_unpad {tag : List UInt8} (hc : CanonicalBytes tag) (n : Nat) :
    (tag ++ List.replicate n 0).takeWhile (· != 0) = tag := by
  have hpos : ∀ b ∈ tag, (b != 0) = true := by
    intro b hb
    have := (isCanonicalByte_iff b).mp (hc.allowed b hb)
    simp only [bne_iff_ne, ne_eq]
    rintro rfl
    simp at this
  rw [List.takeWhile_append_of_pos hpos]
  cases n with
  | zero => simp
  | succ n => simp [List.replicate_succ]

theorem sampleKey_unpadded {tag : List UInt8} (hc : CanonicalBytes tag) :
    (sampleKey tag).takeWhile (· != 0) =
      if tag = abcTag then abcAddress.data else
      if tag = danielTag then danielAddress.data.take 28 else tag := by
  unfold sampleKey
  split
  · decide
  · split
    · decide
    · exact canonical_unpad hc _

theorem sampleKey_injective {tag tag' : List UInt8} (hc : CanonicalBytes tag)
    (hc' : CanonicalBytes tag') (h : sampleKey tag = sampleKey tag') : tag = tag' := by
  have hu := sampleKey_unpadded hc
  rw [h, sampleKey_unpadded hc'] at hu
  have hshort : tag.length ≤ 20 := hc.short
  have hshort' : tag'.length ≤ 20 := hc'.short
  have habc : abcAddress.data.length = 32 := rfl
  have hdaniel : (danielAddress.data.take 28).length = 28 := rfl
  have hl := congrArg List.length hu
  split_ifs at hu hl with h1 h2 h3 h4 h5 h6
  · rw [h1, h2]
  · omega
  · omega
  · omega
  · rw [h4, h6]
  · omega
  · omega
  · omega
  · exact hu.symm

end Tagwise.Program
