import Tagwise.Program.State

namespace Tagwise.Program

inductive TagRegistryError
  | tagTooShort
  | tagTooLong
  | tagInvalidChar
  | unauthorized
  deriving DecidableEq, Repr

/-- Why an instruction aborts: the program's own errors, those of Anchor's
account constraints, and a Rust panic. -/
inductive ProgramError
  | registry (error : TagRegistryError)
  | accountNotSigner
  | invalidProgramId
  | constraintSeeds
  | constraintMut
  | accountAlreadyInUse
  | insufficientFunds
  | accountNotInitialized
  | panicked
  deriving DecidableEq, Repr

/-- `str::as_bytes`. -/
def asBytes (tag : String) : List UInt8 := tag.toList.flatMap String.utf8EncodeChar

def isCanonicalByte (byte : UInt8) : Bool :=
  (97 ≤ byte.toNat && byte.toNat ≤ 122) || (48 ≤ byte.toNat && byte.toNat ≤ 57) || byte.toNat == 95

def validateCanonicalTag (tag : String) : Except TagRegistryError Unit :=
  if (asBytes tag).length < minTagLength then .error .tagTooShort
  else if (asBytes tag).length > maxTagLength then .error .tagTooLong
  else if !(asBytes tag).all isCanonicalByte then .error .tagInvalidChar
  else .ok ()

def validateTagAccess (tag : String) : Except ProgramError Unit :=
  match validateCanonicalTag tag with
  | .error error => .error (.registry error)
  | .ok () => .ok ()

/-- The bytes the validator lets through. -/
structure CanonicalBytes (bytes : List UInt8) : Prop where
  long : minTagLength ≤ bytes.length
  short : bytes.length ≤ maxTagLength
  allowed : ∀ b ∈ bytes, isCanonicalByte b = true

theorem validateCanonicalTag_ok (tag : String) :
    validateCanonicalTag tag = .ok () ↔ CanonicalBytes (asBytes tag) := by
  unfold validateCanonicalTag
  constructor
  · intro h
    split at h
    · cases h
    · split at h
      · cases h
      · split at h
        · cases h
        · rename_i hs hl ha
          refine ⟨Nat.le_of_not_lt hs, Nat.le_of_not_lt hl, ?_⟩
          simpa using ha
  · rintro ⟨hs,hl,ha⟩
    rw [if_neg (Nat.not_lt.mpr hs), if_neg (Nat.not_lt.mpr hl), if_neg]
    simpa using ha

theorem validateTagAccess_ok (tag : String) :
    validateTagAccess tag = .ok () ↔ CanonicalBytes (asBytes tag) := by
  rw [← validateCanonicalTag_ok]
  unfold validateTagAccess
  cases validateCanonicalTag tag with
  | error e => simp
  | ok u => simp

/-- The form in which an account keeps a canonical tag: zero-padded, beside its length. -/
structure StoresTag (account : TagAccount) (bytes : List UInt8) : Prop where
  canonical : CanonicalBytes bytes
  buffer : account.tag.data = bytes ++ List.replicate (maxTagLength - bytes.length) 0
  tagLen : account.tagLen = UInt8.ofNat bytes.length

theorem StoresTag.length {account : TagAccount} {bytes : List UInt8}
    (h : StoresTag account bytes) : account.tagLen.toNat = bytes.length := by
  have hs : bytes.length ≤ 20 := h.canonical.short
  rw [h.tagLen, UInt8.toNat_ofNat']
  omega

theorem StoresTag.slice {account : TagAccount} {bytes : List UInt8}
    (h : StoresTag account bytes) : account.tag.data.take account.tagLen.toNat = bytes := by
  rw [h.length, h.buffer, List.take_left]

theorem StoresTag.padding {account : TagAccount} {bytes : List UInt8}
    (h : StoresTag account bytes) : ∀ b ∈ account.tag.data.drop account.tagLen.toNat, b = 0 := by
  intro b hb
  rw [h.length, h.buffer, List.drop_left] at hb
  exact List.eq_of_mem_replicate hb

theorem slice_length {account : TagAccount} (h : account.tagLen.toNat ≤ maxTagLength) :
    (account.tag.data.take account.tagLen.toNat).length = account.tagLen.toNat := by
  rw [List.length_take, account.tag.size]
  exact Nat.min_eq_left h

theorem storesTag_slice {account : TagAccount} (hl : account.tagLen.toNat ≤ maxTagLength)
    (hc : CanonicalBytes (account.tag.data.take account.tagLen.toNat))
    (hp : ∀ b ∈ account.tag.data.drop account.tagLen.toNat, b = 0) :
    StoresTag account (account.tag.data.take account.tagLen.toNat) := by
  have hzero : account.tag.data.drop account.tagLen.toNat =
      List.replicate (maxTagLength - account.tagLen.toNat) 0 := by
    apply (List.eq_replicate_of_mem hp).trans
    rw [List.length_drop, account.tag.size]
  refine ⟨hc, ?_, ?_⟩
  · rw [slice_length hl, ← hzero, List.take_append_drop]
  · rw [slice_length hl, UInt8.ofNat_toNat]

theorem isCanonicalByte_iff (b : UInt8) : isCanonicalByte b = true ↔
    (97 ≤ b.toNat ∧ b.toNat ≤ 122) ∨ (48 ≤ b.toNat ∧ b.toNat ≤ 57) ∨ b.toNat = 95 := by
  simp [isCanonicalByte, or_assoc]

end Tagwise.Program
