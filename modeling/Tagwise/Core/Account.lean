import Tagwise.Core.Normalize
import Tagwise.Js.Format
import Tagwise.Program.State

namespace Tagwise.Core
open Js

def discriminatorLength : Nat := 8
def pubkeyLength : Nat := 32
def ownerOffset : Nat := discriminatorLength
def walletOffset : Nat := ownerOffset + pubkeyLength
def tagOffset : Nat := walletOffset + pubkeyLength
def tagLenOffset : Nat := tagOffset + maxTagLength
def bumpOffset : Nat := tagLenOffset + 1
def tagAccountSize : Nat := bumpOffset + 1

def tagAccountDiscriminator : List UInt8 := [206, 141, 84, 39, 161, 42, 185, 170]

/-- A decoded account: addresses as text, and a tag that is canonical by its type. -/
structure TagAccount where
  owner : JsString
  wallet : JsString
  tag : NormalizedTag
  bump : UInt8
  deriving DecidableEq

inductive TagAccountDecodeErrorReason
  | invalidLength
  | discriminatorMismatch
  | invalidPadding
  | nonCanonicalTag
  deriving DecidableEq, Repr

structure TagAccountDecodeError where
  reason : TagAccountDecodeErrorReason
  message : JsString
  deriving DecidableEq

def TagRejectionReason.text : TagRejectionReason → JsString
  | .empty => js "EMPTY"
  | .badAt => js "BAD_AT"
  | .tooShort => js "TOO_SHORT"
  | .tooLong => js "TOO_LONG"
  | .invalidChar => js "INVALID_CHAR"

def subarray (data : List UInt8) (first last : Nat) : List UInt8 := (data.take last).drop first

def toHex (bytes : List UInt8) : JsString := bytes.flatMap hexByte

def readByte (data : List UInt8) (offset : Nat) : Except TagAccountDecodeError UInt8 :=
  match data[offset]? with
  | none => .error ⟨.invalidLength, js "buffer too short to read byte at offset " ++ decimal offset⟩
  | some byte => .ok byte

/-- The address decoder's input; with the length checked it is always a whole key. -/
def keyAt (data : List UInt8) (offset : Nat) (fits : offset + pubkeyLength ≤ data.length) :
    Program.Pubkey :=
  ⟨subarray data offset (offset + pubkeyLength), by
    simp only [subarray, List.length_drop, List.length_take, pubkeyLength] at fits ⊢; omega⟩

/-- The loop over the buffer past `tagLen`. -/
def checkPadding (tagBuffer : List UInt8) (tagLen : Nat) :
    List Nat → Except TagAccountDecodeError Unit
  | [] => .ok ()
  | i :: rest =>
    match readByte tagBuffer i with
    | .error e => .error e
    | .ok paddingByte =>
      if paddingByte ≠ 0 then
        .error ⟨.invalidPadding, js "expected zero padding after tag_len (" ++ decimal tagLen ++
          js "), found byte " ++ decimal paddingByte.toNat ++ js " at tag buffer offset " ++
          decimal i⟩
      else checkPadding tagBuffer tagLen rest

/-- The loop that appends one char code a byte. -/
def readTag (tagBuffer : List UInt8) (rawTag : JsString) :
    List Nat → Except TagAccountDecodeError JsString
  | [] => .ok rawTag
  | i :: rest =>
    match readByte tagBuffer i with
    | .error e => .error e
    | .ok byte => readTag tagBuffer (rawTag ++ fromCharCodes [byte]) rest

def decodeTagAccount (sol : Program.Solana) (data : List UInt8) :
    Except TagAccountDecodeError TagAccount :=
  if hl : data.length ≠ tagAccountSize then
    .error ⟨.invalidLength, js "expected a " ++ decimal tagAccountSize ++
      js "-byte TagAccount buffer, got " ++ decimal data.length ++ js " bytes"⟩
  else
  let discriminator := subarray data 0 discriminatorLength
  if discriminator ≠ tagAccountDiscriminator then
    .error ⟨.discriminatorMismatch, js "discriminator mismatch: expected " ++
      toHex tagAccountDiscriminator ++ js ", got " ++ toHex discriminator⟩
  else
  have hw : walletOffset + pubkeyLength ≤ data.length := by rw [not_not.mp hl]; decide
  let owner := sol.base58 (keyAt data ownerOffset (Nat.le_trans (by decide) hw))
  let wallet := sol.base58 (keyAt data walletOffset hw)
  let tagBuffer := subarray data tagOffset tagLenOffset
  match readByte data tagLenOffset, readByte data bumpOffset with
  | .error e, _ => .error e
  | _, .error e => .error e
  | .ok tagLen, .ok bump =>
    if tagLen.toNat > maxTagLength then
      .error ⟨.invalidLength, js "tag_len " ++ decimal tagLen.toNat ++
        js " exceeds MAX_TAG_LENGTH (" ++ decimal maxTagLength ++ js ")"⟩
    else
    match checkPadding tagBuffer tagLen.toNat
        (List.range' tagLen.toNat (maxTagLength - tagLen.toNat)) with
    | .error e => .error e
    | .ok () =>
      match readTag tagBuffer [] (List.range tagLen.toNat) with
      | .error e => .error e
      | .ok rawTag =>
        match normalizeTag rawTag with
        | .rejected reason =>
          .error ⟨.nonCanonicalTag, js "stored tag " ++ jsonStringify rawTag ++
            js " failed normalization: " ++ reason.text⟩
        | .accepted tag =>
          if tag.text ≠ rawTag then
            .error ⟨.nonCanonicalTag, js "stored tag " ++ jsonStringify rawTag ++
              js " is not already canonical (normalizes to " ++ jsonStringify tag.text ++ js ")"⟩
          else .ok ⟨owner, wallet, tag, bump⟩

end Tagwise.Core
