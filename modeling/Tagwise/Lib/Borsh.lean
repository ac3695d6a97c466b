import Mathlib.Algebra.Group.Nat.Defs
import Mathlib.Data.List.Basic

/-! What instruction data uses of the Borsh format: little-endian words of four
bytes, and strings behind their length. -/

namespace Tagwise.Lib.Borsh

def u32 (n : Nat) : List UInt8 :=
  [UInt8.ofNat n, UInt8.ofNat (n / 0x100), UInt8.ofNat (n / 0x10000), UInt8.ofNat (n / 0x1000000)]

def stringBytes (s : String) : List UInt8 := s.toList.flatMap String.utf8EncodeChar

def string (s : String) : List UInt8 := u32 (stringBytes s).length ++ stringBytes s

/-- Reads the front of a buffer and hands back what is behind it. -/
abbrev Reader (α : Type) := List UInt8 → Option (α × List UInt8)

def readU32 : Reader Nat
  | b₀ :: b₁ :: b₂ :: b₃ :: rest =>
    some (b₀.toNat + 0x100 * b₁.toNat + 0x10000 * b₂.toNat + 0x1000000 * b₃.toNat, rest)
  | _ => none

def readBytes (n : Nat) : Reader (List UInt8) := fun data =>
  if n ≤ data.length then some (data.take n, data.drop n) else none

/-- Fails on bytes that are no UTF-8. -/
def fromUtf8 (bytes : List UInt8) : Option String :=
  bytes.toByteArray.utf8Decode?.map (fun chars => String.ofList chars.toList)

def readString : Reader String := fun data =>
  match readU32 data with
  | none => none
  | some (length, rest) =>
    match readBytes length rest with
    | none => none
    | some (bytes, rest) => (fromUtf8 bytes).map (·, rest)

theorem readU32_u32 {n : Nat} (h : n < 2 ^ 32) (rest : List UInt8) :
    readU32 (u32 n ++ rest) = some (n, rest) := by
  have hn : n % 256 + 0x100 * (n / 0x100 % 256) + 0x10000 * (n / 0x10000 % 256) +
      0x1000000 * (n / 0x1000000 % 256) = n := by omega
  simp only [u32, List.cons_append, List.nil_append, readU32, UInt8.toNat_ofNat', hn]

theorem readBytes_append (bytes rest : List UInt8) :
    readBytes bytes.length (bytes ++ rest) = some (bytes, rest) := by
  rw [readBytes, if_pos (by simp), List.take_left, List.drop_left]

theorem fromUtf8_bytes (s : String) : fromUtf8 (stringBytes s) = some s := by
  have hb : (stringBytes s).toByteArray = s.toList.utf8Encode := rfl
  rw [fromUtf8, hb, List.utf8Decode?_utf8Encode, Option.map_some, List.toList_toArray,
    String.ofList_toList]

/-- A string shorter than 4 GiB comes back, with the bytes behind it. -/
theorem readString_string {s : String} (h : (stringBytes s).length < 2 ^ 32) (rest : List UInt8) :
    readString (string s ++ rest) = some (s, rest) := by
  simp only [readString, string, List.append_assoc, readU32_u32 h, readBytes_append,
    fromUtf8_bytes, Option.map_some]

end Tagwise.Lib.Borsh
