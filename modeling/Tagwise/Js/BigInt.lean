import Mathlib.Data.List.Basic
import Mathlib.Tactic.SplitIfs
import Tagwise.Js.Format

/-! Integers of any size as text: `BigInt.prototype.toString`, and `BigInt` on a string. -/

namespace Tagwise.Js

def plusSign : UInt16 := 43
def minusSign : UInt16 := 45
def zeroDigit : UInt16 := 48

/-- `BigInt.prototype.toString`. -/
def bigIntText : Int → JsString
  | .ofNat n => decimal n
  | .negSucc n => minusSign :: decimal (n + 1)

/-- A digit's value: `0` to `9`, then the letters of either case. -/
def digitValue (u : UInt16) : Option Nat :=
  let n := u.toNat
  if 48 ≤ n ∧ n ≤ 57 then some (n - 48)
  else if 97 ≤ n ∧ n ≤ 122 then some (n - 87)
  else if 65 ≤ n ∧ n ≤ 90 then some (n - 55)
  else none

def isDigitOf (radix : Nat) (u : UInt16) : Bool := (digitValue u).any (· < radix)

def digitsValue (radix : Nat) (digits : JsString) : Nat :=
  digits.foldl (fun value u => radix * value + (digitValue u).getD 0) 0

def readDigits (radix : Nat) (digits : JsString) : Option Nat :=
  if digits ≠ [] ∧ digits.all (isDigitOf radix) = true then some (digitsValue radix digits) else none

/-- The radix that `0x`, `0o` and `0b` stand for. -/
def literalRadix (u : UInt16) : Option Nat :=
  if u = 120 ∨ u = 88 then some 16
  else if u = 111 ∨ u = 79 then some 8
  else if u = 98 ∨ u = 66 then some 2
  else none

def nonDecimal : JsString → Option (Nat × JsString)
  | zero :: u :: digits => if zero = zeroDigit then (literalRadix u).map (·, digits) else none
  | _ => none

/-- `BigInt` on a string, or its `SyntaxError`: white space around the literal is dropped, no
text counts as zero, and a sign is for decimal digits only. -/
def stringToBigInt (s : JsString) : Option Int :=
  match trim s with
  | [] => some 0
  | u :: rest =>
    if u = plusSign then (readDigits 10 rest).map Int.ofNat
    else if u = minusSign then (readDigits 10 rest).map (fun n => -Int.ofNat n)
    else match nonDecimal (u :: rest) with
      | some (radix, digits) => (readDigits radix digits).map Int.ofNat
      | none => (readDigits 10 (u :: rest)).map Int.ofNat

/-- Digits of the radix, one at least. -/
def Digits (radix : Nat) (digits : JsString) : Prop :=
  digits ≠ [] ∧ ∀ u ∈ digits, isDigitOf radix u = true

/-- The texts that are integers once they are trimmed. -/
inductive IntegerLiteral : JsString → Prop
  | empty : IntegerLiteral []
  | decimal (digits : JsString) (h : Digits 10 digits) : IntegerLiteral digits
  | signed (sign : UInt16) (digits : JsString) (hsign : sign = plusSign ∨ sign = minusSign)
      (h : Digits 10 digits) : IntegerLiteral (sign :: digits)
  | nonDecimal (u : UInt16) (radix : Nat) (digits : JsString) (hradix : literalRadix u = some radix)
      (h : Digits radix digits) : IntegerLiteral (zeroDigit :: u :: digits)

theorem readDigits_isSome (radix : Nat) (digits : JsString) :
    (readDigits radix digits).isSome = true ↔ Digits radix digits := by
  rw [readDigits, Digits, ← List.all_eq_true]
  split
  · exact ⟨fun _ => by assumption,fun _ => rfl⟩
  · exact ⟨fun h => (by cases h),fun h => absurd h (by assumption)⟩

theorem Digits.head {radix : Nat} {u : UInt16} {rest : JsString} (h : Digits radix (u :: rest)) :
    isDigitOf radix u = true := h.2 u List.mem_cons_self

theorem literalRadix_letter {u : UInt16} {radix : Nat} (h : literalRadix u = some radix) :
    isDigitOf 10 u = false := by
  rw [literalRadix] at h
  split_ifs at h with h16 h8 h2
  · rcases h16 with rfl | rfl <;> rfl
  · rcases h8 with rfl | rfl <;> rfl
  · rcases h2 with rfl | rfl <;> rfl

/-- Decimal digits are no prefix of another radix. -/
theorem nonDecimal_digits {s : JsString} (h : Digits 10 s) : nonDecimal s = none := by
  match s with
  | [] => rfl
  | [_] => rfl
  | zero :: u :: digits =>
    have hdigit : isDigitOf 10 u = true := h.2 u (List.mem_cons_of_mem _ List.mem_cons_self)
    have hradix : literalRadix u = none := by
      cases hr : literalRadix u with
      | none => rfl
      | some radix => cases (literalRadix_letter hr).symm.trans hdigit
    rw [nonDecimal, hradix]
    split <;> rfl

theorem sign_not_digit {u : UInt16} (h : u = plusSign ∨ u = minusSign) : isDigitOf 10 u = false := by
  rcases h with rfl | rfl <;> rfl

/-- `BigInt` takes exactly the texts that trim to an integer. -/
theorem stringToBigInt_isSome (s : JsString) :
    (stringToBigInt s).isSome = true ↔ IntegerLiteral (trim s) := by
  rw [stringToBigInt]
  generalize trim s = text
  constructor
  · intro h
    cases text with
    | nil => exact .empty
    | cons u rest =>
      simp only at h
      split_ifs at h with hplus hminus
      · rw [Option.isSome_map, readDigits_isSome] at h
        exact .signed u rest (.inl hplus) h
      · rw [Option.isSome_map, readDigits_isSome] at h
        exact .signed u rest (.inr hminus) h
      · cases hn : nonDecimal (u :: rest) with
        | none =>
          rw [hn] at h
          simp only [Option.isSome_map, readDigits_isSome] at h
          exact .decimal _ h
        | some prefixed =>
          rw [hn] at h
          simp only [Option.isSome_map, readDigits_isSome] at h
          match rest, hn with
          | v :: digits, hn =>
            rw [nonDecimal] at hn
            split_ifs at hn with hzero
            obtain ⟨radix,hr,rfl⟩ := Option.map_eq_some_iff.mp hn
            rw [hzero]
            exact .nonDecimal v radix digits hr h
  · intro h
    cases h with
    | empty => rfl
    | decimal digits h =>
      obtain ⟨u,rest,rfl⟩ := List.exists_cons_of_ne_nil h.1
      have hsign : ¬ (u = plusSign ∨ u = minusSign) := fun hs => by
        cases (sign_not_digit hs).symm.trans h.head
      obtain ⟨hplus,hminus⟩ := not_or.mp hsign
      simp only [if_neg hplus, if_neg hminus, nonDecimal_digits h]
      rw [Option.isSome_map, readDigits_isSome]
      exact h
    | signed sign digits hsign h =>
      rcases hsign with rfl | rfl
      · simp only [↓reduceIte]
        rw [Option.isSome_map, readDigits_isSome]
        exact h
      · have hne : minusSign ≠ plusSign := by decide
        simp only [if_neg hne, ↓reduceIte]
        rw [Option.isSome_map, readDigits_isSome]
        exact h
    | nonDecimal u radix digits hradix h =>
      have hplus : zeroDigit ≠ plusSign := by decide
      have hminus : zeroDigit ≠ minusSign := by decide
      simp only [if_neg hplus, if_neg hminus, nonDecimal, ↓reduceIte, hradix, Option.map_some]
      rw [Option.isSome_map, readDigits_isSome]
      exact h

example : stringToBigInt (js " -007\n") = some (-7) ∧ stringToBigInt (js "0x1f") = some 31 ∧
    stringToBigInt (js "-0x1f") = none ∧ stringToBigInt (js "1.5") = none := by decide

theorem digit_range {n : Nat} {c : Char} (h : c ∈ Nat.toDigits 10 n) :
    48 ≤ c.toNat ∧ c.toNat ≤ 57 := by
  have hdigit := Char.isDigit_iff_toNat.mp (Nat.isDigit_of_mem_toDigits (by decide) (by decide) h)
  exact hdigit

theorem digit_unit {n : Nat} (h : 48 ≤ n ∧ n ≤ 57) :
    (UInt16.ofNat n).toNat = n ∧ digitValue (UInt16.ofNat n) = some (n - 48) := by
  have htoNat : (UInt16.ofNat n).toNat = n := by
    rw [UInt16.toNat_ofNat']
    omega
  refine ⟨htoNat,?_⟩
  rw [digitValue, htoNat]
  exact if_pos h

theorem decimal_digits (n : Nat) :
    decimal n = (Nat.toDigits 10 n).map (fun c => UInt16.ofNat c.toNat) := by
  have hdigits : (Nat.toDigits 10 n).flatMap (fun c => encodeCodePoint c.toNat) =
      (Nat.toDigits 10 n).flatMap (fun c => [UInt16.ofNat c.toNat]) := by
    apply List.flatMap_congr
    intro c hc
    have hrange := digit_range hc
    exact encodeCodePoint_small (by omega)
  rw [decimal, js, utf16, Nat.toString_eq_repr, Nat.toList_repr, hdigits, List.map_eq_flatMap]

theorem decimal_units {n : Nat} {u : UInt16} (h : u ∈ decimal n) :
    (48 ≤ u.toNat ∧ u.toNat ≤ 57) ∧ digitValue u = some (u.toNat - 48) := by
  rw [decimal_digits] at h
  obtain ⟨c,hc,rfl⟩ := List.mem_map.mp h
  have hrange := digit_range hc
  obtain ⟨htoNat,hvalue⟩ := digit_unit hrange
  rw [htoNat]
  exact ⟨hrange,hvalue⟩

theorem decimal_is_digits (n : Nat) : Digits 10 (decimal n) := by
  refine ⟨?_,fun u hu => ?_⟩
  · rw [decimal_digits]
    exact fun hnil => Nat.toDigits_ne_nil (List.map_eq_nil_iff.mp hnil)
  · obtain ⟨hrange,hvalue⟩ := decimal_units hu
    rw [isDigitOf, hvalue, Option.any_some, decide_eq_true_eq]
    omega

/-- Folding the units of decimal digits is folding the digits. -/
theorem foldl_digits (cs : List Char) (value : Nat) (h : ∀ c ∈ cs, 48 ≤ c.toNat ∧ c.toNat ≤ 57) :
    (cs.map (fun c => UInt16.ofNat c.toNat)).foldl
      (fun value u => 10 * value + (digitValue u).getD 0) value = Nat.ofDigitChars 10 cs value := by
  induction cs generalizing value with
  | nil => rfl
  | cons c cs ih =>
    have hc := (digit_unit (h c List.mem_cons_self)).2
    rw [List.map_cons, List.foldl_cons, hc, ih _ (fun d hd => h d (List.mem_cons_of_mem _ hd)),
      Nat.ofDigitChars_cons]
    rfl

theorem readDigits_decimal (n : Nat) : readDigits 10 (decimal n) = some n := by
  obtain ⟨hne,hall⟩ := decimal_is_digits n
  have hvalue : digitsValue 10 (decimal n) = n := by
    rw [decimal_digits, digitsValue, foldl_digits _ _ (fun c hc => digit_range hc),
      Nat.ofDigitChars_ten_toDigits]
  rw [readDigits, if_pos ⟨hne,List.all_eq_true.mpr hall⟩, hvalue]

theorem notTrimmed : ∀ n < 58, 45 ≤ n → isTrimUnit (UInt16.ofNat n) = false := by decide

theorem trim_bigIntText (n : Int) : trim (bigIntText n) = bigIntText n := by
  have hdecimal : ∀ (m : Nat), ∀ u ∈ decimal m, isTrimUnit u = false := by
    intro m u hu
    obtain ⟨hrange,_⟩ := decimal_units hu
    have hu := notTrimmed u.toNat (by omega) (by omega)
    rwa [UInt16.ofNat_toNat] at hu
  apply trim_fixed
  cases n with
  | ofNat n => exact hdecimal n
  | negSucc n =>
    intro u hu
    rcases List.mem_cons.mp hu with rfl | hu
    · rfl
    · exact hdecimal (n + 1) u hu

/-- What an integer writes itself as reads as that integer. -/
theorem stringToBigInt_text (n : Int) : stringToBigInt (bigIntText n) = some n := by
  rw [stringToBigInt, trim_bigIntText]
  cases n with
  | ofNat n =>
    have hdigits := decimal_is_digits n
    have hread := readDigits_decimal n
    rw [bigIntText]
    cases hd : decimal n with
    | nil => exact absurd hd hdigits.1
    | cons u rest =>
      rw [hd] at hdigits hread
      have hsign : ¬ (u = plusSign ∨ u = minusSign) := fun hs => by
        cases (sign_not_digit hs).symm.trans hdigits.head
      obtain ⟨hplus,hminus⟩ := not_or.mp hsign
      simp only [if_neg hplus, if_neg hminus, nonDecimal_digits hdigits, hread]
      rfl
  | negSucc n =>
    have hne : minusSign ≠ plusSign := by decide
    simp only [bigIntText, if_neg hne, ↓reduceIte, readDigits_decimal]
    rfl

theorem bigIntText_literal (n : Int) : IntegerLiteral (trim (bigIntText n)) := by
  rw [← stringToBigInt_isSome, stringToBigInt_text]
  rfl

end Tagwise.Js
