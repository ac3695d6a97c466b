import Mathlib.Data.List.TakeWhile
import Tagwise.Js.BigInt
import Tagwise.Js.JsonText
import Tagwise.Lib.Borsh

/-! A URL behind its origin: the path, and the search part as `URLSearchParams` writes it; and
what a server reads there. -/

namespace Tagwise.Js
open Lib

def percentSign : UInt16 := 37
def ampersand : UInt16 := 38
def solidus : UInt16 := 47
def equalsSign : UInt16 := 61
def questionMark : UInt16 := 63

/-- Letters, digits and `*-._`, which a form leaves as they are. -/
def isFormCode (n : Nat) : Bool :=
  (48 ≤ n && n ≤ 57) || (65 ≤ n && n ≤ 90) || (97 ≤ n && n ≤ 122) || [42, 45, 46, 95].contains n

def upperHexDigit (n : Nat) : UInt16 := UInt16.ofNat (if n < 10 then 48 + n else 55 + n)

def formByte (byte : UInt8) : JsString :=
  if isFormCode byte.toNat then [UInt16.ofNat byte.toNat]
  else if byte.toNat = 32 then [plusSign]
  else [percentSign, upperHexDigit (byte.toNat / 16), upperHexDigit (byte.toNat % 16)]

def formText (s : JsString) : JsString := (encodeUtf8 s).flatMap formByte

def formPair (pair : JsString × JsString) : JsString :=
  formText pair.1 ++ equalsSign :: formText pair.2

def searchText (pairs : List (JsString × JsString)) : JsString :=
  if pairs = [] then [] else questionMark :: [ampersand].intercalate (pairs.map formPair)

/-- The segments, each behind its solidus. -/
def pathText (segments : List JsString) : JsString := segments.flatMap (solidus :: ·)

/-- Two hexadecimal digits behind a percent sign are a byte. -/
def percentBytes : JsString → Option (List UInt8)
  | [] => some []
  | u :: rest =>
    if u = percentSign then
      match rest with
      | a :: b :: rest => do
        let high ← hexValue a
        let low ← hexValue b
        return UInt8.ofNat (high * 16 + low) :: (← percentBytes rest)
      | _ => none
    else if u.toNat < 128 then (percentBytes rest).map (UInt8.ofNat u.toNat :: ·) else none

/-- A text that does not decode is left as it is. -/
def decodeText (s : JsString) : JsString :=
  match (percentBytes s).bind Borsh.fromUtf8 with
  | some text => utf16 text
  | none => s

def plusToSpace (s : JsString) : JsString := s.map (fun u => if u = plusSign then 32 else u)

def readPair (s : JsString) : JsString × JsString :=
  let name := s.takeWhile (· != equalsSign)
  let value := (s.dropWhile (· != equalsSign)).drop 1
  (decodeText (plusToSpace name), decodeText (plusToSpace value))

def readSearch (s : JsString) : List (JsString × JsString) :=
  ((s.splitOn ampersand).filter (· != [])).map readPair

/-- The segments of the path, and the pairs behind the question mark. -/
def readTarget (target : JsString) : List JsString × List (JsString × JsString) :=
  let path := target.takeWhile (· != questionMark)
  let search := (target.dropWhile (· != questionMark)).drop 1
  ((path.splitOn solidus).tail.map decodeText, readSearch search)

/-- A unit that ends nothing. -/
def isFormUnit (u : UInt16) : Bool :=
  u != ampersand && u != equalsSign && u != questionMark && u != solidus

theorem hexValue_upper : ∀ n < 16, hexValue (upperHexDigit n) = some n := by
  decide

theorem upperHexDigit_unit : ∀ n < 16,
    isFormUnit (upperHexDigit n) = true ∧ upperHexDigit n ≠ plusSign := by
  decide

theorem formCode_unit {n : Nat} (h : isFormCode n = true) :
    n < 128 ∧ isFormUnit (UInt16.ofNat n) = true ∧ UInt16.ofNat n ≠ plusSign ∧
      UInt16.ofNat n ≠ percentSign := by
  have hlt : n < 128 := by
    simp only [isFormCode, Bool.or_eq_true, Bool.and_eq_true, decide_eq_true_eq,
      List.contains_iff_mem, List.mem_cons, List.not_mem_nil, or_false] at h
    omega
  have hall : ∀ n < 128, isFormCode n = true → isFormUnit (UInt16.ofNat n) = true ∧
      UInt16.ofNat n ≠ plusSign ∧ UInt16.ofNat n ≠ percentSign := by decide
  exact ⟨hlt,hall n hlt h⟩

theorem formByte_units (byte : UInt8) : ∀ u ∈ formByte byte, isFormUnit u = true := by
  have hlt := byte.toNat_lt
  intro u hu
  unfold formByte at hu
  split at hu
  · rename_i h
    rw [List.mem_singleton.mp hu]
    exact (formCode_unit h).2.1
  split at hu
  · rw [List.mem_singleton.mp hu]
    decide
  · simp only [List.mem_cons, List.not_mem_nil, or_false] at hu
    rcases hu with rfl | rfl | rfl
    · decide
    · exact (upperHexDigit_unit _ (by omega)).1
    · exact (upperHexDigit_unit _ (by omega)).1

theorem formText_units (s : JsString) : ∀ u ∈ formText s, isFormUnit u = true := by
  intro u hu
  obtain ⟨byte,_,hu⟩ := List.mem_flatMap.mp hu
  exact formByte_units byte u hu

theorem percentBytes_percent (a b : UInt16) (rest : JsString) :
    percentBytes (percentSign :: a :: b :: rest) = (hexValue a).bind (fun high =>
      (hexValue b).bind (fun low =>
        (percentBytes rest).map (UInt8.ofNat (high * 16 + low) :: ·))) := by
  rw [percentBytes, if_pos rfl]
  cases hexValue a with
  | none => rfl
  | some high =>
    cases hexValue b with
    | none => rfl
    | some low => cases percentBytes rest <;> rfl

theorem percentBytes_plain {u : UInt16} (h : u ≠ percentSign) (hlt : u.toNat < 128)
    (rest : JsString) :
    percentBytes (u :: rest) = (percentBytes rest).map (UInt8.ofNat u.toNat :: ·) := by
  rw [percentBytes.eq_def]
  simp only [if_neg h, if_pos hlt]

theorem percentBytes_formByte (byte : UInt8) (rest : JsString) :
    percentBytes (plusToSpace (formByte byte) ++ rest) =
      (percentBytes rest).map (byte :: ·) := by
  have hlt := byte.toNat_lt
  unfold formByte
  split
  · rename_i h
    obtain ⟨hcode,_,hplus,hpercent⟩ := formCode_unit h
    have hunit : (UInt16.ofNat byte.toNat).toNat = byte.toNat := by
      rw [UInt16.toNat_ofNat']
      omega
    rw [plusToSpace, List.map_singleton, if_neg hplus, List.singleton_append,
      percentBytes_plain hpercent (by omega), hunit, UInt8.ofNat_toNat]
  split
  · rename_i hspace
    have hbyte : UInt8.ofNat 32 = byte := by rw [← hspace, UInt8.ofNat_toNat]
    rw [plusToSpace, List.map_singleton, if_pos rfl, List.singleton_append,
      percentBytes_plain (by decide) (by decide)]
    exact congrArg (fun b => (percentBytes rest).map (b :: ·)) hbyte
  · have hkept : plusToSpace [percentSign, upperHexDigit (byte.toNat / 16),
        upperHexDigit (byte.toNat % 16)] =
        [percentSign, upperHexDigit (byte.toNat / 16), upperHexDigit (byte.toNat % 16)] := by
      have hpercent : percentSign ≠ plusSign := by decide
      simp only [plusToSpace, List.map_cons, List.map_nil, if_neg hpercent,
        if_neg (upperHexDigit_unit (byte.toNat / 16) (by omega)).2,
        if_neg (upperHexDigit_unit (byte.toNat % 16) (by omega)).2]
    have hbyte : UInt8.ofNat (byte.toNat / 16 * 16 + byte.toNat % 16) = byte := by
      rw [Nat.div_add_mod', UInt8.ofNat_toNat]
    rw [hkept, List.cons_append, List.cons_append, List.cons_append, List.nil_append,
      percentBytes_percent, hexValue_upper _ (by omega), hexValue_upper _ (by omega),
      Option.bind_some, Option.bind_some, hbyte]

theorem percentBytes_form (bytes : List UInt8) :
    percentBytes (plusToSpace (bytes.flatMap formByte)) = some bytes := by
  induction bytes with
  | nil => rfl
  | cons byte bytes ih =>
    rw [List.flatMap_cons, plusToSpace, List.map_append]
    exact (percentBytes_formByte byte _).trans (congrArg (Option.map (byte :: ·)) ih)

theorem fromUtf8_encodeUtf8 (s : JsString) :
    Borsh.fromUtf8 (encodeUtf8 s) = some (String.ofList (scalarValues s)) := by
  have hbytes : encodeUtf8 s = Borsh.stringBytes (String.ofList (scalarValues s)) := by
    rw [Borsh.stringBytes, String.toList_ofList, encodeUtf8]
  rw [hbytes, Borsh.fromUtf8_bytes]

theorem utf16_scalarValues (s : JsString) :
    utf16 (String.ofList (scalarValues s)) = throughUtf8 s := by
  rw [utf16, String.toList_ofList, throughUtf8]

theorem decodeText_form (s : JsString) :
    decodeText (plusToSpace (formText s)) = throughUtf8 s := by
  rw [decodeText, formText, percentBytes_form, Option.bind_some, fromUtf8_encodeUtf8]
  exact utf16_scalarValues s

/-- A text without a percent sign stands for itself. -/
theorem decodeText_plain {s : JsString} (h : ∀ u ∈ s, u ≠ percentSign ∧ u.toNat < 128) :
    decodeText s = s := by
  have hascii : Ascii s := fun u hu => (h u hu).2
  have hbytes : percentBytes s = some (encodeUtf8 s) := by
    rw [encodeUtf8_ascii hascii]
    induction s with
    | nil => rfl
    | cons u s ih =>
      have hs : ∀ v ∈ s, v ≠ percentSign ∧ v.toNat < 128 :=
        fun v hv => h v (List.mem_cons_of_mem u hv)
      rw [percentBytes_plain (h u List.mem_cons_self).1 (h u List.mem_cons_self).2,
        ih hs (fun v hv => (hs v hv).2), Option.map_some, List.map_cons]
  rw [decodeText, hbytes, Option.bind_some, fromUtf8_encodeUtf8]
  exact (utf16_scalarValues s).trans (throughUtf8_paired (paired_ascii hascii))

theorem takeWhile_before {p : UInt16 → Bool} {front back : JsString} {u : UInt16}
    (hfront : ∀ v ∈ front, p v = true) (hu : p u = false) :
    (front ++ u :: back).takeWhile p = front ∧ (front ++ u :: back).dropWhile p = u :: back := by
  refine ⟨?_,?_⟩
  · rw [List.takeWhile_append_of_pos hfront, List.takeWhile_cons_of_neg (by simp [hu]),
      List.append_nil]
  · rw [List.dropWhile_append_of_pos hfront, List.dropWhile_cons_of_neg (by simp [hu])]

theorem formUnit_parts {u : UInt16} (h : isFormUnit u = true) :
    u ≠ ampersand ∧ u ≠ equalsSign ∧ u ≠ questionMark ∧ u ≠ solidus := by
  simpa [isFormUnit, and_assoc] using h

theorem readPair_formPair (pair : JsString × JsString) :
    readPair (formPair pair) = (throughUtf8 pair.1, throughUtf8 pair.2) := by
  have hname : ∀ u ∈ formText pair.1, (u != equalsSign) = true := fun u hu =>
    bne_iff_ne.mpr (formUnit_parts (formText_units _ u hu)).2.1
  have hsign : (equalsSign != equalsSign) = false := by decide
  have hsplit : (formPair pair).takeWhile (· != equalsSign) = formText pair.1 ∧
      (formPair pair).dropWhile (· != equalsSign) = equalsSign :: formText pair.2 :=
    takeWhile_before hname hsign
  rw [readPair, hsplit.1, hsplit.2, List.drop_one, List.tail_cons, decodeText_form,
    decodeText_form]

theorem formPair_units (pair : JsString × JsString) :
    ampersand ∉ formPair pair ∧ formPair pair ≠ [] := by
  refine ⟨fun hmem => ?_,by simp [formPair]⟩
  rcases List.mem_append.mp hmem with hmem | hmem
  · exact (formUnit_parts (formText_units _ _ hmem)).1 rfl
  · rcases List.mem_cons.mp hmem with he | hmem
    · exact absurd he (by decide)
    · exact (formUnit_parts (formText_units _ _ hmem)).1 rfl

theorem readSearch_form {pairs : List (JsString × JsString)} (h : pairs ≠ []) :
    readSearch ([ampersand].intercalate (pairs.map formPair)) =
      pairs.map (fun pair => (throughUtf8 pair.1, throughUtf8 pair.2)) := by
  have hapart : ∀ l ∈ pairs.map formPair, ampersand ∉ l := by
    intro l hl
    obtain ⟨pair,_,rfl⟩ := List.mem_map.mp hl
    exact (formPair_units pair).1
  have hkept : (pairs.map formPair).filter (· != []) = pairs.map formPair := by
    refine List.filter_eq_self.mpr (fun l hl => ?_)
    obtain ⟨pair,_,rfl⟩ := List.mem_map.mp hl
    exact bne_iff_ne.mpr (formPair_units pair).2
  rw [readSearch, List.splitOn_intercalate ampersand hapart (by simpa using h), hkept, List.map_map]
  exact List.map_congr_left (fun pair _ => readPair_formPair pair)

/-- Letters, digits, `-` and `_`, which mean nothing of their own in a path. -/
def isPathUnit (u : UInt16) : Bool :=
  let n := u.toNat
  (48 ≤ n && n ≤ 57) || (65 ≤ n && n ≤ 90) || (97 ≤ n && n ≤ 122) || n = 45 || n = 95

def PlainSegment (segment : JsString) : Prop := ∀ u ∈ segment, isPathUnit u = true

theorem pathUnit_parts {u : UInt16} (h : isPathUnit u = true) :
    u ≠ percentSign ∧ u.toNat < 128 ∧ u ≠ questionMark ∧ u ≠ solidus := by
  simp only [isPathUnit, Bool.or_eq_true, Bool.and_eq_true, decide_eq_true_eq] at h
  have hne : ∀ v : UInt16, (v.toNat = 37 ∨ v.toNat = 63 ∨ v.toNat = 47) → u ≠ v := by
    rintro v hv rfl
    omega
  exact ⟨hne _ (.inl rfl),by omega,hne _ (.inr (.inl rfl)),hne _ (.inr (.inr rfl))⟩

theorem pathText_intercalate (segments : List JsString) :
    pathText segments = [solidus].intercalate ([] :: segments) := by
  induction segments with
  | nil => rfl
  | cons segment segments ih =>
    rw [List.intercalate_cons_cons, List.nil_append, pathText, List.flatMap_cons]
    cases segments with
    | nil => rfl
    | cons next segments =>
      rw [List.intercalate_cons_cons, List.nil_append] at ih
      rw [List.intercalate_cons_cons, List.append_assoc]
      exact congrArg ((solidus :: segment) ++ ·) ih

theorem pathText_units {segments : List JsString} (h : ∀ s ∈ segments, PlainSegment s) :
    ∀ u ∈ pathText segments, (u != questionMark) = true := by
  intro u hu
  obtain ⟨segment,hsegment,hu⟩ := List.mem_flatMap.mp hu
  rcases List.mem_cons.mp hu with rfl | hu
  · decide
  · exact bne_iff_ne.mpr (pathUnit_parts (h segment hsegment u hu)).2.2.1

theorem splitOn_pathText {segments : List JsString} (h : ∀ s ∈ segments, PlainSegment s) :
    ((pathText segments).splitOn solidus).tail = segments := by
  have hapart : ∀ l ∈ [] :: segments, solidus ∉ l := by
    intro l hl hmem
    rcases List.mem_cons.mp hl with rfl | hl
    · cases hmem
    · exact (pathUnit_parts (h l hl _ hmem)).2.2.2 rfl
  rw [pathText_intercalate, List.splitOn_intercalate solidus hapart (List.cons_ne_nil _ _),
    List.tail_cons]

/-- The server reads the segments and the pairs; a lone surrogate in a pair is lost. -/
theorem readTarget_text {segments : List JsString} (h : ∀ s ∈ segments, PlainSegment s)
    (pairs : List (JsString × JsString)) :
    readTarget (pathText segments ++ searchText pairs) =
      (segments, pairs.map (fun pair => (throughUtf8 pair.1, throughUtf8 pair.2))) := by
  have hdecoded : segments.map decodeText = segments := by
    calc segments.map decodeText = segments.map id :=
          List.map_congr_left (fun s hs => decodeText_plain (fun u hu =>
            let parts := pathUnit_parts (h s hs u hu)
            ⟨parts.1,parts.2.1⟩))
      _ = segments := List.map_id _
  by_cases hpairs : pairs = []
  · have hpath := pathText_units h
    rw [searchText, if_pos hpairs, List.append_nil, readTarget,
      List.takeWhile_eq_self_iff.mpr hpath, List.dropWhile_eq_nil_iff.mpr hpath, splitOn_pathText h,
      hdecoded, hpairs]
    rfl
  · obtain ⟨htake,hdrop⟩ := takeWhile_before (pathText_units h)
      (by decide : (questionMark != questionMark) = false)
    rw [searchText, if_neg hpairs, readTarget, htake, hdrop, splitOn_pathText h, hdecoded,
      List.drop_one, List.tail_cons, readSearch_form hpairs]

end Tagwise.Js
