import Tagwise.Js.Format
import Tagwise.Js.Json

/-! Values written as JSON text, and texts read back into values. -/

namespace Tagwise.Js

def quote : UInt16 := 34
def comma : UInt16 := 44
def colon : UInt16 := 58
def backslash : UInt16 := 92
def openBracket : UInt16 := 91
def closeBracket : UInt16 := 93
def openBrace : UInt16 := 123
def closeBrace : UInt16 := 125

mutual

/-- `JSON.stringify` without blanks. -/
def Json.stringify : Json → JsString
  | .null => js "null"
  | .bool b => if b then js "true" else js "false"
  | .number text => text
  | .string s => jsonStringify s
  | .array elements => openBracket :: (stringifyElements elements ++ [closeBracket])
  | .object fields => openBrace :: (stringifyFields fields ++ [closeBrace])

def stringifyElements : List Json → JsString
  | [] => []
  | element :: elements => element.stringify ++
    if elements.isEmpty then [] else comma :: stringifyElements elements

def stringifyFields : List (JsString × Json) → JsString
  | [] => []
  | (name, value) :: fields => jsonStringify name ++ colon :: (value.stringify ++
    if fields.isEmpty then [] else comma :: stringifyFields fields)

end

def isJsonSpace (u : UInt16) : Bool := [9, 10, 13, 32].contains u

def skipSpace (s : JsString) : JsString := s.dropWhile isJsonSpace

/-- What stands behind a word that the text starts with. -/
def behind (word s : JsString) : Option JsString :=
  if word.isPrefixOf s then some (s.drop word.length) else none

def hexValue (u : UInt16) : Option Nat :=
  let n := u.toNat
  if 48 ≤ n ∧ n ≤ 57 then some (n - 48)
  else if 97 ≤ n ∧ n ≤ 102 then some (n - 87)
  else if 65 ≤ n ∧ n ≤ 70 then some (n - 55)
  else none

/-- The unit of the four digits behind `\u`. -/
def hexUnit (a b c d : UInt16) : Option UInt16 := do
  let a ← hexValue a
  let b ← hexValue b
  let c ← hexValue c
  let d ← hexValue d
  return UInt16.ofNat (a * 4096 + b * 256 + c * 16 + d)

/-- The escapes of one letter. -/
def escapedUnit (u : UInt16) : Option UInt16 :=
  [(34, 34), (92, 92), (47, 47), (98, 8), (102, 12), (110, 10), (114, 13), (116, 9)].lookup u

def prepend (u : UInt16) : JsString × JsString → JsString × JsString
  | (s, back) => (u :: s, back)

/-- A string from behind its opening quote, and what stands behind the closing one. -/
def readString : JsString → Option (JsString × JsString)
  | [] => none
  | u :: rest =>
    if u = quote then some ([], rest)
    else if u = backslash then
      match rest with
      | [] => none
      | e :: rest =>
        match escapedUnit e with
        | some v => (readString rest).map (prepend v)
        | none =>
          match rest with
          | a :: b :: c :: d :: rest =>
            match if e = 117 then hexUnit a b c d else none with
            | some v => (readString rest).map (prepend v)
            | none => none
          | _ => none
    else if u.toNat < 32 then none
    else (readString rest).map (prepend u)

def isDigit (u : UInt16) : Bool := 48 ≤ u.toNat && u.toNat ≤ 57

/-- One digit or more. -/
def scanDigits (s : JsString) : Option (JsString × JsString) :=
  if (s.takeWhile isDigit).isEmpty then none else some (s.takeWhile isDigit, s.dropWhile isDigit)

/-- A number does not go on behind a zero that it starts with. -/
def readInteger : JsString → Option (JsString × JsString)
  | 48 :: rest => some ([48], rest)
  | s => scanDigits s

def readFraction : JsString → Option (JsString × JsString)
  | 46 :: rest => (scanDigits rest).map (prepend 46)
  | s => some ([], s)

def readExponent : JsString → Option (JsString × JsString)
  | u :: rest =>
    if u = 101 ∨ u = 69 then
      match rest with
      | sign :: digits =>
        if sign = 43 ∨ sign = 45 then
          (scanDigits digits).map (fun r => prepend u (prepend sign r))
        else (scanDigits rest).map (prepend u)
      | [] => none
    else some ([], u :: rest)
  | [] => some ([], [])

def readUnsigned (s : JsString) : Option (JsString × JsString) := do
  let (integer, s) ← readInteger s
  let (fraction, s) ← readFraction s
  let (exponent, s) ← readExponent s
  return (integer ++ fraction ++ exponent, s)

def readNumber : JsString → Option (JsString × JsString)
  | 45 :: rest => (readUnsigned rest).map (prepend 45)
  | s => readUnsigned s

/-- `numberText` is the text that the number of a literal converts to. -/
def readScalar (numberText : JsString → JsString) (s : JsString) : Option (Json × JsString) :=
  match behind (js "null") s, behind (js "true") s, behind (js "false") s with
  | some back, _, _ => some (.null, back)
  | none, some back, _ => some (.bool true, back)
  | none, none, some back => some (.bool false, back)
  | none, none, none => (readNumber s).map (fun (text, back) => (.number (numberText text), back))

mutual

/-- A value at the front of a text, and what stands behind it. The depth is the fuel. -/
def readValue (numberText : JsString → JsString) : Nat → JsString → Option (Json × JsString)
  | 0, _ => none
  | fuel + 1, s =>
    match skipSpace s with
    | [] => none
    | u :: rest =>
      if u = quote then (readString rest).map (fun (text, back) => (.string text, back))
      else if u = openBracket then
        match behind [closeBracket] (skipSpace rest) with
        | some back => some (.array [], back)
        | none => (readElements numberText fuel rest).map (fun (es, back) => (.array es, back))
      else if u = openBrace then
        match behind [closeBrace] (skipSpace rest) with
        | some back => some (.object [], back)
        | none => (readFields numberText fuel rest).map (fun (fs, back) => (.object fs, back))
      else readScalar numberText (u :: rest)

/-- The elements up to the closing bracket. -/
def readElements (numberText : JsString → JsString) :
    Nat → JsString → Option (List Json × JsString)
  | 0, _ => none
  | fuel + 1, s =>
    match readValue numberText fuel s with
    | none => none
    | some (element, s) =>
      match behind [comma] (skipSpace s) with
      | some s => (readElements numberText fuel s).map (fun (es, back) => (element :: es, back))
      | none => (behind [closeBracket] (skipSpace s)).map (fun back => ([element], back))

def readFields (numberText : JsString → JsString) :
    Nat → JsString → Option (List (JsString × Json) × JsString)
  | 0, _ => none
  | fuel + 1, s =>
    match (behind [quote] (skipSpace s)).bind readString with
    | none => none
    | some (name, s) =>
      match (behind [colon] (skipSpace s)).bind (readValue numberText fuel) with
      | none => none
      | some (value, s) =>
        match behind [comma] (skipSpace s) with
        | some s =>
          (readFields numberText fuel s).map (fun (fs, back) => ((name, value) :: fs, back))
        | none => (behind [closeBrace] (skipSpace s)).map (fun back => ([(name, value)], back))

end

/-- `JSON.parse`; `none` for its `SyntaxError`. Every unit can open two levels of the descent at
most. -/
def Json.parse (numberText : JsString → JsString) (s : JsString) : Option Json :=
  match readValue numberText (2 * s.length + 1) s with
  | some (value, back) => if (skipSpace back).isEmpty then some value else none
  | none => none

theorem hexValue_hexDigit : ∀ n < 16, hexValue (hexDigit n) = some n := by
  decide

theorem hexUnit_digits (u : UInt16) :
    hexUnit (hexDigit (u.toNat / 4096)) (hexDigit (u.toNat / 256 % 16))
      (hexDigit (u.toNat / 16 % 16)) (hexDigit (u.toNat % 16)) = some u := by
  have hlt := u.toNat_lt
  simp only [hexUnit, hexValue_hexDigit _ (show u.toNat / 4096 < 16 by omega),
    hexValue_hexDigit _ (show u.toNat / 256 % 16 < 16 by omega),
    hexValue_hexDigit _ (show u.toNat / 16 % 16 < 16 by omega),
    hexValue_hexDigit _ (show u.toNat % 16 < 16 by omega)]
  refine congrArg some (UInt16.toNat_inj.mp ?_)
  rw [UInt16.toNat_ofNat']
  omega

theorem readString_quote (rest : JsString) : readString (quote :: rest) = some ([], rest) := by
  rw [readString.eq_def]
  exact if_pos rfl

theorem readString_plain {u : UInt16} (hquote : u ≠ quote) (hescape : u ≠ backslash)
    (hcontrol : 32 ≤ u.toNat) (rest : JsString) :
    readString (u :: rest) = (readString rest).map (prepend u) := by
  rw [readString.eq_def]
  simp only [if_neg hquote, if_neg hescape, if_neg (Nat.not_lt.mpr hcontrol)]

theorem readString_letter {e v : UInt16} (h : escapedUnit e = some v) (rest : JsString) :
    readString (backslash :: e :: rest) = (readString rest).map (prepend v) := by
  have hquote : backslash ≠ quote := by decide
  rw [readString.eq_def]
  simp only [if_neg hquote, ↓reduceIte, h]

theorem readString_hex (u : UInt16) (rest : JsString) :
    readString (backslash :: 117 :: hexDigit (u.toNat / 4096) :: hexDigit (u.toNat / 256 % 16) ::
      hexDigit (u.toNat / 16 % 16) :: hexDigit (u.toNat % 16) :: rest) =
      (readString rest).map (prepend u) := by
  have hletter : escapedUnit 117 = none := by decide
  have hquote : backslash ≠ quote := by decide
  rw [readString.eq_def]
  simp only [if_neg hquote, hletter, ↓reduceIte, hexUnit_digits]

theorem readString_unit (u : UInt16) (rest : JsString) :
    readString (jsonUnit u ++ rest) = (readString rest).map (prepend u) := by
  have hunit : ∀ n, u.toNat = n → u = UInt16.ofNat n := fun n h => by rw [← h, UInt16.ofNat_toNat]
  unfold jsonUnit
  simp only
  -- the seven escapes of one letter
  iterate 7
    split
    · rw [hunit _ ‹_›]
      exact readString_letter (by decide) rest
  split
  · exact readString_hex u rest
  · rename_i hquote hescape _ _ _ _ _ hplain
    simp only [Bool.or_eq_true, decide_eq_true_eq, not_or, Nat.not_lt] at hplain
    refine readString_plain (fun h => hquote ?_) (fun h => hescape ?_) hplain.1 rest
    · rw [h]; rfl
    · rw [h]; rfl

theorem readString_units (s rest : JsString) :
    readString (jsonUnits s ++ quote :: rest) = some (s, rest) := by
  induction s using jsonUnits.induct with
  | case1 => rw [jsonUnits, List.nil_append, readString_quote]
  | case2 u =>
    rw [jsonUnits, readString_unit, readString_quote]
    rfl
  | case3 u v s hpair ih =>
    have hplain : ∀ w : UInt16, 0xD800 ≤ w.toNat → w ≠ quote ∧ w ≠ backslash ∧ 32 ≤ w.toNat := by
      intro w hw
      refine ⟨fun h => ?_,fun h => ?_,by omega⟩
      · rw [h] at hw; exact absurd hw (by decide)
      · rw [h] at hw; exact absurd hw (by decide)
    have hp := hpair
    simp only [isHighSurrogate, isLowSurrogate, Bool.and_eq_true, decide_eq_true_eq] at hp
    obtain ⟨hu,hu',hu''⟩ := hplain u (by omega)
    obtain ⟨hv,hv',hv''⟩ := hplain v (by omega)
    rw [jsonUnits, if_pos hpair, List.cons_append, List.cons_append, readString_plain hu hu' hu'',
      readString_plain hv hv' hv'', ih]
    rfl
  | case4 u v s hpair ih =>
    rw [jsonUnits, if_neg hpair, List.append_assoc, readString_unit, ih]
    rfl

theorem jsonStringify_eq (s rest : JsString) :
    jsonStringify s ++ rest = quote :: (jsonUnits s ++ quote :: rest) := by
  have hquote : js "\"" = [quote] := by decide
  rw [jsonStringify, hquote, List.append_assoc, List.append_assoc]
  rfl

/-- A natural number in decimal. -/
def Natural (text : JsString) : Prop :=
  (∀ u ∈ text, isDigit u = true) ∧ (text = [48] ∨ ∃ u t, text = u :: t ∧ u ≠ 48)

/-- What stands behind a number does not go on with it. -/
def Stops (rest : JsString) : Prop :=
  ∀ u ∈ rest.head?, isDigit u = false ∧ u ≠ 46 ∧ u ≠ 101 ∧ u ≠ 69

theorem span_digits {text rest : JsString} (h : ∀ u ∈ text, isDigit u = true)
    (hrest : ∀ u ∈ rest.head?, isDigit u = false) :
    (text ++ rest).takeWhile isDigit = text ∧ (text ++ rest).dropWhile isDigit = rest := by
  have hnone : rest.takeWhile isDigit = [] ∧ rest.dropWhile isDigit = rest := by
    cases rest with
    | nil => exact ⟨rfl,rfl⟩
    | cons u rest =>
      have hu := hrest u rfl
      simp [hu]
  rw [List.takeWhile_append_of_pos h, List.dropWhile_append_of_pos h, hnone.1, hnone.2,
    List.append_nil]
  exact ⟨rfl,rfl⟩

theorem readNumber_natural {text rest : JsString} (h : Natural text) (hrest : Stops rest) :
    readNumber (text ++ rest) = some (text, rest) := by
  obtain ⟨hdigits,hhead⟩ := h
  have hfraction : readFraction rest = some ([], rest) := by
    cases rest with
    | nil => rfl
    | cons u rest =>
      obtain ⟨_,hdot,_⟩ := hrest u rfl
      simp [readFraction, hdot]
  have hexponent : readExponent rest = some ([], rest) := by
    cases rest with
    | nil => rfl
    | cons u rest =>
      obtain ⟨_,_,hlower,hupper⟩ := hrest u rfl
      simp [readExponent, hlower, hupper]
  have hinteger : readInteger (text ++ rest) = some (text, rest) := by
    rcases hhead with rfl | ⟨u,t,rfl,hzero⟩
    · rfl
    · obtain ⟨htake,hdrop⟩ := span_digits hdigits (fun v hv => (hrest v hv).1)
      have hread : readInteger (u :: t ++ rest) = scanDigits (u :: t ++ rest) := by
        simp [readInteger, hzero]
      rw [hread, scanDigits, htake, hdrop]
      rfl
  have hunsigned : readUnsigned (text ++ rest) = some (text, rest) := by
    simp [readUnsigned, hinteger, hfraction, hexponent]
  have hsign : ∀ u t, text = u :: t → u ≠ 45 := by
    intro u t ht hu
    have hdigit := hdigits u (ht ▸ List.mem_cons_self)
    rw [hu] at hdigit
    exact absurd hdigit (by decide)
  cases text with
  | nil => rcases hhead with hnil | ⟨u,t,hnil,_⟩ <;> cases hnil
  | cons u t =>
    rw [← hunsigned]
    simp [readNumber, hsign u t rfl]

theorem behind_append (word rest : JsString) : behind word (word ++ rest) = some rest := by
  rw [behind, if_pos (List.isPrefixOf_iff_prefix.mpr (List.prefix_append _ _)), List.drop_left]

theorem behind_other {u v : UInt16} (h : u ≠ v) (word rest : JsString) :
    behind (u :: word) (v :: rest) = none := by
  rw [behind, if_neg]
  simp [h]

mutual

/-- Every number in it is a natural one that converts to its own text. -/
def Json.Plain (numberText : JsString → JsString) : Json → Prop
  | .null | .bool _ | .string _ => True
  | .number text => Natural text ∧ numberText text = text
  | .array elements => PlainElements numberText elements
  | .object fields => PlainFields numberText fields

def PlainElements (numberText : JsString → JsString) : List Json → Prop
  | [] => True
  | element :: elements => element.Plain numberText ∧ PlainElements numberText elements

def PlainFields (numberText : JsString → JsString) : List (JsString × Json) → Prop
  | [] => True
  | (_, value) :: fields => value.Plain numberText ∧ PlainFields numberText fields

end

mutual

/-- The depth of the descent that reads the value. -/
def Json.depth : Json → Nat
  | .array elements => elementsDepth elements + 1
  | .object fields => fieldsDepth fields + 1
  | _ => 1

def elementsDepth : List Json → Nat
  | [] => 0
  | element :: elements => max element.depth (elementsDepth elements) + 1

def fieldsDepth : List (JsString × Json) → Nat
  | [] => 0
  | (_, value) :: fields => max value.depth (fieldsDepth fields) + 1

end

theorem skipSpace_kept {u : UInt16} (h : isJsonSpace u = false) (rest : JsString) :
    skipSpace (u :: rest) = u :: rest := by
  rw [skipSpace, List.dropWhile_cons_of_neg (by rw [h]; exact Bool.false_ne_true)]

theorem skipSpace_stringify {numberText : JsString → JsString} {value : Json}
    (h : value.Plain numberText) (rest : JsString) :
    skipSpace (value.stringify ++ rest) = value.stringify ++ rest ∧
      behind [closeBracket] (value.stringify ++ rest) = none := by
  have hhead : ∃ u t, value.stringify ++ rest = u :: t ∧ isJsonSpace u = false ∧
      closeBracket ≠ u := by
    cases value with
    | null => exact ⟨110,_,rfl,by decide,by decide⟩
    | bool b =>
      cases b with
      | true => exact ⟨116,_,rfl,by decide,by decide⟩
      | false => exact ⟨102,_,rfl,by decide,by decide⟩
    | string text =>
      rw [Json.stringify, jsonStringify_eq]
      exact ⟨quote,_,rfl,by decide,by decide⟩
    | array elements => exact ⟨openBracket,_,rfl,by decide,by decide⟩
    | object fields => exact ⟨openBrace,_,rfl,by decide,by decide⟩
    | number text =>
      obtain ⟨⟨hdigits,hhead⟩,_⟩ := h
      have hdigit : ∀ u : UInt16, isDigit u = true → isJsonSpace u = false ∧ closeBracket ≠ u := by
        intro u hu
        refine ⟨?_,fun he => ?_⟩
        · by_contra hspace
          rw [Bool.not_eq_false, isJsonSpace, List.contains_iff_mem] at hspace
          simp only [List.mem_cons, List.not_mem_nil, or_false] at hspace
          rcases hspace with rfl | rfl | rfl | rfl <;> exact absurd hu (by decide)
        · rw [← he] at hu
          exact absurd hu (by decide)
      cases text with
      | nil => rcases hhead with hnil | ⟨u,t,hnil,_⟩ <;> cases hnil
      | cons u t => exact ⟨u,_,rfl,hdigit u (hdigits u List.mem_cons_self)⟩
  obtain ⟨u,t,htext,hspace,hclose⟩ := hhead
  rw [htext, skipSpace_kept hspace]
  exact ⟨rfl,behind_other hclose [] t⟩

theorem readScalar_word {numberText : JsString → JsString} (rest : JsString) :
    readScalar numberText (js "null" ++ rest) = some (.null, rest) ∧
    readScalar numberText (js "true" ++ rest) = some (.bool true, rest) ∧
    readScalar numberText (js "false" ++ rest) = some (.bool false, rest) := by
  have hnull : js "null" = 110 :: js "ull" := by decide
  have htrue : js "true" = 116 :: js "rue" := by decide
  have hfalse : js "false" = 102 :: js "alse" := by decide
  refine ⟨?_,?_,?_⟩
  · rw [readScalar, behind_append]
  · rw [readScalar, behind_append, hnull, htrue, List.cons_append, behind_other (by decide)]
  · rw [readScalar, behind_append, hnull, htrue, hfalse, List.cons_append,
      behind_other (by decide), behind_other (by decide)]

theorem readScalar_number (numberText : JsString → JsString) {text rest : JsString}
    (h : Natural text) (hrest : Stops rest) :
    readScalar numberText (text ++ rest) = some (.number (numberText text), rest) := by
  have hnull : js "null" = 110 :: js "ull" := by decide
  have htrue : js "true" = 116 :: js "rue" := by decide
  have hfalse : js "false" = 102 :: js "alse" := by decide
  have hread := readNumber_natural h hrest
  cases text with
  | nil => rcases h.2 with hnil | ⟨u,t,hnil,_⟩ <;> cases hnil
  | cons u t =>
    have hword : ∀ v : UInt16, isDigit v = false → v ≠ u := by
      intro v hv he
      have hdigit := h.1 u List.mem_cons_self
      rw [← he, hv] at hdigit
      cases hdigit
    rw [List.cons_append] at hread ⊢
    rw [readScalar, hnull, htrue, hfalse, behind_other (hword 110 (by decide)),
      behind_other (hword 116 (by decide)), behind_other (hword 102 (by decide))]
    simp only [hread, Option.map_some]

theorem stops_cons {u : UInt16} (h : isDigit u = false ∧ u ≠ 46 ∧ u ≠ 101 ∧ u ≠ 69)
    (rest : JsString) : Stops (u :: rest) := by
  intro v hv
  cases hv
  exact h

theorem readValue_scalar {numberText : JsString → JsString} {fuel : Nat} {s : JsString}
    {u : UInt16} {rest : JsString} (hs : skipSpace s = u :: rest) (hquote : u ≠ quote)
    (hbracket : u ≠ openBracket) (hbrace : u ≠ openBrace) :
    readValue numberText (fuel + 1) s = readScalar numberText (u :: rest) := by
  rw [readValue, hs]
  simp only [if_neg hquote, if_neg hbracket, if_neg hbrace]

section RoundTrip
variable {numberText : JsString → JsString} {fuel : Nat} {s rest : JsString}

theorem readValue_string (text rest : JsString) :
    readValue numberText (fuel + 1) (jsonStringify text ++ rest) = some (.string text, rest) := by
  rw [jsonStringify_eq, readValue, skipSpace_kept (by decide)]
  simp only [↓reduceIte, readString_units, Option.map_some]

theorem readValue_emptyArray (rest : JsString) :
    readValue numberText (fuel + 1) (openBracket :: closeBracket :: rest) =
      some (.array [], rest) := by
  have hquote : openBracket ≠ quote := by decide
  have hback : behind [closeBracket] (closeBracket :: rest) = some rest :=
    behind_append [closeBracket] rest
  rw [readValue, skipSpace_kept (by decide)]
  simp only [if_neg hquote, ↓reduceIte]
  rw [skipSpace_kept (by decide), hback]

theorem readValue_array (h : behind [closeBracket] (skipSpace s) = none) :
    readValue numberText (fuel + 1) (openBracket :: s) =
      (readElements numberText fuel s).map (fun (es, back) => (.array es, back)) := by
  have hquote : openBracket ≠ quote := by decide
  rw [readValue, skipSpace_kept (by decide)]
  simp only [if_neg hquote, ↓reduceIte, h]

theorem readValue_emptyObject (rest : JsString) :
    readValue numberText (fuel + 1) (openBrace :: closeBrace :: rest) =
      some (.object [], rest) := by
  have hquote : openBrace ≠ quote := by decide
  have hbracket : openBrace ≠ openBracket := by decide
  have hback : behind [closeBrace] (closeBrace :: rest) = some rest :=
    behind_append [closeBrace] rest
  rw [readValue, skipSpace_kept (by decide)]
  simp only [if_neg hquote, if_neg hbracket, ↓reduceIte]
  rw [skipSpace_kept (by decide), hback]

theorem readValue_object (h : behind [closeBrace] (skipSpace s) = none) :
    readValue numberText (fuel + 1) (openBrace :: s) =
      (readFields numberText fuel s).map (fun (fs, back) => (.object fs, back)) := by
  have hquote : openBrace ≠ quote := by decide
  have hbracket : openBrace ≠ openBracket := by decide
  rw [readValue, skipSpace_kept (by decide)]
  simp only [if_neg hquote, if_neg hbracket, ↓reduceIte, h]

theorem readElements_last {element : Json}
    (h : readValue numberText fuel s = some (element, closeBracket :: rest)) :
    readElements numberText (fuel + 1) s = some ([element], rest) := by
  have hback : behind [closeBracket] (closeBracket :: rest) = some rest :=
    behind_append [closeBracket] rest
  have hcomma : behind [comma] (closeBracket :: rest) = none := behind_other (by decide) [] rest
  rw [readElements, h]
  simp only
  rw [skipSpace_kept (by decide), hcomma]
  simp only [hback, Option.map_some]

theorem readElements_next {element : Json} {elements : List Json} {s' : JsString}
    (h : readValue numberText fuel s = some (element, comma :: s'))
    (hnext : readElements numberText fuel s' = some (elements, rest)) :
    readElements numberText (fuel + 1) s = some (element :: elements, rest) := by
  have hback : behind [comma] (comma :: s') = some s' := behind_append [comma] s'
  rw [readElements, h]
  simp only
  rw [skipSpace_kept (by decide), hback]
  simp only [hnext, Option.map_some]

theorem readFields_name (name : JsString) {value : Json} {s' : JsString}
    (h : readValue numberText fuel s = some (value, s')) :
    readFields numberText (fuel + 1) (jsonStringify name ++ colon :: s) =
      match behind [comma] (skipSpace s') with
      | some s => (readFields numberText fuel s).map (fun (fs, back) => ((name, value) :: fs, back))
      | none => (behind [closeBrace] (skipSpace s')).map (fun back => ([(name, value)], back)) := by
  have hname : behind [quote] (quote :: (jsonUnits name ++ quote :: colon :: s)) =
      some (jsonUnits name ++ quote :: colon :: s) := behind_append [quote] _
  have hcolon : behind [colon] (colon :: s) = some s := behind_append [colon] s
  rw [jsonStringify_eq, readFields, skipSpace_kept (by decide), hname]
  simp only [Option.bind_some, readString_units]
  rw [skipSpace_kept (by decide), hcolon]
  simp only [Option.bind_some, h]

theorem readFields_last (name : JsString) {value : Json}
    (h : readValue numberText fuel s = some (value, closeBrace :: rest)) :
    readFields numberText (fuel + 1) (jsonStringify name ++ colon :: s) =
      some ([(name, value)], rest) := by
  have hback : behind [closeBrace] (closeBrace :: rest) = some rest :=
    behind_append [closeBrace] rest
  have hcomma : behind [comma] (closeBrace :: rest) = none := behind_other (by decide) [] rest
  rw [readFields_name name h, skipSpace_kept (by decide), hcomma]
  simp only [hback, Option.map_some]

theorem readFields_next (name : JsString) {value : Json} {fields : List (JsString × Json)}
    {s' : JsString} (h : readValue numberText fuel s = some (value, comma :: s'))
    (hnext : readFields numberText fuel s' = some (fields, rest)) :
    readFields numberText (fuel + 1) (jsonStringify name ++ colon :: s) =
      some ((name, value) :: fields, rest) := by
  have hback : behind [comma] (comma :: s') = some s' := behind_append [comma] s'
  rw [readFields_name name h, skipSpace_kept (by decide), hback]
  simp only [hnext, Option.map_some]

end RoundTrip

section RoundTrip
variable {numberText : JsString → JsString}

mutual

theorem readValue_stringify : ∀ (value : Json) {fuel : Nat} {rest : JsString},
    value.Plain numberText → value.depth ≤ fuel → Stops rest →
    readValue numberText fuel (value.stringify ++ rest) = some (value, rest)
  | value, 0, rest, _, hfuel, _ => by cases value <;> simp [Json.depth] at hfuel
  | .null, fuel + 1, rest, h, _, _ => by
    rw [readValue_scalar (skipSpace_stringify h rest).1 (by decide) (by decide) (by decide)]
    exact (readScalar_word rest).1
  | .bool true, fuel + 1, rest, h, _, _ => by
    rw [readValue_scalar (skipSpace_stringify h rest).1 (by decide) (by decide) (by decide)]
    exact (readScalar_word rest).2.1
  | .bool false, fuel + 1, rest, h, _, _ => by
    rw [readValue_scalar (skipSpace_stringify h rest).1 (by decide) (by decide) (by decide)]
    exact (readScalar_word rest).2.2
  | .number text, fuel + 1, rest, h, _, hrest => by
    have hskip := (skipSpace_stringify h rest).1
    obtain ⟨hnatural,htext⟩ := h
    have hscalar := readScalar_number numberText hnatural hrest
    rw [htext] at hscalar
    rw [Json.stringify] at hskip ⊢
    cases text with
    | nil => rcases hnatural.2 with hnil | ⟨u,t,hnil,_⟩ <;> cases hnil
    | cons u t =>
      have hdigit := hnatural.1 u List.mem_cons_self
      have hother : ∀ v : UInt16, isDigit v = false → u ≠ v := by
        intro v hv he
        rw [he, hv] at hdigit
        cases hdigit
      rw [readValue_scalar hskip (hother _ (by decide)) (hother _ (by decide))
        (hother _ (by decide))]
      exact hscalar
  | .string text, fuel + 1, rest, _, _, _ => readValue_string text rest
  | .array [], fuel + 1, rest, _, _, _ => readValue_emptyArray rest
  | .array (element :: elements), fuel + 1, rest, h, hfuel, _ => by
    have helements := readElements_stringify (element :: elements) (by simp) h
      (Nat.le_of_succ_le_succ hfuel) rest
    have hstart : behind [closeBracket] (skipSpace
        (stringifyElements (element :: elements) ++ closeBracket :: rest)) = none := by
      rw [stringifyElements, List.append_assoc]
      obtain ⟨hskip,hclose⟩ := skipSpace_stringify h.1
        ((if elements.isEmpty then [] else comma :: stringifyElements elements) ++
          closeBracket :: rest)
      rw [hskip, hclose]
    rw [Json.stringify, List.cons_append, List.append_assoc, List.singleton_append,
      readValue_array hstart, helements]
    rfl
  | .object [], fuel + 1, rest, _, _, _ => readValue_emptyObject rest
  | .object ((name, value) :: fields), fuel + 1, rest, h, hfuel, _ => by
    have hfields := readFields_stringify ((name, value) :: fields) (by simp) h
      (Nat.le_of_succ_le_succ hfuel) rest
    have hstart : behind [closeBrace] (skipSpace
        (stringifyFields ((name, value) :: fields) ++ closeBrace :: rest)) = none := by
      rw [stringifyFields, List.append_assoc, jsonStringify_eq, skipSpace_kept (by decide)]
      exact behind_other (by decide) [] _
    rw [Json.stringify, List.cons_append, List.append_assoc, List.singleton_append,
      readValue_object hstart, hfields]
    rfl

theorem readElements_stringify : ∀ (elements : List Json) {fuel : Nat}, elements ≠ [] →
    PlainElements numberText elements → elementsDepth elements ≤ fuel → ∀ rest : JsString,
    readElements numberText fuel (stringifyElements elements ++ closeBracket :: rest) =
      some (elements, rest)
  | [], _, hne, _, _, _ => absurd rfl hne
  | element :: elements, 0, _, _, hfuel, _ => by simp [elementsDepth] at hfuel
  | [element], fuel + 1, _, h, hfuel, rest => by
    rw [elementsDepth] at hfuel
    rw [stringifyElements, List.isEmpty_nil, if_pos rfl, List.append_nil]
    exact readElements_last (readValue_stringify element h.1 (by omega)
      (stops_cons (by decide) rest))
  | element :: next :: elements, fuel + 1, _, h, hfuel, rest => by
    rw [elementsDepth] at hfuel
    rw [stringifyElements, List.isEmpty_cons, if_neg Bool.false_ne_true, List.append_assoc]
    exact readElements_next
      (readValue_stringify element h.1 (by omega) (stops_cons (by decide) _))
      (readElements_stringify (next :: elements) (by simp) h.2 (by omega) rest)

theorem readFields_stringify : ∀ (fields : List (JsString × Json)) {fuel : Nat}, fields ≠ [] →
    PlainFields numberText fields → fieldsDepth fields ≤ fuel → ∀ rest : JsString,
    readFields numberText fuel (stringifyFields fields ++ closeBrace :: rest) = some (fields, rest)
  | [], _, hne, _, _, _ => absurd rfl hne
  | (name, value) :: fields, 0, _, _, hfuel, _ => by simp [fieldsDepth] at hfuel
  | [(name, value)], fuel + 1, _, h, hfuel, rest => by
    rw [fieldsDepth] at hfuel
    rw [stringifyFields, List.isEmpty_nil, if_pos rfl, List.append_nil, List.append_assoc,
      List.cons_append]
    exact readFields_last name (readValue_stringify value h.1 (by omega)
      (stops_cons (by decide) rest))
  | (name, value) :: next :: fields, fuel + 1, _, h, hfuel, rest => by
    rw [fieldsDepth] at hfuel
    rw [stringifyFields, List.isEmpty_cons, if_neg Bool.false_ne_true, List.append_assoc,
      List.cons_append, List.append_assoc]
    exact readFields_next name
      (readValue_stringify value h.1 (by omega) (stops_cons (by decide) _))
      (readFields_stringify (next :: fields) (by simp) h.2 (by omega) rest)

end

mutual

/-- The text is long enough for the descent. -/
theorem depth_le : ∀ value : Json, value.Plain numberText →
    value.depth ≤ 2 * value.stringify.length
  | .null, _ => by decide
  | .bool true, _ => by decide
  | .bool false, _ => by decide
  | .number text, h => by
    have hpos : 0 < text.length := by
      rcases h.1.2 with ht | ⟨u,t,ht,_⟩ <;> simp [ht]
    simp only [Json.depth, Json.stringify]
    omega
  | .string text, _ => by
    have hlength := congrArg List.length (jsonStringify_eq text [])
    simp only [List.append_nil, List.length_cons, List.length_append] at hlength
    simp only [Json.depth, Json.stringify]
    omega
  | .array elements, h => by
    have hle := elementsDepth_le elements h
    rw [Json.depth, Json.stringify, List.length_cons, List.length_append, List.length_singleton]
    omega
  | .object fields, h => by
    have hle := fieldsDepth_le fields h
    rw [Json.depth, Json.stringify, List.length_cons, List.length_append, List.length_singleton]
    omega

theorem elementsDepth_le : ∀ elements : List Json, PlainElements numberText elements →
    elementsDepth elements ≤ 2 * (stringifyElements elements).length + 1
  | [], _ => Nat.zero_le _
  | [element], h => by
    have hle := depth_le element h.1
    rw [stringifyElements, List.length_append]
    simp only [elementsDepth]
    omega
  | element :: next :: elements, h => by
    have hle := depth_le element h.1
    have hrest := elementsDepth_le (next :: elements) h.2
    rw [elementsDepth, stringifyElements, List.isEmpty_cons, if_neg Bool.false_ne_true,
      List.length_append, List.length_cons]
    omega

theorem fieldsDepth_le : ∀ fields : List (JsString × Json), PlainFields numberText fields →
    fieldsDepth fields ≤ 2 * (stringifyFields fields).length + 1
  | [], _ => Nat.zero_le _
  | [(name, value)], h => by
    have hle := depth_le value h.1
    rw [stringifyFields, List.length_append, List.length_cons, List.length_append]
    simp only [fieldsDepth]
    omega
  | (name, value) :: next :: fields, h => by
    have hle := depth_le value h.1
    have hrest := fieldsDepth_le (next :: fields) h.2
    rw [fieldsDepth, stringifyFields, List.isEmpty_cons, if_neg Bool.false_ne_true,
      List.length_append, List.length_cons, List.length_append, List.length_cons]
    omega

end

/-- What is written is read back. -/
theorem parse_stringify {value : Json} (h : value.Plain numberText) :
    Json.parse numberText value.stringify = some value := by
  have hnil : Stops [] := fun u hu => by cases hu
  have hread := readValue_stringify value h
    (Nat.le_trans (depth_le value h) (Nat.le_succ _)) hnil
  rw [List.append_nil] at hread
  rw [Json.parse, hread]
  rfl

end RoundTrip

/-- No surrogate stands alone. -/
def Paired (s : JsString) : Prop := ∀ n ∈ codePoints s, isSurrogate n = false

theorem flatMap_codePoints (s : JsString) : (codePoints s).flatMap encodeCodePoint = s := by
  have hunit : ∀ u : UInt16, encodeCodePoint u.toNat = [u] := fun u => by
    rw [encodeCodePoint_small u.toNat_lt, UInt16.ofNat_toNat]
  induction s using codePoints.induct with
  | case1 => rfl
  | case2 u => simp [codePoints, hunit]
  | case3 u v rest hp ih =>
    rw [codePoints, if_pos hp, List.flatMap_cons, ih]
    simp only [isHighSurrogate, isLowSurrogate, Bool.and_eq_true, decide_eq_true_eq] at hp
    have hbig : ¬ 0x10000 + (u.toNat - 0xD800) * 0x400 + (v.toNat - 0xDC00) < 0x10000 := by omega
    have hu : 0xD800 + (0x10000 + (u.toNat - 0xD800) * 0x400 + (v.toNat - 0xDC00) - 0x10000) /
        0x400 = u.toNat := by omega
    have hv : 0xDC00 + (0x10000 + (u.toNat - 0xD800) * 0x400 + (v.toNat - 0xDC00) - 0x10000) %
        0x400 = v.toNat := by omega
    rw [encodeCodePoint, if_neg hbig, hu, hv, UInt16.ofNat_toNat, UInt16.ofNat_toNat]
    rfl
  | case4 u v rest hp ih =>
    rw [codePoints, if_neg hp, List.flatMap_cons, ih, hunit]
    rfl

theorem throughUtf8_paired {s : JsString} (h : Paired s) : throughUtf8 s = s := by
  have hscalar : ∀ n ∈ codePoints s,
      (if isSurrogate n then Char.ofNat 0xFFFD else Char.ofNat n).toNat = n := by
    intro n hn
    have hs := h n hn
    have hlt := codePoints_lt s n hn
    have hvalid : n.isValidChar := by
      simp only [isSurrogate, Bool.and_eq_false_iff, decide_eq_false_iff_not] at hs
      simp only [Nat.isValidChar]
      omega
    rw [if_neg (by rw [hs]; exact Bool.false_ne_true), Char.ofNat, dif_pos hvalid]
    rfl
  calc throughUtf8 s = ((codePoints s).map (fun n => n)).flatMap encodeCodePoint := by
        rw [throughUtf8, scalarValues, List.flatMap_map, List.flatMap_map]
        exact List.flatMap_congr (fun n hn => by rw [hscalar n hn])
    _ = s := by rw [List.map_id', flatMap_codePoints]

theorem paired_nil : Paired [] := fun n hn => by cases hn

theorem paired_cons {u : UInt16} (hu : isSurrogate u.toNat = false) {s : JsString}
    (hs : Paired s) : Paired (u :: s) := by
  have hhigh : isHighSurrogate u.toNat = false := by
    simp only [isSurrogate, isHighSurrogate, Bool.and_eq_false_iff, decide_eq_false_iff_not] at hu ⊢
    omega
  intro n hn
  rw [codePoints_cons hhigh] at hn
  rcases List.mem_cons.mp hn with rfl | hn
  · exact hu
  · exact hs n hn

theorem paired_append {s t : JsString} (hs : Paired s) (ht : Paired t) :
    Paired (s ++ t) := by
  induction s using codePoints.induct with
  | case1 => exact ht
  | case2 u => exact paired_cons (hs u.toNat List.mem_cons_self) ht
  | case3 u v rest hp ih =>
    intro n hn
    rw [Paired, codePoints, if_pos hp] at hs
    rw [List.cons_append, List.cons_append, codePoints, if_pos hp] at hn
    rcases List.mem_cons.mp hn with hn | hn
    · exact hs n (hn ▸ List.mem_cons_self)
    · exact ih (fun m hm => hs m (List.mem_cons_of_mem _ hm)) n hn
  | case4 u v rest hp ih =>
    rw [Paired, codePoints, if_neg hp] at hs
    exact paired_cons (hs _ List.mem_cons_self)
      (ih (fun m hm => hs m (List.mem_cons_of_mem _ hm)))

theorem paired_ascii {s : JsString} (h : Ascii s) : Paired s := by
  intro n hn
  rw [codePoints_ascii h] at hn
  obtain ⟨u,hu,rfl⟩ := List.mem_map.mp hn
  have hlt := h u hu
  simp only [isSurrogate, Bool.and_eq_false_iff, decide_eq_false_iff_not]
  omega

/-- For the words of the grammar, which are all ASCII. -/
theorem paired_word {s : JsString} (h : s.all (fun u => u.toNat < 128) = true) : Paired s :=
  paired_ascii (fun u hu => of_decide_eq_true (List.all_eq_true.mp h u hu))

theorem hexDigit_ascii : ∀ n < 16, (hexDigit n).toNat < 128 := by
  decide

theorem paired_unit (u : UInt16) : Paired (jsonUnit u) := by
  have hlt := u.toNat_lt
  unfold jsonUnit
  simp only
  split
  · exact paired_word (by decide)
  split
  · exact paired_word (by decide)
  split
  · exact paired_word (by decide)
  split
  · exact paired_word (by decide)
  split
  · exact paired_word (by decide)
  split
  · exact paired_word (by decide)
  split
  · exact paired_word (by decide)
  split
  · refine paired_append (paired_word (by decide)) (paired_ascii ?_)
    intro v hv
    simp only [List.mem_cons, List.not_mem_nil, or_false] at hv
    rcases hv with rfl | rfl | rfl | rfl
    all_goals exact hexDigit_ascii _ (by omega)
  · rename_i hplain
    simp only [Bool.or_eq_true, not_or, Bool.not_eq_true] at hplain
    exact paired_cons hplain.2 paired_nil

theorem paired_units (s : JsString) : Paired (jsonUnits s) := by
  induction s using jsonUnits.induct with
  | case1 => exact paired_nil
  | case2 u => exact paired_unit u
  | case3 u v s hpair ih =>
    intro n hn
    rw [jsonUnits, if_pos hpair, codePoints, if_pos hpair] at hn
    rcases List.mem_cons.mp hn with hn | hn
    · simp only [isHighSurrogate, isLowSurrogate, Bool.and_eq_true, decide_eq_true_eq] at hpair
      simp only [isSurrogate, Bool.and_eq_false_iff, decide_eq_false_iff_not]
      omega
    · exact ih n hn
  | case4 u v s hpair ih =>
    rw [jsonUnits, if_neg hpair]
    exact paired_append (paired_unit u) ih

/-- A lone surrogate is escaped, so that nothing is lost on the way. -/
theorem paired_jsonStringify (s : JsString) : Paired (jsonStringify s) := by
  have hquote : Paired (js "\"") := paired_word (by decide)
  exact paired_append (paired_append hquote (paired_units s)) hquote

section Written
variable {numberText : JsString → JsString}

mutual

theorem paired_stringify : ∀ value : Json, value.Plain numberText →
    Paired value.stringify
  | .null, _ => paired_word (by decide)
  | .bool true, _ => paired_word (by decide)
  | .bool false, _ => paired_word (by decide)
  | .number text, h => by
    refine paired_ascii (fun u hu => ?_)
    have hdigit := h.1.1 u hu
    simp only [isDigit, Bool.and_eq_true, decide_eq_true_eq] at hdigit
    omega
  | .string text, _ => paired_jsonStringify text
  | .array elements, h => by
    rw [Json.stringify]
    exact paired_cons (by decide) (paired_append (paired_elements elements h)
      (paired_cons (by decide) paired_nil))
  | .object fields, h => by
    rw [Json.stringify]
    exact paired_cons (by decide) (paired_append (paired_fields fields h)
      (paired_cons (by decide) paired_nil))

theorem paired_elements : ∀ elements : List Json, PlainElements numberText elements →
    Paired (stringifyElements elements)
  | [], _ => paired_nil
  | element :: elements, h => by
    rw [stringifyElements]
    refine paired_append (paired_stringify element h.1) ?_
    split
    · exact paired_nil
    · exact paired_cons (by decide) (paired_elements elements h.2)

theorem paired_fields : ∀ fields : List (JsString × Json), PlainFields numberText fields →
    Paired (stringifyFields fields)
  | [], _ => paired_nil
  | (name, value) :: fields, h => by
    rw [stringifyFields]
    refine paired_append (paired_jsonStringify name) (paired_cons (by decide)
      (paired_append (paired_stringify value h.1) ?_))
    split
    · exact paired_nil
    · exact paired_cons (by decide) (paired_fields fields h.2)

end

/-- A value that is written, sent and read arrives. -/
theorem parse_sent {value : Json} (h : value.Plain numberText) :
    Json.parse numberText (throughUtf8 value.stringify) = some value := by
  rw [throughUtf8_paired (paired_stringify value h), parse_stringify h]

end Written

end Tagwise.Js
