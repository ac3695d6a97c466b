import Mathlib.Data.List.Basic
import Tagwise.Js.CaseTables

namespace Tagwise.Js

/-- A JavaScript string: any sequence of UTF-16 code units, lone surrogates included. -/
abbrev JsString := List UInt16

def isHighSurrogate (n : Nat) : Bool := 0xD800 ≤ n && n < 0xDC00
def isLowSurrogate (n : Nat) : Bool := 0xDC00 ≤ n && n < 0xE000
def isSurrogate (n : Nat) : Bool := 0xD800 ≤ n && n < 0xE000

/-- The code points of a string; a surrogate without its partner stands for itself. -/
def codePoints : JsString → List Nat
  | [] => []
  | [u] => [u.toNat]
  | u :: v :: rest =>
    if isHighSurrogate u.toNat && isLowSurrogate v.toNat then
      (0x10000 + (u.toNat - 0xD800) * 0x400 + (v.toNat - 0xDC00)) :: codePoints rest
    else u.toNat :: codePoints (v :: rest)

def encodeCodePoint (n : Nat) : JsString :=
  if n < 0x10000 then [UInt16.ofNat n]
  else [UInt16.ofNat (0xD800 + (n - 0x10000) / 0x400), UInt16.ofNat (0xDC00 + (n - 0x10000) % 0x400)]

/-- The UTF-16 form of a sequence of Unicode scalar values. -/
def utf16 (s : String) : JsString := s.toList.flatMap (fun c => encodeCodePoint c.toNat)

def inRuns (runs : List (Nat × Nat)) (c : Nat) : Bool :=
  runs.any (fun (first, last) => first ≤ c && c ≤ last)

/-- The context rule of the one conditional lowercase mapping: a capital sigma
after a cased letter and not before one, case-ignorable characters skipped. -/
def finalSigma (before after : List Nat) : Bool :=
  let cased (cs : List Nat) := match cs.dropWhile (inRuns caseIgnorableRuns) with
    | [] => false
    | c :: _ => inRuns casedRuns c
  cased before && !cased after

def lowerCodePoint (c : Nat) : List Nat :=
  if c = 0x130 then [0x69, 0x307]
  else match lowerRuns.find? (fun (first, last, stride, _) =>
      first ≤ c && c ≤ last && (c - first) % stride == 0) with
    | some (first, _, _, image) => [image + (c - first)]
    | none => [c]

/-- `before` holds the code points already read, nearest first. -/
def lowerCodePoints (before : List Nat) : List Nat → List Nat
  | [] => []
  | c :: after =>
    (if c = 0x3A3 then [if finalSigma before after then 0x3C2 else 0x3C3] else lowerCodePoint c) ++
      lowerCodePoints (c :: before) after

/-- `String.prototype.toLowerCase`: the full, locale-independent Unicode mapping. -/
def toLowerCase (s : JsString) : JsString :=
  (lowerCodePoints [] (codePoints s)).flatMap encodeCodePoint

/-- The scalar values an encoder reads off a string: lone surrogates become U+FFFD. -/
def scalarValues (s : JsString) : List Char :=
  (codePoints s).map (fun n => if isSurrogate n then Char.ofNat 0xFFFD else Char.ofNat n)

/-- `TextEncoder.encode`. -/
def encodeUtf8 (s : JsString) : List UInt8 := (scalarValues s).flatMap String.utf8EncodeChar

/-- What is left of a string that has been sent as UTF-8: lone surrogates become U+FFFD. -/
def throughUtf8 (s : JsString) : JsString :=
  (scalarValues s).flatMap (fun c => encodeCodePoint c.toNat)

/-- The string of `String.fromCharCode` over single bytes. -/
def fromCharCodes (bytes : List UInt8) : JsString := bytes.map UInt8.toUInt16

/-- A string literal of the source. -/
def js (s : String) : JsString := utf16 s

/-- White space and line ends, as the language lists them. -/
def isTrimUnit (u : UInt16) : Bool :=
  inRuns [(0x09, 0x0D), (0x20, 0x20), (0xA0, 0xA0), (0x1680, 0x1680), (0x2000, 0x200A),
    (0x2028, 0x2029), (0x202F, 0x202F), (0x205F, 0x205F), (0x3000, 0x3000), (0xFEFF, 0xFEFF)]
    u.toNat

def trim (s : JsString) : JsString :=
  ((s.dropWhile isTrimUnit).reverse.dropWhile isTrimUnit).reverse

example : trim (js "\t a b \n") = js "a b" := by decide

theorem trim_fixed {s : JsString} (h : ∀ u ∈ s, isTrimUnit u = false) : trim s = s := by
  have hkept : ∀ t : JsString, (∀ u ∈ t, isTrimUnit u = false) → t.dropWhile isTrimUnit = t := by
    intro t ht
    cases t with
    | nil => rfl
    | cons u t =>
      rw [List.dropWhile_cons, if_neg]
      rw [ht u List.mem_cons_self]
      exact Bool.false_ne_true
  have hreverse : ∀ u ∈ s.reverse, isTrimUnit u = false :=
    fun u hu => h u (List.mem_reverse.mp hu)
  rw [trim, hkept s h, hkept s.reverse hreverse, List.reverse_reverse]

def Ascii (s : JsString) : Prop := ∀ u ∈ s, u.toNat < 128

theorem codePoints_plain {s : JsString} (h : ∀ u ∈ s, u.toNat < 0xD800) :
    codePoints s = s.map UInt16.toNat := by
  induction s using codePoints.induct with
  | case1 => rfl
  | case2 u => rfl
  | case3 u v rest hp _ =>
    have hu := h u (by simp)
    simp [isHighSurrogate] at hp
    omega
  | case4 u v rest hp ih =>
    rw [codePoints, if_neg hp, ih (fun w hw => h w (List.mem_cons_of_mem _ hw))]
    rfl

theorem codePoints_ascii {s : JsString} (h : Ascii s) : codePoints s = s.map UInt16.toNat :=
  codePoints_plain (fun u hu => by have := h u hu; omega)

theorem codePoints_lt (s : JsString) : ∀ n ∈ codePoints s, n < 0x110000 := by
  induction s using codePoints.induct with
  | case1 => intro n hn; cases hn
  | case2 u =>
    intro n hn
    have := u.toNat_lt
    simp only [codePoints, List.mem_singleton] at hn
    omega
  | case3 u v rest hp ih =>
    rw [codePoints, if_pos hp]
    simp only [isHighSurrogate, isLowSurrogate, Bool.and_eq_true, decide_eq_true_eq] at hp
    intro n hn
    rcases List.mem_cons.mp hn with he | hn
    · omega
    · exact ih n hn
  | case4 u v rest hp ih =>
    rw [codePoints, if_neg hp]
    have := u.toNat_lt
    intro n hn
    rcases List.mem_cons.mp hn with rfl | hn
    · omega
    · exact ih n hn

theorem encodeCodePoint_small {n : Nat} (h : n < 0x10000) : encodeCodePoint n = [UInt16.ofNat n] := by
  simp [encodeCodePoint, h]

def lowerAscii (n : Nat) : Nat := if 65 ≤ n ∧ n ≤ 90 then n + 32 else n

theorem lowerAscii_lt {n : Nat} (h : n < 128) : lowerAscii n < 128 := by
  unfold lowerAscii
  split <;> omega

/-- On ASCII the Unicode table is the ASCII mapping. -/
theorem lowerCodePoint_ascii : ∀ n < 128, lowerCodePoint n = [lowerAscii n] := by
  decide +kernel

/-- Code points that lowercase one by one, none a capital sigma. -/
theorem lowerCodePoints_map {cs : List Nat} {f : Nat → Nat} (before : List Nat)
    (h : ∀ c ∈ cs, c ≠ 0x3A3 ∧ lowerCodePoint c = [f c]) : lowerCodePoints before cs = cs.map f := by
  induction cs generalizing before with
  | nil => rfl
  | cons c cs ih =>
    obtain ⟨hs,hc⟩ := h c (by simp)
    rw [lowerCodePoints, if_neg hs, hc, ih _ (fun d hd => h d (List.mem_cons_of_mem _ hd))]
    rfl

theorem lowerCodePoints_ascii {cs : List Nat} (before : List Nat) (h : ∀ c ∈ cs, c < 128) :
    lowerCodePoints before cs = cs.map lowerAscii :=
  lowerCodePoints_map before (fun c hc =>
    ⟨by have := h c hc; omega, lowerCodePoint_ascii c (h c hc)⟩)

/-- What holds of the whole output holds of each code point's own image. -/
theorem lowerCodePoints_images {P : Nat → Prop} {cs : List Nat} (before : List Nat)
    (h : ∀ d ∈ lowerCodePoints before cs, P d) :
    ∀ c ∈ cs, (c = 0x3A3 ∧ (P 0x3C2 ∨ P 0x3C3)) ∨ ∀ d ∈ lowerCodePoint c, P d := by
  induction cs generalizing before with
  | nil => intro c hc; cases hc
  | cons e cs ih =>
    rw [lowerCodePoints] at h
    intro c hc
    rcases List.mem_cons.mp hc with rfl | hc
    · by_cases hs : c = 0x3A3
      · left
        refine ⟨hs, ?_⟩
        rw [if_pos hs] at h
        have := h _ (List.mem_append_left _ List.mem_cons_self)
        split at this
        · exact Or.inl this
        · exact Or.inr this
      · right
        intro d hd
        exact h d (List.mem_append_left _ (by rwa [if_neg hs]))
    · exact ih _ (fun d hd => h d (List.mem_append_right _ hd)) c hc

theorem codePoints_ne_nil {s : JsString} (h : s ≠ []) : codePoints s ≠ [] := by
  cases s using codePoints.induct_unfolding with
  | case1 => exact absurd rfl h
  | case2 u => simp
  | case3 => simp
  | case4 => simp

theorem lowerCodePoint_ne_nil (c : Nat) : lowerCodePoint c ≠ [] := by
  rw [lowerCodePoint]
  split
  · simp
  · split <;> simp

theorem encodeCodePoint_ne_nil (n : Nat) : encodeCodePoint n ≠ [] := by
  rw [encodeCodePoint]
  split <;> simp

/-- Lowercasing leaves something of any text. -/
theorem toLowerCase_ne_nil {s : JsString} (h : s ≠ []) : toLowerCase s ≠ [] := by
  intro hnil
  obtain ⟨c,cs,hc⟩ := List.exists_cons_of_ne_nil (codePoints_ne_nil h)
  have hnone : ∀ d ∈ lowerCodePoints [] (codePoints s), False := by
    intro d hd
    exact encodeCodePoint_ne_nil d (List.flatMap_eq_nil_iff.mp hnil d hd)
  rcases lowerCodePoints_images [] hnone c (hc ▸ List.mem_cons_self) with ⟨_,h⟩ | h
  · exact h.elim id id
  · exact lowerCodePoint_ne_nil c (List.eq_nil_iff_forall_not_mem.mpr h)

theorem toLowerCase_ascii {s : JsString} (h : Ascii s) :
    toLowerCase s = s.map (fun u => UInt16.ofNat (lowerAscii u.toNat)) := by
  have hn : ∀ c ∈ s.map UInt16.toNat, c < 128 := by
    intro c hc
    obtain ⟨u, hu, rfl⟩ := List.mem_map.mp hc
    exact h u hu
  rw [toLowerCase, codePoints_ascii h, lowerCodePoints_ascii [] hn]
  induction s with
  | nil => rfl
  | cons u s ih =>
    have hu := lowerAscii_lt (h u (by simp))
    simp only [List.map_cons, List.flatMap_cons]
    rw [ih (fun v hv => h v (List.mem_cons_of_mem _ hv))
      (fun c hc => hn c (by simp only [List.map_cons]; exact List.mem_cons_of_mem _ hc)),
      encodeCodePoint_small (by omega)]
    rfl

/-- ASCII text without capitals is its own lowercase. -/
theorem toLowerCase_fixed {s : JsString} (h : ∀ u ∈ s, u.toNat < 128 ∧ ¬(65 ≤ u.toNat ∧ u.toNat ≤ 90)) :
    toLowerCase s = s := by
  rw [toLowerCase_ascii (fun u hu => (h u hu).1)]
  calc s.map (fun u => UInt16.ofNat (lowerAscii u.toNat)) = s.map id := by
        apply List.map_congr_left
        intro u hu
        simp [lowerAscii, (h u hu).2]
    _ = s := List.map_id s

theorem codePoints_cons {u : UInt16} (h : isHighSurrogate u.toNat = false) (rest : JsString) :
    codePoints (u :: rest) = u.toNat :: codePoints rest := by
  cases rest with
  | nil => rfl
  | cons v rest => rw [codePoints, if_neg (by simp [h])]

theorem toNat_unit {n : Nat} (h : n < 0x10000) : (UInt16.ofNat n).toNat = n := by
  simp only [UInt16.toNat_ofNat']
  omega

/-- Encoding a scalar value and reading it back. -/
theorem codePoints_encode {n : Nat} (hs : isSurrogate n = false) (hn : n < 0x110000)
    (rest : JsString) : codePoints (encodeCodePoint n ++ rest) = n :: codePoints rest := by
  simp only [isSurrogate, Bool.and_eq_false_iff, decide_eq_false_iff_not] at hs
  by_cases hb : n < 0x10000
  · rw [encodeCodePoint_small hb, List.singleton_append, codePoints_cons, toNat_unit hb]
    simp only [toNat_unit hb, isHighSurrogate, Bool.and_eq_false_iff, decide_eq_false_iff_not]
    omega
  · have hh : 0xD800 + (n - 0x10000) / 0x400 < 0x10000 := by omega
    have hl : 0xDC00 + (n - 0x10000) % 0x400 < 0x10000 := by omega
    have hn : 0x10000 + (0xD800 + (n - 0x10000) / 0x400 - 0xD800) * 0x400 +
        (0xDC00 + (n - 0x10000) % 0x400 - 0xDC00) = n := by omega
    simp only [encodeCodePoint, hb, ↓reduceIte, List.cons_append, List.nil_append]
    rw [codePoints, toNat_unit hh, toNat_unit hl, if_pos, hn]
    · simp only [isHighSurrogate, isLowSurrogate, Bool.and_eq_true, decide_eq_true_eq]
      omega

theorem char_scalar (c : Char) : isSurrogate c.toNat = false ∧ c.toNat < 0x110000 := by
  have hv : c.toNat < 0xD800 ∨ (0xDFFF < c.toNat ∧ c.toNat < 0x110000) := c.valid
  simp only [isSurrogate, Bool.and_eq_false_iff, decide_eq_false_iff_not]
  omega

theorem codePoints_utf16 (cs : List Char) :
    codePoints (cs.flatMap (fun c => encodeCodePoint c.toNat)) = cs.map Char.toNat := by
  induction cs with
  | nil => rfl
  | cons c cs ih =>
    rw [List.flatMap_cons, codePoints_encode (char_scalar c).1 (char_scalar c).2, ih]
    rfl

/-- A well-formed string survives the trip through UTF-16. -/
theorem scalarValues_utf16 (s : String) : scalarValues (utf16 s) = s.toList := by
  rw [scalarValues, utf16, codePoints_utf16, List.map_map]
  calc s.toList.map _ = s.toList.map id := by
        apply List.map_congr_left
        intro c _
        simp only [Function.comp_apply, (char_scalar c).1, Bool.false_eq_true, ↓reduceIte, id_eq]
        exact Char.ofNat_toNat c
    _ = s.toList := List.map_id _

theorem encodeUtf8_utf16 (s : String) :
    encodeUtf8 (utf16 s) = s.toList.flatMap String.utf8EncodeChar := by
  rw [encodeUtf8, scalarValues_utf16]

theorem ofNat_toNat_small {n : Nat} (h : n < 128) : (Char.ofNat n).toNat = n := by
  rw [Char.ofNat, dif_pos (Or.inl (by omega))]
  rfl

theorem utf8EncodeChar_ascii {c : Char} (h : c.toNat < 128) :
    String.utf8EncodeChar c = [UInt8.ofNat c.toNat] := by
  have hv : c.val.toNat ≤ 127 := Nat.le_of_lt_succ h
  rw [String.utf8EncodeChar, if_pos hv]
  rfl

/-- Only ASCII characters encode without a byte above 127. -/
theorem char_ascii_of_utf8 {c : Char} (h : ∀ b ∈ String.utf8EncodeChar c, b.toNat < 128) :
    c.toNat < 128 := by
  by_contra hc
  have hv : ¬ c.val.toNat ≤ 127 := fun hle => hc (Nat.lt_succ_of_le hle)
  simp only [String.utf8EncodeChar, hv, ↓reduceIte] at h
  split at h
  · have := h _ (List.mem_cons_self)
    simp only [UInt8.toNat_ofNat'] at this
    omega
  · split at h
    · have := h _ (List.mem_cons_self)
      simp only [UInt8.toNat_ofNat'] at this
      omega
    · have := h _ (List.mem_cons_self)
      simp only [UInt8.toNat_ofNat'] at this
      omega

theorem scalarValues_ascii {s : JsString} (h : Ascii s) :
    scalarValues s = s.map (fun u => Char.ofNat u.toNat) := by
  rw [scalarValues, codePoints_ascii h, List.map_map]
  apply List.map_congr_left
  intro u hu
  have := h u hu
  have hs : isSurrogate u.toNat = false := by
    simp only [isSurrogate, Bool.and_eq_false_iff, decide_eq_false_iff_not]
    omega
  simp [hs]

theorem encodeUtf8_ascii {s : JsString} (h : Ascii s) :
    encodeUtf8 s = s.map (fun u => UInt8.ofNat u.toNat) := by
  rw [encodeUtf8, scalarValues_ascii h]
  induction s with
  | nil => rfl
  | cons u s ih =>
    have hu : u.toNat < 128 := h u (by simp)
    have hc : (Char.ofNat u.toNat).toNat = u.toNat := ofNat_toNat_small hu
    rw [List.map_cons, List.flatMap_cons, ih (fun v hv => h v (List.mem_cons_of_mem _ hv)),
      utf8EncodeChar_ascii (by omega), hc]
    rfl

/-- ASCII units survive the trip through single bytes. -/
theorem widen_bytes {s : JsString} (h : Ascii s) :
    (s.map (fun u => UInt8.ofNat u.toNat)).map UInt8.toUInt16 = s := by
  rw [List.map_map]
  calc s.map _ = s.map id := by
        apply List.map_congr_left
        intro u hu
        have := h u hu
        apply UInt16.toNat_inj.mp
        simp only [Function.comp_apply, UInt8.toNat_toUInt16, UInt8.toNat_ofNat', id_eq]
        omega
    _ = s := List.map_id s

/-- Small code points are their own units. -/
theorem units_lt_of_codePoints {b : Nat} (hb : b ≤ 0x10000) {s : JsString}
    (h : ∀ n ∈ codePoints s, n < b) : ∀ u ∈ s, u.toNat < b := by
  induction s using codePoints.induct with
  | case1 => intro u hu; cases hu
  | case2 u =>
    intro v hv
    rw [List.mem_singleton.mp hv]
    exact h _ (by simp [codePoints])
  | case3 u v rest hp _ =>
    rw [codePoints, if_pos hp] at h
    have := h _ List.mem_cons_self
    omega
  | case4 u v rest hp ih =>
    rw [codePoints, if_neg hp] at h
    intro w hw
    rcases List.mem_cons.mp hw with rfl | hw
    · exact h _ List.mem_cons_self
    · exact ih (fun n hn => h n (List.mem_cons_of_mem _ hn)) w hw

theorem ascii_of_codePoints {s : JsString} (h : ∀ n ∈ codePoints s, n < 128) : Ascii s :=
  units_lt_of_codePoints (by decide) h

/-- A string whose UTF-8 form is ASCII was ASCII: nothing else, and no lone
surrogate, encodes to bytes below 128. -/
theorem ascii_of_encodeUtf8 {s : JsString} (h : ∀ b ∈ encodeUtf8 s, b.toNat < 128) : Ascii s := by
  apply ascii_of_codePoints
  intro n hn
  have hc : ∀ c ∈ scalarValues s, c.toNat < 128 := fun c hc =>
    char_ascii_of_utf8 (fun b hb => h b (List.mem_flatMap.mpr ⟨c, hc, hb⟩))
  have hm := hc _ (List.mem_map.mpr ⟨n, hn, rfl⟩)
  by_cases hs : isSurrogate n = true
  · simp [hs] at hm
  · simp only [hs, Bool.false_eq_true, ↓reduceIte] at hm
    by_contra hbig
    by_cases hv : n.isValidChar
    · rw [Char.ofNat, dif_pos hv] at hm
      exact hbig hm
    · have hle := codePoints_lt s n hn
      simp only [isSurrogate, Bool.and_eq_true, decide_eq_true_eq, not_and] at hs
      apply hv
      simp only [Nat.isValidChar]
      omega

/-- Equal UTF-8 forms of which one is ASCII come from equal strings. -/
theorem eq_of_encodeUtf8 {s t : JsString} (ht : Ascii t) (h : encodeUtf8 s = encodeUtf8 t) :
    s = t := by
  have hs : Ascii s := by
    apply ascii_of_encodeUtf8
    rw [h, encodeUtf8_ascii ht]
    intro b hb
    obtain ⟨u, hu, rfl⟩ := List.mem_map.mp hb
    have := ht u hu
    simp only [UInt8.toNat_ofNat']
    omega
  rw [encodeUtf8_ascii hs, encodeUtf8_ascii ht] at h
  calc s = (s.map (fun u => UInt8.ofNat u.toNat)).map UInt8.toUInt16 := (widen_bytes hs).symm
    _ = (t.map (fun u => UInt8.ofNat u.toNat)).map UInt8.toUInt16 := by rw [h]
    _ = t := widen_bytes ht

/-- A unit that is no low surrogate starts a code point of its own. -/
theorem codePoints_append (s : JsString) {u : UInt16} (h : isLowSurrogate u.toNat = false)
    (t : JsString) : codePoints (s ++ u :: t) = codePoints s ++ codePoints (u :: t) := by
  induction s using codePoints.induct with
  | case1 => rfl
  | case2 v =>
    simp [codePoints, h]
  | case3 v w rest hp ih =>
    rw [List.cons_append, List.cons_append, codePoints, if_pos hp, codePoints, if_pos hp, ih]
    rfl
  | case4 v w rest hp ih =>
    rw [List.cons_append, List.cons_append, codePoints, if_neg hp, codePoints, if_neg hp]
    rw [List.cons_append] at ih
    rw [ih]
    rfl

theorem encodeUtf8_append (s : JsString) {u : UInt16} (h : isLowSurrogate u.toNat = false)
    (t : JsString) : encodeUtf8 (s ++ u :: t) = encodeUtf8 s ++ encodeUtf8 (u :: t) := by
  rw [encodeUtf8, scalarValues, codePoints_append s h, List.map_append, List.flatMap_append]
  rfl

end Tagwise.Js
