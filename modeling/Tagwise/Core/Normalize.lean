import Tagwise.Js.Text

namespace Tagwise.Core
open Js

def tagSeedPrefix : JsString := js "tag"
def minTagLength : Nat := 3
def maxTagLength : Nat := 20

/-- The class `[a-z0-9_]` on one code unit. -/
def isTagUnit (u : UInt16) : Bool :=
  (97 ≤ u.toNat && u.toNat ≤ 122) || (48 ≤ u.toNat && u.toNat ≤ 57) || u.toNat == 95

/-- `/^[a-z0-9_]+$/`. -/
def allowedTagCharactersPattern (s : JsString) : Bool := !s.isEmpty && s.all isTagUnit

inductive TagRejectionReason
  | empty
  | badAt
  | tooShort
  | tooLong
  | invalidChar
  deriving DecidableEq, Repr

/-- A tag in canonical form; only `normalizeTag` makes one. -/
structure NormalizedTag where
  text : JsString
  long : minTagLength ≤ text.length
  short : text.length ≤ maxTagLength
  allowed : allowedTagCharactersPattern text = true
  deriving DecidableEq

/-- The brand is a string to whoever reads it. -/
instance : Coe NormalizedTag JsString := ⟨NormalizedTag.text⟩

/-- The tag of the samples. -/
def NormalizedTag.abc : NormalizedTag := ⟨js "abc", by decide, by decide, by decide⟩

inductive NormalizeTagResult
  | accepted (tag : NormalizedTag)
  | rejected (reason : TagRejectionReason)
  deriving DecidableEq

def atSign : UInt16 := 64

def normalizeTag (raw : JsString) : NormalizeTagResult :=
  if raw.length = 0 then .rejected .empty
  else if (raw.drop 1).any (· == atSign) then .rejected .badAt
  else
    let stripped := if raw.head? = some atSign then raw.drop 1 else raw
    let lowered := toLowerCase stripped
    if lowered.length = 0 then .rejected .empty
    else if hs : lowered.length < minTagLength then .rejected .tooShort
    else if hl : lowered.length > maxTagLength then .rejected .tooLong
    else if ha : allowedTagCharactersPattern lowered = true then
      .accepted ⟨lowered, Nat.le_of_not_lt hs, Nat.le_of_not_lt hl, ha⟩
    else .rejected .invalidChar

/-- The one key under which a tag's resolve response is cached. The brand asked for is
no check: rows are cast to it. -/
def buildResolveCacheKey (pre : JsString) (normalizedTag : JsString) : JsString :=
  pre ++ js "resolve:" ++ normalizedTag

/-- What is lowercased: the input without one leading `@`. -/
def stripAt (raw : JsString) : JsString := if raw.head? = some atSign then raw.drop 1 else raw

theorem isTagUnit_iff (u : UInt16) : isTagUnit u = true ↔
    (97 ≤ u.toNat ∧ u.toNat ≤ 122) ∨ (48 ≤ u.toNat ∧ u.toNat ≤ 57) ∨ u.toNat = 95 := by
  simp [isTagUnit, or_assoc]

theorem NormalizedTag.units (t : NormalizedTag) : ∀ u ∈ t.text, isTagUnit u = true := by
  have h := t.allowed
  simp only [allowedTagCharactersPattern, Bool.and_eq_true] at h
  exact List.all_eq_true.mp h.2

theorem NormalizedTag.ascii (t : NormalizedTag) : Ascii t.text := by
  intro u hu
  have := (isTagUnit_iff u).mp (t.units u hu)
  omega

theorem NormalizedTag.ext_text {t t' : NormalizedTag} (h : t.text = t'.text) : t = t' := by
  cases t; cases t'; cases h; rfl

theorem buildResolveCacheKey_inj {pre t t' : JsString}
    (h : buildResolveCacheKey pre t = buildResolveCacheKey pre t') : t = t' :=
  List.append_cancel_left h

theorem tagUnits_lowercase {s : JsString} (h : ∀ u ∈ s, isTagUnit u = true) : toLowerCase s = s := by
  apply toLowerCase_fixed
  intro u hu
  have := (isTagUnit_iff u).mp (h u hu)
  omega

theorem tagUnit_ne_at {u : UInt16} (h : isTagUnit u = true) : u ≠ atSign := by
  intro he
  subst he
  exact absurd h (by decide)

theorem normalizeTag_accepted_iff (raw : JsString) (t : NormalizedTag) :
    normalizeTag raw = .accepted t ↔ atSign ∉ raw.drop 1 ∧ t.text = toLowerCase (stripAt raw) := by
  have hany : (raw.drop 1).any (· == atSign) = true ↔ atSign ∈ raw.drop 1 := by simp
  have hstrip : (if raw.head? = some atSign then raw.drop 1 else raw) = stripAt raw := rfl
  simp only [normalizeTag, hstrip, hany]
  constructor
  · intro h
    split at h
    · cases h
    · split at h
      · cases h
      · next hat =>
        refine ⟨hat, ?_⟩
        split at h
        · cases h
        · split at h
          · cases h
          · split at h
            · cases h
            · split at h
              · exact (congrArg NormalizedTag.text (NormalizeTagResult.accepted.inj h)).symm
              · cases h
  · rintro ⟨hat,htext⟩
    have hl := t.long
    have hs := t.short
    have ha := t.allowed
    rw [htext] at hl hs ha
    have hraw : raw.length ≠ 0 := by
      intro h0
      rw [List.eq_nil_of_length_eq_zero h0] at hl
      exact absurd hl (by decide)
    have hlow : (toLowerCase (stripAt raw)).length ≠ 0 := by
      unfold minTagLength at hl
      omega
    rw [if_neg hraw, if_neg hat, if_neg hlow, dif_neg (Nat.not_lt.mpr hl), dif_neg (Nat.not_lt.mpr hs), dif_pos ha]
    exact congrArg _ (NormalizedTag.ext_text htext.symm)

/-- The whole outcome of `normalizeTag` on text that is already canonical. -/
theorem normalizeTag_canonical {s : JsString} (hl : minTagLength ≤ s.length)
    (hs : s.length ≤ maxTagLength) (hu : ∀ u ∈ s, isTagUnit u = true) :
    ∃ t : NormalizedTag, normalizeTag s = .accepted t ∧ t.text = s := by
  have hlow := tagUnits_lowercase hu
  have hn : s.length ≠ 0 := by unfold minTagLength at hl; omega
  have hat : (s.drop 1).any (· == atSign) = false := by
    apply List.any_eq_false.mpr
    intro u hm
    simpa using tagUnit_ne_at (hu u (List.mem_of_mem_drop hm))
  have hhead : s.head? ≠ some atSign := by
    intro he
    exact tagUnit_ne_at (hu _ (List.mem_of_head? he)) rfl
  have hp : allowedTagCharactersPattern s = true := by
    simp only [allowedTagCharactersPattern, Bool.and_eq_true, Bool.not_eq_true']
    exact ⟨by cases s with | nil => simp at hn | cons _ _ => rfl, List.all_eq_true.mpr hu⟩
  refine ⟨⟨s, hl, hs, hp⟩, ?_, rfl⟩
  simp only [normalizeTag, hn, ↓reduceIte, hat, Bool.false_eq_true, hhead, hlow]
  rw [dif_neg (Nat.not_lt.mpr hl), dif_neg (Nat.not_lt.mpr hs), dif_pos hp]

theorem normalizeTag_text (t : NormalizedTag) : normalizeTag t.text = .accepted t := by
  obtain ⟨t',hn,ht⟩ := normalizeTag_canonical t.long t.short t.units
  rw [hn, NormalizedTag.ext_text ht]

end Tagwise.Core
