import Tagwise.Core.Normalize

namespace Tagwise.Proofs.TagGrammar
open Js Tagwise.Core

/-- `A-Z`, `a-z`, `0-9` or underscore. -/
def isNameUnit (u : UInt16) : Bool := isTagUnit u || (65 ≤ u.toNat && u.toNat ≤ 90)

/-- `A-Z` to `a-z`, everything else as it is. -/
def lowerName (u : UInt16) : UInt16 := UInt16.ofNat (lowerAscii u.toNat)

/-- `raw` is an optional leading `@` followed by `body`, 3 to 20 units of which `unit` holds. -/
structure Spells (unit : UInt16 → Bool) (raw body : JsString) : Prop where
  at_optional : raw = body ∨ raw = atSign :: body
  long : minTagLength ≤ body.length
  short : body.length ≤ maxTagLength
  units : ∀ u ∈ body, unit u = true

/-- The tag rules at one raw input: what is accepted, and as which tag. -/
structure AsDocumented (raw : JsString) : Prop where
  accepted_iff : (∃ t, normalizeTag raw = .accepted t) ↔ ∃ body, Spells isNameUnit raw body
  lowered : ∀ t body, normalizeTag raw = .accepted t → Spells isNameUnit raw body →
    t.text = body.map lowerName
  ascii : ∀ t, normalizeTag raw = .accepted t → Ascii raw

/-- U+212A, whose Unicode lowercase is the letter `k`. -/
def kelvinSign : UInt16 := 0x212A

def isNameOrKelvin (u : UInt16) : Bool := isNameUnit u || u == kelvinSign

/-- The input is a name but for Kelvin signs, of which it has one at least. -/
def KelvinName (raw : JsString) : Prop :=
  ∃ body, Spells isNameOrKelvin raw body ∧ kelvinSign ∈ body

theorem isNameUnit_iff (u : UInt16) : isNameUnit u = true ↔
    (97 ≤ u.toNat ∧ u.toNat ≤ 122) ∨ (48 ≤ u.toNat ∧ u.toNat ≤ 57) ∨ u.toNat = 95 ∨
      (65 ≤ u.toNat ∧ u.toNat ≤ 90) := by
  simp only [isNameUnit, Bool.or_eq_true, isTagUnit_iff, Bool.and_eq_true, decide_eq_true_eq]
  omega

theorem isNameOrKelvin_iff (u : UInt16) : isNameOrKelvin u = true ↔
    isNameUnit u = true ∨ u.toNat = 0x212A := by
  simp [isNameOrKelvin, kelvinSign, ← UInt16.toNat_inj]

theorem kelvin_no_name : isNameUnit kelvinSign = false := by decide

/-- Where the runs of the case table lead: the Latin capitals, the Kelvin sign, and images
above `z`. -/
theorem lowerRuns_images : ∀ r ∈ lowerRuns, (r.1 = 65 ∧ r.2.1 = 90) ∨ (r.1 = 0x212A ∧ r.2.1 = 0x212A) ∨
    (122 < r.2.2.2 ∧ r.2.2.2 + (r.2.1 - r.1) < 0x110000) := by
  decide +kernel

theorem encoded_tagUnit {n : Nat} (hn : n < 0x110000)
    (h : ∀ u ∈ encodeCodePoint n, isTagUnit u = true) :
    (97 ≤ n ∧ n ≤ 122) ∨ (48 ≤ n ∧ n ≤ 57) ∨ n = 95 := by
  by_cases hb : n < 0x10000
  · rw [encodeCodePoint_small hb] at h
    have := (isTagUnit_iff _).mp (h _ List.mem_cons_self)
    rwa [toNat_unit hb] at this
  · have hh : 0xD800 + (n - 0x10000) / 0x400 < 0x10000 := by omega
    simp only [encodeCodePoint, hb, ↓reduceIte] at h
    have := (isTagUnit_iff _).mp (h _ List.mem_cons_self)
    rw [toNat_unit hh] at this
    omega

/-- The preimage of the tag characters under the case mapping. -/
theorem lowered_tagUnit {c : Nat} (hc : c < 0x110000)
    (h : ∀ d ∈ lowerCodePoint c, ∀ u ∈ encodeCodePoint d, isTagUnit u = true) :
    (97 ≤ c ∧ c ≤ 122) ∨ (48 ≤ c ∧ c ≤ 57) ∨ c = 95 ∨ (65 ≤ c ∧ c ≤ 90) ∨ c = 0x212A := by
  unfold lowerCodePoint at h
  split at h
  · exact absurd (h 0x307 (by simp) 0x307 (by decide)) (by decide)
  · split at h
    · next first last stride image hf =>
      have hr := List.find?_some hf
      simp only [Bool.and_eq_true, decide_eq_true_eq] at hr
      rcases lowerRuns_images _ (List.mem_of_find?_eq_some hf) with ha | hk | hi
      · simp only at ha
        omega
      · simp only at hk
        omega
      · simp only at hi
        have := encoded_tagUnit (by omega) (h _ List.mem_cons_self)
        omega
    · have := encoded_tagUnit hc (h _ List.mem_cons_self)
      omega

/-- Text whose lowercase is canonical is made of names' characters and Kelvin signs. -/
theorem units_of_lowered {s : JsString} (h : ∀ u ∈ toLowerCase s, isTagUnit u = true) :
    ∀ u ∈ s, isNameOrKelvin u = true := by
  have hd : ∀ d ∈ lowerCodePoints [] (codePoints s), ∀ u ∈ encodeCodePoint d, isTagUnit u = true :=
    fun d hd u hu => h u (List.mem_flatMap.mpr ⟨d, hd, hu⟩)
  have hc : ∀ c ∈ codePoints s,
      (97 ≤ c ∧ c ≤ 122) ∨ (48 ≤ c ∧ c ≤ 57) ∨ c = 95 ∨ (65 ≤ c ∧ c ≤ 90) ∨ c = 0x212A := by
    intro c hc
    rcases lowerCodePoints_images [] hd c hc with ⟨-,hs⟩ | hl
    · rcases hs with hs | hs
      · exact absurd (hs 0x3C2 (by decide)) (by decide)
      · exact absurd (hs 0x3C3 (by decide)) (by decide)
    · exact lowered_tagUnit (codePoints_lt s c hc) hl
  have hsmall : ∀ c ∈ codePoints s, c < 0xD800 := by
    intro c hm
    have := hc c hm
    omega
  rw [codePoints_plain (units_lt_of_codePoints (by decide) hsmall)] at hc
  intro u hu
  have := hc u.toNat (List.mem_map_of_mem hu)
  rw [isNameOrKelvin_iff, isNameUnit_iff]
  omega

/-- The lowercase of a character of a name, or of a Kelvin sign. -/
def lowerUnit (u : UInt16) : UInt16 := if u = kelvinSign then 107 else lowerName u

theorem lowerUnit_tagUnit {u : UInt16} (h : isNameOrKelvin u = true) : isTagUnit (lowerUnit u) = true := by
  unfold lowerUnit
  split
  · rfl
  · next hk =>
    rcases (isNameOrKelvin_iff u).mp h with hu | hu
    · rw [isNameUnit_iff] at hu
      rw [isTagUnit_iff, lowerName, toNat_unit (by unfold lowerAscii; split <;> omega), lowerAscii]
      split <;> omega
    · exact absurd (UInt16.toNat_inj.mp hu) hk

theorem toLowerCase_units {s : JsString} (h : ∀ u ∈ s, isNameOrKelvin u = true) :
    toLowerCase s = s.map lowerUnit := by
  have hs : ∀ u ∈ s, u.toNat < 128 ∨ u.toNat = 0x212A := by
    intro u hu
    rcases (isNameOrKelvin_iff u).mp (h u hu) with hn | hk
    · rw [isNameUnit_iff] at hn
      omega
    · exact Or.inr hk
  have hp : codePoints s = s.map UInt16.toNat := by
    apply codePoints_plain
    intro u hu
    have := hs u hu
    omega
  have hl : lowerCodePoints [] (codePoints s) =
      (codePoints s).map (fun c => if c = 0x212A then 107 else lowerAscii c) := by
    apply lowerCodePoints_map
    rw [hp]
    intro c hc
    obtain ⟨u,hu,rfl⟩ := List.mem_map.mp hc
    rcases hs u hu with ha | hk
    · refine ⟨by omega, ?_⟩
      rw [lowerCodePoint_ascii _ ha, if_neg (by omega)]
    · rw [hk]
      exact ⟨by decide, by decide⟩
  rw [toLowerCase, hl, hp, List.map_map, List.flatMap_map, List.map_eq_flatMap]
  apply List.flatMap_congr
  intro u hu
  simp only [Function.comp_apply]
  rcases hs u hu with ha | hk
  · have hne : u ≠ kelvinSign := by
      rintro rfl
      exact absurd ha (by decide)
    have hlow := lowerAscii_lt ha
    rw [if_neg (by omega), lowerUnit, if_neg hne, encodeCodePoint_small (by omega)]
    rfl
  · have he : u = kelvinSign := UInt16.toNat_inj.mp hk
    rw [if_pos hk, lowerUnit, if_pos he]
    rfl

theorem no_at {body : JsString} (h : ∀ u ∈ body, isNameOrKelvin u = true) : atSign ∉ body :=
  fun hm => absurd (h _ hm) (by decide)

/-- What `normalizeTag` accepts: one optional `@`, then 3 to 20 names' characters or Kelvin
signs. -/
theorem accepted_iff_spells (raw : JsString) (t : NormalizedTag) :
    normalizeTag raw = .accepted t ↔
      ∃ body, Spells isNameOrKelvin raw body ∧ t.text = body.map lowerUnit := by
  rw [normalizeTag_accepted_iff]
  constructor
  · rintro ⟨-,ht⟩
    have hu := units_of_lowered (fun u hu => t.units u (ht ▸ hu))
    rw [toLowerCase_units hu] at ht
    have hlen : t.text.length = (stripAt raw).length := by rw [ht, List.length_map]
    refine ⟨stripAt raw, ⟨?_, hlen ▸ t.long, hlen ▸ t.short, hu⟩, ht⟩
    unfold stripAt
    split
    · next hh =>
      obtain ⟨rest,rfl⟩ := List.head?_eq_some_iff.mp hh
      exact Or.inr rfl
    · exact Or.inl rfl
  · rintro ⟨body,hs,ht⟩
    have hna := no_at hs.units
    rw [ht, ← toLowerCase_units hs.units]
    rcases hs.at_optional with rfl | rfl
    · have hh : raw.head? ≠ some atSign := fun hh => hna (List.mem_of_head? hh)
      refine ⟨?_, by rw [stripAt, if_neg hh]⟩
      exact fun hm => hna (List.mem_of_mem_drop hm)
    · exact ⟨hna, by simp [stripAt]⟩

/-- A name spells the same body with or without Kelvin signs allowed. -/
theorem Spells.widen {raw body : JsString} (h : Spells isNameUnit raw body) :
    Spells isNameOrKelvin raw body :=
  ⟨h.at_optional, h.long, h.short, fun u hu => (isNameOrKelvin_iff u).mpr (Or.inl (h.units u hu))⟩

theorem Spells.narrow {raw body : JsString} (h : Spells isNameOrKelvin raw body)
    (hk : kelvinSign ∉ body) : Spells isNameUnit raw body := by
  refine ⟨h.at_optional, h.long, h.short, fun u hu => ?_⟩
  rcases (isNameOrKelvin_iff u).mp (h.units u hu) with hn | he
  · exact hn
  · have hue : u = kelvinSign := UInt16.toNat_inj.mp he
    exact absurd (hue ▸ hu) hk

theorem Spells.no_kelvin {raw body : JsString} (h : Spells isNameUnit raw body) :
    kelvinSign ∉ body :=
  fun hm => by simpa [kelvin_no_name] using h.units _ hm

theorem Spells.ascii {raw body : JsString} (h : Spells isNameUnit raw body) : Ascii raw := by
  have hb : Ascii body := by
    intro u hu
    have := (isNameUnit_iff u).mp (h.units u hu)
    omega
  rcases h.at_optional with rfl | rfl
  · exact hb
  · intro u hu
    rcases List.mem_cons.mp hu with rfl | hu
    · decide
    · exact hb u hu

/-- The optional `@` is no character of the body, so the body is read off `raw`. -/
theorem Spells.unique {unit : UInt16 → Bool} (hat : unit atSign = false) {raw body body' : JsString}
    (h : Spells unit raw body) (h' : Spells unit raw body') : body = body' := by
  have hno : ∀ b : JsString, Spells unit raw b → atSign ∉ b := by
    intro b hb hm
    exact absurd (hb.units _ hm) (by simp [hat])
  rcases h.at_optional with hr | hr <;> rcases h'.at_optional with hr' | hr'
  · exact hr.symm.trans hr'
  · exact absurd (hr ▸ hr' ▸ List.mem_cons_self) (hno body h)
  · exact absurd (hr' ▸ hr ▸ List.mem_cons_self) (hno body' h')
  · exact (List.cons.inj (hr.symm.trans hr')).2

theorem lowerUnit_name {body : JsString} (h : kelvinSign ∉ body) :
    body.map lowerUnit = body.map lowerName := by
  apply List.map_congr_left
  intro u hu
  have hne : u ≠ kelvinSign := by
    rintro rfl
    exact h hu
  rw [lowerUnit, if_neg hne]

/-- A spelling is accepted, as the lowercase of its body. -/
theorem Spells.accepted {raw body : JsString} (h : Spells isNameOrKelvin raw body) :
    ∃ t, normalizeTag raw = .accepted t := by
  have hu : ∀ v ∈ body.map lowerUnit, isTagUnit v = true := by
    intro v hv
    obtain ⟨u,hu,rfl⟩ := List.mem_map.mp hv
    exact lowerUnit_tagUnit (h.units u hu)
  obtain ⟨t,-,ht⟩ := normalizeTag_canonical (by rw [List.length_map]; exact h.long)
    (by rw [List.length_map]; exact h.short) hu
  exact ⟨t, (accepted_iff_spells raw t).mpr ⟨body, h, ht⟩⟩

/-- The tag rules hold at exactly the inputs that are no name with a Kelvin sign for a `k`. -/
theorem documented_iff (raw : JsString) : AsDocumented raw ↔ ¬ KelvinName raw := by
  constructor
  · rintro h ⟨body,hs,hk⟩
    obtain ⟨body',hs'⟩ := h.accepted_iff.mp hs.accepted
    have he := Spells.unique (by decide) hs hs'.widen
    exact hs'.no_kelvin (he ▸ hk)
  · intro h
    have hname : ∀ t, normalizeTag raw = .accepted t →
        ∃ body, Spells isNameUnit raw body ∧ t.text = body.map lowerName := by
      intro t ht
      obtain ⟨body,hs,hb⟩ := (accepted_iff_spells raw t).mp ht
      have hk : kelvinSign ∉ body := fun hk => h ⟨body, hs, hk⟩
      exact ⟨body, hs.narrow hk, by rw [hb, lowerUnit_name hk]⟩
    refine ⟨⟨?_, fun ⟨_,hs⟩ => hs.widen.accepted⟩, ?_, ?_⟩
    · rintro ⟨t,ht⟩
      obtain ⟨body,hs,-⟩ := hname t ht
      exact ⟨body, hs⟩
    · intro t body ht hs
      obtain ⟨body',hs',hb⟩ := hname t ht
      rw [hb, Spells.unique (by decide) hs' hs]
    · intro t ht
      obtain ⟨body,hs,-⟩ := hname t ht
      exact hs.ascii

/-- The tag `kyle` with its `k` written as a Kelvin sign is accepted, and is `kyle`. -/
theorem kelvin_kyle : ¬ AsDocumented (js "\u212Ayle") := by
  intro h
  have hs : Spells isNameOrKelvin (js "\u212Ayle") (js "\u212Ayle") :=
    ⟨Or.inl rfl, by decide, by decide, List.all_eq_true.mp (by decide)⟩
  obtain ⟨t,ht⟩ := hs.accepted
  exact absurd (h.ascii t ht kelvinSign (by decide)) (by decide)

end Tagwise.Proofs.TagGrammar
