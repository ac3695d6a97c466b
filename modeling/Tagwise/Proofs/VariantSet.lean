import Tagwise.Moderation.Variants

namespace Tagwise.Proofs.VariantSet
open Js Tagwise.Core Tagwise.Moderation Lib

def isDigitUnit (u : UInt16) : Bool := 48 ≤ u.toNat && u.toNat ≤ 57

/-- What the generator makes of `tag`: letters, none of them twice in a row, that one choice of
letters for all digits leaves when its runs are collapsed. -/
structure Variant (tag variant : JsString) : Prop where
  noDigit : ∀ u ∈ variant, isDigitUnit u = false
  noUnderscore : underscore ∉ variant
  runFree : RunFree variant
  read : ∃ reading, Reads tag reading ∧ collapseRuns reading = variant

theorem digits_letters : ∀ n < 58, 48 ≤ n →
    (letters (UInt16.ofNat n)).all (fun c => 97 ≤ c.toNat) = true := by decide

/-- Underscores apart, what a character can stand for is a letter. -/
theorem letters_letters {u : UInt16} (h : isTagUnit u = true) (hne : u ≠ underscore) :
    ∀ c ∈ letters u, 97 ≤ c.toNat := by
  rcases (isTagUnit_iff u).mp h with ⟨hletter,_⟩ | ⟨hlow,hhigh⟩ | hunderscore
  · intro c hc
    rw [letters_letter hletter, List.mem_singleton] at hc
    rwa [hc]
  · have hdigit := digits_letters u.toNat (by omega) hlow
    rw [UInt16.ofNat_toNat] at hdigit
    intro c hc
    exact of_decide_eq_true (List.all_eq_true.mp hdigit c hc)
  · exact absurd (UInt16.toNat_inj.mp hunderscore) hne

theorem reading_letters {tag reading : JsString} (ht : ∀ u ∈ tag, isTagUnit u = true)
    (h : Reads tag reading) : ∀ c ∈ reading, 97 ≤ c.toNat := by
  intro c hc
  obtain ⟨u,hu,hl⟩ := exists_read letters h c hc
  obtain ⟨hmem,hne⟩ := List.mem_filter.mp hu
  exact letters_letters (ht u hmem) (bne_iff_ne.mp hne) c hl

theorem Variant.of_reads {tag reading : JsString} (ht : ∀ u ∈ tag, isTagUnit u = true)
    (h : Reads tag reading) : Variant tag (collapseRuns reading) := by
  have hletters : ∀ u ∈ collapseRuns reading, 97 ≤ u.toNat :=
    fun u hu => reading_letters ht h u (mem_collapseRuns hu)
  refine ⟨fun u hu => ?_,fun hu => ?_,h.runFree ht,⟨reading,h,rfl⟩⟩
  · have hletter := hletters u hu
    rw [isDigitUnit, Bool.and_eq_false_iff, decide_eq_false_iff_not, decide_eq_false_iff_not]
    omega
  · exact absurd (hletters underscore hu) (by decide)

/-- As many variants as the cap at most, no two alike, each one choice of letters collapsed; and
up to twelve of the one digit with two letters, every choice is among them. -/
theorem variants (tag : JsString) (ht : ∀ u ∈ tag, isTagUnit u = true) :
    (generateProfanityCheckVariants tag).Nodup ∧
    (generateProfanityCheckVariants tag).length ≤ 4096 ∧
    (∀ variant ∈ generateProfanityCheckVariants tag, Variant tag variant) ∧
    (tag.countP (· == digitOne) ≤ 12 →
      ∀ reading, Reads tag reading → collapseRuns reading ∈ generateProfanityCheckVariants tag) := by
  have hset := variants_eq ht
  obtain ⟨hnodup,hlength⟩ := eraseDups_nodup
    (((readings letters (stripped tag)).take (2 ^ 12)).map collapseRuns)
  rw [← hset] at hnodup hlength
  refine ⟨hnodup,?_,fun variant hv => ?_,fun hones reading hr => ?_⟩
  · rw [List.length_map, List.length_take] at hlength
    exact Nat.le_trans hlength (Nat.min_le_left _ _)
  · obtain ⟨reading,hr,rfl⟩ := (mem_variants ht variant).mp hv
    exact .of_reads ht hr.reads
  · exact (mem_variants ht _).mpr ⟨reading,hr.last hones,rfl⟩

/-- A `1` read twice as the same letter, an underscore between the two. -/
theorem ones_collapse :
    js "la" ∈ generateProfanityCheckVariants (js "1_1a") ∧ Variant (js "1_1a") (js "la") := by
  have hunits : ∀ u ∈ js "1_1a", isTagUnit u = true := List.all_eq_true.mp (by decide)
  obtain ⟨_,_,hvariants,hall⟩ := variants (js "1_1a") hunits
  have hread : Reads (js "1_1a") (js "lla") :=
    .cons (by decide) (.cons (by decide) (.cons (by decide) .nil))
  have hmem := hall (by decide) (js "lla") hread
  have hcollapse : collapseRuns (js "lla") = js "la" := by decide
  rw [hcollapse] at hmem
  exact ⟨hmem,hvariants _ hmem⟩

end Tagwise.Proofs.VariantSet
