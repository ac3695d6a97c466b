import Tagwise.Moderation.Variants

namespace Tagwise.Proofs.Padding
open Js Lib Tagwise.Core Moderation

/-- What a suffix leaves of a name's check: a listed word in it as it is written, or in a
reading, runs collapsed, whose digits `1` are read as `i` but for the last twelve of name
and suffix together. -/
def StillShows (words : List JsString) (tag suffix : JsString) : Prop :=
  Occurs words tag ∨ ∃ reading, ReadsLast (12 - suffix.countP (· == digitOne)) tag reading ∧
    Occurs words (collapseRuns reading)

/-- With twelve `1`s at most nothing of the check is lost. -/
theorem stillShows_of_few {words : List JsString} {tag suffix : JsString}
    (ht : ∀ u ∈ tag, isTagUnit u = true) (hb : isBlockedName (wordEngine words) tag = .ok true)
    (hfew : (tag ++ suffix).countP (· == digitOne) ≤ 12) : StillShows words tag suffix := by
  rw [List.countP_append] at hfew
  rcases (isBlockedName_words words ht (isBlockedName_unlisted ht hb)).mp hb with
    hraw | ⟨reading,hr,hocc⟩
  · exact Or.inl hraw
  · exact Or.inr ⟨reading, hr.reads.last (by omega), hocc⟩

/-- A blocked name stays blocked under a suffix that leaves it at most twelve `1`s, or
whatever else leaves it its listed word. -/
theorem padding_blocked (words : List JsString) (tag suffix : JsString)
    (ht : ∀ u ∈ tag, isTagUnit u = true) (hs : ∀ u ∈ suffix, isTagUnit u = true)
    (hallow : tag ++ suffix ∉ allowlist) (hb : isBlockedName (wordEngine words) tag = .ok true)
    (hkept : (tag ++ suffix).countP (· == digitOne) ≤ 12 ∨ StillShows words tag suffix) :
    isBlockedName (wordEngine words) (tag ++ suffix) = .ok true := by
  have hunits : ∀ u ∈ tag ++ suffix, isTagUnit u = true := by
    intro u hu
    rcases List.mem_append.mp hu with hu | hu
    · exact ht u hu
    · exact hs u hu
  rw [isBlockedName_words words hunits hallow]
  rcases hkept.elim (stillShows_of_few ht hb) id with hraw | ⟨reading,hr,hocc⟩
  · exact Or.inl (hraw.mono (List.prefix_append tag suffix).isInfix)
  · exact Or.inr ⟨_, hr.extend suffix, hocc.mono (collapseRuns_append_left reading _).isInfix⟩

def sampleWords : List JsString := [js "slut"]

theorem s1ut_blocked : isBlockedName (wordEngine sampleWords) (js "s1ut") = .ok true := by
  decide

theorem padded_sample : isBlockedName (wordEngine sampleWords) (js "s1ut" ++ js "_99") = .ok true :=
  padding_blocked sampleWords (js "s1ut") (js "_99") (List.all_eq_true.mp (by decide))
    (List.all_eq_true.mp (by decide)) (by decide) s1ut_blocked (Or.inl (by decide))

def twelveOnes : JsString := js "111111111111"

/-- Under the thirteen `1`s the first one is read as `i` only. -/
theorem read_siut {reading : JsString} (h : ReadsLast 12 (js "s1ut" ++ twelveOnes) reading) :
    ∃ rest, reading = 115 :: 105 :: rest ∧ 115 ∉ rest := by
  obtain ⟨pre,post,r,hs,hn,hr,rfl⟩ := h
  have hstrip : stripped (js "s1ut" ++ twelveOnes) = 115 :: 49 :: (js "ut" ++ twelveOnes) := by
    decide
  have hrest : (js "ut" ++ twelveOnes).all (fun u => (letters u).all (· != 115)) = true := by
    decide
  rw [hstrip] at hs
  cases pre with
  | nil =>
    rw [List.nil_append] at hs
    exact absurd (hs ▸ hn) (by decide)
  | cons a pre =>
    rw [List.cons_append] at hs
    injection hs with ha hs
    subst ha
    cases pre with
    | nil =>
      rw [List.nil_append] at hs
      exact absurd (hs ▸ hn) (by decide)
    | cons b pre =>
      rw [List.cons_append] at hs
      injection hs with hb hs
      subst hb
      refine ⟨pre.map firstLetter ++ r, rfl, fun hm => ?_⟩
      have hread : List.Forall₂ (fun u c => c ∈ letters u) (pre ++ post) (pre.map firstLetter ++ r) :=
        List.rel_append (firstLetters_read pre) hr
      obtain ⟨u,hu,hl⟩ := exists_read letters hread _ hm
      rw [← hs] at hu
      have := List.all_eq_true.mp (List.all_eq_true.mp hrest u hu) _ hl
      exact absurd this (by decide)

/-- `s1ut` is blocked; twelve `1`s behind it push its `l` out of the bounded expansion. -/
theorem padded_unblocked : isBlockedName (wordEngine sampleWords) (js "s1ut") = .ok true ∧
    js "s1ut" ++ twelveOnes ∉ allowlist ∧ (js "s1ut" ++ twelveOnes).length ≤ maxTagLength ∧
    ¬ isBlockedName (wordEngine sampleWords) (js "s1ut" ++ twelveOnes) = .ok true := by
  have hallow : js "s1ut" ++ twelveOnes ∉ allowlist := by decide
  refine ⟨s1ut_blocked, hallow, by decide, ?_⟩
  rw [isBlockedName_words sampleWords (List.all_eq_true.mp (by decide)) hallow]
  rintro (hraw | ⟨reading,hr,word,hm,hin⟩)
  · exact absurd ((any_includes _ _).mpr hraw) (by decide)
  · obtain ⟨rest,rfl,hno⟩ := read_siut hr
    rw [List.mem_singleton.mp hm] at hin
    obtain ⟨others,ho⟩ := collapseRuns_cons 105 rest
    have hc : collapseRuns (115 :: 105 :: rest) = 115 :: 105 :: others := by
      rw [collapseRuns, if_neg (by decide), ho]
    rw [hc] at hin
    rcases List.infix_cons_iff.mp hin with hpre | hin
    · have hl := (List.cons_prefix_cons.mp (List.cons_prefix_cons.mp hpre).2).1
      exact absurd hl (by decide)
    · have hs : (115 : UInt16) ∈ collapseRuns (105 :: rest) :=
        ho ▸ hin.subset List.mem_cons_self
      rcases List.mem_cons.mp (mem_collapseRuns hs) with he | hm
      · exact absurd he (by decide)
      · exact hno hm

end Tagwise.Proofs.Padding
