import Mathlib.Data.List.Chain
import Mathlib.Data.List.Infix
import Tagwise.Core.Normalize
import Tagwise.Lib.Expansion
import Tagwise.Moderation.Profanity

/-! What the profanity check tests, for an engine that looks for listed words: the text
itself, and the readings of it that its variants are, runs collapsed. -/

namespace Tagwise.Moderation
open Js Tagwise.Core Lib

/-- The engine that looks for the words of a list. -/
def wordEngine (words : List JsString) : ProfanityEngine := ⟨fun text => .ok (words.any (includes text))⟩

theorem includes_iff (candidate term : JsString) : includes candidate term = true ↔ term <:+: candidate := by
  simp only [includes, List.any_eq_true, List.mem_tails, List.isPrefixOf_iff_prefix]
  rw [List.infix_iff_prefix_suffix]
  exact exists_congr (fun _ => and_comm)

/-- A listed word occurs in `text`. -/
def Occurs (words : List JsString) (text : JsString) : Prop := ∃ word ∈ words, word <:+: text

theorem any_includes (words : List JsString) (text : JsString) :
    words.any (includes text) = true ↔ Occurs words text := by
  simp only [List.any_eq_true, includes_iff, Occurs]

theorem Occurs.mono {words : List JsString} {text text' : JsString} (h : Occurs words text)
    (hi : text <:+: text') : Occurs words text' := by
  obtain ⟨word,hm,hw⟩ := h
  exact ⟨word, hm, hw.trans hi⟩

theorem containsBlockedContent_words (words : List JsString) (text : JsString) :
    containsBlockedContent (wordEngine words) text = .ok (words.any (includes text)) := by
  simp only [containsBlockedContent, wordEngine, extraBlockedTerms]
  cases words.any (includes text) <;> rfl

theorem anyBlocked_words (words variants : List JsString) :
    anyBlocked (wordEngine words) variants =
      .ok (variants.any (fun variant => words.any (includes variant))) := by
  induction variants with
  | nil => rfl
  | cons variant variants ih =>
    rw [anyBlocked, containsBlockedContent_words, List.any_cons, ih]
    cases words.any (includes variant) <;> rfl

theorem collapseRuns_cons (u : UInt16) (s : JsString) :
    ∃ rest, collapseRuns (u :: s) = u :: rest := by
  induction s generalizing u with
  | nil => exact ⟨[], rfl⟩
  | cons v s ih =>
    rw [collapseRuns]
    split
    · next h =>
      rw [h.1]
      exact ih v
    · exact ⟨_, rfl⟩

theorem collapseRuns_append_left (s t : JsString) : collapseRuns s <+: collapseRuns (s ++ t) := by
  induction s using collapseRuns.induct with
  | case1 => exact List.nil_prefix
  | case2 u =>
    obtain ⟨rest,h⟩ := collapseRuns_cons u t
    exact ⟨rest, h.symm⟩
  | case3 u v s h ih =>
    simp only [List.cons_append, collapseRuns, if_pos h]
    exact ih
  | case4 u v s h ih =>
    simp only [List.cons_append, collapseRuns, if_neg h]
    exact List.cons_prefix_cons.mpr ⟨rfl, ih⟩

theorem collapseRuns_append_right (s t : JsString) : collapseRuns t <:+ collapseRuns (s ++ t) := by
  induction s with
  | nil => exact List.suffix_refl _
  | cons u s ih =>
    cases hst : s ++ t with
    | nil =>
      rw [(List.append_eq_nil_iff.mp hst).2]
      exact List.nil_suffix
    | cons v rest =>
      rw [hst] at ih
      rw [List.cons_append, hst, collapseRuns]
      split
      · exact ih
      · exact ih.trans (List.suffix_cons u _)

/-- What is inside a text is inside it when the runs of both are collapsed. -/
theorem collapseRuns_within {s t : JsString} (h : s <:+: t) : collapseRuns s <:+: collapseRuns t := by
  obtain ⟨pre,post,rfl⟩ := h
  have hright := collapseRuns_append_right pre s
  have hleft := collapseRuns_append_left (pre ++ s) post
  exact hright.isInfix.trans hleft.isInfix

theorem mem_collapseRuns {u : UInt16} {s : JsString} (h : u ∈ collapseRuns s) : u ∈ s := by
  induction s using collapseRuns.induct with
  | case1 => exact h
  | case2 v => exact h
  | case3 v w s hc ih =>
    rw [collapseRuns, if_pos hc] at h
    exact List.mem_cons_of_mem _ (ih h)
  | case4 v w s hc ih =>
    rw [collapseRuns, if_neg hc] at h
    rcases List.mem_cons.mp h with rfl | h
    · exact List.mem_cons_self
    · exact List.mem_cons_of_mem _ (ih h)

/-- No letter follows itself. -/
abbrev RunFree (s : JsString) : Prop := s.IsChain (· ≠ ·)

theorem collapseRuns_fixed {s : JsString} (h : RunFree s) : collapseRuns s = s := by
  induction s using collapseRuns.induct with
  | case1 => rfl
  | case2 u => rfl
  | case3 u v s hc _ =>
    exact absurd hc.1 (List.isChain_cons_cons.mp h).1
  | case4 u v s hc ih =>
    rw [collapseRuns, if_neg hc, ih (List.isChain_cons_cons.mp h).2]

theorem collapseRuns_runFree {s : JsString} (h : ∀ u ∈ s, isLineTerminator u = false) :
    RunFree (collapseRuns s) := by
  induction s using collapseRuns.induct with
  | case1 => exact List.isChain_nil
  | case2 u => exact List.isChain_singleton u
  | case3 u v s hc ih =>
    rw [collapseRuns, if_pos hc]
    exact ih (fun w hw => h w (List.mem_cons_of_mem _ hw))
  | case4 u v s hc ih =>
    have ih := ih (fun w hw => h w (List.mem_cons_of_mem _ hw))
    have hne : u ≠ v := fun he => hc ⟨he, h u List.mem_cons_self⟩
    obtain ⟨rest,hr⟩ := collapseRuns_cons v s
    rw [collapseRuns, if_neg hc, hr]
    rw [hr] at ih
    exact List.isChain_cons_cons.mpr ⟨hne, ih⟩

/-- What a character can stand for: itself, or the letters a digit is replaced by. -/
def letters (u : UInt16) : List UInt16 := ((leetspeakSubstitutions [u]).getD [[u]]).flatten

def digitOne : UInt16 := 49

/-- The first of them. -/
def firstLetter (u : UInt16) : UInt16 := (letters u).headD u

theorem substitutions_letters (u : UInt16) :
    (leetspeakSubstitutions [u]).getD [[u]] = (letters u).map (fun c => [c]) := by
  unfold letters leetspeakSubstitutions
  split <;> rfl

theorem letters_length (u : UInt16) : (letters u).length = if u == digitOne then 2 else 1 := by
  unfold letters leetspeakSubstitutions
  split
  case h_11 h0 h1 h2 h3 h4 h5 h6 h7 h8 h9 =>
    have hne : u ≠ digitOne := fun he => h1 (by rw [he]; rfl)
    simp [hne]
  all_goals
    next h =>
      cases h
      rfl

theorem letters_first (u : UInt16) : ∃ rest, letters u = firstLetter u :: rest := by
  have hl := letters_length u
  unfold firstLetter
  cases h : letters u with
  | nil =>
    rw [h] at hl
    split at hl <;> cases hl
  | cons c rest => exact ⟨rest, rfl⟩

theorem letters_ne_nil (u : UInt16) : letters u ≠ [] := by
  obtain ⟨rest,h⟩ := letters_first u
  rw [h]
  exact List.cons_ne_nil _ _

theorem firstLetter_mem (u : UInt16) : firstLetter u ∈ letters u := by
  obtain ⟨rest,h⟩ := letters_first u
  rw [h]
  exact List.mem_cons_self

/-- The text without its underscores. -/
def stripped (tag : JsString) : JsString := tag.filter (· != underscore)

/-- `reading` is `tag` with its underscores deleted and every digit replaced by a letter it
can stand for. -/
def Reads (tag reading : JsString) : Prop :=
  List.Forall₂ (fun u c => c ∈ letters u) (stripped tag) reading

/-- A reading in which, the last `n` apart, every `1` is read as its first letter. -/
def ReadsLast (n : Nat) (tag reading : JsString) : Prop :=
  ∃ pre post r, stripped tag = pre ++ post ∧ post.countP (· == digitOne) ≤ n ∧
    List.Forall₂ (fun u c => c ∈ letters u) post r ∧ reading = pre.map firstLetter ++ r

theorem letters_tagUnit {u : UInt16} (h : isTagUnit u = true) : ∀ c ∈ letters u, isTagUnit c = true := by
  unfold letters leetspeakSubstitutions
  split
  case h_11 =>
    intro c hc
    rw [List.mem_singleton.mp hc]
    exact h
  all_goals
    simp only [Option.getD_some]
    exact List.all_eq_true.mp (by decide)

/-- A letter stands for itself only. -/
theorem letters_letter {u : UInt16} (h : 97 ≤ u.toNat) : letters u = [u] := by
  unfold letters leetspeakSubstitutions
  split
  case h_11 => rfl
  all_goals
    next he =>
      cases he
      exact absurd h (by decide)

theorem Reads.tagUnits {tag reading : JsString} (ht : ∀ u ∈ tag, isTagUnit u = true)
    (h : Reads tag reading) : ∀ c ∈ reading, isTagUnit c = true := by
  intro c hc
  obtain ⟨u,hu,hl⟩ := exists_read letters h c hc
  exact letters_tagUnit (ht u (List.mem_of_mem_filter hu)) c hl

theorem Reads.runFree {tag reading : JsString} (ht : ∀ u ∈ tag, isTagUnit u = true)
    (h : Reads tag reading) : RunFree (collapseRuns reading) := by
  apply collapseRuns_runFree
  intro c hc
  have hu := (isTagUnit_iff c).mp (h.tagUnits ht c hc)
  have hne : ∀ m : UInt16, c = m → m.toNat < 32 ∨ 8000 < m.toNat → False := by
    rintro m rfl
    omega
  simp only [isLineTerminator, Bool.or_eq_false_iff, beq_eq_false_iff_ne]
  exact ⟨⟨⟨fun he => hne _ he (by decide), fun he => hne _ he (by decide)⟩,
    fun he => hne _ he (by decide)⟩, fun he => hne _ he (by decide)⟩

theorem pushOptions_eq (variant : JsString) {next : List JsString} (options : List JsString)
    (hroom : next.length < maxVariants) : pushOptions variant next options =
      (next ++ options.map (variant ++ ·)).take maxVariants := by
  induction options generalizing next with
  | nil =>
    rw [List.map_nil, List.append_nil, List.take_of_length_le (Nat.le_of_lt hroom)]
    rfl
  | cons option options ih =>
    have hlength : (next ++ [variant ++ option]).length = next.length + 1 := List.length_append
    rw [pushOptions, List.map_cons, List.append_cons next _ (options.map (variant ++ ·))]
    by_cases hfull : maxVariants ≤ (next ++ [variant ++ option]).length
    · rw [if_pos hfull, List.take_left' (by omega)]
    · rw [if_neg hfull, ih (Nat.lt_of_not_le hfull)]

/-- The breaks stop the loops at the cap, and nowhere before it. -/
theorem pushVariants_eq {next : List JsString} (options variants : List JsString)
    (hroom : next.length < maxVariants) : pushVariants options next variants =
      (next ++ variants.flatMap (fun variant => options.map (variant ++ ·))).take maxVariants := by
  induction variants generalizing next with
  | nil =>
    rw [List.flatMap_nil, List.append_nil, List.take_of_length_le (Nat.le_of_lt hroom)]
    rfl
  | cons variant variants ih =>
    rw [pushVariants, pushOptions_eq variant options hroom, List.flatMap_cons, ← List.append_assoc]
    generalize next ++ options.map (variant ++ ·) = pushed
    rw [List.length_take]
    by_cases hfull : maxVariants ≤ pushed.length
    · rw [if_pos (by omega), List.take_append_of_le_length hfull]
    · rw [if_neg (by omega), List.take_of_length_le (by omega), ih (Nat.lt_of_not_le hfull)]

theorem expandVariants_loops (variants : List JsString) (char : JsString) :
    expandVariants variants char =
      pushVariants ((leetspeakSubstitutions char).getD [char]) [] variants := by
  have hempty : ([] : List JsString).length < maxVariants := by decide
  exact (pushVariants_eq _ variants hempty).symm

theorem expandVariants_letter (variants : List JsString) (u : UInt16) :
    expandVariants variants [u] = growCapped letters maxVariants variants u := by
  simp only [expandVariants, substitutions_letters, growCapped, grow, List.map_map]
  rfl

theorem encode_unit (u : UInt16) : encodeCodePoint u.toNat = [u] := by
  rw [encodeCodePoint_small u.toNat_lt]
  simp

theorem variants_eq {tag : JsString} (ht : ∀ u ∈ tag, isTagUnit u = true) :
    generateProfanityCheckVariants tag =
      (((readings letters (stripped tag)).take (2 ^ 12)).map collapseRuns).eraseDups := by
  have hs : Ascii (stripped tag) := by
    intro u hu
    have := (isTagUnit_iff u).mp (ht u (List.mem_of_mem_filter hu))
    omega
  have hstep : (fun variants u => expandVariants variants (encodeCodePoint (UInt16.toNat u))) =
      growCapped letters maxVariants := by
    funext variants u
    rw [encode_unit, expandVariants_letter]
  have hall : (stripped tag).foldl (growCapped letters maxVariants) [[]] =
      (readings letters (stripped tag)).take maxVariants := by
    have hc := foldl_growCapped letters_ne_nil maxVariants [[]] (stripped tag)
    have htake : ([[]] : List JsString).take maxVariants = [[]] := rfl
    rw [foldl_grow, htake] at hc
    simpa using hc
  unfold generateProfanityCheckVariants
  simp only
  rw [tagUnits_lowercase ht]
  change (((List.map encodeCodePoint (codePoints (stripped tag))).foldl expandVariants [[]]).map
    collapseRuns).eraseDups = _
  rw [codePoints_ascii hs, List.map_map, List.foldl_map]
  simp only [Function.comp_apply]
  rw [hstep, hall]
  rfl

theorem mem_variants {tag : JsString} (ht : ∀ u ∈ tag, isTagUnit u = true) (variant : JsString) :
    variant ∈ generateProfanityCheckVariants tag ↔
      ∃ reading, ReadsLast 12 tag reading ∧ collapseRuns reading = variant := by
  rw [variants_eq ht, List.mem_eraseDups, List.mem_map]
  exact exists_congr (fun reading =>
    and_congr_left (fun _ => mem_take_readings letters_length letters_first))

/-- What the check comes to for a list of words: one of them occurs in the text, or in one
of its readings with the runs collapsed. -/
theorem isBlockedName_words (words : List JsString) {tag : JsString}
    (ht : ∀ u ∈ tag, isTagUnit u = true) (hallow : tag ∉ allowlist) :
    isBlockedName (wordEngine words) tag = .ok true ↔
      Occurs words tag ∨ ∃ reading, ReadsLast 12 tag reading ∧ Occurs words (collapseRuns reading) := by
  have hany : (generateProfanityCheckVariants tag).any (fun variant => words.any (includes variant)) =
      true ↔ ∃ reading, ReadsLast 12 tag reading ∧ Occurs words (collapseRuns reading) := by
    rw [List.any_eq_true]
    constructor
    · intro h
      obtain ⟨variant,hv,hw⟩ := h
      obtain ⟨reading,hr,rfl⟩ := (mem_variants ht variant).mp hv
      exact ⟨reading, hr, (any_includes words _).mp hw⟩
    · intro h
      obtain ⟨reading,hr,hw⟩ := h
      exact ⟨_, (mem_variants ht _).mpr ⟨reading, hr, rfl⟩, (any_includes words _).mpr hw⟩
  have hlow := tagUnits_lowercase ht
  have hraw := any_includes words tag
  unfold isBlockedName
  simp only [hlow, hallow, ↓reduceIte, containsBlockedContent_words, anyBlocked_words]
  rw [← hany, ← hraw]
  cases words.any (includes tag) with
  | true => exact ⟨fun _ => Or.inl rfl, fun _ => rfl⟩
  | false =>
    cases (generateProfanityCheckVariants tag).any (fun variant => words.any (includes variant)) with
    | true => exact ⟨fun _ => Or.inr rfl, fun _ => rfl⟩
    | false => exact ⟨fun h => (by cases h), fun h => (by rcases h with h | h <;> cases h)⟩

theorem firstLetters_read (s : JsString) :
    List.Forall₂ (fun u c => c ∈ letters u) s (s.map firstLetter) :=
  List.forall₂_map_right_iff.mpr (List.forall₂_same.mpr (fun u _ => firstLetter_mem u))

theorem ReadsLast.reads {n : Nat} {tag reading : JsString} (h : ReadsLast n tag reading) :
    Reads tag reading := by
  obtain ⟨pre,post,r,hs,-,hr,rfl⟩ := h
  unfold Reads
  rw [hs]
  exact List.rel_append (firstLetters_read pre) hr

/-- Up to `n` of the digit, every reading counts. -/
theorem Reads.last {n : Nat} {tag reading : JsString} (h : Reads tag reading)
    (hn : tag.countP (· == digitOne) ≤ n) : ReadsLast n tag reading :=
  ⟨[], stripped tag, reading, rfl, Nat.le_trans List.filter_sublist.countP_le hn, h, rfl⟩

theorem stripped_append (tag suffix : JsString) :
    stripped (tag ++ suffix) = stripped tag ++ stripped suffix := List.filter_append _ _

theorem stripped_ones (tag : JsString) :
    (stripped tag).countP (· == digitOne) = tag.countP (· == digitOne) := by
  rw [stripped, List.countP_filter]
  apply List.countP_congr
  intro u _
  simp only [Bool.and_eq_true, beq_iff_eq, bne_iff_ne, ne_eq, and_iff_left_iff_imp]
  rintro rfl
  decide

/-- Without the digit there is one reading. -/
theorem read_first {post r : JsString} (h : List.Forall₂ (fun u c => c ∈ letters u) post r)
    (hn : post.countP (· == digitOne) = 0) : r = post.map firstLetter := by
  induction h with
  | nil => rfl
  | cons hc _ ih =>
    rw [List.countP_cons] at hn
    rename_i u c post r _
    obtain ⟨rest,hl⟩ := letters_first u
    have hlen := letters_length u
    rw [if_neg (by rintro hu; simp [hu] at hn), hl] at hlen
    rw [hl, List.eq_nil_of_length_eq_zero (Nat.succ_injective hlen)] at hc
    rw [List.map_cons, List.mem_singleton.mp hc, ih (by omega)]

/-- A reading goes on over a suffix, when the digits of the suffix leave it its room. -/
theorem ReadsLast.extend {n : Nat} {tag reading : JsString} (suffix : JsString)
    (h : ReadsLast (n - suffix.countP (· == digitOne)) tag reading) :
    ReadsLast n (tag ++ suffix) (reading ++ (stripped suffix).map firstLetter) := by
  obtain ⟨pre,post,r,hs,hn,hr,rfl⟩ := h
  have hones := stripped_ones suffix
  by_cases hroom : suffix.countP (· == digitOne) ≤ n
  · refine ⟨pre, post ++ stripped suffix, r ++ (stripped suffix).map firstLetter, ?_, ?_,
      List.rel_append hr (firstLetters_read _), by simp⟩
    · rw [stripped_append, hs, List.append_assoc]
    · rw [List.countP_append]
      omega
  · have hr := read_first hr (by omega)
    refine ⟨stripped (tag ++ suffix), [], [], by simp, by simp, List.Forall₂.nil, ?_⟩
    rw [stripped_append, hs, hr]
    simp

theorem isBlockedName_unlisted {engine : ProfanityEngine} {tag : JsString}
    (ht : ∀ u ∈ tag, isTagUnit u = true) (h : isBlockedName engine tag = .ok true) :
    tag ∉ allowlist := by
  intro hm
  simp only [isBlockedName, tagUnits_lowercase ht, hm, ↓reduceIte] at h
  cases h

end Tagwise.Moderation
