import Tagwise.Indexer.Spec
import Tagwise.Moderation.Gate
import Tagwise.Moderation.Variants

namespace Tagwise.Proofs.Disguise
open Js Lib Tagwise.Core Services Moderation Indexer

/-- A name is blocked, and so refused at the gate and marked by the indexer. -/
structure Refused (engine : ProfanityEngine) (tag : JsString) : Prop where
  blocked : isBlockedName engine tag = .ok true
  gate : ∀ normalized : NormalizedTag, normalized.text = tag → isReservedTag tag = false →
    checkModerationGate engine normalized = .ok (.refused .inappropriate)
  marked : ∀ (dep : Deployment) (change : VerifiedTagChange) (w : World), dep.engine = engine →
    change.tag.text = tag → w.dbUp = true →
    (∀ row, w.identities.find tag = some row → row.lastAppliedSlot ≤ change.slot) →
    ∃ w' outcome row, (applyChange dep change).run World.handle w = some (w', .ok outcome) ∧
      w'.identities.find tag = some row ∧ row.status = .blocked

/-- The names the check is for: tag characters, not on the allowlist, and with so few `1`s
that no variant is dropped. -/
structure Checked (tag : JsString) : Prop where
  units : ∀ u ∈ tag, isTagUnit u = true
  unlisted : tag ∉ allowlist
  ones : tag.countP (· == digitOne) ≤ 12

/-- Some reading of the name has a listed word in it. -/
def Spells (words : List JsString) (tag : JsString) : Prop :=
  ∃ reading, Reads tag reading ∧ Occurs words reading

/-- No disguise helps this name. -/
def SeenThrough (words : List JsString) (tag : JsString) : Prop :=
  Spells words tag → Refused (wordEngine words) tag

/-- The name spells listed words, each of which has a letter that follows itself; it has
none in it as it is written, and no other one shows in its readings once their runs are
collapsed. -/
structure Escapes (words : List JsString) (tag : JsString) : Prop where
  spells : Spells words tag
  doubled : ∀ reading, Reads tag reading → ∀ word ∈ words, word <:+: reading → ¬ RunFree word
  unwritten : ¬ Occurs words tag
  uncollapsed : ∀ reading, Reads tag reading → ∀ word ∈ words, RunFree word →
    ¬ word <:+: collapseRuns reading

theorem absorb_blocked (change : VerifiedTagChange) (now : Nat) (old : Option Identity)
    (h : ∀ row, old = some row → row.lastAppliedSlot ≤ change.slot) :
    (absorb change true now old).status = .blocked := by
  cases old with
  | none => rfl
  | some row =>
    rw [absorb, if_pos (h row rfl)]
    rfl

theorem refused_iff (engine : ProfanityEngine) (tag : JsString) :
    Refused engine tag ↔ isBlockedName engine tag = .ok true := by
  refine ⟨Refused.blocked, fun h => ⟨h, ?_, ?_⟩⟩
  · rintro normalized rfl hr
    rw [checkModerationGate_open engine hr, h]
    rfl
  · rintro dep change w rfl rfl up hold
    obtain ⟨identities,redis,hrun,hfind⟩ := applyChange_run dep change up
    have hblock : shouldBlockTag dep.engine change.tag = true := by
      rw [shouldBlockTag, h]
    refine ⟨_, _, absorb change true w.now (w.identities.find change.tag.text), hrun, ?_,
      absorb_blocked change w.now _ hold⟩
    simp only
    rw [hfind, if_pos rfl, hblock]

theorem blocked_iff (words : List JsString) {tag : JsString} (h : Checked tag) :
    isBlockedName (wordEngine words) tag = .ok true ↔
      Occurs words tag ∨ ∃ reading, Reads tag reading ∧ Occurs words (collapseRuns reading) := by
  rw [isBlockedName_words words h.units h.unlisted]
  refine or_congr Iff.rfl (exists_congr (fun reading => and_congr_left (fun _ => ?_)))
  exact ⟨ReadsLast.reads, fun hr => hr.last h.ones⟩

theorem seenThrough_iff (words : List JsString) {tag : JsString} (h : Checked tag) :
    SeenThrough words tag ↔ ¬ Escapes words tag := by
  rw [SeenThrough, refused_iff, blocked_iff words h]
  constructor
  · intro hs he
    rcases hs he.spells with hw | ⟨reading,hr,word,hm,hw⟩
    · exact he.unwritten hw
    · have hfree := List.IsChain.infix (Reads.runFree h.units hr) hw
      exact he.uncollapsed reading hr word hm hfree hw
  · intro he hs
    by_contra hno
    rw [not_or] at hno
    obtain ⟨hw,hc⟩ := hno
    refine he ⟨hs, ?_, hw, ?_⟩
    · intro reading hr word hm hin hfree
      refine hc ⟨reading, hr, word, hm, ?_⟩
      rw [← collapseRuns_fixed hfree]
      exact collapseRuns_within hin
    · intro reading hr word hm _ hin
      exact hc ⟨reading, hr, word, hm, hin⟩

def Lowercase (words : List JsString) : Prop :=
  ∀ word ∈ words, ∀ u ∈ word, 97 ≤ u.toNat ∧ u.toNat ≤ 122

/-- A word with an underscore behind every letter. -/
def spaced (word : JsString) : JsString := word.flatMap (fun u => [u, underscore])

theorem lowercase_ne_underscore {u : UInt16} (h : 97 ≤ u.toNat ∧ u.toNat ≤ 122) : u ≠ underscore := by
  rintro rfl
  exact absurd h (by decide)

theorem mem_spaced {u : UInt16} {word : JsString} (h : u ∈ spaced word) : u = underscore ∨ u ∈ word := by
  obtain ⟨v,hv,hu⟩ := List.mem_flatMap.mp h
  simp only [List.mem_cons, List.not_mem_nil, or_false] at hu
  rcases hu with rfl | rfl
  · exact Or.inr hv
  · exact Or.inl rfl

theorem spaced_chain (word : JsString) :
    (spaced word).IsChain (fun u v => u = underscore ∨ v = underscore) := by
  induction word with
  | nil => exact List.isChain_nil
  | cons u word ih =>
    change List.IsChain _ (u :: underscore :: spaced word)
    refine List.isChain_cons_cons.mpr ⟨Or.inr rfl, ?_⟩
    exact ih.cons (fun _ _ => Or.inl rfl)

theorem stripped_spaced {word : JsString} (h : ∀ u ∈ word, 97 ≤ u.toNat ∧ u.toNat ≤ 122) :
    stripped (spaced word) = word := by
  induction word with
  | nil => rfl
  | cons u word ih =>
    have hu : (u != underscore) = true := by
      simpa using lowercase_ne_underscore (h u List.mem_cons_self)
    change (u :: underscore :: spaced word).filter (· != underscore) = _
    simp only [List.filter_cons, hu, ↓reduceIte, bne_self_eq_false, Bool.false_eq_true]
    exact congrArg _ (ih (fun v hv => h v (List.mem_cons_of_mem _ hv)))

theorem reads_spaced {word reading : JsString} (h : ∀ u ∈ word, 97 ≤ u.toNat ∧ u.toNat ≤ 122) :
    Reads (spaced word) reading ↔ reading = word := by
  rw [Reads, stripped_spaced h]
  exact reads_fixed (fun u hu => letters_letter (h u hu).1)

theorem allowlist_plain : allowlist.all (fun tag => tag.all (· != underscore) && !tag.isEmpty) = true := by
  decide

theorem spaced_checked {word : JsString} (h : ∀ u ∈ word, 97 ≤ u.toNat ∧ u.toNat ≤ 122) :
    Checked (spaced word) := by
  have hunit : ∀ u ∈ spaced word, u = underscore ∨ (97 ≤ u.toNat ∧ u.toNat ≤ 122) := by
    intro u hu
    rcases mem_spaced hu with rfl | hu
    · exact Or.inl rfl
    · exact Or.inr (h u hu)
  refine ⟨?_, ?_, ?_⟩
  · intro u hu
    rcases hunit u hu with rfl | hr
    · decide
    · exact (isTagUnit_iff u).mpr (Or.inl hr)
  · intro hm
    have hall := List.all_eq_true.mp allowlist_plain _ hm
    simp only [Bool.and_eq_true] at hall
    cases word with
    | nil => exact absurd hall.2 (by decide)
    | cons u word =>
      have := List.all_eq_true.mp hall.1 underscore (List.mem_cons_of_mem _ List.mem_cons_self)
      exact absurd this (by decide)
  · rw [List.countP_eq_zero.mpr]
    · exact Nat.zero_le _
    · intro u hu he
      rw [beq_iff_eq] at he
      subst he
      rcases hunit _ hu with he | hr
      · exact absurd he (by decide)
      · exact absurd hr (by decide)

/-- What a spaced word shows as it is written, it shows with its runs collapsed. -/
theorem spaced_shows {words : List JsString} (hw : Lowercase words) {word : JsString}
    (h : Occurs words (spaced word)) : Occurs words (collapseRuns word) := by
  obtain ⟨shown,hm,hin⟩ := h
  refine ⟨shown, hm, ?_⟩
  have hlow := hw shown hm
  cases shown with
  | nil => exact List.nil_infix
  | cons u rest =>
    have hu := lowercase_ne_underscore (hlow u List.mem_cons_self)
    cases rest with
    | nil =>
      have hmem : u ∈ word := (mem_spaced (hin.subset List.mem_cons_self)).resolve_left hu
      obtain ⟨pre,post,rfl⟩ := List.append_of_mem hmem
      have hone : [u] <:+: pre ++ u :: post := ⟨pre, post, by simp⟩
      exact collapseRuns_within hone
    | cons v rest =>
      have hv := lowercase_ne_underscore (hlow v (List.mem_cons_of_mem _ List.mem_cons_self))
      have hchain := List.IsChain.infix (spaced_chain word) hin
      have hc := List.isChain_cons_cons.mp hchain
      exact absurd hc.1 (fun hor => hor.elim hu hv)

/-- No disguise helps against a list exactly when each word's letters, runs collapsed, show
a listed word again. -/
theorem all_seenThrough_iff {words : List JsString} (hw : Lowercase words) :
    (∀ tag, Checked tag → SeenThrough words tag) ↔
      ∀ word ∈ words, Occurs words (collapseRuns word) := by
  constructor
  · intro h word hm
    have hlow := hw word hm
    have hs := h (spaced word) (spaced_checked hlow)
      ⟨word, (reads_spaced hlow).mpr rfl, word, hm, List.infix_refl word⟩
    rcases (blocked_iff words (spaced_checked hlow)).mp hs.blocked with hin | ⟨reading,hr,hin⟩
    · exact spaced_shows hw hin
    · rwa [(reads_spaced hlow).mp hr] at hin
  · rintro h tag hc ⟨reading,hr,word,hm,hin⟩
    refine (refused_iff _ _).mpr ((blocked_iff words hc).mpr (Or.inr ⟨reading, hr, ?_⟩))
    exact (h word hm).mono (collapseRuns_within hin)

/-- A disguise helps the names that escape and no others, and there are none exactly when
every listed word shows a listed word with its runs collapsed. -/
theorem disguise_iff (words : List JsString) :
    (∀ tag, Checked tag → (SeenThrough words tag ↔ ¬ Escapes words tag)) ∧
      (Lowercase words → ((∀ tag, Checked tag → SeenThrough words tag) ↔
        ∀ word ∈ words, Occurs words (collapseRuns word))) :=
  ⟨fun _ h => seenThrough_iff words h, all_seenThrough_iff⟩

def sampleWords : List JsString := [js "fuck", js "pussy"]

theorem sampleWords_lowercase : Lowercase sampleWords := by
  have h : sampleWords.all (fun word => word.all (fun u => 97 ≤ u.toNat ∧ u.toNat ≤ 122)) = true := by
    decide
  intro word hw u hu
  exact of_decide_eq_true (List.all_eq_true.mp (List.all_eq_true.mp h word hw) u hu)

theorem checked_of_decide {tag : JsString} (h : (tag.all isTagUnit && !allowlist.contains tag &&
    decide (tag.countP (· == digitOne) ≤ 12)) = true) : Checked tag := by
  simp only [Bool.and_eq_true, Bool.not_eq_true', decide_eq_true_eq] at h
  exact ⟨List.all_eq_true.mp h.1.1, fun hm => by simp [hm] at h, h.2⟩

/-- One word of the two is always seen through, the other is not. -/
theorem disguise_sample : SeenThrough sampleWords (js "f_u_c_k") ∧
    ¬ ∀ tag, Checked tag → SeenThrough sampleWords tag := by
  have hc : Checked (js "f_u_c_k") := checked_of_decide (by decide)
  constructor
  · refine ((disguise_iff sampleWords).1 _ hc).mpr (fun he => ?_)
    exact he.uncollapsed (js "fuck") ((mem_readings letters).mp (by decide)) (js "fuck")
      (by decide) (by decide) (by rw [collapseRuns_fixed (by decide)])
  · intro h
    have hall := ((disguise_iff sampleWords).2 sampleWords_lowercase).mp h
    have hin := (any_includes _ _).mpr (hall (js "pussy") (by decide))
    exact absurd hin (by decide)

/-- `pussy` behind one underscore: the text has no listed word in it, and the runs of its
one reading are collapsed before it is tested. -/
theorem pussy_unseen : Checked (js "p_ussy") ∧ ¬ SeenThrough sampleWords (js "p_ussy") := by
  refine ⟨checked_of_decide (by decide), fun h => ?_⟩
  have hspell : Spells sampleWords (js "p_ussy") :=
    ⟨js "pussy", (mem_readings letters).mp (by decide), js "pussy", by decide,
      List.infix_refl _⟩
  have hopen : isBlockedName (wordEngine sampleWords) (js "p_ussy") = .ok false := by
    decide
  have hblocked := (h hspell).blocked
  rw [hopen] at hblocked
  cases hblocked

end Tagwise.Proofs.Disguise
