import Mathlib.Data.List.Basic

/-! A limiter of fixed windows: so many calls in a window, and one more starts a block.
Times are whole numbers of any unit. -/

namespace Tagwise.Lib

structure Limits where
  ttl : Nat
  limit : Nat
  blockDuration : Nat
  opens : 0 < ttl
  admits : 0 < limit
  blocks : 0 < blockDuration

inductive Limiter
  | idle
  | counting (windowEnd hits : Nat)
  | blocked (windowEnd blockEnd : Nat)
  deriving DecidableEq

/-- What a call is told: its number in the window, and the ends of the window and of the block
that refuses it. -/
structure LimiterAnswer where
  hits : Nat
  windowEnd : Nat
  blockEnd : Option Nat
  deriving DecidableEq

namespace Limiter
variable (l : Limits)

/-- The first call of a window. -/
def fresh (now : Nat) : Limiter × LimiterAnswer :=
  (.counting (now + l.ttl) 1, ⟨1, now + l.ttl, none⟩)

def call : Limiter → Nat → Limiter × LimiterAnswer
  | .idle, now => fresh l now
  | .counting windowEnd hits, now =>
    if now < windowEnd then
      if hits < l.limit then (.counting windowEnd (hits + 1), ⟨hits + 1, windowEnd, none⟩)
      else (.blocked windowEnd (now + l.blockDuration),
        ⟨l.limit + 1, windowEnd, some (now + l.blockDuration)⟩)
    else fresh l now
  | .blocked windowEnd blockEnd, now =>
    if now < blockEnd then (.blocked windowEnd blockEnd, ⟨l.limit + 1, windowEnd, some blockEnd⟩)
    else fresh l now

/-- The calls, each with its answer. -/
def answers (s : Limiter) : List Nat → List (Nat × LimiterAnswer)
  | [] => []
  | now :: nows => (now, (call l s now).2) :: answers (call l s now).1 nows

/-- The calls of the window opened at `opened`, numbered from `before`. -/
def admitted (opened before : Nat) : List Nat → List (Nat × LimiterAnswer)
  | [] => []
  | now :: nows => (now, ⟨before + 1, opened + l.ttl, none⟩) :: admitted opened (before + 1) nows

/-- The calls under the block that starts at `start` in that window. -/
def refused (opened start : Nat) (nows : List Nat) : List (Nat × LimiterAnswer) :=
  nows.map (fun now => (now, ⟨l.limit + 1, opened + l.ttl, some (start + l.blockDuration)⟩))

/-- The answers follow one another in rounds, each a window and the block it may end in. -/
inductive Rounds : List (Nat × LimiterAnswer) → Prop
  | none : Rounds []
  /-- A window of as many calls as the limit at most, and the next call after its end. -/
  | window (opened : Nat) (nows : List Nat) (rest : List (Nat × LimiterAnswer))
      (inside : ∀ now ∈ nows, now < opened + l.ttl) (fits : nows.length + 1 ≤ l.limit)
      (past : ∀ next ∈ rest.head?, opened + l.ttl ≤ next.1) (more : Rounds rest) :
      Rounds (admitted l opened 0 (opened :: nows) ++ rest)
  /-- A full window, the call in it that is one too many, and the next call after its block. -/
  | block (opened : Nat) (nows : List Nat) (start : Nat) (during : List Nat)
      (rest : List (Nat × LimiterAnswer)) (inside : ∀ now ∈ nows, now < opened + l.ttl)
      (full : nows.length + 1 = l.limit) (early : start < opened + l.ttl)
      (under : ∀ now ∈ during, now < start + l.blockDuration)
      (past : ∀ next ∈ rest.head?, start + l.blockDuration ≤ next.1) (more : Rounds rest) :
      Rounds (admitted l opened 0 (opened :: nows) ++ refused l opened start (start :: during) ++ rest)

variable {l}

/-- Once the window is over, the limiter is as good as idle. -/
theorem counting_over {windowEnd hits now : Nat} (h : windowEnd ≤ now) :
    call l (.counting windowEnd hits) now = fresh l now :=
  if_neg (Nat.not_lt.mpr h)

theorem blocked_over {windowEnd blockEnd now : Nat} (h : blockEnd ≤ now) :
    call l (.blocked windowEnd blockEnd) now = fresh l now :=
  if_neg (Nat.not_lt.mpr h)

theorem answers_fresh {s : Limiter} {now : Nat} (h : call l s now = fresh l now) (nows : List Nat) :
    answers l s (now :: nows) = answers l .idle (now :: nows) := by
  rw [answers, answers, h]
  rfl

/-- Under a block: the calls up to its end, and those after it as from the start. -/
theorem answers_blocked (opened start : Nat) (nows : List Nat) :
    ∃ during rest, nows = during ++ rest ∧ (∀ now ∈ during, now < start + l.blockDuration) ∧
      (∀ next ∈ rest.head?, start + l.blockDuration ≤ next) ∧
      answers l (.blocked (opened + l.ttl) (start + l.blockDuration)) nows =
        refused l opened start during ++ answers l .idle rest := by
  induction nows with
  | nil => exact ⟨[],[],rfl,by simp,by simp,rfl⟩
  | cons now nows ih =>
    by_cases h : now < start + l.blockDuration
    · obtain ⟨during,rest,rfl,hunder,hover,he⟩ := ih
      refine ⟨now :: during,rest,rfl,?_,hover,?_⟩
      · intro n hn
        rcases List.mem_cons.mp hn with rfl | hn
        · exact h
        · exact hunder n hn
      · rw [answers, call, if_pos h, he]
        rfl
    · refine ⟨[],now :: nows,rfl,by simp,?_,answers_fresh (blocked_over (Nat.le_of_not_lt h)) nows⟩
      intro next hn
      cases hn
      exact Nat.le_of_not_lt h

/-- In a window: the calls up to its end, or up to the limit and the one too many. -/
theorem answers_counting (opened hits : Nat) (nows : List Nat) (hfits : hits ≤ l.limit) :
    ∃ inside rest, nows = inside ++ rest ∧ (∀ now ∈ inside, now < opened + l.ttl) ∧
      hits + inside.length ≤ l.limit ∧
      ((∀ next ∈ rest.head?, opened + l.ttl ≤ next) ∧
        answers l (.counting (opened + l.ttl) hits) nows =
          admitted l opened hits inside ++ answers l .idle rest ∨
      ∃ start later, rest = start :: later ∧ start < opened + l.ttl ∧
        hits + inside.length = l.limit ∧
        answers l (.counting (opened + l.ttl) hits) nows =
          admitted l opened hits inside ++
            (start, ⟨l.limit + 1, opened + l.ttl, some (start + l.blockDuration)⟩) ::
              answers l (.blocked (opened + l.ttl) (start + l.blockDuration)) later) := by
  induction nows generalizing hits with
  | nil => exact ⟨[],[],rfl,by simp,hfits,.inl ⟨by simp,rfl⟩⟩
  | cons now nows ih =>
    by_cases h : now < opened + l.ttl
    · by_cases hroom : hits < l.limit
      · obtain ⟨inside,rest,rfl,hin,hlength,hcases⟩ := ih (hits + 1) hroom
        have hstep : answers l (.counting (opened + l.ttl) hits) (now :: (inside ++ rest)) =
            (now, ⟨hits + 1, opened + l.ttl, none⟩) ::
              answers l (.counting (opened + l.ttl) (hits + 1)) (inside ++ rest) := by
          rw [answers, call, if_pos h, if_pos hroom]
        refine ⟨now :: inside,rest,rfl,?_,by rw [List.length_cons]; omega,?_⟩
        · intro n hn
          rcases List.mem_cons.mp hn with rfl | hn
          · exact h
          · exact hin n hn
        · rw [hstep]
          rcases hcases with ⟨hover,he⟩ | ⟨start,later,hrest,hearly,hfull,he⟩
          · exact .inl ⟨hover,by rw [he]; rfl⟩
          · exact .inr ⟨start,later,hrest,hearly,by rw [List.length_cons]; omega,by rw [he]; rfl⟩
      · have hfull : hits = l.limit := Nat.le_antisymm hfits (Nat.le_of_not_lt hroom)
        refine ⟨[],now :: nows,rfl,by simp,hfits,.inr ⟨now,nows,rfl,h,hfull,?_⟩⟩
        rw [answers, call, if_pos h, if_neg hroom]
        rfl
    · refine ⟨[],now :: nows,rfl,by simp,hfits,.inl ⟨?_,?_⟩⟩
      · intro next hn
        cases hn
        exact Nat.le_of_not_lt h
      · exact answers_fresh (counting_over (Nat.le_of_not_lt h)) nows

theorem answers_times (s : Limiter) (nows : List Nat) : (answers l s nows).map Prod.fst = nows := by
  induction nows generalizing s with
  | nil => rfl
  | cons now nows ih => rw [answers, List.map_cons, ih]

theorem answers_head (s : Limiter) (nows : List Nat) (t : Nat) :
    (∀ next ∈ (answers l s nows).head?, t ≤ next.1) ↔ ∀ next ∈ nows.head?, t ≤ next := by
  cases nows with
  | nil => simp [answers]
  | cons now nows => simp [answers]

/-- From the start, the answers are rounds. -/
theorem answers_rounds (nows : List Nat) : Rounds l (answers l .idle nows) := by
  match nows with
  | [] => exact .none
  | opened :: later =>
    have hopen : answers l .idle (opened :: later) =
        (opened, ⟨1, opened + l.ttl, none⟩) :: answers l (.counting (opened + l.ttl) 1) later := rfl
    obtain ⟨inside,rest,hlater,hin,hfits,hcases⟩ := answers_counting opened 1 later l.admits
    rcases hcases with ⟨hover,he⟩ | ⟨start,after,rfl,hearly,hfull,he⟩
    · have hmore : Rounds l (answers l .idle rest) := answers_rounds rest
      rw [hopen, he]
      exact .window opened inside _ hin (by omega) ((answers_head _ _ _).mpr hover) hmore
    · obtain ⟨during,rest,hafter,hunder,hover,hb⟩ := answers_blocked (l := l) opened start after
      have hmore : Rounds l (answers l .idle rest) := answers_rounds rest
      have hround := Rounds.block opened inside start during _ hin (by omega) hearly hunder
        ((answers_head (l := l) .idle rest _).mpr hover) hmore
      rw [hopen, he, hb]
      simpa [admitted, refused] using hround
termination_by nows.length
decreasing_by
  all_goals subst_vars
  all_goals simp only [List.length_cons, List.length_append]
  all_goals omega

/-- The limiter still blocks at `now`, when the window its block began in is over. -/
def Outlasts : Limiter → Nat → Prop
  | .blocked windowEnd blockEnd, now => windowEnd < now ∧ now < blockEnd
  | _, _ => False

variable (l) in
/-- No call comes under a block that has outlasted its window. -/
def Inside (s : Limiter) : List Nat → Prop
  | [] => True
  | now :: nows => ¬ Outlasts s now ∧ Inside (call l s now).1 nows

variable (l) in
/-- A window is over in a ttl, and a block that began in it in its duration. -/
def Due (now : Nat) : Limiter → Prop
  | .idle => True
  | .counting windowEnd _ => windowEnd ≤ now + l.ttl
  | .blocked windowEnd blockEnd => windowEnd ≤ now + l.ttl ∧ blockEnd ≤ now + l.blockDuration ∧
      blockEnd < windowEnd + l.blockDuration

variable (l) in
/-- What an answer at `now` can say, whether or not it comes in time for its window. -/
structure Bounded (now : Nat) (answer : LimiterAnswer) : Prop where
  hits : 1 ≤ answer.hits ∧ answer.hits ≤ l.limit + 1
  windowEnd : answer.windowEnd ≤ now + l.ttl
  blockEnd : ∀ blockEnd ∈ answer.blockEnd, now < blockEnd ∧ blockEnd ≤ now + l.blockDuration

section Due
variable {s : Limiter} {now now' : Nat}

variable (l now) in
theorem fresh_due : Due l now (fresh l now).1 ∧ Bounded l now (fresh l now).2 ∧
    now ≤ (fresh l now).2.windowEnd :=
  ⟨Nat.le_refl _,⟨⟨Nat.le_refl 1,Nat.le_add_left 1 _⟩,Nat.le_refl _,by simp [fresh]⟩,
    Nat.le_add_right _ _⟩

/-- One call: what it is told is bounded, and it comes after its window's end under such a
block only. -/
theorem call_due (h : Due l now s) (hle : now ≤ now') :
    Due l now' (call l s now').1 ∧ Bounded l now' (call l s now').2 ∧
      (now' ≤ (call l s now').2.windowEnd ↔ ¬ Outlasts s now') := by
  have hfresh : Due l now' (fresh l now').1 ∧ Bounded l now' (fresh l now').2 ∧
      (now' ≤ (fresh l now').2.windowEnd ↔ ¬ False) := by
    obtain ⟨hdue,hbounded,hin⟩ := fresh_due l now'
    exact ⟨hdue,hbounded,fun _ => id,fun _ => hin⟩
  cases s with
  | idle => exact hfresh
  | counting windowEnd hits =>
    by_cases hopen : now' < windowEnd
    · have hend : windowEnd ≤ now' + l.ttl := Nat.le_trans h (Nat.add_le_add_right hle _)
      have hin : now' ≤ windowEnd ↔ ¬ False := ⟨fun _ => id,fun _ => Nat.le_of_lt hopen⟩
      rw [call, if_pos hopen]
      by_cases hroom : hits < l.limit
      · rw [if_pos hroom]
        exact ⟨hend,⟨⟨Nat.le_add_left 1 _,Nat.le_trans hroom (Nat.le_add_right _ _)⟩,hend,by simp⟩,
          hin⟩
      · rw [if_neg hroom]
        refine ⟨⟨hend,Nat.le_refl _,Nat.add_lt_add_right hopen _⟩,
          ⟨⟨Nat.le_add_left 1 _,Nat.le_refl _⟩,hend,fun blockEnd he => ?_⟩,hin⟩
        cases he
        exact ⟨Nat.lt_add_of_pos_right l.blocks,Nat.le_refl _⟩
    · rw [counting_over (Nat.le_of_not_lt hopen)]
      exact hfresh
  | blocked windowEnd blockEnd =>
    obtain ⟨hwindow,hblock,hearly⟩ := h
    by_cases hunder : now' < blockEnd
    · have hwindow : windowEnd ≤ now' + l.ttl := by omega
      have hblock : blockEnd ≤ now' + l.blockDuration := by omega
      rw [call, if_pos hunder]
      refine ⟨⟨hwindow,hblock,hearly⟩,
        ⟨⟨Nat.le_add_left 1 _,Nat.le_refl _⟩,hwindow,fun blockEnd' he => ?_⟩,?_⟩
      · cases he
        exact ⟨hunder,hblock⟩
      · exact ⟨fun hin hout => Nat.not_lt.mpr hin hout.1,
          fun hout => Nat.le_of_not_lt (fun hpast => hout ⟨hpast,hunder⟩)⟩
    · have hnot : ¬ Outlasts (.blocked windowEnd blockEnd) now' := fun hout => hunder hout.2
      obtain ⟨hdue,hbounded,hin⟩ := hfresh
      rw [blocked_over (Nat.le_of_not_lt hunder)]
      exact ⟨hdue,hbounded,fun _ => hnot,fun _ => hin.mpr id⟩

/-- A block of two units at most is over before a call can come after its window. -/
theorem inside_of_short (hshort : l.blockDuration ≤ 2) {nows : List Nat} (h : Due l now s)
    (horder : (now :: nows).Pairwise (· ≤ ·)) : Inside l s nows := by
  induction nows generalizing now s with
  | nil => trivial
  | cons next nows ih =>
    obtain ⟨hle,hrest⟩ := List.pairwise_cons.mp horder
    obtain ⟨hdue,_,_⟩ := call_due h (hle next List.mem_cons_self)
    refine ⟨fun hout => ?_,ih hdue hrest⟩
    cases s with
    | idle => exact hout
    | counting windowEnd hits => exact hout
    | blocked windowEnd blockEnd =>
      obtain ⟨_,_,hearly⟩ := h
      obtain ⟨hpast,hunder⟩ := hout
      omega

/-- As many calls at once as fill the window, and one more. -/
theorem inside_fill {windowEnd hits n : Nat} {rest : List Nat} (hfull : hits + n = l.limit)
    (hopen : now < windowEnd)
    (h : Inside l (.counting windowEnd hits) (List.replicate (n + 1) now ++ rest)) :
    Inside l (.blocked windowEnd (now + l.blockDuration)) rest := by
  induction n generalizing hits with
  | zero =>
    obtain ⟨_,hrest⟩ := h
    rwa [call, if_pos hopen, if_neg (by omega)] at hrest
  | succ n ih =>
    obtain ⟨_,hrest⟩ := h
    rw [call, if_pos hopen, if_pos (by omega)] at hrest
    exact ih (by omega) hrest

variable (l) in
/-- Calls that fill a window in its last unit of time, and one just after its end. -/
def overrun : List Nat := 0 :: (List.replicate l.limit (l.ttl - 1) ++ [l.ttl + 1])

theorem overrun_ordered : (overrun l).Pairwise (· ≤ ·) := by
  refine List.pairwise_cons.mpr ⟨fun _ _ => Nat.zero_le _,List.pairwise_append.mpr ⟨?_,?_,?_⟩⟩
  · exact List.pairwise_replicate.mpr (.inr (Nat.le_refl _))
  · exact List.pairwise_singleton _ _
  · intro now hnow last hlast
    rw [(List.mem_replicate.mp hnow).2, List.mem_singleton.mp hlast]
    omega

/-- No order of calls brings one under a block that has outlasted its window exactly when
blocks last two units at most. -/
theorem inside_iff : (∀ nows : List Nat, nows.Pairwise (· ≤ ·) → Inside l .idle nows) ↔
    l.blockDuration ≤ 2 := by
  constructor
  · intro h
    have hrun := h (overrun l) overrun_ordered
    obtain ⟨n,hn⟩ := Nat.exists_eq_succ_of_ne_zero (Nat.ne_of_gt l.admits)
    have hopens := l.opens
    rw [overrun, hn] at hrun
    obtain ⟨_,hrest⟩ := hrun
    obtain ⟨hlast,_⟩ := inside_fill (by omega) (by omega) hrest
    rw [Outlasts] at hlast
    omega
  · intro hshort nows horder
    have hstart : Due l 0 .idle := trivial
    exact inside_of_short hshort hstart
      (List.pairwise_cons.mpr ⟨fun _ _ => Nat.zero_le _,horder⟩)

end Due

end Limiter

end Tagwise.Lib
