import Tagwise.Lib.Pool

/-! What the record of a pool says of its threads: each stands where its own replies
have taken it, and each reply is the service's answer in the state it found. -/

namespace Tagwise.Lib

variable {C : Type} {R : C → Type} {ε α σ κ ω : Type}

/-- The second program is what the replies leave of the first. -/
inductive Follows : Prog C R ε α → List (Entry C R σ) → Prog C R ε α → Prop
  | start (p : Prog C R ε α) : Follows p [] p
  | heard {c : C} {k : R c → Prog C R ε α} {es : List (Entry C R σ)} {q : Prog C R ε α}
      (who : Nat) (found : σ) (r : R c) (rest : Follows (k r) es q) :
      Follows (.call c k) (⟨who, found, c, r⟩ :: es) q

theorem Follows.snoc {p : Prog C R ε α} {es : List (Entry C R σ)} {c : C}
    {k : R c → Prog C R ε α} (h : Follows p es (.call c k)) (who : Nat) (found : σ) (r : R c) :
    Follows p (es ++ [⟨who, found, c, r⟩]) (k r) := by
  generalize hq : Prog.call c k = q at h
  induction h with
  | start p =>
    subst hq
    exact .heard who found r (.start _)
  | heard who' found' r' rest ih => exact .heard who' found' r' (ih hq)

theorem Follows.call_inv {c : C} {k : R c → Prog C R ε α} {es : List (Entry C R σ)}
    {q : Prog C R ε α} (h : Follows (.call c k) es q) :
    es = [] ∧ q = .call c k ∨
    ∃ who found r rest, es = ⟨who, found, c, r⟩ :: rest ∧ Follows (k r) rest q := by
  cases h with
  | start => exact .inl ⟨rfl,rfl⟩
  | heard who found r rest => exact .inr ⟨who,found,r,_,rfl,rest⟩

theorem Follows.done_inv {a : α} {es : List (Entry C R σ)} {q : Prog C R ε α}
    (h : Follows (.done a) es q) : es = [] ∧ q = .done a := by
  cases h
  exact ⟨rfl,rfl⟩

theorem Follows.fail_inv {e : ε} {es : List (Entry C R σ)} {q : Prog C R ε α}
    (h : Follows (.fail e) es q) : es = [] ∧ q = .fail e := by
  cases h
  exact ⟨rfl,rfl⟩

/-- What is left of a sequence: what is left of its first part, or of its second. -/
theorem Follows.bind_inv {β : Type} {p : Prog C R ε α} {f : α → Prog C R ε β}
    {es : List (Entry C R σ)} {q : Prog C R ε β} (h : Follows (p >>= f) es q) :
    (∃ q', Follows p es q' ∧ (∀ a, q' ≠ .done a) ∧ q = q' >>= f) ∨
    ∃ front back a, es = front ++ back ∧ Follows p front (.done a) ∧ Follows (f a) back q := by
  induction p generalizing es with
  | done a => exact .inr ⟨[],es,a,rfl,.start _,h⟩
  | fail e =>
    obtain ⟨rfl,rfl⟩ := h.fail_inv
    exact .inl ⟨.fail e,.start _,fun a ha => (by cases ha),rfl⟩
  | call c k ih =>
    rcases h.call_inv with ⟨rfl,rfl⟩ | ⟨who,found,r,rest,rfl,hrest⟩
    · exact .inl ⟨.call c k,.start _,fun a ha => (by cases ha),rfl⟩
    rcases ih r hrest with ⟨q',hq,hne,rfl⟩ | ⟨front,back,a,rfl,hf,hb⟩
    · exact .inl ⟨q',.heard who found r hq,hne,rfl⟩
    · exact .inr ⟨⟨who, found, c, r⟩ :: front,back,a,rfl,.heard who found r hf,hb⟩

/-- Only commands the program can send are ever sent. -/
theorem Follows.always {P : C → Prop} {p q : Prog C R ε α} {es : List (Entry C R σ)}
    (h : Follows p es q) (hp : p.Always P) : ∀ e ∈ es, P e.command := by
  induction h with
  | start p => exact fun e he => by cases he
  | heard who found r rest ih =>
    intro e he
    rcases List.mem_cons.mp he with rfl | he
    · exact hp.1
    · exact ih (hp.2 r) e he

theorem Follows.stands {P : C → Prop} {p : Prog C R ε α} {es : List (Entry C R σ)} {c : C}
    {k : R c → Prog C R ε α} (h : Follows p es (.call c k)) (hp : p.Always P) : P c := by
  generalize hq : Prog.call c k = q at h
  induction h with
  | start p =>
    subst hq
    exact hp.1
  | heard who found r rest ih => exact ih (hp.2 r) hq

def own (trace : List (Entry C R σ)) (i : Nat) : List (Entry C R σ) :=
  trace.filter (fun e => e.who = i)

theorem own_append (trace tail : List (Entry C R σ)) (i : Nat) :
    own (trace ++ tail) i = own trace i ++ own tail i := List.filter_append ..

theorem mem_own {trace : List (Entry C R σ)} {i : Nat} {e : Entry C R σ} :
    e ∈ own trace i ↔ e ∈ trace ∧ e.who = i := by
  simp [own, List.mem_filter]

theorem own_self (e : Entry C R σ) : own [e] e.who = [e] := by
  simp [own]

theorem own_other {e : Entry C R σ} {i : Nat} (h : e.who ≠ i) : own [e] i = [] := by
  simp [own, h]

theorem eq_of_filterMap_nodup {α β : Type} {f : α → Option β} {l : List α} {b : β}
    (h : (l.filterMap f).Nodup) {x y : α} (hx : x ∈ l) (hy : y ∈ l) (hfx : f x = some b)
    (hfy : f y = some b) : x = y := by
  induction l with
  | nil => cases hx
  | cons z l ih =>
    cases hz : f z with
    | none =>
      rw [List.filterMap_cons_none hz] at h
      have hne : ∀ w, f w = some b → w ≠ z := by
        rintro w hw rfl
        rw [hz] at hw
        cases hw
      exact ih h (List.mem_of_ne_of_mem (hne x hfx) hx) (List.mem_of_ne_of_mem (hne y hfy) hy)
    | some c =>
      rw [List.filterMap_cons_some hz, List.nodup_cons] at h
      have hmem : ∀ w ∈ l, f w = some b → c ≠ b := by
        rintro w hw hfw rfl
        exact h.1 (List.mem_filterMap.mpr ⟨w,hw,hfw⟩)
      rcases List.mem_cons.mp hx with hxz | hxl
      · rcases List.mem_cons.mp hy with hyz | hyl
        · rw [hxz, hyz]
        · exact absurd (Option.some.inj (hz.symm.trans (hxz ▸ hfx))) (hmem y hyl hfy)
      · rcases List.mem_cons.mp hy with hyz | hyl
        · exact absurd (Option.some.inj (hz.symm.trans (hyz ▸ hfy))) (hmem x hxl hfx)
        · exact ih h.2 hxl hyl

variable (handle : σ → (c : C) → Option (σ × R c)) (body : κ → Prog C R ε α)

structure Recorded (pool : Pool C R ε α σ κ) : Prop where
  follows : ∀ i t, pool.threads[i]? = some t → Follows (body t.call) (own pool.trace i) t.rest
  known : ∀ e ∈ pool.trace, e.who < pool.threads.length
  answered : ∀ e ∈ pool.trace, ∃ s, handle e.found e.command = some (s, e.reply)

variable {handle body} {act : σ → ω → σ}

theorem init_recorded (s : σ) : Recorded handle body (Pool.init s) :=
  ⟨fun _ _ h => (by cases h),fun _ h => (by cases h),fun _ h => (by cases h)⟩

theorem own_unknown {pool : Pool C R ε α σ κ}
    (h : ∀ e ∈ pool.trace, e.who < pool.threads.length) : own pool.trace pool.threads.length = [] := by
  apply List.filter_eq_nil_iff.mpr
  intro e he
  have := h e he
  simp only [decide_eq_true_eq]
  omega

theorem step_recorded (pool : Pool C R ε α σ κ) (event : Event κ ω)
    (h : Recorded handle body pool) : Recorded handle body (pool.step handle body act event) := by
  cases event with
  | spawn call =>
    refine ⟨fun i t ht => ?_,fun e he => ?_,h.answered⟩
    · simp only [Pool.step] at ht ⊢
      rw [List.getElem?_append] at ht
      split at ht
      · exact h.follows i t ht
      · rename_i hge
        obtain ⟨hi,rfl⟩ : i = pool.threads.length ∧ t = ⟨call, body call⟩ := by
          rcases Nat.eq_or_lt_of_le (Nat.le_of_not_lt hge) with he | hlt
          · subst he
            simp only [Nat.sub_self, List.getElem?_cons_zero, Option.some.injEq] at ht
            exact ⟨rfl,ht.symm⟩
          · have hsub : i - pool.threads.length ≠ 0 := by omega
            rw [List.getElem?_eq_none (by simp; omega)] at ht
            cases ht
        rw [hi, own_unknown h.known]
        exact .start _
    · have := h.known e he
      simp only [Pool.step, List.length_append, List.length_cons, List.length_nil]
      omega
  | turn who =>
    rcases pool.turn_cases handle who with he | ⟨call,c,k,s',r,ht,hh,he⟩
    · rw [Pool.step, he]
      exact h
    · rw [Pool.step, he]
      have hwho : who < pool.threads.length := (List.getElem?_eq_some_iff.mp ht).1
      refine ⟨fun i t hi => ?_,fun e hm => ?_,fun e hm => ?_⟩
      · simp only at hi ⊢
        rw [own_append]
        rw [List.getElem?_set] at hi
        split at hi
        · rename_i hw
          subst hw
          cases hi
          rw [own_self ⟨who, pool.shared, c, r⟩]
          exact (h.follows who _ ht).snoc who pool.shared r
        · rename_i hw
          rw [own_other hw, List.append_nil]
          exact h.follows i t hi
      · rw [List.length_set]
        rcases List.mem_append.mp hm with hm | hm
        · exact h.known e hm
        · rw [List.mem_singleton.mp hm]
          exact hwho
      · rcases List.mem_append.mp hm with hm | hm
        · exact h.answered e hm
        · rw [List.mem_singleton.mp hm]
          exact ⟨s',hh⟩
  | outside what => exact ⟨h.follows,h.known,h.answered⟩

/-- A thread that has returned is left alone. -/
theorem step_done (pool : Pool C R ε α σ κ) (event : Event κ ω) {i : Nat} {call : κ} {a : α}
    (h : pool.threads[i]? = some ⟨call, .done a⟩) :
    (pool.step handle body act event).threads[i]? = some ⟨call, .done a⟩ := by
  cases event with
  | spawn call' =>
    simp only [Pool.step]
    rw [List.getElem?_append_left (List.getElem?_eq_some_iff.mp h).1]
    exact h
  | turn who =>
    rcases pool.turn_cases handle who with he | ⟨call',c,k,s',r,ht,hh,he⟩
    · rw [Pool.step, he]
      exact h
    · have hne : who ≠ i := by
        rintro rfl
        rw [h] at ht
        cases ht
      rw [Pool.step, he]
      simp only
      rw [List.getElem?_set_ne hne]
      exact h
  | outside what => exact h

/-- The record only grows. -/
theorem step_trace (pool : Pool C R ε α σ κ) (event : Event κ ω) :
    ∃ tail, (pool.step handle body act event).trace = pool.trace ++ tail := by
  cases event with
  | spawn call => exact ⟨[],(List.append_nil _).symm⟩
  | turn who =>
    rcases pool.turn_cases handle who with he | ⟨call,c,k,s',r,ht,hh,he⟩
    · exact ⟨[],by rw [Pool.step, he, List.append_nil]⟩
    · exact ⟨_,by rw [Pool.step, he]⟩
  | outside what => exact ⟨[],(List.append_nil _).symm⟩

/-- Where a thread stood before a step: where it is, or it took the turn, or it is new. -/
theorem step_back (pool : Pool C R ε α σ κ) (event : Event κ ω) {i : Nat}
    {t : Thread C R ε α κ} (h : (pool.step handle body act event).threads[i]? = some t) :
    pool.threads[i]? = some t ∨
    (∃ c k, event = .turn i ∧ pool.threads[i]? = some ⟨t.call, .call c k⟩) ∨ t.rest = body t.call := by
  cases event with
  | spawn call =>
    simp only [Pool.step, List.getElem?_append] at h
    split at h
    · exact .inl h
    · obtain ⟨hlt,he⟩ := List.getElem?_eq_some_iff.mp h
      rw [List.getElem_singleton] at he
      subst he
      exact .inr (.inr rfl)
  | turn who =>
    rcases pool.turn_cases handle who with he | ⟨call,c,k,s',r,ht,hh,he⟩
    · rw [Pool.step, he] at h
      exact .inl h
    · rw [Pool.step, he] at h
      by_cases hw : who = i
      · subst hw
        rw [List.getElem?_set_self (List.getElem?_eq_some_iff.mp ht).1] at h
        cases h
        exact .inr (.inl ⟨c,k,rfl,ht⟩)
      · simp only at h
        rw [List.getElem?_set_ne hw] at h
        exact .inl h
  | outside what => exact .inl h

/-- A thread's call was there before a step, or the step has begun it. -/
theorem step_origin (pool : Pool C R ε α σ κ) (event : Event κ ω) {i : Nat}
    {t : Thread C R ε α κ} (h : (pool.step handle body act event).threads[i]? = some t) :
    (∃ rest, pool.threads[i]? = some ⟨t.call, rest⟩) ∨ event = .spawn t.call := by
  cases event with
  | spawn call =>
    simp only [Pool.step, List.getElem?_append] at h
    split at h
    · exact .inl ⟨t.rest,h⟩
    · obtain ⟨hlt,he⟩ := List.getElem?_eq_some_iff.mp h
      rw [List.getElem_singleton] at he
      subst he
      exact .inr rfl
  | turn who =>
    rcases pool.turn_cases handle who with he | ⟨call,c,k,s',r,ht,hh,he⟩
    · rw [Pool.step, he] at h
      exact .inl ⟨t.rest,h⟩
    · rw [Pool.step, he] at h
      by_cases hw : who = i
      · subst hw
        rw [List.getElem?_set_self (List.getElem?_eq_some_iff.mp ht).1] at h
        cases h
        exact .inl ⟨_,ht⟩
      · simp only at h
        rw [List.getElem?_set_ne hw] at h
        exact .inl ⟨t.rest,h⟩
  | outside what => exact .inl ⟨t.rest,h⟩

theorem step_call (pool : Pool C R ε α σ κ) (event : Event κ ω) {i : Nat}
    {call : κ} {before : Prog C R ε α} (h : pool.threads[i]? = some ⟨call, before⟩) :
    ∃ rest, (pool.step handle body act event).threads[i]? = some ⟨call, rest⟩ := by
  cases event with
  | spawn call' =>
    refine ⟨before,?_⟩
    simp only [Pool.step]
    rw [List.getElem?_append_left (List.getElem?_eq_some_iff.mp h).1]
    exact h
  | turn who =>
    rcases pool.turn_cases handle who with he | ⟨call',c,k,s',r,ht,hh,he⟩
    · exact ⟨before,by rw [Pool.step, he]; exact h⟩
    · rw [Pool.step, he]
      by_cases hw : who = i
      · subst hw
        rw [h] at ht
        cases ht
        exact ⟨_,List.getElem?_set_self (List.getElem?_eq_some_iff.mp h).1⟩
      · exact ⟨before,(List.getElem?_set_ne hw).trans h⟩
  | outside what => exact ⟨before,h⟩

/-- Every entry was recorded in a pool that had the entries before it, found the
entry's state, met the invariant and the condition, and has the same calls. -/
def Moments (I : Pool C R ε α σ κ → Prop) (Meets : Pool C R ε α σ κ → Event κ ω → Prop)
    (pool : Pool C R ε α σ κ) : Prop :=
  ∀ before e after, pool.trace = before ++ e :: after →
    ∃ (past : Pool C R ε α σ κ) (call : κ) (k : R e.command → Prog C R ε α), I past ∧
    Meets past (.turn e.who) ∧ past.trace = before ∧ past.shared = e.found ∧
    past.threads[e.who]? = some ⟨call, .call e.command k⟩ ∧
    ∀ (i : Nat) t, past.threads[i]? = some t → ∃ rest, pool.threads[i]? = some ⟨t.call, rest⟩

theorem snoc_split {l before after : List α} {x e : α} (h : l ++ [x] = before ++ e :: after) :
    (∃ rest, l = before ++ e :: rest ∧ after = rest ++ [x]) ∨ l = before ∧ x = e ∧ after = [] := by
  rcases List.eq_nil_or_concat after with rfl | ⟨rest,y,rfl⟩
  · obtain ⟨hl,hx⟩ := List.append_inj' h rfl
    cases hx
    exact .inr ⟨hl,rfl,rfl⟩
  · rw [List.concat_eq_append, ← List.cons_append, ← List.append_assoc] at h
    obtain ⟨hl,hx⟩ := List.append_inj' h rfl
    cases hx
    exact .inl ⟨rest,hl,List.concat_eq_append⟩

theorem step_moments {I : Pool C R ε α σ κ → Prop} {Meets : Pool C R ε α σ κ → Event κ ω → Prop}
    {pool : Pool C R ε α σ κ} {event : Event κ ω} (hi : I pool) (hm : Meets pool event)
    (h : Moments I Meets pool) : Moments I Meets (pool.step handle body act event) := by
  have hold : ∀ before e after, pool.trace = before ++ e :: after →
      ∃ (past : Pool C R ε α σ κ) (call : κ) (k : R e.command → Prog C R ε α), I past ∧
      Meets past (.turn e.who) ∧ past.trace = before ∧ past.shared = e.found ∧
      past.threads[e.who]? = some ⟨call, .call e.command k⟩ ∧
      ∀ (i : Nat) t, past.threads[i]? = some t →
        ∃ rest, (pool.step handle body act event).threads[i]? = some ⟨t.call, rest⟩ := by
    intro before e after hs
    obtain ⟨past,call,k,hp,hc,ht,hf,hthread,hcalls⟩ := h before e after hs
    refine ⟨past,call,k,hp,hc,ht,hf,hthread,fun i t hit => ?_⟩
    obtain ⟨rest,hrest⟩ := hcalls i t hit
    exact step_call pool event hrest
  intro before e after hs
  cases event with
  | spawn call => exact hold before e after hs
  | outside what => exact hold before e after hs
  | turn who =>
    rcases pool.turn_cases handle who with he | ⟨call,c,k,s',r,ht,hh,he⟩
    · refine hold before e after ?_
      rw [Pool.step, he] at hs
      exact hs
    · have htrace : (pool.step handle body act (.turn who)).trace =
          pool.trace ++ [⟨who, pool.shared, c, r⟩] := by rw [Pool.step, he]
      rcases snoc_split (htrace.symm.trans hs) with ⟨rest,hs',rfl⟩ | ⟨hs',rfl,rfl⟩
      · exact hold before e rest hs'
      · exact ⟨pool,call,k,hi,hm,hs',rfl,ht,fun i t hit => step_call pool (.turn who) hit⟩

/-- The moments of a run along which the condition is met. -/
theorem run_moments {I : Pool C R ε α σ κ → Prop} {Meets : Pool C R ε α σ κ → Event κ ω → Prop}
    {s : σ} {events : List (Event κ ω)} (h0 : I (Pool.init s))
    (hs : ∀ pool event, I pool → I (Pool.step handle body act pool event))
    (hc : Along (Pool.step handle body act) Meets (Pool.init s) events) :
    I (run (Pool.step handle body act) (Pool.init s) events) ∧
    Moments I Meets (run (Pool.step handle body act) (Pool.init s) events) :=
  run_invariant_along (I := fun pool => I pool ∧ Moments I Meets pool)
    ⟨h0,fun before e after h => absurd h (by simp [Pool.init])⟩
    (fun pool event h hm => ⟨hs pool event h.1,step_moments h.1 hm h.2⟩) hc

theorem run_trace (pool : Pool C R ε α σ κ) (events : List (Event κ ω)) :
    ∃ tail, (run (Pool.step handle body act) pool events).trace = pool.trace ++ tail := by
  induction events generalizing pool with
  | nil => exact ⟨[],(List.append_nil _).symm⟩
  | cons event events ih =>
    obtain ⟨tail,htail⟩ := ih (pool.step handle body act event)
    obtain ⟨tail',htail'⟩ : ∃ tail', (pool.step handle body act event).trace =
        pool.trace ++ tail' := step_trace pool event
    exact ⟨tail' ++ tail,by rw [run_cons, htail, htail', List.append_assoc]⟩

/-- Of two entries, the one that does not stand after the other stands before it. -/
theorem before_of_split {front back front' back' : List α} {x y : α}
    (h : front ++ x :: back = front' ++ y :: back') (hback : x ∉ back') (hne : x ≠ y) :
    ∃ between, front' = front ++ x :: between := by
  rcases List.append_eq_append_iff.mp h with ⟨m,rfl,hm⟩ | ⟨m,rfl,hm⟩
  · cases m with
    | nil => exact absurd (List.cons.inj hm).1 hne
    | cons z m =>
      cases (List.cons.inj hm).1
      exact ⟨m,rfl⟩
  · cases m with
    | nil => exact absurd (List.cons.inj hm).1.symm hne
    | cons z m =>
      rw [List.cons_append, List.cons.injEq] at hm
      exact absurd (hm.2 ▸ List.mem_append_right m List.mem_cons_self) hback

/-- What stands before an entry that is not in a prefix has the prefix. -/
theorem prefix_before {front back before after : List α} {x : α}
    (h : front ++ back = before ++ x :: after) (hx : x ∉ front) :
    ∃ between, before = front ++ between := by
  rcases List.append_eq_append_iff.mp h with ⟨m,rfl,_⟩ | ⟨m,rfl,hm⟩
  · exact ⟨m,rfl⟩
  · cases m with
    | nil => exact ⟨[],by simp⟩
    | cons z m =>
      rw [List.cons_append, List.cons.injEq] at hm
      exact absurd (by rw [hm.1]; simp) hx

/-- The call whose turn it is. -/
def Takes (pool : Pool C R ε α σ κ) (event : Event κ ω) (call : κ) : Prop :=
  ∃ who rest, event = .turn who ∧ pool.threads[who]? = some ⟨call, rest⟩

/-- All that moves the service: the world outside, or a command that the call whose turn
it is can send. -/
theorem step_shared {P : κ → C → Prop} (hp : ∀ call, (body call).Always (P call))
    {pool : Pool C R ε α σ κ} (h : Recorded handle body pool) (event : Event κ ω) :
    (pool.step handle body act event).shared = pool.shared ∨
    (∃ what, event = .outside what ∧
      (pool.step handle body act event).shared = act pool.shared what) ∨
    ∃ call c r, Takes pool event call ∧ P call c ∧
      handle pool.shared c = some ((pool.step handle body act event).shared, r) := by
  cases event with
  | spawn call => exact .inl rfl
  | turn who =>
    rcases pool.turn_cases handle who with he | ⟨call,c,k,s',r,ht,hh,he⟩
    · exact .inl (by rw [Pool.step, he])
    · have hstands := (h.follows who _ ht).stands (hp call)
      exact .inr (.inr ⟨call,c,r,⟨who,_,rfl,ht⟩,hstands,by rw [Pool.step, he]; exact hh⟩)
  | outside what => exact .inr (.inl ⟨what,rfl,rfl⟩)

theorem run_recorded (s : σ) (events : List (Event κ ω)) :
    Recorded handle body (run (Pool.step handle body act) (Pool.init s) events) :=
  run_invariant (init_recorded s) step_recorded events

end Tagwise.Lib
