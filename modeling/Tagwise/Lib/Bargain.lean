import Tagwise.Lib.Record

/-! A bargain between programs and the service they share. While the programs ask only for
what they may, the service keeps its invariant and its replies are as promised; while the
replies are as promised, the programs ask only for what they may. -/

namespace Tagwise.Lib

variable {C : Type} {R : C → Type} {ε α β σ κ ω : Type}

namespace Prog
variable (may : C → Prop) (told : (c : C) → R c → Prop)

/-- Told only what is promised, the program asks only for what it may, and what it returns
is `Q`. -/
def Honours (Q : α → Prop) : Prog C R ε α → Prop
  | done a => Q a
  | fail _ => True
  | call c k => may c ∧ ∀ r, told c r → (k r).Honours Q

variable {may told}

theorem honours_mono {Q Q' : α → Prop} (hq : ∀ a, Q a → Q' a) {p : Prog C R ε α}
    (h : p.Honours may told Q) : p.Honours may told Q' := by
  induction p with
  | done a => exact hq a h
  | fail e => exact trivial
  | call c k ih => exact ⟨h.1,fun r hr => ih r (h.2 r hr)⟩

theorem honours_bind {Q : α → Prop} {Q' : β → Prop} {p : Prog C R ε α} {f : α → Prog C R ε β}
    (hp : p.Honours may told Q) (hf : ∀ a, Q a → (f a).Honours may told Q') :
    (p >>= f).Honours may told Q' := by
  induction p with
  | done a => exact hf a hp
  | fail e => exact trivial
  | call c k ih => exact ⟨hp.1,fun r hr => ih r (hp.2 r hr)⟩

theorem honours_request {c : C} (h : may c) :
    (request c : Prog C R ε (R c)).Honours may told (told c) :=
  ⟨h,fun _ hr => hr⟩

/-- A program that never asks for more needs no promise. -/
theorem honours_always {p : Prog C R ε α} (h : p.Always may) :
    p.Honours may told (fun _ => True) := by
  induction p with
  | done a => exact trivial
  | fail e => exact trivial
  | call c k ih => exact ⟨h.1,fun r _ => ih r (h.2 r)⟩

/-- What the handler makes of the error is returned in the program's place. -/
theorem honours_tryCatch {Q : α → Prop} {p : Prog C R ε α} {f : ε → Prog C R ε α}
    (hp : p.Honours may told Q) (hf : ∀ e, (f e).Honours may told Q) :
    (p.tryCatch f).Honours may told Q := by
  induction p with
  | done a => exact hp
  | fail e => exact hf e
  | call c k ih => exact ⟨hp.1,fun r hr => ih r (hp.2 r hr)⟩

theorem honours_ite {Q : α → Prop} {c : Prop} [Decidable c] {p q : Prog C R ε α}
    (hp : c → p.Honours may told Q) (hq : ¬ c → q.Honours may told Q) :
    (if c then p else q).Honours may told Q := by
  split
  · rename_i h
    exact hp h
  · rename_i h
    exact hq h

/-- The same program over another set of commands, under the bargain carried over. -/
theorem honours_embed {C' : Type} {R' : C' → Type} {ε' : Type} {may' : C' → Prop}
    {told' : (c : C') → R' c → Prop} {f : C → C'} {reply : ∀ c, R' (f c) → R c} {err : ε → ε'}
    (hmay : ∀ c, may c → may' (f c)) (htold : ∀ c r, told' (f c) r → told c (reply c r))
    {Q : α → Prop} {p : Prog C R ε α} (h : p.Honours may told Q) :
    (p.embed f reply err).Honours may' told' Q := by
  induction p with
  | done a => exact h
  | fail e => exact trivial
  | call c k ih => exact ⟨hmay c h.1,fun r hr => ih _ (h.2 _ (htold c r hr))⟩

/-- What a program returns, whatever it is told. -/
def Yields (Q : α → Prop) (p : Prog C R ε α) : Prop :=
  p.Honours (fun _ => True) (fun _ _ => True) Q

theorem yields_any (p : Prog C R ε α) : p.Yields (fun _ => True) := by
  induction p with
  | done a => exact trivial
  | fail e => exact trivial
  | call c k ih => exact ⟨trivial,fun r _ => ih r⟩

end Prog

theorem Follows.yields {Q : α → Prop} {p : Prog C R ε α} {es : List (Entry C R σ)} {a : α}
    (h : Follows p es (.done a)) (hp : p.Yields Q) : Q a := by
  generalize hq : Prog.done a = q at h
  induction h with
  | start p =>
    subst hq
    exact hp
  | heard who found r rest ih => exact ih (hp.2 r trivial) hq

variable {handle : σ → (c : C) → Option (σ × R c)} {body : κ → Prog C R ε α} {act : σ → ω → σ}
variable {may : C → Prop} {told : (c : C) → R c → Prop}

variable (handle may told) in
/-- The service's side of the bargain, as a record shows it. -/
def Serves (I : σ → Prop) (trace : List (Entry C R σ)) : Prop :=
  ∀ e ∈ trace, ∀ s, handle e.found e.command = some (s, e.reply) → I e.found → may e.command →
    I s ∧ told e.command e.reply

variable (may told) in
/-- Both sides have kept to it so far. -/
structure Kept (I : σ → Prop) (Q : κ → α → Prop) (pool : Pool C R ε α σ κ) : Prop where
  shared : I pool.shared
  threads : ∀ (i : Nat) t, pool.threads[i]? = some t → t.rest.Honours may told (Q t.call)

theorem Kept.result {I : σ → Prop} {Q : κ → α → Prop} {pool : Pool C R ε α σ κ}
    (h : Kept may told I Q pool) {i : Nat} {t : Thread C R ε α κ} {a : α}
    (ht : pool.threads[i]? = some t) (hr : pool.result i = some (.ok a)) : Q t.call a := by
  have hh := h.threads i t ht
  obtain ⟨call,rest⟩ := t
  rw [Pool.result, ht] at hr
  cases rest with
  | done b =>
    cases hr
    exact hh
  | fail e => cases hr
  | call c k => cases hr

theorem kept_turn {I : σ → Prop} {Q : κ → α → Prop} {pool : Pool C R ε α σ κ} (who : Nat)
    (hserve : Serves handle may told I (pool.turn handle who).trace)
    (h : Kept may told I Q pool) : Kept may told I Q (pool.turn handle who) := by
  rcases pool.turn_cases handle who with he | ⟨call,c,k,s,r,ht,hh,he⟩
  · rw [he]
    exact h
  rw [he] at hserve ⊢
  obtain ⟨hmay,hrest⟩ := h.threads who _ ht
  obtain ⟨hs,htold⟩ := hserve ⟨who,pool.shared,c,r⟩ (by simp) s hh h.shared hmay
  refine ⟨hs,fun i t hi => ?_⟩
  by_cases hw : who = i
  · subst hw
    rw [List.getElem?_set_self (List.getElem?_eq_some_iff.mp ht).1] at hi
    cases hi
    exact hrest r htold
  · simp only at hi
    rw [List.getElem?_set_ne hw] at hi
    exact h.threads i t hi

theorem kept_spawn {I : σ → Prop} {Q : κ → α → Prop} {pool : Pool C R ε α σ κ} {call : κ}
    (hbody : (body call).Honours may told (Q call)) (h : Kept may told I Q pool) :
    Kept may told I Q { pool with threads := pool.threads ++ [⟨call,body call⟩] } := by
  refine ⟨h.shared,fun i t hi => ?_⟩
  simp only [List.getElem?_append] at hi
  split at hi
  · exact h.threads i t hi
  · obtain ⟨hlt,he⟩ := List.getElem?_eq_some_iff.mp hi
    rw [List.getElem_singleton] at he
    subst he
    exact hbody

/-- Where both sides keep to it at every step, they have kept to it after every run. -/
theorem run_kept {I : σ → Prop} {Q : κ → α → Prop} {Fair : Pool C R ε α σ κ → Event κ ω → Prop}
    (hact : ∀ pool what, Fair pool (.outside what) → I pool.shared → I (act pool.shared what))
    (hbody : ∀ pool call, Fair pool (.spawn call) → (body call).Honours may told (Q call))
    {pool : Pool C R ε α σ κ} {events : List (Event κ ω)} (h : Kept may told I Q pool)
    (hserve : Serves handle may told I (run (Pool.step handle body act) pool events).trace)
    (hfair : Along (Pool.step handle body act) Fair pool events) :
    Kept may told I Q (run (Pool.step handle body act) pool events) := by
  induction events generalizing pool with
  | nil => exact h
  | cons event events ih =>
    refine ih ?_ hserve hfair.2
    cases event with
    | spawn call => exact kept_spawn (hbody pool call hfair.1) h
    | turn who =>
      refine kept_turn who (fun e he => ?_) h
      obtain ⟨tail,htail⟩ : ∃ tail, (run (Pool.step handle body act) (pool.turn handle who)
          events).trace = (pool.turn handle who).trace ++ tail := run_trace _ events
      exact hserve e (htail ▸ List.mem_append_left tail he)
    | outside what => exact ⟨hact pool what hfair.1 h.shared,h.threads⟩

end Tagwise.Lib
