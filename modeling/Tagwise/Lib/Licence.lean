import Tagwise.Lib.Record

/-! Commands that need a licence, replies that grant one, and commands that leave it standing:
a licensed program asks for the first only while it holds one, and the record of a pool shows
the grant. -/

namespace Tagwise.Lib

variable {C : Type} {R : C → Type} {ε α β σ κ ω : Type}

structure Licence (C : Type) (R : C → Type) where
  needs : C → Prop
  grants : (c : C) → R c → Prop
  keeps : C → Prop

variable {L : Licence C R} {Q : α → Prop} {held : Prop}

namespace Prog

/-- With `held` the program starts with a licence. What it returns with `Q`, it returns
with one. -/
def Licensed (L : Licence C R) (Q : α → Prop) (held : Prop) : Prog C R ε α → Prop
  | done a => Q a → held
  | fail _ => True
  | call c k => (L.needs c → held) ∧ ∀ r, (k r).Licensed L Q (L.grants c r ∨ L.keeps c ∧ held)

theorem licensed_mono {Q' : α → Prop} (hq : ∀ a, Q' a → Q a) {held' : Prop} (hheld : held → held')
    {p : Prog C R ε α} (h : p.Licensed L Q held) : p.Licensed L Q' held' := by
  induction p generalizing held held' with
  | done a => exact fun ha => hheld (h (hq a ha))
  | fail e => exact trivial
  | call c k ih =>
    exact ⟨fun hc => hheld (h.1 hc),fun r => ih r (Or.imp_right (And.imp_right hheld)) (h.2 r)⟩

/-- A program that asks for nothing special needs no licence. -/
theorem licensed_of_always {p : Prog C R ε α} (h : p.Always (fun c => ¬ L.needs c)) :
    p.Licensed L (fun _ => False) held := by
  induction p generalizing held with
  | done a => exact False.elim
  | fail e => exact trivial
  | call c k ih => exact ⟨fun hc => absurd hc h.1,fun r => ih r (h.2 r)⟩

/-- Commands that keep a licence bring it to the end. -/
theorem licensed_of_keeps {p : Prog C R ε α} (h : p.Always (fun c => ¬ L.needs c ∧ L.keeps c))
    (hheld : held) : p.Licensed L Q held := by
  induction p generalizing held with
  | done a => exact fun _ => hheld
  | fail e => exact trivial
  | call c k ih =>
    exact ⟨fun hc => absurd hc h.1.1,fun r => ih r (h.2 r) (.inr ⟨h.1.2,hheld⟩)⟩

theorem licensed_bind {Q' : β → Prop} {p : Prog C R ε α} {f : α → Prog C R ε β}
    (hp : p.Licensed L Q held) (hf : ∀ a, (f a).Licensed L Q' (Q a)) :
    (p >>= f).Licensed L Q' held := by
  induction p generalizing held with
  | done a => exact licensed_mono (fun _ h => h) hp (hf a)
  | fail e => exact trivial
  | call c k ih => exact ⟨hp.1,fun r => ih r (hp.2 r)⟩

theorem licensed_ite {c : Prop} [Decidable c] {p q : Prog C R ε α}
    (hp : c → p.Licensed L Q held) (hq : ¬ c → q.Licensed L Q held) :
    (if c then p else q).Licensed L Q held := by
  split
  · rename_i h
    exact hp h
  · rename_i h
    exact hq h

/-- The same program over another set of commands. -/
theorem licensed_embed {C' : Type} {R' : C' → Type} {ε' : Type} {L' : Licence C' R'} {f : C → C'}
    {reply : ∀ c, R' (f c) → R c} {err : ε → ε'} (hneeds : ∀ c, L'.needs (f c) → L.needs c)
    (hgrants : ∀ c r, L.grants c (reply c r) → L'.grants (f c) r)
    (hkeeps : ∀ c, L.keeps c → L'.keeps (f c)) {p : Prog C R ε α} (h : p.Licensed L Q held) :
    (p.embed f reply err).Licensed L' Q held := by
  induction p generalizing held with
  | done a => exact h
  | fail e => exact trivial
  | call c k ih =>
    refine ⟨fun hc => h.1 (hneeds c hc),fun r => ?_⟩
    exact licensed_mono (fun _ h => h) (Or.imp (hgrants c r) (And.imp_left (hkeeps c)))
      (ih _ (h.2 (reply c r)))

end Prog

/-- A grant stands in the record, and nothing behind it has ended it. -/
def Granted (L : Licence C R) (es : List (Entry C R σ)) : Prop :=
  ∃ front grant back, es = front ++ grant :: back ∧ L.grants grant.command grant.reply ∧
    ∀ e ∈ back, L.keeps e.command

/-- What is left of a licensed program holds what its replies have granted last. -/
theorem Follows.licensed {p q : Prog C R ε α} {es : List (Entry C R σ)} (h : Follows p es q)
    (hp : p.Licensed L Q held) :
    q.Licensed L Q (Granted L es ∨ (∀ e ∈ es, L.keeps e.command) ∧ held) := by
  induction h generalizing held with
  | start p =>
    exact Prog.licensed_mono (fun _ h => h) (fun h => .inr ⟨fun e he => (by cases he),h⟩) hp
  | heard who found r rest ih =>
    rename_i c k es q
    refine Prog.licensed_mono (fun _ h => h) (fun h => ?_) (ih (hp.2 r))
    rcases h with ⟨front,grant,back,rfl,hgrant,hback⟩ | ⟨hes,hgrant | ⟨hkeeps,hheld⟩⟩
    · exact .inl ⟨⟨who,found,c,r⟩ :: front,grant,back,rfl,hgrant,hback⟩
    · exact .inl ⟨[],⟨who,found,c,r⟩,es,rfl,hgrant,hes⟩
    · refine .inr ⟨fun e he => ?_,hheld⟩
      rcases List.mem_cons.mp he with rfl | he
      · exact hkeeps
      · exact hes e he

/-- Behind the entries before it, the program stood at the entry's command. -/
theorem Follows.stood {p q : Prog C R ε α} {before after : List (Entry C R σ)} {e : Entry C R σ}
    (h : Follows p (before ++ e :: after) q) : ∃ k, Follows p before (.call e.command k) := by
  induction before generalizing p with
  | nil =>
    cases h with
    | heard who found r rest => exact ⟨_,.start _⟩
  | cons x before ih =>
    cases h with
    | heard who found r rest =>
      obtain ⟨k,hk⟩ := ih rest
      exact ⟨k,.heard who found r hk⟩

section Recorded
variable {handle : σ → (c : C) → Option (σ × R c)} {body : κ → Prog C R ε α}
  {pool : Pool C R ε α σ κ} {call : κ} {i : Nat}

/-- Whoever has asked for what needs a licence was holding one. -/
theorem Recorded.granted (hr : Recorded handle body pool) {rest : Prog C R ε α}
    (ht : pool.threads[i]? = some ⟨call, rest⟩) (hbody : (body call).Licensed L Q False)
    {before after : List (Entry C R σ)} {e : Entry C R σ} (htrace : pool.trace = before ++ e :: after)
    (hwho : e.who = i) (hneeds : L.needs e.command) : Granted L (own before i) := by
  have hfollows : Follows (body call) (own pool.trace i) rest := hr.follows i _ ht
  have hself : own (e :: after) i = e :: own after i :=
    List.filter_cons_of_pos (decide_eq_true hwho)
  rw [htrace, own_append, hself] at hfollows
  obtain ⟨k,hk⟩ := hfollows.stood
  exact ((hk.licensed hbody).1 hneeds).elim id (fun h => h.2.elim)

/-- And so was whoever has returned a result that needs one. -/
theorem Recorded.granted_result (hr : Recorded handle body pool) {a : α}
    (ht : pool.threads[i]? = some ⟨call, .done a⟩) (hbody : (body call).Licensed L Q False)
    (ha : Q a) : Granted L (own pool.trace i) := by
  have hfollows : Follows (body call) (own pool.trace i) (.done a) := hr.follows i _ ht
  exact (hfollows.licensed hbody ha).elim id (fun h => h.2.elim)

end Recorded

end Tagwise.Lib
