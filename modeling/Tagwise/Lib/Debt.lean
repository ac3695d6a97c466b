import Tagwise.Lib.Record

/-! Programs that owe: a reply may raise a debt, and the very next command pays it. -/

namespace Tagwise.Lib

variable {C : Type} {R : C → Type} {ε α β σ δ : Type}
variable (raises : (c : C) → R c → Option δ) (pays : δ → C → Prop)

namespace Prog

/-- The program pays what it owes at once, and ends owing nothing. -/
def Pays : Option δ → Prog C R ε α → Prop
  | owed, done _ => owed = none
  | owed, fail _ => owed = none
  | none, call c k => ∀ r, (k r).Pays (raises c r)
  | some d, call c k => pays d c ∧ ∀ r, (k r).Pays none

variable {raises pays}

theorem pays_bind {p : Prog C R ε α} {f : α → Prog C R ε β} {owed : Option δ}
    (hp : p.Pays raises pays owed) (hf : ∀ a, (f a).Pays raises pays none) :
    (p >>= f).Pays raises pays owed := by
  induction p generalizing owed with
  | done a =>
    cases hp
    exact hf a
  | fail e => exact hp
  | call c k ih =>
    cases owed with
    | none => exact fun r => ih r (hp r)
    | some d => exact ⟨hp.1,fun r => ih r (hp.2 r)⟩

theorem pays_of_always {p : Prog C R ε α} (h : p.Always (fun c => ∀ r, raises c r = none)) :
    p.Pays raises pays none := by
  induction p with
  | done a => rfl
  | fail e => rfl
  | call c k ih =>
    intro r
    rw [h.1 r]
    exact ih r (h.2 r)

end Prog

variable {raises pays}

theorem Follows.paid_from {p q : Prog C R ε α} {es : List (Entry C R σ)} (h : Follows p es q)
    (apart : ∀ d c r, pays d c → raises c r = none) (hq : ∀ c k, q ≠ .call c k) {owed : Option δ}
    (hp : p.Pays raises pays owed) :
    (∀ d, owed = some d → ∃ e ∈ es, pays d e.command) ∧
    ∀ a e b d, es = a ++ e :: b → raises e.command e.reply = some d →
      ∃ e' ∈ b, pays d e'.command := by
  induction h generalizing owed with
  | start p =>
    refine ⟨?_,fun a e b d hs => absurd hs (by simp)⟩
    cases p with
    | done a => intro d hd; cases hp.symm.trans hd
    | fail e => intro d hd; cases hp.symm.trans hd
    | call c k => exact absurd rfl (hq c k)
  | heard who found r rest ih =>
    cases owed with
    | none =>
      obtain ⟨hnow,hlater⟩ := ih hq (hp r)
      refine ⟨fun d hd => (by cases hd),fun a e b d hs hd => ?_⟩
      cases a with
      | nil =>
        cases hs
        exact hnow d hd
      | cons x a =>
        cases hs
        exact hlater a e b d rfl hd
    | some owed =>
      obtain ⟨_,hlater⟩ := ih hq (hp.2 r)
      refine ⟨fun d hd => ?_,fun a e b d hs hd => ?_⟩
      · cases hd
        exact ⟨_,List.mem_cons_self,hp.1⟩
      · cases a with
        | nil =>
          cases hs
          cases (apart owed _ r hp.1).symm.trans hd
        | cons x a =>
          cases hs
          exact hlater a e b d rfl hd

/-- A program that has ended has paid each debt after raising it. -/
theorem Follows.paid {p q : Prog C R ε α} {es : List (Entry C R σ)} (h : Follows p es q)
    (apart : ∀ d c r, pays d c → raises c r = none) (hq : ∀ c k, q ≠ .call c k)
    (hp : p.Pays raises pays none) {a b : List (Entry C R σ)} {e : Entry C R σ} {d : δ}
    (hs : es = a ++ e :: b) (hd : raises e.command e.reply = some d) :
    ∃ e' ∈ b, pays d e'.command :=
  (h.paid_from apart hq hp).2 a e b d hs hd

end Tagwise.Lib
