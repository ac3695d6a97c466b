import Mathlib.Logic.Basic

/-! Sequential programs that call out to services: a tree of commands, each
followed by what the program does with the reply. -/

namespace Tagwise.Lib

/-- A program over commands `C` with replies `R` that throws `ε` or returns `α`. -/
inductive Prog (C : Type) (R : C → Type) (ε α : Type)
  | done (a : α)
  | fail (e : ε)
  | call (c : C) (k : R c → Prog C R ε α)

variable {C : Type} {R : C → Type} {ε α β σ : Type}

theorem except_bind_ok {x : Except ε α} {f : α → Except ε β} {b : β} :
    (x >>= f) = .ok b ↔ ∃ a, x = .ok a ∧ f a = .ok b := by
  cases x with
  | error e => simp [bind, Except.bind]
  | ok a => simp [bind, Except.bind]

namespace Prog

def bind : Prog C R ε α → (α → Prog C R ε β) → Prog C R ε β
  | done a, f => f a
  | fail e, _ => fail e
  | call c k, f => call c (fun r => (k r).bind f)

instance : Monad (Prog C R ε) where
  pure := done
  bind := bind

/-- Sends one command and returns its reply. -/
def request (c : C) : Prog C R ε (R c) := call c done

def tryCatch : Prog C R ε α → (ε → Prog C R ε α) → Prog C R ε α
  | done a, _ => done a
  | fail e, f => f e
  | call c k, f => call c (fun r => (k r).tryCatch f)

@[simp] theorem pure_done (a : α) : (pure a : Prog C R ε α) = done a := rfl
@[simp] theorem done_bind (a : α) (f : α → Prog C R ε β) : done a >>= f = f a := rfl
@[simp] theorem fail_bind (e : ε) (f : α → Prog C R ε β) : fail e >>= f = fail e := rfl
@[simp] theorem call_bind (c : C) (k : R c → Prog C R ε α) (f : α → Prog C R ε β) :
    call c k >>= f = call c (fun r => k r >>= f) := rfl
@[simp] theorem request_bind (c : C) (f : R c → Prog C R ε β) :
    request c >>= f = call c f := rfl

theorem bind_assoc {γ : Type} (p : Prog C R ε α) (f : α → Prog C R ε β) (g : β → Prog C R ε γ) :
    p >>= f >>= g = p >>= fun a => f a >>= g := by
  induction p with
  | done a => rfl
  | fail e => rfl
  | call c k ih =>
    simp only [call_bind]
    congr 1
    funext r
    exact ih r

/-- The program alone against a service; `none` when the service does not answer. -/
def run (handle : σ → (c : C) → Option (σ × R c)) : Prog C R ε α → σ → Option (σ × Except ε α)
  | done a, s => some (s, .ok a)
  | fail e, s => some (s, .error e)
  | call c k, s =>
    match handle s c with
    | none => none
    | some (s', r) => (k r).run handle s'

section Embed
variable {C' : Type} {R' : C' → Type} {ε' : Type}

/-- The same program over another set of commands, where `f` names each of its own. -/
def embed (f : C → C') (reply : ∀ c, R' (f c) → R c) (err : ε → ε') :
    Prog C R ε α → Prog C' R' ε' α
  | done a => done a
  | fail e => fail (err e)
  | call c k => call (f c) (fun r => (k (reply c r)).embed f reply err)

end Embed

variable {handle : σ → (c : C) → Option (σ × R c)}

@[simp] theorem run_done (a : α) (s : σ) :
    (done a : Prog C R ε α).run handle s = some (s, .ok a) := rfl

theorem run_call {c : C} {k : R c → Prog C R ε α} {s s' : σ} {r : R c}
    (h : handle s c = some (s', r)) : (call c k).run handle s = (k r).run handle s' := by
  rw [run, h]

theorem run_bind (p : Prog C R ε α) (f : α → Prog C R ε β) (s : σ) :
    (p >>= f).run handle s = match p.run handle s with
      | none => none
      | some (s', .ok a) => (f a).run handle s'
      | some (s', .error e) => some (s', .error e) := by
  induction p generalizing s with
  | done a => rfl
  | fail e => rfl
  | call c k ih =>
    rw [call_bind, run, run]
    cases handle s c with
    | none => rfl
    | some reply => exact ih reply.2 reply.1

theorem run_bind_ok {p : Prog C R ε α} {f : α → Prog C R ε β} {s s' : σ} {a : α}
    (h : p.run handle s = some (s', .ok a)) : (p >>= f).run handle s = (f a).run handle s' := by
  rw [run_bind, h]

theorem run_tryCatch (p : Prog C R ε α) (f : ε → Prog C R ε α) (s : σ) :
    (p.tryCatch f).run handle s = match p.run handle s with
      | none => none
      | some (s', .ok a) => some (s', .ok a)
      | some (s', .error e) => (f e).run handle s' := by
  induction p generalizing s with
  | done a => rfl
  | fail e => rfl
  | call c k ih =>
    rw [tryCatch, run, run]
    cases handle s c with
    | none => rfl
    | some reply => exact ih reply.2 reply.1

/-- The service with notes taken beside it, of each command as it was found and answered. -/
def alongside {ν : Type} (handle : σ → (c : C) → Option (σ × R c))
    (note : σ → (c : C) → R c → ν → ν) (s : σ × ν) (c : C) : Option ((σ × ν) × R c) :=
  (handle s.1 c).map (fun (s', r) => ((s', note s.1 c r s.2), r))

theorem alongside_some {ν : Type} {note : σ → (c : C) → R c → ν → ν} {s s' : σ} {c : C} {r : R c}
    (h : handle s c = some (s', r)) (n : ν) :
    alongside handle note (s, n) c = some ((s', note s c r n), r) := by
  rw [alongside, h]
  rfl

theorem of_alongside {ν : Type} {note : σ → (c : C) → R c → ν → ν} {s s' : σ × ν} {c : C} {r : R c}
    (h : alongside handle note s c = some (s', r)) :
    ∃ t, handle s.1 c = some (t, r) ∧ s' = (t, note s.1 c r s.2) := by
  obtain ⟨⟨t,r'⟩,ht,he⟩ := Option.map_eq_some_iff.mp h
  cases he
  exact ⟨t,ht,rfl⟩

/-- The notes change nothing of what the program does. -/
theorem run_alongside {ν : Type} {note : σ → (c : C) → R c → ν → ν} (p : Prog C R ε α) (s : σ)
    (n : ν) :
    (p.run (alongside handle note) (s, n)).map (fun (s', r) => (s'.1, r)) = p.run handle s := by
  induction p generalizing s n with
  | done a => rfl
  | fail e => rfl
  | call c k ih =>
    rw [run, run, alongside]
    cases handle s c with
    | none => rfl
    | some reply => exact ih reply.2 reply.1 _

/-- Every command the program can send, whatever the replies, is one of `P`. -/
def Always (P : C → Prop) : Prog C R ε α → Prop
  | done _ => True
  | fail _ => True
  | call c k => P c ∧ ∀ r, (k r).Always P

@[simp] theorem always_done {P : C → Prop} (a : α) : (done a : Prog C R ε α).Always P ↔ True :=
  Iff.rfl

@[simp] theorem always_fail {P : C → Prop} (e : ε) : (fail e : Prog C R ε α).Always P ↔ True :=
  Iff.rfl

@[simp] theorem always_call {P : C → Prop} (c : C) (k : R c → Prog C R ε α) :
    (call c k).Always P ↔ P c ∧ ∀ r, (k r).Always P := Iff.rfl

theorem always_ite {P : C → Prop} {c : Prop} [Decidable c] {p q : Prog C R ε α}
    (hp : p.Always P) (hq : q.Always P) : (if c then p else q).Always P := by
  split
  · exact hp
  · exact hq

theorem always_bind {P : C → Prop} {p : Prog C R ε α} {f : α → Prog C R ε β}
    (hp : p.Always P) (hf : ∀ a, (f a).Always P) : (p >>= f).Always P := by
  induction p with
  | done a => exact hf a
  | fail e => exact trivial
  | call c k ih => exact ⟨hp.1,fun r => ih r (hp.2 r)⟩

theorem always_embed {C' : Type} {R' : C' → Type} {ε' : Type} {P : C' → Prop} {f : C → C'}
    {reply : ∀ c, R' (f c) → R c} {err : ε → ε'} {p : Prog C R ε α}
    (h : p.Always (fun c => P (f c))) : (p.embed f reply err).Always P := by
  induction p with
  | done a => exact trivial
  | fail e => exact trivial
  | call c k ih => exact ⟨h.1,fun r => ih _ (h.2 _)⟩

theorem always_mono {P Q : C → Prop} (hpq : ∀ c, P c → Q c) {p : Prog C R ε α}
    (hp : p.Always P) : p.Always Q := by
  induction p with
  | done a => exact trivial
  | fail e => exact trivial
  | call c k ih => exact ⟨hpq c hp.1,fun r => ih r (hp.2 r)⟩

end Prog

end Tagwise.Lib
