import Tagwise.Lib.Machine
import Tagwise.Lib.Prog

/-! Any number of programs running against one service, one command at a time, and
the record of what they sent and heard. -/

namespace Tagwise.Lib

variable {C : Type} {R : C → Type} {ε α σ κ ω : Type}

structure Thread (C : Type) (R : C → Type) (ε α κ : Type) where
  call : κ
  rest : Prog C R ε α

/-- One command answered: whose it was, what it found, and what it heard. -/
structure Entry (C : Type) (R : C → Type) (σ : Type) where
  who : Nat
  found : σ
  command : C
  reply : R command

structure Pool (C : Type) (R : C → Type) (ε α σ κ : Type) where
  shared : σ
  threads : List (Thread C R ε α κ)
  trace : List (Entry C R σ)

/-- A call is started, a thread takes its next command, or the world outside acts. -/
inductive Event (κ ω : Type)
  | spawn (call : κ)
  | turn (who : Nat)
  | outside (what : ω)
  deriving DecidableEq

namespace Pool

def init (s : σ) : Pool C R ε α σ κ := ⟨s, [], []⟩

variable (handle : σ → (c : C) → Option (σ × R c)) (body : κ → Prog C R ε α) (act : σ → ω → σ)

/-- A finished thread, or one whose command is not answered yet, stands still. -/
def turn (pool : Pool C R ε α σ κ) (who : Nat) : Pool C R ε α σ κ :=
  match pool.threads[who]? with
  | some ⟨call, .call c k⟩ =>
    match handle pool.shared c with
    | some (s', r) => ⟨s', pool.threads.set who ⟨call, k r⟩, pool.trace ++ [⟨who, pool.shared, c, r⟩]⟩
    | none => pool
  | _ => pool

def step (pool : Pool C R ε α σ κ) : Event κ ω → Pool C R ε α σ κ
  | .spawn call => { pool with threads := pool.threads ++ [⟨call, body call⟩] }
  | .turn who => pool.turn handle who
  | .outside what => { pool with shared := act pool.shared what }

/-- The thread's result, once it has one. -/
def result (pool : Pool C R ε α σ κ) (who : Nat) : Option (Except ε α) :=
  match pool.threads[who]? with
  | some ⟨_, .done a⟩ => some (.ok a)
  | some ⟨_, .fail e⟩ => some (.error e)
  | _ => none

variable {handle body act}

variable (handle) in
/-- All a turn can do: nothing, or the one command the thread stands at. -/
theorem turn_cases (pool : Pool C R ε α σ κ) (who : Nat) :
    pool.turn handle who = pool ∨
    ∃ call c k s' r, pool.threads[who]? = some ⟨call, .call c k⟩ ∧
      handle pool.shared c = some (s', r) ∧
      pool.turn handle who =
        ⟨s', pool.threads.set who ⟨call, k r⟩, pool.trace ++ [⟨who, pool.shared, c, r⟩]⟩ := by
  unfold turn
  split
  · rename_i call c k ht
    split
    · rename_i s' r hh
      exact .inr ⟨call,c,k,s',r,ht,hh,rfl⟩
    · exact .inl rfl
  · exact .inl rfl

theorem turn_call {pool : Pool C R ε α σ κ} {who : Nat} {call : κ} {c : C}
    {k : R c → Prog C R ε α} {s' : σ} {r : R c} (ht : pool.threads[who]? = some ⟨call, .call c k⟩)
    (hh : handle pool.shared c = some (s', r)) :
    pool.turn handle who =
      ⟨s', pool.threads.set who ⟨call, k r⟩, pool.trace ++ [⟨who, pool.shared, c, r⟩]⟩ := by
  unfold turn
  rw [ht]
  simp only [hh]

theorem turn_done {pool : Pool C R ε α σ κ} {who : Nat} {call : κ} {a : α}
    (ht : pool.threads[who]? = some ⟨call, .done a⟩) : pool.turn handle who = pool := by
  unfold turn
  rw [ht]

theorem turn_fail {pool : Pool C R ε α σ κ} {who : Nat} {call : κ} {e : ε}
    (ht : pool.threads[who]? = some ⟨call, .fail e⟩) : pool.turn handle who = pool := by
  unfold turn
  rw [ht]

end Pool

end Tagwise.Lib
