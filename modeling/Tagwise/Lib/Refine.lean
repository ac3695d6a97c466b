import Tagwise.Lib.Pool

/-! One service in the place of another: a pool over the states of the first, seen through a
function into those of the second. -/

namespace Tagwise.Lib

variable {C : Type} {R : C → Type} {ε α σ τ κ ω : Type}

def Entry.map (f : σ → τ) (entry : Entry C R σ) : Entry C R τ :=
  ⟨entry.who, f entry.found, entry.command, entry.reply⟩

def Pool.map (f : σ → τ) (pool : Pool C R ε α σ κ) : Pool C R ε α τ κ :=
  ⟨f pool.shared, pool.threads, pool.trace.map (Entry.map f)⟩

variable {f : σ → τ} {handle : σ → (c : C) → Option (σ × R c)} {act : σ → ω → σ}
  {handle' : τ → (c : C) → Option (τ × R c)} {act' : τ → ω → τ} {body : κ → Prog C R ε α}

@[simp] theorem Pool.map_result (pool : Pool C R ε α σ κ) (who : Nat) :
    (pool.map f).result who = pool.result who := rfl

section Commutes
variable (hhandle : ∀ s c, handle' (f s) c = (handle s c).map (fun r => (f r.1, r.2)))
include hhandle

/-- The thread hears the same, so that it goes on in the same way. -/
theorem Pool.map_turn (pool : Pool C R ε α σ κ) (who : Nat) :
    (pool.turn handle who).map f = (pool.map f).turn handle' who := by
  rw [Pool.turn, Pool.turn]
  have hthread : (pool.map f).threads[who]? = pool.threads[who]? := rfl
  have hshared : (pool.map f).shared = f pool.shared := rfl
  rw [hthread]
  split
  · rename_i call c k ht
    rw [hshared, hhandle]
    cases handle pool.shared c with
    | none => rfl
    | some r => simp only [Option.map_some, Pool.map, List.map_append, List.map_cons, List.map_nil,
        Entry.map]
  · rfl

variable (hact : ∀ s what, f (act s what) = act' (f s) what)
include hact

theorem Pool.map_step (pool : Pool C R ε α σ κ) (event : Event κ ω) :
    (pool.step handle body act event).map f = (pool.map f).step handle' body act' event := by
  cases event with
  | spawn call => rfl
  | turn who => exact Pool.map_turn hhandle pool who
  | outside what => simp only [Pool.step, Pool.map, hact]

/-- Every run of the one is a run of the other, with the same replies and the same results. -/
theorem Pool.map_run (pool : Pool C R ε α σ κ) (events : List (Event κ ω)) :
    (run (Pool.step handle body act) pool events).map f =
      run (Pool.step handle' body act') (pool.map f) events := by
  induction events generalizing pool with
  | nil => rfl
  | cons event events ih =>
    rw [run_cons, run_cons, ih, Pool.map_step hhandle hact]

end Commutes

end Tagwise.Lib
