import Tagwise.Lib.Prog

/-! Programs over the programs of a layer below, and what a program comes to as a value of the
layer above. -/

namespace Tagwise.Lib.Prog

variable {C C' : Type} {R : C → Type} {R' : C' → Type} {ε ε' α β : Type}

/-- The result as a value, thrown or returned. -/
def attempt : Prog C R ε α → Prog C R ε' (Except ε α)
  | done a => done (.ok a)
  | fail e => done (.error e)
  | call c k => call c (fun r => (k r).attempt)

/-- The same program with its results under other names. -/
def mapResult (err : ε → ε') (f : α → β) : Prog C R ε α → Prog C R ε' β
  | done a => done (f a)
  | fail e => fail (err e)
  | call c k => call c (fun r => (k r).mapResult err f)

/-- Every command is carried out by a program of the layer below. -/
def through (layer : (c : C) → Prog C' R' ε (R c)) : Prog C R ε α → Prog C' R' ε α
  | done a => done a
  | fail e => fail e
  | call c k => layer c >>= fun r => (k r).through layer

/-- What is made of the result where it comes up. -/
theorem attempt_bind {p : Prog C R ε α} {g : Except ε α → Prog C R ε' β} {err : ε → ε'} {f : α → β}
    (hok : ∀ a, g (.ok a) = done (f a)) (herr : ∀ e, g (.error e) = fail (err e)) :
    (p.attempt >>= g) = p.mapResult err f := by
  induction p with
  | done a => exact hok a
  | fail e => exact herr e
  | call c k ih =>
    rw [attempt, call_bind, mapResult]
    congr 1
    funext r
    exact ih r

variable {layer : (c : C) → Prog C' R' ε (R c)}

theorem through_request (c : C) (f : R c → Prog C R ε α) :
    (request c >>= f).through layer = layer c >>= fun r => (f r).through layer := rfl

end Tagwise.Lib.Prog
