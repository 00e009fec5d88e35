import Mathlib.Data.Option.Basic

/-! Loops that may read out of bounds.

The body of a loop takes its variables to their next values or leaves with a
result, and is `none` where the program would fault. `iterate` runs it with fuel.
`iterate_eq` is the rule by which such a loop is replaced by a function: if a
measure falls with every turn and the function keeps its value, then the loop
neither faults nor runs on, and its result is that value, whatever the fuel above
the measure. -/
namespace SystemMonitor.Lib.Loop
variable {σ ρ : Type}

/-- `none`: a fault, or the fuel is used up. -/
def iterate (body : σ → Option (σ ⊕ ρ)) : Nat → σ → Option ρ
  | 0, _ => none
  | fuel + 1, s =>
    match body s with
    | none => none
    | some (.inl t) => iterate body fuel t
    | some (.inr r) => some r

section
variable {body : σ → Option (σ ⊕ ρ)} {fuel : Nat} {s t : σ} {r : ρ}

theorem iterate_turn (h : body s = some (.inl t)) : iterate body (fuel + 1) s = iterate body fuel t := by
  rw [iterate, h]

theorem iterate_leave (h : body s = some (.inr r)) : iterate body (fuel + 1) s = some r := by
  rw [iterate, h]

/-- A turn keeps the invariant, comes closer to the end and keeps the value of the
function; the loop is left with that value. -/
structure Computes (body : σ → Option (σ ⊕ ρ)) (Inv : σ → Prop) (measure : σ → Nat) (f : σ → ρ) : Prop where
  turn : ∀ s, Inv s →
    (∃ t, body s = some (.inl t) ∧ Inv t ∧ measure t < measure s ∧ f t = f s) ∨ body s = some (.inr (f s))

/-- **A loop that computes a function returns its value.** -/
theorem Computes.iterate_eq {Inv : σ → Prop} {measure : σ → Nat} {f : σ → ρ} (h : Computes body Inv measure f)
    (hs : Inv s) (hfuel : measure s < fuel) : iterate body fuel s = some (f s) := by
  induction fuel generalizing s with
  | zero => omega
  | succ fuel ih =>
    rcases h.turn s hs with ⟨t, hbody, ht, hless, hsame⟩ | hbody
    · rw [iterate_turn hbody, ih ht (by omega), hsame]
    · exact iterate_leave hbody

end

end SystemMonitor.Lib.Loop
