import Mathlib.Data.List.Basic

/-! Machines whose steps may be refused, and what holds along their runs.

A step is a partial function of the state and an action: a worker cannot take a
request that is not there, a completion cannot be delivered twice. A run is a
list of actions none of which was refused, so quantifying over runs quantifies
over every schedule. Two rules are proved once. `run_invariant`: what the
initial state satisfies and every admissible step keeps holds at the end of
every run (`run_trace_invariant` when it also speaks of the events on the way).
`Simulation.run_trace`: a machine whose steps each perform events an
abstract machine accepts performs, over any run, a trace it accepts. -/
namespace SystemMonitor.Lib

structure Machine (σ α : Type) where
  /-- `none` when the action is not enabled. -/
  step : σ → α → Option σ

namespace Machine
variable {σ α : Type} (M : Machine σ α)

def run (s : σ) : List α → Option σ
  | [] => some s
  | a :: rest => (M.step s a).bind fun t => run t rest

theorem run_cons {s u : σ} {a : α} {rest : List α} (h : M.run s (a :: rest) = some u) :
    ∃ t, M.step s a = some t ∧ M.run t rest = some u :=
  Option.bind_eq_some_iff.mp h

theorem run_append (s : σ) (a b : List α) :
    M.run s (a ++ b) = (M.run s a).bind fun t => M.run t b := by
  induction a generalizing s with
  | nil => rfl
  | cons x rest ih =>
    simp only [List.cons_append, run]
    cases M.step s x with
    | none => rfl
    | some t => exact ih t

/-- What evaluating a run finds at its end. -/
theorem run_decided {s : σ} {actions : List α} {p : σ → Prop} [DecidablePred p]
    (h : (M.run s actions).map (fun t => decide (p t)) = some true) : ∃ t, M.run s actions = some t ∧ p t := by
  obtain ⟨t, hrun, hp⟩ := Option.map_eq_some_iff.mp h
  exact ⟨t, hrun, of_decide_eq_true hp⟩

/-- Every step of the history satisfies the rule, in the state it is taken from. -/
def Admissible (Rule : σ → α → Prop) (s : σ) : List α → Prop
  | [] => True
  | a :: rest => Rule s a ∧ ∀ t, M.step s a = some t → Admissible Rule t rest

/-- Actions the rule allows anywhere. -/
theorem admissible_of_forall {Rule : σ → α → Prop} {actions : List α} (h : ∀ a ∈ actions, ∀ s, Rule s a) (s : σ) :
    M.Admissible Rule s actions := by
  induction actions generalizing s with
  | nil => trivial
  | cons a rest ih =>
    exact ⟨h a (List.mem_cons_self ..) s, fun t _ => ih (fun b hb => h b (List.mem_cons_of_mem _ hb)) t⟩

instance decidableAdmissible {Rule : σ → α → Prop} [∀ s a, Decidable (Rule s a)] (s : σ) :
    (actions : List α) → Decidable (M.Admissible Rule s actions)
  | [] => .isTrue trivial
  | a :: rest =>
    match h : M.step s a with
    | none => decidable_of_iff (Rule s a) (by simp [Admissible, h])
    | some t =>
      have : Decidable (M.Admissible Rule t rest) := decidableAdmissible t rest
      decidable_of_iff (Rule s a ∧ M.Admissible Rule t rest) (by simp [Admissible, h])

theorem admissible_true (s : σ) (actions : List α) : M.Admissible (fun _ _ => True) s actions :=
  M.admissible_of_forall (fun _ _ _ => trivial) s

/-- What admissible steps keep, runs of admissible steps keep. -/
theorem run_invariant (Rule : σ → α → Prop) (Inv : σ → Prop)
    (hstep : ∀ s a t, Inv s → Rule s a → M.step s a = some t → Inv t)
    {s u : σ} {actions : List α} (hs : Inv s) (ha : M.Admissible Rule s actions)
    (hrun : M.run s actions = some u) : Inv u := by
  induction actions generalizing s with
  | nil =>
    cases hrun
    exact hs
  | cons a rest ih =>
    obtain ⟨t, ht, hrest⟩ := M.run_cons hrun
    exact ih (hstep s a t hs ha.1 ht) (ha.2 t ht) hrest

/-- A machine all of whose steps are admissible. -/
theorem run_preserves (Inv : σ → Prop) (hstep : ∀ s a t, Inv s → M.step s a = some t → Inv t)
    {s u : σ} {actions : List α} (hs : Inv s) (hrun : M.run s actions = some u) : Inv u :=
  M.run_invariant (fun _ _ => True) Inv (fun s a t h _ => hstep s a t h) hs (M.admissible_true s actions) hrun

/-- The events of a run, in order. -/
def trace {ε : Type} (event : σ → α → List ε) (s : σ) : List α → List ε
  | [] => []
  | a :: rest => event s a ++ (match M.step s a with
    | none => []
    | some t => trace event t rest)

theorem trace_cons {ε : Type} (event : σ → α → List ε) {s t : σ} {a : α} {rest : List α}
    (h : M.step s a = some t) : M.trace event s (a :: rest) = event s a ++ M.trace event t rest := by
  simp only [trace, h]

theorem trace_append {ε : Type} (event : σ → α → List ε) {s t : σ} {a : List α} (h : M.run s a = some t) (b : List α) :
    M.trace event s (a ++ b) = M.trace event s a ++ M.trace event t b := by
  induction a generalizing s with
  | nil =>
    cases h
    rfl
  | cons x rest ih =>
    obtain ⟨u, hu, hrest⟩ := M.run_cons h
    rw [List.cons_append, M.trace_cons event hu, M.trace_cons event hu, ih hrest, List.append_assoc]

/-- What is known of a state and the events so far, and kept by admissible steps. -/
theorem run_trace_invariant {ε : Type} (event : σ → α → List ε) (Rule : σ → α → Prop) (Inv : List ε → σ → Prop)
    (hstep : ∀ log s a t, Inv log s → Rule s a → M.step s a = some t → Inv (log ++ event s a) t)
    {s u : σ} {actions : List α} {log : List ε} (hs : Inv log s) (ha : M.Admissible Rule s actions)
    (hrun : M.run s actions = some u) : Inv (log ++ M.trace event s actions) u := by
  induction actions generalizing s log with
  | nil =>
    cases hrun
    rw [trace, List.append_nil]
    exact hs
  | cons a rest ih =>
    obtain ⟨t, ht, hrest⟩ := M.run_cons hrun
    rw [M.trace_cons event ht, ← List.append_assoc]
    exact ih (hstep log s a t hs ha.1 ht) (ha.2 t ht) hrest

end Machine

/-- Every step of `M` performs events that `A` accepts from a related state. -/
structure Simulation {σ α τ ε : Type} (M : Machine σ α) (event : σ → α → List ε) (A : Machine τ ε) where
  Rel : σ → τ → Prop
  step : ∀ s t a s', Rel s t → M.step s a = some s' → ∃ t', A.run t (event s a) = some t' ∧ Rel s' t'

/-- The trace of a run is accepted, and ends in a related state. -/
theorem Simulation.run_trace {σ α τ ε : Type} {M : Machine σ α} {event : σ → α → List ε}
    {A : Machine τ ε} (sim : Simulation M event A) {s s' : σ} {t : τ} {actions : List α}
    (hrel : sim.Rel s t) (hrun : M.run s actions = some s') :
    ∃ t', A.run t (M.trace event s actions) = some t' ∧ sim.Rel s' t' := by
  induction actions generalizing s t with
  | nil =>
    cases hrun
    exact ⟨t, rfl, hrel⟩
  | cons a rest ih =>
    obtain ⟨u, hu, hrest⟩ := M.run_cons hrun
    obtain ⟨t₁, hrun₁, hrel₁⟩ := sim.step s t a u hrel hu
    obtain ⟨t₂, hrun₂, hrel₂⟩ := ih hrel₁ hrest
    refine ⟨t₂, ?_, hrel₂⟩
    rw [M.trace_cons event hu, A.run_append, hrun₁]
    exact hrun₂

end SystemMonitor.Lib
