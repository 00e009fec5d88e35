import SystemMonitor.Lib.Machine

/-! Logs whose events are judged by those before them.

`Each P log events`: behind `log`, every one of the events satisfies `P` with all events before it.
What the steps of a machine keep to, their runs do (`Machine.run_each`). -/
namespace SystemMonitor.Lib

variable {ε : Type} {P : List ε → ε → Prop}

def Each (P : List ε → ε → Prop) (log : List ε) : List ε → Prop
  | [] => True
  | e :: rest => P log e ∧ Each P (log ++ [e]) rest

theorem each_singleton {log : List ε} {e : ε} : Each P log [e] ↔ P log e := Iff.of_eq (and_true _)

theorem each_append {log : List ε} {a b : List ε} : Each P log (a ++ b) ↔ Each P log a ∧ Each P (log ++ a) b := by
  induction a generalizing log with
  | nil =>
    rw [List.nil_append, List.append_nil]
    exact (Iff.of_eq (true_and _)).symm
  | cons e rest ih =>
    rw [List.cons_append, Each, Each, ih, and_assoc, ← List.append_cons]

/-- At any place of the events. -/
theorem Each.at {log before after : List ε} {e : ε} (h : Each P log (before ++ e :: after)) : P (log ++ before) e :=
  (each_append.mp h).2.1

/-- The rule for machines: with an invariant of the log and the state, each step's events are right. -/
theorem Machine.run_each {σ α : Type} (M : Machine σ α) (event : σ → α → List ε) (Inv : List ε → σ → Prop)
    (hstep : ∀ log s a t, Inv log s → M.step s a = some t → Each P log (event s a) ∧ Inv (log ++ event s a) t)
    {s u : σ} {actions : List α} {log : List ε} (hs : Inv log s) (hrun : M.run s actions = some u) :
    Each P log (M.trace event s actions) ∧ Inv (log ++ M.trace event s actions) u := by
  induction actions generalizing s log with
  | nil =>
    cases hrun
    rw [trace, List.append_nil]
    exact ⟨trivial, hs⟩
  | cons a rest ih =>
    obtain ⟨t, ht, hrest⟩ := M.run_cons hrun
    obtain ⟨hfirst, ht'⟩ := hstep log s a t hs ht
    obtain ⟨hlater, hend⟩ := ih ht' hrest
    rw [M.trace_cons event ht, each_append, ← List.append_assoc]
    exact ⟨⟨hfirst, hlater⟩, hend⟩

end SystemMonitor.Lib
