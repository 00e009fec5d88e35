import Mathlib.Data.List.Basic
import Mathlib.Algebra.BigOperators.Group.List.Basic
import Mathlib.Algebra.GroupWithZero.Nat

/-! Totals that are kept in parts: by key, and with a ceiling.

What a table counts under distinct keys adds up to what the entries of its keys
add up to (`sum_by_key`), and a ceiling on every part is a ceiling on the whole
(`min_sum_min`). -/
namespace SystemMonitor.Lib

variable {α β κ : Type}

/-- The weight of the entries that satisfy a predicate. -/
def weigh (w : β → Nat) (p : β → Bool) (entries : List β) : Nat := ((entries.filter p).map w).sum

@[simp] theorem weigh_nil (w : β → Nat) (p : β → Bool) : weigh w p [] = 0 := rfl

theorem weigh_cons (w : β → Nat) (p : β → Bool) (e : β) (rest : List β) :
    weigh w p (e :: rest) = (if p e then w e else 0) + weigh w p rest := by
  unfold weigh
  cases h : p e <;> simp [h]

theorem weigh_append (w : β → Nat) (p : β → Bool) (a b : List β) : weigh w p (a ++ b) = weigh w p a + weigh w p b := by
  simp [weigh]

theorem weigh_congr {w : β → Nat} {p q : β → Bool} {entries : List β} (h : ∀ e ∈ entries, p e = q e) :
    weigh w p entries = weigh w q entries := by
  unfold weigh
  rw [List.filter_congr h]

theorem weigh_false {w : β → Nat} {p : β → Bool} {entries : List β} (h : ∀ e ∈ entries, p e = false) :
    weigh w p entries = 0 := by
  unfold weigh
  rw [List.filter_eq_nil_iff.mpr fun e he => by simp [h e he]]
  rfl

/-- Parts that do not overlap. -/
theorem weigh_or {w : β → Nat} {p q : β → Bool} {entries : List β} (h : ∀ e ∈ entries, p e = true → q e = false) :
    weigh w (fun e => p e || q e) entries = weigh w p entries + weigh w q entries := by
  induction entries with
  | nil => rfl
  | cons e rest ih =>
    have hrest := ih fun x hx => h x (List.mem_cons_of_mem _ hx)
    have he := h e (List.mem_cons_self ..)
    rw [weigh_cons, weigh_cons, weigh_cons, hrest]
    cases hp : p e with
    | true =>
      simp [he hp]
      omega
    | false =>
      simp
      omega

/-- **Distinct keys part their entries.** -/
theorem sum_by_key [DecidableEq κ] (key : α → κ) (of : β → κ) (w : β → Nat) (p : β → Bool) (entries : List β)
    {rows : List α} (h : (rows.map key).Nodup) :
    (rows.map fun r => weigh w (fun e => decide (of e = key r) && p e) entries).sum =
      weigh w (fun e => (rows.any fun r => decide (of e = key r)) && p e) entries := by
  induction rows with
  | nil => simp [weigh_false]
  | cons r rest ih =>
    rw [List.map_cons, List.nodup_cons] at h
    rw [List.map_cons, List.sum_cons, ih h.2, ← weigh_or]
    · apply weigh_congr
      intro e _
      cases p e <;> simp
    · intro e _ he
      simp only [Bool.and_eq_true, decide_eq_true_eq] at he
      have hrest : (rest.any fun r' => decide (of e = key r')) = false := by
        refine List.any_eq_false.mpr fun r' hr' hsame => h.1 ?_
        rw [← he.1, of_decide_eq_true hsame]
        exact List.mem_map_of_mem hr'
      rw [hrest, Bool.false_and]

/-- **A ceiling on the parts is a ceiling on the whole.** -/
theorem min_sum_min (w : α → Nat) (ceiling : Nat) (rows : List α) :
    min ((rows.map fun r => min (w r) ceiling).sum) ceiling = min ((rows.map w).sum) ceiling := by
  induction rows with
  | nil => rfl
  | cons r rest ih =>
    rw [List.map_cons, List.sum_cons, List.map_cons, List.sum_cons]
    omega

end SystemMonitor.Lib
