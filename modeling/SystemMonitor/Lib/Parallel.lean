import Mathlib.Data.List.Forall2

/-! Parallel arrays.

The items of one array and what is kept about them in another, position by position. The
second array is longer: what lies behind the last item is idle. An array that is built
anew (`Parallel.built`) and one that is updated in place (`Parallel.updateBoth`) stay
parallel. -/
namespace SystemMonitor.Lib

inductive Parallel {α β : Type} (R : α → β → Prop) (Idle : β → Prop) : List α → List β → Prop
  | idle {rest : List β} (h : ∀ b ∈ rest, Idle b) : Parallel R Idle [] rest
  | cons {a : α} {b : β} {items : List α} {kept : List β} (h : R a b) (rest : Parallel R Idle items kept) :
    Parallel R Idle (a :: items) (b :: kept)

/-- Each item and what is kept about it, in one go over both. -/
def updateBoth {α β : Type} (f : α → β → α × β) : List α → List β → List α × List β
  | a :: items, b :: kept =>
    let updated := f a b
    let rest := updateBoth f items kept
    (updated.1 :: rest.1, updated.2 :: rest.2)
  | items, kept => (items, kept)

namespace Parallel
variable {α β : Type} {R S : α → β → Prop} {Idle : β → Prop} {items : List α} {kept : List β}

theorem imp (h : Parallel R Idle items kept) (himp : ∀ a b, R a b → S a b) : Parallel S Idle items kept := by
  induction h with
  | idle hidle => exact .idle hidle
  | cons hhead _ ih => exact .cons (himp _ _ hhead) ih

theorem updateBoth {f : α → β → α × β} (h : Parallel R Idle items kept) (hf : ∀ a b, R a b → S (f a b).1 (f a b).2) :
    Parallel S Idle (updateBoth f items kept).1 (updateBoth f items kept).2 := by
  induction h with
  | idle hidle =>
    unfold Lib.updateBoth
    exact .idle hidle
  | cons hhead _ ih => exact .cons (hf _ _ hhead) ih

/-- Items found anew, each with what is kept about it, behind which the array is idle. -/
theorem built {found : List (α × β)} {rest : List β} (hfound : ∀ entry ∈ found, R entry.1 entry.2)
    (hrest : ∀ b ∈ rest, Idle b) : Parallel R Idle (found.map Prod.fst) (found.map Prod.snd ++ rest) := by
  induction found with
  | nil => exact .idle hrest
  | cons entry found ih =>
    exact .cons (hfound entry (List.mem_cons_self ..)) (ih fun e he => hfound e (List.mem_cons_of_mem _ he))

/-- Items that are exchanged for items with the same fields. -/
theorem exchange {γ : Type} {field : α → γ} {others : List α} (h : Parallel R Idle items kept)
    (hsame : others.map field = items.map field) (hR : ∀ a other b, field other = field a → R a b → S other b) :
    Parallel S Idle others kept := by
  induction h generalizing others with
  | idle hidle =>
    rw [List.map_nil, List.map_eq_nil_iff] at hsame
    rw [hsame]
    exact .idle hidle
  | cons hhead _ ih =>
    cases others with
    | nil => cases hsame
    | cons other others =>
      obtain ⟨hfirst, hothers⟩ := List.cons.inj hsame
      exact .cons (hR _ _ _ hfirst hhead) (ih hothers)

end Parallel

end SystemMonitor.Lib
