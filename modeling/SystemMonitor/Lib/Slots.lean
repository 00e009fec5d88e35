import Mathlib.Data.List.Basic

/-! A fixed table of slots, searched from the front.

A free slot is `none`. Putting takes the first free one, removing frees the first
whose value matches; removing what was put gives the table back (`remove_put`). -/
namespace SystemMonitor.Lib.Slots
variable {α : Type}

def find (p : α → Bool) : List (Option α) → Option α
  | [] => none
  | none :: rest => find p rest
  | some a :: rest => if p a then some a else find p rest

/-- `none`: no slot is free. -/
def put (a : α) : List (Option α) → Option (List (Option α))
  | [] => none
  | none :: rest => some (some a :: rest)
  | some b :: rest => (put a rest).map (some b :: ·)

def update (p : α → Bool) (f : α → α) : List (Option α) → List (Option α)
  | [] => []
  | none :: rest => none :: update p f rest
  | some a :: rest => if p a then some (f a) :: rest else some a :: update p f rest

def remove (p : α → Bool) : List (Option α) → List (Option α)
  | [] => []
  | none :: rest => none :: remove p rest
  | some a :: rest => if p a then none :: rest else some a :: remove p rest

variable {p : α → Bool} {f : α → α} {a : α} {slots t : List (Option α)}

theorem put_isSome (a : α) (slots : List (Option α)) : (put a slots).isSome = slots.any Option.isNone := by
  induction slots with
  | nil => rfl
  | cons slot rest ih =>
    cases slot with
    | none => rfl
    | some b => rw [put, Option.isSome_map, ih, List.any_cons, Option.isNone_some, Bool.false_or]

theorem find_put (ha : p a = true) (hfind : find p slots = none) (hput : put a slots = some t) :
    find p t = some a := by
  induction slots generalizing t with
  | nil => cases hput
  | cons slot rest ih =>
    cases slot with
    | none =>
      cases hput
      exact if_pos ha
    | some b =>
      obtain ⟨t', ht', rfl⟩ := Option.map_eq_some_iff.mp hput
      rw [find] at hfind ⊢
      split at hfind
      · cases hfind
      · rename_i hb
        rw [if_neg hb]
        exact ih hfind ht'

/-- Removing what was put gives the table back. -/
theorem remove_put (ha : p a = true) (hfind : find p slots = none) (hput : put a slots = some t) :
    remove p t = slots := by
  induction slots generalizing t with
  | nil => cases hput
  | cons slot rest ih =>
    cases slot with
    | none =>
      cases hput
      exact if_pos ha
    | some b =>
      obtain ⟨t', ht', rfl⟩ := Option.map_eq_some_iff.mp hput
      rw [find] at hfind
      split at hfind
      · cases hfind
      · rename_i hb
        rw [remove, if_neg hb, ih hfind ht']

theorem remove_of_find_none (hfind : find p slots = none) : remove p slots = slots := by
  induction slots with
  | nil => rfl
  | cons slot rest ih =>
    cases slot with
    | none => rw [remove, ih hfind]
    | some a =>
      rw [find] at hfind
      split at hfind
      · cases hfind
      · rename_i ha
        rw [remove, if_neg ha, ih hfind]

theorem find_update (hf : ∀ a, p a = true → p (f a) = true) (slots : List (Option α)) :
    find p (update p f slots) = (find p slots).map f := by
  induction slots with
  | nil => rfl
  | cons slot rest ih =>
    cases slot with
    | none => exact ih
    | some a =>
      by_cases ha : p a = true
      · simp only [update, find, if_pos ha, if_pos (hf a ha), Option.map_some]
      · simp only [update, find, if_neg ha, ih]

theorem remove_update (hf : ∀ a, p a = true → p (f a) = true) (slots : List (Option α)) :
    remove p (update p f slots) = remove p slots := by
  induction slots with
  | nil => rfl
  | cons slot rest ih =>
    cases slot with
    | none => rw [update, remove, remove, ih]
    | some a =>
      by_cases ha : p a = true
      · simp only [update, remove, if_pos ha, if_pos (hf a ha)]
      · simp only [update, remove, if_neg ha, ih]

end SystemMonitor.Lib.Slots
