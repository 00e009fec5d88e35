import Mathlib.Data.List.Basic
import Mathlib.Data.List.Nodup

/-! What is carried over by a first match.

A table is rebuilt and each new row takes what the first old row that matches it
holds. The match may accept more than the row's own predecessor; these rules say
when the first match is nevertheless the right one. Where it is the only one (`Single`), it
does not depend on the order (`Single.findSome?_congr`), and a loop that keeps the last value
ends with it (`Single.foldl_replace`). -/
namespace SystemMonitor.Lib

variable {α : Type} {p : α → Bool} {l : List α}

/-- The first match, with what is before it. -/
theorem find?_split {x : α} (h : l.find? p = some x) :
    ∃ earlier later, l = earlier ++ x :: later ∧ p x = true ∧ ∀ y ∈ earlier, p y = false := by
  obtain ⟨hx, earlier, later, hl, hearlier⟩ := List.find?_eq_some_iff_append.mp h
  exact ⟨earlier, later, hl, hx, fun y hy => by simpa using hearlier y hy⟩

/-- A match is the first one or comes after it. -/
theorem find?_before {earlier later : List α} {x : α} (hl : l = earlier ++ x :: later) (hx : p x = true) :
    l.find? p = some x ∨ ∃ y ∈ earlier, l.find? p = some y := by
  cases h : earlier.find? p with
  | none =>
    left
    rw [hl, List.find?_append, h, Option.none_or, List.find?_cons_of_pos hx]
  | some y =>
    right
    exact ⟨y, List.mem_of_find?_eq_some h, by rw [hl, List.find?_append, h, Option.some_or]⟩

section
variable {β σ : Type} {f : α → Option β} {m : List α} {v : β}

/-- No two different elements have a value. -/
def Single (f : α → Option β) (l : List α) : Prop :=
  ∀ a ∈ l, ∀ b ∈ l, (f a).isSome = true → (f b).isSome = true → a = b

theorem Single.subset (h : Single f l) (hm : ∀ a ∈ m, a ∈ l) : Single f m :=
  fun a ha b hb => h a (hm a ha) b (hm b hb)

/-- Elements with a value that share a key that occurs once. -/
theorem Single.of_key {κ : Type} {key : α → κ} (hl : (l.map key).Nodup) {k : κ}
    (hkey : ∀ a, (f a).isSome = true → key a = k) : Single f l :=
  fun a ha b hb hfa hfb => List.inj_on_of_nodup_map hl ha hb ((hkey a hfa).trans (hkey b hfb).symm)

theorem Single.findSome?_eq_some_iff (h : Single f l) : l.findSome? f = some v ↔ ∃ a ∈ l, f a = some v := by
  constructor
  · exact List.exists_of_findSome?_eq_some
  · intro ⟨a, ha, hv⟩
    have hsome : (l.findSome? f).isSome = true :=
      List.findSome?_isSome_iff.mpr ⟨a, ha, by rw [hv]; rfl⟩
    obtain ⟨w, hw⟩ := Option.isSome_iff_exists.mp hsome
    obtain ⟨b, hb, hbw⟩ := List.exists_of_findSome?_eq_some hw
    have hab := h a ha b hb (by rw [hv]; rfl) (by rw [hbw]; rfl)
    rw [hw, ← hbw, ← hab, hv]

/-- The order does not matter. -/
theorem Single.findSome?_congr (h : Single f l) (hm : ∀ a, a ∈ l ↔ a ∈ m) : l.findSome? f = m.findSome? f := by
  have h' : Single f m := h.subset fun a ha => (hm a).mpr ha
  refine Option.ext fun v => ?_
  rw [h.findSome?_eq_some_iff, h'.findSome?_eq_some_iff]
  exact exists_congr fun a => and_congr_left' (hm a)

/-- A loop that keeps the last value ends with the only one. -/
theorem Single.foldl_replace (h : Single f l) {step : σ → α → σ} {value : σ → β}
    (hstep : ∀ s a, value (step s a) = (f a).getD (value s)) (s : σ) :
    value (l.foldl step s) = (l.findSome? f).getD (value s) := by
  induction l generalizing s with
  | nil => rfl
  | cons a rest ih =>
    rw [List.foldl_cons, ih (h.subset fun b hb => List.mem_cons_of_mem a hb), hstep, List.findSome?_cons]
    cases ha : f a with
    | none => rfl
    | some v =>
      cases hrest : rest.findSome? f with
      | none => rfl
      | some w =>
        obtain ⟨b, hb, hbw⟩ := List.exists_of_findSome?_eq_some hrest
        have hab := h a (List.mem_cons_self ..) b (List.mem_cons_of_mem a hb) (by rw [ha]; rfl) (by rw [hbw]; rfl)
        rw [hab, hbw] at ha
        exact Option.some.inj ha

/-- A loop that raises a flag. -/
theorem foldl_flag {step : σ → α → σ} {flag : σ → Bool} {p : α → Bool}
    (hstep : ∀ s a, flag (step s a) = (flag s || p a)) (s : σ) (l : List α) :
    flag (l.foldl step s) = (flag s || l.any p) := by
  induction l generalizing s with
  | nil => simp
  | cons a rest ih => rw [List.foldl_cons, ih, hstep, List.any_cons, Bool.or_assoc]

end

end SystemMonitor.Lib
