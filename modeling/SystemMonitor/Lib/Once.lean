import Mathlib.Data.List.Perm.Basic
import Mathlib.Logic.Function.Basic

/-! Slots that may be filled once.

A reader goes over items; an item is passed over, is an error, or names a slot and a
value for it, and a slot that is named twice is an error too. `fillAll_eq_some_iff` says
what such a reader accepts, and from it neither the order of the items nor the items that
are passed over matter (`fillAll_congr`). -/
namespace SystemMonitor.Lib.Once

variable {α κ : Type} {β : κ → Type} [DecidableEq κ]

inductive Reading (κ : Type) (β : κ → Type) where
  | skip
  | bad
  | put (slot : κ) (value : β slot)

abbrev Slots (κ : Type) (β : κ → Type) := ∀ k : κ, Option (β k)

def fill (slots : Slots κ β) : Reading κ β → Option (Slots κ β)
  | .skip => some slots
  | .bad => none
  | .put k v => if (slots k).isSome then none else some (Function.update slots k (some v))

def fillAll (slots : Slots κ β) : List (Reading κ β) → Option (Slots κ β)
  | [] => some slots
  | r :: rest => (fill slots r).bind fun filled => fillAll filled rest

/-- The value that a reading has for a slot. -/
def Reading.valueFor (k : κ) : Reading κ β → Option (β k)
  | .put slot v => if h : slot = k then some (h ▸ v) else none
  | _ => none

/-- The values for one slot, in the order of the items. -/
def valuesFor (k : κ) (readings : List (Reading κ β)) : List (β k) := readings.filterMap (Reading.valueFor k)

@[simp] theorem valueFor_skip (k : κ) : (Reading.skip : Reading κ β).valueFor k = none := rfl

theorem valueFor_put_self (k : κ) (v : β k) : (Reading.put k v).valueFor k = some v := by
  rw [Reading.valueFor, dif_pos rfl]

theorem valueFor_put_ne {k slot : κ} (h : slot ≠ k) (v : β slot) : (Reading.put slot v).valueFor k = none := by
  rw [Reading.valueFor, dif_neg h]

theorem toList_injective {γ : Type} {a b : Option γ} (h : a.toList = b.toList) : a = b := by
  cases b with
  | none => exact Option.toList_eq_nil_iff.mp h
  | some v => exact Option.toList_eq_singleton_iff.mp h

/-- One reading is taken when it is no error and its slot was empty. -/
theorem fill_eq_some_iff {slots filled : Slots κ β} {r : Reading κ β} :
    fill slots r = some filled ↔
      r ≠ .bad ∧ ∀ k, (slots k).toList ++ (r.valueFor k).toList = (filled k).toList := by
  cases r with
  | bad =>
    constructor
    · intro h
      cases h
    · intro h
      exact absurd rfl h.1
  | skip =>
    rw [fill]
    constructor
    · intro h
      cases h
      exact ⟨by simp, fun k => List.append_nil _⟩
    · intro h
      refine congrArg some (funext fun k => ?_)
      have hk := h.2 k
      rw [valueFor_skip, Option.toList_none, List.append_nil] at hk
      exact toList_injective hk
  | put slot v =>
    rw [fill]
    constructor
    · intro h
      split at h
      · cases h
      · rename_i hempty
        cases h
        refine ⟨by simp, fun k => ?_⟩
        by_cases hk : k = slot
        · subst hk
          have hnone : slots k = none := by simpa using hempty
          rw [Function.update_self, valueFor_put_self, hnone]
          rfl
        · rw [Function.update_of_ne hk, valueFor_put_ne (Ne.symm hk), Option.toList_none, List.append_nil]
    · intro h
      have hslot := h.2 slot
      rw [valueFor_put_self] at hslot
      have hempty : slots slot = none := by
        cases hs : slots slot with
        | none => rfl
        | some w =>
          rw [hs] at hslot
          cases hf : filled slot <;> simp [hf] at hslot
      rw [if_neg (by simp [hempty])]
      refine congrArg some (funext fun k => ?_)
      by_cases hk : k = slot
      · subst hk
        rw [hempty, Option.toList_none, List.nil_append] at hslot
        rw [Function.update_self]
        exact toList_injective hslot
      · have hother := h.2 k
        rw [valueFor_put_ne (Ne.symm hk), Option.toList_none, List.append_nil] at hother
        rw [Function.update_of_ne hk]
        exact toList_injective hother

/-- Where nothing is lost, one value comes from one item. -/
theorem filterMap_eq_singleton_iff {γ δ : Type} {f : γ → Option δ} {l : List γ} (hall : ∀ x ∈ l, (f x).isSome) {y : δ} :
    l.filterMap f = [y] ↔ ∃ x, l = [x] ∧ f x = some y := by
  constructor
  · intro h
    cases l with
    | nil => cases h
    | cons x rest =>
      obtain ⟨z, hz⟩ := Option.isSome_iff_exists.mp (hall x (List.mem_cons_self ..))
      rw [List.filterMap_cons, hz] at h
      obtain ⟨rfl, hrest⟩ := List.cons.inj h
      refine ⟨x, ?_, hz⟩
      cases rest with
      | nil => rfl
      | cons x' rest =>
        obtain ⟨w, hw⟩ := Option.isSome_iff_exists.mp (hall x' (List.mem_cons_of_mem x (List.mem_cons_self ..)))
        rw [List.filterMap_cons, hw] at hrest
        cases hrest
  · intro h
    obtain ⟨x, rfl, hx⟩ := h
    rw [List.filterMap_cons, hx]
    rfl

theorem filterMap_eq_nil_iff {γ δ : Type} {f : γ → Option δ} {l : List γ} (hall : ∀ x ∈ l, (f x).isSome) :
    l.filterMap f = [] ↔ l = [] := by
  constructor
  · intro h
    cases l with
    | nil => rfl
    | cons x rest =>
      obtain ⟨z, hz⟩ := Option.isSome_iff_exists.mp (hall x (List.mem_cons_self ..))
      rw [List.filterMap_cons, hz] at h
      cases h
  · intro h
    rw [h, List.filterMap_nil]

theorem valuesFor_cons (k : κ) (r : Reading κ β) (rest : List (Reading κ β)) :
    valuesFor k (r :: rest) = (r.valueFor k).toList ++ valuesFor k rest := by
  rw [valuesFor, List.filterMap_cons]
  cases r.valueFor k <;> rfl

/-- What a reader accepts: no error, and at most one value for each slot, the one it was
filled with before included. -/
theorem fillAll_eq_some_iff {slots filled : Slots κ β} {readings : List (Reading κ β)} :
    fillAll slots readings = some filled ↔
      (∀ r ∈ readings, r ≠ .bad) ∧ ∀ k, (slots k).toList ++ valuesFor k readings = (filled k).toList := by
  induction readings generalizing slots with
  | nil =>
    rw [fillAll]
    constructor
    · intro h
      cases h
      exact ⟨fun r hr => absurd hr List.not_mem_nil, fun k => List.append_nil _⟩
    · intro h
      refine congrArg some (funext fun k => ?_)
      have hk := h.2 k
      rw [valuesFor, List.filterMap_nil, List.append_nil] at hk
      exact toList_injective hk
  | cons r rest ih =>
    rw [fillAll, Option.bind_eq_some_iff]
    constructor
    · intro h
      obtain ⟨between, hfirst, hrest⟩ := h
      obtain ⟨hgood, hvalue⟩ := fill_eq_some_iff.mp hfirst
      obtain ⟨hgoods, hvalues⟩ := ih.mp hrest
      refine ⟨fun a ha => ?_, fun k => ?_⟩
      · rcases List.mem_cons.mp ha with rfl | ha
        · exact hgood
        · exact hgoods a ha
      · rw [valuesFor_cons, ← List.append_assoc, hvalue k, hvalues k]
    · intro h
      obtain ⟨hgoods, hvalues⟩ := h
      -- the slots in between hold the first value of what is left
      have hbetween : ∀ k, ∃ between : Option (β k), (slots k).toList ++ (r.valueFor k).toList = between.toList := by
        intro k
        have hk := hvalues k
        rw [valuesFor_cons, ← List.append_assoc] at hk
        cases hs : slots k with
        | none => exact ⟨r.valueFor k, rfl⟩
        | some v =>
          cases hr : r.valueFor k with
          | none => exact ⟨some v, rfl⟩
          | some w =>
            rw [hs, hr] at hk
            cases hf : filled k <;> simp [hf] at hk
      choose between hb using hbetween
      refine ⟨between, fill_eq_some_iff.mpr ⟨hgoods r (List.mem_cons_self ..), hb⟩, ih.mpr ⟨?_, fun k => ?_⟩⟩
      · exact fun a ha => hgoods a (List.mem_cons_of_mem r ha)
      · rw [← hb k, List.append_assoc, ← valuesFor_cons, hvalues k]

/-- A reader depends on whether there is an error and on the values for each slot. -/
theorem fillAll_congr {slots : Slots κ β} {readings other : List (Reading κ β)}
    (hbad : (∀ r ∈ readings, r ≠ .bad) ↔ ∀ r ∈ other, r ≠ .bad)
    (hvalues : ∀ k, (valuesFor k readings).Perm (valuesFor k other)) :
    fillAll slots readings = fillAll slots other := by
  have hone : ∀ (filled : Slots κ β) (a b : List (Reading κ β)), (∀ k, (valuesFor k a).Perm (valuesFor k b)) →
      (∀ k, (slots k).toList ++ valuesFor k a = (filled k).toList) →
      ∀ k, (slots k).toList ++ valuesFor k b = (filled k).toList := by
    intro filled a b hperm ha k
    have hall := ((hperm k).symm.append_left (slots k).toList).trans (List.Perm.of_eq (ha k))
    cases hf : filled k with
    | none =>
      rw [hf] at hall
      exact hall.eq_nil
    | some v =>
      rw [hf] at hall
      exact List.perm_singleton.mp hall
  apply Option.ext
  intro filled
  rw [fillAll_eq_some_iff, fillAll_eq_some_iff, hbad]
  exact and_congr_right fun _ => ⟨hone filled _ _ hvalues, hone filled _ _ fun k => (hvalues k).symm⟩

theorem fillAll_perm {slots : Slots κ β} {readings other : List (Reading κ β)} (h : readings.Perm other) :
    fillAll slots readings = fillAll slots other :=
  fillAll_congr ⟨fun hr r hm => hr r (h.mem_iff.mpr hm), fun hr r hm => hr r (h.mem_iff.mp hm)⟩
    fun _ => h.filterMap _

theorem fillAll_skip (slots : Slots κ β) (readings : List (Reading κ β)) :
    fillAll slots (.skip :: readings) = fillAll slots readings := rfl

end SystemMonitor.Lib.Once
