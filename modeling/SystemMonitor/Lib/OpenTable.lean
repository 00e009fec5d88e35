import Mathlib.Data.Fintype.Card
import Mathlib.Data.List.Nodup
import Mathlib.Logic.Function.Basic

/-! Open addressing with linear probing.

The keys stand in an array, each once, and a lookup table of places leads to them: a key
is looked for from its own slot on, slot by slot around the table, up to the key or a free
slot. As long as there are fewer keys than slots the probing ends at one of the two
(`Addressed.probe_found`, `Addressed.probe_free`), whatever the slots a key starts from. -/
namespace SystemMonitor.Lib.OpenTable

inductive Probed where
  | found (place : Nat)
  | free (slot : Nat)
  /-- Every slot was tried. -/
  | exhausted
  deriving DecidableEq

/-- The probes that are left, and the slot of the next. -/
def probe (size : Nat) (lookup : Nat → Option Nat) (isKey : Nat → Bool) : Nat → Nat → Probed
  | 0, _ => .exhausted
  | left + 1, slot =>
    match lookup slot with
    | none => .free slot
    | some place => if isKey place then .found place else probe size lookup isKey left ((slot + 1) % size)

section
variable {size : Nat} {lookup : Nat → Option Nat} {isKey : Nat → Bool}

/-- Slots that are taken by other keys are passed. -/
theorem probe_passes {start distance left : Nat} (hpassed : ∀ e < distance, ∃ place,
    lookup ((start + e) % size) = some place ∧ isKey place = false) :
    probe size lookup isKey (distance + left) (start % size) = probe size lookup isKey left ((start + distance) % size) := by
  induction distance generalizing start with
  | zero => rw [Nat.zero_add, Nat.add_zero]
  | succ distance ih =>
    obtain ⟨place, hplace, hother⟩ := hpassed 0 (Nat.succ_pos distance)
    rw [Nat.add_zero] at hplace
    rw [Nat.succ_add, probe, hplace]
    dsimp only
    rw [hother, if_neg Bool.false_ne_true, Nat.mod_add_mod]
    have hrest := @ih (start + 1) fun e he => by
      rw [Nat.add_assoc, Nat.add_comm 1 e]
      exact hpassed (e + 1) (Nat.succ_lt_succ he)
    rw [hrest, Nat.add_assoc, Nat.add_comm 1 distance]

end

section
variable {κ : Type} [DecidableEq κ] {size : Nat} {start : κ → Nat} {lookup : Nat → Option Nat} {keys : List κ}

/-- Every place of the lookup table is a key's, at one slot, and no free slot lies between the slot that a key
starts from and its own. -/
structure Addressed (size : Nat) (start : κ → Nat) (lookup : Nat → Option Nat) (keys : List κ) : Prop where
  nodup : keys.Nodup
  within : ∀ slot place, lookup slot = some place → place < keys.length
  once : ∀ slot other place, lookup slot = some place → lookup other = some place → slot = other
  reach : ∀ place k, keys[place]? = some k → ∃ distance < size, lookup ((start k + distance) % size) = some place ∧
    ∀ e < distance, ∃ passed, lookup ((start k + e) % size) = some passed ∧ passed ≠ place

def isAt (keys : List κ) (k : κ) (place : Nat) : Bool := keys[place]? == some k

omit [DecidableEq κ] in
theorem Addressed.nil : Addressed size start (fun _ => none) [] where
  nodup := List.nodup_nil
  within _ _ h := by cases h
  once _ _ _ h := by cases h
  reach _ _ h := by cases h

theorem isAt_other {k : κ} {place other : Nat} (hnodup : keys.Nodup) (hplace : keys[place]? = some k) (hother : other ≠ place) :
    isAt keys k other = false := by
  refine beq_eq_false_iff_ne.mpr fun hequal => hother ?_
  obtain ⟨hlt, -⟩ := List.getElem?_eq_some_iff.mp hplace
  exact ((List.getElem?_inj hlt hnodup).mp (hplace.trans hequal.symm)).symm

/-- A key is found at its place. -/
theorem Addressed.probe_found (h : Addressed size start lookup keys) {place : Nat} {k : κ} (hk : keys[place]? = some k) :
    probe size lookup (isAt keys k) size (start k % size) = .found place := by
  obtain ⟨distance, hdistance, hplace, hpassed⟩ := h.reach place k hk
  obtain ⟨left, rfl⟩ : ∃ left, size = distance + (left + 1) := ⟨size - distance - 1, by omega⟩
  rw [probe_passes, probe, hplace]
  · exact if_pos (beq_iff_eq.mpr hk)
  · intro e he
    obtain ⟨passed, hlookup, hne⟩ := hpassed e he
    exact ⟨passed, hlookup, isAt_other h.nodup hk hne⟩

omit [DecidableEq κ] in
/-- With fewer keys than slots, a slot is free. -/
theorem Addressed.exists_free (h : Addressed size start lookup keys) (hroom : keys.length < size) :
    ∃ slot < size, lookup slot = none := by
  by_contra hfull
  have htaken : ∀ slot : Fin size, ∃ place : Fin keys.length, lookup slot = some place.1 := by
    intro slot
    cases hslot : lookup slot with
    | none => exact absurd ⟨slot.1, slot.2, hslot⟩ hfull
    | some place => exact ⟨⟨place, h.within _ _ hslot⟩, rfl⟩
  choose place hplace using htaken
  have hinjective : Function.Injective place := by
    intro slot other hsame
    exact Fin.ext (h.once _ _ _ (hplace slot) (hsame ▸ hplace other))
  have hcard := Fintype.card_le_of_injective place hinjective
  rw [Fintype.card_fin, Fintype.card_fin] at hcard
  omega

/-- A key that is not there ends at a free slot, which may take it. -/
theorem Addressed.probe_free (h : Addressed size start lookup keys) {k : κ} (hk : k ∉ keys) (hroom : keys.length < size) :
    ∃ slot, probe size lookup (isAt keys k) size (start k % size) = .free slot ∧
      Addressed size start (Function.update lookup slot (some keys.length)) (keys ++ [k]) := by
  obtain ⟨free, hfree, hnone⟩ := h.exists_free hroom
  have hexists : ∃ distance, distance < size ∧ lookup ((start k + distance) % size) = none := by
    refine ⟨(free + (size - start k % size)) % size, Nat.mod_lt _ (by omega), ?_⟩
    have hmod := Nat.mod_lt (start k) (show 0 < size by omega)
    rw [Nat.add_mod_mod, ← Nat.mod_add_mod, show start k % size + (free + (size - start k % size)) = free + size by omega,
      Nat.add_mod_right, Nat.mod_eq_of_lt hfree]
    exact hnone
  classical
  -- The nearest free slot.
  obtain ⟨hdistance, hlookup⟩ := Nat.find_spec hexists
  have hnearer : ∀ e < Nat.find hexists, ∃ place, lookup ((start k + e) % size) = some place := by
    intro e he
    have hmin := Nat.find_min hexists he
    cases hslot : lookup ((start k + e) % size) with
    | none => exact absurd ⟨Nat.lt_trans he hdistance, hslot⟩ hmin
    | some place => exact ⟨place, rfl⟩
  generalize Nat.find hexists = distance at hdistance hlookup hnearer
  have hpassed : ∀ e < distance, ∃ place, lookup ((start k + e) % size) = some place ∧ isAt keys k place = false := by
    intro e he
    obtain ⟨place, hplace⟩ := hnearer e he
    exact ⟨place, hplace, beq_eq_false_iff_ne.mpr fun hat => hk (List.mem_of_getElem? hat)⟩
  obtain ⟨left, hleft⟩ : ∃ left, size = distance + (left + 1) := ⟨size - distance - 1, by omega⟩
  refine ⟨(start k + distance) % size, ?_, ?_⟩
  · have hrun : probe size lookup (isAt keys k) (distance + (left + 1)) (start k % size) =
        .free ((start k + distance) % size) := by
      rw [probe_passes hpassed, probe, hlookup]
    rwa [← hleft] at hrun
  · have hother : ∀ slot place, lookup slot = some place →
        Function.update lookup ((start k + distance) % size) (some keys.length) slot = some place := by
      intro slot place hslot
      rw [Function.update_of_ne ?_]
      · exact hslot
      · rintro rfl
        rw [hlookup] at hslot
        cases hslot
    have hcases : ∀ slot place, Function.update lookup ((start k + distance) % size) (some keys.length) slot = some place →
        slot = (start k + distance) % size ∧ place = keys.length ∨ lookup slot = some place := by
      intro slot place hslot
      by_cases hsame : slot = (start k + distance) % size
      · subst hsame
        rw [Function.update_self, Option.some_inj] at hslot
        exact .inl ⟨rfl, hslot.symm⟩
      · rw [Function.update_of_ne hsame] at hslot
        exact .inr hslot
    constructor
    · exact List.nodup_append.mpr ⟨h.nodup, List.nodup_singleton k, fun a ha b hb hab =>
        hk (List.mem_singleton.mp hb ▸ hab ▸ ha)⟩
    · intro slot place hslot
      rw [List.length_append, List.length_singleton]
      rcases hcases slot place hslot with ⟨-, rfl⟩ | hold
      · exact Nat.lt_succ_self _
      · exact Nat.lt_succ_of_lt (h.within _ _ hold)
    · intro slot other place hslot hother
      rcases hcases slot place hslot with ⟨rfl, rfl⟩ | hold
      · rcases hcases other _ hother with ⟨rfl, -⟩ | hold
        · rfl
        · exact absurd (h.within _ _ hold) (Nat.lt_irrefl _)
      · rcases hcases other place hother with ⟨-, rfl⟩ | hsame
        · exact absurd (h.within _ _ hold) (Nat.lt_irrefl _)
        · exact h.once _ _ _ hold hsame
    · intro place key hkey
      by_cases hplace : place < keys.length
      · rw [List.getElem?_append_left hplace] at hkey
        obtain ⟨d, hd, hat, hbetween⟩ := h.reach place key hkey
        refine ⟨d, hd, hother _ _ hat, fun e he => ?_⟩
        obtain ⟨passed, hpassed, hne⟩ := hbetween e he
        exact ⟨passed, hother _ _ hpassed, hne⟩
      · have hlast : place = keys.length := by
          have hlt := (List.getElem?_eq_some_iff.mp hkey).1
          rw [List.length_append, List.length_singleton] at hlt
          omega
        subst hlast
        rw [List.getElem?_concat_length, Option.some_inj] at hkey
        subst hkey
        refine ⟨distance, hdistance, Function.update_self .., fun e he => ?_⟩
        obtain ⟨passed, hpassed⟩ := hnearer e he
        exact ⟨passed, hother _ _ hpassed, Nat.ne_of_lt (h.within _ _ hpassed)⟩

/-- The probing always ends. -/
theorem Addressed.probe_ne_exhausted (h : Addressed size start lookup keys) (hroom : keys.length < size) (k : κ) :
    probe size lookup (isAt keys k) size (start k % size) ≠ .exhausted := by
  by_cases hk : k ∈ keys
  · obtain ⟨place, hplace⟩ := List.mem_iff_getElem?.mp hk
    rw [h.probe_found hplace]
    exact Probed.noConfusion
  · obtain ⟨slot, hslot, -⟩ := h.probe_free hk hroom
    rw [hslot]
    exact Probed.noConfusion

end

end SystemMonitor.Lib.OpenTable
