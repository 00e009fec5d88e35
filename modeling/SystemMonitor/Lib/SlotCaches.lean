import SystemMonitor.Lib.Arena

/-! Caches kept by position for devices that are listed by key.

When the list changes, the cache of a device that is still there is moved to the
device's new position, leaving a zeroed slot behind; a cache that is no longer
usable is destroyed and built again; whatever is left at the end is destroyed.
`synchronise_spec` says what this comes to: position by position the new caches are
those of the listed devices, and each allocation still has exactly one owner. -/
namespace SystemMonitor.Lib
open Arena

/-- A kind of cache: its key, its zeroed form, what it owns and how it is built. -/
structure CacheKind (δ σ κ : Type) where
  key : δ → κ
  slotKey : σ → κ
  zero : σ
  pointers : σ → List Nat
  usable : σ → Bool
  build : δ → Arena → σ × Arena

namespace CacheKind
variable {δ σ κ : Type} (K : CacheKind δ σ κ)

structure Moving (σ : Type) where
  old : List σ
  next : List σ
  arena : Arena

/-- One device: its cache is moved, replaced, or built. -/
def place [DecidableEq κ] (s : Moving σ) (device : δ) : Moving σ :=
  match s.old.findIdx? fun slot => K.slotKey slot = K.key device with
  | none =>
    let built := K.build device s.arena
    ⟨s.old, s.next ++ [built.1], built.2⟩
  | some i =>
    let slot := s.old[i]?.getD K.zero
    if K.usable slot then ⟨s.old.set i K.zero, s.next ++ [slot], s.arena⟩
    else
      let built := K.build device (s.arena.release (K.pointers slot))
      ⟨s.old.set i K.zero, s.next ++ [built.1], built.2⟩

def synchronise [DecidableEq κ] (devices : List δ) (slots : List σ) (arena : Arena) : List σ × Arena :=
  let s := devices.foldl (K.place) ⟨slots, [], arena⟩
  (s.next, s.arena.release (s.old.flatMap K.pointers))

/-- What is promised of the devices that are ever listed: no zeroed slot has their
key, and building makes a cache of that key that owns what it allocates. -/
structure Lawful (Listed : δ → Prop) (Built : σ → Prop) : Prop where
  zero_pointers : K.pointers K.zero = []
  key_ne_zero : ∀ device, Listed device → K.key device ≠ K.slotKey K.zero
  build_key : ∀ device arena, K.slotKey (K.build device arena).1 = K.key device
  build_built : ∀ device arena, Listed device → Built (K.build device arena).1
  build_owns : ∀ device {arena owned}, Owns arena owned →
    Owns (K.build device arena).2 (K.pointers (K.build device arena).1 ++ owned)

variable {K} {Listed : δ → Prop} {Built : σ → Prop}

theorem flatMap_set_zero (hzero : K.pointers K.zero = []) {slots : List σ} {i : Nat} {slot : σ}
    (hi : slots[i]? = some slot) :
    (slots.flatMap K.pointers).Perm (K.pointers slot ++ (slots.set i K.zero).flatMap K.pointers) := by
  obtain ⟨hlt, hget⟩ := List.getElem?_eq_some_iff.mp hi
  have hperm : (K.zero :: slots).Perm (slot :: slots.set i K.zero) := by
    rw [← hget]
    have hset := (List.set_perm_cons_eraseIdx hlt K.zero).cons slots[i]
    have hslots := (List.getElem_cons_eraseIdx_perm hlt).symm.cons K.zero
    exact hslots.trans ((List.Perm.swap ..).trans hset.symm)
  have hflat := hperm.flatMap_right K.pointers
  rwa [List.flatMap_cons, List.flatMap_cons, hzero, List.nil_append] at hflat

/-- Where the synchronisation stands: the devices in `done` have their caches. -/
structure Placed (K : CacheKind δ σ κ) (Built : σ → Prop) (others : List Nat) (done : List δ) (s : Moving σ) :
    Prop where
  keys : s.next.map K.slotKey = done.map K.key
  next_built : ∀ slot ∈ s.next, Built slot
  old_built : ∀ slot ∈ s.old, slot = K.zero ∨ Built slot
  owns : Owns s.arena (s.old.flatMap K.pointers ++ (s.next.flatMap K.pointers ++ others))

theorem Placed.append {others : List Nat} {done : List δ} {s t : Moving σ} {device : δ} {slot : σ}
    (h : Placed K Built others done s) (hnext : t.next = s.next ++ [slot]) (hkey : K.slotKey slot = K.key device)
    (hbuilt : Built slot) (hold : ∀ x ∈ t.old, x = K.zero ∨ Built x)
    (howns : Owns t.arena (K.pointers slot ++ (t.old.flatMap K.pointers ++ (s.next.flatMap K.pointers ++ others)))) :
    Placed K Built others (done ++ [device]) t where
  keys := by
    rw [hnext, List.map_append, List.map_append, h.keys, List.map_singleton, List.map_singleton, hkey]
  next_built := by
    rw [hnext]
    intro x hx
    rcases List.mem_append.mp hx with hx | hx
    · exact h.next_built x hx
    · rw [List.mem_singleton.mp hx]
      exact hbuilt
  old_built := hold
  owns := by
    apply howns.perm
    rw [hnext, List.flatMap_append, List.flatMap_singleton, List.perm_iff_count]
    intro pointer
    simp only [List.count_append]
    omega

variable [DecidableEq κ]

theorem Placed.place (hlawful : K.Lawful Listed Built) {others : List Nat} {done : List δ} {s : Moving σ}
    (h : Placed K Built others done s) {device : δ} (hlisted : Listed device) :
    Placed K Built others (done ++ [device]) (K.place s device) := by
  unfold CacheKind.place
  cases hfind : s.old.findIdx? fun slot => K.slotKey slot = K.key device with
  | none =>
    exact h.append rfl (hlawful.build_key ..) (hlawful.build_built _ _ hlisted) h.old_built (hlawful.build_owns device h.owns)
  | some i =>
    obtain ⟨hi, hmatch, -⟩ := List.findIdx?_eq_some_iff_getElem.mp hfind
    have hget : s.old[i]? = some s.old[i] := List.getElem?_eq_getElem hi
    generalize s.old[i] = slot at hmatch hget
    have hslotKey : K.slotKey slot = K.key device := of_decide_eq_true hmatch
    -- The zeroed slots left behind have a key that no device has.
    have hbuilt : Built slot := by
      rcases h.old_built slot (List.mem_of_getElem? hget) with hzero | hbuilt
      · rw [hzero] at hslotKey
        exact absurd hslotKey.symm (hlawful.key_ne_zero device hlisted)
      · exact hbuilt
    have hold : ∀ x ∈ s.old.set i K.zero, x = K.zero ∨ Built x := by
      intro x hx
      rcases List.mem_or_eq_of_mem_set hx with hx | hx
      · exact h.old_built x hx
      · exact Or.inl hx
    have howns : Owns s.arena (K.pointers slot ++
        ((s.old.set i K.zero).flatMap K.pointers ++ (s.next.flatMap K.pointers ++ others))) := by
      rw [← List.append_assoc]
      exact h.owns.perm ((flatMap_set_zero hlawful.zero_pointers hget).append_right _).symm
    simp only [hget, Option.getD_some]
    by_cases husable : K.usable slot = true
    · rw [if_pos husable]
      exact h.append rfl hslotKey hbuilt hold howns
    · rw [if_neg husable]
      exact h.append rfl (hlawful.build_key ..) (hlawful.build_built _ _ hlisted) hold (hlawful.build_owns device howns.release)

theorem Placed.foldl (hlawful : K.Lawful Listed Built) {others : List Nat} (devices : List δ) {done : List δ} {s : Moving σ}
    (h : Placed K Built others done s) (hlisted : ∀ device ∈ devices, Listed device) :
    Placed K Built others (done ++ devices) (devices.foldl K.place s) := by
  induction devices generalizing done s with
  | nil =>
    rw [List.append_nil]
    exact h
  | cons device rest ih =>
    obtain ⟨hdevice, hrest⟩ := List.forall_mem_cons.mp hlisted
    rw [List.append_cons]
    exact ih (h.place hlawful hdevice) hrest

/-- **Each device finds its own cache at its own position**, and each allocation
keeps exactly one owner, whatever was moved, replaced, built or dropped. -/
theorem synchronise_spec (hlawful : K.Lawful Listed Built) (devices : List δ) {slots : List σ} {arena : Arena}
    {others : List Nat} (hlisted : ∀ device ∈ devices, Listed device)
    (hslots : ∀ slot ∈ slots, Built slot) (howns : Owns arena (slots.flatMap K.pointers ++ others)) :
    (K.synchronise devices slots arena).1.map K.slotKey = devices.map K.key ∧
      (∀ slot ∈ (K.synchronise devices slots arena).1, Built slot) ∧
      Owns (K.synchronise devices slots arena).2
        ((K.synchronise devices slots arena).1.flatMap K.pointers ++ others) := by
  have hstart : Placed K Built others [] ⟨slots, [], arena⟩ :=
    ⟨rfl, fun slot hslot => absurd hslot List.not_mem_nil, fun slot hslot => Or.inr (hslots slot hslot), howns⟩
  have hend := hstart.foldl hlawful devices hlisted
  rw [List.nil_append] at hend
  exact ⟨hend.keys, hend.next_built, hend.owns.release⟩

end CacheKind

end SystemMonitor.Lib
