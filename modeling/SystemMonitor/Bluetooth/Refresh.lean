import SystemMonitor.Bluetooth.Links
import Mathlib.Data.Finset.Card
import Mathlib.Data.Finset.Dedup
import Mathlib.Data.List.TakeWhile

/-! What a refresh does to the counters of a link that stays connected.

A refresh marks all slots of the controller inactive and then finds or makes the
slot of each listed handle, so a handle that comes early in the list may be given
the slot of one that comes later. `refresh_keeps_iff`: a listed link keeps its
counters exactly when the handles that come before it and must be given a slot
are no more than the slots that are taken before its own, whatever else is in the
table; the number of connected links does not matter. -/
namespace SystemMonitor.Bluetooth
open Lib

/-! ### Which slots are taken first -/

/-- Nothing keeps the slot once the controller's slots are marked inactive. -/
def idle (index : Nat) (slot : LsmBluetoothLinkCounter) : Bool :=
  slot.used && !(slot.active && decide (slot.controllerIndex ≠ index))

/-- The slots that a refresh gives away before slot `i`. -/
def spare (index : Nat) (links : List LsmBluetoothLinkCounter) (i : Nat) : Nat :=
  links.countP (!·.used) + (links.take i).countP (idle index)

def handles (connections : List LsmHciConnectionInfo) : Finset Nat := (connections.map (·.handle)).toFinset

/-- The key has a slot behind slot `i`. -/
def Later (links : List LsmBluetoothLinkCounter) (i : Nat) (key : Nat × Nat) : Prop :=
  ∃ slot ∈ links.drop (i + 1), slot.keyed key = true

instance (links : List LsmBluetoothLinkCounter) (i : Nat) (key : Nat × Nat) : Decidable (Later links i key) :=
  inferInstanceAs (Decidable (∃ slot ∈ links.drop (i + 1), slot.keyed key = true))

/-- The handles that take one of the spare slots, or slot `i`. -/
def claimants (index : Nat) (links : List LsmBluetoothLinkCounter) (i : Nat)
    (connections : List LsmHciConnectionInfo) : Finset Nat :=
  (handles connections).filter fun handle => ¬Later links i (index, handle)

/-- The links connected at the refresh: those of other controllers, and the listed ones. -/
def connected (index : Nat) (links : List LsmBluetoothLinkCounter) (connections : List LsmHciConnectionInfo) : Nat :=
  links.countP (fun slot => slot.used && slot.active && decide (slot.controllerIndex ≠ index)) +
    (handles connections).card

/-- The slots that go before slot `i`, in a table that is marked already. -/
def waiting (links : List LsmBluetoothLinkCounter) (i : Nat) : Nat :=
  links.countP (!·.used) + (links.take i).countP fun slot => slot.used && !slot.active

theorem handles_concat (done : List LsmHciConnectionInfo) (info : LsmHciConnectionInfo) :
    handles (done ++ [info]) = insert info.handle (handles done) := by
  ext g
  simp [handles, eq_comm]

theorem countP_set_add (p : LsmBluetoothLinkCounter → Bool) {links : List LsmBluetoothLinkCounter} {j : Nat}
    {old : LsmBluetoothLinkCounter} (h : links[j]? = some old) (new : LsmBluetoothLinkCounter) :
    (links.set j new).countP p + (if p old then 1 else 0) = links.countP p + if p new then 1 else 0 := by
  induction links generalizing j with
  | nil => cases h
  | cons slot rest ih =>
    cases j with
    | zero =>
      cases h
      simp only [List.set_cons_zero, List.countP_cons]
      omega
    | succ j =>
      have := ih (List.getElem?_cons_succ ▸ h)
      simp only [List.set_cons_succ, List.countP_cons]
      omega

/-- What slot `j` adds to the slots that go before slot `i`. -/
def weight (i j : Nat) (slot : LsmBluetoothLinkCounter) : Nat :=
  (if slot.used then 0 else 1) + if j < i ∧ slot.used = true ∧ slot.active = false then 1 else 0

theorem waiting_set {links : List LsmBluetoothLinkCounter} {j : Nat} {old : LsmBluetoothLinkCounter}
    (h : links[j]? = some old) (i : Nat) (new : LsmBluetoothLinkCounter) :
    waiting (links.set j new) i + weight i j old = waiting links i + weight i j new := by
  have hunused := countP_set_add (!·.used) h new
  unfold waiting weight
  by_cases hji : j < i
  · have htake : (links.take i)[j]? = some old := by
      rw [List.getElem?_take, if_pos hji, h]
    have hidle := countP_set_add (fun slot => slot.used && !slot.active) htake new
    rw [List.take_set]
    simp only [Bool.not_eq_true', Bool.and_eq_true, hji, true_and] at hunused hidle ⊢
    split_ifs at hunused hidle ⊢ <;> simp_all <;> omega
  · rw [List.take_set_of_le (Nat.le_of_not_lt hji)]
    simp only [Bool.not_eq_true', hji, false_and, if_false] at hunused ⊢
    split_ifs at hunused ⊢ <;> simp_all <;> omega

theorem later_iff {links : List LsmBluetoothLinkCounter} {i : Nat} {key : Nat × Nat} :
    Later links i key ↔ true ∈ (links.map (·.keyed key)).drop (i + 1) := by
  rw [← List.map_drop, List.mem_map]
  rfl

theorem later_set {links : List LsmBluetoothLinkCounter} {j : Nat} {old new : LsmBluetoothLinkCounter}
    (h : links[j]? = some old) {key : Nat × Nat} (hkeyed : new.keyed key = old.keyed key) (i : Nat) :
    Later (links.set j new) i key ↔ Later links i key := by
  obtain ⟨hj, rfl⟩ := List.getElem?_eq_some_iff.mp h
  have hj' : j < (links.map (·.keyed key)).length := by rwa [List.length_map]
  have hsame : (links.map (·.keyed key))[j] = new.keyed key := by rw [List.getElem_map, hkeyed]
  rw [later_iff, later_iff, List.map_set, ← hsame, List.set_getElem_self]

theorem later_deactivate (links : List LsmBluetoothLinkCounter) (index i : Nat) (key : Nat × Nat) :
    Later (links.map (deactivate index)) i key ↔ Later links i key := by
  have hkeyed : (fun slot => (deactivate index slot).keyed key) = (·.keyed key) := by
    funext slot
    have h := keepsKey_deactivate index
    rw [LsmBluetoothLinkCounter.keyed, h.used, h.key]
    rfl
  rw [later_iff, later_iff, List.map_map, Function.comp_def, hkeyed]

/-- The slot a key has is behind `i`, or there is none behind it. -/
theorem later_of_keyed {links : List LsmBluetoothLinkCounter} (h : Distinct links) {j : Nat}
    {slot : LsmBluetoothLinkCounter} (hj : links[j]? = some slot) {key : Nat × Nat} (hkeyed : slot.keyed key = true)
    (i : Nat) : Later links i key ↔ i < j := by
  obtain ⟨hused, hkey⟩ := keyed_iff.mp hkeyed
  constructor
  · intro hlater
    obtain ⟨other, hmem, hother⟩ := hlater
    obtain ⟨k, hk⟩ := List.getElem?_of_mem hmem
    rw [List.getElem?_drop] at hk
    obtain ⟨hotherUsed, hotherKey⟩ := keyed_iff.mp hother
    have := distinct_iff.mp h _ j other slot hk hj hotherUsed hused (hotherKey.trans hkey.symm)
    omega
  · intro hij
    refine ⟨slot, List.mem_of_getElem? (i := j - (i + 1)) ?_, hkeyed⟩
    rw [List.getElem?_drop, Nat.add_sub_cancel' hij, hj]

theorem spare_eq (index : Nat) (links : List LsmBluetoothLinkCounter) (i : Nat) :
    spare index links i = waiting (links.map (deactivate index)) i := by
  have hunused : ((fun slot : LsmBluetoothLinkCounter => !slot.used) ∘ deactivate index) = (!·.used) := by
    funext slot
    rw [Function.comp, (keepsKey_deactivate index).used]
  have hidle : ((fun slot : LsmBluetoothLinkCounter => slot.used && !slot.active) ∘ deactivate index) = idle index := by
    funext slot
    simp only [Function.comp, idle, deactivate]
    by_cases hindex : slot.used = true ∧ slot.controllerIndex = index
    · simp [hindex]
    · cases hused : slot.used with
      | false => simp [hused]
      | true => simp [hused, show slot.controllerIndex ≠ index from fun h => hindex ⟨hused, h⟩]
  rw [waiting, spare, ← List.map_take, List.countP_map, List.countP_map, hunused, hidle]

/-! ### The capacity of the table -/

/-- Connected, as far as the table knows. -/
def inUse (slot : LsmBluetoothLinkCounter) : Bool := slot.used && slot.active

/-- After `done` has been bound in a table that was marked. -/
structure Bound (index : Nat) (marked : List LsmBluetoothLinkCounter) (done : List LsmHciConnectionInfo)
    (links : List LsmBluetoothLinkCounter) : Prop where
  length : links.length = marked.length
  distinct : Distinct links
  active : ∀ g ∈ handles done, ∃ slot ∈ links, slot.keyed (index, g) = true ∧ slot.active = true
  listed : ∀ slot ∈ links, slot.used = true → slot.active = true → slot.controllerIndex = index →
    slot.handle ∈ handles done
  connected : links.countP inUse ≤ marked.countP inUse + (handles done).card

section Fold
variable {text : TextHelpers} {index : Nat} {marked links : List LsmBluetoothLinkCounter}
  {done : List LsmHciConnectionInfo} {info : LsmHciConnectionInfo}

/-- A listed handle's slot is active. -/
theorem Bound.active_of_keyed (h : Bound index marked done links) {slot : LsmBluetoothLinkCounter} {g : Nat}
    (hslot : slot ∈ links) (hkeyed : slot.keyed (index, g) = true) : slot.active = true ↔ g ∈ handles done := by
  obtain ⟨hused, hkey⟩ := keyed_iff.mp hkeyed
  obtain ⟨hindex, rfl⟩ := Prod.mk.inj hkey
  constructor
  · intro hactive
    exact h.listed slot hslot hused hactive hindex
  · intro hdone
    obtain ⟨other, hother, hotherKeyed, hotherActive⟩ := h.active _ hdone
    obtain ⟨hotherUsed, hotherKey⟩ := keyed_iff.mp hotherKeyed
    obtain ⟨i, hi⟩ := List.getElem?_of_mem hslot
    obtain ⟨j, hj⟩ := List.getElem?_of_mem hother
    have := distinct_iff.mp h.distinct i j slot other hi hj hused hotherUsed (hkey.trans hotherKey.symm)
    subst this
    rw [hi] at hj
    cases hj
    exact hotherActive

theorem Bound.not_listed (h : Bound index marked done links) {g : Nat}
    (hnone : ∀ slot ∈ links, slot.keyed (index, g) = false) : g ∉ handles done := by
  intro hdone
  obtain ⟨slot, hslot, hkeyed, -⟩ := h.active g hdone
  simp [hnone slot hslot] at hkeyed

/-- While the connected links are within the table, a new handle is given a slot. -/
theorem Bound.not_full (h : Bound index marked done links) (hnone : ∀ slot ∈ links, slot.keyed (index, info.handle) = false)
    (hroom : marked.countP inUse + (handles (done ++ [info])).card ≤ marked.length) :
    ¬∀ slot ∈ links, slot.used = true ∧ slot.active = true := by
  intro hfull
  have hall : links.countP inUse = links.length :=
    List.countP_eq_length.mpr fun slot hslot => by simp [inUse, hfull slot hslot]
  have hcard : (handles (done ++ [info])).card = (handles done).card + 1 := by
    rw [handles_concat, Finset.card_insert_of_notMem (h.not_listed hnone)]
  have := h.connected
  have := h.length
  omega

theorem bindLink_active (text : TextHelpers) (remote : Text) (slot : LsmBluetoothLinkCounter) :
    (bindLink text remote slot).active = true := by
  unfold bindLink
  split <;> rfl

/-- A table with the active slot of a handle in place of that handle's slot, or of one
that nothing keeps. -/
theorem Bound.put (h : Bound index marked done links) {j : Nat} {old new : LsmBluetoothLinkCounter}
    (hj : links[j]? = some old) (hnew : new.keyed (index, info.handle) = true) (hactive : new.active = true)
    (hdistinct : Distinct (links.set j new)) (hold : inUse old = true ↔ info.handle ∈ handles done)
    (hkeyed : ∀ g, g ≠ info.handle → inUse old = true → old.keyed (index, g) = false) :
    Bound index marked (done ++ [info]) (links.set j new) := by
  have hlt := (List.getElem?_eq_some_iff.mp hj).1
  obtain ⟨hused, hkey⟩ := keyed_iff.mp hnew
  refine ⟨by rw [List.length_set, h.length], hdistinct, fun g hg => ?_, fun slot hslot hu ha hindex => ?_, ?_⟩
  · by_cases hsame : g = info.handle
    · exact ⟨new, List.mem_set hlt _, hsame ▸ hnew, hactive⟩
    · rw [handles_concat, Finset.mem_insert] at hg
      obtain ⟨slot, hslot, hk, ha⟩ := h.active g (hg.resolve_left hsame)
      obtain ⟨i, hi⟩ := List.getElem?_of_mem hslot
      have hij : j ≠ i := by
        intro hij
        subst hij
        rw [hj] at hi
        cases hi
        have := hkeyed g hsame (by simp [inUse, (keyed_iff.mp hk).1, ha])
        simp [this] at hk
      exact ⟨slot, List.mem_of_getElem? ((List.getElem?_set_ne hij).trans hi), hk, ha⟩
  · rw [handles_concat, Finset.mem_insert]
    rcases List.mem_or_eq_of_mem_set hslot with hslot | rfl
    · exact Or.inr (h.listed slot hslot hu ha hindex)
    · exact Or.inl (Prod.mk.inj hkey).2
  · have hcount := countP_set_add inUse hj new
    have hbound := h.connected
    rw [handles_concat]
    by_cases hused' : inUse old = true
    · rw [Finset.insert_eq_self.mpr (hold.mp hused')]
      rw [if_pos hused', if_pos (by simp [inUse, hused, hactive])] at hcount
      omega
    · rw [if_neg hused'] at hcount
      rw [Finset.card_insert_of_notMem fun hdone => hused' (hold.mpr hdone)]
      split at hcount <;> omega

theorem Free.not_inUse {i : Nat} {old : LsmBluetoothLinkCounter} (h : Free links i old) : inUse old = false := by
  rcases h with hunused | ⟨-, hinactive, -⟩
  · simp [inUse, hunused]
  · simp [inUse, hinactive]

theorem Bound.step (h : Bound index marked done links)
    (hroom : marked.countP inUse + (handles (done ++ [info])).card ≤ marked.length) :
    Bound index marked (done ++ [info]) (bindConnection text index links info) := by
  have hf := keepsKey_bindLink text (addressString info.address)
  have hdistinct := h.distinct.updateLink (index, info.handle) hf
  have hspec := updateLink_spec links (index, info.handle) (bindLink text (addressString info.address))
  unfold bindConnection
  generalize updateLink links (index, info.handle) (bindLink text (addressString info.address)) = updated
    at hspec hdistinct ⊢
  cases hspec with
  | found j slot hj hkeyed =>
    obtain ⟨hused, hkey⟩ := keyed_iff.mp hkeyed
    refine h.put hj (keyed_iff.mpr ⟨(hf.used _).trans hused, (hf.key _).trans hkey⟩) (bindLink_active ..) hdistinct ?_ ?_
    · simpa [inUse, hused] using h.active_of_keyed (List.mem_of_getElem? hj) hkeyed
    · intro g hg _
      simp [LsmBluetoothLinkCounter.keyed, hkey, hg.symm]
  | made j old hnone hj hfree =>
    refine h.put hj (keyed_iff.mpr ⟨hf.used _, hf.key _⟩) (bindLink_active ..) hdistinct ?_ ?_
    · simp [hfree.not_inUse, h.not_listed hnone]
    · intro g _ hused
      simp [hfree.not_inUse] at hused
  | refused hnone hfull => exact absurd hfull (h.not_full hnone hroom)

/-! ### The slot of a listed link -/

theorem claimants_concat (links : List LsmBluetoothLinkCounter) (i : Nat) :
    claimants index links i (done ++ [info]) =
      if Later links i (index, info.handle) then claimants index links i done
      else insert info.handle (claimants index links i done) := by
  rw [claimants, handles_concat, Finset.filter_insert, ite_not]
  rfl

theorem claimants_known {links : List LsmBluetoothLinkCounter} {i : Nat}
    (h : info.handle ∈ handles done ∨ Later links i (index, info.handle)) :
    claimants index links i (done ++ [info]) = claimants index links i done := by
  rw [claimants_concat]
  split
  · rfl
  · rename_i hlater
    exact Finset.insert_eq_self.mpr (Finset.mem_filter.mpr ⟨h.resolve_right hlater, hlater⟩)

theorem card_claimants_new {links : List LsmBluetoothLinkCounter} {i : Nat} (hnot : info.handle ∉ handles done)
    (hlater : ¬Later links i (index, info.handle)) :
    (claimants index links i (done ++ [info])).card = (claimants index links i done).card + 1 := by
  rw [claimants_concat, if_neg hlater, Finset.card_insert_of_notMem]
  exact fun hmem => hnot (Finset.mem_filter.mp hmem).1

/-- Those that come before it in the list. -/
def listedBefore (handle : Nat) (connections : List LsmHciConnectionInfo) : List LsmHciConnectionInfo :=
  connections.takeWhile fun info => decide (info.handle ≠ handle)

theorem mem_handles {g : Nat} : g ∈ handles done ↔ ∃ info ∈ done, info.handle = g := by
  simp [handles]

theorem listedBefore_concat_mem {h : Nat} (hlisted : h ∈ handles done) :
    listedBefore h (done ++ [info]) = listedBefore h done := by
  rw [listedBefore, List.takeWhile_append, if_neg]
  · rfl
  · intro hlength
    obtain ⟨own, hown, hhandle⟩ := mem_handles.mp hlisted
    rw [← (List.takeWhile_prefix _).eq_of_length hlength] at hown
    simpa [hhandle] using List.mem_takeWhile_imp hown

theorem listedBefore_own (hnot : info.handle ∉ handles done) : listedBefore info.handle (done ++ [info]) = done := by
  rw [listedBefore, List.takeWhile_append_of_pos]
  · simp
  · intro other hother
    simp only [decide_eq_true_eq]
    exact fun heq => hnot (mem_handles.mpr ⟨other, hother, heq⟩)

/-- No more handles come before it than there are slots to spare, and no listing
gives it another address. -/
def Safe (text : TextHelpers) (index : Nat) (links : List LsmBluetoothLinkCounter) (i : Nat)
    (x : LsmBluetoothLinkCounter) (connections : List LsmHciConnectionInfo) : Prop :=
  (claimants index links i (listedBefore x.handle connections)).card ≤ spare index links i ∧
    ∀ info ∈ connections, info.handle = x.handle → text.asciiEqualCi x.address (addressString info.address) = true

instance (text : TextHelpers) (index : Nat) (links : List LsmBluetoothLinkCounter) (i : Nat)
    (x : LsmBluetoothLinkCounter) (connections : List LsmHciConnectionInfo) :
    Decidable (Safe text index links i x connections) :=
  inferInstanceAs (Decidable (_ ≤ _ ∧ ∀ info ∈ connections, _))

/-- The counters it had. -/
structure Kept (text : TextHelpers) (x slot : LsmBluetoothLinkCounter) : Prop where
  received : slot.rxBytes = x.rxBytes
  sent : slot.txBytes = x.txBytes
  address : slot.address ≠ []
  equal : text.asciiEqualCi x.address slot.address = true

/-- Where a refresh stands with the link of slot `i`, the table having been `start`. -/
inductive Phase (text : TextHelpers) (index : Nat) (start : List LsmBluetoothLinkCounter) (i : Nat)
    (x : LsmBluetoothLinkCounter) (done : List LsmHciConnectionInfo) (links : List LsmBluetoothLinkCounter) : Prop where
  | intact (hnot : x.handle ∉ handles done) (hi : links[i]? = some x)
    (hspare : waiting links i + (claimants index start i done).card = spare index start i)
    (hlater : ∀ g, g ∉ handles done → (Later links i (index, g) ↔ Later start i (index, g)))
  | evicted (hnot : x.handle ∉ handles done) (hnone : ∀ slot ∈ links, slot.keyed (index, x.handle) = false)
    (hspare : spare index start i < (claimants index start i done).card)
  | bound (hlisted : x.handle ∈ handles done) (j : Nat) (slot : LsmBluetoothLinkCounter) (hj : links[j]? = some slot)
    (hkeyed : slot.keyed (index, x.handle) = true) (hkept : Safe text index start i x done → Kept text x slot)
    (hlost : ¬Safe text index start i x done → slot.rxBytes = 0 ∧ slot.txBytes = 0)

theorem safe_concat_listed {start : List LsmBluetoothLinkCounter} {i : Nat} {x : LsmBluetoothLinkCounter}
    (hlisted : x.handle ∈ handles done) :
    Safe text index start i x (done ++ [info]) ↔ Safe text index start i x done ∧
      (info.handle = x.handle → text.asciiEqualCi x.address (addressString info.address) = true) := by
  rw [Safe, Safe, listedBefore_concat_mem hlisted, List.forall_mem_append, List.forall_mem_singleton, and_assoc]

theorem safe_own {start : List LsmBluetoothLinkCounter} {i : Nat} {x : LsmBluetoothLinkCounter}
    (hown : info.handle = x.handle) (hnot : x.handle ∉ handles done) :
    Safe text index start i x (done ++ [info]) ↔ (claimants index start i done).card ≤ spare index start i ∧
      text.asciiEqualCi x.address (addressString info.address) = true := by
  have hnone : ∀ other ∈ done, other.handle = x.handle →
      text.asciiEqualCi x.address (addressString other.address) = true :=
    fun other hother heq => absurd (mem_handles.mpr ⟨other, hother, heq⟩) hnot
  rw [← hown] at hnot
  rw [Safe, ← hown, listedBefore_own hnot, List.forall_mem_append, List.forall_mem_singleton, hown]
  exact and_congr_right fun _ => ⟨fun h => h.2 rfl, fun h => ⟨hnone, fun _ => h⟩⟩

section Steps
variable {start : List LsmBluetoothLinkCounter} {i : Nat} {x : LsmBluetoothLinkCounter}

theorem keyed_of_ne {slot : LsmBluetoothLinkCounter} {key key' : Nat × Nat} (h : slot.keyed key = true)
    (hne : key ≠ key') : slot.keyed key' = false := by
  have hkey := (keyed_iff.mp h).2
  simp [LsmBluetoothLinkCounter.keyed, hkey, hne]

/-- Another handle leaves the slot of a bound link alone. -/
theorem Phase.bound_other (hne : info.handle ≠ x.handle) (hlisted : x.handle ∈ handles done) {j : Nat}
    {slot : LsmBluetoothLinkCounter} (hj : links[j]? = some slot) (hkeyed : slot.keyed (index, x.handle) = true)
    (hactive : slot.active = true) (hkept : Safe text index start i x done → Kept text x slot)
    (hlost : ¬Safe text index start i x done → slot.rxBytes = 0 ∧ slot.txBytes = 0) :
    Phase text index start i x (done ++ [info]) (bindConnection text index links info) := by
  have hsafe : Safe text index start i x (done ++ [info]) ↔ Safe text index start i x done := by
    rw [safe_concat_listed hlisted]
    exact and_iff_left fun h => absurd h hne
  have hsame : (bindConnection text index links info)[j]? = some slot := by
    have hspec := updateLink_spec links (index, info.handle) (bindLink text (addressString info.address))
    unfold bindConnection
    generalize updateLink links (index, info.handle) (bindLink text (addressString info.address)) = updated
      at hspec ⊢
    cases hspec with
    | found k other hk hother =>
      rw [List.getElem?_set_ne, hj]
      intro hkj
      subst hkj
      rw [hk] at hj
      cases hj
      simp [keyed_of_ne hkeyed fun h => hne (Prod.mk.inj h).2.symm] at hother
    | made k old hnone hk hfree =>
      rw [List.getElem?_set_ne, hj]
      intro hkj
      subst hkj
      rw [hk] at hj
      cases hj
      simpa [inUse, (keyed_iff.mp hkeyed).1, hactive] using hfree.not_inUse
    | refused => exact hj
  refine .bound ?_ j slot hsame hkeyed (fun h => hkept (hsafe.mp h)) fun h => hlost fun hs => h (hsafe.mpr hs)
  rw [handles_concat]
  exact Finset.mem_insert_of_mem hlisted

/-- An evicted link stays away until its own handle comes. -/
theorem Phase.evicted_other (hne : info.handle ≠ x.handle) (hnot : x.handle ∉ handles done)
    (hnone : ∀ slot ∈ links, slot.keyed (index, x.handle) = false)
    (hspare : spare index start i < (claimants index start i done).card) :
    Phase text index start i x (done ++ [info]) (bindConnection text index links info) := by
  have hf := keepsKey_bindLink text (addressString info.address)
  have hkey : (index, info.handle) ≠ (index, x.handle) := fun h => hne (Prod.mk.inj h).2
  refine .evicted ?_ (fun slot hslot => ?_) (hspare.trans_le (Finset.card_le_card ?_))
  · rw [handles_concat, Finset.mem_insert]
    exact not_or.mpr ⟨hne.symm, hnot⟩
  · have hspec := updateLink_spec links (index, info.handle) (bindLink text (addressString info.address))
    unfold bindConnection at hslot
    generalize updateLink links (index, info.handle) (bindLink text (addressString info.address)) = updated
      at hspec hslot
    cases hspec with
    | found k other hk hother =>
      rcases List.mem_or_eq_of_mem_set hslot with hslot | rfl
      · exact hnone slot hslot
      · have hkeyed := keyed_iff.mp hother
        exact keyed_of_ne (keyed_iff.mpr ⟨(hf.used _).trans hkeyed.1, (hf.key _).trans hkeyed.2⟩) hkey
    | made k old _ hk hfree =>
      rcases List.mem_or_eq_of_mem_set hslot with hslot | rfl
      · exact hnone slot hslot
      · exact keyed_of_ne (keyed_iff.mpr ⟨hf.used _, hf.key _⟩) hkey
    | refused => exact hnone slot hslot
  · rw [claimants_concat]
    split
    · exact Finset.Subset.refl _
    · exact Finset.subset_insert _ _

theorem weight_inUse {i j : Nat} {slot : LsmBluetoothLinkCounter} (hused : slot.used = true)
    (hactive : slot.active = true) : weight i j slot = 0 := by
  simp [weight, hused, hactive]

theorem not_mem_handles_concat {g : Nat} : g ∉ handles (done ++ [info]) ↔ g ≠ info.handle ∧ g ∉ handles done := by
  rw [handles_concat, Finset.mem_insert, not_or]

/-- Another handle has a slot, before slot `i` or behind it. -/
theorem Phase.intact_found (hne : info.handle ≠ x.handle) (h : Bound index marked done links)
    (hx : x.keyed (index, x.handle) = true) (hnot : x.handle ∉ handles done) (hi : links[i]? = some x)
    (hspare : waiting links i + (claimants index start i done).card = spare index start i)
    (hlater : ∀ g, g ∉ handles done → (Later links i (index, g) ↔ Later start i (index, g)))
    {k : Nat} {other new : LsmBluetoothLinkCounter} (hk : links[k]? = some other)
    (hother : other.keyed (index, info.handle) = true) (hused : new.used = true) (hkey : new.key = other.key)
    (hactive : new.active = true) : Phase text index start i x (done ++ [info]) (links.set k new) := by
  have hki : k ≠ i := by
    intro hki
    subst hki
    rw [hk] at hi
    cases hi
    simp [keyed_of_ne hx fun heq => hne (Prod.mk.inj heq).2.symm] at hother
  have hotherUsed := (keyed_iff.mp hother).1
  have hlisted := h.active_of_keyed (List.mem_of_getElem? hk) hother
  have hweight := waiting_set hk i new
  rw [weight_inUse hused hactive] at hweight
  refine .intact (not_mem_handles_concat.mpr ⟨hne.symm, hnot⟩) (by rw [List.getElem?_set_ne hki, hi]) ?_ fun g hg => ?_
  · by_cases hdone : info.handle ∈ handles done
    · rw [weight_inUse hotherUsed (hlisted.mpr hdone)] at hweight
      rw [claimants_known (Or.inl hdone)]
      omega
    · have hidle : other.active = false := by simpa [hdone] using hlisted
      have hbehind := (hlater _ hdone).symm.trans (later_of_keyed h.distinct hk hother i)
      rcases Nat.lt_or_gt_of_ne hki with hlt | hgt
      · rw [card_claimants_new hdone fun hl => absurd (hbehind.mp hl) (by omega)]
        simp [weight, hotherUsed, hidle, hlt] at hweight
        omega
      · rw [claimants_known (Or.inr (hbehind.mpr hgt))]
        simp [weight, hotherUsed, Nat.not_lt.mpr hgt.le] at hweight
        omega
  · rw [later_set hk (by rw [LsmBluetoothLinkCounter.keyed, hused, hkey, ← hotherUsed]; rfl)]
    exact hlater g (not_mem_handles_concat.mp hg).2

/-- Another handle is given a spare slot. -/
theorem Phase.intact_made (hne : info.handle ≠ x.handle) (hinactive : x.active = false)
    (hnot : x.handle ∉ handles done) (hi : links[i]? = some x)
    (hspare : waiting links i + (claimants index start i done).card = spare index start i)
    (hlater : ∀ g, g ∉ handles done → (Later links i (index, g) ↔ Later start i (index, g)))
    (hcard : (claimants index start i (done ++ [info])).card = (claimants index start i done).card + 1)
    {k : Nat} {old new : LsmBluetoothLinkCounter} (hk : links[k]? = some old) (hki : k ≠ i) (hfree : Free links k old)
    (hkeyed : new.keyed (index, info.handle) = true) (hactive : new.active = true) :
    Phase text index start i x (done ++ [info]) (links.set k new) := by
  have hweight := waiting_set hk i new
  rw [weight_inUse (keyed_iff.mp hkeyed).1 hactive] at hweight
  have hbefore : old.used = true → k < i := by
    intro hused
    rcases hfree with hunused | ⟨-, -, hbefore⟩
    · simp [hused] at hunused
    · by_contra hge
      simp [hbefore i (by omega) x hi] at hinactive
  have hone : weight i k old = 1 := by
    cases hused : old.used with
    | false => simp [weight, hused]
    | true =>
      rcases hfree with hunused | ⟨-, hidle, -⟩
      · simp [hused] at hunused
      · simp [weight, hused, hidle, hbefore hused]
  refine .intact (not_mem_handles_concat.mpr ⟨hne.symm, hnot⟩) (by rw [List.getElem?_set_ne hki, hi]) ?_ fun g hg => ?_
  · omega
  · obtain ⟨hg, hgdone⟩ := not_mem_handles_concat.mp hg
    rw [← hlater g hgdone]
    rcases Nat.lt_or_gt_of_ne hki with hlt | hgt
    · rw [Later, List.drop_set_of_lt (by omega)]
      rfl
    · have hunused : old.used = false := Bool.eq_false_iff.mpr fun hused => absurd (hbefore hused) (by omega)
      refine later_set hk ?_ i
      rw [keyed_of_ne hkeyed fun heq => hg (Prod.mk.inj heq).2.symm]
      simp [LsmBluetoothLinkCounter.keyed, hunused]

/-- Another handle is given slot `i`: there was none to spare. -/
theorem Phase.evict (hne : info.handle ≠ x.handle) (hdistinct : Distinct links)
    (hx : x.keyed (index, x.handle) = true) (hnot : x.handle ∉ handles done) (hi : links[i]? = some x)
    (hspare : waiting links i + (claimants index start i done).card = spare index start i)
    (hcard : (claimants index start i (done ++ [info])).card = (claimants index start i done).card + 1)
    (hfree : Free links i x) {new : LsmBluetoothLinkCounter} (hkeyed : new.keyed (index, info.handle) = true) :
    Phase text index start i x (done ++ [info]) (links.set i new) := by
  obtain ⟨hused, hkey⟩ := keyed_iff.mp hx
  have hzero : waiting links i = 0 := by
    rcases hfree with hunused | ⟨hall, -, hbefore⟩
    · simp [hused] at hunused
    · have hunused : links.countP (!·.used) = 0 := by
        rw [List.countP_eq_zero]
        intro slot hslot
        simp [hall slot hslot]
      have hidle : (links.take i).countP (fun slot => slot.used && !slot.active) = 0 := by
        rw [List.countP_eq_zero]
        intro slot hslot
        obtain ⟨j, hj⟩ := List.getElem?_of_mem hslot
        rw [List.getElem?_take] at hj
        split at hj
        · rename_i hji
          simp [hbefore j hji slot hj]
        · cases hj
      rw [waiting, hunused, hidle]
  refine .evicted (not_mem_handles_concat.mpr ⟨hne.symm, hnot⟩) (fun slot hslot => ?_) (by omega)
  obtain ⟨j, hj⟩ := List.getElem?_of_mem hslot
  by_cases hji : i = j
  · subst hji
    rw [List.getElem?_set_self (List.getElem?_eq_some_iff.mp hi).1] at hj
    cases hj
    exact keyed_of_ne hkeyed fun heq => hne (Prod.mk.inj heq).2
  · rw [List.getElem?_set_ne hji] at hj
    by_contra hk
    obtain ⟨hslotUsed, hslotKey⟩ := keyed_iff.mp (Bool.not_eq_false _ ▸ hk)
    exact hji (distinct_iff.mp hdistinct i j x slot hi hj hused hslotUsed (hkey.trans hslotKey.symm))

theorem Phase.intact_other (hne : info.handle ≠ x.handle) (h : Bound index marked done links)
    (hx : x.keyed (index, x.handle) = true) (hinactive : x.active = false)
    (hnot : x.handle ∉ handles done) (hi : links[i]? = some x)
    (hspare : waiting links i + (claimants index start i done).card = spare index start i)
    (hlater : ∀ g, g ∉ handles done → (Later links i (index, g) ↔ Later start i (index, g)))
    (hroom : marked.countP inUse + (handles (done ++ [info])).card ≤ marked.length) :
    Phase text index start i x (done ++ [info]) (bindConnection text index links info) := by
  have hf := keepsKey_bindLink text (addressString info.address)
  have hspec := updateLink_spec links (index, info.handle) (bindLink text (addressString info.address))
  unfold bindConnection
  generalize updateLink links (index, info.handle) (bindLink text (addressString info.address)) = updated at hspec ⊢
  cases hspec with
  | found k other hk hother =>
    exact Phase.intact_found hne h hx hnot hi hspare hlater hk hother ((hf.used _).trans (keyed_iff.mp hother).1)
      (hf.key _) (bindLink_active ..)
  | made k old hnone hk hfree =>
    have hdone := h.not_listed hnone
    have hclaims : ¬Later start i (index, info.handle) := by
      rw [← hlater _ hdone]
      intro hl
      obtain ⟨slot, hslot, hkeyed⟩ := hl
      simp [hnone slot (List.mem_of_mem_drop hslot)] at hkeyed
    have hcard := card_claimants_new hdone hclaims
    have hkeyed : (bindLink text (addressString info.address) (freshLink (index, info.handle))).keyed
        (index, info.handle) = true := keyed_iff.mpr ⟨hf.used _, hf.key _⟩
    by_cases hki : k = i
    · subst hki
      rw [hk] at hi
      cases hi
      exact Phase.evict hne h.distinct hx hnot hk hspare hcard hfree hkeyed
    · exact Phase.intact_made hne hinactive hnot hi hspare hlater hcard hk hki hfree hkeyed (bindLink_active ..)
  | refused hnone hfull => exact absurd hfull (h.not_full hnone hroom)

/-! ### Its own entry -/

theorem updateLink_found (hdistinct : Distinct links) {k : Nat} {slot : LsmBluetoothLinkCounter}
    (hk : links[k]? = some slot) {key : Nat × Nat} (hkeyed : slot.keyed key = true)
    (f : LsmBluetoothLinkCounter → LsmBluetoothLinkCounter) : updateLink links key f = links.set k (f slot) := by
  have hspec := updateLink_spec links key f
  generalize updateLink links key f = updated at hspec ⊢
  obtain ⟨hused, hkey⟩ := keyed_iff.mp hkeyed
  cases hspec with
  | found j other hj hother =>
    obtain ⟨hotherUsed, hotherKey⟩ := keyed_iff.mp hother
    have := distinct_iff.mp hdistinct j k other slot hj hk hotherUsed hused (hotherKey.trans hkey.symm)
    subst this
    rw [hj] at hk
    cases hk
    rfl
  | made j old hnone _ _ => simp [hnone slot (List.mem_of_getElem? hk)] at hkeyed
  | refused hnone _ => simp [hnone slot (List.mem_of_getElem? hk)] at hkeyed

theorem updateLink_made {key : Nat × Nat} (hnone : ∀ slot ∈ links, slot.keyed key = false)
    (hroom : ¬∀ slot ∈ links, slot.used = true ∧ slot.active = true)
    (f : LsmBluetoothLinkCounter → LsmBluetoothLinkCounter) :
    ∃ k, k < links.length ∧ updateLink links key f = links.set k (f (freshLink key)) := by
  have hspec := updateLink_spec links key f
  generalize updateLink links key f = updated at hspec ⊢
  cases hspec with
  | found j other hj hother => simp [hnone other (List.mem_of_getElem? hj)] at hother
  | made j old _ hj _ => exact ⟨j, (List.getElem?_eq_some_iff.mp hj).1, rfl⟩
  | refused _ hfull => exact absurd hfull hroom

theorem Kept.refl (haddress : x.address ≠ []) : Kept text x x := ⟨rfl, rfl, haddress, text.equalCi_refl _⟩

/-- The same address again. -/
theorem Kept.bind {slot : LsmBluetoothLinkCounter} (h : Kept text x slot) {remote : Text} (hremote : remote ≠ [])
    (hsame : text.asciiEqualCi x.address remote = true) : Kept text x (bindLink text remote slot) := by
  have hequal : text.asciiEqualCi slot.address remote = true := by
    rw [text.equalCi_iff] at hsame ⊢
    exact ((text.equalCi_iff _ _).mp h.equal).symm.trans hsame
  rw [bindLink, if_neg fun hreset => by simp [hequal] at hreset]
  exact ⟨h.received, h.sent, hremote, hsame⟩

/-- Another address. -/
theorem Kept.rebind {slot : LsmBluetoothLinkCounter} (h : Kept text x slot) {remote : Text}
    (hother : text.asciiEqualCi x.address remote ≠ true) :
    (bindLink text remote slot).rxBytes = 0 ∧ (bindLink text remote slot).txBytes = 0 := by
  have hequal : text.asciiEqualCi slot.address remote = false := by
    rw [Bool.eq_false_iff]
    intro hequal
    apply hother
    rw [text.equalCi_iff] at hequal ⊢
    exact ((text.equalCi_iff _ _).mp h.equal).trans hequal
  rw [bindLink, if_pos ⟨h.address, hequal⟩]
  exact ⟨rfl, rfl⟩

theorem bindLink_zero {slot : LsmBluetoothLinkCounter} (h : slot.rxBytes = 0 ∧ slot.txBytes = 0) (remote : Text) :
    (bindLink text remote slot).rxBytes = 0 ∧ (bindLink text remote slot).txBytes = 0 := by
  unfold bindLink
  split
  · exact ⟨rfl, rfl⟩
  · exact h

theorem Phase.own (hown : info.handle = x.handle) (h : Bound index marked done links)
    (hx : x.keyed (index, x.handle) = true) (haddress : x.address ≠ [])
    (hroom : marked.countP inUse + (handles (done ++ [info])).card ≤ marked.length)
    (hphase : Phase text index start i x done links) :
    Phase text index start i x (done ++ [info]) (bindConnection text index links info) := by
  have hf := keepsKey_bindLink text (addressString info.address)
  have hremote := addressString_ne_nil info.address
  have hlisted' : x.handle ∈ handles (done ++ [info]) := by
    rw [handles_concat, hown]
    exact Finset.mem_insert_self _ _
  rw [bindConnection, hown]
  cases hphase with
  | intact hnot hi hspare hlater =>
    have hsafe : Safe text index start i x (done ++ [info]) ↔
        text.asciiEqualCi x.address (addressString info.address) = true := by
      rw [safe_own hown hnot]
      exact and_iff_right (by omega)
    rw [updateLink_found h.distinct hi hx]
    refine .bound hlisted' i _ (List.getElem?_set_self (List.getElem?_eq_some_iff.mp hi).1)
      (keyed_iff.mpr ⟨(hf.used _).trans (keyed_iff.mp hx).1, (hf.key _).trans (keyed_iff.mp hx).2⟩)
      (fun hs => (Kept.refl haddress).bind hremote (hsafe.mp hs)) fun hs => (Kept.refl haddress).rebind ?_
    exact fun hsame => hs (hsafe.mpr hsame)
  | evicted hnot hnone hspare =>
    obtain ⟨k, hk, hmade⟩ := updateLink_made hnone (h.not_full (hown ▸ hnone) hroom)
      (bindLink text (addressString info.address))
    rw [hmade]
    refine .bound hlisted' k _ (List.getElem?_set_self hk) (keyed_iff.mpr ⟨hf.used _, hf.key _⟩) (fun hs => ?_)
      fun _ => bindLink_zero ⟨rfl, rfl⟩ _
    exact absurd ((safe_own hown hnot).mp hs).1 (Nat.not_le.mpr hspare)
  | bound hlisted j slot hj hkeyed hkept hlost =>
    have hsafe : Safe text index start i x (done ++ [info]) ↔ Safe text index start i x done ∧
        text.asciiEqualCi x.address (addressString info.address) = true := by
      rw [safe_concat_listed hlisted]
      exact and_congr_right fun _ => ⟨fun himp => himp hown, fun hsame _ => hsame⟩
    rw [updateLink_found h.distinct hj hkeyed]
    refine .bound hlisted' j _ (List.getElem?_set_self (List.getElem?_eq_some_iff.mp hj).1)
      (keyed_iff.mpr ⟨(hf.used _).trans (keyed_iff.mp hkeyed).1, (hf.key _).trans (keyed_iff.mp hkeyed).2⟩)
      (fun hs => (hkept (hsafe.mp hs).1).bind hremote (hsafe.mp hs).2) fun hs => ?_
    by_cases hbefore : Safe text index start i x done
    · exact (hkept hbefore).rebind fun hsame => hs (hsafe.mpr ⟨hbefore, hsame⟩)
    · exact bindLink_zero (hlost hbefore) _

theorem Phase.step (h : Bound index marked done links) (hx : x.keyed (index, x.handle) = true)
    (hinactive : x.active = false) (haddress : x.address ≠ [])
    (hroom : marked.countP inUse + (handles (done ++ [info])).card ≤ marked.length)
    (hphase : Phase text index start i x done links) :
    Phase text index start i x (done ++ [info]) (bindConnection text index links info) := by
  by_cases hown : info.handle = x.handle
  · exact Phase.own hown h hx haddress hroom hphase
  · cases hphase with
    | intact hnot hi hspare hlater => exact Phase.intact_other hown h hx hinactive hnot hi hspare hlater hroom
    | evicted hnot hnone hspare => exact Phase.evicted_other hown hnot hnone hspare
    | bound hlisted j slot hj hkeyed hkept hlost =>
      exact Phase.bound_other hown hlisted hj hkeyed
        ((h.active_of_keyed (List.mem_of_getElem? hj) hkeyed).mpr hlisted) hkept hlost

/-- **The whole list.** -/
theorem Phase.run (hx : x.keyed (index, x.handle) = true) (hinactive : x.active = false) (haddress : x.address ≠ [])
    {rest : List LsmHciConnectionInfo}
    (hroom : marked.countP inUse + (handles (done ++ rest)).card ≤ marked.length)
    (h : Bound index marked done links) (hphase : Phase text index start i x done links) :
    Bound index marked (done ++ rest) (rest.foldl (bindConnection text index) links) ∧
      Phase text index start i x (done ++ rest) (rest.foldl (bindConnection text index) links) := by
  induction rest generalizing done links with
  | nil =>
    rw [List.append_nil]
    exact ⟨h, hphase⟩
  | cons info rest ih =>
    rw [List.append_cons] at hroom ⊢
    have hsub : handles (done ++ [info]) ⊆ handles (done ++ [info] ++ rest) := by
      intro g hg
      obtain ⟨entry, hentry, heq⟩ := mem_handles.mp hg
      exact mem_handles.mpr ⟨entry, List.mem_append_left _ hentry, heq⟩
    have hroom' : marked.countP inUse + (handles (done ++ [info])).card ≤ marked.length :=
      (Nat.add_le_add_left (Finset.card_le_card hsub) _).trans hroom
    exact ih hroom (h.step hroom') (hphase.step h hx hinactive haddress hroom')

end Steps

end Fold

/-! ### Refreshes -/

section Refreshes
variable {lib : Arithmetic} {text : TextHelpers}

theorem deactivate_own {index : Nat} {x : LsmBluetoothLinkCounter} (hx : x.keyed (index, x.handle) = true) :
    deactivate index x = {x with active := false} := by
  obtain ⟨hused, hkey⟩ := keyed_iff.mp hx
  exact if_pos ⟨hused, (Prod.mk.inj hkey).1⟩

theorem inUse_deactivate (index : Nat) (links : List LsmBluetoothLinkCounter) :
    (links.map (deactivate index)).countP inUse =
      links.countP fun slot => slot.used && slot.active && decide (slot.controllerIndex ≠ index) := by
  rw [List.countP_map]
  congr 1
  funext slot
  simp only [Function.comp, deactivate]
  by_cases hindex : slot.used = true ∧ slot.controllerIndex = index
  · simp [hindex, inUse]
  · cases hused : slot.used with
    | false => simp [hused, inUse]
    | true => simp [hused, inUse, show slot.controllerIndex ≠ index from fun h => hindex ⟨hused, h⟩]

/-- The table a refresh starts from, with nothing bound yet. -/
theorem bound_marked {links : List LsmBluetoothLinkCounter} (h : Distinct links) (index : Nat) :
    Bound index (links.map (deactivate index)) [] (links.map (deactivate index)) := by
  refine ⟨rfl, h.map (keepsKey_deactivate index), fun g hg => absurd hg (Finset.notMem_empty g), ?_, Nat.le_refl _⟩
  intro slot hslot hused hactive hindex
  obtain ⟨old, -, rfl⟩ := List.mem_map.mp hslot
  unfold deactivate at hused hactive hindex
  split at hactive
  · cases hactive
  · rename_i hother
    rw [if_neg hother] at hused hindex
    exact absurd ⟨hused, hindex⟩ hother

/-- The link of a slot still has a slot with its byte counts. -/
def Preserved (x : LsmBluetoothLinkCounter) (links : List LsmBluetoothLinkCounter) : Prop :=
  ∃ slot ∈ links, slot.keyed x.key = true ∧ slot.rxBytes = x.rxBytes ∧ slot.txBytes = x.txBytes

instance (x : LsmBluetoothLinkCounter) (links : List LsmBluetoothLinkCounter) : Decidable (Preserved x links) :=
  inferInstanceAs (Decidable (∃ slot ∈ links, _))

/-- **When a refresh keeps the counters of a live link.** In every reachable state,
for every list the kernel returns: a listed link with a slot of the same address
keeps its byte counts exactly when they are zero, or there are slots to spare for
the handles that come before it and no listing of its handle has another address. -/
theorem refresh_keeps_iff {actions : List Action} {s : LsmBluetoothCaptureState}
    (hrun : (machine lib text).run started actions = some s) {controller : Text} {index : Nat}
    (hindex : controllerIndex text controller = some index) (list : LsmHciConnectionList) {i : Nat}
    {x : LsmBluetoothLinkCounter} (hi : s.links[i]? = some x) (hx : x.keyed (index, x.handle) = true)
    (hlisted : ∃ info ∈ list.connections, info.handle = x.handle ∧
      text.asciiEqualCi x.address (addressString info.address) = true)
    (hconnected : connected index s.links list.connections ≤ lsmHciLinkSlots) :
    Preserved x (lsmBluetoothTrafficRefreshConnections text s controller (some list)).links ↔
      x.rxBytes = 0 ∧ x.txBytes = 0 ∨ Safe text index s.links i x list.connections := by
  have hdistinct := distinct_run hrun
  have hlength := length_run hrun
  have hown := deactivate_own hx
  obtain ⟨info, hinfo, hhandle, hequal⟩ := hlisted
  have haddress : x.address ≠ [] := by
    intro hempty
    have := (text.equalCi_iff _ _).mp hequal
    rw [hempty] at this
    exact addressString_ne_nil info.address (List.map_eq_nil_iff.mp this.symm)
  have hmarked : (s.links.map (deactivate index))[i]? = some {x with active := false} := by
    rw [List.getElem?_map, hi, Option.map_some, hown]
  have hroom : (s.links.map (deactivate index)).countP inUse + (handles ([] ++ list.connections)).card ≤
      (s.links.map (deactivate index)).length := by
    rw [inUse_deactivate, List.length_map, hlength, List.nil_append]
    exact hconnected
  have hstart : Phase text index s.links i {x with active := false} [] (s.links.map (deactivate index)) := by
    refine .intact (fun h => nomatch h) hmarked ?_ fun g _ => later_deactivate ..
    rw [spare_eq]
    rfl
  obtain ⟨hbound, hphase⟩ := Phase.run (x := {x with active := false}) hx rfl haddress hroom
    (bound_marked hdistinct index) hstart
  rw [List.nil_append] at hbound hphase
  have hlinks : (lsmBluetoothTrafficRefreshConnections text s controller (some list)).links =
      list.connections.foldl (bindConnection text index) (s.links.map (deactivate index)) := by
    simp only [lsmBluetoothTrafficRefreshConnections, hindex, refreshLinks]
  have hin : x.handle ∈ handles list.connections := mem_handles.mpr ⟨info, hinfo, hhandle⟩
  rw [hlinks]
  cases hphase with
  | intact hnot => exact absurd hin hnot
  | evicted hnot => exact absurd hin hnot
  | bound _ j slot hj hkeyed hkept hlost =>
    have hkey : x.key = (index, x.handle) := (keyed_iff.mp hx).2
    constructor
    · intro hpreserved
      obtain ⟨other, hother, hotherKeyed, hrx, htx⟩ := hpreserved
      by_cases hsafe : Safe text index s.links i x list.connections
      · exact Or.inr hsafe
      · obtain ⟨k, hk⟩ := List.getElem?_of_mem hother
        obtain ⟨hused, hslotKey⟩ := keyed_iff.mp hkeyed
        obtain ⟨hotherUsed, hotherKey⟩ := keyed_iff.mp hotherKeyed
        have := distinct_iff.mp hbound.distinct j k slot other hj hk hused hotherUsed
          (hslotKey.trans (hotherKey.trans hkey).symm)
        subst this
        rw [hj] at hk
        cases hk
        have hzero := hlost hsafe
        exact Or.inl ⟨hrx.symm.trans hzero.1, htx.symm.trans hzero.2⟩
    · intro hcase
      refine ⟨slot, List.mem_of_getElem? hj, by rw [hkey]; exact hkeyed, ?_⟩
      by_cases hsafe : Safe text index s.links i x list.connections
      · exact ⟨(hkept hsafe).received, (hkept hsafe).sent⟩
      · have hzero := hlost hsafe
        obtain ⟨hrx, htx⟩ := hcase.resolve_right hsafe
        exact ⟨hzero.1.trans hrx.symm, hzero.2.trans htx.symm⟩

end Refreshes

/-- Five bytes received on a handle. -/
def receivedOn (controller handle : UInt8) : Action :=
  .receive [5, 0, controller, 0, 9, 0, handle, 32, 5, 0, 1, 2, 3, 4, 5]

def inOrder : LsmHciConnectionList := ⟨[⟨1, fun _ => 17⟩, ⟨2, fun _ => 34⟩], by decide⟩
def reversed : LsmHciConnectionList := ⟨inOrder.connections.reverse, by decide⟩

/-- One link of the first controller, then handles of another until the table is full. -/
def crowded : List Action :=
  [.refreshConnections (ascii "hci0") (some ⟨[⟨1, fun _ => 17⟩], by decide⟩), receivedOn 0 1] ++
    (List.range 127).map fun handle => receivedOn 1 handle.toUInt8

/-- The slot of that link. -/
def countedLink : LsmBluetoothLinkCounter where
  handle := 1
  address := addressString fun _ => 17
  rxBytes := 5
  active := true
  used := true

/-- The table they leave. -/
def crowdedState : LsmBluetoothCaptureState :=
  ⟨true, countedLink :: (List.range 127).map fun handle =>
    {controllerIndex := 1, handle, rxBytes := 5, used := true}⟩

theorem run_crowded : (machine .documented .documented).run started crowded = some crowdedState := by
  decide +kernel

/-- Listed first, the link keeps its bytes. -/
theorem refresh_keeps_iff_inOrder :
    Preserved countedLink
      (lsmBluetoothTrafficRefreshConnections .documented crowdedState (ascii "hci0") (some inOrder)).links := by
  have hsafe : Safe .documented 0 crowdedState.links 0 countedLink inOrder.connections := by decide
  exact (refresh_keeps_iff run_crowded (show controllerIndex .documented (ascii "hci0") = some 0 by decide)
    inOrder (i := 0) rfl rfl ⟨_, List.mem_cons_self, rfl, by decide⟩ (by decide)).mpr (Or.inr hsafe)

/-- Listed second, it loses them to the link before it, though two links are connected. -/
theorem refresh_reversed_loses :
    (machine .documented .documented).run started crowded = some crowdedState ∧
      crowdedState.links[0]? = some countedLink ∧
      (∃ info ∈ reversed.connections, info.handle = countedLink.handle ∧
        TextHelpers.documented.asciiEqualCi countedLink.address (addressString info.address) = true) ∧
      connected 0 crowdedState.links reversed.connections ≤ lsmHciLinkSlots ∧
      ¬Preserved countedLink
        (lsmBluetoothTrafficRefreshConnections .documented crowdedState (ascii "hci0") (some reversed)).links := by
  refine ⟨run_crowded, rfl, ?_, ?_, ?_⟩ <;> decide +kernel

end SystemMonitor.Bluetooth
