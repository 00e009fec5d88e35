import SystemMonitor.Bluetooth.Traffic
import Mathlib.Data.List.Nodup

/-! The link table: finding a slot, making one, and one slot for each handle.

`updateLink_spec` says once what either caller does to the table. Whatever is
captured and listed, in any order, no two used slots share a controller and a
handle (`distinct_run`). -/
namespace SystemMonitor.Bluetooth
open Lib

/-- Reuses a slot that no connection is bound to, or the first that is inactive. -/
def Free (links : List LsmBluetoothLinkCounter) (i : Nat) (old : LsmBluetoothLinkCounter) : Prop :=
  old.used = false ∨
    (∀ s ∈ links, s.used = true) ∧ old.active = false ∧ ∀ j < i, ∀ s, links[j]? = some s → s.active = true

/-- What `updateLink` can leave. -/
inductive Updated (links : List LsmBluetoothLinkCounter) (key : Nat × Nat)
    (f : LsmBluetoothLinkCounter → LsmBluetoothLinkCounter) : List LsmBluetoothLinkCounter → Prop where
  | found (i : Nat) (slot : LsmBluetoothLinkCounter) (hi : links[i]? = some slot) (hkeyed : slot.keyed key = true) :
    Updated links key f (links.set i (f slot))
  | made (i : Nat) (old : LsmBluetoothLinkCounter) (hnone : ∀ s ∈ links, s.keyed key = false)
    (hi : links[i]? = some old) (hfree : Free links i old) : Updated links key f (links.set i (f (freshLink key)))
  | refused (hnone : ∀ s ∈ links, s.keyed key = false) (hfull : ∀ s ∈ links, s.used = true ∧ s.active = true) :
    Updated links key f links

theorem modify_eq_set {links : List LsmBluetoothLinkCounter} {i : Nat} {slot : LsmBluetoothLinkCounter}
    (f : LsmBluetoothLinkCounter → LsmBluetoothLinkCounter) (h : links[i]? = some slot) :
    links.modify i f = links.set i (f slot) := by
  rw [List.modify_eq_set_getElem?, h]
  rfl

theorem updateLink_spec (links : List LsmBluetoothLinkCounter) (key : Nat × Nat)
    (f : LsmBluetoothLinkCounter → LsmBluetoothLinkCounter) : Updated links key f (updateLink links key f) := by
  unfold updateLink linkForHandleLocked
  cases hkeyed : links.findIdx? (·.keyed key) with
  | some i =>
    obtain ⟨hi, hslot, -⟩ := List.findIdx?_eq_some_iff_getElem.mp hkeyed
    have hget : links[i]? = some links[i] := List.getElem?_eq_getElem hi
    dsimp only
    rw [modify_eq_set f hget]
    exact .found i _ hget hslot
  | none =>
    have hnone : ∀ s ∈ links, s.keyed key = false := List.findIdx?_eq_none_iff.mp hkeyed
    have hmade : ∀ {i : Nat} (hi : i < links.length), Free links i links[i] →
        Updated links key f ((links.set i (freshLink key)).modify i f) := by
      intro i hi hfree
      rw [modify_eq_set f (List.getElem?_set_self hi), List.set_set]
      exact .made i links[i] hnone (List.getElem?_eq_getElem hi) hfree
    cases hunused : links.findIdx? (!·.used) with
    | some i =>
      obtain ⟨hi, hslot, -⟩ := List.findIdx?_eq_some_iff_getElem.mp hunused
      exact hmade hi (Or.inl (by simpa using hslot))
    | none =>
      have hused : ∀ s ∈ links, s.used = true := by simpa using List.findIdx?_eq_none_iff.mp hunused
      cases hinactive : links.findIdx? (!·.active) with
      | some i =>
        obtain ⟨hi, hslot, hbefore⟩ := List.findIdx?_eq_some_iff_getElem.mp hinactive
        refine hmade hi (Or.inr ⟨hused, by simpa using hslot, ?_⟩)
        intro j hj s hs
        obtain ⟨hlt, rfl⟩ := List.getElem?_eq_some_iff.mp hs
        simpa using hbefore j hj
      | none =>
        have hactive : ∀ s ∈ links, s.active = true := by simpa using List.findIdx?_eq_none_iff.mp hinactive
        exact .refused hnone fun s hs => ⟨hused s hs, hactive s hs⟩

theorem addressString_ne_nil (address : LsmBluetoothAddress) : addressString address ≠ [] := by
  have hlength : (addressString address).length = 17 := by simp [addressString, hexByte]
  exact List.ne_nil_of_length_pos (by omega)

/-! ### One slot for each handle -/

/-- No two used slots share controller and handle. -/
def Distinct (links : List LsmBluetoothLinkCounter) : Prop :=
  links.Pairwise fun s t => s.used = true → t.used = true → s.key ≠ t.key

theorem distinct_iff {links : List LsmBluetoothLinkCounter} :
    Distinct links ↔ ∀ (i j : Nat) (s t : LsmBluetoothLinkCounter), links[i]? = some s → links[j]? = some t → s.used = true → t.used = true →
      s.key = t.key → i = j := by
  unfold Distinct
  rw [List.pairwise_iff_getElem]
  constructor
  · intro h i j s t hi hj hs ht hkey
    obtain ⟨hilt, rfl⟩ := List.getElem?_eq_some_iff.mp hi
    obtain ⟨hjlt, rfl⟩ := List.getElem?_eq_some_iff.mp hj
    rcases Nat.lt_trichotomy i j with hij | hij | hij
    · exact absurd hkey (h i j hilt hjlt hij hs ht)
    · exact hij
    · exact absurd hkey.symm (h j i hjlt hilt hij ht hs)
  · intro h i j hi hj hij hs ht hkey
    have := h i j _ _ (List.getElem?_eq_getElem hi) (List.getElem?_eq_getElem hj) hs ht hkey
    omega

/-- Putting a slot where no other has its key. -/
theorem Distinct.set {links : List LsmBluetoothLinkCounter} (h : Distinct links) {i : Nat}
    {x : LsmBluetoothLinkCounter}
    (hx : ∀ j t, links[j]? = some t → j ≠ i → t.used = true → t.key ≠ x.key) : Distinct (links.set i x) := by
  rw [distinct_iff] at h ⊢
  intro j k s t hj hk hs ht hkey
  rw [List.getElem?_set] at hj hk
  by_cases hij : i = j <;> by_cases hik : i = k
  · exact hij.symm.trans hik
  · rw [if_neg hik] at hk
    subst hij
    obtain ⟨-, rfl⟩ : i < links.length ∧ x = s := by simpa using hj
    exact absurd hkey.symm (hx k t hk (Ne.symm hik) ht)
  · rw [if_neg hij] at hj
    subst hik
    obtain ⟨-, rfl⟩ : i < links.length ∧ x = t := by simpa using hk
    exact absurd hkey (hx j s hj (Ne.symm hij) hs)
  · rw [if_neg hij] at hj
    rw [if_neg hik] at hk
    exact h j k s t hj hk hs ht hkey

theorem keyed_iff {slot : LsmBluetoothLinkCounter} {key : Nat × Nat} :
    slot.keyed key = true ↔ slot.used = true ∧ slot.key = key := by
  simp [LsmBluetoothLinkCounter.keyed]

/-- What both callers leave of a slot. -/
structure KeepsKey (f : LsmBluetoothLinkCounter → LsmBluetoothLinkCounter) : Prop where
  used : ∀ s, (f s).used = s.used
  key : ∀ s, (f s).key = s.key

theorem keepsKey_addPayload (lib : Arithmetic) (packet : LsmBluetoothMonitorPacket) :
    KeepsKey (addPayload lib packet) := by
  constructor <;> intro s <;> unfold addPayload <;> split <;> rfl

theorem keepsKey_bindLink (text : TextHelpers) (remote : Text) : KeepsKey (bindLink text remote) := by
  constructor <;> intro s <;> unfold bindLink <;> split <;> rfl

theorem keepsKey_deactivate (index : Nat) : KeepsKey (deactivate index) := by
  constructor <;> intro s <;> unfold deactivate <;> split <;> rfl

theorem Distinct.updateLink {links : List LsmBluetoothLinkCounter} (h : Distinct links) (key : Nat × Nat)
    {f : LsmBluetoothLinkCounter → LsmBluetoothLinkCounter} (hf : KeepsKey f) :
    Distinct (updateLink links key f) := by
  have hspec := updateLink_spec links key f
  generalize Bluetooth.updateLink links key f = updated at hspec ⊢
  cases hspec with
  | found i slot hi hkeyed =>
    obtain ⟨hused, hkey⟩ := keyed_iff.mp hkeyed
    refine h.set fun j t hj hji ht heq => hji ?_
    exact distinct_iff.mp h j i t slot hj hi ht hused (heq.trans (hf.key slot))
  | made i old hnone hi hfree =>
    refine h.set fun j t hj _ ht heq => ?_
    have hkeyed := keyed_iff.mpr ⟨ht, heq.trans (hf.key _)⟩
    simp [freshLink, LsmBluetoothLinkCounter.key] at hkeyed
    simp [hnone t (List.mem_of_getElem? hj)] at hkeyed
  | refused hnone hfull => exact h

theorem Distinct.map {links : List LsmBluetoothLinkCounter} (h : Distinct links)
    {f : LsmBluetoothLinkCounter → LsmBluetoothLinkCounter} (hf : KeepsKey f) : Distinct (links.map f) := by
  unfold Distinct
  rw [List.pairwise_map]
  refine List.Pairwise.imp (fun hst => ?_) h
  simpa only [hf.used, hf.key] using hst

section Runs
variable {lib : Arithmetic} {text : TextHelpers}

/-- What a property of the table has to survive. -/
structure Survives (P : List LsmBluetoothLinkCounter → Prop) : Prop where
  update : ∀ links key f, KeepsKey f → P links → P (updateLink links key f)
  deactivate : ∀ links index, P links → P (links.map (deactivate index))

theorem Survives.refreshLinks {P : List LsmBluetoothLinkCounter → Prop} (hP : Survives P)
    {links : List LsmBluetoothLinkCounter} (h : P links) (index : Nat) (list : LsmHciConnectionList) :
    P (refreshLinks text links index list) := by
  unfold Bluetooth.refreshLinks
  have hmarked := hP.deactivate links index h
  generalize links.map (Bluetooth.deactivate index) = marked at hmarked
  generalize list.connections = connections
  induction connections generalizing marked with
  | nil => exact hmarked
  | cons info rest ih => exact ih _ (hP.update _ _ _ (keepsKey_bindLink text _) hmarked)

theorem Survives.step {P : List LsmBluetoothLinkCounter → Prop} (hP : Survives P) {s t : LsmBluetoothCaptureState}
    {a : Action} (h : P s.links) (hstep : (machine lib text).step s a = some t) : P t.links := by
  cases a with
  | receive buffer =>
    simp only [machine, Bluetooth.step] at hstep
    split at hstep
    · cases hstep
      unfold monitorReader
      split
      · exact h
      · unfold accountPacket
        split
        · exact h
        · exact hP.update _ _ _ (keepsKey_addPayload lib _) h
    · cases hstep
  | lose =>
    simp only [machine, Bluetooth.step] at hstep
    split at hstep
    · cases hstep
      exact h
    · cases hstep
  | refreshConnections controller list =>
    cases hstep
    unfold lsmBluetoothTrafficRefreshConnections
    split
    · exact hP.refreshLinks h _ _
    · exact h

theorem Survives.run {P : List LsmBluetoothLinkCounter → Prop} (hP : Survives P) (h : P started.links)
    {actions : List Action} {s : LsmBluetoothCaptureState} (hrun : (machine lib text).run started actions = some s) :
    P s.links :=
  (machine lib text).run_preserves (fun s => P s.links) (fun _ _ _ h hstep => hP.step h hstep) h hrun

/-- **One slot for each controller and handle, in every reachable state.** -/
theorem distinct_run {actions : List Action} {s : LsmBluetoothCaptureState}
    (hrun : (machine lib text).run started actions = some s) : Distinct s.links := by
  have hP : Survives Distinct :=
    ⟨fun _ key _ hf h => h.updateLink key hf, fun _ index h => h.map (keepsKey_deactivate index)⟩
  refine hP.run ?_ hrun
  unfold Distinct started
  exact List.pairwise_replicate.mpr (Or.inr (fun h => nomatch h))

theorem length_updateLink (links : List LsmBluetoothLinkCounter) (key : Nat × Nat)
    (f : LsmBluetoothLinkCounter → LsmBluetoothLinkCounter) : (updateLink links key f).length = links.length := by
  have hspec := updateLink_spec links key f
  generalize updateLink links key f = updated at hspec ⊢
  cases hspec with
  | found i slot _ _ => exact List.length_set
  | made i old _ _ _ => exact List.length_set
  | refused _ _ => rfl

/-- The table stays the array it is. -/
theorem length_run {actions : List Action} {s : LsmBluetoothCaptureState}
    (hrun : (machine lib text).run started actions = some s) : s.links.length = lsmHciLinkSlots := by
  have hP : Survives fun links => links.length = lsmHciLinkSlots :=
    ⟨fun links key f _ h => (length_updateLink links key f).trans h, fun _ _ h => by rw [List.length_map, h]⟩
  exact hP.run List.length_replicate hrun

end Runs

end SystemMonitor.Bluetooth
