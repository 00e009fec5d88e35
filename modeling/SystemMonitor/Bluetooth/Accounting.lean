import SystemMonitor.Bluetooth.Links
import SystemMonitor.Lib.Last
import SystemMonitor.Lib.Totals
import Mathlib.Data.List.Dedup

/-! What the link table knows of the packets, and what a read reports.

`Exact` relates the table to everything captured and listed so far: a slot for
each key seen, with the key's totals and the address it is bound to. It holds as
long as there are no more keys than slots and no handle changes its address; a
packet may come before its handle is ever listed. `traffic_exact`: a read adds up
exactly the packets of the device. -/
namespace SystemMonitor.Bluetooth
open Lib

/-! ### What was captured and listed -/

inductive Record where
  | packet (p : LsmBluetoothMonitorPacket)
  | listed (index : Nat) (info : LsmHciConnectionInfo)

def LsmBluetoothMonitorPacket.key (p : LsmBluetoothMonitorPacket) : Nat × Nat := (p.controllerIndex, p.handle)

/-- The key a record needs a slot for: a packet without payload needs none. -/
def Record.key : Record → Option (Nat × Nat)
  | .packet p => if p.payloadBytes = 0 then none else some p.key
  | .listed index info => some (index, info.handle)

def seen (log : List Record) : List (Nat × Nat) := log.filterMap Record.key

def packets (log : List Record) : List LsmBluetoothMonitorPacket :=
  log.filterMap fun
    | .packet p => some p
    | .listed _ _ => none

/-- The payloads of a key in one direction. -/
def total (log : List Record) (receive : Bool) (key : Nat × Nat) : Nat :=
  weigh (·.payloadBytes) (fun p => decide (p.key = key) && decide (p.receive = receive)) (packets log)

/-- The address a record gives a key. -/
def Record.binding (key : Nat × Nat) : Record → Option Text
  | .packet _ => none
  | .listed index info => if (index, info.handle) = key then some (addressString info.address) else none

/-- The address of a key, as last listed. -/
def boundTo (log : List Record) (key : Nat × Nat) : Option Text := lastOf (Record.binding key) log

/-- No handle is listed with two addresses. -/
def Unrebound (log : List Record) : Prop :=
  ∀ index info info', .listed index info ∈ log → .listed index info' ∈ log → info.handle = info'.handle →
    info.address = info'.address

/-- There are slots enough. -/
def Within (log : List Record) : Prop := (seen log).dedup.length ≤ lsmHciLinkSlots

instance (log : List Record) : Decidable (Within log) :=
  inferInstanceAs (Decidable ((seen log).dedup.length ≤ lsmHciLinkSlots))

theorem Unrebound.left {a b : List Record} (h : Unrebound (a ++ b)) : Unrebound a :=
  fun index info info' hi hi' => h index info info' (List.mem_append_left _ hi) (List.mem_append_left _ hi')

theorem Within.left {a b : List Record} (h : Within (a ++ b)) : Within a := by
  have hsub : (seen a).dedup ⊆ (seen (a ++ b)).dedup := by
    intro key hkey
    rw [List.mem_dedup] at hkey ⊢
    rw [seen, List.filterMap_append]
    exact List.mem_append_left _ hkey
  exact (List.subperm_of_subset (List.nodup_dedup _) hsub).length_le.trans h

theorem packets_concat (log : List Record) (r : Record) :
    packets (log ++ [r]) = packets log ++ (match r with
      | .packet p => [p]
      | .listed _ _ => []) := by
  cases r <;> simp [packets]

theorem total_listed (log : List Record) (index : Nat) (info : LsmHciConnectionInfo) (receive : Bool)
    (key : Nat × Nat) : total (log ++ [.listed index info]) receive key = total log receive key := by
  unfold total
  rw [packets_concat, List.append_nil]

theorem total_packet (log : List Record) (p : LsmBluetoothMonitorPacket) (receive : Bool) (key : Nat × Nat) :
    total (log ++ [.packet p]) receive key =
      total log receive key + if p.key = key ∧ p.receive = receive then p.payloadBytes else 0 := by
  unfold total
  rw [packets_concat, weigh_append, weigh_cons, weigh_nil, Nat.add_zero]
  simp

theorem boundTo_concat (log : List Record) (r : Record) (key : Nat × Nat) :
    boundTo (log ++ [r]) key = (r.binding key).or (boundTo log key) :=
  lastOf_concat ..

/-- The listing an address comes from. -/
theorem listed_of_boundTo {log : List Record} {key : Nat × Nat} {a : Text} (h : boundTo log key = some a) :
    ∃ index info, .listed index info ∈ log ∧ (index, info.handle) = key ∧ addressString info.address = a := by
  obtain ⟨r, hr, hra⟩ := exists_of_lastOf h
  cases r with
  | packet p => cases hra
  | listed index info =>
    simp only [Record.binding] at hra
    split at hra
    · rename_i hkey
      exact ⟨index, info, hr, hkey, Option.some.inj hra⟩
    · cases hra

/-! ### The table -/

/-- A slot's counters and address are its key's. -/
structure Counted (log : List Record) (s : LsmBluetoothLinkCounter) : Prop where
  received : s.rxBytes = min (total log true s.key) uint64Max
  sent : s.txBytes = min (total log false s.key) uint64Max
  address : s.address = (boundTo log s.key).getD []

structure Exact (log : List Record) (links : List LsmBluetoothLinkCounter) : Prop where
  length : links.length = lsmHciLinkSlots
  distinct : Distinct links
  seen : ∀ key, (∃ s ∈ links, s.keyed key = true) ↔ key ∈ seen log
  counted : ∀ s ∈ links, s.used = true → Counted log s

theorem counted_fresh {log : List Record} {key : Nat × Nat} (h : key ∉ seen log) : Counted log (freshLink key) := by
  have htotal : ∀ receive, total log receive key = 0 := by
    intro receive
    unfold total weigh
    refine List.sum_eq_zero fun n hn => ?_
    obtain ⟨p, hp, rfl⟩ := List.mem_map.mp hn
    obtain ⟨hp, hkey⟩ := List.mem_filter.mp hp
    by_contra hpayload
    simp only [Bool.and_eq_true, decide_eq_true_eq] at hkey
    obtain ⟨r, hr, hrp⟩ := List.mem_filterMap.mp hp
    cases r with
    | listed index info => cases hrp
    | packet p' =>
      cases hrp
      exact h (List.mem_filterMap.mpr ⟨.packet p, hr, by rw [Record.key, if_neg hpayload, hkey.1]⟩)
  refine ⟨?_, ?_, ?_⟩
  · rw [show (freshLink key).key = key from rfl, htotal]
    rfl
  · rw [show (freshLink key).key = key from rfl, htotal]
    rfl
  · have hnone : boundTo log key = none := by
      cases hbound : boundTo log key with
      | none => rfl
      | some a =>
        obtain ⟨index, info, hmem, hkey, -⟩ := listed_of_boundTo hbound
        exact absurd (List.mem_filterMap.mpr ⟨_, hmem, congrArg some hkey⟩ : key ∈ seen log) h
    exact (congrArg (·.getD []) hnone).symm

/-- While keys are within the slots, a new one finds a slot without a key. -/
theorem Exact.unused {log : List Record} {links : List LsmBluetoothLinkCounter} (h : Exact log links) {r : Record}
    {key : Nat × Nat} (hr : r.key = some key) (hnew : ∀ s ∈ links, s.keyed key = false)
    (hwithin : Within (log ++ [r])) : ¬∀ s ∈ links, s.used = true := by
  intro hall
  have hnodup : (links.map (·.key)).Nodup := by
    rw [List.Nodup, List.pairwise_map]
    refine List.Pairwise.imp_of_mem (fun hs ht hst => ?_) h.distinct
    exact hst (hall _ hs) (hall _ ht)
  have hfresh : key ∉ links.map (·.key) := by
    intro hmem
    obtain ⟨s, hs, hkey⟩ := List.mem_map.mp hmem
    exact absurd (keyed_iff.mpr ⟨hall s hs, hkey⟩) (by simp [hnew s hs])
  have hsub : key :: links.map (·.key) ⊆ (Bluetooth.seen (log ++ [r])).dedup := by
    intro k hk
    rw [List.mem_dedup, Bluetooth.seen, List.filterMap_append, List.mem_append]
    rcases List.mem_cons.mp hk with rfl | hk
    · exact Or.inr (by simp [hr])
    · obtain ⟨s, hs, rfl⟩ := List.mem_map.mp hk
      exact Or.inl ((h.seen s.key).mp ⟨s, hs, keyed_iff.mpr ⟨hall s hs, rfl⟩⟩)
  have hlength := (List.subperm_of_subset (List.nodup_cons.mpr ⟨hfresh, hnodup⟩) hsub).length_le
  have hwithin : (Bluetooth.seen (log ++ [r])).dedup.length ≤ lsmHciLinkSlots := hwithin
  rw [List.length_cons, List.length_map, h.length] at hlength
  omega

/-- The table with a slot for the key of a record in place of that key's slot, or of
a slot without a key. -/
theorem Exact.put {log : List Record} {links : List LsmBluetoothLinkCounter} (h : Exact log links) {r : Record}
    {key : Nat × Nat} (hr : r.key = some key) {i : Nat} {old x : LsmBluetoothLinkCounter}
    (hi : links[i]? = some old) (hold : old.used = true → old.key = key) (hx : x.keyed key = true)
    (hrest : ∀ j t, links[j]? = some t → j ≠ i → t.keyed key = false) (hdistinct : Distinct (links.set i x))
    (hcounted : Counted (log ++ [r]) x)
    (hother : ∀ s, s.key ≠ key → Counted log s → Counted (log ++ [r]) s) : Exact (log ++ [r]) (links.set i x) := by
  obtain ⟨hxused, hxkey⟩ := keyed_iff.mp hx
  have hlt := (List.getElem?_eq_some_iff.mp hi).1
  refine ⟨by rw [List.length_set, h.length], hdistinct, fun k => ?_, fun s hs hused => ?_⟩
  · have hseen : k ∈ Bluetooth.seen (log ++ [r]) ↔ k ∈ Bluetooth.seen log ∨ k = key := by
      simp [Bluetooth.seen, hr]
    rw [hseen, ← h.seen]
    constructor
    · intro hex
      obtain ⟨s, hs, hk⟩ := hex
      rcases List.mem_or_eq_of_mem_set hs with hs | rfl
      · exact Or.inl ⟨s, hs, hk⟩
      · exact Or.inr ((keyed_iff.mp hk).2.symm.trans hxkey)
    · intro hcase
      by_cases hsame : k = key
      · exact ⟨x, List.mem_set hlt _, hsame ▸ hx⟩
      · obtain ⟨s, hs, hk⟩ := hcase.resolve_right hsame
        obtain ⟨j, hj, rfl⟩ := List.getElem_of_mem hs
        have hji : i ≠ j := by
          intro hij
          subst hij
          rw [List.getElem?_eq_getElem hj] at hi
          cases hi
          exact hsame ((keyed_iff.mp hk).2.symm.trans (hold (keyed_iff.mp hk).1))
        have hget : (links.set i x)[j]? = some links[j] := by
          rw [List.getElem?_set_ne hji]
          exact List.getElem?_eq_getElem hj
        exact ⟨links[j], List.mem_of_getElem? hget, hk⟩
  · obtain ⟨j, hj, rfl⟩ := List.getElem_of_mem hs
    rw [List.getElem_set] at hused ⊢
    split
    · exact hcounted
    · rename_i hij
      rw [if_neg hij] at hused
      have hj' : j < links.length := by simpa using hj
      refine hother _ (fun hk => ?_) (h.counted _ (List.getElem_mem hj') hused)
      exact absurd (keyed_iff.mpr ⟨hused, hk⟩) (by simp [hrest j _ (List.getElem?_eq_getElem hj') (Ne.symm hij)])

/-- **One record**, whatever it does to the slot of its key. -/
theorem Exact.update {log : List Record} {links : List LsmBluetoothLinkCounter} (h : Exact log links) {r : Record}
    {key : Nat × Nat} (hr : r.key = some key) {f : LsmBluetoothLinkCounter → LsmBluetoothLinkCounter}
    (hf : KeepsKey f) (hself : ∀ s, s.key = key → Counted log s → Counted (log ++ [r]) (f s))
    (hother : ∀ s, s.key ≠ key → Counted log s → Counted (log ++ [r]) s) (hwithin : Within (log ++ [r])) :
    Exact (log ++ [r]) (updateLink links key f) := by
  have hdistinct := h.distinct.updateLink key hf
  have hspec := updateLink_spec links key f
  generalize updateLink links key f = updated at hspec hdistinct ⊢
  cases hspec with
  | found i slot hi hkeyed =>
    obtain ⟨hused, hkey⟩ := keyed_iff.mp hkeyed
    refine h.put hr hi (fun _ => hkey) (keyed_iff.mpr ⟨(hf.used slot).trans hused, (hf.key slot).trans hkey⟩) ?_
      hdistinct (hself slot hkey (h.counted slot (List.mem_of_getElem? hi) hused)) hother
    intro j t hj hji
    by_contra hk
    obtain ⟨htused, htkey⟩ := keyed_iff.mp (Bool.not_eq_false _ ▸ hk)
    exact hji (distinct_iff.mp h.distinct j i t slot hj hi htused hused (htkey.trans hkey.symm))
  | made i old hnone hi hfree =>
    have hunused : old.used = false := by
      rcases hfree with hunused | ⟨hall, -, -⟩
      · exact hunused
      · exact absurd hall (h.unused hr hnone hwithin)
    have hnotseen : key ∉ Bluetooth.seen log := by
      rw [← h.seen]
      intro hex
      obtain ⟨s, hs, hk⟩ := hex
      simp [hnone s hs] at hk
    refine h.put hr hi (fun hused => by simp [hused] at hunused) (keyed_iff.mpr ⟨hf.used _, hf.key _⟩) ?_ hdistinct
      (hself _ rfl (counted_fresh hnotseen)) hother
    exact fun j t hj _ => hnone t (List.mem_of_getElem? hj)
  | refused hnone hfull => exact absurd (fun s hs => (hfull s hs).1) (h.unused hr hnone hwithin)

/-! ### Steps -/

section Runs
variable {lib : Arithmetic} {text : TextHelpers}

theorem Exact.packet {log : List Record} {links : List LsmBluetoothLinkCounter} (h : Exact log links)
    (p : LsmBluetoothMonitorPacket) (hwithin : Within (log ++ [.packet p])) :
    Exact (log ++ [.packet p]) (accountPacket lib links p) := by
  have hbound : ∀ key, boundTo (log ++ [.packet p]) key = boundTo log key := by
    intro key
    rw [boundTo_concat, Record.binding, Option.none_or]
  have hother : ∀ s : LsmBluetoothLinkCounter, s.key ≠ p.key ∨ p.payloadBytes = 0 → Counted log s →
      Counted (log ++ [.packet p]) s := by
    intro s hs hcounted
    have hsame : ∀ receive, total (log ++ [.packet p]) receive s.key = total log receive s.key := by
      intro receive
      rw [total_packet]
      split
      · rename_i hp
        rw [hs.resolve_left (fun hne => hne hp.1.symm), Nat.add_zero]
      · rfl
    exact ⟨by rw [hsame, hcounted.received], by rw [hsame, hcounted.sent], by rw [hbound, hcounted.address]⟩
  unfold accountPacket
  split
  · rename_i hzero
    refine ⟨h.length, h.distinct, fun key => ?_, fun s hs hused => hother s (Or.inr hzero) (h.counted s hs hused)⟩
    rw [h.seen]
    simp [Bluetooth.seen, Record.key, hzero]
  · rename_i hpayload
    refine h.update (by rw [Record.key, if_neg hpayload, LsmBluetoothMonitorPacket.key]) (keepsKey_addPayload lib p) ?_
      (fun s hs => hother s (Or.inl hs)) hwithin
    intro s hs hcounted
    have hkey : p.key = s.key := hs.symm
    have hgrown : ∀ receive, total (log ++ [.packet p]) receive s.key =
        total log receive s.key + if p.receive = receive then p.payloadBytes else 0 := by
      intro receive
      rw [total_packet]
      simp [hkey]
    unfold addPayload
    cases hreceive : p.receive with
    | true =>
      refine ⟨?_, ?_, (hcounted.address.trans (congrArg (·.getD []) (hbound s.key).symm))⟩
      · have hr : min (s.rxBytes + p.payloadBytes) uint64Max = min (total (log ++ [.packet p]) true s.key) uint64Max := by
          rw [hgrown, hcounted.received, if_pos hreceive]
          omega
        rw [← lib.addSaturating_eq] at hr
        exact hr
      · have hs : s.txBytes = min (total (log ++ [.packet p]) false s.key) uint64Max := by
          rw [hgrown, hcounted.sent, if_neg (by simp [hreceive]), Nat.add_zero]
        exact hs
    | false =>
      refine ⟨?_, ?_, (hcounted.address.trans (congrArg (·.getD []) (hbound s.key).symm))⟩
      · have hr : s.rxBytes = min (total (log ++ [.packet p]) true s.key) uint64Max := by
          rw [hgrown, hcounted.received, if_neg (by simp [hreceive]), Nat.add_zero]
        exact hr
      · have hs : min (s.txBytes + p.payloadBytes) uint64Max = min (total (log ++ [.packet p]) false s.key) uint64Max := by
          rw [hgrown, hcounted.sent, if_pos hreceive]
          omega
        rw [← lib.addSaturating_eq] at hs
        exact hs

theorem Exact.listed {log : List Record} {links : List LsmBluetoothLinkCounter} (h : Exact log links) (index : Nat)
    (info : LsmHciConnectionInfo) (hwithin : Within (log ++ [.listed index info]))
    (hunrebound : Unrebound (log ++ [.listed index info])) :
    Exact (log ++ [.listed index info]) (bindConnection text index links info) := by
  refine h.update rfl (keepsKey_bindLink text _) ?_ ?_ hwithin
  · intro s hs hcounted
    have hnew : boundTo (log ++ [.listed index info]) s.key = some (addressString info.address) := by
      rw [boundTo_concat, hs, Record.binding, if_pos rfl, Option.some_or]
    -- The slot is unbound, or bound to the address it is listed with.
    have hkept : ¬(s.address ≠ [] ∧ text.asciiEqualCi s.address (addressString info.address) = false) := by
      intro hreset
      have haddress := hcounted.address
      cases hbound : boundTo log s.key with
      | none =>
        rw [hbound] at haddress
        exact hreset.1 haddress
      | some a =>
        rw [hbound] at haddress
        obtain ⟨index', info', hmem, hkey, hstring⟩ := listed_of_boundTo hbound
        rw [hs] at hkey
        obtain ⟨rfl, hhandle⟩ := Prod.mk.inj hkey
        have hsame := hunrebound index' info' info (List.mem_append_left _ hmem) (by simp) hhandle
        rw [haddress, Option.getD_some, ← hstring, hsame, text.equalCi_refl] at hreset
        exact absurd hreset.2 (by simp)
    have hbind : bindLink text (addressString info.address) s =
        {s with address := addressString info.address, active := true} := if_neg hkept
    rw [hbind]
    refine ⟨?_, ?_, ?_⟩
    · exact hcounted.received.trans (by rw [← total_listed log index info]; rfl)
    · exact hcounted.sent.trans (by rw [← total_listed log index info]; rfl)
    · exact (congrArg (·.getD []) hnew).symm
  · intro s hs hcounted
    have hbound : boundTo (log ++ [.listed index info]) s.key = boundTo log s.key := by
      rw [boundTo_concat, Record.binding, if_neg (Ne.symm hs), Option.none_or]
    exact ⟨by rw [total_listed, hcounted.received], by rw [total_listed, hcounted.sent],
      by rw [hbound, hcounted.address]⟩

theorem Exact.deactivate {log : List Record} {links : List LsmBluetoothLinkCounter} (h : Exact log links)
    (index : Nat) : Exact log (links.map (deactivate index)) := by
  have hf := keepsKey_deactivate index
  refine ⟨by rw [List.length_map, h.length], h.distinct.map hf, fun key => ?_, fun s hs hused => ?_⟩
  · rw [← h.seen]
    simp only [List.mem_map, exists_exists_and_eq_and, keyed_iff, hf.used, hf.key]
  · obtain ⟨r, hr, rfl⟩ := List.mem_map.mp hs
    have hcounted := h.counted r hr ((hf.used r).symm.trans hused)
    unfold Bluetooth.deactivate
    split <;> exact ⟨hcounted.received, hcounted.sent, hcounted.address⟩

theorem Exact.connections {log : List Record} {links : List LsmBluetoothLinkCounter} (h : Exact log links)
    (index : Nat) (connections : List LsmHciConnectionInfo)
    (hwithin : Within (log ++ connections.map (.listed index)))
    (hunrebound : Unrebound (log ++ connections.map (.listed index))) :
    Exact (log ++ connections.map (.listed index)) (connections.foldl (bindConnection text index) links) := by
  induction connections generalizing log links with
  | nil => simpa using h
  | cons info rest ih =>
    have hsplit : log ++ (info :: rest).map (Record.listed index) =
        (log ++ [.listed index info]) ++ rest.map (.listed index) := by simp
    rw [hsplit] at hwithin hunrebound ⊢
    exact ih (h.listed index info hwithin.left hunrebound.left) hwithin hunrebound

/-- What an action adds to the records. -/
def records (text : TextHelpers) (_ : LsmBluetoothCaptureState) : Action → List Record
  | .receive buffer => (lsmBluetoothTrafficParseMonitor buffer).toList.map .packet
  | .lose => []
  | .refreshConnections controller list =>
    match controllerIndex text controller, list with
    | some index, some list => list.connections.map (.listed index)
    | _, _ => []

theorem Exact.step {log : List Record} {s t : LsmBluetoothCaptureState} {a : Action} (h : Exact log s.links)
    (hstep : (machine lib text).step s a = some t) (hwithin : Within (log ++ records text s a))
    (hunrebound : Unrebound (log ++ records text s a)) : Exact (log ++ records text s a) t.links := by
  cases a with
  | receive buffer =>
    simp only [machine, Bluetooth.step] at hstep
    split at hstep
    · cases hstep
      revert hwithin
      simp only [records, monitorReader]
      cases lsmBluetoothTrafficParseMonitor buffer with
      | none => simpa using fun _ => h
      | some packet => exact fun hwithin => h.packet packet hwithin
    · cases hstep
  | lose =>
    simp only [machine, Bluetooth.step] at hstep
    split at hstep
    · cases hstep
      simpa [records] using h
    · cases hstep
  | refreshConnections controller list =>
    cases hstep
    revert hwithin hunrebound
    simp only [records, lsmBluetoothTrafficRefreshConnections]
    cases controllerIndex text controller with
    | none => simpa using fun _ _ => h
    | some index =>
      cases list with
      | none => simpa using fun _ _ => h
      | some list => exact fun hwithin hunrebound => (h.deactivate index).connections index _ hwithin hunrebound

theorem exact_run {actions : List Action} {s : LsmBluetoothCaptureState}
    (hrun : (machine lib text).run started actions = some s)
    (hwithin : Within ((machine lib text).trace (records text) started actions))
    (hunrebound : Unrebound ((machine lib text).trace (records text) started actions)) :
    Exact ((machine lib text).trace (records text) started actions) s.links := by
  have hstart : Exact [] started.links := by
    refine ⟨List.length_replicate, ?_, fun key => ?_, fun s hs hused => ?_⟩
    · exact List.pairwise_replicate.mpr (Or.inr (fun h => nomatch h))
    · simp [started, Bluetooth.seen, LsmBluetoothLinkCounter.keyed]
    · rw [List.eq_of_mem_replicate hs] at hused
      cases hused
  exact (machine lib text).run_trace_invariant (records text) (fun _ _ => True)
    (fun log s => Within log → Unrebound log → Exact log s.links)
    (fun log s a t h _ hstep hw hu => (h hw.left hu.left).step hstep hw hu)
    (fun _ _ => hstart) ((machine lib text).admissible_true started actions) hrun hwithin hunrebound

/-! ### Reading -/

/-- The packet's handle has been listed for this controller with this address. -/
def onDevice (text : TextHelpers) (log : List Record) (index : Nat) (address : Text)
    (p : LsmBluetoothMonitorPacket) : Bool :=
  log.any fun
    | .packet _ => false
    | .listed index' info => decide (index' = index ∧ p.key = (index, info.handle)) &&
      text.asciiEqualCi (addressString info.address) address

/-- The payloads of a device in one direction. -/
def deviceTotal (text : TextHelpers) (log : List Record) (index : Nat) (address : Text) (receive : Bool) : Nat :=
  weigh (·.payloadBytes) (fun p => onDevice text log index address p && decide (p.receive = receive)) (packets log)

theorem countLinks_eq (rows : List LsmBluetoothLinkCounter) (counters : LsmBluetoothTrafficCounters) :
    (rows.foldl (countLink lib) counters).rxBytes =
        rows.foldl (fun n slot => min (n + slot.rxBytes) uint64Max) counters.rxBytes ∧
      (rows.foldl (countLink lib) counters).txBytes =
        rows.foldl (fun n slot => min (n + slot.txBytes) uint64Max) counters.txBytes := by
  induction rows generalizing counters with
  | nil => exact ⟨rfl, rfl⟩
  | cons slot rest ih =>
    have hrest := ih (countLink lib counters slot)
    rw [countLink, lib.addSaturating_eq, lib.addSaturating_eq] at hrest
    simpa only [List.foldl_cons, countLink, lib.addSaturating_eq] using hrest

theorem foldl_saturating {α : Type} (w : α → Nat) (ceiling n : Nat) (rows : List α) (h : n ≤ ceiling) :
    rows.foldl (fun n r => min (n + w r) ceiling) n = min (n + (rows.map w).sum) ceiling := by
  induction rows generalizing n with
  | nil =>
    rw [List.map_nil, List.sum_nil, Nat.add_zero]
    exact (Nat.min_eq_left h).symm
  | cons r rest ih =>
    rw [List.foldl_cons, ih _ (Nat.min_le_right _ _), List.map_cons, List.sum_cons]
    omega

/-- The slots of a device are the slots of the packets' handles. -/
theorem Exact.mem_device {log : List Record} {links : List LsmBluetoothLinkCounter} (h : Exact log links)
    (hunrebound : Unrebound log) (index : Nat) (address : Text) (p : LsmBluetoothMonitorPacket) :
    p.key ∈ (links.filter (·.ofDevice text index address)).map (·.key) ↔ onDevice text log index address p = true := by
  simp only [List.mem_map, List.mem_filter, LsmBluetoothLinkCounter.ofDevice, Bool.and_eq_true, decide_eq_true_eq]
  constructor
  · intro hex
    obtain ⟨s, ⟨hs, ⟨⟨hused, hindex⟩, haddressed⟩, hequal⟩, hkey⟩ := hex
    have haddress := (h.counted s hs hused).address
    cases hbound : boundTo log s.key with
    | none =>
      rw [hbound] at haddress
      exact absurd haddress haddressed
    | some a =>
      rw [hbound, Option.getD_some] at haddress
      obtain ⟨index', info, hmem, hlisted, hstring⟩ := listed_of_boundTo hbound
      obtain ⟨hindex', -⟩ := Prod.mk.inj hlisted
      refine List.any_eq_true.mpr ⟨.listed index' info, hmem, ?_⟩
      simp only [Bool.and_eq_true, decide_eq_true_eq]
      refine ⟨⟨hindex'.trans hindex, ?_⟩, by rw [hstring, ← haddress, hequal]⟩
      rw [← hkey, ← hlisted, hindex'.trans hindex]
  · intro hany
    obtain ⟨r, hmem, hr⟩ := List.any_eq_true.mp hany
    cases r with
    | packet p' => cases hr
    | listed index' info =>
      simp only [Bool.and_eq_true, decide_eq_true_eq] at hr
      obtain ⟨⟨rfl, hkey⟩, hequal⟩ := hr
      have hseen : p.key ∈ Bluetooth.seen log := List.mem_filterMap.mpr ⟨_, hmem, congrArg some hkey.symm⟩
      obtain ⟨s, hs, hkeyed⟩ := (h.seen p.key).mpr hseen
      obtain ⟨hused, hskey⟩ := keyed_iff.mp hkeyed
      have haddress : s.address = addressString info.address := by
        rw [(h.counted s hs hused).address, hskey, hkey]
        cases hbound : boundTo log (index', info.handle) with
        | none =>
          have hnone := List.filterMap_eq_nil_iff.mp (List.getLast?_eq_none_iff.mp hbound) _ hmem
          simp [Record.binding] at hnone
        | some a =>
          obtain ⟨index'', info', hmem', hlisted, hstring⟩ := listed_of_boundTo hbound
          obtain ⟨rfl, hhandle⟩ := Prod.mk.inj hlisted
          rw [Option.getD_some, ← hstring, hunrebound _ info' info hmem' hmem hhandle]
      refine ⟨s, ⟨hs, ⟨⟨hused, ?_⟩, ?_⟩, by rw [haddress, hequal]⟩, hskey⟩
      · exact (Prod.mk.inj (hskey.trans hkey)).1
      · exact haddress ▸ addressString_ne_nil info.address

/-- What the slots of a device add up to. -/
theorem Exact.sum_device {log : List Record} {links : List LsmBluetoothLinkCounter} (h : Exact log links)
    (hunrebound : Unrebound log) (index : Nat) (address : Text) (receive : Bool) (w : LsmBluetoothLinkCounter → Nat)
    (hw : ∀ s ∈ links, s.used = true → w s = min (total log receive s.key) uint64Max) :
    (links.filter (·.ofDevice text index address)).foldl (fun n slot => min (n + w slot) uint64Max) 0 =
      min (deviceTotal text log index address receive) uint64Max := by
  have hused : ∀ s ∈ links.filter (·.ofDevice text index address), s ∈ links ∧ s.used = true := by
    intro s hs
    obtain ⟨hs, hof⟩ := List.mem_filter.mp hs
    simp only [LsmBluetoothLinkCounter.ofDevice, Bool.and_eq_true] at hof
    exact ⟨hs, hof.1.1.1⟩
  have hnodup : ((links.filter (·.ofDevice text index address)).map (·.key)).Nodup := by
    rw [List.Nodup, List.pairwise_map]
    refine List.Pairwise.imp_of_mem (fun hs ht hst => ?_) (List.Pairwise.filter _ h.distinct)
    exact hst (hused _ hs).2 (hused _ ht).2
  have hparts : (links.filter (·.ofDevice text index address)).map w =
      (links.filter (·.ofDevice text index address)).map fun s => min (total log receive s.key) uint64Max := by
    apply List.map_congr_left
    intro s hs
    exact hw s (hused s hs).1 (hused s hs).2
  rw [foldl_saturating w uint64Max 0 _ (Nat.zero_le _), Nat.zero_add, hparts, min_sum_min, deviceTotal]
  have hkeys := sum_by_key LsmBluetoothLinkCounter.key LsmBluetoothMonitorPacket.key
    (fun p : LsmBluetoothMonitorPacket => p.payloadBytes) (fun p => decide (p.receive = receive)) (packets log) hnodup
  rw [show (fun s : LsmBluetoothLinkCounter => total log receive s.key) = fun s =>
    weigh (·.payloadBytes) (fun p => decide (p.key = s.key) && decide (p.receive = receive)) (packets log) from rfl, hkeys]
  congr 1
  apply weigh_congr
  intro p _
  congr 1
  rw [Bool.eq_iff_iff, ← h.mem_device hunrebound index address p, List.any_eq_true, List.mem_map]
  exact exists_congr fun s => and_congr_right fun _ => decide_eq_true_iff.trans eq_comm

/-- **Bluetooth traffic is accounted exactly.** Whatever is captured and listed, in
any order: no two used slots share controller and handle; and while there are no
more keys than slots and no handle changes its address, a read of a device gives
the saturating sums of the payloads of all packets on its handles, those from
before the first listing included. -/
theorem traffic_exact {actions : List Action} {s : LsmBluetoothCaptureState}
    (hrun : (machine lib text).run started actions = some s) :
    Distinct s.links ∧
    (Within ((machine lib text).trace (records text) started actions) →
      Unrebound ((machine lib text).trace (records text) started actions) →
      ∀ (controller address : Text) (index : Nat), controllerIndex text controller = some index → address ≠ [] →
        s.captureAvailable = true →
        ∃ counters, (lsmBluetoothTrafficReadDevice lib text s controller address).1 = some counters ∧
          counters.rxBytes =
            min (deviceTotal text ((machine lib text).trace (records text) started actions) index address true)
              uint64Max ∧
          counters.txBytes =
            min (deviceTotal text ((machine lib text).trace (records text) started actions) index address false)
              uint64Max) := by
  refine ⟨distinct_run hrun, fun hwithin hunrebound controller address index hindex haddress havailable => ?_⟩
  have h := exact_run hrun hwithin hunrebound
  refine ⟨(s.links.filter (·.ofDevice text index address)).foldl (countLink lib) {}, ?_, ?_, ?_⟩
  · simp [lsmBluetoothTrafficReadDevice, haddress, hindex, havailable]
  · rw [(countLinks_eq _ _).1]
    exact h.sum_device hunrebound index address true _ fun s hs hused => (h.counted s hs hused).received
  · rw [(countLinks_eq _ _).2]
    exact h.sum_device hunrebound index address false _ fun s hs hused => (h.counted s hs hused).sent

end Runs

/-- An ACL packet of five bytes on handle 1 of the first controller. -/
def aclPacket (opcode : UInt8) : List UInt8 := [opcode, 0, 0, 0, 9, 0, 1, 32, 5, 0, 1, 2, 3, 4, 5]

/-- Received before the handle is listed, sent after it. -/
def aroundListing : List Action :=
  [.receive (aclPacket 5), .refreshConnections (ascii "hci0") (some ⟨[⟨1, fun _ => 171⟩], by decide⟩),
    .receive (aclPacket 4)]

theorem traffic_exact_aroundListing :
    ∃ s counters, (machine .documented .documented).run started aroundListing = some s ∧
      (lsmBluetoothTrafficReadDevice .documented .documented s (ascii "hci0") (ascii "ab:ab:ab:ab:ab:ab")).1 =
        some counters ∧ counters.rxBytes = 5 ∧ counters.txBytes = 5 := by
  obtain ⟨s, hrun, havailable⟩ := (machine .documented .documented).run_decided
    (p := fun s : LsmBluetoothCaptureState => s.captureAvailable = true)
    (show ((machine .documented .documented).run started aroundListing).map _ = some true by decide)
  have hwithin : Within ((machine .documented .documented).trace (records .documented) started aroundListing) := by
    decide
  have hunrebound : Unrebound
      ((machine .documented .documented).trace (records .documented) started aroundListing) := by
    have htrace : (machine .documented .documented).trace (records .documented) started aroundListing =
        [.packet ⟨0, 1, 5, true⟩, .listed 0 ⟨1, fun _ => 171⟩, .packet ⟨0, 1, 5, false⟩] := by rfl
    intro index info info' hinfo hinfo' _
    rw [htrace] at hinfo hinfo'
    simp only [List.mem_cons, reduceCtorEq, Record.listed.injEq, List.not_mem_nil, or_false, false_or] at hinfo hinfo'
    rw [hinfo.2, hinfo'.2]
  obtain ⟨counters, hread, hrx, htx⟩ := (traffic_exact hrun).2 hwithin hunrebound (ascii "hci0")
    (ascii "ab:ab:ab:ab:ab:ab") 0 (by decide) (by decide) havailable
  refine ⟨s, counters, hrun, hread, hrx.trans (by decide), htx.trans (by decide)⟩

end SystemMonitor.Bluetooth
