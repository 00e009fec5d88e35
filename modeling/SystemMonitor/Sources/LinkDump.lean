import SystemMonitor.Lib.Last
import SystemMonitor.Sources.Netlink

/-! What a dump of the links returns.

The code walks each datagram with offsets and counts. `routeLinkMessage_eq` says
that on a message, wherever it lies, this is `messageStep` on the message's own
bytes, so a datagram is a fold over its messages and the dump a fold over the
messages of all datagrams. `route_link_dump_integrity` compares the result with
the messages. -/
namespace SystemMonitor.Sources
open Lib

/-! ### One attribute -/

abbrev Record := List UInt8

def attributeType (a : Record) : Nat := uintOf a 2 2
def attributePayload (a : Record) : Record := a.drop 4

/-- What an attribute says, where it is of the kind and well-sized. -/
def attributeName (a : Record) : Option (Chars 64) :=
  if attributeType a = iflaIfname ∧ 0 ∈ attributePayload a then
    some (.copyString (terminated (attributePayload a)) (terminated_nulFree _))
  else none

def attributeMac (a : Record) : Option Text :=
  if attributeType a = iflaAddress ∧ 6 ≤ (attributePayload a).length then some (formatMac (attributePayload a)) else none

def attributeOperstate (a : Record) : Option Nat :=
  if attributeType a = iflaOperstate ∧ 1 ≤ (attributePayload a).length then some (uintOf (attributePayload a) 0 1)
  else none

/-- Received and sent bytes. -/
def attributeStatistics64 (S : LinkStatistics) (a : Record) : Option (Nat × Nat) :=
  if attributeType a = iflaStats64 ∧ S.size64 ≤ (attributePayload a).length then
    some (uintOf (attributePayload a) 16 8, uintOf (attributePayload a) 24 8)
  else none

def attributeStatistics (S : LinkStatistics) (a : Record) : Option (Nat × Nat) :=
  if attributeType a = iflaStats ∧ S.size ≤ (attributePayload a).length then
    some (uintOf (attributePayload a) 8 4, uintOf (attributePayload a) 12 4)
  else none

/-- The 64-bit counters, or else the 32-bit ones. -/
def linkCounters (S : LinkStatistics) (attrs : List Record) : Option (Nat × Nat) :=
  (lastOf (attributeStatistics64 S) attrs).or (lastOf (attributeStatistics S) attrs)

/-- The record the attributes of a link describe. -/
def linkOf (S : LinkStatistics) (index flags : Nat) (attrs : List Record) : LsmRouteLink where
  name := (lastOf attributeName attrs).getD .empty
  mac := (lastOf attributeMac attrs).getD []
  ifindex := positiveIndex index
  rxBytes := ((linkCounters S attrs).getD (0, 0)).1
  txBytes := ((linkCounters S attrs).getD (0, 0)).2
  operstate := (lastOf attributeOperstate attrs).getD ifOperUnknown
  flags := flags
  countersAvailable := (linkCounters S attrs).isSome
  counters64bit := (lastOf (attributeStatistics64 S) attrs).isSome

/-- `apply_route_link_attribute`, on the attribute's bytes. -/
def attributeStep (S : LinkStatistics) (record : LsmRouteLink) (a : Record) : LsmRouteLink :=
  if attributeType a = iflaIfname then
    if 0 ∈ attributePayload a then
      {record with name := .copyString (terminated (attributePayload a)) (terminated_nulFree _)}
    else record
  else if attributeType a = iflaAddress then
    if 6 ≤ (attributePayload a).length then {record with mac := formatMac (attributePayload a)} else record
  else if attributeType a = iflaOperstate then
    if 1 ≤ (attributePayload a).length then {record with operstate := uintOf (attributePayload a) 0 1} else record
  else if attributeType a = iflaStats64 then
    if S.size64 ≤ (attributePayload a).length then
      { record with
        rxBytes := uintOf (attributePayload a) 16 8
        txBytes := uintOf (attributePayload a) 24 8
        countersAvailable := true
        counters64bit := true }
    else record
  else if attributeType a = iflaStats then
    if record.counters64bit = false ∧ S.size ≤ (attributePayload a).length then
      { record with
        rxBytes := uintOf (attributePayload a) 8 4
        txBytes := uintOf (attributePayload a) 12 4
        countersAvailable := true }
    else record
  else record

theorem uintOf_take (record : List UInt8) {size k n : Nat} (h : k + n ≤ size) :
    uintOf (record.take size) k n = uintOf record k n := by
  unfold uintOf
  rw [List.drop_take, List.take_take, Nat.min_eq_left (by omega)]

theorem applyRouteLinkAttribute_eq (S : LinkStatistics) {bytes : List UInt8} (record : LsmRouteLink)
    {offset length : Nat} (hin : offset + length ≤ bytes.length) (hheader : 4 ≤ length) :
    applyRouteLinkAttribute S bytes record offset length =
      some (attributeStep S record ((bytes.drop offset).take length)) := by
  have hlength : ((bytes.drop offset).take length).length = length := by
    rw [List.length_take, List.length_drop]
    omega
  have hpayload : (attributePayload ((bytes.drop offset).take length)).length = length - 4 := by
    rw [attributePayload, List.length_drop, hlength]
  have htype : uintAt bytes (offset + 2) 2 = some (attributeType ((bytes.drop offset).take length)) :=
    uintAt_record hin (by omega)
  have hread : ∀ n, n ≤ length - 4 →
      bytesAt bytes (offset + 4) n = some ((attributePayload ((bytes.drop offset).take length)).take n) :=
    fun n hn => bytesAt_record hin (by omega)
  unfold applyRouteLinkAttribute attributeStep
  rw [htype, Option.bind_some, hpayload]
  split
  · rw [hread _ (Nat.le_refl _), Option.map_some, ← hpayload, List.take_length]
  · split
    · by_cases hshort : length - 4 < 6
      · rw [if_pos hshort, if_neg (by omega)]
      · rw [if_neg hshort, if_pos (by omega), hread _ (by omega), Option.map_some, formatMac, List.take_take]
        rfl
    · split
      · by_cases hlong : 1 ≤ length - 4
        · rw [if_pos hlong, if_pos hlong, uintAt, hread _ hlong]
          rfl
        · rw [if_neg hlong, if_neg hlong]
      · split
        · have hholds := S.holds64
          by_cases hlong : S.size64 ≤ length - 4
          · rw [if_pos hlong, if_pos hlong, hread _ hlong, Option.map_some, uintOf_take _ (by omega),
              uintOf_take _ (by omega)]
          · rw [if_neg hlong, if_neg hlong]
        · split
          · have hholds := S.holds
            by_cases hlong : record.counters64bit = false ∧ S.size ≤ length - 4
            · rw [if_pos hlong, if_pos (by simp [hlong]), hread _ hlong.2, Option.map_some, uintOf_take _ (by omega),
                uintOf_take _ (by omega)]
            · rw [if_neg hlong, if_neg (by simpa using hlong)]
          · rfl

section Kinds
variable {a : Record}

theorem attributeName_none (h : attributeType a ≠ iflaIfname) : attributeName a = none := if_neg fun hc => h hc.1

theorem attributeMac_none (h : attributeType a ≠ iflaAddress) : attributeMac a = none := if_neg fun hc => h hc.1

theorem attributeOperstate_none (h : attributeType a ≠ iflaOperstate) : attributeOperstate a = none :=
  if_neg fun hc => h hc.1

theorem attributeStatistics64_none (S : LinkStatistics) (h : attributeType a ≠ iflaStats64) :
    attributeStatistics64 S a = none := if_neg fun hc => h hc.1

theorem attributeStatistics_none (S : LinkStatistics) (h : attributeType a ≠ iflaStats) :
    attributeStatistics S a = none := if_neg fun hc => h hc.1

end Kinds

theorem linkOf_concat (S : LinkStatistics) (index flags : Nat) (attrs : List Record) (a : Record) :
    linkOf S index flags (attrs ++ [a]) =
      let counters := ((attributeStatistics64 S a).or (lastOf (attributeStatistics64 S) attrs)).or
        ((attributeStatistics S a).or (lastOf (attributeStatistics S) attrs))
      { name := ((attributeName a).or (lastOf attributeName attrs)).getD .empty
        mac := ((attributeMac a).or (lastOf attributeMac attrs)).getD []
        ifindex := positiveIndex index
        rxBytes := (counters.getD (0, 0)).1
        txBytes := (counters.getD (0, 0)).2
        operstate := ((attributeOperstate a).or (lastOf attributeOperstate attrs)).getD ifOperUnknown
        flags := flags
        countersAvailable := counters.isSome
        counters64bit := ((attributeStatistics64 S a).or (lastOf (attributeStatistics64 S) attrs)).isSome } := by
  simp only [linkOf, linkCounters, lastOf_concat]

/-- Attribute by attribute, the record is what the attributes so far describe. -/
theorem attributeStep_linkOf (S : LinkStatistics) (index flags : Nat) (attrs : List Record) (a : Record) :
    attributeStep S (linkOf S index flags attrs) a = linkOf S index flags (attrs ++ [a]) := by
  rw [linkOf_concat]
  unfold attributeStep
  split
  · rename_i htype
    rw [attributeMac_none (by rw [htype]; decide), attributeOperstate_none (by rw [htype]; decide),
      attributeStatistics64_none S (by rw [htype]; decide), attributeStatistics_none S (by rw [htype]; decide)]
    by_cases hterminated : 0 ∈ attributePayload a
    · rw [if_pos hterminated, attributeName, if_pos ⟨htype, hterminated⟩]
      rfl
    · rw [if_neg hterminated, attributeName, if_neg fun hc => hterminated hc.2]
      rfl
  · rename_i hifname
    rw [attributeName_none hifname]
    split
    · rename_i htype
      rw [attributeOperstate_none (by rw [htype]; decide), attributeStatistics64_none S (by rw [htype]; decide),
        attributeStatistics_none S (by rw [htype]; decide)]
      by_cases hlong : 6 ≤ (attributePayload a).length
      · rw [if_pos hlong, attributeMac, if_pos ⟨htype, hlong⟩]
        rfl
      · rw [if_neg hlong, attributeMac, if_neg fun hc => hlong hc.2]
        rfl
    · rename_i haddress
      rw [attributeMac_none haddress]
      split
      · rename_i htype
        rw [attributeStatistics64_none S (by rw [htype]; decide), attributeStatistics_none S (by rw [htype]; decide)]
        by_cases hlong : 1 ≤ (attributePayload a).length
        · rw [if_pos hlong, attributeOperstate, if_pos ⟨htype, hlong⟩]
          rfl
        · rw [if_neg hlong, attributeOperstate, if_neg fun hc => hlong hc.2]
          rfl
      · rename_i hoperstate
        rw [attributeOperstate_none hoperstate]
        split
        · rename_i htype
          rw [attributeStatistics_none S (by rw [htype]; decide)]
          by_cases hlong : S.size64 ≤ (attributePayload a).length
          · rw [if_pos hlong, attributeStatistics64, if_pos ⟨htype, hlong⟩]
            rfl
          · rw [if_neg hlong, attributeStatistics64, if_neg fun hc => hlong hc.2]
            rfl
        · rename_i hstats64
          rw [attributeStatistics64_none S hstats64]
          split
          · rename_i htype
            -- The 32-bit counters do not replace 64-bit ones.
            cases hwide : lastOf (attributeStatistics64 S) attrs with
            | some counters =>
              rw [if_neg (by simp [linkOf, hwide])]
              simp [linkOf, linkCounters, hwide]
            | none =>
              by_cases hlong : S.size ≤ (attributePayload a).length
              · rw [if_pos ⟨by simp [linkOf, hwide], hlong⟩, attributeStatistics, if_pos ⟨htype, hlong⟩]
                simp [linkOf, hwide]
              · rw [if_neg fun hc => hlong hc.2, attributeStatistics, if_neg fun hc => hlong hc.2]
                simp [linkOf, linkCounters, hwide]
          · rename_i hstats
            rw [attributeStatistics_none S hstats]
            rfl

theorem foldl_attributeStep (S : LinkStatistics) (index flags : Nat) (attrs : List Record) :
    attrs.foldl (attributeStep S) {ifindex := positiveIndex index, flags, operstate := ifOperUnknown} =
      linkOf S index flags attrs := by
  induction attrs using List.reverseRecOn with
  | nil => rfl
  | append_singleton attrs a ih => rw [List.foldl_append, List.foldl_cons, List.foldl_nil, ih, attributeStep_linkOf]

/-! ### One message -/

def messageType (m : Record) : Nat := uintOf m 4 2
def messageSequence (m : Record) : Nat := uintOf m 8 4

/-- `NLM_F_DUMP_INTR`. -/
def interrupted (m : Record) : Bool := (uintOf m 6 2).testBit nlmFDumpIntr

/-- `IFF_LOOPBACK`, of a link message. -/
def loopback (m : Record) : Bool := (uintOf m 24 4).testBit iffLoopback

def messageLink (S : LinkStatistics) (m : Record) : LsmRouteLink :=
  linkOf S (uintOf m 20 4) (uintOf m 24 4) (attributes.records (m.drop 32))

/-- The record of a message, if it is one of a named link other than the loopback. -/
def linkRecord (S : LinkStatistics) (m : Record) : Option LsmRouteLink :=
  if messageType m = rtmNewlink ∧ 32 ≤ m.length ∧ loopback m = false ∧ (messageLink S m).name.text ≠ [] then
    some (messageLink S m)
  else none

def recordStep (S : LinkStatistics) (capacity : Nat) (d : Dump) (m : Record) : Dump × Bool :=
  if loopback m then (d, false)
  else if attributes.leftover (m.drop 32) ≠ 0 then ({d with failed := true}, true)
  else if (messageLink S m).name.text = [] then (d, false)
  else if capacity ≤ d.records.length then ({d with overflow := true}, false)
  else ({d with records := d.records ++ [messageLink S m]}, false)

def messageStep (S : LinkStatistics) (sequence capacity : Nat) (d : Dump) (m : Record) : Dump × Bool :=
  if messageSequence m ≠ sequence then (d, false)
  else if interrupted m then ({d with failed := true}, true)
  else if messageType m = nlmsgDone then ({d with complete := true}, true)
  else if messageType m = nlmsgError then
    if m.length < 36 then ({d with failed := true}, true)
    else (if uintOf m 16 4 ≠ 0 then {d with failed := true} else d, false)
  else if messageType m ≠ rtmNewlink ∨ m.length < 32 then (d, false)
  else recordStep S capacity d m

section Message
variable (S : LinkStatistics) {bytes : List UInt8} {offset length : Nat}

/-- The attributes of a message lie inside it. -/
theorem walk_attributes (hin : offset + length ≤ bytes.length) (hlong : 32 ≤ length) (index flags : Nat) :
    attributes.walk bytes (fun record i n => (applyRouteLinkAttribute S bytes record i n).map fun r => (r, false))
        (length + 1) {ifindex := positiveIndex index, flags, operstate := ifOperUnknown} (offset + 32)
        ((length - 32 : Nat) : Int) =
      some (linkOf S index flags (attributes.records (((bytes.drop offset).take length).drop 32)),
        attributes.leftover (((bytes.drop offset).take length).drop 32)) := by
  have hwindow : ((bytes.drop offset).take length).drop 32 = (bytes.drop (offset + 32)).take (length - 32) := by
    rw [List.drop_take, List.drop_drop]
  have hbody : ∀ (record : LsmRouteLink) i n, i + n ≤ bytes.length → attributes.header ≤ n →
      ((applyRouteLinkAttribute S bytes record i n).map fun r => (r, false)) =
        some (attributeStep S record ((bytes.drop i).take n), false) := by
    intro record i n hin hheader
    rw [applyRouteLinkAttribute_eq S record hin hheader, Option.map_some]
  obtain ⟨remaining, hwalk, hremaining⟩ := attributes.walk_eq (f := fun record a => (attributeStep S record a, false))
    hbody (length + 1) {ifindex := positiveIndex index, flags, operstate := ifOperUnknown} (offset + 32) (length - 32)
    (by omega) (by omega)
  rw [Framing.scan_foldl, foldl_attributeStep] at hwalk hremaining
  rw [hwalk, hremaining rfl, hwindow]

theorem routeLinkRecord_eq (capacity : Nat) (d : Dump) (hin : offset + length ≤ bytes.length) (hlong : 32 ≤ length) :
    routeLinkRecord S capacity bytes d offset length =
      some (recordStep S capacity d ((bytes.drop offset).take length)) := by
  unfold routeLinkRecord recordStep loopback
  rw [uintAt_record hin (by omega), Option.bind_some]
  split
  · rfl
  · rw [uintAt_record hin (by omega), Option.bind_some, walk_attributes S hin hlong, Option.map_some]
    rfl

theorem routeLinkMessage_eq (sequence capacity : Nat) (d : Dump) (hin : offset + length ≤ bytes.length)
    (hheader : 16 ≤ length) :
    routeLinkMessage S sequence capacity bytes d offset length =
      some (messageStep S sequence capacity d ((bytes.drop offset).take length)) := by
  have hlength : ((bytes.drop offset).take length).length = length := by
    rw [List.length_take, List.length_drop]
    omega
  unfold routeLinkMessage messageStep messageSequence interrupted messageType
  rw [hlength, uintAt_record hin (by omega), Option.bind_some]
  split
  · rfl
  · rw [uintAt_record hin (by omega), Option.bind_some]
    split
    · rfl
    · rw [uintAt_record hin (by omega), Option.bind_some]
      split
      · rfl
      · split
        · split
          · rfl
          · rename_i hlong
            rw [bytesAt_record hin (by omega), Option.map_some, uintOf_take _ (by omega)]
            simp only [uintOf, List.drop_drop]
            rfl
        · split
          · rfl
          · rename_i hlong
            exact routeLinkRecord_eq S capacity d hin (by omega)

end Message

/-- A datagram's messages, one after the other. -/
theorem walk_messages (S : LinkStatistics) (sequence capacity : Nat) (d : Dump) (bytes : List UInt8) :
    ∃ remaining, messages.walk bytes (routeLinkMessage S sequence capacity bytes) (bytes.length + 1) d 0
        (bytes.length : Int) =
      some ((Framing.scan (messageStep S sequence capacity) d (messages.records bytes)).1, remaining) := by
  have hbody : ∀ (d : Dump) i n, i + n ≤ bytes.length → messages.header ≤ n →
      routeLinkMessage S sequence capacity bytes d i n =
        some (messageStep S sequence capacity d ((bytes.drop i).take n)) :=
    fun d _ _ hin hheader => routeLinkMessage_eq S sequence capacity d hin hheader
  obtain ⟨remaining, hwalk, -⟩ := messages.walk_eq (f := messageStep S sequence capacity) hbody (bytes.length + 1) d 0 bytes.length (by omega) (by omega)
  rw [List.drop_zero, List.take_length] at hwalk
  exact ⟨remaining, hwalk⟩

/-! ### The whole dump -/

/-- What one message does. -/
theorem messageStep_cases (S : LinkStatistics) (sequence capacity : Nat) (d : Dump) (m : Record) :
    (messageSequence m ≠ sequence ∧ messageStep S sequence capacity d m = (d, false)) ∨
    (∃ leave, messageStep S sequence capacity d m = ({d with failed := true}, leave)) ∨
    (messageStep S sequence capacity d m = ({d with overflow := true}, false)) ∨
    (messageSequence m = sequence ∧ interrupted m = false ∧
      ((messageType m = nlmsgDone ∧ messageStep S sequence capacity d m = ({d with complete := true}, true)) ∨
        (messageType m ≠ nlmsgDone ∧ messageStep S sequence capacity d m =
          ({d with records := d.records ++ (linkRecord S m).toList}, false)))) := by
  unfold messageStep
  split
  · rename_i hstale
    exact Or.inl ⟨hstale, rfl⟩
  · rename_i hcurrent
    split
    · exact Or.inr (Or.inl ⟨true, rfl⟩)
    · rename_i hwhole
      have hcurrent := Decidable.not_not.mp hcurrent
      have hwhole := Bool.eq_false_of_not_eq_true hwhole
      have passed : messageType m ≠ nlmsgDone → linkRecord S m = none →
          messageSequence m = sequence ∧ interrupted m = false ∧
            ((messageType m = nlmsgDone ∧ (d, false) = ({d with complete := true}, true)) ∨
              (messageType m ≠ nlmsgDone ∧ (d, false) =
                ({d with records := d.records ++ (linkRecord S m).toList}, false))) := by
        intro hmore hnone
        rw [hnone, Option.toList_none, List.append_nil]
        exact ⟨hcurrent, hwhole, Or.inr ⟨hmore, rfl⟩⟩
      split
      · rename_i hdone
        exact Or.inr (Or.inr (Or.inr ⟨hcurrent, hwhole, Or.inl ⟨hdone, rfl⟩⟩))
      · rename_i hmore
        split
        · rename_i herror
          split
          · exact Or.inr (Or.inl ⟨true, rfl⟩)
          · split
            · exact Or.inr (Or.inl ⟨false, rfl⟩)
            · refine Or.inr (Or.inr (Or.inr (passed hmore (if_neg ?_))))
              rw [herror]
              exact fun hc => absurd hc.1 (by decide)
        · split
          · rename_i hother
            refine Or.inr (Or.inr (Or.inr (passed hmore (if_neg ?_))))
            intro hc
            rcases hother with htype | hshort
            · exact htype hc.1
            · omega
          · rename_i hlink
            have htype : messageType m = rtmNewlink := by
              by_contra htype
              exact hlink (Or.inl htype)
            have hlong : 32 ≤ m.length := by
              by_contra hlong
              exact hlink (Or.inr (by omega))
            unfold recordStep
            split
            · rename_i hloop
              exact Or.inr (Or.inr (Or.inr (passed hmore (if_neg fun hc => by simp [hloop] at hc))))
            · rename_i hloop
              split
              · exact Or.inr (Or.inl ⟨true, rfl⟩)
              · split
                · rename_i hunnamed
                  exact Or.inr (Or.inr (Or.inr (passed hmore (if_neg fun hc => hc.2.2.2 hunnamed))))
                · rename_i hnamed
                  split
                  · exact Or.inr (Or.inr (Or.inl rfl))
                  · have hrecord : linkRecord S m = some (messageLink S m) :=
                      if_pos ⟨htype, hlong, Bool.eq_false_of_not_eq_true hloop, hnamed⟩
                    refine Or.inr (Or.inr (Or.inr ⟨hcurrent, hwhole, Or.inr ⟨hmore, ?_⟩⟩))
                    rw [hrecord]
                    rfl

/-- The messages that answer the request. -/
def answering (sequence : Nat) (ms : List Record) : List Record :=
  ms.filter fun m => decide (messageSequence m = sequence)

theorem answering_append (sequence : Nat) (a b : List Record) :
    answering sequence (a ++ b) = answering sequence a ++ answering sequence b := List.filter_append ..

/-- Messages before the end of a dump that was not interrupted. -/
def Unbroken (before : List Record) : Prop := ∀ m ∈ before, messageType m ≠ nlmsgDone ∧ interrupted m = false

/-- The end of a dump. -/
def Ends (m : Record) : Prop := messageType m = nlmsgDone ∧ interrupted m = false

/-- The variables after these messages, as long as nothing has gone wrong. -/
def Progress (S : LinkStatistics) (sequence : Nat) (seen : List Record) (d : Dump) : Prop :=
  d.failed = false → d.overflow = false → ∃ before, Unbroken before ∧ d.records = before.filterMap (linkRecord S) ∧
    ((d.complete = false ∧ answering sequence seen = before) ∨
      (d.complete = true ∧ ∃ done, answering sequence seen = before ++ [done] ∧ Ends done))

theorem Progress.step {S : LinkStatistics} {sequence : Nat} {seen : List Record} {d : Dump}
    (h : Progress S sequence seen d) (hgoing : d.complete = false) (capacity : Nat) (m : Record) :
    Progress S sequence (seen ++ [m]) (messageStep S sequence capacity d m).1 := by
  intro hwhole hroom
  rcases messageStep_cases S sequence capacity d m with ⟨hstale, hstep⟩ | ⟨leave, hstep⟩ | hstep |
    ⟨hcurrent, hunbroken, ⟨hdone, hstep⟩ | ⟨hmore, hstep⟩⟩
  · rw [hstep] at hwhole hroom ⊢
    have hsame : answering sequence (seen ++ [m]) = answering sequence seen := by
      rw [answering_append]
      simp [answering, hstale]
    rw [hsame]
    exact h hwhole hroom
  · rw [hstep] at hwhole
    cases hwhole
  · rw [hstep] at hroom
    cases hroom
  all_goals
    rw [hstep] at hwhole hroom ⊢
    have hadded : answering sequence (seen ++ [m]) = answering sequence seen ++ [m] := by
      rw [answering_append]
      simp [answering, hcurrent]
    obtain ⟨before, hbefore, hrecords, ⟨-, hseen⟩ | ⟨hover, -⟩⟩ := h hwhole hroom
  · exact ⟨before, hbefore, hrecords, Or.inr ⟨rfl, m, by rw [hadded, hseen], hdone, hunbroken⟩⟩
  · rw [hgoing] at hover
    cases hover
  · refine ⟨before ++ [m], ?_, ?_, Or.inl ⟨hgoing, by rw [hadded, hseen]⟩⟩
    · intro x hx
      rcases List.mem_append.mp hx with hold | hnew
      · exact hbefore x hold
      · rw [List.mem_singleton.mp hnew]
        exact ⟨hmore, hunbroken⟩
    · rw [List.filterMap_append, ← hrecords]
      cases hrecord : linkRecord S m with
      | none => simp [hrecord]
      | some link => simp [hrecord]
  · rw [hgoing] at hover
    cases hover

/-- The loop is left with one of the two flags up, and not left with `complete` up. -/
theorem messageStep_left (S : LinkStatistics) (sequence capacity : Nat) (d : Dump) (hgoing : d.complete = false)
    (m : Record) :
    if (messageStep S sequence capacity d m).2 then
      (messageStep S sequence capacity d m).1.complete = true ∨ (messageStep S sequence capacity d m).1.failed = true
    else (messageStep S sequence capacity d m).1.complete = false := by
  rcases messageStep_cases S sequence capacity d m with ⟨-, hstep⟩ | ⟨leave, hstep⟩ | hstep |
    ⟨-, -, ⟨-, hstep⟩ | ⟨-, hstep⟩⟩
  all_goals rw [hstep]
  · exact hgoing
  · cases leave with
    | true => exact Or.inr rfl
    | false => exact hgoing
  · exact hgoing
  · exact Or.inl rfl
  · exact hgoing

/-- A datagram: the messages looked at are all, unless a flag is up. -/
theorem Progress.scan {S : LinkStatistics} {sequence : Nat} (capacity : Nat) {seen : List Record} {d : Dump}
    (h : Progress S sequence seen d) (hgoing : d.complete = false) (ms : List Record) :
    ∃ looked, looked <+: ms ∧
      Progress S sequence (seen ++ looked) (Framing.scan (messageStep S sequence capacity) d ms).1 ∧
      ((Framing.scan (messageStep S sequence capacity) d ms).1.complete = false →
        (Framing.scan (messageStep S sequence capacity) d ms).1.failed = false → looked = ms) := by
  induction ms generalizing d seen with
  | nil => exact ⟨[], List.nil_prefix, by rwa [List.append_nil], fun _ _ => rfl⟩
  | cons m rest ih =>
    have hstep := h.step hgoing capacity m
    have hleft := messageStep_left S sequence capacity d hgoing m
    unfold Framing.scan
    split
    · rename_i next hnext
      rw [hnext] at hstep hleft
      refine ⟨[m], List.prefix_append [m] rest, hstep, ?_⟩
      intro hincomplete hwhole
      rcases hleft with hcomplete | hfailed
      · exact absurd (hcomplete.symm.trans hincomplete) (by decide)
      · exact absurd (hfailed.symm.trans hwhole) (by decide)
    · rename_i next hnext
      rw [hnext] at hstep hleft
      obtain ⟨looked, hprefix, hprogress, hall⟩ := ih hstep hleft
      refine ⟨m :: looked, List.prefix_cons_inj m |>.mpr hprefix, ?_, ?_⟩
      · rw [List.append_assoc, List.singleton_append] at hprogress
        exact hprogress
      · intro hincomplete hwhole
        rw [hall hincomplete hwhole]

/-- The messages of what was received. -/
def receivedMessages : Received → List Record
  | .failed _ => []
  | .datagram bytes _ => messages.records bytes

theorem Progress.failed {S : LinkStatistics} {sequence : Nat} {seen : List Record} (d : Dump) :
    Progress S sequence seen {d with failed := true} := fun hwhole => absurd hwhole (by simp)

/-- The dump reads inside the bytes, ends, and has looked at a first part of the messages. -/
theorem Progress.receive {S : LinkStatistics} {sequence : Nat} (capacity : Nat) {seen : List Record} {d : Dump}
    (h : Progress S sequence seen d) (hgoing : d.complete = false) (received : List Received) :
    ∃ result looked, routeLinkReceive S sequence capacity d received = some result ∧
      looked <+: received.flatMap receivedMessages ∧ Progress S sequence (seen ++ looked) result := by
  induction received generalizing d seen with
  | nil => exact ⟨_, [], rfl, List.nil_prefix, .failed d⟩
  | cons outcome rest ih =>
    cases outcome with
    | failed errno =>
      unfold routeLinkReceive
      split
      · exact ih h hgoing
      · exact ⟨_, [], rfl, List.nil_prefix, .failed d⟩
    | datagram bytes truncated =>
      unfold routeLinkReceive
      split
      · exact ⟨_, [], rfl, List.nil_prefix, .failed d⟩
      · obtain ⟨remaining, hwalk⟩ := walk_messages S sequence capacity d bytes
        obtain ⟨looked, hprefix, hprogress, hall⟩ := h.scan capacity hgoing (messages.records bytes)
        rw [hwalk, Option.bind_some]
        simp only
        have hlooked : looked <+: List.flatMap receivedMessages (.datagram bytes truncated :: rest) := by
          rw [List.flatMap_cons]
          exact hprefix.trans (List.prefix_append ..)
        split
        · rw [if_pos (by simp)]
          exact ⟨_, looked, rfl, hlooked, .failed _⟩
        · split
          · exact ⟨_, looked, rfl, hlooked, hprogress⟩
          · rename_i hgoingOn
            simp only [Bool.or_eq_true, not_or, Bool.not_eq_true] at hgoingOn
            obtain ⟨result, more, hresult, hmore, hend⟩ := ih hprogress hgoingOn.1
            refine ⟨result, looked ++ more, hresult, ?_, ?_⟩
            · rw [List.flatMap_cons, hall hgoingOn.1 hgoingOn.2]
              exact (List.prefix_append_right_inj _).mpr hmore
            · rw [← List.append_assoc]
              exact hend

/-- The call returns false, or the loop ended with `complete` up and nothing wrong. -/
theorem routeLinkDump_cases (S : LinkStatistics) (sources : LsmSystemSources) (capacity : Nat) (sent : Bool)
    (received : List Received) :
    ∃ after dump, routeLinkDump S sources capacity sent received = some (after, dump) ∧
      ((dump.returned = false ∧ dump.outCount = 0) ∨
        (dump.returned = true ∧ dump.outCount = dump.records.length ∧
          ∃ d looked, looked <+: received.flatMap receivedMessages ∧ d.records = dump.records ∧ d.complete = true ∧
            d.failed = false ∧ d.overflow = false ∧
            Progress S ((sources.networkSequence + 1) % 2 ^ 32) looked d)) := by
  unfold routeLinkDump
  split
  · exact ⟨_, _, rfl, Or.inl ⟨rfl, rfl⟩⟩
  · simp only
    split
    · exact ⟨_, _, rfl, Or.inl ⟨rfl, rfl⟩⟩
    · have hstart : Progress S ((sources.networkSequence + 1) % 2 ^ 32) [] {} :=
        fun _ _ => ⟨[], fun _ h => absurd h List.not_mem_nil, rfl, Or.inl ⟨rfl, rfl⟩⟩
      obtain ⟨d, looked, hreceive, hprefix, hprogress⟩ := hstart.receive capacity rfl received
      rw [hreceive, Option.map_some]
      split
      · exact ⟨_, _, rfl, Or.inl ⟨rfl, rfl⟩⟩
      · rename_i hgood
        simp only [Bool.or_eq_true, not_or, Bool.not_eq_true, Bool.not_eq_false'] at hgood
        obtain ⟨⟨hcomplete, hwhole⟩, hroom⟩ := hgood
        rw [List.nil_append] at hprogress
        exact ⟨_, _, rfl, Or.inr ⟨rfl, rfl, d, looked, hprefix, rfl, hcomplete, hwhole, hroom, hprogress⟩⟩

/-- The records of a dump are those of named links. -/
theorem routeLinkDump_records {S : LinkStatistics} {sources after : LsmSystemSources} {capacity : Nat} {sent : Bool}
    {received : List Received} {dump : LinkDump}
    (h : routeLinkDump S sources capacity sent received = some (after, dump)) (hreturned : dump.returned = true)
    {link : LsmRouteLink} (hlink : link ∈ dump.records) : ∃ m, linkRecord S m = some link := by
  obtain ⟨after', dump', hdump, hcases⟩ := routeLinkDump_cases S sources capacity sent received
  rw [hdump] at h
  cases h
  rcases hcases with ⟨hfalse, -⟩ | ⟨-, -, d, looked, -, hsame, -, hwhole, hroom, hprogress⟩
  · rw [hreturned] at hfalse
    cases hfalse
  · obtain ⟨before, -, hrecords, -⟩ := hprogress hwhole hroom
    rw [← hsame, hrecords] at hlink
    obtain ⟨m, -, hm⟩ := List.mem_filterMap.mp hlink
    exact ⟨m, hm⟩

/-- **A dump is whole or nothing.** Whatever the datagrams hold, every read is
inside the received bytes and every walk ends. The call returns false and a
count of zero; or the messages with its sequence number begin with some that are
neither the end nor interrupted, then comes their end, and the records are, in
order, those of the named links among the first. -/
theorem route_link_dump_integrity (S : LinkStatistics) (sources : LsmSystemSources) (capacity : Nat) (sent : Bool)
    (received : List Received) :
    ∃ after dump, routeLinkDump S sources capacity sent received = some (after, dump) ∧
      ((dump.returned = false ∧ dump.outCount = 0) ∨
        (dump.returned = true ∧ dump.outCount = dump.records.length ∧
          ∃ before done rest, answering ((sources.networkSequence + 1) % 2 ^ 32)
              (received.flatMap receivedMessages) = before ++ done :: rest ∧ Unbroken before ∧ Ends done ∧
            dump.records = before.filterMap (linkRecord S))) := by
  obtain ⟨after, dump, hdump, hcases⟩ := routeLinkDump_cases S sources capacity sent received
  refine ⟨after, dump, hdump, hcases.imp_right fun h => ?_⟩
  obtain ⟨hreturned, hcount, d, looked, ⟨rest, hprefix⟩, hsame, hcomplete, hwhole, hroom, hprogress⟩ := h
  refine ⟨hreturned, hcount, ?_⟩
  obtain ⟨before, hbefore, hrecords, ⟨hincomplete, -⟩ | ⟨-, done, hseen, hdone⟩⟩ := hprogress hwhole hroom
  · rw [hcomplete] at hincomplete
    cases hincomplete
  · refine ⟨before, done, answering ((sources.networkSequence + 1) % 2 ^ 32) rest, ?_, hbefore, hdone,
      hsame.symm.trans hrecords⟩
    rw [← hprefix, answering_append, hseen, List.append_assoc, List.singleton_append]

/-- One link, and the end. -/
example :
    (routeLinkDump ⟨96, 200, by decide, by decide⟩ ⟨3, 4, 0⟩ 64 true [.datagram
      [40, 0, 0, 0, 16, 0, 2, 0, 1, 0, 0, 0, 0, 0, 0, 0, 0, 0, 1, 0, 2, 0, 0, 0, 67, 16, 0, 0, 0, 0, 0, 0,
        6, 0, 3, 0, 101, 0, 0, 0, 20, 0, 0, 0, 3, 0, 2, 0, 1, 0, 0, 0, 0, 0, 0, 0, 0, 0, 0, 0] false]).map
      (fun r => (r.2.returned, r.2.records.map fun link => (link.name.text, link.ifindex))) =
    some (true, [([101], 2)]) := by decide

end SystemMonitor.Sources
