import SystemMonitor.Lib.Decimal
import SystemMonitor.Sources.LinkDump
import SystemMonitor.Storage.Networks

/-! The interfaces that the system sources list and count, and what tells one
interface from another.

Both calls dump the links over rtnetlink and fall back to the class directory of
sysfs. An interface's instance identity is a text made of what could be read of
it. `identity_inj`: interfaces with one identity are `Alike`, so the identity is
as good as the index, the address and the name it was made of. -/
namespace SystemMonitor.Storage
open Lib Sources

def lsmIdentityLen : Nat := 512

/-! ### The instance identity -/

def networkMacIdentityUsable (mac : Text) : Bool := decide (mac ≠ [] ∧ mac ≠ ascii "00:00:00:00:00:00")

def networkInstanceIdentity (ifindex : Nat) (name mac : Text) : Text :=
  let paired := ascii "ifindex:" ++ Decimal.print ifindex ++ ascii "|mac:" ++ mac
  let indexed := ascii "ifindex:" ++ Decimal.print ifindex
  let addressed := ascii "mac:" ++ mac
  if 0 < ifindex ∧ networkMacIdentityUsable mac ∧ paired.length < lsmIdentityLen then paired
  else if 0 < ifindex ∧ indexed.length < lsmIdentityLen then indexed
  else if networkMacIdentityUsable mac ∧ addressed.length < lsmIdentityLen then addressed
  else if name ≠ [] then (ascii "name:" ++ name).take (lsmIdentityLen - 1)
  else []

/-- The C string in a buffer, copied. -/
def copied {n : Nat} (buffer : Text) : Chars n := .copyString (terminated buffer) (terminated_nulFree buffer)

/-- What is read of an interface: its index, 0 when it is not known, its name and
its address. -/
structure Interface where
  ifindex : Nat
  name : Text
  mac : Text
  deriving DecidableEq

def Interface.identity (interface : Interface) : Identity :=
  copied (networkInstanceIdentity interface.ifindex interface.name interface.mac)

/-! ### The listings -/

/-- A class directory of sysfs: the index is read with `network_ifindex_sysfs`, and
`address` is what is in the buffer after the file was read. -/
structure SysfsInterface where
  name : Chars 256
  named : name.text ≠ []
  address : Chars 32
  ifindex : Option Nat
  rxBytes : Option Nat
  txBytes : Option Nat

def networkIfindexSysfs (entry : SysfsInterface) : Nat :=
  match entry.ifindex with
  | none => 0
  | some value => if value = 0 ∨ uintMax < value then 0 else value

def SysfsInterface.interface (entry : SysfsInterface) : Interface :=
  ⟨networkIfindexSysfs entry, entry.name.text, entry.address.text⟩

/-- Neither hidden nor the loopback. -/
def SysfsInterface.listed (entry : SysfsInterface) : Bool :=
  !(decide (entry.name.text.head? = some 46) || decide (entry.name.text = ascii "lo"))

/-- What reading `/sys/class/net` gave, if it could be opened. -/
structure NetDirectory where
  entries : List SysfsInterface
  readOk : Bool
  closeOk : Bool

/-- What the device directories and the wireless driver say of a name. -/
structure InterfaceDetails where
  product : Chars 128
  vendor : Chars 128
  wireless : Bool

def networkRecord (details : Name → InterfaceDetails) (interface : Interface) : LsmNetworkRecord where
  name := copied interface.name
  instanceIdentity := interface.identity
  mac := copied interface.mac
  product := (details (copied interface.name)).product
  vendor := (details (copied interface.name)).vendor
  wireless := (details (copied interface.name)).wireless

def listNetworksSysfsChecked (details : Name → InterfaceDetails) (directory : Option NetDirectory) : Option Networks :=
  match directory with
  | none => none
  | some directory =>
    let found := directory.entries.filter SysfsInterface.listed
    if h : directory.readOk = true ∧ directory.closeOk = true ∧ found.length ≤ lsmMaxNets then
      some ⟨found.map fun entry => networkRecord details entry.interface, by simpa using h.2.2⟩
    else none

def routeInterface (link : LsmRouteLink) : Interface := ⟨link.ifindex, link.name.text, link.mac⟩

/-- With the sources after it, and `none` where a walk left the datagrams. -/
def lsmSourcesListNetworksChecked (S : LinkStatistics) (details : Name → InterfaceDetails) (sources : LsmSystemSources)
    (sent : Bool) (received : List Received) (directory : Option NetDirectory) :
    Option (LsmSystemSources × Option Networks) :=
  if sources.networkRequestFd < 0 then some (sources, listNetworksSysfsChecked details directory)
  else
    (routeLinkDump S sources lsmMaxNets sent received).map fun (after, dump) =>
      if !dump.returned then (after, listNetworksSysfsChecked details directory)
      else if h : dump.records.length ≤ lsmMaxNets then
        (after, some ⟨dump.records.map fun link => networkRecord details (routeInterface link), by simpa using h⟩)
      else (after, none)

def networkCounterRecord (interface : Interface) (rxBytes txBytes : Nat) : LsmNetworkCounterRecord where
  name := copied interface.name
  instanceIdentity := interface.identity
  rxBytes := rxBytes
  txBytes := txBytes

/-- An entry is counted when both files could be read. -/
def SysfsInterface.counters (entry : SysfsInterface) : Option LsmNetworkCounterRecord :=
  if entry.listed then
    entry.rxBytes.bind fun rxBytes => entry.txBytes.map (networkCounterRecord entry.interface rxBytes)
  else none

def networkCountersSysfsChecked (directory : Option NetDirectory) : Option (List LsmNetworkCounterRecord) :=
  match directory with
  | none => none
  | some directory =>
    let found := directory.entries.filterMap SysfsInterface.counters
    if directory.readOk && directory.closeOk && decide (found.length ≤ lsmMaxNets) then some found else none

def lsmSourcesReadNetworkCountersChecked (S : LinkStatistics) (sources : LsmSystemSources) (sent : Bool)
    (received : List Received) (directory : Option NetDirectory) :
    Option (LsmSystemSources × Option (List LsmNetworkCounterRecord)) :=
  if sources.networkRequestFd < 0 then some (sources, networkCountersSysfsChecked directory)
  else
    (routeLinkDump S sources lsmMaxNets sent received).map fun (after, dump) =>
      if !dump.returned then (after, networkCountersSysfsChecked directory)
      else
        let counted := dump.records.filter (·.countersAvailable)
        if lsmMaxNets < counted.length then (after, none)
        else (after, some (counted.map fun link => networkCounterRecord (routeInterface link) link.rxBytes link.txBytes))

/-! ### What an identity tells -/

/-- The sizes of the buffers, and that every interface has a name. -/
structure Interface.Sound (interface : Interface) : Prop where
  index : interface.ifindex ≤ uintMax
  named : interface.name ≠ []
  name : interface.name.length < 256
  nameNul : 0 ∉ interface.name
  mac : interface.mac.length < 32
  macNul : 0 ∉ interface.mac

/-- One index and one usable address; where there is neither, one name. -/
def Alike (a b : Interface) : Prop :=
  a.ifindex = b.ifindex ∧ networkMacIdentityUsable a.mac = networkMacIdentityUsable b.mac ∧
    (networkMacIdentityUsable a.mac = true → a.mac = b.mac) ∧
    (a.ifindex = 0 → networkMacIdentityUsable a.mac = false → a.name = b.name)

instance (a b : Interface) : Decidable (Alike a b) := inferInstanceAs (Decidable (_ ∧ _ ∧ (_ → _) ∧ (_ → _ → _)))

theorem copied_text {n : Nat} {buffer : Text} (hnul : 0 ∉ buffer) (hfits : buffer.length ≤ n - 1) :
    (copied buffer : Chars n).text = buffer := by
  have hterminated : terminated buffer = buffer := by
    rw [terminated, List.takeWhile_eq_self_iff]
    intro b hb
    simp only [decide_eq_true_eq]
    exact fun hzero => hnul (hzero ▸ hb)
  change (terminated buffer).take (n - 1) = buffer
  rw [hterminated, List.take_of_length_le hfits]

theorem print_nulFree (n : Nat) : (0 : UInt8) ∉ Decimal.print n := fun h => absurd (Decimal.mem_print h) (by decide)

/-- What follows the index. -/
def macSuffix (mac : Text) : Text := if networkMacIdentityUsable mac then ascii "|mac:" ++ mac else []

/-- With all that is read of it within its buffer, nothing is left out. -/
theorem identity_text {interface : Interface} (h : interface.Sound) : interface.identity.text =
    if 0 < interface.ifindex then ascii "ifindex:" ++ (Decimal.print interface.ifindex ++ macSuffix interface.mac)
    else if networkMacIdentityUsable interface.mac then ascii "mac:" ++ interface.mac
    else ascii "name:" ++ interface.name := by
  obtain ⟨hindex, hnamed, hname, hnameNul, hmac, hmacNul⟩ := h
  have hdigits : (Decimal.print interface.ifindex).length ≤ 10 :=
    Decimal.length_print (by decide) (Nat.lt_of_le_of_lt hindex (by decide))
  have hifindex : (ascii "ifindex:").length = 8 := by decide
  have hbar : (ascii "|mac:").length = 5 := by decide
  have hmacPrefix : (ascii "mac:").length = 4 := by decide
  have hnamePrefix : (ascii "name:").length = 5 := by decide
  unfold Interface.identity networkInstanceIdentity macSuffix
  by_cases hpositive : 0 < interface.ifindex <;>
    by_cases husable : networkMacIdentityUsable interface.mac = true <;>
    simp only [hpositive, husable, hnamed, true_and, false_and, if_true, if_false, ne_eq, not_false_eq_true,
      List.length_append, hifindex, hbar, hmacPrefix, lsmIdentityLen, Bool.false_eq_true]
  · rw [if_pos (by omega), copied_text]
    · simp only [List.append_assoc]
    · simp [hmacNul, print_nulFree, ascii]
    · simp only [List.length_append, hifindex, hbar]
      omega
  · rw [if_pos (by omega), copied_text, List.append_nil]
    · simp [print_nulFree, ascii]
    · simp only [List.length_append, hifindex]
      omega
  · rw [if_pos (by omega), copied_text]
    · simp [hmacNul, ascii]
    · simp only [List.length_append, hmacPrefix]
      omega
  · rw [List.take_of_length_le (by simp only [List.length_append, hnamePrefix]; omega), copied_text]
    · simp [hnameNul, ascii]
    · simp only [List.length_append, hnamePrefix]
      omega

theorem identity_ne_nil {interface : Interface} (h : interface.Sound) : interface.identity.text ≠ [] := by
  rw [identity_text h]
  split
  · simp [ascii]
  · split <;> simp [ascii]

/-- A numeral ends where something else than a digit stands. -/
theorem print_append_inj {a b : Nat} {s t : Text} (hs : ∀ x ∈ s.head?, Decimal.isDigit x = false)
    (ht : ∀ x ∈ t.head?, Decimal.isDigit x = false) (h : Decimal.print a ++ s = Decimal.print b ++ t) :
    a = b ∧ s = t := by
  have hdigits : ∀ (n : Nat) {rest : Text}, (∀ x ∈ rest.head?, Decimal.isDigit x = false) →
      (Decimal.print n ++ rest).takeWhile Decimal.isDigit = Decimal.print n := by
    intro n rest hrest
    rw [List.takeWhile_append_of_pos fun x hx => Decimal.mem_print hx]
    cases rest with
    | nil => simp
    | cons x rest => simp [hrest x rfl]
  have hprint : Decimal.print a = Decimal.print b := by rw [← hdigits a hs, h, hdigits b ht]
  refine ⟨Option.some.inj ?_, ?_⟩
  · rw [← Decimal.parse_print, hprint, Decimal.parse_print]
  · rw [hprint] at h
    exact List.append_cancel_left h

theorem macSuffix_head (mac : Text) : ∀ x ∈ (macSuffix mac).head?, Decimal.isDigit x = false := by
  unfold macSuffix
  split
  · simp [ascii]
    decide
  · simp

theorem macSuffix_inj {a b : Text} (h : macSuffix a = macSuffix b) :
    networkMacIdentityUsable a = networkMacIdentityUsable b ∧ (networkMacIdentityUsable a = true → a = b) := by
  unfold macSuffix at h
  split at h <;> split at h
  · rename_i ha hb
    exact ⟨ha.trans hb.symm, fun _ => List.append_cancel_left h⟩
  · simp [ascii] at h
  · simp [ascii] at h
  · rename_i ha hb
    simp only [Bool.not_eq_true] at ha hb
    exact ⟨ha.trans hb.symm, fun husable => absurd (ha.symm.trans husable) (by decide)⟩

/-- **An identity is as good as what it was made of.** -/
theorem identity_inj {a b : Interface} (ha : a.Sound) (hb : b.Sound) (h : a.identity = b.identity) : Alike a b := by
  have htext := congrArg Chars.text h
  rw [identity_text ha, identity_text hb] at htext
  by_cases hpa : 0 < a.ifindex <;> by_cases hpb : 0 < b.ifindex
  · rw [if_pos hpa, if_pos hpb] at htext
    obtain ⟨hindex, hsuffix⟩ :=
      print_append_inj (macSuffix_head a.mac) (macSuffix_head b.mac) (List.append_cancel_left htext)
    obtain ⟨husable, hmac⟩ := macSuffix_inj hsuffix
    exact ⟨hindex, husable, hmac, fun hzero => absurd hpa (by omega)⟩
  · rw [if_pos hpa, if_neg hpb] at htext
    split at htext <;> simp [ascii] at htext
  · rw [if_neg hpa, if_pos hpb] at htext
    split at htext <;> simp [ascii] at htext
  · rw [if_neg hpa, if_neg hpb] at htext
    have hindex : a.ifindex = b.ifindex := by omega
    split at htext <;> split at htext
    · rename_i hua hub
      exact ⟨hindex, hua.trans hub.symm, fun _ => List.append_cancel_left htext, fun _ hu => by simp [hu] at hua⟩
    · simp [ascii] at htext
    · simp [ascii] at htext
    · rename_i hua hub
      simp only [Bool.not_eq_true] at hua hub
      exact ⟨hindex, hua.trans hub.symm, fun hu => by simp [hu] at hua, fun _ _ => List.append_cancel_left htext⟩

/-! ### The interfaces are sound -/

theorem SysfsInterface.sound (entry : SysfsInterface) : entry.interface.Sound where
  index := by
    simp only [SysfsInterface.interface, networkIfindexSysfs]
    split
    · exact Nat.zero_le _
    · split
      · exact Nat.zero_le _
      · omega
  named := entry.named
  name := Nat.lt_of_le_of_lt entry.name.fits (by decide)
  nameNul := entry.name.nulFree
  mac := Nat.lt_of_le_of_lt entry.address.fits (by decide)
  macNul := entry.address.nulFree

theorem hexByte_nulFree (b : UInt8) : (0 : UInt8) ∉ Sources.hexByte b := by
  have hdigit : ∀ n : Fin 16, hexDigit n ≠ 0 := by decide
  have hlow := hdigit ⟨b.toNat % 16, Nat.mod_lt _ (by decide)⟩
  have hhigh := hdigit ⟨b.toNat / 16, Nat.div_lt_of_lt_mul b.toNat_lt⟩
  simp only [Sources.hexByte, List.mem_cons, List.not_mem_nil, or_false, not_or]
  exact ⟨hhigh.symm, hlow.symm⟩

theorem formatMac_sound {bytes : List UInt8} (h : 6 ≤ bytes.length) :
    (formatMac bytes).length < 32 ∧ (0 : UInt8) ∉ formatMac bytes := by
  match bytes, h with
  | a :: b :: c :: d :: e :: f :: rest, _ =>
    have hmac : formatMac (a :: b :: c :: d :: e :: f :: rest) =
        Sources.hexByte a ++ 58 :: (Sources.hexByte b ++ 58 :: (Sources.hexByte c ++ 58 :: (Sources.hexByte d ++ 58 ::
          (Sources.hexByte e ++ 58 :: Sources.hexByte f)))) := by
      simp [formatMac, List.intercalate]
    rw [hmac]
    refine ⟨by simp [Sources.hexByte], ?_⟩
    simp [hexByte_nulFree]

theorem routeInterface_sound {S : LinkStatistics} {m : Record} {link : LsmRouteLink} (h : linkRecord S m = some link) :
    (routeInterface link).Sound := by
  unfold linkRecord at h
  split at h
  · rename_i hnamed
    cases h
    have hmac : ((messageLink S m).mac).length < 32 ∧ (0 : UInt8) ∉ (messageLink S m).mac := by
      simp only [messageLink, linkOf]
      cases hlast : lastOf attributeMac (attributes.records (m.drop 32)) with
      | none => exact ⟨by decide, List.not_mem_nil⟩
      | some mac =>
        obtain ⟨a, -, ha⟩ := exists_of_lastOf hlast
        unfold attributeMac at ha
        split at ha
        · rename_i hkind
          cases ha
          exact formatMac_sound hkind.2
        · cases ha
    refine ⟨?_, hnamed.2.2.2, Nat.lt_of_le_of_lt (messageLink S m).name.fits (by decide),
      (messageLink S m).name.nulFree, hmac.1, hmac.2⟩
    simp only [routeInterface, messageLink, linkOf, positiveIndex, uintMax]
    split <;> omega
  · cases h

/-! ### What is listed and what is counted -/

def directoryInterfaces (directory : Option NetDirectory) : List Interface :=
  match directory with
  | none => []
  | some directory => (directory.entries.filter SysfsInterface.listed).map SysfsInterface.interface

/-- The interfaces that a listing reads. -/
def interfaces (S : LinkStatistics) (sources : LsmSystemSources) (sent : Bool) (received : List Received)
    (directory : Option NetDirectory) : List Interface :=
  if sources.networkRequestFd < 0 then directoryInterfaces directory
  else
    match routeLinkDump S sources lsmMaxNets sent received with
    | none => []
    | some (_, dump) => if dump.returned then dump.records.map routeInterface else directoryInterfaces directory

theorem sound_of_directory {directory : Option NetDirectory} {interface : Interface}
    (h : interface ∈ directoryInterfaces directory) : interface.Sound := by
  cases directory with
  | none => cases h
  | some directory =>
    obtain ⟨entry, -, rfl⟩ := List.mem_map.mp h
    exact entry.sound

theorem records_of_sysfs {details : Name → InterfaceDetails} {directory : Option NetDirectory} {networks : Networks}
    (h : listNetworksSysfsChecked details directory = some networks) :
    networks.records = (directoryInterfaces directory).map (networkRecord details) := by
  cases directory with
  | none => cases h
  | some directory =>
    simp only [listNetworksSysfsChecked] at h
    split at h
    · cases h
      rw [directoryInterfaces, List.map_map]
      rfl
    · cases h

section Listings
variable {S : LinkStatistics} {sources after : LsmSystemSources} {sent : Bool} {received : List Received}
  {directory : Option NetDirectory}

theorem sound_of_interfaces {interface : Interface} (h : interface ∈ interfaces S sources sent received directory) :
    interface.Sound := by
  unfold interfaces at h
  split at h
  · exact sound_of_directory h
  · split at h
    · cases h
    · rename_i hdump
      split at h
      · rename_i hreturned
        obtain ⟨link, hlink, rfl⟩ := List.mem_map.mp h
        obtain ⟨m, hm⟩ := routeLinkDump_records hdump hreturned hlink
        exact routeInterface_sound hm
      · exact sound_of_directory h

/-- The records of a listing are those of its interfaces. -/
theorem records_of_listing {details : Name → InterfaceDetails} {networks : Networks}
    (h : lsmSourcesListNetworksChecked S details sources sent received directory = some (after, some networks)) :
    networks.records = (interfaces S sources sent received directory).map (networkRecord details) := by
  unfold lsmSourcesListNetworksChecked at h
  unfold interfaces
  split at h
  · rename_i hsocket
    rw [if_pos hsocket]
    exact records_of_sysfs (Prod.mk.inj (Option.some.inj h)).2
  · rename_i hsocket
    rw [if_neg hsocket]
    obtain ⟨⟨after', dump⟩, hdump, h⟩ := Option.map_eq_some_iff.mp h
    simp only [hdump]
    simp only at h
    split at h
    · rename_i hfailed
      rw [if_neg (by simpa using hfailed)]
      exact records_of_sysfs (Prod.mk.inj h).2
    · rename_i hreturned
      rw [if_pos (by simpa using hreturned)]
      split at h
      · cases h
        rw [List.map_map]
        rfl
      · cases h

theorem identified_of_sysfs {records : List LsmNetworkCounterRecord}
    (h : networkCountersSysfsChecked directory = some records) :
    ∀ record ∈ records, record.instanceIdentity.text ≠ [] := by
  cases directory with
  | none => cases h
  | some directory =>
    simp only [networkCountersSysfsChecked] at h
    split at h
    · cases h
      intro record hrecord
      obtain ⟨entry, -, hentry⟩ := List.mem_filterMap.mp hrecord
      unfold SysfsInterface.counters at hentry
      split at hentry
      · obtain ⟨rx, -, htx⟩ := Option.bind_eq_some_iff.mp hentry
        obtain ⟨tx, -, rfl⟩ := Option.map_eq_some_iff.mp htx
        exact identity_ne_nil entry.sound
      · cases hentry
    · cases h

/-- Every counted interface has an identity. -/
theorem identified_of_reading {records : List LsmNetworkCounterRecord}
    (h : lsmSourcesReadNetworkCountersChecked S sources sent received directory = some (after, some records)) :
    ∀ record ∈ records, record.instanceIdentity.text ≠ [] := by
  unfold lsmSourcesReadNetworkCountersChecked at h
  split at h
  · exact identified_of_sysfs (Prod.mk.inj (Option.some.inj h)).2
  · obtain ⟨⟨after', dump⟩, hdump, h⟩ := Option.map_eq_some_iff.mp h
    simp only at h
    split at h
    · exact identified_of_sysfs (Prod.mk.inj h).2
    · rename_i hreturned
      split at h
      · cases h
      · cases h
        intro record hrecord
        obtain ⟨link, hlink, rfl⟩ := List.mem_map.mp hrecord
        obtain ⟨m, hm⟩ := routeLinkDump_records hdump (by simpa using hreturned) (List.mem_of_mem_filter hlink)
        exact identity_ne_nil (routeInterface_sound hm)

/-- The calls read within the datagrams: a listing and a reading are never stuck. -/
theorem exists_listing (S : LinkStatistics) (details : Name → InterfaceDetails) (sources : LsmSystemSources) (sent : Bool)
    (received : List Received) (directory : Option NetDirectory) :
    ∃ result, lsmSourcesListNetworksChecked S details sources sent received directory = some result := by
  unfold lsmSourcesListNetworksChecked
  split
  · exact ⟨_, rfl⟩
  · obtain ⟨after, dump, hdump, -⟩ := routeLinkDump_cases S sources lsmMaxNets sent received
    rw [hdump]
    exact ⟨_, rfl⟩

theorem exists_reading (S : LinkStatistics) (sources : LsmSystemSources) (sent : Bool) (received : List Received)
    (directory : Option NetDirectory) :
    ∃ result, lsmSourcesReadNetworkCountersChecked S sources sent received directory = some result := by
  unfold lsmSourcesReadNetworkCountersChecked
  split
  · exact ⟨_, rfl⟩
  · obtain ⟨after, dump, hdump, -⟩ := routeLinkDump_cases S sources lsmMaxNets sent received
    rw [hdump]
    exact ⟨_, rfl⟩

end Listings

end SystemMonitor.Storage
