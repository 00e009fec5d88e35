import SystemMonitor.History.Loading

/-! The file of a table, loaded again.

A request copies its strings with tabs and line ends replaced, so an entry comes
back as `persisted` says. Entries that can be stored, with keys that are written
differently, are loaded one for one (`historyLoadPath_output`). What snapshots
have put in the table can be stored, except for seconds out of the loader's
range; its keys, though, may be written alike. `round_trip` says exactly when
the history comes back. -/
namespace SystemMonitor.History
open Lib Process

/-! ### Strings -/

theorem mem_copyRecordString {source : Text} {b : UInt8} (h : b ∈ copyRecordString source) :
    b ≠ 9 ∧ b ≠ 10 ∧ b ≠ 13 ∧ (b = 32 ∨ b ∈ source) := by
  obtain ⟨a, ha, rfl⟩ := List.mem_map.mp h
  by_cases hspace : a = 9 ∨ a = 13 ∨ a = 10
  · rw [if_pos hspace]
    exact ⟨by decide, by decide, by decide, Or.inl rfl⟩
  · rw [if_neg hspace]
    simp only [not_or] at hspace
    exact ⟨hspace.1, hspace.2.2, hspace.2.1, Or.inr ha⟩

theorem printable_copyRecordString {source : Text} (h : 0 ∉ source) : Printable (copyRecordString source) := by
  intro b hb
  obtain ⟨htab, hnewline, hreturn, hsource⟩ := mem_copyRecordString hb
  refine ⟨?_, htab, hnewline, hreturn⟩
  intro heq
  subst heq
  rcases hsource with hspace | hmem
  · exact absurd hspace (by decide)
  · exact h hmem

theorem copyRecordString_of_printable {source : Text} (h : ∀ b ∈ source, b ≠ 9 ∧ b ≠ 10 ∧ b ≠ 13) :
    copyRecordString source = source := by
  conv_rhs => rw [← List.map_id source]
  apply List.map_congr_left
  intro b hb
  obtain ⟨htab, hnewline, hreturn⟩ := h b hb
  simp [htab, hnewline, hreturn]

@[simp] theorem copyRecordString_idem (source : Text) :
    copyRecordString (copyRecordString source) = copyRecordString source := by
  apply copyRecordString_of_printable
  intro b hb
  obtain ⟨htab, hnewline, hreturn, -⟩ := mem_copyRecordString hb
  exact ⟨htab, hnewline, hreturn⟩

theorem head?_copyRecordString {source : Text} (h : source.head? ≠ some 35) :
    (copyRecordString source).head? ≠ some 35 := by
  cases source with
  | nil => simp [copyRecordString]
  | cons b rest =>
    simp only [copyRecordString, List.map_cons, List.head?_cons, ne_eq, Option.some.injEq] at h ⊢
    split
    · decide
    · exact h

/-! ### One entry -/

/-- The loader's limits: its range of seconds, and the room for a line. -/
structure Storable (numerals : Numerals) (e : LsmHistoryEntry) : Prop where
  cpuSeconds : numerals.sixDecimals e.cpuSeconds ≤ secondsLimit
  activeSeconds : numerals.sixDecimals e.activeSeconds ≤ secondsLimit
  line : ∀ fields, recordFields numerals (persistEntry e) = some fields → (Lines.join 9 fields).length < lineRoom

/-- What the file says of an entry. -/
def persisted (numerals : Numerals) (e : LsmHistoryEntry) : LsmHistoryEntry where
  key := copyRecordString e.key
  name := copyRecordString e.name
  user := copyRecordString e.user
  identity := copyRecordString e.identity
  cpuSeconds := numerals.sixDecimals e.cpuSeconds
  activeSeconds := numerals.sixDecimals e.activeSeconds
  readBytes := e.readBytes
  writeBytes := e.writeBytes
  peakRssBytes := e.peakRssBytes
  firstSeen := e.firstSeen
  lastSeen := e.lastSeen

@[simp] theorem persisted_idem (numerals : Numerals) (e : LsmHistoryEntry) :
    persisted numerals (persisted numerals e) = persisted numerals e := by
  simp only [persisted, copyRecordString_idem, numerals.sixDecimals_idem]

theorem printable_print (n : Nat) : Printable (Decimal.print n) :=
  printable_of_digits fun _ hb => Or.inr (Or.inr (Decimal.mem_print hb))

theorem printable_printInt (n : Int) : Printable (Decimal.printInt n) :=
  printable_of_digits fun _ hb => (Decimal.mem_printInt hb).imp_right Or.inr

section
variable {numerals : Numerals} {e : LsmHistoryEntry}

/-- The fields of an entry: eleven printable texts that load as what the file says. -/
theorem recordFields_spec (htyped : Typed e) (hstorable : Storable numerals e) :
    ∃ fields, recordFields numerals (persistEntry e) = some fields ∧ fields.length = 11 ∧
      (∀ f ∈ fields, Printable f) ∧ fields.head? = some (copyRecordString e.key) ∧
      loadedEntry numerals fields = some (persisted numerals e) := by
  obtain ⟨cpuText, hcpu, hcpuParse⟩ := numerals.format_parse _ htyped.seconds.1 hstorable.cpuSeconds
  obtain ⟨activeText, hactive, hactiveParse⟩ := numerals.format_parse _ htyped.seconds.2 hstorable.activeSeconds
  obtain ⟨hkey, hname, huser, hidentity⟩ := htyped.nulFree
  have hfields : recordFields numerals (persistEntry e) = some [copyRecordString e.key, copyRecordString e.name,
      copyRecordString e.user, copyRecordString e.identity, cpuText, activeText, Decimal.print e.readBytes,
      Decimal.print e.writeBytes, Decimal.print e.peakRssBytes, Decimal.printInt e.firstSeen,
      Decimal.printInt e.lastSeen] := by
    simp only [recordFields, persistEntry, hcpu, hactive]
  refine ⟨_, hfields, rfl, ?_, rfl, ?_⟩
  · intro f hf
    simp only [List.mem_cons, List.not_mem_nil, or_false] at hf
    rcases hf with rfl | rfl | rfl | rfl | rfl | rfl | rfl | rfl | rfl | rfl | rfl
    · exact printable_copyRecordString hkey
    · exact printable_copyRecordString hname
    · exact printable_copyRecordString huser
    · exact printable_copyRecordString hidentity
    · exact (numerals.format_printable _ _ hcpu).2
    · exact (numerals.format_printable _ _ hactive).2
    · exact printable_print _
    · exact printable_print _
    · exact printable_print _
    · exact printable_printInt _
    · exact printable_printInt _
  · simp only [loadedEntry, hcpuParse, hactiveParse, numerals.parseU64_print _ htyped.counters.1,
      numerals.parseU64_print _ htyped.counters.2.1, numerals.parseU64_print _ htyped.counters.2.2,
      numerals.parseI64_print _ htyped.firstSeen.1 htyped.firstSeen.2,
      numerals.parseI64_print _ htyped.lastSeen.1 htyped.lastSeen.2, Option.bind_eq_bind, Option.bind_some]
    rfl

/-- The line of an entry: the loader reads it whole, and takes the entry from it. -/
theorem recordLine_spec (htyped : Typed e) (hstorable : Storable numerals e) :
    ∃ fields, recordFields numerals (persistEntry e) = some fields ∧
      Lines.Proper lineRoom (Lines.join 9 fields) ∧
      ¬(Lines.join 9 fields = [] ∨ (Lines.join 9 fields).head? = some 35) ∧
      loadedEntry numerals (Lines.strsplit 9 11 (Lines.join 9 fields)) = some (persisted numerals e) := by
  obtain ⟨fields, hfields, hlength, hprintable, hhead, hloaded⟩ := recordFields_spec htyped hstorable
  have hnot : ∀ b ∈ Lines.join 9 fields, b ≠ 0 ∧ b ≠ 10 ∧ b ≠ 13 := by
    intro b hb
    rcases Lines.mem_join hb with rfl | ⟨f, hf, hbf⟩
    · decide
    · obtain ⟨hnul, -, hnewline, hreturn⟩ := hprintable f hf b hbf
      exact ⟨hnul, hnewline, hreturn⟩
  obtain ⟨first, next, rest, rfl⟩ : ∃ first next rest, fields = first :: next :: rest := by
    match fields, hlength with
    | first :: next :: rest, _ => exact ⟨first, next, rest, rfl⟩
  have hfirst : first = copyRecordString e.key := by simpa using hhead
  have hstart : Lines.join 9 (first :: next :: rest) = first ++ 9 :: Lines.join 9 (next :: rest) := rfl
  have hne : Lines.join 9 (first :: next :: rest) ≠ [] := by
    rw [hstart]
    simp
  refine ⟨_, hfields, ⟨fun h => (hnot _ h).2.1 rfl, fun h => (hnot _ h).1 rfl, hstorable.line _ hfields, ?_⟩, ?_, ?_⟩
  · intro hlast
    exact (hnot 13 (List.mem_of_getLast? hlast)).2.2 rfl
  · intro hcase
    rcases hcase with hnil | hcomment
    · exact hne hnil
    · rw [hstart, hfirst] at hcomment
      have hkey := head?_copyRecordString htyped.notComment
      cases hcopy : copyRecordString e.key with
      | nil =>
        rw [hcopy] at hcomment
        exact absurd hcomment (by simp)
      | cons b text =>
        rw [hcopy] at hcomment hkey
        exact hkey hcomment
  · rw [← hlength, Lines.strsplit_join 9 _ hne]
    · exact hloaded
    · intro f hf htab
      exact (hprintable f hf 9 htab).2.1 rfl

end

/-! ### The whole file -/

section
variable {numerals : Numerals} (walk : Walk LsmHistoryEntry)

/-- The loader's state after rows of distinct keys within the limit. -/
structure Holds (rows : List LsmHistoryEntry) (acc : LsmHistoryState × Bool) : Prop where
  table : acc.1.appHistory.rows = rows
  counted : acc.1.entryCount = rows.length
  kept : acc.2 = false

theorem put_new {t : Entries} {e : LsmHistoryEntry} (h : e.key ∉ t.rows.map LsmHistoryEntry.key) :
    (t.put e).rows = t.rows ++ [e] := by
  unfold Table.put
  rw [dif_neg h]

/-- A line of a new key is one more row. -/
theorem Holds.line {rows : List LsmHistoryEntry} {acc : LsmHistoryState × Bool} (h : Holds rows acc) {line : Text}
    {e : LsmHistoryEntry} (hline : ¬(line = [] ∨ line.head? = some 35))
    (hloaded : loadedEntry numerals (Lines.strsplit 9 11 line) = some e)
    (hnew : e.key ∉ rows.map LsmHistoryEntry.key) (hroom : rows.length < lsmHistoryMaxEntries) :
    Holds (rows ++ [e]) (historyLoadLine numerals walk acc line) := by
  have hfind : acc.1.appHistory.find? e.key = none := by
    apply Table.find?_eq_none.mpr
    rw [h.table]
    intro x hx hkey
    exact hnew (List.mem_map.mpr ⟨x, hx, hkey⟩)
  have hcount : ¬lsmHistoryMaxEntries ≤ acc.1.entryCount := by
    rw [h.counted]
    omega
  have hrecord : historyLoadRecord numerals walk acc.1 line =
      ({acc.1 with appHistory := acc.1.appHistory.put e, entryCount := acc.1.entryCount + 1}, false) := by
    simp only [historyLoadRecord, if_neg hline, hloaded, hfind, Option.isSome_none, Bool.false_eq_true, if_false,
      if_neg hcount]
  refine ⟨?_, ?_, ?_⟩
  · simp only [historyLoadLine, hrecord]
    rw [put_new (by rwa [h.table]), h.table]
  · simp only [historyLoadLine, hrecord, h.counted, List.length_append, List.length_singleton]
  · simp only [historyLoadLine, hrecord, h.kept, Bool.or_self]

/-- What every line of a new key keeps, the lines of entries with distinct keys keep. -/
theorem foldl_recordLines (Kept : List LsmHistoryEntry → LsmHistoryState × Bool → Prop)
    (hline : ∀ rows acc line e, Kept rows acc → ¬(line = [] ∨ line.head? = some 35) →
      loadedEntry numerals (Lines.strsplit 9 11 line) = some e → e.key ∉ rows.map LsmHistoryEntry.key →
      Kept (rows ++ [e]) (historyLoadLine numerals walk acc line))
    (entries : List LsmHistoryEntry) {rows : List LsmHistoryEntry} {acc : LsmHistoryState × Bool} (h : Kept rows acc)
    {records : List (List Text)} (hrecords : (entries.map persistEntry).mapM (recordFields numerals) = some records)
    (htyped : ∀ e ∈ entries, Typed e) (hstorable : ∀ e ∈ entries, Storable numerals e)
    (hdistinct : ((rows ++ entries.map (persisted numerals)).map LsmHistoryEntry.key).Nodup) :
    (∀ line ∈ records.map (Lines.join 9), Lines.Proper lineRoom line) ∧
    Kept (rows ++ entries.map (persisted numerals))
      ((records.map (Lines.join 9)).foldl (historyLoadLine numerals walk) acc) := by
  induction entries generalizing rows acc records with
  | nil =>
    simp only [List.map_nil, List.mapM_nil, Option.pure_def, Option.some.injEq] at hrecords
    subst hrecords
    refine ⟨?_, by simpa using h⟩
    intro line hline
    exact absurd hline List.not_mem_nil
  | cons e entries ih =>
    obtain ⟨fields, hfields, hproper, hrecord, hloaded⟩ :=
      recordLine_spec (htyped e (List.mem_cons_self ..)) (hstorable e (List.mem_cons_self ..))
    simp only [List.map_cons, List.mapM_cons, hfields, Option.bind_eq_bind, Option.bind_some,
      Option.bind_eq_some_iff, Option.pure_def, Option.some.injEq] at hrecords
    obtain ⟨rest, hrest, rfl⟩ := hrecords
    have hmoved : rows ++ (e :: entries).map (persisted numerals) =
        (rows ++ [persisted numerals e]) ++ entries.map (persisted numerals) := by simp
    rw [hmoved] at hdistinct ⊢
    have hnew : (persisted numerals e).key ∉ rows.map LsmHistoryEntry.key := by
      rw [List.map_append, List.nodup_append, List.map_append, List.nodup_append] at hdistinct
      intro hmem
      exact hdistinct.1.2.2 _ hmem _ (by simp) rfl
    obtain ⟨hall, hrows⟩ := ih (hline rows acc _ _ h hrecord hloaded hnew) hrest
      (fun x hx => htyped x (List.mem_cons_of_mem _ hx)) (fun x hx => hstorable x (List.mem_cons_of_mem _ hx)) hdistinct
    refine ⟨?_, hrows⟩
    intro line hmem
    rw [List.map_cons] at hmem
    rcases List.mem_cons.mp hmem with rfl | hmem
    · exact hproper
    · exact hall line hmem

theorem mapM_recordFields (entries : List LsmHistoryEntry) (htyped : ∀ e ∈ entries, Typed e)
    (hstorable : ∀ e ∈ entries, Storable numerals e) :
    ∃ records, (entries.map persistEntry).mapM (recordFields numerals) = some records := by
  induction entries with
  | nil => exact ⟨[], rfl⟩
  | cons e entries ih =>
    obtain ⟨fields, hfields, -⟩ :=
      recordFields_spec (htyped e (List.mem_cons_self ..)) (hstorable e (List.mem_cons_self ..))
    obtain ⟨rest, hrest⟩ := ih (fun x hx => htyped x (List.mem_cons_of_mem _ hx))
      fun x hx => hstorable x (List.mem_cons_of_mem _ hx)
    refine ⟨fields :: rest, ?_⟩
    simp only [List.map_cons, List.mapM_cons, hfields, hrest, Option.bind_eq_bind, Option.bind_some, Option.pure_def]

variable (numerals) in
/-- Entries that can be stored, serialised and read again line by line. -/
theorem historyLoadPath_lines (Kept : List LsmHistoryEntry → LsmHistoryState × Bool → Prop)
    (hline : ∀ rows acc line e, Kept rows acc → ¬(line = [] ∨ line.head? = some 35) →
      loadedEntry numerals (Lines.strsplit 9 11 line) = some e → e.key ∉ rows.map LsmHistoryEntry.key →
      Kept (rows ++ [e]) (historyLoadLine numerals walk acc line))
    (hstart : Kept [] ({}, false)) (entries : List LsmHistoryEntry) (generation : Nat)
    (htyped : ∀ e ∈ entries, Typed e) (hstorable : ∀ e ∈ entries, Storable numerals e)
    (hdistinct : (entries.map fun e => copyRecordString e.key).Nodup) :
    ∃ bytes, requestOutput numerals ⟨entries.map persistEntry, generation⟩ = some bytes ∧
      Kept (entries.map (persisted numerals)) (historyLoadPath numerals walk bytes) := by
  obtain ⟨records, hrecords⟩ := mapM_recordFields entries htyped hstorable
  have hkeys : ((entries.map (persisted numerals)).map LsmHistoryEntry.key).Nodup := by
    rw [List.map_map]
    exact hdistinct
  have hheader : Lines.Proper lineRoom historyHeader := ⟨by decide, by decide, by decide, by decide⟩
  have hcomment : historyLoadLine numerals walk ({}, false) historyHeader = ({}, false) := rfl
  obtain ⟨hproper, hkept⟩ := foldl_recordLines walk Kept hline entries hstart hrecords htyped hstorable (by simpa using hkeys)
  refine ⟨(historyHeader :: records.map (Lines.join 9)).flatMap (· ++ [10]), ?_, ?_⟩
  · simp only [requestOutput, hrecords, Option.map_some]
  · unfold historyLoadPath
    rw [Lines.foldLines_lines lineRoom _ _ _ ?_ _ (Nat.le_refl _), List.foldl_cons, hcomment]
    · simpa using hkept
    · intro line hline
      rcases List.mem_cons.mp hline with rfl | hline
      · exact hheader
      · exact hproper line hline

variable (numerals) in
/-- Within the limit every entry comes back, in order. -/
theorem historyLoadPath_output (entries : List LsmHistoryEntry) (generation : Nat)
    (htyped : ∀ e ∈ entries, Typed e) (hstorable : ∀ e ∈ entries, Storable numerals e)
    (hdistinct : (entries.map fun e => copyRecordString e.key).Nodup)
    (hroom : entries.length ≤ lsmHistoryMaxEntries) :
    ∃ bytes, requestOutput numerals ⟨entries.map persistEntry, generation⟩ = some bytes ∧
      Holds (entries.map (persisted numerals)) (historyLoadPath numerals walk bytes) := by
  have hlines := historyLoadPath_lines numerals walk
    (fun rows acc => rows.length ≤ lsmHistoryMaxEntries → Holds rows acc) ?_ (fun _ => ⟨rfl, rfl, rfl⟩) entries generation
    htyped hstorable hdistinct
  · obtain ⟨bytes, hbytes, hholds⟩ := hlines
    exact ⟨bytes, hbytes, hholds (by rwa [List.length_map])⟩
  · intro rows acc line e hrows hrecord hloaded hnew hfits
    rw [List.length_append, List.length_singleton] at hfits
    exact (hrows (by omega)).line walk hrecord hloaded hnew (by omega)

/-! ### Too many rows -/

/-- The entries that the limit leaves of a list, by recency. -/
abbrev Recent : List LsmHistoryEntry → List LsmHistoryEntry → Prop :=
  Newest historyEntryRecencyCompare lsmHistoryMaxEntries

/-- The loader's state after rows of distinct keys, however many. -/
structure Keeps (rows : List LsmHistoryEntry) (acc : LsmHistoryState × Bool) : Prop where
  counted : acc.1.entryCount = acc.1.appHistory.rows.length
  newest : Recent rows acc.1.appHistory.rows

theorem historyOldestKey_spec {s : LsmHistoryState} (hcount : s.entryCount = s.appHistory.rows.length)
    (hany : s.appHistory.rows ≠ []) :
    ∃ old ∈ s.appHistory.rows, historyOldestKey walk s 0 = some old.key ∧
      ∀ x ∈ s.appHistory.rows, (historyEntryRecencyCompare old x).isLE = true := by
  have hopen : ∀ e : LsmHistoryEntry, shielded 0 e = false := fun _ => rfl
  have hcounted : s.entryCount ≠ 0 := by
    rw [hcount]
    exact fun hzero => hany (List.length_eq_zero_iff.mp hzero)
  unfold historyOldestKey
  rw [if_neg hcounted]
  obtain ⟨hnone, hsome⟩ := oldest_spec (shielded 0) historyEntryRecencyCompare (walk.order s.appHistory.rows)
  cases hold : oldest (shielded 0) historyEntryRecencyCompare (walk.order s.appHistory.rows) with
  | none =>
    obtain ⟨e, he⟩ := List.exists_mem_of_ne_nil _ hany
    have hshielded := hnone hold e ((walk.mem _ e).mpr he)
    rw [hopen e] at hshielded
    cases hshielded
  | some old =>
    obtain ⟨hmem, -, hle⟩ := hsome old hold
    exact ⟨old, (walk.mem _ old).mp hmem, rfl, fun x hx => hle x ((walk.mem _ x).mpr hx) (hopen x)⟩

/-- The rows of a table but one, and that one. -/
theorem erase_perm {t : Entries} {e : LsmHistoryEntry} (he : e ∈ t.rows) : t.rows.Perm (e :: (t.erase [e.key]).rows) := by
  rw [List.perm_ext_iff_of_nodup t.nodup]
  · intro x
    rw [List.mem_cons, Table.mem_erase, List.mem_singleton]
    constructor
    · intro hx
      by_cases hkey : x.key = e.key
      · exact Or.inl (t.eq_of_key hx he hkey)
      · exact Or.inr ⟨hx, hkey⟩
    · intro hx
      rcases hx with rfl | ⟨hx, -⟩
      · exact he
      · exact hx
  · refine List.nodup_cons.mpr ⟨?_, (t.erase [e.key]).nodup⟩
    intro hmem
    exact (Table.mem_erase.mp hmem).2 (List.mem_singleton_self _)

/-- A full loader keeps the more recent of the row and its oldest entry. -/
theorem Keeps.overLimit {rows : List LsmHistoryEntry} {acc : LsmHistoryState × Bool} (h : Keeps rows acc)
    {e : LsmHistoryEntry} (hnew : e.key ∉ rows.map LsmHistoryEntry.key) (hfull : lsmHistoryMaxEntries ≤ acc.1.entryCount) :
    Keeps (rows ++ [e]) (loadOverLimit walk acc.1 e) := by
  have hcount := h.counted
  have hrow : e ∉ rows := fun hmem => hnew (List.mem_map_of_mem hmem)
  have hany : acc.1.appHistory.rows ≠ [] := by
    intro hnil
    rw [hcount, hnil] at hfull
    exact absurd hfull (by decide)
  obtain ⟨old, hmem, hkey, hle⟩ := historyOldestKey_spec walk hcount hany
  have hfind : acc.1.appHistory.find? old.key = some old := Table.find?_eq_some.mpr ⟨hmem, rfl⟩
  unfold loadOverLimit
  simp only [hkey, Option.bind_some, hfind, historyRemoveOldest]
  by_cases holder : (historyEntryRecencyCompare e old).isLE = true
  · rw [if_pos holder]
    refine ⟨hcount, h.newest.refuse (hcount ▸ hfull) ?_⟩
    intro y hy
    exact Std.TransCmp.isLE_trans holder (hle y hy)
  · rw [if_neg holder]
    have hlength := acc.1.appHistory.length_erase [old] (List.nodup_singleton _) (by simpa using hmem)
    simp only [List.map_cons, List.map_nil, List.length_cons, List.length_nil] at hlength
    have hkeys : e.key ∉ (acc.1.appHistory.erase [old.key]).rows.map LsmHistoryEntry.key := by
      intro hmem
      obtain ⟨x, hx, hxe⟩ := List.mem_map.mp hmem
      exact hnew (List.mem_map.mpr ⟨x, h.newest.subset x (Table.mem_erase.mp hx).1, hxe⟩)
    have hput := put_new hkeys
    refine ⟨?_, ?_⟩
    · show acc.1.entryCount - 1 + 1 = ((acc.1.appHistory.erase [old.key]).put e).rows.length
      rw [hput, List.length_append, List.length_singleton]
      omega
    · show Recent _ ((acc.1.appHistory.erase [old.key]).put e).rows
      rw [hput]
      apply h.newest.exchange hrow (hcount ▸ hfull) (erase_perm hmem) hle
      have htotal : NotNewer old e ∨ NotNewer e old := Std.Total.total old e
      exact htotal.resolve_right holder

theorem Keeps.line {rows : List LsmHistoryEntry} {acc : LsmHistoryState × Bool} (h : Keeps rows acc) {line : Text}
    {e : LsmHistoryEntry} (hline : ¬(line = [] ∨ line.head? = some 35))
    (hloaded : loadedEntry numerals (Lines.strsplit 9 11 line) = some e)
    (hnew : e.key ∉ rows.map LsmHistoryEntry.key) :
    Keeps (rows ++ [e]) (historyLoadLine numerals walk acc line) := by
  have hkeys : e.key ∉ acc.1.appHistory.rows.map LsmHistoryEntry.key := by
    intro hmem
    obtain ⟨x, hx, hxe⟩ := List.mem_map.mp hmem
    exact hnew (List.mem_map.mpr ⟨x, h.newest.subset x hx, hxe⟩)
  have hfind : acc.1.appHistory.find? e.key = none :=
    Table.find?_eq_none.mpr fun x hx hkey => hkeys (List.mem_map.mpr ⟨x, hx, hkey⟩)
  have hrecord : (historyLoadRecord numerals walk acc.1 line).1 =
      if lsmHistoryMaxEntries ≤ acc.1.entryCount then (loadOverLimit walk acc.1 e).1
      else {acc.1 with appHistory := acc.1.appHistory.put e, entryCount := acc.1.entryCount + 1} := by
    simp only [historyLoadRecord, if_neg hline, hloaded, hfind, Option.isSome_none, Bool.false_eq_true, if_false]
    split <;> rfl
  have hcount := h.counted
  have hput := put_new hkeys
  by_cases hfull : lsmHistoryMaxEntries ≤ acc.1.entryCount
  · have hover := h.overLimit walk hnew hfull
    rw [if_pos hfull] at hrecord
    refine ⟨?_, ?_⟩
    · simp only [historyLoadLine, hrecord]
      exact hover.counted
    · simp only [historyLoadLine, hrecord]
      exact hover.newest
  · rw [if_neg hfull] at hrecord
    refine ⟨?_, ?_⟩
    · simp only [historyLoadLine, hrecord, hput, List.length_append, List.length_singleton, hcount]
    · simp only [historyLoadLine, hrecord, hput]
      exact h.newest.add (fun hmem => hnew (List.mem_map_of_mem hmem)) (by omega)

variable (numerals) in
/-- Whatever their number, the most recent entries come back. -/
theorem historyLoadPath_newest (entries : List LsmHistoryEntry) (generation : Nat)
    (htyped : ∀ e ∈ entries, Typed e) (hstorable : ∀ e ∈ entries, Storable numerals e)
    (hdistinct : (entries.map fun e => copyRecordString e.key).Nodup) :
    ∃ bytes, requestOutput numerals ⟨entries.map persistEntry, generation⟩ = some bytes ∧
      Recent (entries.map (persisted numerals)) (historyLoadPath numerals walk bytes).1.appHistory.rows := by
  have hstart : Keeps [] ({}, false) := ⟨rfl, Newest.refl List.nodup_nil (Nat.zero_le _)⟩
  obtain ⟨bytes, hbytes, hkeeps⟩ := historyLoadPath_lines numerals walk Keeps
    (fun rows acc line e h hline hloaded hnew => h.line walk hline hloaded hnew) hstart entries generation htyped
    hstorable hdistinct
  exact ⟨bytes, hbytes, hkeeps.newest⟩

end

/-! ### Entries made from processes -/

/-- The range of `int64_t`. -/
def IsEpoch (t : Int) : Prop := int64Min ≤ t ∧ t ≤ int64Max

instance (t : Int) : Decidable (IsEpoch t) := inferInstanceAs (Decidable (_ ∧ _))

/-- The times of a snapshot are `int64_t`. -/
def Snapshot.Timed (snapshot : Snapshot) : Prop :=
  IsEpoch snapshot.nowEpoch ∧ ∀ r ∈ snapshot.processes, IsEpoch r.createdAt

/-- An entry whose strings come from the buffers of a process. -/
structure Accounted (e : LsmHistoryEntry) : Prop where
  typed : Typed e
  key : e.key.length ≤ 575
  name : e.name.length ≤ 127
  user : e.user.length ≤ 63
  identity : e.identity.length ≤ 511

theorem historyExecutable_spec (p : LsmProcessInfo) :
    (historyExecutable p).length ≤ 511 ∧ 0 ∉ historyExecutable p := by
  have hname : p.name.text.length ≤ 511 ∧ 0 ∉ p.name.text := ⟨Nat.le_trans p.name.fits (by decide), p.name.nulFree⟩
  have hchoice : ∀ t : Text, t.length ≤ 511 ∧ 0 ∉ t →
      (if t = [] then p.name.text else t).length ≤ 511 ∧ 0 ∉ (if t = [] then p.name.text else t) := by
    intro t ht
    split
    · exact hname
    · exact ht
  apply hchoice
  split
  · exact ⟨p.executable.fits, p.executable.nulFree⟩
  · split
    · refine ⟨List.length_take_le .., ?_⟩
      intro hmem
      exact p.command.nulFree ((List.takeWhile_sublist _).subset (List.mem_of_mem_take hmem))
    · exact ⟨Nat.zero_le _, List.not_mem_nil⟩

theorem historyKey_spec (p : LsmProcessInfo) :
    (historyKey p).length ≤ 575 ∧ 0 ∉ historyKey p ∧ (historyKey p).head? ≠ some 35 := by
  refine ⟨List.length_take_le .., ?_, ?_⟩
  · intro hmem
    rcases List.mem_append.mp (List.mem_of_mem_take hmem) with hmem | hmem
    · cases haccount : p.account with
      | none =>
        rw [haccount] at hmem
        cases hmem
      | some uid =>
        rw [haccount, accountIdentity] at hmem
        rcases List.mem_append.mp hmem with hmem | hmem
        · exact absurd hmem (by decide)
        · exact absurd (Decimal.mem_print hmem) (by decide)
    · rcases List.mem_cons.mp hmem with hmem | hmem
      · exact absurd hmem (by decide)
      · exact (historyExecutable_spec p).2 hmem
  · cases haccount : p.account with
    | none => simp [historyKey, haccount, accountIdentity]
    | some uid => simp [historyKey, haccount, accountIdentity, ascii]

theorem ingestElapsed_nonneg (s : LsmHistoryState) (nowMono : ℚ) : 0 ≤ ingestElapsed s nowMono := by
  have hchoice : ∀ elapsed : ℚ, 0 ≤ if elapsed < 0 ∨ 60 < elapsed then 0 else elapsed := by
    intro elapsed
    split
    · exact le_refl _
    · rename_i h
      exact not_lt.mp fun hneg => h (Or.inl hneg)
  exact hchoice _

section
variable (lib : Arithmetic)

/-- What new entries have and crediting keeps, accounting keeps. -/
theorem foldl_ingestProcess_forall {P : LsmHistoryEntry → Prop} {generation : Nat} {elapsed : ℚ} {nowEpoch : Int}
    (readings : List Reading)
    (hget : ∀ (t : LsmHistoryState), ∀ r ∈ readings, (∀ e ∈ t.appHistory.rows, P e) → P (historyEntryGet t r).2)
    (hcredit : ∀ samples process e, P e → P (accountedEntry lib generation elapsed nowEpoch samples process e))
    {s : LsmHistoryState} (h : ∀ e ∈ s.appHistory.rows, P e) :
    ∀ e ∈ (readings.foldl (ingestProcess lib generation elapsed nowEpoch) s).appHistory.rows, P e := by
  induction readings generalizing s with
  | nil => exact h
  | cons reading rest ih =>
    obtain ⟨hkey, -, hothers, -⟩ := historyEntryGet_spec s reading
    apply ih fun t r hr => hget t r (List.mem_cons_of_mem _ hr)
    intro e he
    simp only [ingestProcess, Table.mem_put, accountedEntry_key, hkey] at he
    rcases he with rfl | ⟨he, hne⟩
    · exact hcredit _ _ _ (hget s reading (List.mem_cons_self ..) h)
    · exact h e ((hothers e hne).mp he)

/-- A snapshot keeps it too; the count stays right. -/
theorem lsmAppHistoryIngest_forall {P : LsmHistoryEntry → Prop} {s : LsmHistoryState} {snapshot : Snapshot}
    (hget : ∀ (t : LsmHistoryState), ∀ r ∈ snapshot.processes, (∀ e ∈ t.appHistory.rows, P e) →
      P (historyEntryGet t r).2)
    (hcredit : ∀ samples process e, P e → P (accountedEntry lib (nextGeneration s.generation)
      (ingestElapsed s snapshot.nowMono) snapshot.nowEpoch samples process e))
    (hcount : s.entryCount = s.appHistory.rows.length) (h : ∀ e ∈ s.appHistory.rows, P e) :
    let t := lsmAppHistoryIngest lib s snapshot
    t.entryCount = t.appHistory.rows.length ∧ ∀ e ∈ t.appHistory.rows, P e := by
  have hall := foldl_ingestProcess_forall lib snapshot.processes hget hcredit
    (s := {s with generation := nextGeneration s.generation, lastSample := snapshot.nowMono}) h
  have htrim := historyTrimToLimit_trimmed snapshot.walk snapshot.allocated (ingestAccount_counted lib hcount snapshot)
    (ingestAccount lib s snapshot).generation
  have hkept : ∀ e ∈ (historyTrimToLimit snapshot.walk snapshot.allocated (ingestAccount lib s snapshot)
      (ingestAccount lib s snapshot).generation).1.appHistory.rows, P e :=
    fun e he => hall e (htrim.evicted.sublist.subset he)
  simp only [lsmAppHistoryIngest]
  split
  · exact ⟨htrim.counted, hkept⟩
  · exact ⟨htrim.counted, hkept⟩

theorem historyEntryGet_typed {s : LsmHistoryState} (h : ∀ e ∈ s.appHistory.rows, Typed e) {reading : Reading}
    (hepoch : IsEpoch reading.createdAt) : Typed (historyEntryGet s reading).2 := by
  unfold historyEntryGet
  cases hfind : s.appHistory.find? (historyKey reading.process) with
  | some entry => exact h entry (Table.find?_eq_some.mp hfind).1
  | none =>
    obtain ⟨-, hkeyNul, hhead⟩ := historyKey_spec reading.process
    obtain ⟨-, hexecutableNul⟩ := historyExecutable_spec reading.process
    exact ⟨⟨hkeyNul, reading.process.name.nulFree, reading.process.user.nulFree, hexecutableNul⟩, hhead,
      ⟨Nat.zero_le _, Nat.zero_le _, Nat.zero_le _⟩, hepoch, hepoch, ⟨le_refl 0, le_refl 0⟩⟩

theorem historyEntryGet_accounted {s : LsmHistoryState} (h : ∀ e ∈ s.appHistory.rows, Accounted e)
    {reading : Reading} (hepoch : IsEpoch reading.createdAt) : Accounted (historyEntryGet s reading).2 := by
  have htyped := historyEntryGet_typed (fun e he => (h e he).typed) hepoch
  unfold historyEntryGet at htyped ⊢
  cases hfind : s.appHistory.find? (historyKey reading.process) with
  | some entry => exact h entry (Table.find?_eq_some.mp hfind).1
  | none =>
    rw [hfind] at htyped
    exact ⟨htyped, (historyKey_spec reading.process).1, reading.process.name.fits, reading.process.user.fits,
      (historyExecutable_spec reading.process).1⟩

/-- Crediting a process keeps the strings. -/
theorem accountedEntry_strings (generation : Nat) (elapsed : ℚ) (nowEpoch : Int) (samples : Samples)
    (process : LsmProcessInfo) (e : LsmHistoryEntry) :
    let t := accountedEntry lib generation elapsed nowEpoch samples process e
    t.key = e.key ∧ t.name = e.name ∧ t.user = e.user ∧ t.identity = e.identity := by
  simp only [accountedEntry, creditEntry, addRss, beginLive]
  split <;> exact ⟨rfl, rfl, rfl, rfl⟩

/-- Crediting a process keeps the ranges. -/
theorem Typed.credit {e : LsmHistoryEntry} (h : Typed e) (generation : Nat) {elapsed : ℚ}
    (helapsed : 0 ≤ elapsed) {nowEpoch : Int} (hepoch : IsEpoch nowEpoch) (samples : Samples)
    (process : LsmProcessInfo) : Typed (accountedEntry lib generation elapsed nowEpoch samples process e) := by
  obtain ⟨hnul, hhead, ⟨hread, hwrite, hpeak⟩, hfirst, hlast, hcpu, hactive⟩ := h
  have hbegin : ∃ current live active, beginLive generation elapsed e =
      {e with currentRssBytes := current, liveGeneration := live, activeSeconds := active} ∧ 0 ≤ active := by
    unfold beginLive
    split
    · exact ⟨_, _, _, rfl, add_nonneg hactive helapsed⟩
    · exact ⟨_, _, _, rfl, hactive⟩
  obtain ⟨current, live, active, hbegin, hactive⟩ := hbegin
  unfold accountedEntry
  rw [hbegin]
  refine ⟨hnul, hhead, ⟨lib.addSaturating_le _ _, lib.addSaturating_le _ _, ?_⟩, hfirst, ?_, ?_, hactive⟩
  · simp only [creditEntry, addRss]
    split
    · exact lib.addSaturating_le _ _
    · exact hpeak
  · simp only [creditEntry, addRss]
    split
    · exact hepoch
    · exact hlast
  · simp only [creditEntry, addRss]
    exact add_nonneg hcpu (by positivity)

theorem Accounted.credit {e : LsmHistoryEntry} (h : Accounted e) (generation : Nat) {elapsed : ℚ}
    (helapsed : 0 ≤ elapsed) {nowEpoch : Int} (hepoch : IsEpoch nowEpoch) (samples : Samples)
    (process : LsmProcessInfo) : Accounted (accountedEntry lib generation elapsed nowEpoch samples process e) := by
  obtain ⟨hkey, hname, huser, hidentity⟩ := accountedEntry_strings lib generation elapsed nowEpoch samples process e
  refine ⟨h.typed.credit lib generation helapsed hepoch samples process, ?_, ?_, ?_, ?_⟩
  · rw [hkey]
    exact h.key
  · rw [hname]
    exact h.name
  · rw [huser]
    exact h.user
  · rw [hidentity]
    exact h.identity

/-- A table of such entries, with its count. -/
structure AccountedTable (s : LsmHistoryState) : Prop where
  counted : s.entryCount = s.appHistory.rows.length
  entries : ∀ e ∈ s.appHistory.rows, Accounted e

theorem AccountedTable.ingest {s : LsmHistoryState} (h : AccountedTable s) {snapshot : Snapshot}
    (htimed : snapshot.Timed) : AccountedTable (lsmAppHistoryIngest lib s snapshot) := by
  obtain ⟨hcounted, hentries⟩ := lsmAppHistoryIngest_forall lib (P := Accounted)
    (fun _ r hr hall => historyEntryGet_accounted hall (htimed.2 r hr))
    (fun samples process _ he =>
      he.credit lib (nextGeneration s.generation) (ingestElapsed_nonneg s snapshot.nowMono) htimed.1 samples process)
    h.counted h.entries
  exact ⟨hcounted, hentries⟩

theorem AccountedTable.run (snapshots : List Snapshot) (htimed : ∀ snapshot ∈ snapshots, snapshot.Timed)
    {s : LsmHistoryState} (h : AccountedTable s) :
    AccountedTable (snapshots.foldl (lsmAppHistoryIngest lib) s) := by
  induction snapshots generalizing s with
  | nil => exact h
  | cons snapshot rest ih =>
    exact ih (fun x hx => htimed x (List.mem_cons_of_mem _ hx)) (h.ingest lib (htimed snapshot (List.mem_cons_self ..)))

end

/-! ### The round trip -/

@[simp] theorem length_copyRecordString (source : Text) : (copyRecordString source).length = source.length :=
  List.length_map _

/-- The line of such an entry is never too long. -/
theorem Accounted.storable {numerals : Numerals} {e : LsmHistoryEntry} (h : Accounted e)
    (hcpu : numerals.sixDecimals e.cpuSeconds ≤ secondsLimit)
    (hactive : numerals.sixDecimals e.activeSeconds ≤ secondsLimit) : Storable numerals e := by
  refine ⟨hcpu, hactive, ?_⟩
  intro fields hfields
  simp only [recordFields] at hfields
  split at hfields
  · rename_i cpuText activeText hcpuText hactiveText
    cases hfields
    have hprint : ∀ n, n ≤ uint64Max → (Decimal.print n).length ≤ 20 := by
      intro n hn
      apply Decimal.length_print (by decide)
      exact Nat.lt_of_le_of_lt hn (by decide)
    have hprintInt : ∀ n : Int, int64Min ≤ n ∧ n ≤ int64Max → (Decimal.printInt n).length ≤ 20 := by
      intro n hn
      obtain ⟨hlow, hhigh⟩ := hn
      have habs : n.natAbs < 10 ^ 19 := by
        simp only [int64Min, int64Max] at hlow hhigh
        omega
      exact Decimal.length_printInt (by decide) habs
    have hcpuLength := (numerals.format_printable _ _ hcpuText).1
    have hactiveLength := (numerals.format_printable _ _ hactiveText).1
    have hread := hprint _ h.typed.counters.1
    have hwrite := hprint _ h.typed.counters.2.1
    have hpeak := hprint _ h.typed.counters.2.2
    have hfirst := hprintInt _ h.typed.firstSeen
    have hlast := hprintInt _ h.typed.lastSeen
    have hkey := h.key
    have hname := h.name
    have huser := h.user
    have hidentity := h.identity
    refine Nat.lt_of_le_of_lt (Lines.length_join 9 _) ?_
    simp only [persistEntry, List.map_cons, List.map_nil, List.sum_cons, List.sum_nil, List.length_cons,
      List.length_nil, length_copyRecordString, lineRoom]
    omega
  · cases hfields

/-- **Exactly when the file gives the history back.** For a table that snapshots
have made, within the limit: what is loaded from its file is one entry for each
of its entries, with their strings as the file writes them, if and only if no
two of its keys are written alike and every number of seconds is in the loader's
range. -/
theorem round_trip (lib : Arithmetic) (numerals : Numerals) (walk loadWalk : Walk LsmHistoryEntry)
    (snapshots : List Snapshot) (htimed : ∀ snapshot ∈ snapshots, snapshot.Timed) {s : LsmHistoryState}
    (hs : snapshots.foldl (lsmAppHistoryIngest lib) {} = s)
    (hroom : s.appHistory.rows.length ≤ lsmHistoryMaxEntries) :
    (∃ bytes, requestOutput numerals (historySaveRequestCreate walk s) = some bytes ∧
      (historyLoadPath numerals loadWalk bytes).1.appHistory.rows.Perm
        (s.appHistory.rows.map (persisted numerals))) ↔
    (s.appHistory.rows.map fun e => copyRecordString e.key).Nodup ∧
      ∀ e ∈ s.appHistory.rows, numerals.sixDecimals e.cpuSeconds ≤ secondsLimit ∧
        numerals.sixDecimals e.activeSeconds ≤ secondsLimit := by
  have htable : AccountedTable s := by
    rw [← hs]
    exact AccountedTable.run lib snapshots htimed ⟨rfl, fun e he => absurd he List.not_mem_nil⟩
  constructor
  · intro hpair
    obtain ⟨bytes, -, hperm⟩ := hpair
    have hloaded := historyLoadPath_loaded numerals loadWalk bytes
    refine ⟨?_, ?_⟩
    · have hkeys := (hperm.map LsmHistoryEntry.key).nodup_iff.mp (Table.distinct _)
      rwa [List.map_map] at hkeys
    · intro e he
      have hentry := hloaded.entries _ (hperm.mem_iff.mpr (List.mem_map_of_mem he))
      exact ⟨hentry.cpuSeconds, hentry.activeSeconds⟩
  · intro hpair
    obtain ⟨hdistinct, hseconds⟩ := hpair
    have hperm := walk.perm s.appHistory.rows
    have hall : (walk.order s.appHistory.rows).take s.entryCount = walk.order s.appHistory.rows := by
      apply List.take_of_length_le
      rw [hperm.length_eq, htable.counted]
    obtain ⟨bytes, hbytes, hholds⟩ := historyLoadPath_output numerals loadWalk
      (walk.order s.appHistory.rows) s.mutationGeneration
      (fun e he => (htable.entries e ((walk.mem _ e).mp he)).typed)
      (fun e he => (htable.entries e ((walk.mem _ e).mp he)).storable (hseconds e ((walk.mem _ e).mp he)).1
        (hseconds e ((walk.mem _ e).mp he)).2)
      ((hperm.map _).nodup_iff.mpr hdistinct) (by rwa [hperm.length_eq])
    refine ⟨bytes, ?_, ?_⟩
    · rw [historySaveRequestCreate, hall]
      exact hbytes
    · rw [hholds.table]
      exact hperm.map _

/-- Two programs of one user. -/
def twoPrograms (first second : Chars 512) : Snapshot where
  processes :=
    [⟨{pid := 7, instanceId := 100, account := some 1000, executable := first}, 50⟩,
      ⟨{pid := 8, instanceId := 101, account := some 1000, executable := second}, 50⟩]
  nowMono := 1
  nowEpoch := 50
  walk := .stored
  allocated := true

def tabbedProgram : Chars 512 := ⟨ascii "/a\tb", by decide, by decide⟩
def spacedProgram : Chars 512 := ⟨ascii "/a b", by decide, by decide⟩
def plainProgram : Chars 512 := ⟨ascii "/a", by decide, by decide⟩

theorem twoPrograms_timed (first second : Chars 512) : ∀ snapshot ∈ [twoPrograms first second], snapshot.Timed := by
  intro snapshot hsnapshot
  have hepoch : IsEpoch 50 := by decide
  rw [List.mem_singleton.mp hsnapshot]
  refine ⟨hepoch, ?_⟩
  intro r hr
  simp only [twoPrograms, List.mem_cons, List.not_mem_nil, or_false] at hr
  rcases hr with rfl | rfl
  · exact hepoch
  · exact hepoch

theorem round_trip_tabbed :
    ∃ bytes, requestOutput .documented (historySaveRequestCreate .stored
        ([twoPrograms tabbedProgram plainProgram].foldl (lsmAppHistoryIngest .documented) {})) = some bytes ∧
      (historyLoadPath .documented .stored bytes).1.appHistory.rows.Perm
        (([twoPrograms tabbedProgram plainProgram].foldl (lsmAppHistoryIngest .documented) {}).appHistory.rows.map
          (persisted .documented)) :=
  (round_trip .documented .documented .stored .stored [twoPrograms tabbedProgram plainProgram]
    (twoPrograms_timed _ _) rfl (by decide +kernel)).mpr ⟨by decide +kernel, by decide +kernel⟩

/-- A tab and a space are written alike, so two keys become one. -/
theorem tabbed_overwritten :
    ([twoPrograms tabbedProgram spacedProgram].foldl (lsmAppHistoryIngest .documented) {}).appHistory.rows.length = 2 ∧
    ¬∃ bytes, requestOutput .documented (historySaveRequestCreate .stored
        ([twoPrograms tabbedProgram spacedProgram].foldl (lsmAppHistoryIngest .documented) {})) = some bytes ∧
      (historyLoadPath .documented .stored bytes).1.appHistory.rows.Perm
        (([twoPrograms tabbedProgram spacedProgram].foldl (lsmAppHistoryIngest .documented) {}).appHistory.rows.map
          (persisted .documented)) := by
  have htwo : ([twoPrograms tabbedProgram spacedProgram].foldl
      (lsmAppHistoryIngest .documented) {}).appHistory.rows.length = 2 := by decide
  refine ⟨htwo, ?_⟩
  intro hpair
  obtain ⟨bytes, hbytes, hperm⟩ := hpair
  have hone : (requestOutput .documented (historySaveRequestCreate .stored
      ([twoPrograms tabbedProgram spacedProgram].foldl (lsmAppHistoryIngest .documented) {}))).map
      (fun bytes => (historyLoadPath .documented .stored bytes).1.appHistory.rows.length) = some 1 := by
    decide +kernel
  rw [hbytes, Option.map_some, Option.some.injEq, hperm.length_eq, List.length_map, htwo] at hone
  exact absurd hone (by decide)

end SystemMonitor.History
