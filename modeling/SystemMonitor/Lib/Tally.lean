import SystemMonitor.Lib.GroupBy

/-! A bounded table with one row for every key.

An item is merged into the row of its key, or begins a row of its own while there is room;
some items are refused. `addAll_isSome_iff`: whatever the order of the items, the table
takes them all exactly when none is refused and their keys are no more than its rows. Then
a row holds what the items of its key amount to (`Tallied.total`, `Tallied.greatest`,
`Tallied.flag`), and what they all keep (`Tallied.induct`). `firstsOf` keeps the first item
of every key. -/
namespace SystemMonitor.Lib.Tally

variable {α β κ : Type} [DecidableEq κ]

/-- The first row with the label is changed; `none`: there is none. -/
def updateRow (label : β → κ) (k : κ) (f : β → β) : List β → Option (List β)
  | [] => none
  | row :: rest => if label row = k then some (f row :: rest) else (updateRow label k f rest).map (row :: ·)

/-- `none`: the key has no row, and there is no room for another. -/
def add (label : β → κ) (room : Nat) (k : κ) (f : β → β) (fresh : β) (rows : List β) : Option (List β) :=
  match updateRow label k f rows with
  | some changed => some changed
  | none => if room ≤ rows.length then none else some (rows ++ [fresh])

theorem updateRow_eq_none_iff {label : β → κ} {k : κ} {f : β → β} {rows : List β} :
    updateRow label k f rows = none ↔ k ∉ rows.map label := by
  induction rows with
  | nil => simp [updateRow]
  | cons row rest ih =>
    by_cases hrow : label row = k
    · simp [updateRow, hrow]
    · simp [updateRow, hrow, ih, Ne.symm hrow]

theorem updateRow_eq_some {label : β → κ} {k : κ} {f : β → β} {rows changed : List β}
    (h : updateRow label k f rows = some changed) :
    ∃ front row back, rows = front ++ row :: back ∧ label row = k ∧ changed = front ++ f row :: back := by
  induction rows generalizing changed with
  | nil => cases h
  | cons row rest ih =>
    rw [updateRow] at h
    split at h
    · rename_i hrow
      exact ⟨[], row, rest, rfl, hrow, (Option.some.inj h).symm⟩
    · obtain ⟨later, hlater, rfl⟩ := Option.map_eq_some_iff.mp h
      obtain ⟨front, found, back, rfl, hfound, rfl⟩ := ih hlater
      exact ⟨row :: front, found, back, rfl, hfound, rfl⟩

/-- How items make rows. What is merged into a row leaves its label. -/
structure Rules (α β κ : Type) where
  refuses : α → Bool
  key : α → κ
  label : β → κ
  fresh : α → β
  merge : β → α → β
  label_merge : ∀ row a, label (merge row a) = label row

namespace Rules
variable (R : Rules α β κ) (room : Nat)

def add (rows : List β) (a : α) : Option (List β) :=
  if R.refuses a then none else Tally.add R.label room (R.key a) (R.merge · a) (R.fresh a) rows

def addAll (rows : List β) (items : List α) : Option (List β) := items.foldlM (R.add room) rows

/-- A row begins with the label of its item's key. -/
def Labelled (items : List α) : Prop := ∀ a ∈ items, R.label (R.fresh a) = R.key a

/-- Every key has one row, and the row is its items merged in their order. -/
structure Tallied (items : List α) (rows : List β) : Prop where
  labels : rows.map R.label = keysOf R.key items
  row : ∀ row ∈ rows, ∃ first more, membersOf R.key items (R.label row) = first :: more ∧
    row = more.foldl R.merge (R.fresh first)

variable {R room} {items more : List α} {rows rows' : List β} {a : α}

theorem Tallied.nil : Tallied R [] [] := ⟨rfl, fun _ h => absurd h List.not_mem_nil⟩

theorem Tallied.nodup (h : Tallied R items rows) : (rows.map R.label).Nodup := h.labels ▸ nodup_keysOf items

theorem Tallied.length (h : Tallied R items rows) : rows.length = (keysOf R.key items).length := by
  rw [← h.labels, List.length_map]

theorem add_eq_none_iff : R.add room rows a = none ↔
    R.refuses a = true ∨ R.key a ∉ rows.map R.label ∧ room ≤ rows.length := by
  rw [add]
  split
  · rename_i hrefused
    exact iff_of_true rfl (.inl hrefused)
  · rename_i hrefused
    rw [or_iff_right hrefused, Tally.add, ← updateRow_eq_none_iff (f := (R.merge · a))]
    cases updateRow R.label (R.key a) (R.merge · a) rows with
    | some changed => simp
    | none => simp

/-- The rows whose label differs keep their members. -/
theorem Tallied.other (h : Tallied R items rows) {row : β} (hrow : row ∈ rows) (hne : R.key a ≠ R.label row) :
    ∃ first more, membersOf R.key (items ++ [a]) (R.label row) = first :: more ∧
      row = more.foldl R.merge (R.fresh first) := by
  rw [membersOf_concat, if_neg hne]
  exact h.row row hrow

/-- One item more. -/
theorem Tallied.step (h : Tallied R items rows) (ha : R.label (R.fresh a) = R.key a)
    (hadd : R.add room rows a = some rows') : Tallied R (items ++ [a]) rows' := by
  have hmem : R.key a ∈ keysOf R.key items ↔ R.key a ∈ rows.map R.label := by rw [h.labels]
  rw [add] at hadd
  split at hadd
  · cases hadd
  rw [Tally.add] at hadd
  split at hadd
  · rename_i changed hchanged
    obtain rfl := Option.some.inj hadd
    obtain ⟨front, row, back, rfl, hrow, rfl⟩ := updateRow_eq_some hchanged
    have hlabels : (front ++ R.merge row a :: back).map R.label = (front ++ row :: back).map R.label := by
      simp [R.label_merge]
    have hkey : R.key a ∈ keysOf R.key items := hmem.mpr (by simp [hrow])
    refine ⟨by rw [hlabels, h.labels, keysOf_concat, if_pos hkey], fun r hr => ?_⟩
    have hnodup := h.nodup
    rw [List.map_append, List.map_cons, List.nodup_middle, List.nodup_cons] at hnodup
    have hapart : ∀ r ∈ front ++ back, R.key a ≠ R.label r := by
      intro r hr heq
      refine hnodup.1 ?_
      rw [hrow, heq, ← List.map_append]
      exact List.mem_map_of_mem hr
    rcases List.mem_append.mp hr with hfront | hr
    · exact h.other (List.mem_append_left _ hfront) (hapart r (List.mem_append_left _ hfront))
    rcases List.mem_cons.mp hr with rfl | hback
    · obtain ⟨first, more, hmembers, hvalue⟩ := h.row row (List.mem_append_right _ (List.mem_cons_self ..))
      refine ⟨first, more ++ [a], ?_, ?_⟩
      · rw [R.label_merge, membersOf_concat, if_pos hrow.symm, hmembers, List.cons_append]
      · rw [List.foldl_append, ← hvalue]
        rfl
    · exact h.other (List.mem_append_right _ (List.mem_cons_of_mem _ hback)) (hapart r (List.mem_append_right _ hback))
  · rename_i hnone
    rw [updateRow_eq_none_iff, ← hmem] at hnone
    split at hadd
    · cases hadd
    obtain rfl := Option.some.inj hadd
    refine ⟨?_, fun r hr => ?_⟩
    · rw [List.map_append, h.labels, keysOf_concat, if_neg hnone, List.map_singleton, ha]
    rcases List.mem_append.mp hr with hold | hnew
    · refine h.other hold fun heq => hnone ?_
      rw [hmem, heq]
      exact List.mem_map_of_mem hold
    · rw [List.mem_singleton.mp hnew]
      refine ⟨a, [], ?_, rfl⟩
      rw [ha, membersOf_concat, if_pos rfl, membersOf_eq_nil.mpr hnone, List.nil_append]

theorem addAll_concat : R.addAll room rows (items ++ [a]) = (R.addAll room rows items).bind (R.add room · a) := by
  rw [addAll, List.foldlM_append]
  simp [addAll]

theorem addAll_append : R.addAll room rows (items ++ more) = (R.addAll room rows items).bind (R.addAll room · more) :=
  List.foldlM_append

theorem addAll_tallied (hlabelled : R.Labelled items) (h : R.addAll room [] items = some rows) :
    Tallied R items rows := by
  induction items using List.reverseRecOn generalizing rows with
  | nil => exact Option.some.inj h ▸ .nil
  | append_singleton items a ih =>
    rw [addAll_concat] at h
    obtain ⟨before, hbefore, hadd⟩ := Option.bind_eq_some_iff.mp h
    have hlast := hlabelled a (List.mem_append_right _ (List.mem_singleton_self a))
    exact (ih (fun b hb => hlabelled b (List.mem_append_left _ hb)) hbefore).step hlast hadd

/-- **The table takes all items exactly when none is refused and there is a row for every key.** -/
theorem addAll_isSome_iff (hlabelled : R.Labelled items) : (R.addAll room [] items).isSome = true ↔
    (∀ a ∈ items, R.refuses a = false) ∧ (keysOf R.key items).length ≤ room := by
  induction items using List.reverseRecOn with
  | nil => exact iff_of_true rfl ⟨fun a h => absurd h List.not_mem_nil, Nat.zero_le _⟩
  | append_singleton items a ih =>
    have hbefore : R.Labelled items := fun b hb => hlabelled b (List.mem_append_left _ hb)
    have hmono : (keysOf R.key items).length ≤ (keysOf R.key (items ++ [a])).length := length_keysOf_append items [a]
    have hrefused : (∀ b ∈ items ++ [a], R.refuses b = false) ↔
        (∀ b ∈ items, R.refuses b = false) ∧ R.refuses a = false := by
      rw [List.forall_mem_append, List.forall_mem_singleton]
    rw [addAll_concat, hrefused]
    cases hall : R.addAll room [] items with
    | none =>
      rw [hall] at ih
      refine iff_of_false (by simp) fun h => ?_
      exact absurd ((ih hbefore).mpr ⟨h.1.1, Nat.le_trans hmono h.2⟩) (by simp)
    | some rows =>
      rw [hall] at ih
      have htallied := addAll_tallied hbefore hall
      have hfits := (ih hbefore).mp rfl
      rw [Option.bind_some, Option.isSome_iff_ne_none, ne_eq, add_eq_none_iff, htallied.labels, htallied.length,
        keysOf_concat, and_iff_right hfits.1]
      cases R.refuses a with
      | true => simp
      | false =>
        split
        · rename_i hkey
          simp [hkey, hfits.2]
        · rename_i hkey
          simp only [hkey, List.length_append, List.length_singleton, Nat.succ_le_iff, Bool.false_eq_true]
          simp

/-- One item in a loop that goes on after a failure: the rows are those of the items so far
as long as there is a table for them. -/
theorem add_cases (hrows : ∀ table, R.addAll room [] items = some table → rows = table) (a : α) :
    (∃ changed, R.add room rows a = some changed ∧
        (∀ table, R.addAll room [] (items ++ [a]) = some table → changed = table) ∧
        (R.addAll room [] (items ++ [a])).isSome = (R.addAll room [] items).isSome) ∨
      R.add room rows a = none ∧ R.addAll room [] (items ++ [a]) = none := by
  rw [addAll_concat]
  cases hall : R.addAll room [] items with
  | none =>
    rw [Option.bind_none]
    cases hadd : R.add room rows a with
    | none => exact .inr ⟨rfl, rfl⟩
    | some changed =>
      refine .inl ⟨changed, rfl, fun table htable => ?_, rfl⟩
      cases htable
  | some table =>
    rw [hrows table hall, Option.bind_some]
    cases hadd : R.add room table a with
    | none => exact .inr ⟨rfl, rfl⟩
    | some changed => exact .inl ⟨changed, rfl, fun _ h => Option.some.inj h, rfl⟩

/-! ### What a row amounts to -/

/-- Amounts that are added under a ceiling. -/
theorem Tallied.total (h : Tallied R items rows) {amount : β → Nat} {w : α → Nat} {ceiling : Nat}
    (hfresh : ∀ a ∈ items, amount (R.fresh a) = min (w a) ceiling)
    (hmerge : ∀ row, amount row ≤ ceiling → ∀ a ∈ items, amount (R.merge row a) = min (amount row + w a) ceiling)
    {row : β} (hrow : row ∈ rows) :
    amount row = min (totalOf R.key w items (R.label row)) ceiling := by
  obtain ⟨first, more, hmembers, hvalue⟩ := h.row row hrow
  have hitems : ∀ a ∈ first :: more, a ∈ items := fun a ha => (List.mem_filter.mp (hmembers ▸ ha)).1
  have hfold : ∀ (later : List α) (start : β), (∀ a ∈ later, a ∈ items) → amount start ≤ ceiling →
      amount (later.foldl R.merge start) = min (amount start + (later.map w).sum) ceiling := by
    intro later
    induction later with
    | nil =>
      intro start _ hstart
      simp [Nat.min_eq_left hstart]
    | cons a later ih =>
      intro start hlater hstart
      have hstep := hmerge start hstart a (hlater a (List.mem_cons_self ..))
      have hle : amount (R.merge start a) ≤ ceiling := hstep ▸ Nat.min_le_right _ _
      rw [List.foldl_cons, ih _ (fun b hb => hlater b (List.mem_cons_of_mem a hb)) hle, hstep, List.map_cons, List.sum_cons]
      omega
  have hfirst := hfresh first (hitems first (List.mem_cons_self ..))
  have hle : amount (R.fresh first) ≤ ceiling := hfirst ▸ Nat.min_le_right _ _
  have hmore := hfold more (R.fresh first) (fun a ha => hitems a (List.mem_cons_of_mem _ ha)) hle
  rw [totalOf, hmembers, List.map_cons, List.sum_cons, hvalue, hmore, hfirst]
  omega

/-- The greatest value, and no less than a floor. -/
theorem Tallied.greatest (h : Tallied R items rows) {value : β → Nat} {w : α → Nat} {floor : Nat}
    (hfresh : ∀ a, value (R.fresh a) = max floor (w a)) (hmerge : ∀ row a, value (R.merge row a) = max (value row) (w a))
    {row : β} (hrow : row ∈ rows) (n : Nat) :
    value row ≤ n ↔ floor ≤ n ∧ ∀ a ∈ items, R.key a = R.label row → w a ≤ n := by
  obtain ⟨first, more, hmembers, hvalue⟩ := h.row row hrow
  have hfold : ∀ (later : List α) (start : β),
      value (later.foldl R.merge start) ≤ n ↔ value start ≤ n ∧ ∀ a ∈ later, w a ≤ n := by
    intro later
    induction later with
    | nil =>
      intro start
      simp
    | cons a later ih =>
      intro start
      rw [List.foldl_cons, ih, hmerge, Nat.max_le, List.forall_mem_cons, and_assoc]
  have hmem : (∀ a ∈ items, R.key a = R.label row → w a ≤ n) ↔ ∀ a ∈ first :: more, w a ≤ n := by
    rw [← hmembers]
    simp [membersOf]
  rw [hmem, List.forall_mem_cons, ← and_assoc, ← Nat.max_le, ← hfresh, ← hfold, ← hvalue]

/-- A flag that an item may set. -/
theorem Tallied.flag (h : Tallied R items rows) {flag : β → Bool} {sets : α → Bool}
    (hfresh : ∀ a, flag (R.fresh a) = sets a) (hmerge : ∀ row a, flag (R.merge row a) = (flag row || sets a))
    {row : β} (hrow : row ∈ rows) :
    flag row = true ↔ ∃ a ∈ items, R.key a = R.label row ∧ sets a = true := by
  obtain ⟨first, more, hmembers, hvalue⟩ := h.row row hrow
  have hfold : ∀ (later : List α) (start : β),
      flag (later.foldl R.merge start) = true ↔ flag start = true ∨ ∃ a ∈ later, sets a = true := by
    intro later
    induction later with
    | nil =>
      intro start
      simp
    | cons a later ih =>
      intro start
      rw [List.foldl_cons, ih, hmerge, Bool.or_eq_true, List.exists_mem_cons_iff, or_assoc]
  have hmem : (∃ a ∈ items, R.key a = R.label row ∧ sets a = true) ↔ ∃ a ∈ first :: more, sets a = true := by
    rw [← hmembers]
    simp [membersOf, and_assoc]
  rw [hmem, List.exists_mem_cons_iff, hvalue, hfold, hfresh]

/-- What begins a row and is kept by the items of its key. -/
theorem Tallied.induct (h : Tallied R items rows) {P : κ → β → Prop} (hfresh : ∀ a ∈ items, P (R.key a) (R.fresh a))
    (hmerge : ∀ row, ∀ a ∈ items, P (R.key a) row → P (R.key a) (R.merge row a)) {row : β} (hrow : row ∈ rows) :
    P (R.label row) row := by
  obtain ⟨first, more, hmembers, hvalue⟩ := h.row row hrow
  have hitems : ∀ a ∈ first :: more, a ∈ items ∧ R.key a = R.label row := by
    intro a ha
    have hmem := List.mem_filter.mp (hmembers ▸ ha)
    exact ⟨hmem.1, of_decide_eq_true hmem.2⟩
  have hfold : ∀ (later : List α) (start : β), (∀ a ∈ later, a ∈ items ∧ R.key a = R.label row) →
      P (R.label row) start → P (R.label row) (later.foldl R.merge start) := by
    intro later
    induction later with
    | nil => exact fun start _ hstart => hstart
    | cons a later ih =>
      intro start hlater hstart
      obtain ⟨ha, hkey⟩ := hlater a (List.mem_cons_self ..)
      exact ih _ (fun b hb => hlater b (List.mem_cons_of_mem a hb)) (hkey ▸ hmerge start a ha (hkey.symm ▸ hstart))
  obtain ⟨hfirst, hkey⟩ := hitems first (List.mem_cons_self ..)
  have hend := hfold more (R.fresh first) (fun a ha => hitems a (List.mem_cons_of_mem _ ha)) (hkey ▸ hfresh first hfirst)
  rwa [← hvalue] at hend

end Rules

/-! ### First items -/

/-- The first item of every key. -/
def firstsOf (key : α → κ) (items : List α) : List α :=
  items.foldl (fun firsts a => if key a ∈ firsts.map key then firsts else firsts ++ [a]) []

section
variable {key : α → κ} {items : List α} {a : α}

theorem firstsOf_concat (items : List α) (a : α) : firstsOf key (items ++ [a]) =
    if key a ∈ (firstsOf key items).map key then firstsOf key items else firstsOf key items ++ [a] :=
  List.foldl_concat ..

theorem map_firstsOf (items : List α) : (firstsOf key items).map key = keysOf key items := by
  induction items using List.reverseRecOn with
  | nil => rfl
  | append_singleton items a ih =>
    rw [firstsOf_concat, keysOf_concat, ih]
    split
    · exact ih
    · rw [List.map_append, ih, List.map_singleton]

theorem mem_of_mem_firstsOf (h : a ∈ firstsOf key items) : a ∈ items := by
  induction items using List.reverseRecOn with
  | nil => cases h
  | append_singleton items b ih =>
    rw [firstsOf_concat] at h
    split at h
    · exact List.mem_append_left _ (ih h)
    · rcases List.mem_append.mp h with h | h
      · exact List.mem_append_left _ (ih h)
      · exact List.mem_append_right _ h

/-- Every item is represented by the first of its key. -/
theorem exists_mem_firstsOf (h : a ∈ items) : ∃ first ∈ firstsOf key items, key first = key a := by
  have hkey : key a ∈ (firstsOf key items).map key := by
    rw [map_firstsOf]
    exact mem_keysOf.mpr ⟨a, h, rfl⟩
  exact List.mem_map.mp hkey

end

end SystemMonitor.Lib.Tally
