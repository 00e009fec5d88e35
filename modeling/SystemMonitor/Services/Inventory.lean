import SystemMonitor.Lib.CStrings
import SystemMonitor.Lib.Upsert
import SystemMonitor.Storage.Model

/-! The services of the system.

The loaded units and the unit files are asked for one after the other, and merged into one entry for
each service, found through an index by its full name. `services_collected`: what is returned is a
function of the two answers, whatever their order, and complete; when an entry cannot be stored,
nothing is returned. -/
namespace SystemMonitor.Services
open Lib CStrings Upsert
open Storage (strcmpKey)

structure LsmServiceEntry where
  name : Chars 128
  description : Chars 256
  active : Chars 32
  substate : Chars 64
  startup : Chars 64
  deriving DecidableEq

/-- A row of `ListUnits`, as far as it is used. -/
structure LoadedUnit where
  name : Text
  description : Text
  active : Text
  substate : Text

/-- A row of `ListUnitFiles`. -/
structure UnitFile where
  path : Text
  state : Text

structure Library where
  pathBasename : Text → Text
  qsort : List LsmServiceEntry → List LsmServiceEntry
  qsort_perm : ∀ entries, (qsort entries).Perm entries
  qsort_sorted : ∀ entries, (qsort entries).Pairwise fun a b => strcmpKey a.name.text ≤ strcmpKey b.name.text

def nameLe (a b : LsmServiceEntry) : Prop := strcmpKey a.name.text ≤ strcmpKey b.name.text

instance : DecidableRel nameLe := fun a b => inferInstanceAs (Decidable (strcmpKey a.name.text ≤ strcmpKey b.name.text))

instance : Std.Total nameLe := ⟨fun _ _ => le_total _ _⟩

instance : IsTrans LsmServiceEntry nameLe := ⟨fun _ _ _ => le_trans⟩

/-- The documented behaviour as functions; the sort is stable. -/
def Library.documented : Library where
  pathBasename t := afterLast 47 t
  qsort entries := entries.insertionSort nameLe
  qsort_perm entries := List.perm_insertionSort _ entries
  qsort_sorted entries := List.pairwise_insertionSort _ entries

/-- What the calls on the bus come back with; `none`: the call failed. `reserve`: whether the array
can hold so many entries. -/
structure Replies where
  bus : Bool := true
  units : Option (List LoadedUnit)
  unitFiles : Option (List UnitFile)
  reserve : Nat → Bool := fun _ => true

/-! ### Merging -/

def isService (name : Text) : Bool := decide (8 ≤ name.length) && (ascii ".service").isSuffixOf name

def newEntry (name : Text) : LsmServiceEntry where
  name := .ofText name
  description := .ofText name
  active := .ofText (ascii "inactive")
  substate := .ofText (ascii "dead")
  startup := .ofText (ascii "unknown")

/-- There is room for an entry behind so many. -/
def Replies.room (replies : Replies) (count : Nat) : Bool := decide (count < uintMax) && replies.reserve (count + 1)

section
variable (room : Nat → Bool)

def serviceGet (t : Indexed Text LsmServiceEntry) (name : Text) : Option (Indexed Text LsmServiceEntry × Nat) :=
  if (t.index name).isNone && !room t.records.length then none else some (t.get name (newEntry name))

/-- The loop over an answer; `none`: an entry cannot be stored. -/
def merge {α : Type} (name : α → Text) (change : α → LsmServiceEntry → LsmServiceEntry) :
    List α → Indexed Text LsmServiceEntry → Option (Indexed Text LsmServiceEntry)
  | [], t => some t
  | item :: rest, t =>
    if !isService (name item) then merge name change rest t
    else match serviceGet room t (name item) with
      | none => none
      | some (t, place) => merge name change rest (t.change place (change item))

def describe (unit : LoadedUnit) (entry : LsmServiceEntry) : LsmServiceEntry :=
  { entry with
    description := .ofText unit.description
    active := .ofText unit.active
    substate := .ofText unit.substate }

def setStartup (file : UnitFile) (entry : LsmServiceEntry) : LsmServiceEntry :=
  {entry with startup := .ofText file.state}

def mergeLoadedUnits : List LoadedUnit → Indexed Text LsmServiceEntry → Option (Indexed Text LsmServiceEntry) :=
  merge room (·.name) describe

def mergeUnitFiles (lib : Library) : List UnitFile → Indexed Text LsmServiceEntry → Option (Indexed Text LsmServiceEntry) :=
  merge room (fun file => lib.pathBasename file.path) setStartup

end

section
variable (lib : Library) (replies : Replies)

def sortEntries (entries : List LsmServiceEntry) : List LsmServiceEntry :=
  if 1 < entries.length then lib.qsort entries else entries

/-- The unit files are left out when they cannot be had. -/
def collectServices : Option (List LsmServiceEntry) :=
  match replies.units with
  | none => none
  | some units =>
    match mergeLoadedUnits replies.room units {} with
    | none => none
    | some t =>
      match replies.unitFiles with
      | none => some (sortEntries lib t.records)
      | some files => (mergeUnitFiles replies.room lib files t).map fun t => sortEntries lib t.records

/-- `none`: with an error. -/
def lsmServiceBackendCollect : Option (List LsmServiceEntry) :=
  if replies.bus then collectServices lib replies else none

/-! ### What the answers say -/

def unitNames : List Text := (replies.units.getD []).map (·.name)

def fileNames : List Text := (replies.unitFiles.getD []).map fun file => lib.pathBasename file.path

/-- The services, each once. -/
def serviceNames : List Text := keysOf id ((unitNames replies ++ fileNames lib replies).filter isService)

/-- The last unit of the name describes the service, and the last unit file says how it starts. -/
def serviceEntry (name : Text) : LsmServiceEntry :=
  let unit := ((replies.units.getD []).filter fun unit => unit.name = name).getLast?
  let file := ((replies.unitFiles.getD []).filter fun file => lib.pathBasename file.path = name).getLast?
  { name := .ofText name
    description := .ofText (unit.elim name (·.description))
    active := .ofText (unit.elim (ascii "inactive") (·.active))
    substate := .ofText (unit.elim (ascii "dead") (·.substate))
    startup := .ofText (file.elim (ascii "unknown") (·.state)) }

end

/-! ### What is merged -/

section
variable {room : Nat → Bool} {α : Type} {name : α → Text} {change : α → LsmServiceEntry → LsmServiceEntry}
variable {t t' : Indexed Text LsmServiceEntry} {ops : List (Text × (LsmServiceEntry → LsmServiceEntry))}

/-- The changes that an answer makes. -/
def changes (name : α → Text) (change : α → LsmServiceEntry → LsmServiceEntry) (items : List α) :
    List (Text × (LsmServiceEntry → LsmServiceEntry)) :=
  (items.filter fun item => isService (name item)).map fun item => (name item, change item)

theorem changes_cons {items : List α} {item : α} (h : isService (name item) = true) :
    ops ++ changes name change (item :: items) = (ops ++ [(name item, change item)]) ++ changes name change items := by
  rw [changes, List.filter_cons, if_pos h, List.map_cons, List.append_cons]
  rfl

theorem changes_cons_other {items : List α} {item : α} (h : isService (name item) = false) :
    changes name change (item :: items) = changes name change items := by
  rw [changes, List.filter_cons, if_neg (Bool.eq_false_iff.mp h)]
  rfl

theorem merge_cons {items : List α} {item : α} (h : isService (name item) = true) :
    merge room name change (item :: items) t =
      if t.index (name item) = none ∧ room t.records.length = false then none
      else merge room name change items (t.upsert (name item) (newEntry (name item)) (change item)) := by
  rw [merge, h, serviceGet]
  by_cases hnew : t.index (name item) = none ∧ room t.records.length = false
  · rw [if_pos hnew, hnew.1, hnew.2]
    rfl
  · rw [if_neg hnew]
    have hget : ((t.index (name item)).isNone && !room t.records.length) = false := by
      rw [Bool.eq_false_iff]
      intro hboth
      rw [Bool.and_eq_true, Option.isNone_iff_eq_none, Bool.not_eq_true'] at hboth
      exact hnew hboth
    rw [hget]
    rfl

theorem merge_cons_other {items : List α} {item : α} (h : isService (name item) = false) :
    merge room name change (item :: items) t = merge room name change items t := by
  rw [merge, h]
  rfl

theorem merge_some {items : List α} (h : Holds newEntry ops t) (hmerge : merge room name change items t = some t') :
    Holds newEntry (ops ++ changes name change items) t' := by
  induction items generalizing t ops with
  | nil =>
    cases hmerge
    rw [changes, List.filter_nil, List.map_nil, List.append_nil]
    exact h
  | cons item rest ih =>
    cases hservice : isService (name item) with
    | false =>
      rw [merge_cons_other hservice] at hmerge
      rw [changes_cons_other hservice]
      exact ih h hmerge
    | true =>
      rw [merge_cons hservice] at hmerge
      rw [changes_cons hservice]
      split at hmerge
      · cases hmerge
      · exact ih (h.upsert (name item) (change item)) hmerge

/-- Merging fails exactly when one of the new entries cannot be stored. -/
theorem merge_eq_none_iff {items : List α} (h : Holds newEntry ops t) : merge room name change items t = none ↔
    ∃ n, (keysOf Prod.fst ops).length ≤ n ∧ n < (keysOf Prod.fst (ops ++ changes name change items)).length ∧ room n = false := by
  induction items generalizing t ops with
  | nil =>
    rw [merge, changes, List.filter_nil, List.map_nil, List.append_nil]
    exact iff_of_false nofun fun ⟨n, hle, hlt, _⟩ => absurd hlt (Nat.not_lt_of_le hle)
  | cons item rest ih =>
    cases hservice : isService (name item) with
    | false =>
      rw [merge_cons_other hservice, changes_cons_other hservice]
      exact ih h
    | true =>
      rw [merge_cons hservice, changes_cons hservice]
      have hmore : (keysOf Prod.fst (ops ++ [(name item, change item)])).length ≤
          (keysOf Prod.fst (ops ++ [(name item, change item)] ++ changes name change rest)).length :=
        length_keysOf_append _ _
      have hrest := ih (h.upsert (name item) (change item))
      have hnew : t.index (name item) = none ↔ name item ∉ keysOf Prod.fst ops := h.indexed.eq_none_iff
      rw [keysOf_concat] at hmore hrest
      by_cases hold : name item ∈ keysOf Prod.fst ops
      · rw [if_pos hold] at hrest
        rw [if_neg fun hboth => hnew.mp hboth.1 hold]
        exact hrest
      · rw [if_neg hold, List.length_append, List.length_singleton] at hmore hrest
        split
        · next hfull => exact iff_of_true rfl ⟨_, Nat.le_refl _, hmore, h.length ▸ hfull.2⟩
        · next hfull =>
          rw [hrest]
          refine exists_congr fun n => ?_
          constructor
          · exact fun ⟨hle, hlt, hn⟩ => ⟨Nat.le_of_succ_le hle, hlt, hn⟩
          · intro ⟨hle, hlt, hn⟩
            refine ⟨Nat.lt_of_le_of_ne hle ?_, hlt, hn⟩
            rintro rfl
            exact hfull ⟨hnew.mpr hold, h.length ▸ hn⟩

end

/-! ### What the entries are -/

/-- Of changes that leave nothing of each other, the last remains. -/
theorem foldl_last {α ρ : Type} {f : ρ → α → ρ} (hf : ∀ r a b, f (f r a) b = f r b) (r : ρ) (l : List α) :
    l.foldl f r = l.getLast?.elim r (f r) := by
  induction l using List.reverseRecOn with
  | nil => rfl
  | append_singleton rest a ih =>
    rw [List.foldl_append, List.getLast?_append, ih]
    cases rest.getLast? with
    | none => rfl
    | some b => exact hf r b a

theorem membersOf_changes {α : Type} {name : α → Text} (change : α → LsmServiceEntry → LsmServiceEntry) (items : List α)
    {k : Text} (hk : isService k = true) :
    membersOf Prod.fst (changes name change items) k = (items.filter fun item => name item = k).map fun item => (name item, change item) := by
  rw [membersOf, changes, List.filter_map, List.filter_filter]
  refine congrArg _ (List.filter_congr fun item _ => ?_)
  by_cases hname : name item = k
  · simp [hname, hk]
  · simp [hname]

section
variable (lib : Library) (replies : Replies)

/-- All changes, in order. -/
def allChanges : List (Text × (LsmServiceEntry → LsmServiceEntry)) :=
  changes (·.name) describe (replies.units.getD []) ++
    changes (fun file => lib.pathBasename file.path) setStartup (replies.unitFiles.getD [])

theorem keysOf_allChanges : keysOf Prod.fst (allChanges lib replies) = serviceNames lib replies := by
  have hnames {α : Type} (name : α → Text) (change : α → LsmServiceEntry → LsmServiceEntry) (items : List α) :
      (changes name change items).map Prod.fst = (items.map name).filter isService := by
    rw [changes, List.map_map, List.filter_map]
    rfl
  rw [serviceNames, keysOf, keysOf, allChanges, List.map_append, hnames, hnames, List.map_id, ← List.filter_append]
  rfl

theorem recordOf_allChanges {k : Text} (hk : isService k = true) :
    recordOf newEntry (allChanges lib replies) k = serviceEntry lib replies k := by
  have hmembers : membersOf Prod.fst (allChanges lib replies) k =
      ((replies.units.getD []).filter fun unit => unit.name = k).map (fun unit => (unit.name, describe unit)) ++
        ((replies.unitFiles.getD []).filter fun file => lib.pathBasename file.path = k).map
          fun file => (lib.pathBasename file.path, setStartup file) := by
    rw [allChanges, membersOf, List.filter_append, ← membersOf, ← membersOf, membersOf_changes _ _ hk, membersOf_changes _ _ hk]
  rw [recordOf, hmembers, List.foldl_append, List.foldl_map, List.foldl_map]
  rw [foldl_last (f := fun entry (unit : LoadedUnit) => describe unit entry) fun _ _ _ => rfl]
  rw [foldl_last (f := fun entry (file : UnitFile) => setStartup file entry) fun _ _ _ => rfl, serviceEntry]
  cases ((replies.units.getD []).filter fun unit => unit.name = k).getLast? with
  | none =>
    cases ((replies.unitFiles.getD []).filter fun file => lib.pathBasename file.path = k).getLast? with
    | none => rfl
    | some file => rfl
  | some unit =>
    cases ((replies.unitFiles.getD []).filter fun file => lib.pathBasename file.path = k).getLast? with
    | none => rfl
    | some file => rfl

/-- All entries are those of the services. -/
theorem records_of_holds {t : Indexed Text LsmServiceEntry} (h : Holds newEntry (allChanges lib replies) t) :
    t.records = (serviceNames lib replies).map (serviceEntry lib replies) := by
  rw [h.records, keysOf_allChanges]
  refine List.map_congr_left fun k hk => recordOf_allChanges lib replies ?_
  obtain ⟨name, hname, rfl⟩ := mem_keysOf.mp hk
  exact (List.mem_filter.mp hname).2

theorem sortEntries_perm (entries : List LsmServiceEntry) : (sortEntries lib entries).Perm entries := by
  rw [sortEntries]
  split
  · exact lib.qsort_perm entries
  · exact .refl _

theorem sortEntries_sorted (entries : List LsmServiceEntry) :
    (sortEntries lib entries).Pairwise fun a b => strcmpKey a.name.text ≤ strcmpKey b.name.text := by
  rw [sortEntries]
  split
  · exact lib.qsort_sorted entries
  · next hshort =>
    match entries with
    | [] => exact .nil
    | [_] => exact List.pairwise_singleton ..
    | _ :: _ :: _ => simp at hshort

/-- Both loops together. -/
theorem collectServices_eq {units : List LoadedUnit} (hunits : replies.units = some units) :
    (collectServices lib replies = none ↔ ∃ n < (serviceNames lib replies).length, replies.room n = false) ∧
      ∀ entries, collectServices lib replies = some entries →
        entries = sortEntries lib ((serviceNames lib replies).map (serviceEntry lib replies)) := by
  have hall : allChanges lib replies = changes (·.name) describe units ++
      changes (fun file => lib.pathBasename file.path) setStartup (replies.unitFiles.getD []) := by
    rw [allChanges, hunits, Option.getD_some]
  have hlength : (serviceNames lib replies).length = (keysOf Prod.fst (allChanges lib replies)).length := by
    rw [keysOf_allChanges]
  have hfirst : mergeLoadedUnits replies.room units {} = none ↔
      ∃ n < (keysOf Prod.fst (changes (·.name) describe units)).length, replies.room n = false := by
    rw [mergeLoadedUnits, merge_eq_none_iff Holds.nil, List.nil_append]
    exact exists_congr fun n => and_iff_right (Nat.zero_le n)
  have hmore : (keysOf Prod.fst (changes (·.name) describe units)).length ≤ (serviceNames lib replies).length := by
    rw [hlength, hall]
    exact length_keysOf_append _ _
  rw [collectServices, hunits]
  dsimp only
  cases hmerged : mergeLoadedUnits replies.room units {} with
  | none =>
    obtain ⟨n, hn, hroom⟩ := hfirst.mp hmerged
    exact ⟨iff_of_true rfl ⟨n, Nat.lt_of_lt_of_le hn hmore, hroom⟩, nofun⟩
  | some t =>
    have hroom : ¬∃ n < (keysOf Prod.fst (changes (·.name) describe units)).length, replies.room n = false := fun h =>
      nomatch (hfirst.mpr h).symm.trans hmerged
    have ht : Holds newEntry (changes (·.name) describe units) t := merge_some Holds.nil hmerged
    cases hfiles : replies.unitFiles with
    | none =>
      have hunitsOnly : allChanges lib replies = changes (·.name) describe units := by
        rw [hall, hfiles, Option.getD_none]
        exact List.append_nil _
      rw [hlength, hunitsOnly]
      refine ⟨iff_of_false nofun hroom, fun entries hentries => ?_⟩
      cases hentries
      rw [records_of_holds lib replies (hunitsOnly ▸ ht)]
    | some files =>
      have hboth : allChanges lib replies = changes (·.name) describe units ++
          changes (fun file => lib.pathBasename file.path) setStartup files := by
        rw [hall, hfiles, Option.getD_some]
      constructor
      · rw [Option.map_eq_none_iff, mergeUnitFiles, merge_eq_none_iff ht, hlength, hboth]
        constructor
        · exact fun ⟨n, _, hlt, hn⟩ => ⟨n, hlt, hn⟩
        · exact fun ⟨n, hlt, hn⟩ => ⟨n, Nat.le_of_not_lt fun hless => hroom ⟨n, hless, hn⟩, hlt, hn⟩
      · intro entries hentries
        obtain ⟨t', ht', rfl⟩ := Option.map_eq_some_iff.mp hentries
        rw [records_of_holds lib replies (hboth ▸ merge_some ht ht')]

end

/-- **The services are what the answers say, or nothing is returned**: every service that is loaded or has a unit
file stands in the list once, in the order of the names, described by the last unit of its name and started as the
last unit file says; there is no list when the bus or the units cannot be had or an entry cannot be stored. -/
theorem services_collected (lib : Library) (replies : Replies) :
    (lsmServiceBackendCollect lib replies = none ↔ replies.bus = false ∨ replies.units = none ∨
      ∃ n < (serviceNames lib replies).length, replies.room n = false) ∧
    ∀ entries, lsmServiceBackendCollect lib replies = some entries →
      entries.Perm ((serviceNames lib replies).map (serviceEntry lib replies)) ∧
        entries.Pairwise fun a b => strcmpKey a.name.text ≤ strcmpKey b.name.text := by
  rw [lsmServiceBackendCollect]
  cases hbus : replies.bus with
  | false => exact ⟨iff_of_true rfl (.inl rfl), nofun⟩
  | true =>
    cases hunits : replies.units with
    | none =>
      have hnone : collectServices lib replies = none := by
        rw [collectServices, hunits]
      exact ⟨iff_of_true hnone (.inr (.inl rfl)), fun entries h => nomatch hnone.symm.trans h⟩
    | some units =>
      obtain ⟨hnone, hsome⟩ := collectServices_eq lib replies hunits
      refine ⟨?_, fun entries hentries => ?_⟩
      · rw [if_pos rfl, hnone]
        simp
      · rw [hsome entries hentries]
        exact ⟨sortEntries_perm lib _, sortEntries_sorted lib _⟩

end SystemMonitor.Services
