import SystemMonitor.Pages.Shape

/-! The Details page from snapshot to snapshot.

A snapshot with the structure of the one before only has its values written into the rows
that are there. Every handler that changes what the settings leave visible asks for a
rebuild; a process that falls asleep, changes hands or is renamed does not. The rows are
right after every call just where each snapshot that keeps the structure keeps the view
(`details_rows_iff`).

The hash of Common enters as a parameter. -/
namespace SystemMonitor.Pages
open Lib ParentWalk

/-- Common's FNV-1a, as far as the page mixes integers with it. -/
structure Fnv where
  offsetBasis : UInt64
  mixU64Le : UInt64 → UInt64 → UInt64

/-- The part of one row in the signature: the two values it is mixed into. -/
def mixRow (fnv : Fnv) (values : UInt64 × UInt64) (key : Nat × Nat × Nat) : UInt64 × UInt64 :=
  let (pid, instanceId, ppid) := key
  let row := fnv.mixU64Le (fnv.mixU64Le (fnv.mixU64Le fnv.offsetBasis pid.toUInt64) instanceId.toUInt64) ppid.toUInt64
  let shift := pid.toUInt64 % 63 + 1
  let rotated := row <<< shift ||| row >>> (64 - shift)
  (values.1 ^^^ rotated, values.2 + row * 0x94d049bb133111eb)

/-- `process_structure_signature`. -/
def processStructureSignature (fnv : Fnv) (treeMode : Bool) (rows : List LsmProcessInfo) : UInt64 :=
  let xorValue : UInt64 := if treeMode then 0x6a09e667f3bcc909 else 0xbb67ae8584caa73b
  let sumValue : UInt64 := rows.length.toUInt64 * 0x9e3779b185ebca87
  let values := rows.foldl (fun values process => mixRow fnv values (structureKey process)) (xorValue, sumValue)
  values.1 ^^^ values.2

/-- `update_details_model_values`; `none`: a row's process is not in the snapshot. -/
def updateDetailsModelValues (rows : List LsmProcessInfo) (store : List DetailsRow) : Option (List DetailsRow) :=
  store.mapM fun row => (processIndexForPid rows row.process.pid).map fun index => ⟨rowAt rows index, row.parent⟩

structure DetailsPage where
  snapshot : ProcessSnapshot
  settings : DetailsSettings
  store : List DetailsRow := []
  dirty : Bool := false
  structureValid : Bool := false
  structureSignature : UInt64 := 0

/-- What happens to the page, up to the call of `lsm_details_present_snapshot` in it. -/
inductive DetailsEvent where
  | snapshot (snap : ProcessSnapshot)
  | search (text : Text)
  | scope (scope : ProcessScope)
  | view (treeMode : Bool)
  | filters (filters : List Text)
  | preferences
  | enter

section
variable (fnv : Fnv) (casefold : Text → Text)

namespace DetailsPage

def rebuilt (s : DetailsPage) : List DetailsRow :=
  (rebuildDetailsModel s.settings.treeMode s.snapshot.rows (processDirectlyVisible casefold s.settings)).getD []

def rebuild (s : DetailsPage) (signature : UInt64) : DetailsPage :=
  { s with store := s.rebuilt casefold, structureSignature := signature, structureValid := true, dirty := false }

/-- `lsm_details_present_snapshot`. -/
def presentSnapshot (s : DetailsPage) : DetailsPage :=
  if !s.dirty then s
  else
    let signature := processStructureSignature fnv s.settings.treeMode s.snapshot.rows
    if !s.structureValid || s.structureSignature ≠ signature then s.rebuild casefold signature
    else
      match updateDetailsModelValues s.snapshot.rows s.store with
      | none => s.rebuild casefold signature
      | some store => { s with store := store, dirty := false }

/-- The handlers of the settings ask for a rebuild. -/
def changeSettings (s : DetailsPage) (settings : DetailsSettings) : DetailsPage :=
  presentSnapshot fnv casefold { s with settings := settings, structureValid := false, dirty := true }

def step (s : DetailsPage) : DetailsEvent → DetailsPage
  | .snapshot snap => presentSnapshot fnv casefold { s with snapshot := snap, dirty := true }
  | .search text => s.changeSettings fnv casefold { s.settings with search := text }
  | .scope scope => if scope = s.settings.scope then s else s.changeSettings fnv casefold { s.settings with scope := scope }
  | .view treeMode =>
    if treeMode = s.settings.treeMode then s else s.changeSettings fnv casefold { s.settings with treeMode := treeMode }
  | .filters filters => s.changeSettings fnv casefold { s.settings with filters := filters }
  | .preferences => presentSnapshot fnv casefold { s with dirty := true }
  | .enter => presentSnapshot fnv casefold s

def run (s : DetailsPage) (events : List DetailsEvent) : DetailsPage := events.foldl (step fnv casefold) s

/-- The page as `lsm_details_build` leaves it, before the first snapshot. -/
def start (settings : DetailsSettings) : DetailsPage where
  snapshot := ⟨[], List.nodup_nil, fun _ h => absurd h List.not_mem_nil⟩
  settings := settings

/-- The rows are those of a rebuild. -/
def Current (s : DetailsPage) : Prop := s.store.Perm (s.rebuilt casefold)

end DetailsPage

/-- The signature tells snapshots of different structure apart. -/
def NoCollision (snapshots : List ProcessSnapshot) : Prop :=
  ∀ a ∈ snapshots, ∀ b ∈ snapshots, ∀ treeMode,
    processStructureSignature fnv treeMode a.rows = processStructureSignature fnv treeMode b.rows → SameStructure a.rows b.rows

def snapshotsOf (events : List DetailsEvent) : List ProcessSnapshot :=
  events.filterMap fun
    | .snapshot snap => some snap
    | _ => none

/-- A snapshot that keeps the structure keeps the view. -/
def KeepsView (snapshot : ProcessSnapshot) (settings : DetailsSettings) : DetailsEvent → Prop
  | .snapshot snap => SameStructure snapshot.rows snap.rows →
      SameView settings.treeMode (processDirectlyVisible casefold settings) snapshot.rows snap.rows
  | _ => True

/-- Every event of the run meets the condition. -/
def Steady : DetailsPage → List DetailsEvent → Prop
  | _, [] => True
  | s, event :: rest => KeepsView casefold s.snapshot s.settings event ∧ Steady (s.step fnv casefold event) rest

end

/-! ### The signature and the values -/

theorem mixRow_comm (fnv : Fnv) (values : UInt64 × UInt64) (a b : Nat × Nat × Nat) :
    mixRow fnv (mixRow fnv values a) b = mixRow fnv (mixRow fnv values b) a := by
  have hxor : ∀ x y z : UInt64, x ^^^ y ^^^ z = x ^^^ z ^^^ y := by
    intro x y z
    rw [UInt64.xor_assoc, UInt64.xor_comm y z, UInt64.xor_assoc]
  have hadd : ∀ x y z : UInt64, x + y + z = x + z + y := by
    intro x y z
    rw [UInt64.add_assoc, UInt64.add_comm y z, UInt64.add_assoc]
  exact Prod.ext (hxor ..) (hadd ..)

/-- The signature does not depend on the order of the rows. -/
theorem SameStructure.signature_eq (fnv : Fnv) (treeMode : Bool) {rows rows' : List LsmProcessInfo}
    (h : SameStructure rows rows') :
    processStructureSignature fnv treeMode rows = processStructureSignature fnv treeMode rows' := by
  have hlength : rows.length = rows'.length := by
    have hlen := List.Perm.length_eq h
    rwa [List.length_map, List.length_map] at hlen
  have hfold : ∀ values : UInt64 × UInt64, rows.foldl (fun values process => mixRow fnv values (structureKey process)) values =
      rows'.foldl (fun values process => mixRow fnv values (structureKey process)) values := by
    intro values
    have hcomm : RightCommutative (mixRow fnv) := ⟨mixRow_comm fnv⟩
    have hkeys : ∀ rows : List LsmProcessInfo, rows.foldl (fun values process => mixRow fnv values (structureKey process)) values =
        (rows.map structureKey).foldl (mixRow fnv) values := fun rows => List.foldl_map.symm
    rw [hkeys, hkeys]
    exact List.Perm.foldl_eq h values
  unfold processStructureSignature
  dsimp only
  rw [hlength, hfold]

/-- Rows of one snapshot are known by their PIDs. -/
theorem perm_of_shape (snap : ProcessSnapshot) {store store' : List DetailsRow}
    (h : ∀ row ∈ store, row.process ∈ snap.rows) (h' : ∀ row ∈ store', row.process ∈ snap.rows) :
    store.Perm store' ↔ (shape store).Perm (shape store') := by
  let rowOf (e : Nat × Option Nat) : DetailsRow := ⟨(snap.rows.find? (·.pid == e.1)).getD {}, e.2⟩
  have hrow : ∀ store : List DetailsRow, (∀ row ∈ store, row.process ∈ snap.rows) → (shape store).map rowOf = store := by
    intro store hstore
    rw [shape, List.map_map]
    refine (List.map_congr_left fun row hmem => ?_).trans (List.map_id store)
    obtain ⟨k, hk, heq⟩ := exists_rowAt (hstore row hmem)
    have hfind := snap.find_pidAt hk
    rw [pidAt, heq] at hfind
    simp only [Function.comp_apply, rowOf, hfind, Option.getD_some, id]
  constructor
  · exact fun hperm => hperm.map _
  · intro hperm
    rw [← hrow store h, ← hrow store' h']
    exact hperm.map rowOf

/-- Writing the values leaves the shape alone. -/
theorem updateDetailsModelValues_some (snap : ProcessSnapshot) {store : List DetailsRow}
    (h : ∀ pid ∈ store.map (·.process.pid), pid ∈ snap.rows.map (·.pid)) :
    ∃ store', updateDetailsModelValues snap.rows store = some store' ∧ shape store' = shape store ∧
      ∀ row ∈ store', row.process ∈ snap.rows := by
  induction store with
  | nil => exact ⟨[], rfl, rfl, fun row hrow => absurd hrow List.not_mem_nil⟩
  | cons row rest ih =>
    obtain ⟨store', heq, hshape, hmem⟩ := ih fun pid hpid => h pid (List.mem_cons_of_mem _ hpid)
    obtain ⟨process, hprocess, hpid⟩ := List.mem_map.mp (h row.process.pid (List.mem_cons_self ..))
    obtain ⟨k, hk, rfl⟩ := exists_rowAt hprocess
    have hindex := snap.processIndexForPid_pidAt hk
    rw [pidAt, hpid] at hindex
    refine ⟨⟨rowAt snap.rows k, row.parent⟩ :: store', ?_, ?_, ?_⟩
    · rw [updateDetailsModelValues, List.mapM_cons, hindex]
      rw [updateDetailsModelValues] at heq
      rw [heq]
      rfl
    · show (_, _) :: shape store' = (_, _) :: shape rest
      rw [hshape, hpid]
    · intro other hother
      rcases List.mem_cons.mp hother with rfl | hother
      · exact hprocess
      · exact hmem other hother

/-! ### Runs -/

section
variable {fnv : Fnv} {casefold : Text → Text}

/-- What every call leaves: the structure rebuilt last is the one of the snapshot. -/
structure DetailsPage.Settled (fnv : Fnv) (seen : List ProcessSnapshot) (s : DetailsPage) : Prop where
  clean : s.dirty = false
  fresh : s.structureValid = false → s.snapshot.rows = []
  base : s.structureValid = true → ∃ base ∈ seen, SameStructure base.rows s.snapshot.rows ∧
    s.structureSignature = processStructureSignature fnv s.settings.treeMode base.rows

theorem SameView.refl (treeMode : Bool) (direct : LsmProcessInfo → Bool) (rows : List LsmProcessInfo) :
    SameView treeMode direct rows rows := ⟨fun _ => Iff.rfl, fun _ _ _ _ _ => Iff.rfl⟩

namespace DetailsPage

theorem rebuilt_eq (s : DetailsPage) : rebuildDetailsModel s.settings.treeMode s.snapshot.rows
    (processDirectlyVisible casefold s.settings) = some (s.rebuilt casefold) := by
  obtain ⟨store, heq, -⟩ := rebuild_some s.settings.treeMode s.snapshot (processDirectlyVisible casefold s.settings)
  rw [rebuilt, heq, Option.getD_some]

theorem rebuilt_mem (s : DetailsPage) : ∀ row ∈ s.rebuilt casefold, row.process ∈ s.snapshot.rows := by
  obtain ⟨store, heq, hmem, -⟩ := rebuild_some s.settings.treeMode s.snapshot (processDirectlyVisible casefold s.settings)
  rw [rebuilt, heq]
  exact hmem

theorem rebuild_current (s : DetailsPage) (signature : UInt64) : (s.rebuild casefold signature).Current casefold :=
  List.Perm.refl _

theorem rebuild_settled {seen : List ProcessSnapshot} (s : DetailsPage) (hseen : s.snapshot ∈ seen) :
    (s.rebuild casefold (processStructureSignature fnv s.settings.treeMode s.snapshot.rows)).Settled fnv seen where
  clean := rfl
  fresh h := by cases h
  base _ := ⟨s.snapshot, hseen, List.Perm.refl _, rfl⟩

theorem present_rebuild {s : DetailsPage} (hdirty : s.dirty = true) (h : s.structureValid = false ∨
    s.structureSignature ≠ processStructureSignature fnv s.settings.treeMode s.snapshot.rows) :
    s.presentSnapshot fnv casefold =
      s.rebuild casefold (processStructureSignature fnv s.settings.treeMode s.snapshot.rows) := by
  rcases h with h | h <;> simp [presentSnapshot, hdirty, h]

theorem present_update {s : DetailsPage} (hdirty : s.dirty = true) (hvalid : s.structureValid = true)
    (hsignature : s.structureSignature = processStructureSignature fnv s.settings.treeMode s.snapshot.rows)
    {store : List DetailsRow} (hstore : updateDetailsModelValues s.snapshot.rows s.store = some store) :
    s.presentSnapshot fnv casefold = { s with store := store, dirty := false } := by
  simp [presentSnapshot, hdirty, hvalid, hsignature, hstore]

/-- The values are written, and the rows are right where the view is the same. -/
theorem update_current {s : DetailsPage} (hcurrent : s.Current casefold) {snap : ProcessSnapshot}
    (hsame : SameStructure s.snapshot.rows snap.rows) : ∃ store, updateDetailsModelValues snap.rows s.store = some store ∧
      (({ s with snapshot := snap, store := store, dirty := false } : DetailsPage).Current casefold ↔
        SameView s.settings.treeMode (processDirectlyVisible casefold s.settings) s.snapshot.rows snap.rows) := by
  have hpids : ∀ pid ∈ s.store.map (·.process.pid), pid ∈ snap.rows.map (·.pid) := by
    intro pid hpid
    obtain ⟨row, hrow, rfl⟩ := List.mem_map.mp hpid
    exact hsame.pid_iff.mp (List.mem_map_of_mem (s.rebuilt_mem row (hcurrent.mem_iff.mp hrow)))
  obtain ⟨store, hupdate, hshape, hmem⟩ := updateDetailsModelValues_some snap hpids
  refine ⟨store, hupdate, ?_⟩
  let s' : DetailsPage := { s with snapshot := snap, store := store, dirty := false }
  have hold : (shape store).Perm (shape (s.rebuilt casefold)) := hshape ▸ hcurrent.map _
  rw [← shape_perm_iff s.settings.treeMode hsame _ s.rebuilt_eq s'.rebuilt_eq]
  refine (perm_of_shape snap hmem s'.rebuilt_mem).trans ?_
  exact ⟨fun h => hold.symm.trans h, fun h => hold.trans h⟩

/-- **One snapshot**: the rows stay those of a rebuild where it keeps the view. -/
theorem present_snapshot {seen : List ProcessSnapshot} (hcollision : NoCollision fnv seen) {s : DetailsPage}
    (hsettled : s.Settled fnv seen) (hcurrent : s.Current casefold) {snap : ProcessSnapshot} (hseen : snap ∈ seen) :
    (presentSnapshot fnv casefold { s with snapshot := snap, dirty := true }).Settled fnv seen ∧
      ((presentSnapshot fnv casefold { s with snapshot := snap, dirty := true }).Current casefold ↔
        KeepsView casefold s.snapshot s.settings (.snapshot snap)) := by
  let s' : DetailsPage := { s with snapshot := snap, dirty := true }
  show (s'.presentSnapshot fnv casefold).Settled fnv seen ∧ ((s'.presentSnapshot fnv casefold).Current casefold ↔ _)
  by_cases hvalid : s.structureValid = true
  · obtain ⟨base, hbase, hstructure, hsignature⟩ := hsettled.base hvalid
    by_cases hsame : s.structureSignature = processStructureSignature fnv s.settings.treeMode snap.rows
    · -- the value-update path
      have hbaseSnap := hcollision base hbase snap hseen _ (hsignature.symm.trans hsame)
      have hsnap : SameStructure s.snapshot.rows snap.rows := hstructure.symm.trans hbaseSnap
      obtain ⟨store, hupdate, hiff⟩ := update_current hcurrent hsnap
      rw [present_update (s := s') rfl hvalid hsame hupdate]
      refine ⟨⟨rfl, ?_, fun _ => ⟨base, hbase, hbaseSnap, hsignature⟩⟩, hiff.trans ?_⟩
      · exact fun h => absurd hvalid (by rw [show s.structureValid = false from h]; decide)
      · exact ⟨fun h _ => h, fun h => h hsnap⟩
    · rw [present_rebuild (s := s') rfl (.inr hsame)]
      refine ⟨s'.rebuild_settled hseen, iff_of_true (s'.rebuild_current _) ?_⟩
      intro hsnap
      refine absurd ?_ hsame
      rw [hsignature, SameStructure.signature_eq fnv _ (hstructure.trans hsnap)]
  · have hfresh := hsettled.fresh (Bool.not_eq_true _ ▸ hvalid)
    rw [present_rebuild (s := s') rfl (.inl (Bool.not_eq_true _ ▸ hvalid))]
    refine ⟨s'.rebuild_settled hseen, iff_of_true (s'.rebuild_current _) ?_⟩
    intro hsnap
    have hempty : snap.rows = [] := by
      have hnil : (snap.rows.map structureKey) = [] := by
        rw [hfresh] at hsnap
        exact List.perm_nil.mp hsnap.symm
      exact List.map_eq_nil_iff.mp hnil
    rw [hfresh, hempty]
    exact SameView.refl ..

theorem change_settled {seen : List ProcessSnapshot} (s : DetailsPage) (settings : DetailsSettings) (hseen : s.snapshot ∈ seen) :
    (s.changeSettings fnv casefold settings).Settled fnv seen ∧ (s.changeSettings fnv casefold settings).Current casefold := by
  let s' : DetailsPage := { s with settings := settings, structureValid := false, dirty := true }
  have heq : s.changeSettings fnv casefold settings = s'.rebuild casefold _ := present_rebuild (s := s') rfl (.inl rfl)
  rw [heq]
  exact ⟨s'.rebuild_settled hseen, s'.rebuild_current _⟩

/-- **One event**: the rows stay those of a rebuild where it keeps the view. -/
theorem step_current {seen : List ProcessSnapshot} (hcollision : NoCollision fnv seen) {s : DetailsPage}
    (hsettled : s.Settled fnv seen) (hcurrent : s.Current casefold) (hsnap : s.snapshot ∈ seen) {event : DetailsEvent}
    (hseen : ∀ snap ∈ snapshotsOf [event], snap ∈ seen) :
    (s.step fnv casefold event).Settled fnv seen ∧
      ((s.step fnv casefold event).Current casefold ↔ KeepsView casefold s.snapshot s.settings event) := by
  have hchange : ∀ settings, (s.changeSettings fnv casefold settings).Settled fnv seen ∧
      ((s.changeSettings fnv casefold settings).Current casefold ↔ True) := fun settings =>
    ⟨(change_settled s settings hsnap).1, iff_true_intro (change_settled s settings hsnap).2⟩
  have hkeep : s.Settled fnv seen ∧ (s.Current casefold ↔ True) := ⟨hsettled, iff_true_intro hcurrent⟩
  cases event with
  | snapshot snap => exact present_snapshot hcollision hsettled hcurrent (hseen snap (List.mem_singleton_self snap))
  | search text => exact hchange _
  | scope scope =>
    rw [step]
    split
    · exact hkeep
    · exact hchange _
  | view treeMode =>
    rw [step]
    split
    · exact hkeep
    · exact hchange _
  | filters filters => exact hchange _
  | preferences =>
    have hpresent := present_snapshot hcollision hsettled hcurrent hsnap
    exact ⟨hpresent.1, iff_true_intro (hpresent.2.mpr fun _ => SameView.refl ..)⟩
  | enter =>
    have hclean : s.presentSnapshot fnv casefold = s := by simp [presentSnapshot, hsettled.clean]
    rw [step, hclean]
    exact hkeep

theorem presentSnapshot_snapshot (s : DetailsPage) : (s.presentSnapshot fnv casefold).snapshot = s.snapshot := by
  unfold presentSnapshot
  dsimp only
  split
  · rfl
  · split
    · rfl
    · split <;> rfl

theorem step_seen {seen : List ProcessSnapshot} {s : DetailsPage} (hsnap : s.snapshot ∈ seen) {event : DetailsEvent}
    (hseen : ∀ snap ∈ snapshotsOf [event], snap ∈ seen) : (s.step fnv casefold event).snapshot ∈ seen := by
  have hchange : ∀ settings, (s.changeSettings fnv casefold settings).snapshot = s.snapshot :=
    fun settings => presentSnapshot_snapshot _
  cases event with
  | snapshot snap =>
    rw [step, presentSnapshot_snapshot]
    exact hseen snap (List.mem_singleton_self snap)
  | search text => exact (hchange _).symm ▸ hsnap
  | scope scope =>
    rw [step]
    split
    · exact hsnap
    · exact (hchange _).symm ▸ hsnap
  | view treeMode =>
    rw [step]
    split
    · exact hsnap
    · exact (hchange _).symm ▸ hsnap
  | filters filters => exact (hchange _).symm ▸ hsnap
  | preferences =>
    rw [step, presentSnapshot_snapshot]
    exact hsnap
  | enter =>
    rw [step, presentSnapshot_snapshot]
    exact hsnap

/-- **A run**: the rows are those of a rebuild throughout where each event meets the condition. -/
theorem run_current {seen : List ProcessSnapshot} (hcollision : NoCollision fnv seen) {events : List DetailsEvent} :
    ∀ {s : DetailsPage}, s.Settled fnv seen → s.Current casefold → s.snapshot ∈ seen →
      (∀ snap ∈ snapshotsOf events, snap ∈ seen) →
      ((∀ n, (s.run fnv casefold (events.take n)).Current casefold) ↔ Steady fnv casefold s events) := by
  induction events with
  | nil =>
    intro s hsettled hcurrent hsnap hseen
    refine iff_of_true (fun n => ?_) trivial
    rw [List.take_nil]
    exact hcurrent
  | cons event rest ih =>
    intro s hsettled hcurrent hsnap hseen
    have hsplit : snapshotsOf (event :: rest) = snapshotsOf [event] ++ snapshotsOf rest := by
      rw [snapshotsOf, snapshotsOf, snapshotsOf, ← List.filterMap_append]
      rfl
    rw [hsplit] at hseen
    have hfirst : ∀ snap ∈ snapshotsOf [event], snap ∈ seen := fun snap h => hseen snap (List.mem_append_left _ h)
    obtain ⟨hsettled', hiff⟩ := step_current hcollision hsettled hcurrent hsnap hfirst
    have hrest := fun hcurrent' => ih hsettled' hcurrent' (step_seen hsnap hfirst)
      fun snap h => hseen snap (List.mem_append_right _ h)
    constructor
    · intro hall
      have hnext : (s.step fnv casefold event).Current casefold := hall 1
      exact ⟨hiff.mp hnext, (hrest hnext).mp fun n => hall (n + 1)⟩
    · intro hsteady n
      cases n with
      | zero => exact hcurrent
      | succ n => exact (hrest (hiff.mpr hsteady.1)).mpr hsteady.2 n

end DetailsPage

end

/-- **The rows are those of a rebuild after every call just where the events meet the condition.** -/
theorem details_rows_iff (fnv : Fnv) (casefold : Text → Text) (settings : DetailsSettings) (events : List DetailsEvent)
    (hcollision : NoCollision fnv ((DetailsPage.start settings).snapshot :: snapshotsOf events)) :
    (∀ n, ((DetailsPage.start settings).run fnv casefold (events.take n)).Current casefold) ↔
      Steady fnv casefold (DetailsPage.start settings) events := by
  refine DetailsPage.run_current hcollision ⟨rfl, fun _ => rfl, fun h => by cases h⟩ ?_ (List.mem_cons_self ..)
    fun snap h => List.mem_cons_of_mem _ h
  have hrows : (DetailsPage.start settings).rebuilt casefold = [] := by
    cases hmode : settings.treeMode <;> simp [DetailsPage.rebuilt, DetailsPage.start, rebuildDetailsModel]
  rw [DetailsPage.Current, hrows]
  exact List.Perm.refl _

/-! ### A process that falls asleep -/

/-- FNV-1a over the eight bytes of an integer, the lowest first. -/
def fnv1a : Fnv where
  offsetBasis := 0xcbf29ce484222325
  mixU64Le hash value := (List.range 8).foldl (fun hash byte =>
    (hash ^^^ (value >>> (8 * byte).toUInt64 &&& 0xff)) * 0x100000001b3) hash

def worker (state : String) : ProcessSnapshot where
  rows := [{ pid := 840, ppid := 1, instanceId := 7200, name := .ofText (ascii "worker"), state := .ofText (ascii state) }]
  distinct := List.nodup_singleton _
  pid_range process h := by
    cases List.mem_singleton.mp h
    exact ⟨Nat.succ_pos _, show 840 < 2 ^ 31 by decide⟩

/-- The process is running, then asleep. -/
def fallsAsleep : List DetailsEvent := [.snapshot (worker "Running"), .snapshot (worker "Sleeping")]

def activeOnly : DetailsPage := .start { scope := .active }

theorem fallsAsleep_noCollision : NoCollision fnv1a (activeOnly.snapshot :: snapshotsOf fallsAsleep) := by
  have hworker : ∀ state state', SameStructure (worker state).rows (worker state').rows := fun _ _ => List.Perm.refl _
  have hempty : ∀ state treeMode, processStructureSignature fnv1a treeMode activeOnly.snapshot.rows ≠
      processStructureSignature fnv1a treeMode (worker state).rows := by
    intro state treeMode
    rw [(hworker state "Running").signature_eq]
    cases treeMode <;> decide
  have hseen : ∀ snap ∈ activeOnly.snapshot :: snapshotsOf fallsAsleep, snap = activeOnly.snapshot ∨ ∃ state, snap = worker state := by
    intro snap h
    simp only [fallsAsleep, snapshotsOf, List.filterMap_cons, List.filterMap_nil, List.mem_cons, List.not_mem_nil, or_false] at h
    rcases h with h | h | h
    · exact .inl h
    · exact .inr ⟨_, h⟩
    · exact .inr ⟨_, h⟩
  intro a ha b hb treeMode h
  rcases hseen a ha with rfl | ⟨state, rfl⟩
  · rcases hseen b hb with rfl | ⟨state', rfl⟩
    · exact List.Perm.refl _
    · exact absurd h (hempty state' treeMode)
  · rcases hseen b hb with rfl | ⟨state', rfl⟩
    · exact absurd h.symm (hempty state treeMode)
    · exact hworker state state'

/-- The run's rows still show the process; a rebuild shows none. -/
theorem details_rows_stale : NoCollision fnv1a (activeOnly.snapshot :: snapshotsOf fallsAsleep) ∧
    (activeOnly.run fnv1a id fallsAsleep).store.map (·.process.pid) = [840] ∧
    (activeOnly.run fnv1a id fallsAsleep).rebuilt id = [] ∧ ¬ (activeOnly.run fnv1a id fallsAsleep).Current id := by
  have hstore : (activeOnly.run fnv1a id fallsAsleep).store.map (·.process.pid) = [840] := by decide
  have hrebuilt : (activeOnly.run fnv1a id fallsAsleep).rebuilt id = [] := by decide
  refine ⟨fallsAsleep_noCollision, hstore, hrebuilt, ?_⟩
  intro hcurrent
  rw [DetailsPage.Current, hrebuilt, List.perm_nil] at hcurrent
  rw [hcurrent] at hstore
  cases hstore

theorem details_rows_iff_fallsAsleep : (∀ n, (activeOnly.run fnv1a id (fallsAsleep.take n)).Current id) ↔
    Steady fnv1a id activeOnly fallsAsleep :=
  details_rows_iff fnv1a id { scope := .active } fallsAsleep fallsAsleep_noCollision

end SystemMonitor.Pages
