import Mathlib.Algebra.BigOperators.Group.Multiset.Basic
import SystemMonitor.Lib.Machine
import SystemMonitor.Pages.Groups
import SystemMonitor.Pages.Update

/-! The Processes page from snapshot to snapshot.

Groups with the structure of those shown have their values written into the rows that are
there, found by their keys and PIDs; any others are shown by a rebuild. The signature is
taken of what is shown, so unlike the Details page this one is right after every call, but for
the order of groups within a category and of processes within a group (`processes_page`), and no
row is ever written from a group that has become empty.

The hash of Common enters as a parameter, the identities and failures as in `GroupCall`. -/
namespace SystemMonitor.Pages
open Lib

/-! ### Rows -/

inductive ProcessRowKind where
  | category
  | group
  | process
  deriving DecidableEq

structure GroupedRow where
  icon : Text
  name : Text
  status : Text
  cpu : Double
  memory : Nat
  disk : ℚ
  diskAvailable : Bool
  gpu : Double := .finite 0
  gpuEngine : Text
  gpuAvailable : Bool := false
  pid : Nat
  kind : ProcessRowKind
  key : Text
  deriving DecidableEq

structure GroupNode where
  row : GroupedRow
  children : List GroupedRow := []
  deriving DecidableEq

/-- A row at the top of the tree store, with the rows below it. -/
structure CategoryNode where
  row : GroupedRow
  groups : List GroupNode := []
  deriving DecidableEq

namespace ProcessCategory

/-- `category_name`. -/
def title : ProcessCategory → Text
  | .application => ascii "Applications"
  | .background => ascii "Background processes"
  | .system => ascii "System processes"

/-- `category_icon`. -/
def icon : ProcessCategory → Text
  | .application => ascii "applications-other"
  | .background => ascii "system-run"
  | .system => ascii "computer"

def all : List ProcessCategory := [.application, .background, .system]

end ProcessCategory

/-- A count in parentheses behind a name. -/
def counted (name : Text) (count : Nat) : Text := name ++ ascii " (" ++ Decimal.print count ++ ascii ")"

def engineText (available : Bool) (engine : Text) : Text := if available && engine ≠ [] then engine else ascii "N/A"

section
variable (env : GroupEnv)

/-- The sum of two rates, zero where it is not finite and positive. -/
def childDisk : Double → Double → ℚ
  | .finite read, .finite write =>
    let disk := env.round (read + write)
    if 0 < disk ∧ disk ≤ dblMax then disk else 0
  | _, _ => 0

def setProcessChildRow (group : ProcessGroup) (process : LsmProcessInfo) : GroupedRow where
  icon := group.icon.text
  name := process.name.text
  status := process.state.text
  cpu := process.cpuPercent
  memory := process.rssBytes
  disk := childDisk env process.readBytesPerSec process.writeBytesPerSec
  diskAvailable := process.ioRateAvailable
  gpu := process.gpuPercent
  gpuEngine := engineText process.gpuAvailable process.gpuEngine.text
  gpuAvailable := process.gpuAvailable
  pid := process.pid
  kind := .process
  key := group.key.text

/-- `representative`: the first of the group's processes. -/
def setGroupRow (group : ProcessGroup) (representative : LsmProcessInfo) : GroupedRow where
  icon := group.icon.text
  name := if 1 < group.indices.length then counted group.name.text group.indices.length else group.name.text
  status :=
    if group.metrics.allStopped then ascii "Suspended"
    else if group.metrics.allEfficient then ascii "Efficiency mode"
    else []
  cpu := .finite group.metrics.cpuPercent
  memory := group.metrics.memoryBytes
  disk := group.metrics.diskBytesPerSec
  diskAvailable := group.metrics.diskAvailable
  gpu := .finite group.metrics.gpuPercent
  gpuEngine := engineText group.metrics.gpuAvailable group.metrics.gpuEngine.text
  gpuAvailable := group.metrics.gpuAvailable
  pid := representative.pid
  kind := .group
  key := group.key.text

variable (rows : List LsmProcessInfo)

def appendGroup (group : ProcessGroup) : GroupNode where
  row := setGroupRow group (rowAt rows (group.indices.headD 0))
  children :=
    if 1 < group.indices.length
      then group.indices.map fun index => setProcessChildRow env group (rowAt rows index)
      else []

/-! ### The rebuild -/

def categoryGroups (groups : List ProcessGroup) (category : ProcessCategory) : List ProcessGroup :=
  groups.filter fun group => group.category = category

def categoryRow (groups : List ProcessGroup) (category : ProcessCategory) : GroupedRow where
  icon := category.icon
  name := counted category.title (categoryGroups groups category).length
  status := []
  cpu := .finite 0
  memory := 0
  disk := 0
  diskAvailable := false
  gpuEngine := []
  pid := 0
  kind := .category
  key := []

def categoryNode (groups : List ProcessGroup) (category : ProcessCategory) : CategoryNode where
  row := categoryRow groups category
  groups := (categoryGroups groups category).map (appendGroup env rows)

/-- The categories that have a group. -/
def categoriesOf (groups : List ProcessGroup) : List ProcessCategory :=
  ProcessCategory.all.filter fun category => categoryGroups groups category ≠ []

/-- `rebuild_grouped_model`: the rows of the store afterwards. -/
def rebuildGroupedModel (groups : List ProcessGroup) : List CategoryNode :=
  (categoriesOf groups).map (categoryNode env rows groups)

/-- The text of the count label. -/
def countLabel (groups : List ProcessGroup) : Text :=
  let count := fun category => Decimal.print (categoryGroups groups category).length
  ascii "Apps: " ++ count .application ++ ascii "   Background: " ++ count .background ++
    ascii "   System: " ++ count .system ++ ascii "   Processes: " ++
    Decimal.print (groups.map (·.indices.length)).sum

/-! ### The update in place -/

/-- `stray`: an empty group was to be shown. Its first index is left from an earlier snapshot,
and the source would read the present one there. -/
inductive UpdateFailure where
  | refused
  | stray
  deriving DecidableEq

/-- A child's row, from the process that now has its PID. -/
def updateChild (group : ProcessGroup) (child : GroupedRow) : Except UpdateFailure GroupedRow :=
  match processIndexForPid rows child.pid with
  | some index => .ok (setProcessChildRow env group (rowAt rows index))
  | none => .error .refused

/-- `update_group_children`. -/
def updateGroupChildren (group : ProcessGroup) (children : List GroupedRow) : Except UpdateFailure (List GroupedRow) :=
  if group.indices.length ≤ 1 then
    if children = [] then .ok [] else .error .refused
  else if children = [] then .error .refused
  else do
    let updated ← children.mapM (updateChild env rows group)
    if updated.length = group.indices.length then .ok updated else .error .refused

/-- One group's row, and those below it. -/
def updateGroupNode (cache : List ProcessGroup) (node : GroupNode) : Except UpdateFailure GroupNode :=
  match cache.find? fun group => group.key.text = node.row.key with
  | none => .error .refused
  | some group =>
    match group.indices with
    | [] => .error .stray
    | first :: _ => do
      let children ← updateGroupChildren env rows group node.children
      return {row := setGroupRow group (rowAt rows first), children}

def updateCategoryNode (cache : List ProcessGroup) (node : CategoryNode) : Except UpdateFailure CategoryNode :=
  if node.row.kind ≠ .category then .error .refused
  else do
    let groups ← node.groups.mapM (updateGroupNode env rows cache)
    return {node with groups}

/-- `update_grouped_model_values`; what it wrote before it refused is cleared by the rebuild. -/
def updateGroupedModelValues (cache groups : List ProcessGroup) (store : List CategoryNode) :
    Except UpdateFailure (List CategoryNode) := do
  let updated ← store.mapM (updateCategoryNode env rows cache)
  if (updated.map (·.groups.length)).sum = groups.length then .ok updated else .error .refused

end

/-! ### The signature -/

/-- Common's FNV-1a, as far as the page mixes bytes and texts with it. -/
structure TextFnv extends Fnv where
  mixByte : UInt64 → UInt8 → UInt64
  mixText : UInt64 → Text → UInt64

section
variable (fnv : TextFnv) (rows : List LsmProcessInfo)

def mixMember (values : UInt64 × UInt64) (index : Nat) : UInt64 × UInt64 :=
  let process := rowAt rows index
  let identity := process.pid.toUInt64 * 0x94d049bb133111eb ^^^ process.instanceId.toUInt64
  let shift := process.pid.toUInt64 % 63 + 1
  let rotated := identity <<< shift ||| identity >>> (64 - shift)
  (values.1 ^^^ rotated, values.2 + rotated * 0xbf58476d1ce4e5b9)

def mixGroup (values : UInt64 × UInt64) (group : ProcessGroup) : UInt64 × UInt64 :=
  let hash := fnv.mixByte fnv.offsetBasis group.category.number.toUInt8
  let hash := fnv.mixText (fnv.mixText (fnv.mixText hash group.key.text) group.name.text) group.icon.text
  let children := group.indices.foldl (mixMember rows) (0, 0)
  let hash := (hash ^^^ children.1) + children.2
  (values.1 ^^^ hash, values.2 + hash * 0x94d049bb133111eb)

/-- `grouped_structure_signature`. -/
def groupedStructureSignature (groups : List ProcessGroup) : UInt64 :=
  let values := groups.foldl (mixGroup fnv rows) (0x243f6a8885a308d3, groups.length.toUInt64 * 0x9e3779b185ebca87)
  values.1 ^^^ values.2

end

/-! ### The page -/

/-- A call with a snapshot as a scan delivers it. -/
structure PageCall extends GroupCall where
  distinct : (rows.map (·.pid)).Nodup
  pid_range : ∀ process ∈ rows, 0 < process.pid ∧ process.pid < 2 ^ 31

def PageCall.snapshot (call : PageCall) : ProcessSnapshot := ⟨call.rows, call.distinct, call.pid_range⟩

structure ProcessesPage where
  processGroupCache : List ProcessGroup := []
  store : List CategoryNode := []
  countLabel : Text := ascii "Apps: 0   Background: 0   System: 0   Processes: 0"
  modelDirty : Bool := false
  structureValid : Bool := false
  structureSignature : UInt64 := 0

/-- What happens to the page. The search, the filters and the catalogue ask for a rebuild, a
snapshot and the preferences do not. -/
inductive PageEvent where
  | changed
  | rebuild
  | present (call : PageCall)

/-- What a call shows. -/
structure PageView where
  rows : List LsmProcessInfo
  groups : List ProcessGroup

namespace ProcessesPage
variable (env : GroupEnv) (fnv : TextFnv)

def rebuilt (page : ProcessesPage) (view : PageView) : ProcessesPage :=
  {page with
    store := rebuildGroupedModel env view.rows view.groups
    countLabel := Pages.countLabel view.groups
    structureSignature := groupedStructureSignature fnv view.rows view.groups
    structureValid := true
    modelDirty := false}

/-- `lsm_processes_present_snapshot`; `none`: it reads where nothing is. -/
def presentSnapshot (page : ProcessesPage) (call : PageCall) : Option ProcessesPage :=
  if !page.modelDirty then some page
  else
    match collectGroups env call.toGroupCall page.processGroupCache with
    | (cache, none) => some {page with processGroupCache := cache}
    | (cache, some groups) =>
      let page := {page with processGroupCache := cache}
      if !page.structureValid || page.structureSignature ≠ groupedStructureSignature fnv call.rows groups then
        some (page.rebuilt env fnv ⟨call.rows, groups⟩)
      else
        match updateGroupedModelValues env call.rows cache groups page.store with
        | .ok store => some {page with store, modelDirty := false}
        | .error .refused => some (page.rebuilt env fnv ⟨call.rows, groups⟩)
        | .error .stray => none

def step (page : ProcessesPage) : PageEvent → Option ProcessesPage
  | .changed => some {page with modelDirty := true}
  | .rebuild => some {page with modelDirty := true, structureValid := false}
  | .present call => page.presentSnapshot env fnv call

def machine : Machine ProcessesPage PageEvent := ⟨step env fnv⟩

/-- The calls that could be collected. -/
def collected (page : ProcessesPage) : PageEvent → List PageCall
  | .present call =>
    if page.modelDirty && (collectGroups env call.toGroupCall page.processGroupCache).2.isSome then [call] else []
  | _ => []

end ProcessesPage

/-! ### What is shown, but for the order -/

/-- A row with those below it, in no order. -/
def GroupNode.content (node : GroupNode) : GroupedRow × Multiset GroupedRow := (node.row, node.children)

def CategoryNode.content (node : CategoryNode) : GroupedRow × Multiset (GroupedRow × Multiset GroupedRow) :=
  (node.row, (node.groups : Multiset GroupNode).map GroupNode.content)

def contentOf (store : List CategoryNode) : List (GroupedRow × Multiset (GroupedRow × Multiset GroupedRow)) :=
  store.map CategoryNode.content

/-- What the signature is taken of. -/
def groupShape (rows : List LsmProcessInfo) (group : ProcessGroup) : ProcessIdentity × Multiset (Nat × Nat) :=
  (group.toProcessIdentity,
    (group.indices : Multiset Nat).map fun index => ((rowAt rows index).pid, (rowAt rows index).instanceId))

def PageView.shape (view : PageView) : Multiset (ProcessIdentity × Multiset (Nat × Nat)) :=
  (view.groups : Multiset ProcessGroup).map (groupShape view.rows)

/-- What a call is to show, from its input alone. -/
def PageCall.view (env : GroupEnv) (call : PageCall) : PageView where
  rows := call.rows
  groups := (call.groups env (call.passing env)).mergeSort (compareGroups env)

/-- The signature tells views of different shape apart. -/
def TellsApart (env : GroupEnv) (fnv : TextFnv) (calls : List PageCall) : Prop :=
  ∀ a ∈ calls, ∀ b ∈ calls,
    groupedStructureSignature fnv (a.view env).rows (a.view env).groups =
      groupedStructureSignature fnv (b.view env).rows (b.view env).groups → (a.view env).shape = (b.view env).shape

/-! ### What is collected -/

section
variable {env : GroupEnv}

/-- The groups returned are in the cache. -/
theorem collectGroups_cached {call : GroupCall} {cache groups : List ProcessGroup}
    (h : (collectGroups env call cache).2 = some groups) :
    ∀ group ∈ groups, group ∈ (collectGroups env call cache).1 := by
  unfold collectGroups at h ⊢
  dsimp only at h ⊢
  split at h
  · cases h
  · rename_i hstart
    rw [if_neg hstart]
    split at h
    · cases h
    · rename_i hfold
      rw [if_neg hfold]
      split at h
      · cases h
      · cases h
        intro group hgroup
        obtain ⟨place, -, hplace⟩ := List.mem_filterMap.mp (List.mem_mergeSort.mp hgroup)
        exact List.mem_of_getElem? hplace

/-- What a call that returned groups has left. -/
structure Collected (env : GroupEnv) (call : PageCall) (cache : List ProcessGroup) : Prop where
  once : (cache.map (·.key)).Nodup
  cached : ∀ group ∈ (call.view env).groups, group ∈ cache
  nonempty : ∀ group ∈ (call.view env).groups, group.indices ≠ []
  bounded : ∀ group ∈ (call.view env).groups, ∀ index ∈ group.indices, index < call.rows.length

theorem collectGroups_collected {call : PageCall} {cache : List ProcessGroup} (hcache : (cache.map (·.key)).Nodup)
    {groups : List ProcessGroup} (h : (collectGroups env call.toGroupCall cache).2 = some groups) :
    groups = (call.view env).groups ∧ Collected env call (collectGroups env call.toGroupCall cache).1 := by
  obtain ⟨honce, hgroups⟩ := @collectGroups_spec env call.toGroupCall cache hcache
  have hmerged := hgroups groups h
  have heq : groups = (call.view env).groups := hmerged
  have hgrouped := grouped groups (hmerged ▸ List.mergeSort_perm _ _)
  refine ⟨heq, honce, ?_, ?_, ?_⟩
  · exact heq ▸ collectGroups_cached h
  · exact heq ▸ hgrouped.nonempty
  · intro group hgroup index hindex
    rw [← heq] at hgroup
    rw [hgrouped.members group hgroup] at hindex
    exact List.mem_range.mp (List.mem_filter.mp hindex).1

theorem Collected.find {call : PageCall} {cache : List ProcessGroup} (h : Collected env call cache) {group : ProcessGroup}
    (hgroup : group ∈ (call.view env).groups) :
    cache.find? (fun other => other.key.text = group.key.text) = some group := by
  have hsome : (cache.find? fun other => other.key.text = group.key.text).isSome = true :=
    List.find?_isSome.mpr ⟨group, h.cached group hgroup, decide_eq_true rfl⟩
  obtain ⟨other, hother⟩ := Option.isSome_iff_exists.mp hsome
  have hkey : other.key = group.key := Chars.eq_of_text (by simpa using List.find?_some hother)
  rw [hother, List.inj_on_of_nodup_map h.once (List.mem_of_find?_eq_some hother) (h.cached group hgroup) hkey]

/-! ### Writing the values in place -/

/-- Where each call succeeds, so does the loop. -/
theorem mapM_ok {α β γ δ ε : Type} {R : α → δ → Prop} {f : α → Except ε β} {c : β → γ} {d : δ → γ} {l : List α}
    {m : List δ} (hlists : List.Forall₂ R l m) (h : ∀ a b, R a b → ∃ updated, f a = .ok updated ∧ c updated = d b) :
    ∃ updated, l.mapM f = .ok updated ∧ updated.map c = m.map d := by
  induction hlists with
  | nil => exact ⟨[], rfl, rfl⟩
  | cons hab _ ih =>
    obtain ⟨first, hfirst, hc⟩ := h _ _ hab
    obtain ⟨rest, hrest, hmap⟩ := ih
    refine ⟨first :: rest, ?_, ?_⟩
    · rw [List.mapM_cons, hfirst, hrest]
      rfl
    · rw [List.map_cons, List.map_cons, hc, hmap]

theorem mapM_ok_self {α β γ ε : Type} {f : α → Except ε β} {c : β → γ} {d : α → γ} {l : List α}
    (h : ∀ a ∈ l, ∃ updated, f a = .ok updated ∧ c updated = d a) :
    ∃ updated, l.mapM f = .ok updated ∧ updated.map c = l.map d := by
  have hsame : List.Forall₂ (fun a b => a = b ∧ a ∈ l) l l := List.forall₂_same.mpr fun a ha => ⟨rfl, ha⟩
  refine mapM_ok hsame ?_
  rintro a _ ⟨rfl, ha⟩
  exact h a ha

variable (env) in
theorem updateGroupChildren_ok (snap : ProcessSnapshot) {group : ProcessGroup}
    (hbounded : ∀ index ∈ group.indices, index < snap.rows.length) {children : List GroupedRow}
    (hpids : (children : Multiset GroupedRow).map (·.pid) =
      if 1 < group.indices.length then (group.indices : Multiset Nat).map (pidAt snap.rows) else 0) :
    ∃ updated, updateGroupChildren env snap.rows group children = .ok updated ∧
      (updated : Multiset GroupedRow) = (appendGroup env snap.rows group).children := by
  unfold updateGroupChildren appendGroup
  by_cases hmany : 1 < group.indices.length
  · rw [if_pos hmany] at hpids
    have hcard : children.length = group.indices.length := by
      simpa using congrArg Multiset.card hpids
    have hsome : children ≠ [] := by
      rintro rfl
      rw [← hcard] at hmany
      exact absurd hmany (by simp)
    let render : Nat → GroupedRow := fun pid =>
      setProcessChildRow env group (rowAt snap.rows ((processIndexForPid snap.rows pid).getD 0))
    have hrender : ∀ index ∈ group.indices, render (pidAt snap.rows index) =
        setProcessChildRow env group (rowAt snap.rows index) := by
      intro index hindex
      simp only [render, snap.processIndexForPid_pidAt (hbounded index hindex), Option.getD_some]
    obtain ⟨updated, hloop, hupdated⟩ : ∃ updated, children.mapM (updateChild env snap.rows group) = .ok updated ∧
        updated.map id = children.map fun child => render child.pid := by
      refine mapM_ok_self fun child hchild => ?_
      have hpid : child.pid ∈ (group.indices : Multiset Nat).map (pidAt snap.rows) := by
        rw [← hpids]
        exact Multiset.mem_map_of_mem GroupedRow.pid (Multiset.mem_coe.mpr hchild)
      obtain ⟨index, hindex, heq⟩ := Multiset.mem_map.mp hpid
      refine ⟨render child.pid, ?_, rfl⟩
      rw [updateChild, ← heq, snap.processIndexForPid_pidAt (hbounded index hindex), hrender index hindex]
    rw [List.map_id] at hupdated
    refine ⟨updated, ?_, ?_⟩
    · rw [if_neg (Nat.not_le_of_lt hmany), if_neg hsome, hloop]
      exact if_pos (by rw [hupdated, List.length_map, hcard])
    · calc (updated : Multiset GroupedRow)
          = ((children : Multiset GroupedRow).map (·.pid)).map render := by
            rw [hupdated, Multiset.map_map, Multiset.map_coe]
            rfl
        _ = (group.indices : Multiset Nat).map fun index => setProcessChildRow env group (rowAt snap.rows index) := by
            rw [hpids, Multiset.map_map]
            exact Multiset.map_congr rfl hrender
        _ = _ := by rw [if_pos hmany, Multiset.map_coe]
  · rw [if_neg hmany, Multiset.map_eq_zero, Multiset.coe_eq_zero] at hpids
    refine ⟨[], ?_, ?_⟩
    · rw [if_pos (Nat.le_of_not_lt hmany), if_pos hpids]
    · rw [if_neg hmany]

theorem groupShape_pids {rows rows' : List LsmProcessInfo} {group group' : ProcessGroup}
    (h : groupShape rows group = groupShape rows' group') :
    (group.indices : Multiset Nat).map (pidAt rows) = (group'.indices : Multiset Nat).map (pidAt rows') := by
  have hpids := congrArg (Multiset.map Prod.fst) (congrArg Prod.snd h)
  rw [groupShape, groupShape, Multiset.map_map, Multiset.map_map] at hpids
  exact hpids

theorem groupShape_length {rows rows' : List LsmProcessInfo} {group group' : ProcessGroup}
    (h : groupShape rows group = groupShape rows' group') : group.indices.length = group'.indices.length := by
  simpa using congrArg Multiset.card (groupShape_pids h)

theorem appendGroup_pids (rows : List LsmProcessInfo) (group : ProcessGroup) :
    ((appendGroup env rows group).children : Multiset GroupedRow).map (·.pid) =
      if 1 < group.indices.length then (group.indices : Multiset Nat).map (pidAt rows) else 0 := by
  unfold appendGroup
  split
  · rw [Multiset.map_coe, List.map_map, Multiset.map_coe]
    rfl
  · rfl

/-- A row of a group with the shape of the one it shows. -/
theorem updateGroupNode_ok (snap : ProcessSnapshot) {cache : List ProcessGroup} {group : ProcessGroup}
    (hfind : cache.find? (fun other => other.key.text = group.key.text) = some group) (hnonempty : group.indices ≠ [])
    (hbounded : ∀ index ∈ group.indices, index < snap.rows.length) {rows : List LsmProcessInfo} {shown : ProcessGroup}
    (hshape : groupShape snap.rows group = groupShape rows shown) {node : GroupNode}
    (hnode : node.content = (appendGroup env rows shown).content) :
    ∃ updated, updateGroupNode env snap.rows cache node = .ok updated ∧
      updated.content = (appendGroup env snap.rows group).content := by
  have hidentity : group.toProcessIdentity = shown.toProcessIdentity := congrArg Prod.fst hshape
  have hkey : node.row.key = group.key.text := by
    have hrow : node.row = (appendGroup env rows shown).row := congrArg Prod.fst hnode
    have hkeys : group.key = shown.key := congrArg ProcessIdentity.key hidentity
    rw [hrow, hkeys]
    rfl
  have hpids : (node.children : Multiset GroupedRow).map (·.pid) =
      if 1 < group.indices.length then (group.indices : Multiset Nat).map (pidAt snap.rows) else 0 := by
    have hchildren : (node.children : Multiset GroupedRow) = (appendGroup env rows shown).children :=
      congrArg Prod.snd hnode
    rw [hchildren, appendGroup_pids, groupShape_pids hshape, groupShape_length hshape]
  obtain ⟨children, hupdate, hcontent⟩ := updateGroupChildren_ok env snap hbounded hpids
  obtain ⟨first, rest, hindices⟩ := List.exists_cons_of_ne_nil hnonempty
  refine ⟨⟨setGroupRow group (rowAt snap.rows first), children⟩, ?_, ?_⟩
  · rw [updateGroupNode, hkey, hfind]
    dsimp only
    rw [hindices]
    dsimp only
    rw [hupdate]
    rfl
  · rw [GroupNode.content, GroupNode.content, hcontent, appendGroup, hindices]
    rfl

/-! ### Categories -/

theorem categoryGroups_shape (view : PageView) (category : ProcessCategory) :
    (categoryGroups view.groups category : Multiset ProcessGroup).map (groupShape view.rows) =
      view.shape.filter fun entry => entry.1.category = category := by
  rw [PageView.shape, Multiset.filter_map, categoryGroups, ← Multiset.filter_coe]
  rfl

section
variable {view shown : PageView}

theorem categoryGroups_length (h : view.shape = shown.shape) (category : ProcessCategory) :
    (categoryGroups view.groups category).length = (categoryGroups shown.groups category).length := by
  have hcards := congrArg Multiset.card ((categoryGroups_shape view category).trans
    ((congrArg _ h).trans (categoryGroups_shape shown category).symm))
  rwa [Multiset.card_map, Multiset.card_map, Multiset.coe_card, Multiset.coe_card] at hcards

theorem categoryRow_eq (h : view.shape = shown.shape) (category : ProcessCategory) :
    categoryRow view.groups category = categoryRow shown.groups category := by
  rw [categoryRow, categoryRow, categoryGroups_length h]

theorem categoriesOf_eq (h : view.shape = shown.shape) : categoriesOf view.groups = categoriesOf shown.groups := by
  refine List.filter_congr fun category _ => ?_
  rw [decide_eq_decide, ← List.length_pos_iff, ← List.length_pos_iff, categoryGroups_length h]

theorem countLabel_eq (h : view.shape = shown.shape) : countLabel view.groups = countLabel shown.groups := by
  have hmembers : ∀ other : PageView, (other.groups.map (·.indices.length)).sum =
      (other.shape.map fun entry => Multiset.card entry.2).sum := by
    intro other
    rw [PageView.shape, Multiset.map_map, Multiset.map_coe, Multiset.sum_coe]
    refine congrArg List.sum (List.map_congr_left fun group _ => ?_)
    simp [groupShape]
  simp only [countLabel, categoryGroups_length h, hmembers view, hmembers shown, h]

end

theorem updateCategoryNode_ok {call : PageCall} {cache : List ProcessGroup} (hcollected : Collected env call cache)
    {shown : PageView} (hshape : (call.view env).shape = shown.shape) {category : ProcessCategory} {node : CategoryNode}
    (hnode : node.content = (categoryNode env shown.rows shown.groups category).content) :
    ∃ updated, updateCategoryNode env call.rows cache node = .ok updated ∧
      updated.content = (categoryNode env call.rows (call.view env).groups category).content := by
  have hrow : node.row = categoryRow shown.groups category := congrArg Prod.fst hnode
  have hbelow : (node.groups : Multiset GroupNode).map GroupNode.content =
      (categoryGroups shown.groups category : Multiset ProcessGroup).map
        fun group => (appendGroup env shown.rows group).content := by
    have hgroups := congrArg Prod.snd hnode
    rw [CategoryNode.content, CategoryNode.content, categoryNode, ← Multiset.map_coe, Multiset.map_map] at hgroups
    exact hgroups
  -- What a row becomes, by its key.
  let fresh : Text → Option (GroupedRow × Multiset GroupedRow) := fun key =>
    (cache.find? fun other => other.key.text = key).map fun group => (appendGroup env call.rows group).content
  have hfresh : ∀ group ∈ (call.view env).groups,
      fresh group.key.text = some (appendGroup env call.rows group).content := by
    intro group hgroup
    simp only [fresh, hcollected.find hgroup, Option.map_some]
  obtain ⟨updated, hloop, hupdated⟩ : ∃ updated, node.groups.mapM (updateGroupNode env call.rows cache) = .ok updated ∧
      updated.map (some ∘ GroupNode.content) = node.groups.map fun below => fresh below.row.key := by
    refine mapM_ok_self fun below hmem => ?_
    have hcontent : below.content ∈ (categoryGroups shown.groups category : Multiset ProcessGroup).map
        fun group => (appendGroup env shown.rows group).content := by
      rw [← hbelow]
      exact Multiset.mem_map_of_mem GroupNode.content (Multiset.mem_coe.mpr hmem)
    obtain ⟨old, hold, heq⟩ := Multiset.mem_map.mp hcontent
    have hentry : groupShape shown.rows old ∈ (call.view env).shape := by
      rw [hshape]
      exact Multiset.mem_map_of_mem _ (List.mem_of_mem_filter hold)
    obtain ⟨group, hgroup, hsame⟩ := Multiset.mem_map.mp hentry
    obtain ⟨updated, hupdate, hresult⟩ := updateGroupNode_ok call.snapshot (hcollected.find hgroup)
      (hcollected.nonempty group hgroup) (hcollected.bounded group hgroup) hsame heq.symm
    refine ⟨updated, hupdate, ?_⟩
    have hkey : below.row.key = group.key.text := by
      have hrows : below.row = (appendGroup env shown.rows old).row := congrArg Prod.fst heq.symm
      have hkeys : group.key = old.key := congrArg (ProcessIdentity.key ∘ Prod.fst) hsame
      rw [hrows, hkeys]
      rfl
    rw [hkey, hfresh group hgroup, Function.comp_apply, hresult]
    rfl
  refine ⟨{node with groups := updated}, ?_, ?_⟩
  · rw [updateCategoryNode, hrow, if_neg (by simp [categoryRow]), hloop]
    rfl
  · have hcontents : ((updated : Multiset GroupNode).map GroupNode.content).map some =
        ((categoryGroups (call.view env).groups category : Multiset ProcessGroup).map
          fun group => (appendGroup env call.rows group).content).map some := by
      calc ((updated : Multiset GroupNode).map GroupNode.content).map some
          = ((node.groups : Multiset GroupNode).map GroupNode.content).map fun entry => fresh entry.1.key := by
            rw [Multiset.map_map, Multiset.map_map, Multiset.map_coe, Multiset.map_coe, hupdated]
            rfl
        _ = ((categoryGroups shown.groups category : Multiset ProcessGroup).map (groupShape shown.rows)).map
              fun entry => fresh entry.1.key.text := by
            rw [hbelow, Multiset.map_map, Multiset.map_map]
            rfl
        _ = ((categoryGroups (call.view env).groups category : Multiset ProcessGroup).map
              (groupShape (call.view env).rows)).map fun entry => fresh entry.1.key.text := by
            rw [categoryGroups_shape, categoryGroups_shape, hshape]
        _ = _ := by
            rw [Multiset.map_map, Multiset.map_map]
            exact Multiset.map_congr rfl fun group hgroup => hfresh group (List.mem_of_mem_filter hgroup)
    have hgroups := Multiset.map_injective (Option.some_injective _) hcontents
    rw [CategoryNode.content, CategoryNode.content, categoryNode, hgroups, hrow, categoryRow_eq hshape]
    rw [← Multiset.map_coe, Multiset.map_map]
    rfl

/-- Every group is in a category. -/
theorem categoriesOf_sum (groups : List ProcessGroup) :
    ((categoriesOf groups).map fun category => (categoryGroups groups category).length).sum = groups.length := by
  have hall : (ProcessCategory.all.map fun category => (categoryGroups groups category).length).sum = groups.length := by
    induction groups with
    | nil => rfl
    | cons group groups ih =>
      rw [List.length_cons, ← ih]
      cases hcategory : group.category
      all_goals
        simp [ProcessCategory.all, categoryGroups, hcategory]
        omega
  rw [← hall, categoriesOf]
  generalize ProcessCategory.all = categories
  induction categories with
  | nil => rfl
  | cons category categories ih =>
    by_cases hempty : categoryGroups groups category = []
    · rw [List.filter_cons_of_neg (by simpa using hempty), ih, List.map_cons, List.sum_cons, hempty, List.length_nil,
        Nat.zero_add]
    · rw [List.filter_cons_of_pos (by simpa using hempty), List.map_cons, List.map_cons, List.sum_cons, List.sum_cons, ih]

theorem updateGroupedModelValues_ok {call : PageCall} {cache : List ProcessGroup}
    (hcollected : Collected env call cache) {shown : PageView} (hshape : (call.view env).shape = shown.shape)
    {store : List CategoryNode}
    (hstore : contentOf store = contentOf (rebuildGroupedModel env shown.rows shown.groups)) :
    ∃ updated, updateGroupedModelValues env call.rows cache (call.view env).groups store = .ok updated ∧
      contentOf updated = contentOf (rebuildGroupedModel env call.rows (call.view env).groups) := by
  have hnodes : List.Forall₂ (fun node category =>
      node.content = (categoryNode env shown.rows shown.groups category).content) store (categoriesOf shown.groups) := by
    have heq := hstore
    rw [contentOf, contentOf, rebuildGroupedModel, List.map_map] at heq
    rw [← List.forall₂_eq_eq_eq, List.forall₂_map_left_iff, List.forall₂_map_right_iff] at heq
    exact heq
  obtain ⟨updated, hloop, hupdated⟩ := mapM_ok hnodes fun node category h => updateCategoryNode_ok hcollected hshape h
  have hlengths : (updated.map (·.groups.length)).sum = (call.view env).groups.length := by
    have hcards := congrArg (List.map fun entry : GroupedRow × Multiset (GroupedRow × Multiset GroupedRow) =>
      Multiset.card entry.2) hupdated
    rw [List.map_map, List.map_map] at hcards
    calc (updated.map (·.groups.length)).sum
        = ((categoriesOf shown.groups).map fun category =>
            (categoryGroups (call.view env).groups category).length).sum := by
          refine congrArg List.sum (Eq.trans ?_ (hcards.trans ?_))
          · exact List.map_congr_left fun node _ => by simp [CategoryNode.content]
          · exact List.map_congr_left fun category _ => by simp [CategoryNode.content, categoryNode]
      _ = (call.view env).groups.length := by rw [← categoriesOf_eq hshape, categoriesOf_sum]
  refine ⟨updated, ?_, ?_⟩
  · rw [updateGroupedModelValues, hloop]
    exact if_pos hlengths
  · rw [contentOf, contentOf, rebuildGroupedModel, List.map_map, categoriesOf_eq hshape]
    exact hupdated

/-! ### Every run -/

variable (env) in
/-- The rows and the label of the last call that was collected. -/
def shownAfter (calls : List PageCall) : List (GroupedRow × Multiset (GroupedRow × Multiset GroupedRow)) × Text :=
  match calls.getLast? with
  | none => ([], ascii "Apps: 0   Background: 0   System: 0   Processes: 0")
  | some call =>
    (contentOf (rebuildGroupedModel env call.rows (call.view env).groups), Pages.countLabel (call.view env).groups)

variable {fnv : TextFnv}

structure Shows (env : GroupEnv) (fnv : TextFnv) (calls : List PageCall) (page : ProcessesPage) : Prop where
  once : (page.processGroupCache.map (·.key)).Nodup
  shown : (contentOf page.store, page.countLabel) = shownAfter env calls
  signed : page.structureValid = true → ∃ call, calls.getLast? = some call ∧
    page.structureSignature = groupedStructureSignature fnv (call.view env).rows (call.view env).groups

theorem Shows.start : Shows env fnv [] {} := ⟨List.nodup_nil, rfl, fun hvalid => absurd hvalid Bool.false_ne_true⟩

theorem Shows.rebuilt {calls : List PageCall} {page : ProcessesPage} {call : PageCall}
    (honce : (page.processGroupCache.map (·.key)).Nodup) :
    Shows env fnv (calls ++ [call]) (page.rebuilt env fnv (call.view env)) := by
  have hlast : (calls ++ [call]).getLast? = some call := List.getLast?_concat
  refine ⟨honce, ?_, fun _ => ⟨call, hlast, rfl⟩⟩
  rw [shownAfter, hlast]
  rfl

theorem Shows.present {calls : List PageCall} {page : ProcessesPage} (h : Shows env fnv calls page) (call : PageCall)
    (happart : TellsApart env fnv (calls ++ ProcessesPage.collected env page (.present call))) :
    ∃ next, page.presentSnapshot env fnv call = some next ∧
      Shows env fnv (calls ++ ProcessesPage.collected env page (.present call)) next := by
  unfold ProcessesPage.presentSnapshot
  cases hdirty : page.modelDirty with
  | false =>
    refine ⟨page, by simp, ?_⟩
    rw [ProcessesPage.collected, hdirty, Bool.false_and, if_neg (by simp), List.append_nil]
    exact h
  | true =>
    have hspec := @collectGroups_spec env call.toGroupCall page.processGroupCache h.once
    have hgroups : ∀ groups, (collectGroups env call.toGroupCall page.processGroupCache).2 = some groups →
        groups = (call.view env).groups ∧ Collected env call (collectGroups env call.toGroupCall page.processGroupCache).1 :=
      fun groups => collectGroups_collected h.once
    rw [ProcessesPage.collected, hdirty, Bool.true_and] at happart ⊢
    generalize collectGroups env call.toGroupCall page.processGroupCache = collection at hspec hgroups happart ⊢
    obtain ⟨cache, result⟩ := collection
    cases result with
    | none =>
      refine ⟨_, rfl, ?_⟩
      rw [if_neg (by simp), List.append_nil]
      exact ⟨hspec.1, h.shown, h.signed⟩
    | some groups =>
      obtain ⟨rfl, hcollected⟩ := hgroups groups rfl
      rw [Option.isSome_some, if_pos rfl] at happart ⊢
      simp only [Bool.not_true, Bool.false_eq_true, if_false]
      by_cases hchanged : (!page.structureValid || page.structureSignature ≠
          groupedStructureSignature fnv call.rows (call.view env).groups) = true
      · rw [if_pos hchanged]
        exact ⟨_, rfl, .rebuilt hspec.1⟩
      · rw [if_neg hchanged]
        simp only [Bool.or_eq_true, Bool.not_eq_true', decide_eq_true_eq, not_or, Bool.not_eq_false, not_not, ne_eq]
          at hchanged
        obtain ⟨hvalid, hsignature⟩ := hchanged
        obtain ⟨last, hlast, hsigned⟩ := h.signed hvalid
        have hshape : (call.view env).shape = (last.view env).shape :=
          happart call (by simp) last (List.mem_append_left _ (List.mem_of_getLast? hlast)) (hsignature.symm.trans hsigned)
        have hshown := h.shown
        rw [shownAfter, hlast] at hshown
        obtain ⟨store, hupdate, hcontent⟩ := updateGroupedModelValues_ok hcollected hshape (congrArg Prod.fst hshown)
        rw [hupdate]
        have hnow : (calls ++ [call]).getLast? = some call := List.getLast?_concat
        refine ⟨_, rfl, hspec.1, ?_, fun _ => ⟨call, hnow, hsignature⟩⟩
        rw [shownAfter, hnow]
        exact Prod.ext hcontent ((congrArg Prod.snd hshown).trans (countLabel_eq hshape).symm)

theorem Shows.run {calls : List PageCall} {page : ProcessesPage} (h : Shows env fnv calls page) (events : List PageEvent)
    (happart : TellsApart env fnv
      (calls ++ (ProcessesPage.machine env fnv).trace (ProcessesPage.collected env) page events)) :
    ∃ next, (ProcessesPage.machine env fnv).run page events = some next ∧
      Shows env fnv (calls ++ (ProcessesPage.machine env fnv).trace (ProcessesPage.collected env) page events) next := by
  induction events generalizing calls page with
  | nil => exact ⟨page, rfl, (List.append_nil calls).symm ▸ h⟩
  | cons e rest ih =>
    have hfirst : TellsApart env fnv (calls ++ ProcessesPage.collected env page e) := by
      intro a ha b hb
      refine happart a ?_ b ?_
      · rw [Machine.trace, ← List.append_assoc]
        exact List.mem_append_left _ ha
      · rw [Machine.trace, ← List.append_assoc]
        exact List.mem_append_left _ hb
    obtain ⟨next, hstep, hshows⟩ : ∃ next, (ProcessesPage.machine env fnv).step page e = some next ∧
        Shows env fnv (calls ++ ProcessesPage.collected env page e) next := by
      cases e with
      | changed => exact ⟨_, rfl, (List.append_nil calls).symm ▸ ⟨h.once, h.shown, h.signed⟩⟩
      | rebuild =>
        exact ⟨_, rfl, (List.append_nil calls).symm ▸ ⟨h.once, h.shown, fun hvalid => absurd hvalid Bool.false_ne_true⟩⟩
      | present call => exact h.present call hfirst
    rw [Machine.trace_cons _ _ hstep, ← List.append_assoc] at happart ⊢
    obtain ⟨last, hrun, hlast⟩ := ih hshows happart
    refine ⟨last, ?_, hlast⟩
    rw [Machine.run, hstep]
    exact hrun

end

/-- **The Processes page shows its last call.** In every run, for every search, filter, identity and
failing allocation: no row is written from an empty group, and the rows are those of a rebuild from the last
call that could be collected, but for the order of siblings, as is the label. -/
theorem processes_page (env : GroupEnv) (fnv : TextFnv) (events : List PageEvent)
    (happart : TellsApart env fnv ((ProcessesPage.machine env fnv).trace (ProcessesPage.collected env) {} events)) :
    ∃ page, (ProcessesPage.machine env fnv).run {} events = some page ∧
      (contentOf page.store, page.countLabel) =
        shownAfter env ((ProcessesPage.machine env fnv).trace (ProcessesPage.collected env) {} events) := by
  obtain ⟨page, hrun, hshows⟩ := Shows.run .start events happart
  exact ⟨page, hrun, hshows.shown⟩

/-! ### The same processes twice -/

/-- The order of the groups is not in the shape. -/
theorem view_shape (env : GroupEnv) (call : PageCall) : (call.view env).shape =
    (call.groups env (call.passing env) : Multiset ProcessGroup).map (groupShape call.rows) :=
  congrArg (Multiset.map _) (Multiset.coe_eq_coe.mpr (List.mergeSort_perm _ _))

theorem present_of_collected {env : GroupEnv} {fnv : TextFnv} {page : ProcessesPage} {events : List PageEvent}
    {call : PageCall}
    (h : call ∈ (ProcessesPage.machine env fnv).trace (ProcessesPage.collected env) page events) :
    .present call ∈ events := by
  induction events generalizing page with
  | nil => cases h
  | cons e rest ih =>
    rw [Machine.trace, List.mem_append] at h
    rcases h with h | h
    · cases e with
      | changed | rebuild => cases h
      | present other =>
        rw [ProcessesPage.collected] at h
        split at h
        · cases List.mem_singleton.mp h
          exact List.mem_cons_self ..
        · cases h
    · split at h
      · cases h
      · exact List.mem_cons_of_mem _ (ih h)

def bytewise : GroupEnv where
  casefold := id
  asciiCompareCi a b := if a = b then 0 else if a < b then -1 else 1
  round := id
  arith := .documented

def fnv1aText : TextFnv where
  toFnv := fnv1a
  mixByte hash byte := (hash ^^^ byte.toUInt64) * 0x100000001b3
  mixText hash text := text.foldl (fun hash byte => (hash ^^^ byte.toUInt64) * 0x100000001b3) hash

/-- A browser of two processes, with so much processor time each, and a service. -/
def browsing (cpu : ℚ) : PageCall where
  rows := [{ pid := 840, instanceId := 72, name := .ofText (ascii "browser"), cpuPercent := .finite cpu },
    { pid := 12, instanceId := 3, name := .ofText (ascii "cron") },
    { pid := 841, instanceId := 73, name := .ofText (ascii "browser"), cpuPercent := .finite cpu }]
  search := []
  filters := []
  identity index :=
    if index = 1 then ⟨.system, .ofText (ascii "system:cron"), .ofText (ascii "cron"), .ofText (ascii "computer")⟩
    else ⟨.application, .ofText (ascii "app:browser"), .ofText (ascii "Browser"), .ofText (ascii "browser")⟩
  distinct := by
    show [840, 12, 841].Nodup
    decide
  pid_range := by simp

/-- The same processes twice, with other values. -/
def browsingTwice : List PageEvent := [.changed, .present (browsing 3), .changed, .present (browsing 5)]

theorem browsing_tellsApart : TellsApart bytewise fnv1aText
    ((ProcessesPage.machine bytewise fnv1aText).trace (ProcessesPage.collected bytewise) {} browsingTwice) := by
  have hshape : ∀ a ∈ [browsing 3, browsing 5], (a.view bytewise).shape = ((browsing 3).view bytewise).shape := by
    rw [List.forall_mem_cons, List.forall_mem_singleton, view_shape, view_shape]
    exact ⟨rfl, rfl⟩
  have hmem : ∀ a ∈ (ProcessesPage.machine bytewise fnv1aText).trace (ProcessesPage.collected bytewise) {} browsingTwice,
      a ∈ [browsing 3, browsing 5] := fun a ha => by
    simpa [browsingTwice] using present_of_collected ha
  intro a ha b hb _
  rw [hshape a (hmem a ha), hshape b (hmem b hb)]

theorem processes_page_browsing : ∃ page,
    (ProcessesPage.machine bytewise fnv1aText).run {} browsingTwice = some page ∧
      (contentOf page.store, page.countLabel) = shownAfter bytewise
        ((ProcessesPage.machine bytewise fnv1aText).trace (ProcessesPage.collected bytewise) {} browsingTwice) :=
  processes_page bytewise fnv1aText browsingTwice browsing_tellsApart

end SystemMonitor.Pages
