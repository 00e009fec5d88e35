import SystemMonitor.Lib.Last
import SystemMonitor.Pages.Rows

/-! The rows of the Details page.

The page shows the processes that its settings leave visible, as a list or as a tree in
which the ancestors of a visible process are shown too. A row of the tree store is known by
the PID it shows, and so is the row it stands under. -/
namespace SystemMonitor.Pages
open Lib

inductive ProcessScope where
  | all
  | active
  | mine
  deriving DecidableEq

structure DetailsSettings where
  treeMode : Bool := true
  scope : ProcessScope := .all
  search : Text := []
  filters : List Text := []
  deriving DecidableEq

def processDirectlyVisible (casefold : Text → Text) (settings : DetailsSettings) (process : LsmProcessInfo) : Bool :=
  let scopeVisible :=
    match settings.scope with
    | .all => true
    | .mine => process.ownedByCurrentUser
    | .active =>
      process.state.text ≠ ascii "Sleeping" && process.state.text ≠ ascii "Stopped" &&
        process.state.text ≠ ascii "Zombie" && process.state.text ≠ ascii "Idle" && process.state.text ≠ ascii "Dead"
  let matched := settings.search = [] || lsmUiTextMatches casefold process.name.text settings.search ||
    lsmUiTextMatches casefold process.user.text settings.search ||
    lsmUiTextMatches casefold process.command.text settings.search ||
    lsmUiTextMatches casefold (Decimal.print process.pid) settings.search
  scopeVisible && matched && !settings.filters.any fun filter =>
    lsmUiTextMatches casefold process.name.text filter || lsmUiTextMatches casefold process.user.text filter ||
      lsmUiTextMatches casefold process.command.text filter

/-- A row of the tree store, and the PID of the row it stands under. -/
structure DetailsRow where
  process : LsmProcessInfo
  parent : Option Nat
  deriving DecidableEq

section
variable (treeMode : Bool) (rows : List LsmProcessInfo)

def rowAt (index : Nat) : LsmProcessInfo := rows.getD index {}

/-- `process_index_for_pid`, and the lookups in the table it uses. -/
def processIndexForPid (pid : Nat) : Option Nat :=
  if pid = 0 ∨ uintMax < pid then none
  else lastOf (fun row => if row.1.pid = pid ∧ row.2 < uintMax then some row.2 else none) rows.zipIdx

/-- The ancestors of a visible process become visible. -/
def markAncestors : Nat → Nat → (Nat → Bool) → Nat → Bool
  | 0, _, visible => visible
  | guard + 1, parent, visible =>
    match processIndexForPid rows parent with
    | none => visible
    | some parentIndex =>
      let marked := Function.update visible parentIndex true
      let nextParent := (rowAt rows parentIndex).ppid
      if nextParent = parent then marked else markAncestors guard nextParent marked

def visibleRows (direct : LsmProcessInfo → Bool) : Nat → Bool :=
  let directly := fun index => direct (rowAt rows index)
  if treeMode then
    (List.range rows.length).foldl (fun visible index =>
      if directly index then markAncestors rows rows.length (rowAt rows index).ppid visible else visible) directly
  else directly

structure BuildState where
  inserted : Nat → Bool := fun _ => false
  state : Nat → Nat := fun _ => 0
  store : List DetailsRow := []

/-- `gtk_tree_store_append` with the row's values, and the marks behind it. -/
def BuildState.insert (s : BuildState) (index : Nat) (parent : Option Nat) : BuildState where
  inserted := Function.update s.inserted index true
  state := Function.update s.state index 2
  store := s.store ++ [⟨rowAt rows index, parent⟩]

def BuildState.enter (s : BuildState) (index : Nat) : BuildState :=
  { s with state := Function.update s.state index 1 }

/-- The first argument bounds the depth of the recursion; `none`: it was exceeded. -/
def appendProcessRecursive (visible : Nat → Bool) : Nat → BuildState → Nat → Option BuildState
  | 0, _, _ => none
  | depth + 1, s, index =>
    if s.inserted index || !visible index then some s
    else
      match if treeMode then processIndexForPid rows (rowAt rows index).ppid else none with
      | none => some ((s.enter index).insert rows index none)
      | some parentIndex =>
        if parentIndex ≠ index ∧ visible parentIndex = true ∧ (s.enter index).state parentIndex ≠ 1 then
          (appendProcessRecursive visible depth (s.enter index) parentIndex).map fun s =>
            s.insert rows index (if s.inserted parentIndex then some (rowAt rows parentIndex).pid else none)
        else some ((s.enter index).insert rows index none)

/-- `rebuild_details_model`: the rows of the store afterwards. -/
def rebuildDetailsModel (direct : LsmProcessInfo → Bool) : Option (List DetailsRow) :=
  let visible := visibleRows treeMode rows direct
  ((List.range rows.length).foldlM (fun s index =>
    if visible index then appendProcessRecursive treeMode rows visible rows.length s index else some s) {}).map (·.store)

end

end SystemMonitor.Pages
