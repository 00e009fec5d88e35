import SystemMonitor.Lib.Arrange
import SystemMonitor.Lib.Schema
import SystemMonitor.Settings.Entries

/-! The column layout of the Details page and its file.

The file is read into local variables, older versions of it are migrated, and the result is
applied to the columns of a page that has just been built. `layoutSchema`: the reading is a
schema of settings, with three for each column. `details_layout_valid`: whatever the file
is, the page has each column once, in its range of widths and with a name. -/
namespace SystemMonitor.Settings
open Lib Pages Arrange

/-- `PROC_N_COLUMNS`. -/
abbrev columnCount : Nat := 36

/-- What the layout uses of `LsmProcessTableColumnSpec`. -/
structure ColumnSpec where
  key : String
  defaultVisible : Bool
  minimumWidth : Int

/-- `lsm_details_column_specs`, in the order of the columns. -/
def columnSpecs : List ColumnSpec := [
  ⟨"name", true, 170⟩, ⟨"pid", true, 70⟩, ⟨"ppid", false, 85⟩, ⟨"user", true, 95⟩,
  ⟨"status", true, 90⟩, ⟨"cpu", true, 70⟩, ⟨"cpu_time", false, 95⟩, ⟨"memory", true, 80⟩,
  ⟨"rss", true, 110⟩, ⟨"virtual", false, 110⟩, ⟨"writable", false, 115⟩, ⟨"shared", false, 110⟩,
  ⟨"threads", false, 70⟩, ⟨"read_rate", true, 90⟩, ⟨"write_rate", true, 90⟩, ⟨"gpu", true, 70⟩,
  ⟨"gpu_engine", false, 105⟩, ⟨"gpu_memory", false, 105⟩, ⟨"read_total", false, 95⟩, ⟨"write_total", false, 105⟩,
  ⟨"handles", false, 105⟩, ⟨"contexts", false, 110⟩, ⟨"faults", false, 90⟩, ⟨"priority", false, 105⟩,
  ⟨"nice", false, 65⟩, ⟨"security", false, 180⟩, ⟨"wchan", false, 145⟩, ⟨"cgroup", false, 220⟩,
  ⟨"unit", false, 170⟩, ⟨"session", false, 85⟩, ⟨"seat", false, 85⟩, ⟨"owner", false, 105⟩,
  ⟨"started", false, 145⟩, ⟨"elapsed", false, 100⟩, ⟨"executable", false, 260⟩, ⟨"command", false, 280⟩]

abbrev Column : Type := Fin columnCount

def lsmDetailsColumnSpecs (column : Column) : ColumnSpec := columnSpecs.get column

def nameColumn : Column := 0

/-! ### The page -/

inductive GtkSortType where
  | ascending | descending
  deriving DecidableEq

/-- The table of the page, and what the program keeps beside it. -/
@[ext]
structure DetailsPage where
  /-- The columns of the tree view in their order. -/
  columns : List Column
  visible : Column → Bool
  /-- The width that is shown when the page is saved, and that is fixed when it is loaded. -/
  width : Column → Int
  /-- The sort column of the model; `none`: the model is not sorted. -/
  sort : Option (Int × GtkSortType)
  treeMode : Bool
  /-- All processes, the active ones, or one's own: 0 to 2. -/
  scope : Int
  processHeatmap : Bool

/-- A page that has just been built, and not sorted yet. -/
structure BuiltPage extends DetailsPage where
  columns_perm : columns.Perm (List.finRange columnCount)
  unsorted : sort = none

/-- `LSM_DETAILS_LAYOUT_MAX_WIDTH`. -/
def maximumWidth : Int := 2000

/-- `LSM_DETAILS_LAYOUT_VERSION`. -/
def currentVersion : Int := 5

/-- A page with each column once, in its range of widths, and with the name shown. -/
structure DetailsPage.Valid (page : DetailsPage) : Prop where
  columns : page.columns.Perm (List.finRange columnCount)
  width : ∀ column, (lsmDetailsColumnSpecs column).minimumWidth ≤ page.width column ∧ page.width column ≤ maximumWidth
  sort : ∀ sort ∈ page.sort, 0 ≤ sort.1 ∧ sort.1 < columnCount
  scope : 0 ≤ page.scope ∧ page.scope ≤ 2
  name : page.visible nameColumn = true

/-! ### The writer -/

/-- The position of each column in the tree view. -/
def savedOrder (page : DetailsPage) (column : Column) : Int := page.columns.idxOf column

def columnLines (page : DetailsPage) (column : Column) : List Text :=
  let key := ascii (lsmDetailsColumnSpecs column).key
  [key ++ 61 :: ascii (if page.visible column then "1" else "0"),
    ascii "width." ++ key ++ 61 :: Decimal.printInt (page.width column),
    ascii "order." ++ key ++ 61 :: Decimal.printInt (savedOrder page column)]

def sortLines (page : DetailsPage) : List Text :=
  match page.sort with
  | none => []
  | some (sortColumn, sortOrder) =>
    [ascii "sort_column" ++ 61 :: Decimal.printInt sortColumn,
      ascii "sort_order" ++ 61 :: ascii (match sortOrder with
        | .descending => "descending"
        | .ascending => "ascending")]

/-- The text of `lsm_details_save_layout`. -/
def lsmDetailsSaveLayout (page : DetailsPage) : Text :=
  fileOf ([ascii "layout_version" ++ 61 :: Decimal.printInt currentVersion,
    ascii "tree" ++ 61 :: ascii (if page.treeMode then "1" else "0"),
    ascii "scope" ++ 61 :: Decimal.printInt page.scope,
    ascii "heatmap" ++ 61 :: ascii (if page.processHeatmap then "1" else "0")] ++
      (List.finRange columnCount).flatMap (columnLines page) ++ sortLines page)

/-! ### The loader -/

/-- What is read before it is applied. -/
@[ext]
structure Layout where
  layoutVersion : Int := 0
  treeMode : Bool := true
  scope : Int := 0
  processHeatmap : Bool := true
  sortColumn : Int := -1
  sortOrder : GtkSortType := .ascending
  visible : Column → Bool := fun column => (lsmDetailsColumnSpecs column).defaultVisible
  widths : Column → Int := fun column => (lsmDetailsColumnSpecs column).minimumWidth
  /-- `layout_identity_order`. -/
  order : Column → Int := fun column => column.val

inductive LayoutSetting where
  | layoutVersion | tree | scope | heatmap | sortColumn | sortOrder | visible (column : Column) | width (column : Column)
  | order (column : Column)
  deriving DecidableEq

/-- The setting of a column that a key stands for. -/
def columnSetting (key : Text) (column : Column) : Option LayoutSetting :=
  let columnKey := ascii (lsmDetailsColumnSpecs column).key
  if key = columnKey then some (.visible column)
  else if key = ascii "width." ++ columnKey then some (.width column)
  else if key = ascii "order." ++ columnKey then some (.order column)
  else none

/-- The comparisons of the key, in their order. -/
def layoutSettingOf (key : Text) : Option LayoutSetting :=
  if key = ascii "layout_version" then some .layoutVersion
  else if key = ascii "tree" then some .tree
  else if key = ascii "scope" then some .scope
  else if key = ascii "heatmap" then some .heatmap
  else if key = ascii "sort_column" then some .sortColumn
  else if key = ascii "sort_order" then some .sortOrder
  else (List.finRange columnCount).findSome? (columnSetting key)

variable (config : ConfigFormat) (numbers : Procfs.Library)

def layoutBoolean (value : Text) (fallback : Bool) : Bool := (config.parseBool value).getD fallback

def layoutInteger (value : Text) (minimum maximum fallback : Int) : Int :=
  (numbers.parseI64Range minimum maximum value).getD fallback

def intMax : Int := 2 ^ 31 - 1

/-- What the branch of a setting does with the value. -/
def assignLayout (layout : Layout) (value : Text) : LayoutSetting → Layout
  | .layoutVersion => { layout with layoutVersion := layoutInteger numbers value 0 intMax layout.layoutVersion }
  | .tree => { layout with treeMode := layoutBoolean config value layout.treeMode }
  | .scope => { layout with scope := layoutInteger numbers value 0 2 layout.scope }
  | .heatmap => { layout with processHeatmap := layoutBoolean config value layout.processHeatmap }
  | .sortColumn => { layout with sortColumn := layoutInteger numbers value 0 (columnCount - 1) layout.sortColumn }
  | .sortOrder =>
    if value = ascii "descending" then { layout with sortOrder := .descending }
    else if value = ascii "ascending" then { layout with sortOrder := .ascending }
    else layout
  | .visible column =>
    { layout with visible := Function.update layout.visible column (layoutBoolean config value (layout.visible column)) }
  | .width column =>
    { layout with
      widths := Function.update layout.widths column
        (layoutInteger numbers value (lsmDetailsColumnSpecs column).minimumWidth maximumWidth (layout.widths column)) }
  | .order column =>
    { layout with
      order := Function.update layout.order column
        (layoutInteger numbers value 0 (columnCount - 1) (layout.order column)) }

def loadLayoutLine (layout : Layout) (line : Text) : Layout :=
  match config.parseLine line with
  | none => layout
  | some (key, value) =>
    match layoutSettingOf key with
    | none => layout
    | some setting => assignLayout config numbers layout value setting

/-- The lines up to the first NUL. -/
def layoutLines (file : Option Text) : List Text :=
  match file with
  | none => []
  | some content => CStrings.tokens (· == 10) (content.takeWhile (· != 0))

/-- The migrations of older versions, each on top of the one before. -/
def migrateVersion (layout : Layout) : Layout :=
  let fresh : Layout := {}
  let layout := if layout.layoutVersion < 2 then { layout with visible := fresh.visible } else layout
  let layout :=
    if layout.layoutVersion < 3 then
      { layout with
        sortColumn :=
          if layout.sortColumn ≥ 11 then layout.sortColumn + 3
          else if layout.sortColumn ≥ 6 then layout.sortColumn + 1
          else layout.sortColumn
        order := fresh.order }
    else layout
  let layout :=
    if layout.layoutVersion < 4 then
      { layout with
        sortColumn := if layout.sortColumn ≥ 16 then layout.sortColumn + 1 else layout.sortColumn
        order := fresh.order }
    else layout
  if layout.layoutVersion < currentVersion then { layout with sortColumn := -1, order := fresh.order } else layout

/-- The migrated layout, with the identity for what is no order. -/
def migrate (layout : Layout) : Layout :=
  let migrated := migrateVersion layout
  if distinctWithin columnCount [] ((List.finRange columnCount).map migrated.order) then migrated
  else { migrated with order := ({} : Layout).order }

/-- The columns of a tree view, each moved behind the one before it. -/
def placeColumns (order : Column → Int) (columns : List Column) : List Column :=
  ((List.range columnCount).foldl (fun state position =>
    match elementAt order position with
    | none => state
    | some column => move state column) (columns, none)).1

/-- The page with the layout. -/
def applyLayout (layout : Layout) (page : DetailsPage) : DetailsPage where
  columns := placeColumns layout.order page.columns
  visible := Function.update layout.visible nameColumn true
  width := layout.widths
  sort := if layout.sortColumn ≥ 0 then some (layout.sortColumn, layout.sortOrder) else page.sort
  treeMode := layout.treeMode
  scope := layout.scope
  processHeatmap := layout.processHeatmap

/-- `none`: there is no file, or it cannot be read. -/
def lsmDetailsLayoutLoad (file : Option Text) (page : DetailsPage) : DetailsPage :=
  applyLayout (migrate ((layoutLines file).foldl (loadLayoutLine config numbers) {})) page

/-! ### The schema -/

namespace LayoutSetting

def Value : LayoutSetting → Type
  | .layoutVersion | .scope | .sortColumn | .width _ | .order _ => Int
  | .tree | .heatmap | .visible _ => Bool
  | .sortOrder => GtkSortType

def get : (setting : LayoutSetting) → Layout → setting.Value
  | .layoutVersion, layout => layout.layoutVersion
  | .tree, layout => layout.treeMode
  | .scope, layout => layout.scope
  | .heatmap, layout => layout.processHeatmap
  | .sortColumn, layout => layout.sortColumn
  | .sortOrder, layout => layout.sortOrder
  | .visible column, layout => layout.visible column
  | .width column, layout => layout.widths column
  | .order column, layout => layout.order column

def InRange : (setting : LayoutSetting) → setting.Value → Prop
  | .scope, (value : Int) => 0 ≤ value ∧ value ≤ 2
  | .sortColumn, (value : Int) => -1 ≤ value ∧ value < columnCount
  | .width column, (value : Int) => (lsmDetailsColumnSpecs column).minimumWidth ≤ value ∧ value ≤ maximumWidth
  | _, _ => True

def accept : (setting : LayoutSetting) → Text → Option setting.Value
  | .layoutVersion, value => numbers.parseI64Range 0 intMax value
  | .tree, value => config.parseBool value
  | .scope, value => numbers.parseI64Range 0 2 value
  | .heatmap, value => config.parseBool value
  | .sortColumn, value => numbers.parseI64Range 0 (columnCount - 1) value
  | .sortOrder, value =>
    if value = ascii "descending" then some .descending
    else if value = ascii "ascending" then some .ascending
    else none
  | .visible _, value => config.parseBool value
  | .width column, value => numbers.parseI64Range (lsmDetailsColumnSpecs column).minimumWidth maximumWidth value
  | .order _, value => numbers.parseI64Range 0 (columnCount - 1) value

end LayoutSetting

section
variable {config numbers}

theorem get_assignLayout_self (layout : Layout) (value : Text) (setting : LayoutSetting) :
    setting.get (assignLayout config numbers layout value setting) =
      (setting.accept config numbers value).getD (setting.get layout) := by
  cases setting with
  | visible column => exact Function.update_self ..
  | width column => exact Function.update_self ..
  | order column => exact Function.update_self ..
  | sortOrder =>
    rw [assignLayout, LayoutSetting.accept]
    split
    · rfl
    · split <;> rfl
  | _ => rfl

theorem get_assignLayout_other (layout : Layout) (value : Text) {setting other : LayoutSetting} (h : other ≠ setting) :
    other.get (assignLayout config numbers layout value setting) = other.get layout := by
  cases setting with
  | visible column =>
    cases other with
    | visible other => exact Function.update_of_ne (fun heq => h (congrArg LayoutSetting.visible heq)) ..
    | _ => rfl
  | width column =>
    cases other with
    | width other => exact Function.update_of_ne (fun heq => h (congrArg LayoutSetting.width heq)) ..
    | _ => rfl
  | order column =>
    cases other with
    | order other => exact Function.update_of_ne (fun heq => h (congrArg LayoutSetting.order heq)) ..
    | _ => rfl
  | sortOrder =>
    rw [assignLayout]
    split
    · cases other <;> first | rfl | exact absurd rfl h
    · split <;> cases other <;> first | rfl | exact absurd rfl h
  | _ => cases other <;> first | rfl | exact absurd rfl h

end

/-- The layout as settings of a file. -/
def layoutSchema : Schema LayoutSetting Text Layout where
  Value := LayoutSetting.Value
  get := LayoutSetting.get
  target line := (config.parseLine line).bind fun entry => layoutSettingOf entry.1
  accept setting line := (config.parseLine line).bind fun entry => setting.accept config numbers entry.2
  load := loadLayoutLine config numbers
  load_self layout line setting h := by
    obtain ⟨⟨key, value⟩, hparse, hsetting⟩ := Option.bind_eq_some_iff.mp h
    rw [loadLayoutLine, hparse]
    dsimp only at hsetting ⊢
    rw [hsetting]
    exact get_assignLayout_self layout value setting
  load_other layout line setting h := by
    rw [loadLayoutLine]
    cases hparse : config.parseLine line with
    | none => rfl
    | some entry =>
      obtain ⟨key, value⟩ := entry
      dsimp only
      cases hsetting : layoutSettingOf key with
      | none => rfl
      | some other =>
        refine get_assignLayout_other layout value fun heq => h ?_
        rw [hparse]
        exact hsetting.trans (congrArg some heq.symm)

/-! ### Any file -/

section
variable {config numbers}

theorem acceptLayout_inRange (setting : LayoutSetting) (line : Text) (value : setting.Value)
    (h : (layoutSchema config numbers).accept setting line = some value) : setting.InRange value := by
  obtain ⟨entry, -, hvalue⟩ := Option.bind_eq_some_iff.mp h
  cases setting with
  | scope => exact parseI64Range_range hvalue
  | sortColumn =>
    have hrange := parseI64Range_range hvalue
    exact ⟨by omega, by omega⟩
  | width column => exact parseI64Range_range hvalue
  | _ => trivial

/-- The defaults are in their ranges. -/
theorem freshLayout_inRange (setting : LayoutSetting) : setting.InRange (setting.get {}) := by
  have hwidth : ∀ column, (lsmDetailsColumnSpecs column).minimumWidth ≤ maximumWidth := by decide
  cases setting with
  | scope =>
    show (0 : Int) ≤ 0 ∧ (0 : Int) ≤ 2
    decide
  | sortColumn =>
    show (-1 : Int) ≤ -1 ∧ (-1 : Int) < columnCount
    decide
  | width column => exact ⟨Int.le_refl _, hwidth column⟩
  | _ => trivial

theorem loadedLayout_inRange (lines : List Text) (setting : LayoutSetting) :
    setting.InRange (setting.get (lines.foldl (loadLayoutLine config numbers) {})) :=
  @Schema.load_range _ _ _ _ (layoutSchema config numbers) LayoutSetting.InRange acceptLayout_inRange _ freshLayout_inRange
    lines setting

end

theorem isOrder_identity : IsOrder ({} : Layout).order where
  range column := by
    show 0 ≤ ((column.val : Nat) : Int) ∧ ((column.val : Nat) : Int) < columnCount
    omega
  injective a b h := Fin.ext (Int.ofNat_inj.mp h)

/-- Only the current version keeps its sort column. -/
theorem migrateVersion_old {layout : Layout} (h : layout.layoutVersion < currentVersion) :
    (migrateVersion layout).sortColumn = -1 ∧ (migrateVersion layout).widths = layout.widths ∧
      (migrateVersion layout).scope = layout.scope := by
  by_cases h₂ : layout.layoutVersion < 2 <;> by_cases h₃ : layout.layoutVersion < 3 <;>
    by_cases h₄ : layout.layoutVersion < 4 <;> simp [migrateVersion, h, h₂, h₃, h₄]

theorem migrateVersion_current {layout : Layout} (h : ¬layout.layoutVersion < currentVersion) : migrateVersion layout = layout := by
  have hversion : currentVersion = 5 := rfl
  have h₂ : ¬layout.layoutVersion < 2 := by omega
  have h₃ : ¬layout.layoutVersion < 3 := by omega
  have h₄ : ¬layout.layoutVersion < 4 := by omega
  rw [migrateVersion, if_neg h₂, if_neg h₃, if_neg h₄, if_neg h]

/-- What the migrations leave: an order, no sort column of an older version, and the rest. -/
structure Migrated (before after : Layout) : Prop where
  order : IsOrder after.order
  sortColumn : after.sortColumn = before.sortColumn ∨ after.sortColumn = -1
  widths : after.widths = before.widths
  scope : after.scope = before.scope

theorem migrate_migrated (layout : Layout) : Migrated layout (migrate layout) := by
  have hversion : ((migrateVersion layout).sortColumn = layout.sortColumn ∨ (migrateVersion layout).sortColumn = -1) ∧
      (migrateVersion layout).widths = layout.widths ∧ (migrateVersion layout).scope = layout.scope := by
    by_cases h : layout.layoutVersion < currentVersion
    · obtain ⟨hsort, hwidths, hscope⟩ := migrateVersion_old h
      exact ⟨.inr hsort, hwidths, hscope⟩
    · rw [migrateVersion_current h]
      exact ⟨.inl rfl, rfl, rfl⟩
  obtain ⟨hsort, hwidths, hscope⟩ := hversion
  rw [migrate]
  split
  next h => exact ⟨(isOrder_iff _).mp h, hsort, hwidths, hscope⟩
  next => exact ⟨isOrder_identity, hsort, hwidths, hscope⟩

/-- A layout of this version with an order is left as it is. -/
theorem migrate_current {layout : Layout} (hversion : layout.layoutVersion = currentVersion) (horder : IsOrder layout.order) :
    migrate layout = layout := by
  have hkept := migrateVersion_current (Int.not_lt.mpr (Int.le_of_eq hversion.symm))
  rw [migrate, hkept]
  exact if_pos ((isOrder_iff _).mpr horder)

theorem placeColumns_eq {order : Column → Int} (horder : IsOrder order) {columns : List Column}
    (hperm : columns.Perm (List.finRange columnCount)) : placeColumns order columns = arranged order := by
  have hfold : placeColumns order columns = ((arranged order).foldl move (columns, none)).1 := by
    rw [arranged, List.foldl_filterMap, placeColumns]
    congr 2
    funext state position
    cases elementAt order position <;> rfl
  rw [hfold]
  exact arrange_eq (nodup_arranged horder) (hperm.trans (arranged_perm horder).symm)

/-- Whatever the file is, the page is a valid one. -/
theorem details_layout_valid (file : Option Text) (built : BuiltPage) :
    (lsmDetailsLayoutLoad config numbers file built.toDetailsPage).Valid := by
  have hrange := fun setting => @loadedLayout_inRange config numbers (layoutLines file) setting
  have hmigrated := migrate_migrated ((layoutLines file).foldl (loadLayoutLine config numbers) {})
  rw [lsmDetailsLayoutLoad]
  generalize (layoutLines file).foldl (loadLayoutLine config numbers) {} = layout at hrange hmigrated ⊢
  refine ⟨?_, fun column => ?_, fun sort hsort => ?_, ?_, ?_⟩
  · show (placeColumns (migrate layout).order built.columns).Perm _
    rw [placeColumns_eq hmigrated.order built.columns_perm]
    exact arranged_perm hmigrated.order
  · show _ ≤ (migrate layout).widths column ∧ (migrate layout).widths column ≤ maximumWidth
    rw [hmigrated.widths]
    exact hrange (.width column)
  · have hbound : -1 ≤ layout.sortColumn ∧ layout.sortColumn < columnCount := hrange .sortColumn
    have hsort : (if (migrate layout).sortColumn ≥ 0 then
        some ((migrate layout).sortColumn, (migrate layout).sortOrder) else built.sort) = some sort := hsort
    split at hsort
    next hpos =>
      cases hsort
      rcases hmigrated.sortColumn with hsame | hnone
      · exact ⟨hpos, hsame ▸ hbound.2⟩
      · omega
    next =>
      rw [built.unsorted] at hsort
      cases hsort
  · show 0 ≤ (migrate layout).scope ∧ (migrate layout).scope ≤ 2
    rw [hmigrated.scope]
    exact hrange .scope
  · show Function.update (migrate layout).visible nameColumn true nameColumn = true
    exact Function.update_self ..

end SystemMonitor.Settings
