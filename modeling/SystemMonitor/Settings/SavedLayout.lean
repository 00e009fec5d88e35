import SystemMonitor.Settings.DetailsLayout

/-! A column layout that is saved and loaded again.

`layoutSettingOf_key`: no key of a column, with a prefix or without, is taken for another one.
`details_layout_spec`: any file gives a valid page, and the file of a valid page gives that
page back. -/
namespace SystemMonitor.Settings
open Lib Pages Arrange

/-- What is written under a key of its own. -/
def LayoutSetting.key : LayoutSetting → Text
  | .layoutVersion => ascii "layout_version"
  | .tree => ascii "tree"
  | .scope => ascii "scope"
  | .heatmap => ascii "heatmap"
  | .sortColumn => ascii "sort_column"
  | .sortOrder => ascii "sort_order"
  | .visible column => ascii (lsmDetailsColumnSpecs column).key
  | .width column => ascii "width." ++ ascii (lsmDetailsColumnSpecs column).key
  | .order column => ascii "order." ++ ascii (lsmDetailsColumnSpecs column).key

/-- What is read from the file of a page. -/
def savedLayout (page : DetailsPage) : Layout where
  layoutVersion := currentVersion
  treeMode := page.treeMode
  scope := page.scope
  processHeatmap := page.processHeatmap
  sortColumn := page.sort.elim (-1) Prod.fst
  sortOrder := page.sort.elim .ascending Prod.snd
  visible := page.visible
  widths := page.width
  order := savedOrder page

def bitText (value : Bool) : Text := ascii (if value then "1" else "0")

def sortText : GtkSortType → Text
  | .ascending => ascii "ascending"
  | .descending => ascii "descending"

/-- The value that is written for a setting. -/
def LayoutSetting.text (layout : Layout) : LayoutSetting → Text
  | .layoutVersion => Decimal.printInt layout.layoutVersion
  | .tree => bitText layout.treeMode
  | .scope => Decimal.printInt layout.scope
  | .heatmap => bitText layout.processHeatmap
  | .sortColumn => Decimal.printInt layout.sortColumn
  | .sortOrder => sortText layout.sortOrder
  | .visible column => bitText (layout.visible column)
  | .width column => Decimal.printInt (layout.widths column)
  | .order column => Decimal.printInt (layout.order column)

def layoutLineOf (layout : Layout) (setting : LayoutSetting) : Text := setting.key ++ 61 :: setting.text layout

def columnSettings (column : Column) : List LayoutSetting := [.visible column, .width column, .order column]

/-- The sorting is written if there is one. -/
def sortSettings (page : DetailsPage) : List LayoutSetting := if page.sort.isSome then [.sortColumn, .sortOrder] else []

/-- The order of the file. -/
def writtenLayout (page : DetailsPage) : List LayoutSetting :=
  LayoutSetting.layoutVersion :: .tree :: .scope :: .heatmap ::
    ((List.finRange columnCount).flatMap columnSettings ++ sortSettings page)

theorem saveLayout_eq (page : DetailsPage) :
    lsmDetailsSaveLayout page = fileOf ((writtenLayout page).map (layoutLineOf (savedLayout page))) := by
  have hcolumns : (List.finRange columnCount).flatMap (columnLines page) =
      ((List.finRange columnCount).flatMap columnSettings).map (layoutLineOf (savedLayout page)) := by
    rw [List.map_flatMap]
    rfl
  have hsort : sortLines page = (sortSettings page).map (layoutLineOf (savedLayout page)) := by
    rw [sortLines, sortSettings]
    cases hpage : page.sort with
    | none => rfl
    | some sort =>
      obtain ⟨sortColumn, sortOrder⟩ := sort
      have hsaved : (savedLayout page).sortColumn = sortColumn ∧ (savedLayout page).sortOrder = sortOrder := by
        simp [savedLayout, hpage]
      show _ = [layoutLineOf _ .sortColumn, layoutLineOf _ .sortOrder]
      rw [layoutLineOf, layoutLineOf, LayoutSetting.text, LayoutSetting.text, hsaved.1, hsaved.2]
      cases sortOrder <;> rfl
  rw [lsmDetailsSaveLayout, hcolumns, hsort, writtenLayout, List.append_assoc, ← List.map_append]
  rfl

theorem written_sortColumn_iff (page : DetailsPage) : LayoutSetting.sortColumn ∈ writtenLayout page ↔ page.sort.isSome = true := by
  cases hpage : page.sort with
  | none => simp [writtenLayout, columnSettings, sortSettings, hpage]
  | some sort => simp [writtenLayout, columnSettings, sortSettings, hpage]

theorem written_sortOrder_iff (page : DetailsPage) : LayoutSetting.sortOrder ∈ writtenLayout page ↔ page.sort.isSome = true := by
  cases hpage : page.sort with
  | none => simp [writtenLayout, columnSettings, sortSettings, hpage]
  | some sort => simp [writtenLayout, columnSettings, sortSettings, hpage]

theorem written_of_ne (page : DetailsPage) {setting : LayoutSetting} (hcolumn : setting ≠ .sortColumn)
    (horder : setting ≠ .sortOrder) : setting ∈ writtenLayout page := by
  cases setting with
  | sortColumn => exact absurd rfl hcolumn
  | sortOrder => exact absurd rfl horder
  | _ => simp [writtenLayout, columnSettings]

/-! ### The keys -/

def columnKey (column : Column) : Text := ascii (lsmDetailsColumnSpecs column).key

/-- The keys that are compared before those of the columns. -/
def fixedKeys : List Text :=
  [ascii "layout_version", ascii "tree", ascii "scope", ascii "heatmap", ascii "sort_column", ascii "sort_order"]

/-- No dot, so that no key of a column looks like one with a prefix. -/
def dotless (key : Text) : Bool := key.all fun b => b != 46

theorem columnKey_injective : Function.Injective columnKey := by
  have hnodup : ((List.finRange columnCount).map columnKey).Nodup := by decide
  intro a b h
  exact List.inj_on_of_nodup_map hnodup (List.mem_finRange a) (List.mem_finRange b) h

theorem columnKey_test (column : Column) :
    (plainText (columnKey column) && dotless (columnKey column) && !fixedKeys.contains (columnKey column)) = true := by
  have htest : ((List.finRange columnCount).all fun column =>
      plainText (columnKey column) && dotless (columnKey column) && !fixedKeys.contains (columnKey column)) = true := by
    decide
  exact List.all_eq_true.mp htest column (List.mem_finRange column)

theorem columnKey_dotless (column : Column) : dotless (columnKey column) = true := by
  have htest := columnKey_test column
  rw [Bool.and_eq_true, Bool.and_eq_true] at htest
  exact htest.1.2

/-- A prefixed key has a dot. -/
theorem ne_of_dot {key other : Text} (hdot : 46 ∈ key) (hother : dotless other = true) : key ≠ other := by
  intro h
  subst h
  exact absurd (List.all_eq_true.mp hother 46 hdot) (by decide)

theorem fixedKeys_dotless : ∀ key ∈ fixedKeys, dotless key = true :=
  List.all_eq_true.mp (by decide : fixedKeys.all dotless = true)

theorem layoutSettingOf_columns {key : Text} (h : key ∉ fixedKeys) :
    layoutSettingOf key = (List.finRange columnCount).findSome? (columnSetting key) := by
  simp only [fixedKeys, List.mem_cons, List.not_mem_nil, or_false, not_or] at h
  obtain ⟨h₁, h₂, h₃, h₄, h₅, h₆⟩ := h
  rw [layoutSettingOf, if_neg h₁, if_neg h₂, if_neg h₃, if_neg h₄, if_neg h₅, if_neg h₆]

/-- The one column whose key it is. -/
theorem findSome?_column {f : Column → Option LayoutSetting} {column : Column} {setting : LayoutSetting}
    (hself : f column = some setting) (hother : ∀ other, other ≠ column → f other = none) :
    (List.finRange columnCount).findSome? f = some setting := by
  have hsome : ((List.finRange columnCount).findSome? f).isSome = true :=
    List.findSome?_isSome_iff.mpr ⟨column, List.mem_finRange column, hself ▸ rfl⟩
  obtain ⟨found, hfound⟩ := Option.isSome_iff_exists.mp hsome
  obtain ⟨other, -, hf⟩ := List.exists_of_findSome?_eq_some hfound
  by_cases heq : other = column
  · rw [hfound, ← hf, heq, hself]
  · rw [hother other heq] at hf
    cases hf

theorem dot_mem_width (column : Column) : 46 ∈ ascii "width." ++ columnKey column :=
  List.mem_append_left _ (by decide)

theorem dot_mem_order (column : Column) : 46 ∈ ascii "order." ++ columnKey column :=
  List.mem_append_left _ (by decide)

theorem width_ne_order (column other : Column) : ascii "width." ++ columnKey column ≠ ascii "order." ++ columnKey other := by
  intro h
  have hwidth : ascii "width." = 119 :: ascii "idth." := by decide
  have horder : ascii "order." = 111 :: ascii "rder." := by decide
  rw [hwidth, horder] at h
  exact absurd (List.cons.inj h).1 (by decide)

theorem columnSetting_eq (key : Text) (column : Column) : columnSetting key column =
    if key = columnKey column then some (.visible column)
    else if key = ascii "width." ++ columnKey column then some (.width column)
    else if key = ascii "order." ++ columnKey column then some (.order column)
    else none := rfl

theorem layoutSettingOf_visible (column : Column) : layoutSettingOf (columnKey column) = some (.visible column) := by
  have hfixed : columnKey column ∉ fixedKeys := by
    have htest := columnKey_test column
    rw [Bool.and_eq_true] at htest
    simpa using htest.2
  rw [layoutSettingOf_columns hfixed]
  refine findSome?_column (if_pos rfl) fun other hne => ?_
  rw [columnSetting_eq, if_neg fun h => hne (columnKey_injective h).symm,
    if_neg (ne_of_dot (dot_mem_width other) (columnKey_dotless column)).symm,
    if_neg (ne_of_dot (dot_mem_order other) (columnKey_dotless column)).symm]

theorem layoutSettingOf_width (column : Column) :
    layoutSettingOf (ascii "width." ++ columnKey column) = some (.width column) := by
  rw [layoutSettingOf_columns fun hmem => ne_of_dot (dot_mem_width column) (fixedKeys_dotless _ hmem) rfl]
  have hkey : ∀ other, columnSetting (ascii "width." ++ columnKey column) other =
      if ascii "width." ++ columnKey column = ascii "width." ++ columnKey other then some (.width other) else none := by
    intro other
    rw [columnSetting_eq, if_neg (ne_of_dot (dot_mem_width column) (columnKey_dotless other)), if_neg (width_ne_order column other)]
  refine findSome?_column ((hkey column).trans (if_pos rfl)) fun other hne => (hkey other).trans (if_neg fun h => ?_)
  exact hne (columnKey_injective (List.append_cancel_left h)).symm

theorem layoutSettingOf_order (column : Column) :
    layoutSettingOf (ascii "order." ++ columnKey column) = some (.order column) := by
  rw [layoutSettingOf_columns fun hmem => ne_of_dot (dot_mem_order column) (fixedKeys_dotless _ hmem) rfl]
  have hkey : ∀ other, columnSetting (ascii "order." ++ columnKey column) other =
      if ascii "order." ++ columnKey column = ascii "order." ++ columnKey other then some (.order other) else none := by
    intro other
    rw [columnSetting_eq, if_neg (ne_of_dot (dot_mem_order column) (columnKey_dotless other)), if_neg (width_ne_order other column).symm]
  refine findSome?_column ((hkey column).trans (if_pos rfl)) fun other hne => (hkey other).trans (if_neg fun h => ?_)
  exact hne (columnKey_injective (List.append_cancel_left h)).symm

/-- No key stands for a setting of another one. -/
theorem layoutSettingOf_key (setting : LayoutSetting) : layoutSettingOf setting.key = some setting := by
  cases setting with
  | visible column => exact layoutSettingOf_visible column
  | width column => exact layoutSettingOf_width column
  | order column => exact layoutSettingOf_order column
  | _ => decide

theorem layoutKey_plain (setting : LayoutSetting) : setting.key ≠ [] ∧ ∀ b ∈ setting.key, isPlain b = true := by
  have hcolumn : ∀ column, plainText (columnKey column) = true := by
    intro column
    have htest := columnKey_test column
    rw [Bool.and_eq_true, Bool.and_eq_true] at htest
    exact htest.1.1
  cases setting with
  | visible column => exact plainText_iff.mp (hcolumn column)
  | width column => exact plainText_iff.mp (plainText_append (by decide) (hcolumn column))
  | order column => exact plainText_iff.mp (plainText_append (by decide) (hcolumn column))
  | _ => exact plainText_iff.mp (by decide)

theorem bitText_plain (value : Bool) : bitText value ≠ [] ∧ ∀ b ∈ bitText value, isPlain b = true := by
  cases value <;> exact plainText_iff.mp (by decide)

theorem layoutText_plain (layout : Layout) (setting : LayoutSetting) :
    setting.text layout ≠ [] ∧ ∀ b ∈ setting.text layout, isPlain b = true := by
  cases setting with
  | tree => exact bitText_plain _
  | heatmap => exact bitText_plain _
  | visible => exact bitText_plain _
  | sortOrder =>
    rw [LayoutSetting.text]
    cases layout.sortOrder <;> exact plainText_iff.mp (by decide)
  | _ => exact printInt_plain _

/-! ### The values -/

section
variable (config : ConfigFormat) (numbers : Procfs.Library)

theorem parseLine_layoutLineOf (layout : Layout) (setting : LayoutSetting) :
    config.parseLine (layoutLineOf layout setting) = some (setting.key, setting.text layout) :=
  have hkey := layoutKey_plain setting
  have htext := layoutText_plain layout setting
  config.parseLine_entry ⟨setting.key, hkey.1, hkey.2⟩ ⟨setting.text layout, htext.1, htext.2⟩

theorem target_layoutLineOf (layout : Layout) (setting : LayoutSetting) :
    (layoutSchema config numbers).target (layoutLineOf layout setting) = some setting := by
  show (config.parseLine (layoutLineOf layout setting)).bind _ = _
  rw [parseLine_layoutLineOf]
  exact layoutSettingOf_key setting

theorem parseBool_bitText (value : Bool) : config.parseBool (bitText value) = some value := by
  cases value with
  | false => exact config.parseBool_zero
  | true => exact config.parseBool_one

theorem isOrder_savedOrder {page : DetailsPage} (h : page.Valid) : IsOrder (savedOrder page) := isOrder_idxOf h.columns

/-- What is written for a setting of a valid page is accepted. -/
theorem accept_layoutText {page : DetailsPage} (h : page.Valid) {setting : LayoutSetting} (hwritten : setting ∈ writtenLayout page) :
    setting.accept config numbers (setting.text (savedLayout page)) = some (setting.get (savedLayout page)) := by
  cases setting with
  | layoutVersion =>
    have hrange : 0 ≤ currentVersion ∧ currentVersion ≤ intMax := by decide
    exact parseI64Range_printInt hrange
  | tree => exact parseBool_bitText config _
  | scope => exact parseI64Range_printInt h.scope
  | heatmap => exact parseBool_bitText config _
  | sortColumn =>
    obtain ⟨sort, hpage⟩ := Option.isSome_iff_exists.mp ((written_sortColumn_iff page).mp hwritten)
    have hsaved : (savedLayout page).sortColumn = sort.1 := by rw [savedLayout, hpage]; rfl
    have hrange := h.sort sort hpage
    exact parseI64Range_printInt ⟨hsaved ▸ hrange.1, hsaved ▸ Int.le_sub_one_of_lt hrange.2⟩
  | sortOrder =>
    have hsort : ∀ sortOrder : GtkSortType, (if sortText sortOrder = ascii "descending" then some .descending
        else if sortText sortOrder = ascii "ascending" then some .ascending else none : Option GtkSortType) =
          some sortOrder := by
      intro sortOrder
      cases sortOrder <;> decide
    exact hsort _
  | visible => exact parseBool_bitText config _
  | width column => exact parseI64Range_printInt (h.width column)
  | order column =>
    have hrange := (isOrder_savedOrder h).range column
    exact parseI64Range_printInt ⟨hrange.1, Int.le_sub_one_of_lt hrange.2⟩

theorem accept_layoutLineOf {page : DetailsPage} (h : page.Valid) {setting : LayoutSetting} (hwritten : setting ∈ writtenLayout page) :
    (layoutSchema config numbers).accept setting (layoutLineOf (savedLayout page) setting) =
      some (setting.get (savedLayout page)) := by
  show (config.parseLine (layoutLineOf (savedLayout page) setting)).bind _ = _
  rw [parseLine_layoutLineOf]
  exact accept_layoutText config numbers h hwritten

/-- Only the sorting can be missing in the file, and then the page is not sorted. -/
theorem get_unwritten {page : DetailsPage} {setting : LayoutSetting} (h : setting ∉ writtenLayout page) :
    setting.get {} = setting.get (savedLayout page) := by
  cases setting with
  | sortColumn =>
    have hnone := Option.not_isSome_iff_eq_none.mp fun hsome => h ((written_sortColumn_iff page).mpr hsome)
    show (-1 : Int) = page.sort.elim (-1) Prod.fst
    rw [hnone]
    rfl
  | sortOrder =>
    have hnone := Option.not_isSome_iff_eq_none.mp fun hsome => h ((written_sortOrder_iff page).mpr hsome)
    show GtkSortType.ascending = page.sort.elim .ascending Prod.snd
    rw [hnone]
    rfl
  | _ => exact absurd (written_of_ne page (by simp) (by simp)) h

/-- The file of a page is read as its layout. -/
theorem loadedLayout_eq {page : DetailsPage} (h : page.Valid) :
    ((writtenLayout page).map (layoutLineOf (savedLayout page))).foldl (loadLayoutLine config numbers) {} = savedLayout page := by
  have hget : ∀ setting : LayoutSetting, setting.get (((writtenLayout page).map (layoutLineOf (savedLayout page))).foldl
      (loadLayoutLine config numbers) {}) = setting.get (savedLayout page) := by
    intro setting
    have hload := @Schema.get_load_written _ _ _ _ (layoutSchema config numbers) (layoutLineOf (savedLayout page))
      (fun setting => setting.get (savedLayout page)) (writtenLayout page)
      (fun setting _ => target_layoutLineOf config numbers (savedLayout page) setting)
      (fun setting hwritten => accept_layoutLineOf config numbers h hwritten) {} setting
    by_cases hwritten : setting ∈ writtenLayout page
    · exact hload.trans (if_pos hwritten)
    · exact (hload.trans (if_neg hwritten)).trans (get_unwritten hwritten)
  exact Layout.ext (hget .layoutVersion) (hget .tree) (hget .scope) (hget .heatmap) (hget .sortColumn) (hget .sortOrder)
    (funext fun column => hget (.visible column)) (funext fun column => hget (.width column))
    (funext fun column => hget (.order column))

theorem applyLayout_saved {page : DetailsPage} (h : page.Valid) (built : BuiltPage) :
    applyLayout (savedLayout page) built.toDetailsPage = page := by
  refine DetailsPage.ext ?_ ?_ rfl ?_ rfl rfl rfl
  · show placeColumns (savedOrder page) built.columns = page.columns
    rw [placeColumns_eq (isOrder_savedOrder h) built.columns_perm]
    exact arranged_idxOf h.columns
  · show Function.update page.visible nameColumn true = page.visible
    rw [← h.name]
    exact Function.update_eq_self ..
  · show (if (savedLayout page).sortColumn ≥ 0 then _ else built.sort) = page.sort
    rw [savedLayout]
    cases hpage : page.sort with
    | none => exact built.unsorted
    | some sort => exact if_pos (h.sort sort hpage).1

end

/-- **Any file gives a valid page**, and the file that is written for a valid page gives that page. -/
theorem details_layout_spec (config : ConfigFormat) (numbers : Procfs.Library) (built : BuiltPage) :
    (∀ file : Option Text, (lsmDetailsLayoutLoad config numbers file built.toDetailsPage).Valid) ∧
      ∀ saved : { page : DetailsPage // page.Valid },
        lsmDetailsLayoutLoad config numbers (some (lsmDetailsSaveLayout saved)) built.toDetailsPage = saved := by
  refine ⟨fun file => details_layout_valid config numbers file built, fun ⟨page, hpage⟩ => ?_⟩
  have hlines : ∀ line ∈ (writtenLayout page).map (layoutLineOf (savedLayout page)), Line line := by
    intro line hline
    obtain ⟨setting, -, rfl⟩ := List.mem_map.mp hline
    have hkey := layoutKey_plain setting
    have htext := layoutText_plain (savedLayout page) setting
    exact line_entry ⟨setting.key, hkey.1, hkey.2⟩ ⟨setting.text (savedLayout page), htext.1, htext.2⟩
  have hcut : (lsmDetailsSaveLayout page).takeWhile (· != 0) = lsmDetailsSaveLayout page := by
    rw [List.takeWhile_eq_self_iff, saveLayout_eq]
    intro b hb
    exact bne_iff_ne.mpr fun hzero => nulFree_fileOf hlines (hzero ▸ hb)
  have hread : layoutLines (some (lsmDetailsSaveLayout page)) =
      (writtenLayout page).map (layoutLineOf (savedLayout page)) := by
    rw [layoutLines, hcut, saveLayout_eq, tokens_fileOf hlines]
  rw [lsmDetailsLayoutLoad, hread, loadedLayout_eq config numbers hpage, migrate_current rfl (isOrder_savedOrder hpage)]
  exact applyLayout_saved hpage built

end SystemMonitor.Settings
