import SystemMonitor.Settings.Preferences

/-! Preferences that are saved and loaded again.

`settingOf_key`: the keys of the writer are those of the loader. `accept_text`: what is written
for a setting passes its check. `preferences_survive`: what is written is loaded again, whatever
the preferences were, and after any file each preference has the last value that passed. -/
namespace SystemMonitor.Settings
open Lib Pages

variable (lib : PreferencesLibrary)

/-! ### What is written -/

def fixedSettings : List Setting := [
  .updateIntervalMs, .filesystemUpdateIntervalMs, .themeMode, .flag .newerOnRight, .flag .networkUseBits,
  .flag .networkTotalSeparate, .flag .networkTotalUseBits, .flag .graphSmooth, .flag .cpuStacked,
  .flag .memoryLogarithmic, .graphDataPoints, .flag .processCpuPerCore, .flag .confirmProcessActions,
  .flag .showAllFilesystems, .flag .processHeatmap, .flag .alwaysOnTop, .flag .compactSummary, .windowWidth,
  .windowHeight, .flag .windowMaximized, .lastTab]

def scrollSettings : List Setting := (List.finRange tabCount).map .pageScroll

/-- The order of the file. -/
def writtenSettings : List Setting := fixedSettings ++ scrollSettings ++ [Setting.performancePage]

theorem mem_writtenSettings (setting : Setting) : setting ∈ writtenSettings := by
  cases setting with
  | flag f => cases f <;> decide
  | pageScroll index => exact List.mem_append_left _ (List.mem_append_right _ (List.mem_map_of_mem (List.mem_finRange index)))
  | _ => decide

def Flag.key : Flag → String
  | .newerOnRight => "newer_on_right"
  | .networkUseBits => "network_use_bits"
  | .networkTotalSeparate => "network_total_separate"
  | .networkTotalUseBits => "network_total_use_bits"
  | .graphSmooth => "graph_smooth"
  | .cpuStacked => "cpu_stacked"
  | .memoryLogarithmic => "memory_logarithmic"
  | .processCpuPerCore => "process_cpu_per_core"
  | .confirmProcessActions => "confirm_process_actions"
  | .showAllFilesystems => "show_all_filesystems"
  | .processHeatmap => "process_heatmap"
  | .alwaysOnTop => "always_on_top"
  | .compactSummary => "compact_summary"
  | .windowMaximized => "window_maximized"

/-- The key under which a setting is written. -/
def Setting.key : Setting → Text
  | .updateIntervalMs => ascii "update_interval_ms"
  | .filesystemUpdateIntervalMs => ascii "filesystem_update_interval_ms"
  | .themeMode => ascii "theme_mode"
  | .flag f => ascii f.key
  | .graphDataPoints => ascii "graph_data_points"
  | .windowWidth => ascii "window_width"
  | .windowHeight => ascii "window_height"
  | .lastTab => ascii "last_tab"
  | .performancePage => ascii "performance_page"
  | .pageScroll index => pageScrollPrefix ++ Decimal.print index

/-- The value that is written for a setting. -/
def Setting.text (preferences : Preferences) : Setting → Text
  | .updateIntervalMs => Decimal.print preferences.updateIntervalMs
  | .filesystemUpdateIntervalMs => Decimal.print preferences.filesystemUpdateIntervalMs
  | .themeMode => (lib.themeModeKey preferences.themeMode).text
  | .flag f => digit (preferences.flags f)
  | .graphDataPoints => Decimal.print preferences.graphDataPoints
  | .windowWidth => Decimal.printInt preferences.windowWidth
  | .windowHeight => Decimal.printInt preferences.windowHeight
  | .lastTab => Decimal.printInt preferences.lastTab
  | .performancePage =>
    if preferences.selectedPerformancePage.text ≠ [] then preferences.selectedPerformancePage.text else ascii "cpu"
  | .pageScroll index => (lib.numerals.formatFixed (preferences.pageScroll index)).getD []

def lineOf (preferences : Preferences) (setting : Setting) : Text := setting.key ++ 61 :: setting.text lib preferences

/-- The preferences that a saved file stands for. -/
def restored (preferences : Preferences) : Preferences :=
  { preferences with
    pageScroll := fun index => lib.numerals.threeDecimals (preferences.pageScroll index)
    selectedPerformancePage :=
      if preferences.selectedPerformancePage.text ≠ [] then preferences.selectedPerformancePage else .ofText (ascii "cpu") }

section
variable {lib} (saved : ValidPreferences)

/-- A setting with a key of its own. -/
def Setting.fixed : Setting → Option Setting
  | .pageScroll _ => none
  | setting => some setting

/-- The comparisons of the loader, with every key of the writer. -/
theorem fixedSetting_key (setting : Setting) : fixedSetting setting.key = setting.fixed := by
  have htest : (writtenSettings.all fun setting => fixedSetting setting.key = setting.fixed) = true := by decide
  exact of_decide_eq_true (List.all_eq_true.mp htest setting (mem_writtenSettings setting))

theorem pageScrollIndex_key (index : Fin tabCount) :
    preferencePageScrollIndex lib (Setting.pageScroll index).key = some index := by
  have hrange : (0 : Int) ≤ (index : Nat) ∧ ((index : Nat) : Int) ≤ (tabCount : Nat) - 1 := by omega
  have hparse := @parseI64Range_print lib.numbers _ _ _ hrange
  have hprefix : pageScrollPrefix.isPrefixOf (pageScrollPrefix ++ Decimal.print index) = true :=
    List.isPrefixOf_iff_prefix.mpr (List.prefix_append ..)
  rw [preferencePageScrollIndex, Setting.key, if_pos hprefix, List.drop_left, hparse]
  exact dif_pos index.isLt

/-- The two lists of the writer and the loader have the same keys. -/
theorem settingOf_key (setting : Setting) : settingOf lib setting.key = some setting := by
  rw [settingOf, fixedSetting_key]
  cases setting with
  | pageScroll index =>
    rw [pageScrollIndex_key]
    rfl
  | _ => rfl

theorem key_plain (setting : Setting) : setting.key ≠ [] ∧ ∀ b ∈ setting.key, isPlain b = true := by
  have htest : (writtenSettings.all fun setting => plainText setting.key) = true := by decide
  exact plainText_iff.mp (List.all_eq_true.mp htest setting (mem_writtenSettings setting))

theorem formatFixed_scroll (index : Fin tabCount) :
    ∃ text, lib.numerals.formatFixed (saved.pageScroll index) = some text :=
  have hrange := saved.inRange (.pageScroll index)
  Option.isSome_iff_exists.mp (lib.format_scroll _ hrange.1 hrange.2)

theorem text_plain (setting : Setting) :
    setting.text lib saved.toPreferences ≠ [] ∧ ∀ b ∈ setting.text lib saved.toPreferences, isPlain b = true := by
  cases setting with
  | updateIntervalMs => exact print_plain _
  | filesystemUpdateIntervalMs => exact print_plain _
  | graphDataPoints => exact print_plain _
  | themeMode => exact ⟨(lib.themeModeKey _).nonempty, (lib.themeModeKey _).plain⟩
  | flag f =>
    rw [Setting.text]
    cases saved.flags f <;> exact plainText_iff.mp (by decide)
  | windowWidth => exact printInt_plain _
  | windowHeight => exact printInt_plain _
  | lastTab => exact printInt_plain _
  | performancePage =>
    rw [Setting.text]
    split
    next hne =>
      have hname := ((validStackName_iff _).mp ((saved.inRange .performancePage).resolve_left hne)).2
      exact ⟨hne, fun b hb => isPlain_of_stackByte (hname b hb)⟩
    next => exact plainText_iff.mp (by decide)
  | pageScroll index =>
    obtain ⟨text, htext⟩ := @formatFixed_scroll lib saved index
    obtain ⟨hne, -, hbytes⟩ := lib.numerals.formatFixed_text _ text htext
    rw [Setting.text, htext]
    refine ⟨hne, fun b hb => ?_⟩
    rcases hbytes b hb with rfl | rfl | hdigit
    · rfl
    · rfl
    · exact isPlain_of_isDigit hdigit

theorem scrollLines_eq :
    scrollLines lib saved.toPreferences =
      some ((List.finRange tabCount).map fun index => lineOf lib saved.toPreferences (.pageScroll index)) := by
  have hline : ∀ index, (lib.numerals.formatFixed (saved.pageScroll index)).map (fun scroll =>
      pageScrollPrefix ++ Decimal.print index ++ 61 :: scroll) = some (lineOf lib saved.toPreferences (.pageScroll index)) := by
    intro index
    obtain ⟨text, htext⟩ := @formatFixed_scroll lib saved index
    rw [lineOf, Setting.text, htext]
    rfl
  rw [scrollLines, funext hline]
  exact List.mapM_pure

theorem writePreferences_eq :
    writePreferences lib saved.toPreferences =
      some (fileOf (ascii "# System Monitor graphical preferences" ::
        writtenSettings.map (lineOf lib saved.toPreferences))) := by
  rw [writePreferences, scrollLines_eq]
  refine congrArg (fun lines => some (fileOf (_ :: lines))) ?_
  rw [writtenSettings, List.map_append, List.map_append, scrollSettings, List.map_map]
  rfl

theorem parseLine_lineOf (setting : Setting) :
    lib.config.parseLine (lineOf lib saved.toPreferences setting) = some (setting.key, setting.text lib saved.toPreferences) :=
  have hkey := key_plain setting
  have htext := @text_plain lib saved setting
  lib.config.parseLine_entry ⟨setting.key, hkey.1, hkey.2⟩ ⟨setting.text lib saved.toPreferences, htext.1, htext.2⟩

/-- What is written for a setting passes its check. -/
theorem accept_text (setting : Setting) :
    setting.accept lib (setting.text lib saved.toPreferences) = some (setting.get (restored lib saved.toPreferences)) := by
  have hrange := saved.inRange setting
  cases setting with
  | updateIntervalMs =>
    have hfour : saved.updateIntervalMs = 500 ∨ saved.updateIntervalMs = 1000 ∨ saved.updateIntervalMs = 2000 ∨
      saved.updateIntervalMs = 5000 := hrange
    have hparse : parseInterval lib (Decimal.print saved.updateIntervalMs) = some (saved.updateIntervalMs : Int) := by
      rw [parseInterval, parseI64Range_print (by omega)]
      exact Option.filter_some_pos (decide_eq_true (by omega))
    exact congrArg (Option.map Int.toNat) hparse
  | filesystemUpdateIntervalMs =>
    have hbounds : 1000 ≤ saved.filesystemUpdateIntervalMs ∧ saved.filesystemUpdateIntervalMs ≤ 100000 := hrange
    exact congrArg (Option.map Int.toNat) (parseI64Range_print (by omega))
  | graphDataPoints =>
    have hbounds : 30 ≤ saved.graphDataPoints ∧ saved.graphDataPoints ≤ 600 := hrange
    exact congrArg (Option.map Int.toNat) (parseI64Range_print (by omega))
  | themeMode => exact lib.theme_parse_key _
  | flag f =>
    have hdigit : ∀ value, lib.config.parseBool (digit value) = some value := by
      intro value
      cases value with
      | false => exact lib.config.parseBool_zero
      | true => exact lib.config.parseBool_one
    exact hdigit _
  | windowWidth => exact parseI64Range_printInt hrange
  | windowHeight => exact parseI64Range_printInt hrange
  | lastTab => exact parseI64Range_printInt hrange
  | performancePage =>
    have hpage : ∀ page : Chars 96, page.text = [] ∨ validStackName page.text = true →
        (if validStackName (if page.text ≠ [] then page.text else ascii "cpu") then
          some (Chars.ofText (if page.text ≠ [] then page.text else ascii "cpu") : Chars 96) else none) =
            some (if page.text ≠ [] then page else .ofText (ascii "cpu")) := by
      intro page hname
      by_cases hempty : page.text = []
      · rw [if_neg (not_not_intro hempty), if_neg (not_not_intro hempty)]
        exact if_pos (by decide)
      · rw [if_pos hempty, if_pos hempty, if_pos (hname.resolve_left hempty), Chars.ofText_self]
    exact hpage saved.selectedPerformancePage hrange
  | pageScroll index =>
    obtain ⟨text, htext⟩ := @formatFixed_scroll lib saved index
    have hlow := lib.numerals.threeDecimals_mono _ _ hrange.1
    have hhigh := lib.numerals.threeDecimals_mono _ _ hrange.2
    have hzero := lib.numerals.threeDecimals_int 0
    have hmaximum := lib.numerals.threeDecimals_int 1000000000
    norm_num at hzero hmaximum
    rw [hzero] at hlow
    rw [hmaximum] at hhigh
    rw [Setting.text, htext]
    exact lib.numerals.format_parse _ text _ _ htext hlow hhigh

theorem target_lineOf (setting : Setting) : (schema lib).target (lineOf lib saved.toPreferences setting) = some setting := by
  show (lib.config.parseLine (lineOf lib saved.toPreferences setting)).bind _ = _
  rw [parseLine_lineOf]
  exact settingOf_key setting

theorem accept_lineOf (setting : Setting) :
    (schema lib).accept setting (lineOf lib saved.toPreferences setting) =
      some (setting.get (restored lib saved.toPreferences)) := by
  show (lib.config.parseLine (lineOf lib saved.toPreferences setting)).bind _ = _
  rw [parseLine_lineOf]
  exact accept_text saved setting

theorem get_load_lineOf (start : Preferences) (setting : Setting) :
    setting.get ((writtenSettings.map (lineOf lib saved.toPreferences)).foldl (loadLine lib) start) =
      setting.get (restored lib saved.toPreferences) :=
  (@Schema.get_load_written _ _ _ _ (schema lib) (lineOf lib saved.toPreferences)
    (fun setting => setting.get (restored lib saved.toPreferences)) writtenSettings
    (fun setting _ => target_lineOf saved setting) (fun setting _ => accept_lineOf saved setting) start setting).trans
      (if_pos (mem_writtenSettings setting))

theorem line_lineOf (setting : Setting) : Line (lineOf lib saved.toPreferences setting) :=
  have hkey := key_plain setting
  have htext := @text_plain lib saved setting
  line_entry ⟨setting.key, hkey.1, hkey.2⟩ ⟨setting.text lib saved.toPreferences, htext.1, htext.2⟩

end

/-- **The preferences survive.** What is written for preferences in their ranges is loaded as they were, scroll
positions rounded and an empty page become `cpu`, into any others. After any file every preference is in its
range and has the last value that a line with its key gave it. -/
theorem preferences_survive (lib : PreferencesLibrary) :
    (∀ saved : ValidPreferences, ∃ file, writePreferences lib saved.toPreferences = some file ∧
      ∀ other : Preferences, lsmPreferencesLoad lib (some file) other = restored lib saved.toPreferences) ∧
    ∀ (file : Option Text) (before : ValidPreferences) (setting : Setting),
      setting.InRange (setting.get (lsmPreferencesLoad lib file before.toPreferences)) ∧
        setting.get (lsmPreferencesLoad lib file before.toPreferences) =
          (lastOf ((schema lib).acceptable setting) (fileLines file)).getD (setting.get before.toPreferences) := by
  refine ⟨fun saved => ⟨_, writePreferences_eq saved, fun other => preferences_ext fun setting => ?_⟩,
    fun file before setting => ⟨?_, ?_⟩⟩
  · have hlines : ∀ line ∈ ascii "# System Monitor graphical preferences" ::
        writtenSettings.map (lineOf lib saved.toPreferences), Line line := by
      refine List.forall_mem_cons.mpr ⟨?_, fun line hline => ?_⟩
      · unfold Line
        decide +kernel
      · obtain ⟨setting, -, rfl⟩ := List.mem_map.mp hline
        exact line_lineOf saved setting
    rw [lsmPreferencesLoad, fileLines]
    rw [if_neg (nulFree_fileOf hlines), tokens_fileOf hlines, List.foldl_cons]
    exact get_load_lineOf saved _ setting
  · exact @Schema.load_range _ _ _ _ (schema lib) Setting.InRange accept_schema_inRange _ before.inRange (fileLines file) setting
  · exact (schema lib).get_load setting before.toPreferences (fileLines file)

end SystemMonitor.Settings
