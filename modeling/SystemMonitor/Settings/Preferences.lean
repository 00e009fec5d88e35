import SystemMonitor.Lib.Schema
import SystemMonitor.Recorder.Metrics
import SystemMonitor.Settings.Entries

/-! The graphical preferences and their file.

The loader compares the key of a line with two dozen keys, and each has a check of its own;
the writer is another list of the same keys. For `schema` the loader is a schema of settings,
and what passes a check lies in the range of its setting (`accept_inRange`). -/
namespace SystemMonitor.Settings
open Lib Pages

/-! ### The preferences -/

inductive InfiltratrThemeMode where
  | system | day | night
  deriving DecidableEq

/-- The preferences that are on or off. -/
inductive Flag where
  | newerOnRight | networkUseBits | networkTotalSeparate | networkTotalUseBits | graphSmooth | cpuStacked
  | memoryLogarithmic | processCpuPerCore | confirmProcessActions | showAllFilesystems | processHeatmap | alwaysOnTop
  | compactSummary | windowMaximized
  deriving DecidableEq

/-- `LSM_TAB_COUNT` is 9 and `LSM_TAB_OVERVIEW` the last tab. -/
abbrev tabCount : Nat := 9

/-- The preferences among the fields of the program. A finite `double` is a rational. -/
@[ext]
structure Preferences where
  updateIntervalMs : Nat
  filesystemUpdateIntervalMs : Nat
  themeMode : InfiltratrThemeMode
  flags : Flag → Bool
  graphDataPoints : Nat
  windowWidth : Int
  windowHeight : Int
  lastTab : Int
  pageScroll : Fin tabCount → ℚ
  selectedPerformancePage : Chars 96

/-- `lsm_preferences_initialise_defaults`. -/
def lsmPreferencesInitialiseDefaults : Preferences where
  updateIntervalMs := 1000
  filesystemUpdateIntervalMs := 5000
  themeMode := .system
  flags
    | .newerOnRight => true
    | .graphSmooth => true
    | .confirmProcessActions => true
    | _ => false
  graphDataPoints := 100
  windowWidth := 1280
  windowHeight := 800
  lastTab := 8
  pageScroll _ := 0
  selectedPerformancePage := .ofText (ascii "cpu")

/-! ### Common -/

/-- What the preferences use of Common. -/
structure PreferencesLibrary where
  config : ConfigFormat
  numbers : Procfs.Library
  numerals : Recorder.Numerals
  themeModeParse : Text → Option InfiltratrThemeMode
  themeModeKey : InfiltratrThemeMode → PlainText
  theme_parse_key : ∀ mode, themeModeParse (themeModeKey mode).text = some mode
  format_scroll : ∀ x, 0 ≤ x → x ≤ 1000000000 → (numerals.formatFixed x).isSome = true

def documentedThemeKey : InfiltratrThemeMode → PlainText
  | .system => .ofAscii "system" (by decide +kernel)
  | .day => .ofAscii "day" (by decide +kernel)
  | .night => .ofAscii "night" (by decide +kernel)

def documentedThemeParse (text : Text) : Option InfiltratrThemeMode :=
  if text = ascii "system" then some .system
  else if text = ascii "day" then some .day
  else if text = ascii "night" then some .night
  else none

theorem documentedTheme_parse_key (mode : InfiltratrThemeMode) :
    documentedThemeParse (documentedThemeKey mode).text = some mode := by
  cases mode <;> decide

theorem formatThree_scroll (x : ℚ) (hlow : 0 ≤ x) (hhigh : x ≤ 1000000000) : (Recorder.formatThree x).isSome = true := by
  have hunits : FixedPoint.units 3 x ≤ 10 ^ 12 := by
    rw [← FixedPoint.units_of_mul 3 (x := 1000000000) (n := 10 ^ 12) (by norm_num)]
    exact FixedPoint.units_mono 3 hhigh
  have hwhole : (FixedPoint.units 3 x).toNat / 10 ^ 3 < 10 ^ 10 := by omega
  have hlength := Decimal.length_print (by decide : 0 < 10) hwhole
  have hfits : (FixedPoint.print 3 (FixedPoint.units 3 x).toNat).length < 64 := by
    rw [FixedPoint.print, List.length_append, List.length_cons, Decimal.length_printFixed]
    omega
  rw [Recorder.formatThree, if_pos ⟨hlow, hfits⟩]
  rfl

/-- The documented behaviour as functions. -/
def PreferencesLibrary.documented : PreferencesLibrary where
  config := .documented
  numbers := .documented
  numerals := .documented
  themeModeParse := documentedThemeParse
  themeModeKey := documentedThemeKey
  theme_parse_key := documentedTheme_parse_key
  format_scroll := formatThree_scroll

variable (lib : PreferencesLibrary)

/-! ### The checks -/

def parseBoolean (value : Text) (fallback : Bool) : Bool := (lib.config.parseBool value).getD fallback

def validatedThemeMode (value : Text) (fallback : InfiltratrThemeMode) : InfiltratrThemeMode :=
  (lib.themeModeParse value).getD fallback

/-- An interval, one of four. -/
def parseInterval (value : Text) : Option Int :=
  (lib.numbers.parseI64Range 0 (2 ^ 63 - 1) value).filter fun parsed =>
    parsed = 500 ∨ parsed = 1000 ∨ parsed = 2000 ∨ parsed = 5000

def validatedInterval (value : Text) (fallback : Nat) : Nat := ((parseInterval lib value).map Int.toNat).getD fallback

def validatedInteger (value : Text) (minimum maximum fallback : Int) : Int :=
  (lib.numbers.parseI64Range minimum maximum value).getD fallback

def validatedDouble (value : Text) (minimum maximum fallback : ℚ) : ℚ :=
  (lib.numerals.parseDoubleRange minimum maximum value).getD fallback

def validStackName (value : Text) : Bool :=
  value ≠ [] && value.all fun b => (97 ≤ b && b ≤ 122) || (48 ≤ b && b ≤ 57) || b == 45 || b == 95

def pageScrollPrefix : Text := ascii "page_scroll_"

def preferencePageScrollIndex (key : Text) : Option (Fin tabCount) :=
  if pageScrollPrefix.isPrefixOf key then
    (lib.numbers.parseI64Range 0 (tabCount - 1) (key.drop pageScrollPrefix.length)).bind fun parsed =>
      if h : parsed.toNat < tabCount then some ⟨parsed.toNat, h⟩ else none
  else none

/-! ### The loader -/

inductive Setting where
  | updateIntervalMs | filesystemUpdateIntervalMs | themeMode | flag (flag : Flag) | graphDataPoints | windowWidth
  | windowHeight | lastTab | performancePage | pageScroll (index : Fin tabCount)
  deriving DecidableEq

/-- The comparisons of the key, in their order. -/
def fixedSetting (key : Text) : Option Setting :=
  if key = ascii "update_interval_ms" then some .updateIntervalMs
  else if key = ascii "filesystem_update_interval_ms" then some .filesystemUpdateIntervalMs
  else if key = ascii "theme_mode" then some .themeMode
  else if key = ascii "newer_on_right" then some (.flag .newerOnRight)
  else if key = ascii "network_use_bits" then some (.flag .networkUseBits)
  else if key = ascii "network_total_separate" then some (.flag .networkTotalSeparate)
  else if key = ascii "network_total_use_bits" then some (.flag .networkTotalUseBits)
  else if key = ascii "graph_smooth" then some (.flag .graphSmooth)
  else if key = ascii "cpu_stacked" then some (.flag .cpuStacked)
  else if key = ascii "memory_logarithmic" then some (.flag .memoryLogarithmic)
  else if key = ascii "graph_data_points" then some .graphDataPoints
  else if key = ascii "process_cpu_per_core" then some (.flag .processCpuPerCore)
  else if key = ascii "confirm_process_actions" then some (.flag .confirmProcessActions)
  else if key = ascii "show_all_filesystems" then some (.flag .showAllFilesystems)
  else if key = ascii "process_heatmap" then some (.flag .processHeatmap)
  else if key = ascii "always_on_top" then some (.flag .alwaysOnTop)
  else if key = ascii "compact_summary" then some (.flag .compactSummary)
  else if key = ascii "window_width" then some .windowWidth
  else if key = ascii "window_height" then some .windowHeight
  else if key = ascii "window_maximized" then some (.flag .windowMaximized)
  else if key = ascii "last_tab" then some .lastTab
  else if key = ascii "performance_page" then some .performancePage
  else none

/-- The setting that a key stands for. -/
def settingOf (key : Text) : Option Setting :=
  (fixedSetting key).or ((preferencePageScrollIndex lib key).map .pageScroll)

/-- What the branch of a setting does with the value. -/
def assign (preferences : Preferences) (value : Text) : Setting → Preferences
  | .updateIntervalMs => { preferences with updateIntervalMs := validatedInterval lib value preferences.updateIntervalMs }
  | .filesystemUpdateIntervalMs =>
    match lib.numbers.parseI64Range 1000 100000 value with
    | some parsed => { preferences with filesystemUpdateIntervalMs := parsed.toNat }
    | none => preferences
  | .themeMode => { preferences with themeMode := validatedThemeMode lib value preferences.themeMode }
  | .flag flag =>
    { preferences with flags := Function.update preferences.flags flag (parseBoolean lib value (preferences.flags flag)) }
  | .graphDataPoints =>
    match lib.numbers.parseI64Range 30 600 value with
    | some parsed => { preferences with graphDataPoints := parsed.toNat }
    | none => preferences
  | .windowWidth => { preferences with windowWidth := validatedInteger lib value 320 7680 preferences.windowWidth }
  | .windowHeight => { preferences with windowHeight := validatedInteger lib value 240 4320 preferences.windowHeight }
  | .lastTab => { preferences with lastTab := validatedInteger lib value 0 (tabCount - 1) preferences.lastTab }
  | .performancePage =>
    -- a name that is not valid goes on to the last comparison, which this key does not pass
    if validStackName value then { preferences with selectedPerformancePage := .ofText value } else preferences
  | .pageScroll index =>
    { preferences with
      pageScroll := Function.update preferences.pageScroll index
        (validatedDouble lib value 0 1000000000 (preferences.pageScroll index)) }

def loadLine (preferences : Preferences) (line : Text) : Preferences :=
  match lib.config.parseLine line with
  | none => preferences
  | some (key, value) =>
    match settingOf lib key with
    | none => preferences
    | some setting => assign lib preferences value setting

/-- The lines of a file that is read. -/
def fileLines (file : Option Text) : List Text :=
  match file with
  | none => []
  | some content => if 0 ∈ content then [] else CStrings.tokens (· == 10) content

/-- `none`: there is no file, or it cannot be read. -/
def lsmPreferencesLoad (file : Option Text) (preferences : Preferences) : Preferences :=
  (fileLines file).foldl (loadLine lib) preferences

/-! ### The writer -/

def digit (value : Bool) : Text := if value then ascii "1" else ascii "0"

def settingLine (key : String) (value : Text) : Text := ascii key ++ 61 :: value

/-- What the first `fprintf` writes behind the comment. -/
def fixedLines (preferences : Preferences) : List Text := [
  settingLine "update_interval_ms" (Decimal.print preferences.updateIntervalMs),
  settingLine "filesystem_update_interval_ms" (Decimal.print preferences.filesystemUpdateIntervalMs),
  settingLine "theme_mode" (lib.themeModeKey preferences.themeMode).text,
  settingLine "newer_on_right" (digit (preferences.flags .newerOnRight)),
  settingLine "network_use_bits" (digit (preferences.flags .networkUseBits)),
  settingLine "network_total_separate" (digit (preferences.flags .networkTotalSeparate)),
  settingLine "network_total_use_bits" (digit (preferences.flags .networkTotalUseBits)),
  settingLine "graph_smooth" (digit (preferences.flags .graphSmooth)),
  settingLine "cpu_stacked" (digit (preferences.flags .cpuStacked)),
  settingLine "memory_logarithmic" (digit (preferences.flags .memoryLogarithmic)),
  settingLine "graph_data_points" (Decimal.print preferences.graphDataPoints),
  settingLine "process_cpu_per_core" (digit (preferences.flags .processCpuPerCore)),
  settingLine "confirm_process_actions" (digit (preferences.flags .confirmProcessActions)),
  settingLine "show_all_filesystems" (digit (preferences.flags .showAllFilesystems)),
  settingLine "process_heatmap" (digit (preferences.flags .processHeatmap)),
  settingLine "always_on_top" (digit (preferences.flags .alwaysOnTop)),
  settingLine "compact_summary" (digit (preferences.flags .compactSummary)),
  settingLine "window_width" (Decimal.printInt preferences.windowWidth),
  settingLine "window_height" (Decimal.printInt preferences.windowHeight),
  settingLine "window_maximized" (digit (preferences.flags .windowMaximized)),
  settingLine "last_tab" (Decimal.printInt preferences.lastTab)]

/-- The scroll positions, or `none` where one cannot be formatted. -/
def scrollLines (preferences : Preferences) : Option (List Text) :=
  (List.finRange tabCount).mapM fun index =>
    (lib.numerals.formatFixed (preferences.pageScroll index)).map fun scroll =>
      pageScrollPrefix ++ Decimal.print index ++ 61 :: scroll

def performancePageLine (preferences : Preferences) : Text :=
  settingLine "performance_page"
    (if preferences.selectedPerformancePage.text ≠ [] then preferences.selectedPerformancePage.text else ascii "cpu")

def writePreferences (preferences : Preferences) : Option Text :=
  (scrollLines lib preferences).map fun scrolls =>
    fileOf (ascii "# System Monitor graphical preferences" ::
      (fixedLines lib preferences ++ scrolls ++ [performancePageLine preferences]))

/-! ### The schema -/

namespace Setting

def Value : Setting → Type
  | .updateIntervalMs | .filesystemUpdateIntervalMs | .graphDataPoints => Nat
  | .themeMode => InfiltratrThemeMode
  | .flag _ => Bool
  | .windowWidth | .windowHeight | .lastTab => Int
  | .performancePage => Chars 96
  | .pageScroll _ => ℚ

def get : (setting : Setting) → Preferences → setting.Value
  | .updateIntervalMs, preferences => preferences.updateIntervalMs
  | .filesystemUpdateIntervalMs, preferences => preferences.filesystemUpdateIntervalMs
  | .themeMode, preferences => preferences.themeMode
  | .flag f, preferences => preferences.flags f
  | .graphDataPoints, preferences => preferences.graphDataPoints
  | .windowWidth, preferences => preferences.windowWidth
  | .windowHeight, preferences => preferences.windowHeight
  | .lastTab, preferences => preferences.lastTab
  | .performancePage, preferences => preferences.selectedPerformancePage
  | .pageScroll index, preferences => preferences.pageScroll index

/-- The range that the loader accepts. -/
def InRange : (setting : Setting) → setting.Value → Prop
  | .updateIntervalMs, (value : Nat) => value = 500 ∨ value = 1000 ∨ value = 2000 ∨ value = 5000
  | .filesystemUpdateIntervalMs, (value : Nat) => 1000 ≤ value ∧ value ≤ 100000
  | .themeMode, _ => True
  | .flag _, _ => True
  | .graphDataPoints, (value : Nat) => 30 ≤ value ∧ value ≤ 600
  | .windowWidth, (value : Int) => 320 ≤ value ∧ value ≤ 7680
  | .windowHeight, (value : Int) => 240 ≤ value ∧ value ≤ 4320
  | .lastTab, (value : Int) => 0 ≤ value ∧ value ≤ tabCount - 1
  | .performancePage, (value : Chars 96) => value.text = [] ∨ validStackName value.text = true
  | .pageScroll _, (value : ℚ) => 0 ≤ value ∧ value ≤ 1000000000

/-- The value that passes the check of a setting. -/
def accept : (setting : Setting) → Text → Option setting.Value
  | .updateIntervalMs, value => (parseInterval lib value).map Int.toNat
  | .filesystemUpdateIntervalMs, value => (lib.numbers.parseI64Range 1000 100000 value).map Int.toNat
  | .themeMode, value => lib.themeModeParse value
  | .flag _, value => lib.config.parseBool value
  | .graphDataPoints, value => (lib.numbers.parseI64Range 30 600 value).map Int.toNat
  | .windowWidth, value => lib.numbers.parseI64Range 320 7680 value
  | .windowHeight, value => lib.numbers.parseI64Range 240 4320 value
  | .lastTab, value => lib.numbers.parseI64Range 0 (tabCount - 1) value
  | .performancePage, value => if validStackName value then some (.ofText value) else none
  | .pageScroll _, value => lib.numerals.parseDoubleRange 0 1000000000 value

end Setting

/-- Preferences in their ranges. -/
structure ValidPreferences extends Preferences where
  inRange : ∀ setting : Setting, setting.InRange (setting.get toPreferences)

theorem preferences_ext {a b : Preferences} (h : ∀ setting : Setting, setting.get a = setting.get b) : a = b :=
  Preferences.ext (h .updateIntervalMs) (h .filesystemUpdateIntervalMs) (h .themeMode) (funext fun flag => h (.flag flag))
    (h .graphDataPoints) (h .windowWidth) (h .windowHeight) (h .lastTab) (funext fun index => h (.pageScroll index))
    (h .performancePage)

section
variable {lib}

theorem get_assign_self (preferences : Preferences) (value : Text) (setting : Setting) :
    setting.get (assign lib preferences value setting) = (setting.accept lib value).getD (setting.get preferences) := by
  cases setting with
  | flag flag => exact Function.update_self ..
  | pageScroll index => exact Function.update_self ..
  | filesystemUpdateIntervalMs =>
    show Setting.get _ (assign lib preferences value .filesystemUpdateIntervalMs) = (Option.map _ _).getD _
    rw [assign]
    cases lib.numbers.parseI64Range 1000 100000 value <;> rfl
  | graphDataPoints =>
    show Setting.get _ (assign lib preferences value .graphDataPoints) = (Option.map _ _).getD _
    rw [assign]
    cases lib.numbers.parseI64Range 30 600 value <;> rfl
  | performancePage =>
    show Setting.get _ (assign lib preferences value .performancePage) = (if _ then _ else _ : Option _).getD _
    rw [assign]
    cases validStackName value <;> rfl
  | _ => rfl

theorem get_assign_other (preferences : Preferences) (value : Text) {setting other : Setting} (h : other ≠ setting) :
    other.get (assign lib preferences value setting) = other.get preferences := by
  cases setting with
  | flag flag =>
    cases other with
    | flag other => exact Function.update_of_ne (fun heq => h (congrArg Setting.flag heq)) ..
    | _ => rfl
  | pageScroll index =>
    cases other with
    | pageScroll other => exact Function.update_of_ne (fun heq => h (congrArg Setting.pageScroll heq)) ..
    | _ => rfl
  | filesystemUpdateIntervalMs =>
    rw [assign]
    cases lib.numbers.parseI64Range 1000 100000 value <;> cases other <;> first | rfl | exact absurd rfl h
  | graphDataPoints =>
    rw [assign]
    cases lib.numbers.parseI64Range 30 600 value <;> cases other <;> first | rfl | exact absurd rfl h
  | performancePage =>
    rw [assign]
    cases validStackName value <;> cases other <;> first | rfl | exact absurd rfl h
  | _ => cases other <;> first | rfl | exact absurd rfl h

end

/-- The preferences as settings of a file. -/
def schema : Schema Setting Text Preferences where
  Value := Setting.Value
  get := Setting.get
  target line := (lib.config.parseLine line).bind fun entry => settingOf lib entry.1
  accept setting line := (lib.config.parseLine line).bind fun entry => setting.accept lib entry.2
  load := loadLine lib
  load_self preferences line setting h := by
    obtain ⟨⟨key, value⟩, hparse, hsetting⟩ := Option.bind_eq_some_iff.mp h
    rw [loadLine, hparse]
    dsimp only at hsetting ⊢
    rw [hsetting]
    exact get_assign_self preferences value setting
  load_other preferences line setting h := by
    rw [loadLine]
    cases hparse : lib.config.parseLine line with
    | none => rfl
    | some entry =>
      obtain ⟨key, value⟩ := entry
      dsimp only
      cases hsetting : settingOf lib key with
      | none => rfl
      | some other =>
        refine get_assign_other preferences value fun heq => h ?_
        rw [hparse]
        exact hsetting.trans (congrArg some heq.symm)

/-! ### Ranges -/

section
variable {lib}

theorem validStackName_iff (value : Text) :
    validStackName value = true ↔
      value ≠ [] ∧ ∀ b ∈ value, ((97 ≤ b && b ≤ 122) || (48 ≤ b && b ≤ 57) || b == 45 || b == 95) = true := by
  rw [validStackName, Bool.and_eq_true, decide_eq_true_iff, List.all_eq_true]

theorem isPlain_of_stackByte {b : UInt8} (h : ((97 ≤ b && b ≤ 122) || (48 ≤ b && b ≤ 57) || b == 45 || b == 95) = true) :
    isPlain b = true := by
  simp only [Bool.or_eq_true] at h
  simp only [isPlain, Decimal.isDigit, Bool.or_eq_true]
  tauto

/-- A name keeps its form when it is cut to the buffer. -/
theorem validStackName_ofText {value : Text} (h : validStackName value = true) :
    validStackName (Chars.ofText value : Chars 96).text = true := by
  obtain ⟨hne, hbytes⟩ := (validStackName_iff value).mp h
  have hwhole : value.takeWhile (· != 0) = value :=
    List.takeWhile_eq_self_iff.mpr fun b hb => bne_iff_ne.mpr (isPlain_ne (isPlain_of_stackByte (hbytes b hb))).1
  have htext : (Chars.ofText value : Chars 96).text = value.take 95 := congrArg (List.take 95) hwhole
  rw [htext, validStackName_iff]
  refine ⟨fun hnil => hne ?_, fun b hb => hbytes b (List.mem_of_mem_take hb)⟩
  simpa using hnil

/-- What passes the check of a setting lies in its range. -/
theorem accept_inRange (setting : Setting) {text : Text} {value : setting.Value} (h : setting.accept lib text = some value) :
    setting.InRange value := by
  cases setting with
  | updateIntervalMs =>
    obtain ⟨n, hn, rfl⟩ := Option.map_eq_some_iff.mp h
    have hfour := of_decide_eq_true (Option.filter_eq_some_iff.mp hn).2
    show n.toNat = 500 ∨ n.toNat = 1000 ∨ n.toNat = 2000 ∨ n.toNat = 5000
    omega
  | filesystemUpdateIntervalMs =>
    obtain ⟨n, hn, rfl⟩ := Option.map_eq_some_iff.mp h
    have hrange := parseI64Range_range hn
    show 1000 ≤ n.toNat ∧ n.toNat ≤ 100000
    omega
  | graphDataPoints =>
    obtain ⟨n, hn, rfl⟩ := Option.map_eq_some_iff.mp h
    have hrange := parseI64Range_range hn
    show 30 ≤ n.toNat ∧ n.toNat ≤ 600
    omega
  | themeMode => trivial
  | flag => trivial
  | windowWidth => exact parseI64Range_range h
  | windowHeight => exact parseI64Range_range h
  | lastTab => exact parseI64Range_range h
  | performancePage =>
    have hname : (if validStackName text then some (Chars.ofText text : Chars 96) else none) = some value := h
    split at hname
    next hvalid =>
      cases hname
      exact .inr (validStackName_ofText hvalid)
    next => cases hname
  | pageScroll => exact lib.numerals.parseDoubleRange_range _ _ _ _ h

theorem accept_schema_inRange (setting : Setting) (line : Text) (value : setting.Value)
    (h : (schema lib).accept setting line = some value) : setting.InRange value := by
  obtain ⟨entry, -, hvalue⟩ := Option.bind_eq_some_iff.mp h
  exact accept_inRange setting hvalue

/-- Every default passes its own check. -/
theorem defaults_inRange (setting : Setting) : setting.InRange (setting.get lsmPreferencesInitialiseDefaults) := by
  cases setting with
  | updateIntervalMs => exact .inr (.inl rfl)
  | themeMode => trivial
  | flag => trivial
  | performancePage => exact .inr (by decide)
  | pageScroll =>
    show (0 : ℚ) ≤ 0 ∧ (0 : ℚ) ≤ 1000000000
    norm_num
  | filesystemUpdateIntervalMs =>
    show 1000 ≤ 5000 ∧ 5000 ≤ 100000
    decide
  | graphDataPoints =>
    show 30 ≤ 100 ∧ 100 ≤ 600
    decide
  | windowWidth =>
    show (320 : Int) ≤ 1280 ∧ (1280 : Int) ≤ 7680
    decide
  | windowHeight =>
    show (240 : Int) ≤ 800 ∧ (800 : Int) ≤ 4320
    decide
  | lastTab =>
    show (0 : Int) ≤ 8 ∧ (8 : Int) ≤ 9 - 1
    decide

end

end SystemMonitor.Settings
