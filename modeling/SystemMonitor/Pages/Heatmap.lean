import SystemMonitor.Procfs.Library

/-! The heat-map option in its two files.

The preferences and the column layout of the Details page both keep the option. The first
is read when a session starts, the second when the page is built; the preferences dialog
writes the first only, the column dialog the second only. What is in effect is what the
user set last just where no file is read that was last written before the option was
changed (`heatmap_iff`).

Common's reading of configuration lines enters as a parameter with its documented
behaviour. The texts of the other settings are arbitrary. -/
namespace SystemMonitor.Pages
open Lib

def isPlain (b : UInt8) : Bool :=
  Decimal.isDigit b || (97 ≤ b && b ≤ 122) || (65 ≤ b && b ≤ 90) || b == 45 || b == 46 || b == 95

/-- A key or a value as the files write them. -/
structure PlainText where
  text : Text
  nonempty : text ≠ []
  plain : ∀ b ∈ text, isPlain b = true

/-- Common's configuration reader. -/
structure ConfigFormat where
  /-- `none`: the line is no entry. -/
  parseLine : Text → Option (Text × Text)
  parseBool : Text → Option Bool
  parseLine_entry : ∀ key value : PlainText, parseLine (key.text ++ 61 :: value.text) = some (key.text, value.text)
  parseLine_comment : ∀ rest, parseLine (35 :: rest) = none
  parseBool_zero : parseBool (ascii "0") = some false
  parseBool_one : parseBool (ascii "1") = some true

/-! ### The files -/

def PlainText.ofAscii (s : String) (h : ascii s ≠ [] ∧ ∀ b ∈ ascii s, isPlain b = true) : PlainText := ⟨ascii s, h.1, h.2⟩

def bit (value : Bool) : PlainText :=
  if value then .ofAscii "1" (by decide +kernel) else .ofAscii "0" (by decide +kernel)

def heatmapKey : PlainText := .ofAscii "heatmap" (by decide +kernel)

def processHeatmapKey : PlainText := .ofAscii "process_heatmap" (by decide +kernel)

/-- The preferences written before the option, and those behind it. -/
def preferenceKeys : List String × List String :=
  (["update_interval_ms", "filesystem_update_interval_ms", "theme_mode", "newer_on_right", "network_use_bits",
    "network_total_separate", "network_total_use_bits", "graph_smooth", "cpu_stacked", "memory_logarithmic",
    "graph_data_points", "process_cpu_per_core", "confirm_process_actions", "show_all_filesystems"],
   ["always_on_top", "compact_summary", "window_width", "window_height", "window_maximized", "last_tab",
    "page_scroll_0", "page_scroll_1", "page_scroll_2", "page_scroll_3", "page_scroll_4", "page_scroll_5",
    "page_scroll_6", "page_scroll_7", "page_scroll_8", "performance_page"])

/-- The keys of `lsm_details_column_specs`. -/
def columnKeys : List String :=
  ["name", "pid", "ppid", "user", "status", "cpu", "cpu_time", "memory", "rss", "virtual", "writable", "shared",
   "threads", "read_rate", "write_rate", "gpu", "gpu_engine", "gpu_memory", "read_total", "write_total", "handles",
   "contexts", "faults", "priority", "nice", "security", "wchan", "cgroup", "unit", "session", "seat", "owner",
   "started", "elapsed", "executable", "command"]

/-- The layout before and behind the option; the sorting is written if the rows are sorted by a column. -/
def layoutKeys (sorted : Bool) : List String × List String :=
  (["layout_version", "tree", "scope"],
   columnKeys.flatMap (fun key => [key, "width." ++ key, "order." ++ key]) ++
     if sorted then ["sort_column", "sort_order"] else [])

def entry (key : Text) (value : PlainText) : Text := key ++ 61 :: value.text

def fileOf (lines : List Text) : Text := (lines.map (· ++ [10])).flatten

/-- The lines of a file: the option among the other settings. -/
def linesOf (keys : List String × List String) (key : PlainText) (settings : Text → PlainText) (value : Bool) : List Text :=
  keys.1.map (fun key => entry (ascii key) (settings (ascii key))) ++ entry key.text (bit value) ::
    keys.2.map fun key => entry (ascii key) (settings (ascii key))

def writePreferences (settings : Text → PlainText) (heatmap : Bool) : Text :=
  fileOf (ascii "# System Monitor graphical preferences" :: linesOf preferenceKeys processHeatmapKey settings heatmap)

/-- The text of `lsm_details_save_layout`. -/
def layoutText (settings : Text → PlainText) (sorted heatmap : Bool) : Text :=
  fileOf (linesOf (layoutKeys sorted) heatmapKey settings heatmap)

section
variable (format : ConfigFormat)

/-- `parse_boolean` and `layout_boolean` over the lines with one key. -/
def loadBoolean (key : PlainText) (lines : List Text) (current : Bool) : Bool :=
  lines.foldl (fun current line =>
    match format.parseLine line with
    | some (lineKey, value) => if lineKey = key.text then (format.parseBool value).getD current else current
    | none => current) current

/-- The option after `lsm_preferences_load`. -/
def lsmPreferencesLoad (file : Option Text) (heatmap : Bool) : Bool :=
  match file with
  | none => heatmap
  | some content =>
    if 0 ∈ content then heatmap else loadBoolean format processHeatmapKey (CStrings.tokens (· == 10) content) heatmap

/-- The option after `lsm_details_layout_load`. -/
def lsmDetailsLayoutLoad (file : Option Text) : Bool :=
  match file with
  | none => true
  | some content => loadBoolean format heatmapKey (CStrings.tokens (· == 10) (content.takeWhile (· != 0))) true

/-! ### Sessions -/

structure HeatmapApp where
  preferences : Option Text
  layout : Option Text
  processHeatmap : Bool := false
  /-- The Details page is built. -/
  built : Bool := false

inductive HeatmapEvent where
  /-- A session begins. The one before it has ended, through `lsm_app_shutdown` or not. -/
  | start
  | build
  /-- `lsm_preferences_commit_dialog_values`. -/
  | commit (settings : Text → PlainText) (heatmap : Bool)
  /-- `lsm_details_show_columns`, accepted. -/
  | columns (settings : Text → PlainText) (sorted heatmap : Bool)
  /-- Another setting is changed, and the preferences are saved. -/
  | savePreferences (settings : Text → PlainText)
  /-- The scope or the view is changed. -/
  | saveLayout (settings : Text → PlainText) (sorted : Bool)
  /-- `lsm_app_shutdown`. -/
  | shutdown (settings : Text → PlainText) (sorted : Bool)

namespace HeatmapApp

def savePreferences (s : HeatmapApp) (settings : Text → PlainText) : HeatmapApp :=
  { s with preferences := some (writePreferences settings s.processHeatmap) }

/-- Without the page there is no layout to save. -/
def saveLayout (s : HeatmapApp) (settings : Text → PlainText) (sorted : Bool) : HeatmapApp :=
  if s.built then { s with layout := some (layoutText settings sorted s.processHeatmap) } else s

def step (s : HeatmapApp) : HeatmapEvent → HeatmapApp
  | .start => { s with processHeatmap := lsmPreferencesLoad format s.preferences false, built := false }
  | .build => if s.built then s else { s with processHeatmap := lsmDetailsLayoutLoad format s.layout, built := true }
  | .commit settings heatmap => { s with processHeatmap := heatmap }.savePreferences settings
  | .columns settings sorted heatmap =>
    if s.built then { s with processHeatmap := heatmap }.saveLayout settings sorted else s
  | .savePreferences settings => s.savePreferences settings
  | .saveLayout settings sorted => s.saveLayout settings sorted
  | .shutdown settings sorted => (s.saveLayout settings sorted).savePreferences settings

end HeatmapApp

end

/-! ### What is written is read again -/

theorem isPlain_ne {b : UInt8} (h : isPlain b = true) : b ≠ 0 ∧ b ≠ 10 ∧ b ≠ 61 ∧ b ≠ 35 := by
  refine ⟨?_, ?_, ?_, ?_⟩ <;> intro hb <;> subst hb <;> exact absurd h (by decide)

/-- A line of a file: not empty, of one line, and a C string. -/
def Line (line : Text) : Prop := line ≠ [] ∧ ∀ b ∈ line, b ≠ 0 ∧ b ≠ 10

theorem line_entry (key value : PlainText) : Line (entry key.text value) := by
  refine ⟨by simp [entry], fun b hb => ?_⟩
  rcases List.mem_append.mp hb with hkey | hvalue
  · have hne := isPlain_ne (key.plain b hkey)
    exact ⟨hne.1, hne.2.1⟩
  · rcases List.mem_cons.mp hvalue with rfl | hvalue
    · decide
    · have hne := isPlain_ne (value.plain b hvalue)
      exact ⟨hne.1, hne.2.1⟩

theorem fileOf_cons (line : Text) (rest : List Text) : fileOf (line :: rest) = line ++ 10 :: fileOf rest := by
  simp [fileOf]

theorem tokens_fileOf {lines : List Text} (h : ∀ line ∈ lines, Line line) :
    CStrings.tokens (· == 10) (fileOf lines) = lines := by
  induction lines with
  | nil => exact CStrings.tokens_nil _
  | cons line rest ih =>
    obtain ⟨hline, hrest⟩ := List.forall_mem_cons.mp h
    have hsplit : CStrings.tokens (· == 10) (line ++ 10 :: fileOf rest) =
        CStrings.tokens (· == 10) line ++ CStrings.tokens (· == 10) (fileOf rest) := CStrings.tokens_append _ _ rfl
    rw [fileOf_cons, hsplit, ih hrest, CStrings.tokens_word (fun b hb => beq_eq_false_iff_ne.mpr (hline.2 b hb).2) hline.1]
    rfl

theorem nulFree_fileOf {lines : List Text} (h : ∀ line ∈ lines, Line line) : 0 ∉ fileOf lines := by
  induction lines with
  | nil => exact List.not_mem_nil
  | cons line rest ih =>
    obtain ⟨hline, hrest⟩ := List.forall_mem_cons.mp h
    rw [fileOf_cons, List.mem_append, List.mem_cons]
    intro hmem
    rcases hmem with hmem | hmem | hmem
    · exact (hline.2 0 hmem).1 rfl
    · exact absurd hmem (by decide)
    · exact ih hrest hmem

/-- The keys can be written, and none of them is the option's. -/
def OtherKeys (keys : List String) (key : PlainText) : Prop :=
  ∀ other ∈ keys, (ascii other ≠ [] ∧ ∀ b ∈ ascii other, isPlain b = true) ∧ ascii other ≠ key.text

/-- The same as a test of the keys. -/
theorem otherKeys_of_all {keys : List String} {key : PlainText}
    (h : (keys.all fun other => !(ascii other).isEmpty && (ascii other).all isPlain && ascii other != key.text) = true) :
    OtherKeys keys key := by
  intro other hother
  have htest := List.all_eq_true.mp h other hother
  rw [Bool.and_eq_true, Bool.and_eq_true, List.all_eq_true] at htest
  obtain ⟨⟨hne, hplain⟩, hkey⟩ := htest
  refine ⟨⟨fun hnil => ?_, hplain⟩, bne_iff_ne.mp hkey⟩
  rw [hnil] at hne
  exact absurd hne (by decide)

theorem otherKeys_preferences : OtherKeys (preferenceKeys.1 ++ preferenceKeys.2) processHeatmapKey :=
  otherKeys_of_all (by decide)

theorem otherKeys_layout (sorted : Bool) : OtherKeys ((layoutKeys sorted).1 ++ (layoutKeys sorted).2) heatmapKey := by
  cases sorted with
  | false => exact otherKeys_of_all (by decide)
  | true => exact otherKeys_of_all (by decide)

theorem OtherKeys.line {keys : List String} {key : PlainText} (h : OtherKeys keys key) (settings : Text → PlainText) :
    ∀ line ∈ keys.map (fun other => entry (ascii other) (settings (ascii other))),
      ∃ other value : PlainText, line = entry other.text value ∧ other.text ≠ key.text := by
  intro line hline
  obtain ⟨other, hother, rfl⟩ := List.mem_map.mp hline
  obtain ⟨⟨hne, hplain⟩, hkey⟩ := h other hother
  exact ⟨⟨ascii other, hne, hplain⟩, settings (ascii other), rfl, hkey⟩

theorem line_linesOf {keys : List String × List String} {key : PlainText} (h : OtherKeys (keys.1 ++ keys.2) key)
    (settings : Text → PlainText) (value : Bool) : ∀ line ∈ linesOf keys key settings value, Line line := by
  have hothers := h.line settings
  rw [List.map_append] at hothers
  intro line hline
  have hentry : (∃ other value : PlainText, line = entry other.text value ∧ other.text ≠ key.text) ∨
      line = entry key.text (bit value) := by
    rcases List.mem_append.mp hline with hmem | hmem
    · exact .inl (hothers line (List.mem_append_left _ hmem))
    · rcases List.mem_cons.mp hmem with rfl | hmem
      · exact .inr rfl
      · exact .inl (hothers line (List.mem_append_right _ hmem))
  rcases hentry with ⟨other, value', rfl, -⟩ | rfl
  · exact line_entry ..
  · exact line_entry ..

section
variable (format : ConfigFormat)

theorem loadBoolean_append (key : PlainText) (a b : List Text) (current : Bool) :
    loadBoolean format key (a ++ b) current = loadBoolean format key b (loadBoolean format key a current) :=
  List.foldl_append

/-- Lines with other keys leave the option alone. -/
theorem loadBoolean_others {key : PlainText} {lines : List Text}
    (h : ∀ line ∈ lines, ∃ other value : PlainText, line = entry other.text value ∧ other.text ≠ key.text) (current : Bool) :
    loadBoolean format key lines current = current := by
  induction lines with
  | nil => rfl
  | cons line rest ih =>
    obtain ⟨⟨other, value, rfl, hother⟩, hrest⟩ := List.forall_mem_cons.mp h
    show loadBoolean format key rest (match format.parseLine (entry other.text value) with
      | some (lineKey, value) => if lineKey = key.text then (format.parseBool value).getD current else current
      | none => current) = current
    rw [entry, format.parseLine_entry]
    dsimp only
    rw [if_neg hother]
    exact ih hrest

theorem parseBool_bit (value : Bool) : format.parseBool (bit value).text = some value := by
  cases value with
  | false => exact format.parseBool_zero
  | true => exact format.parseBool_one

theorem loadBoolean_linesOf {keys : List String × List String} {key : PlainText} (h : OtherKeys (keys.1 ++ keys.2) key)
    (settings : Text → PlainText) (value current : Bool) :
    loadBoolean format key (linesOf keys key settings value) current = value := by
  have hothers := h.line settings
  rw [List.map_append] at hothers
  have hentry : ∀ current, loadBoolean format key [entry key.text (bit value)] current = value := by
    intro current
    show (match format.parseLine (entry key.text (bit value)) with
      | some (lineKey, value) => if lineKey = key.text then (format.parseBool value).getD current else current
      | none => current) = value
    rw [entry, format.parseLine_entry]
    dsimp only
    rw [if_pos rfl, parseBool_bit, Option.getD_some]
  rw [linesOf, loadBoolean_append, ← List.singleton_append, loadBoolean_append, hentry]
  exact loadBoolean_others format (fun line hline => hothers line (List.mem_append_right _ hline)) value

/-- The preferences keep the option. -/
theorem preferences_load_write (settings : Text → PlainText) (heatmap current : Bool) :
    lsmPreferencesLoad format (some (writePreferences settings heatmap)) current = heatmap := by
  have hlines : ∀ line ∈ ascii "# System Monitor graphical preferences" :: linesOf preferenceKeys processHeatmapKey settings heatmap,
      Line line := by
    refine List.forall_mem_cons.mpr ⟨?_, line_linesOf otherKeys_preferences settings heatmap⟩
    unfold Line
    decide +kernel
  rw [lsmPreferencesLoad, writePreferences, if_neg (nulFree_fileOf hlines), tokens_fileOf hlines, ← List.singleton_append,
    loadBoolean_append]
  exact loadBoolean_linesOf format otherKeys_preferences settings heatmap _

/-- The layout keeps the option. -/
theorem layout_load_text (settings : Text → PlainText) (sorted heatmap : Bool) :
    lsmDetailsLayoutLoad format (some (layoutText settings sorted heatmap)) = heatmap := by
  have hlines := line_linesOf (otherKeys_layout sorted) settings heatmap
  have hcut : (layoutText settings sorted heatmap).takeWhile (· != 0) = layoutText settings sorted heatmap := by
    rw [List.takeWhile_eq_self_iff]
    intro b hb
    exact bne_iff_ne.mpr fun hzero => nulFree_fileOf hlines (hzero ▸ hb)
  rw [lsmDetailsLayoutLoad, hcut, layoutText, tokens_fileOf hlines]
  exact loadBoolean_linesOf format (otherKeys_layout sorted) settings heatmap _

end

/-! ### Runs -/

/-- The program, what the user set last, and what was in effect when each file was last
written; before that, what the file says. -/
structure HeatmapRun where
  app : HeatmapApp
  chosen : Option Bool := none
  preferencesSaved : Bool
  layoutSaved : Bool

section
variable (format : ConfigFormat)

namespace HeatmapRun

/-- The first session, with files of any content. -/
def first (preferences layout : Option Text) : HeatmapRun where
  app := ({ preferences, layout } : HeatmapApp).step format .start
  preferencesSaved := lsmPreferencesLoad format preferences false
  layoutSaved := lsmDetailsLayoutLoad format layout

def step (s : HeatmapRun) (event : HeatmapEvent) : HeatmapRun :=
  let app := s.app.step format event
  match event with
  | .start => { s with app }
  | .build => { s with app }
  | .commit _ heatmap => { s with app, chosen := some heatmap, preferencesSaved := heatmap }
  | .columns _ _ heatmap => if s.app.built then { s with app, chosen := some heatmap, layoutSaved := heatmap } else s
  | .savePreferences _ => { s with app, preferencesSaved := s.app.processHeatmap }
  | .saveLayout _ _ => if s.app.built then { s with app, layoutSaved := s.app.processHeatmap } else s
  | .shutdown _ _ =>
    { s with
      app
      preferencesSaved := s.app.processHeatmap
      layoutSaved := if s.app.built then s.app.processHeatmap else s.layoutSaved }

def run (s : HeatmapRun) (events : List HeatmapEvent) : HeatmapRun := events.foldl (step format) s

/-- What the user set last is in effect. -/
def InEffect (s : HeatmapRun) : Prop := ∀ heatmap, s.chosen = some heatmap → s.app.processHeatmap = heatmap

/-- A file that is read was last written while what the user set last was in effect. -/
def UpToDate (s : HeatmapRun) : HeatmapEvent → Prop
  | .start => ∀ heatmap, s.chosen = some heatmap → s.preferencesSaved = heatmap
  | .build => s.app.built = false → ∀ heatmap, s.chosen = some heatmap → s.layoutSaved = heatmap
  | _ => True

/-- Every event of the run meets the condition. -/
def AllUpToDate : HeatmapRun → List HeatmapEvent → Prop
  | _, [] => True
  | s, event :: rest => s.UpToDate event ∧ AllUpToDate (s.step format event) rest

/-- The files say what was in effect when they were last written. -/
structure Synced (s : HeatmapRun) : Prop where
  preferences : lsmPreferencesLoad format s.app.preferences false = s.preferencesSaved
  layout : lsmDetailsLayoutLoad format s.app.layout = s.layoutSaved

variable {format}

theorem Synced.step {s : HeatmapRun} (h : s.Synced format) (event : HeatmapEvent) : (s.step format event).Synced format := by
  cases event with
  | start => exact ⟨h.preferences, h.layout⟩
  | build =>
    have hfiles : (s.app.step format .build).preferences = s.app.preferences ∧
        (s.app.step format .build).layout = s.app.layout := by
      rw [HeatmapApp.step]
      split <;> exact ⟨rfl, rfl⟩
    exact ⟨hfiles.1 ▸ h.preferences, hfiles.2 ▸ h.layout⟩
  | commit settings heatmap => exact ⟨preferences_load_write format settings heatmap false, h.layout⟩
  | columns settings sorted heatmap =>
    cases hbuilt : s.app.built with
    | false =>
      simp only [HeatmapRun.step, hbuilt, Bool.false_eq_true, if_false]
      exact h
    | true =>
      simp only [HeatmapRun.step, HeatmapApp.step, HeatmapApp.saveLayout, hbuilt, if_true]
      exact ⟨h.preferences, layout_load_text format settings sorted heatmap⟩
  | savePreferences settings => exact ⟨preferences_load_write format settings _ false, h.layout⟩
  | saveLayout settings sorted =>
    cases hbuilt : s.app.built with
    | false =>
      simp only [HeatmapRun.step, hbuilt, Bool.false_eq_true, if_false]
      exact h
    | true =>
      simp only [HeatmapRun.step, HeatmapApp.step, HeatmapApp.saveLayout, hbuilt, if_true]
      exact ⟨h.preferences, layout_load_text format settings sorted _⟩
  | shutdown settings sorted =>
    cases hbuilt : s.app.built with
    | false =>
      simp only [HeatmapRun.step, HeatmapApp.step, HeatmapApp.saveLayout, hbuilt, Bool.false_eq_true, if_false]
      exact ⟨preferences_load_write format settings _ false, h.layout⟩
    | true =>
      simp only [HeatmapRun.step, HeatmapApp.step, HeatmapApp.saveLayout, hbuilt, if_true]
      exact ⟨preferences_load_write format settings _ false, layout_load_text format settings sorted _⟩

/-- **One event**: what the user set last stays in effect where a file that is read is up to date. -/
theorem inEffect_step {s : HeatmapRun} (h : s.Synced format) (heffect : s.InEffect) (event : HeatmapEvent) :
    (s.step format event).InEffect ↔ s.UpToDate event := by
  have hchosen : ∀ {s' : HeatmapRun} {heatmap : Bool}, s'.chosen = some heatmap → s'.app.processHeatmap = heatmap →
      s'.InEffect := by
    intro s' heatmap hset hvalue other hother
    rw [hset] at hother
    exact hvalue.trans (Option.some.inj hother)
  cases event with
  | start =>
    have hvalue : (s.step format .start).app.processHeatmap = s.preferencesSaved := h.preferences
    rw [InEffect, hvalue]
    exact Iff.rfl
  | build =>
    cases hbuilt : s.app.built with
    | true =>
      have hsame : (s.step format .build).app = s.app := by simp only [HeatmapRun.step, HeatmapApp.step, hbuilt, if_true]
      refine iff_of_true ?_ fun hfalse => by rw [hbuilt] at hfalse; cases hfalse
      rw [InEffect, hsame]
      exact heffect
    | false =>
      have hvalue : (s.step format .build).app.processHeatmap = s.layoutSaved := by
        simp only [HeatmapRun.step, HeatmapApp.step, hbuilt, Bool.false_eq_true, if_false]
        exact h.layout
      rw [InEffect, hvalue]
      exact ⟨fun hall _ => hall, fun hall => hall hbuilt⟩
  | commit settings heatmap => exact iff_of_true (hchosen rfl rfl) trivial
  | columns settings sorted heatmap =>
    refine iff_of_true ?_ trivial
    cases hbuilt : s.app.built with
    | false =>
      simp only [HeatmapRun.step, hbuilt, Bool.false_eq_true, if_false]
      exact heffect
    | true =>
      simp only [HeatmapRun.step, HeatmapApp.step, HeatmapApp.saveLayout, hbuilt, if_true]
      exact hchosen rfl rfl
  | savePreferences settings => exact iff_of_true heffect trivial
  | saveLayout settings sorted =>
    refine iff_of_true ?_ trivial
    cases hbuilt : s.app.built with
    | false =>
      simp only [HeatmapRun.step, hbuilt, Bool.false_eq_true, if_false]
      exact heffect
    | true =>
      simp only [HeatmapRun.step, HeatmapApp.step, HeatmapApp.saveLayout, hbuilt, if_true]
      exact heffect
  | shutdown settings sorted =>
    have hvalue : (s.step format (.shutdown settings sorted)).app.processHeatmap = s.app.processHeatmap := by
      simp only [HeatmapRun.step, HeatmapApp.step, HeatmapApp.saveLayout, HeatmapApp.savePreferences]
      split <;> rfl
    refine iff_of_true ?_ trivial
    rw [InEffect, hvalue]
    exact heffect

/-- After `lsm_app_shutdown` the next session starts with the value in effect. -/
theorem upToDate_start {s : HeatmapRun} (heffect : s.InEffect) (settings : Text → PlainText) (sorted : Bool) :
    (s.step format (.shutdown settings sorted)).UpToDate .start := heffect

/-- **A run**: what the user set last is in effect throughout where all files read are up to date. -/
theorem run_inEffect {s : HeatmapRun} (h : s.Synced format) (heffect : s.InEffect) (events : List HeatmapEvent) :
    (∀ n, (s.run format (events.take n)).InEffect) ↔ AllUpToDate format s events := by
  induction events generalizing s with
  | nil =>
    refine iff_of_true (fun n => ?_) trivial
    rw [List.take_nil]
    exact heffect
  | cons event rest ih =>
    have hiff := inEffect_step h heffect event
    constructor
    · intro hall
      have hnext : (s.step format event).InEffect := hall 1
      exact ⟨hiff.mp hnext, (ih (h.step event) hnext).mp fun n => hall (n + 1)⟩
    · intro hup n
      cases n with
      | zero => exact heffect
      | succ n => exact (ih (h.step event) (hiff.mpr hup.1)).mpr hup.2 n

end HeatmapRun

end

/-- **What the user set last is in effect throughout a run just where each file that is read was
last written while it was.** -/
theorem heatmap_iff (format : ConfigFormat) (preferences layout : Option Text) (events : List HeatmapEvent) :
    (∀ n, ((HeatmapRun.first format preferences layout).run format (events.take n)).InEffect) ↔
      HeatmapRun.AllUpToDate format (.first format preferences layout) events :=
  HeatmapRun.run_inEffect ⟨rfl, rfl⟩ (fun _ h => by cases h) events

/-! ### A choice that is forgotten -/

def isSpace (b : UInt8) : Bool := b == 32 || (9 ≤ b && b ≤ 13)

theorem trimmed_of_forall {t : Text} (h : ∀ b ∈ t, isSpace b = false) : Procfs.trimmed isSpace t = t := by
  have hkeep : ∀ t : Text, (∀ b ∈ t, isSpace b = false) → t.dropWhile isSpace = t := by
    intro t ht
    cases t with
    | nil => rfl
    | cons b rest => exact List.dropWhile_cons_of_neg (by rw [ht b (List.mem_cons_self ..)]; decide)
  rw [Procfs.trimmed, hkeep t h, hkeep t.reverse fun b hb => h b (List.mem_reverse.mp hb), List.reverse_reverse]

theorem isSpace_of_isPlain {b : UInt8} (h : isPlain b = true) : isSpace b = false := by
  simp only [isPlain, Decimal.isDigit, Bool.or_eq_true, Bool.and_eq_true, decide_eq_true_eq, beq_iff_eq,
    UInt8.le_iff_toNat_le, ← UInt8.toNat_inj] at h
  simp only [isSpace, Bool.or_eq_false_iff, Bool.and_eq_false_iff, decide_eq_false_iff_not, beq_eq_false_iff_ne,
    UInt8.le_iff_toNat_le, ne_eq, ← UInt8.toNat_inj]
  simp only [UInt8.reduceToNat] at h ⊢
  omega

/-- A key and a value around the first equals sign, both trimmed, unless the line is a comment. -/
def parseEntry (line : Text) : Option (Text × Text) :=
  let text := Procfs.trimmed isSpace line
  if text.head? = some 35 ∨ 61 ∉ text then none
  else some (Procfs.trimmed isSpace (text.takeWhile (· != 61)), Procfs.trimmed isSpace ((text.dropWhile (· != 61)).drop 1))

theorem parseEntry_entry (key value : PlainText) : parseEntry (key.text ++ 61 :: value.text) = some (key.text, value.text) := by
  have hspace : ∀ b ∈ key.text ++ 61 :: value.text, isSpace b = false := by
    intro b hb
    rcases List.mem_append.mp hb with hkey | hvalue
    · exact isSpace_of_isPlain (key.plain b hkey)
    · rcases List.mem_cons.mp hvalue with rfl | hvalue
      · decide
      · exact isSpace_of_isPlain (value.plain b hvalue)
  have hkey : ∀ b ∈ key.text, (b != 61) = true := fun b hb => bne_iff_ne.mpr (isPlain_ne (key.plain b hb)).2.2.1
  have hstart : ¬ ((key.text ++ 61 :: value.text).head? = some 35 ∨ 61 ∉ key.text ++ 61 :: value.text) := by
    intro hor
    rcases hor with hhead | hno
    · cases htext : key.text with
      | nil => exact key.nonempty htext
      | cons b rest =>
        rw [htext, List.cons_append, List.head?_cons] at hhead
        exact (isPlain_ne (key.plain b (htext ▸ List.mem_cons_self ..))).2.2.2 (Option.some.inj hhead)
    · exact hno (List.mem_append_right _ (List.mem_cons_self ..))
  have htake : (key.text ++ 61 :: value.text).takeWhile (· != 61) = key.text := by
    rw [List.takeWhile_append_of_pos hkey, List.takeWhile_cons_of_neg (by decide), List.append_nil]
  have hdrop : (key.text ++ 61 :: value.text).dropWhile (· != 61) = 61 :: value.text := by
    rw [List.dropWhile_append_of_pos hkey, List.dropWhile_cons_of_neg (by decide)]
  rw [parseEntry, trimmed_of_forall hspace]
  rw [if_neg hstart, htake, hdrop, List.drop_one, List.tail_cons,
    trimmed_of_forall fun b hb => isSpace_of_isPlain (key.plain b hb),
    trimmed_of_forall fun b hb => isSpace_of_isPlain (value.plain b hb)]

theorem parseEntry_comment (rest : Text) : parseEntry (35 :: rest) = none := by
  obtain ⟨back, hsplit, hback⟩ := Procfs.trimmed_split isSpace (35 :: rest)
  rw [List.takeWhile_cons_of_neg (by decide), List.nil_append] at hsplit
  cases htext : Procfs.trimmed isSpace (35 :: rest) with
  | nil =>
    rw [htext, List.nil_append] at hsplit
    exact absurd (hback 35 (hsplit ▸ List.mem_cons_self ..)) (by decide)
  | cons b text =>
    rw [htext, List.cons_append] at hsplit
    rw [parseEntry, htext, ← (List.cons.inj hsplit).1]
    exact if_pos (.inl rfl)

/-- The documented behaviour as functions. -/
def ConfigFormat.documented : ConfigFormat where
  parseLine := parseEntry
  parseBool value := if value = ascii "1" then some true else if value = ascii "0" then some false else none
  parseLine_entry := parseEntry_entry
  parseLine_comment := parseEntry_comment
  parseBool_zero := by decide
  parseBool_one := by decide

def zeros : Text → PlainText := fun _ => bit false

/-- The option is switched off in the preferences dialog, the session ends, and in the next one
the Details page is built. -/
def switchedOff : List HeatmapEvent := [.commit zeros false, .shutdown zeros false, .start, .build]

/-- Building the page switches the option on again. -/
theorem heatmap_forgotten : ((HeatmapRun.first .documented none none).run .documented switchedOff).chosen = some false ∧
    ((HeatmapRun.first .documented none none).run .documented switchedOff).app.processHeatmap = true ∧
    ¬ ((HeatmapRun.first .documented none none).run .documented switchedOff).InEffect :=
  ⟨rfl, rfl, fun h => by cases h false rfl⟩

end SystemMonitor.Pages
