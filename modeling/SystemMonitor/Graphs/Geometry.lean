import SystemMonitor.Graphs.SampleHistory
import SystemMonitor.Lib.Runs
import Mathlib.Data.Rat.Floor

/-! The geometry of a graph's series.

A series is drawn as one path for each segment of the geometry. `graph_segments_exact`:
after any pushes the history reads as its window, and the segments are, in order, the runs
of valid samples of the visible part, which is the part that the scale is taken from. -/
namespace SystemMonitor.Graphs
open Lib Runs

structure LsmGraph where
  primary : LsmSampleHistory
  secondary : LsmSampleHistory
  hasSecondary : Bool
  percentageScale : Bool
  logarithmic : Bool
  newerOnRight : Bool
  visiblePoints : Nat
  fixedMax : ℚ
  dynamicStep : ℚ
  minimumMax : ℚ

/-! ### The scale -/

/-- The first visible index, and the one behind the last. -/
def visibleHistoryRange (graph : LsmGraph) (history : LsmSampleHistory) : Nat × Nat :=
  let points := if 0 < graph.visiblePoints ∧ graph.visiblePoints < history.count then graph.visiblePoints else history.count
  (if graph.newerOnRight ∧ points < history.count then history.count - points else 0,
    if !graph.newerOnRight ∧ points < history.count then points else history.count)

/-- The loop over the visible samples of one series. -/
def rangeMaximum (graph : LsmGraph) (history : LsmSampleHistory) (maximum : ℚ) : ℚ :=
  let range := visibleHistoryRange graph history
  (List.range' range.1 (range.2 - range.1)).foldl (fun maximum i =>
    if lsmSampleHistoryIsValid history i then max maximum (lsmSampleHistoryGet history i) else maximum) maximum

/-- `while (scale < maximum) scale *= 2.0`. -/
def doubleLoop (maximum : ℚ) : Nat → ℚ → ℚ
  | 0, scale => scale
  | fuel + 1, scale => if scale < maximum then doubleLoop maximum fuel (scale * 2) else scale

/-- The fuel is enough for the loop to come to its end. -/
theorem le_doubleLoop {maximum scale : ℚ} {fuel : Nat} (h : maximum ≤ scale * 2 ^ fuel) :
    maximum ≤ doubleLoop maximum fuel scale := by
  induction fuel generalizing scale with
  | zero => rwa [pow_zero, mul_one] at h
  | succ fuel ih =>
    rw [doubleLoop]
    split
    next => exact ih (by rwa [mul_assoc, ← pow_succ'])
    next hreached => exact not_lt.mp hreached

theorem le_doubleLoop_ceil (maximum : ℚ) : maximum ≤ doubleLoop maximum ⌈maximum⌉₊ 1 := by
  refine le_doubleLoop ?_
  calc maximum ≤ (⌈maximum⌉₊ : ℚ) := Nat.le_ceil maximum
    _ ≤ ((2 ^ ⌈maximum⌉₊ : Nat) : ℚ) := by exact_mod_cast Nat.lt_two_pow_self.le
    _ = 1 * 2 ^ ⌈maximum⌉₊ := by rw [one_mul]; norm_cast

def graphMaximum (graph : LsmGraph) : ℚ :=
  if graph.percentageScale then 100
  else if 0 < graph.fixedMax then graph.fixedMax
  else
    let maximum := rangeMaximum graph graph.primary 1
    let maximum := if graph.hasSecondary then rangeMaximum graph graph.secondary maximum else maximum
    if 0 < graph.dynamicStep then max graph.minimumMax (⌈maximum / graph.dynamicStep⌉ * graph.dynamicStep)
    else
      let maximum := maximum * (115 / 100)
      max graph.minimumMax (doubleLoop maximum ⌈maximum⌉₊ 1)

/-! ### The geometry -/

/-- The arrays, as far as they are filled. -/
structure LsmSeriesGeometry where
  x : List ℚ := []
  y : List ℚ := []
  segmentOffset : List Nat := []
  segmentLength : List Nat := []

namespace LsmSeriesGeometry
variable (g : LsmSeriesGeometry)

def pointCount : Nat := g.x.length

def segmentCount : Nat := g.segmentOffset.length

def segments : List (Nat × Nat) := g.segmentOffset.zip g.segmentLength

end LsmSeriesGeometry

/-- What a series is drawn with. -/
structure Scale where
  maximum : ℚ
  width : ℚ
  height : ℚ
  logarithmic : Bool

/-- The state of the loop over the visible samples. -/
structure GeometryScan where
  geometry : LsmSeriesGeometry
  activeOffset : Nat
  activeLength : Nat

section
variable (log1p : ℚ → ℚ) (history : LsmSampleHistory) (scale : Scale)

def xOf (displayCount displayIndex : Nat) : ℚ :=
  if 1 < displayCount then scale.width * displayIndex / ((displayCount - 1 : Nat) : ℚ) else 0

def yOf (sample : ℚ) : ℚ :=
  let value := max 0 sample
  let fraction := if scale.logarithmic then log1p value / log1p scale.maximum else value / scale.maximum
  scale.height - min scale.height (scale.height * fraction)

/-- An active segment is stored. -/
def GeometryScan.close (s : GeometryScan) : LsmSeriesGeometry :=
  if 0 < s.activeLength then
    {s.geometry with
      segmentOffset := s.geometry.segmentOffset ++ [s.activeOffset]
      segmentLength := s.geometry.segmentLength ++ [s.activeLength]}
  else s.geometry

def scanSample (start displayCount : Nat) (s : GeometryScan) (logical : Nat) : GeometryScan :=
  if !lsmSampleHistoryIsValid history logical then {s with geometry := s.close, activeLength := 0}
  else
    { geometry := {s.geometry with
        x := s.geometry.x ++ [xOf scale displayCount (logical - start)]
        y := s.geometry.y ++ [yOf log1p scale (lsmSampleHistoryGet history logical)]}
      activeOffset := if s.activeLength = 0 then s.geometry.pointCount else s.activeOffset
      activeLength := s.activeLength + 1 }

/-- `none`: the geometry is left alone. -/
def buildSeriesGeometry (visiblePoints : Nat) (newerOnRight : Bool) : Option LsmSeriesGeometry × Bool :=
  if scale.maximum ≤ 0 then (none, false)
  else
    let points := if 0 < visiblePoints ∧ visiblePoints < history.count then visiblePoints else history.count
    let start := if newerOnRight ∧ points < history.count then history.count - points else 0
    let stop := if !newerOnRight ∧ points < history.count then points else history.count
    let scanned := (List.range' start (stop - start)).foldl (scanSample log1p history scale start (stop - start)) ⟨{}, 0, 0⟩
    (some scanned.close, decide (0 < scanned.close.pointCount))

end

/-! ### The scan -/

section
variable {log1p : ℚ → ℚ} {history : LsmSampleHistory} {scale : Scale} {start count : Nat} {front rest : List Bool}

/-- What the scan of a part has made of the samples before the rest. -/
structure Scanned (log1p : ℚ → ℚ) (history : LsmSampleHistory) (scale : Scale) (start count : Nat) (front rest : List Bool)
    (s : GeometryScan) : Prop where
  x : s.geometry.x = (places front).map (xOf scale count)
  y : s.geometry.y = (places front).map fun i => yOf log1p scale (lsmSampleHistoryGet history (start + i))
  active : Ends front s.activeLength
  offset : 0 < s.activeLength → s.activeOffset = front.count true - s.activeLength
  lengths : s.geometry.segmentOffset.length = s.geometry.segmentLength.length
  segments : s.geometry.segments ++ (runsFrom front.length s.activeLength rest).map (byItems (front ++ rest)) =
    (runs (front ++ rest)).map (byItems (front ++ rest))

theorem scanned_start (v : List Bool) : Scanned log1p history scale start count [] v ⟨{}, 0, 0⟩ where
  x := rfl
  y := rfl
  active := ⟨le_rfl, fun i _ hi => absurd hi (Nat.not_lt_zero i), .inl rfl⟩
  offset h := absurd h (Nat.lt_irrefl 0)
  lengths := rfl
  segments := rfl

/-- Closing stores the stretch at the end. -/
theorem Scanned.close {s : GeometryScan} (h : Scanned log1p history scale start count front rest s) :
    s.close.x = s.geometry.x ∧ s.close.y = s.geometry.y ∧
      s.close.segmentOffset.length = s.close.segmentLength.length ∧
      s.close.segments = s.geometry.segments ++ (closed front.length s.activeLength).map (byItems (front ++ rest)) := by
  rw [byItems_closed h.active, GeometryScan.close]
  split
  next hpos =>
    refine ⟨rfl, rfl, ?_, ?_⟩
    · rw [List.length_append, List.length_append, h.lengths]
      rfl
    · dsimp only [LsmSeriesGeometry.segments]
      rw [List.zip_append h.lengths, h.offset hpos]
      rfl
  next => exact ⟨rfl, rfl, h.lengths, (List.append_nil _).symm⟩

/-- One sample. -/
theorem Scanned.step {b : Bool} {s : GeometryScan} (h : Scanned log1p history scale start count front (b :: rest) s)
    (hvalid : lsmSampleHistoryIsValid history (start + front.length) = b) :
    Scanned log1p history scale start count (front ++ [b]) rest
      (scanSample log1p history scale start count s (start + front.length)) := by
  have hsplit : front ++ [b] ++ rest = front ++ b :: rest := by rw [List.append_assoc, List.singleton_append]
  have hlength : (front ++ [b]).length = front.length + 1 := by rw [List.length_append, List.length_singleton]
  obtain ⟨hx, hy, hlengths, hsegments⟩ := h.close
  have hrest := h.segments
  rw [scanSample, hvalid]
  cases b with
  | false =>
    rw [Bool.not_false, if_pos rfl]
    refine ⟨?_, ?_, Ends.push_false front, fun hpos => absurd hpos (Nat.lt_irrefl 0), hlengths, ?_⟩
    · rw [hx, places_concat, h.x, if_neg Bool.false_ne_true, List.append_nil]
    · rw [hy, places_concat, h.y, if_neg Bool.false_ne_true, List.append_nil]
    · rw [hsplit, hlength]
      dsimp only
      rw [hsegments, List.append_assoc, ← List.map_append]
      exact hrest
  | true =>
    have hcount := h.active.count
    have hle : s.activeLength ≤ front.count true := by omega
    rw [Bool.not_true, if_neg Bool.false_ne_true]
    refine ⟨?_, ?_, h.active.push_true, fun _ => ?_, h.lengths, ?_⟩
    · rw [places_concat, h.x, if_pos rfl, List.map_append, Nat.add_sub_cancel_left]
      rfl
    · rw [places_concat, h.y, if_pos rfl, List.map_append]
      rfl
    · dsimp only
      rw [List.count_append, List.count_singleton_self, Nat.add_sub_add_right]
      split
      next hzero => rw [LsmSeriesGeometry.pointCount, h.x, List.length_map, length_places, hzero, Nat.sub_zero]
      next hne => exact h.offset (Nat.pos_of_ne_zero hne)
    · rw [hsplit, hlength]
      exact hrest

theorem Scanned.run {s : GeometryScan} (h : Scanned log1p history scale start count front rest s)
    (hvalid : ∀ i (hi : i < rest.length), lsmSampleHistoryIsValid history (start + front.length + i) = rest[i]) :
    Scanned log1p history scale start count (front ++ rest) []
      ((List.range' (start + front.length) rest.length).foldl (scanSample log1p history scale start count) s) := by
  induction rest generalizing front s with
  | nil => rwa [List.append_nil]
  | cons b rest ih =>
    have hlength : (front ++ [b]).length = front.length + 1 := by rw [List.length_append, List.length_singleton]
    have hstep := h.step (hvalid 0 (Nat.succ_pos _))
    have hrest := ih hstep fun i hi => by
      have hnext := hvalid (i + 1) (Nat.succ_lt_succ hi)
      rw [hlength, ← Nat.add_assoc, Nat.add_assoc (start + front.length), Nat.add_comm 1 i]
      exact hnext
    rw [List.append_assoc, List.singleton_append, hlength] at hrest
    rw [List.length_cons, List.range'_succ, List.foldl_cons]
    exact hrest

end

/-! ### The visible part -/

/-- The newest samples, as many as are to be visible. -/
def visibleSamples (graph : LsmGraph) (window : List (Option ℚ)) : List (Option ℚ) :=
  let points := if 0 < graph.visiblePoints ∧ graph.visiblePoints < window.length then graph.visiblePoints else window.length
  if graph.newerOnRight then window.drop (window.length - points) else window.take points

theorem part_eq {window : List (Option ℚ)} {start count : Nat} (h : start + count ≤ window.length) :
    (window.drop start).take count = (List.range' start count).map fun i => window[i]?.join := by
  apply List.ext_getElem
  · rw [List.length_take, List.length_drop, List.length_map, List.length_range']
    omega
  · intro i hi hi'
    rw [List.length_map, List.length_range'] at hi'
    have hlt : start + i < window.length := by omega
    rw [List.getElem_take, List.getElem_drop, List.getElem_map, List.getElem_range', Nat.one_mul,
      List.getElem?_eq_getElem hlt]
    rfl

section
variable {history : LsmSampleHistory} {window : List (Option ℚ)} (graph : LsmGraph)

theorem visibleSamples_eq (hcount : history.count = window.length) :
    visibleSamples graph window =
      (List.range' (visibleHistoryRange graph history).1
        ((visibleHistoryRange graph history).2 - (visibleHistoryRange graph history).1)).map fun i => window[i]?.join := by
  have hpoints : (if 0 < graph.visiblePoints ∧ graph.visiblePoints < window.length then graph.visiblePoints
      else window.length) ≤ window.length := by
    split <;> omega
  rw [visibleHistoryRange, visibleSamples, hcount]
  generalize (if 0 < graph.visiblePoints ∧ graph.visiblePoints < window.length then graph.visiblePoints
    else window.length) = points at hpoints
  dsimp only
  cases graph.newerOnRight with
  | true =>
    have hstart : (if true = true ∧ points < window.length then window.length - points else 0) = window.length - points := by
      rcases Nat.lt_or_ge points window.length with hlt | hge
      · exact if_pos ⟨rfl, hlt⟩
      · rw [if_neg fun h => absurd h.2 (Nat.not_lt.mpr hge)]
        omega
    have hstop : (if (!true) = true ∧ points < window.length then points else window.length) = window.length :=
      if_neg fun h => Bool.false_ne_true h.1
    rw [hstart, hstop, if_pos rfl, ← part_eq (by omega)]
    exact (List.take_of_length_le (by rw [List.length_drop])).symm
  | false =>
    have hstart : (if false = true ∧ points < window.length then window.length - points else 0) = 0 :=
      if_neg fun h => Bool.false_ne_true h.1
    have hstop : (if (!false) = true ∧ points < window.length then points else window.length) = points := by
      rcases Nat.lt_or_ge points window.length with hlt | hge
      · exact if_pos ⟨rfl, hlt⟩
      · rw [if_neg fun h => absurd h.2 (Nat.not_lt.mpr hge)]
        omega
    rw [hstart, hstop, if_neg Bool.false_ne_true, Nat.sub_zero, ← part_eq (by omega), List.drop_zero]

/-- The series is drawn over the range that the scale is taken from. -/
theorem buildSeriesGeometry_eq (log1p : ℚ → ℚ) (history : LsmSampleHistory) {scale : Scale} (hscale : 0 < scale.maximum) :
    buildSeriesGeometry log1p history scale graph.visiblePoints graph.newerOnRight =
      let range := visibleHistoryRange graph history
      let scanned := (List.range' range.1 (range.2 - range.1)).foldl
        (scanSample log1p history scale range.1 (range.2 - range.1)) ⟨{}, 0, 0⟩
      (some scanned.close, decide (0 < scanned.close.pointCount)) := if_neg (not_le.mpr hscale)

/-- The scale is taken from the visible samples. -/
theorem rangeMaximum_eq (h : Holds history window) (maximum : ℚ) :
    rangeMaximum graph history maximum = ((visibleSamples graph window).filterMap id).foldl max maximum := by
  have hlength : history.count = window.length := by rw [h.full, ← h.shows.length_eq, List.length_map]
  have hsame : ∀ (maximum : ℚ) (i : Nat),
      (if lsmSampleHistoryIsValid history i then max maximum (lsmSampleHistoryGet history i) else maximum) =
        (window[i]?.join).elim maximum (max maximum) := by
    intro maximum i
    rw [(h.reads i).1, (h.reads i).2]
    cases window[i]?.join <;> rfl
  have hfold : ∀ (samples : List (Option ℚ)) (maximum : ℚ), (samples.filterMap id).foldl max maximum =
      samples.foldl (fun maximum sample => sample.elim maximum (max maximum)) maximum := by
    intro samples
    induction samples with
    | nil => exact fun maximum => rfl
    | cons sample samples ih =>
      intro maximum
      cases sample with
      | none => exact ih maximum
      | some value => exact ih (max maximum value)
  rw [rangeMaximum, visibleSamples_eq graph hlength, hfold, List.foldl_map]
  simp only [hsame]

end

/-- The geometry shows the samples: its points are the valid ones, its segments are their runs in
order, which lie end to end, and the points of a segment are the samples of its run. -/
structure Drawn (log1p : ℚ → ℚ) (scale : Scale) (samples : List (Option ℚ)) (g : LsmSeriesGeometry) : Prop where
  arrays : g.x.length = g.y.length ∧ g.segmentOffset.length = g.segmentLength.length
  pointCount : g.pointCount = (samples.map Option.isSome).count true
  segments : ∃ found : List (Nat × Nat), (∀ run, run ∈ found ↔ IsRun (samples.map Option.isSome) run) ∧
    (found.Pairwise fun a b => a.1 + a.2 < b.1) ∧ g.segments = found.map (byItems (samples.map Option.isSome)) ∧
    ∀ run ∈ found, ∀ j < run.2, ∃ sample, samples[run.1 + j]? = some (some sample) ∧
      g.x[(byItems (samples.map Option.isSome) run).1 + j]? = some (xOf scale samples.length (run.1 + j)) ∧
      g.y[(byItems (samples.map Option.isSome) run).1 + j]? = some (yOf log1p scale sample)
  tiles : Tiles 0 g.segments g.pointCount

theorem drawn_of_scanned {log1p : ℚ → ℚ} {history : LsmSampleHistory} {scale : Scale} {start count : Nat}
    {samples : List (Option ℚ)} {s : GeometryScan} (hlength : samples.length = count)
    (hreads : ∀ i sample, samples[i]? = some (some sample) → lsmSampleHistoryGet history (start + i) = sample)
    (h : Scanned log1p history scale start count (samples.map Option.isSome) [] s) : Drawn log1p scale samples s.close := by
  subst hlength
  obtain ⟨hx, hy, hlengths, hsegments⟩ := h.close
  have hall := h.segments
  rw [List.append_nil] at hall hsegments
  have hruns : s.close.segments = (runs (samples.map Option.isSome)).map (byItems (samples.map Option.isSome)) :=
    hsegments.trans hall
  have hcount : s.close.pointCount = (samples.map Option.isSome).count true := by
    rw [LsmSeriesGeometry.pointCount, hx, h.x, List.length_map, length_places]
  refine ⟨⟨?_, hlengths⟩, hcount, ⟨runs (samples.map Option.isSome), fun run => mem_runs, runsFrom_sorted le_rfl _, hruns, ?_⟩, ?_⟩
  · rw [hx, hy, h.x, h.y, List.length_map, List.length_map]
  · intro run hrun j hj
    have hrun := mem_runs.mp hrun
    have hitem := hrun.inside (run.1 + j) (Nat.le_add_right _ _) (by omega)
    have hplace := places_getElem? hitem
    rw [hrun.count_take hj.le] at hplace
    obtain ⟨sample, hsample⟩ : ∃ sample, samples[run.1 + j]? = some (some sample) := by
      rw [List.getElem?_map, Option.map_eq_some_iff] at hitem
      obtain ⟨value, hvalue, hsome⟩ := hitem
      obtain ⟨sample, rfl⟩ := Option.isSome_iff_exists.mp hsome
      exact ⟨sample, hvalue⟩
    refine ⟨sample, hsample, ?_, ?_⟩
    · rw [hx, h.x, List.getElem?_map]
      exact congrArg (Option.map _) hplace
    · rw [hy, h.y, List.getElem?_map, ← hreads _ _ hsample]
      exact congrArg (Option.map _) hplace
  · rw [hruns, hcount]
    exact tiles_runs _

/-- **The segments are the runs of valid samples of the visible window, and the scale is taken
from the same window.** -/
theorem graph_segments_exact (log1p : ℚ → ℚ) (pushes : List Push) :
    (∀ i, lsmSampleHistoryGet (pushed pushes) i = ((windowOf pushes)[i]?.join).getD 0 ∧
      lsmSampleHistoryIsValid (pushed pushes) i = ((windowOf pushes)[i]?.join).isSome) ∧
    ∀ graph : LsmGraph,
      (∀ maximum, rangeMaximum graph (pushed pushes) maximum =
        ((visibleSamples graph (windowOf pushes)).filterMap id).foldl max maximum) ∧
      ∀ scale : Scale, 0 < scale.maximum → ∃ g : LsmSeriesGeometry,
        buildSeriesGeometry log1p (pushed pushes) scale graph.visiblePoints graph.newerOnRight =
          (some g, decide (0 < g.pointCount)) ∧
        Drawn log1p scale (visibleSamples graph (windowOf pushes)) g := by
  have hholds := holds_pushed pushes
  refine ⟨hholds.reads, fun graph => ⟨rangeMaximum_eq graph hholds, fun scale hscale => ?_⟩⟩
  have hcount : (pushed pushes).count = (windowOf pushes).length := hholds.full.trans (length_windowOf pushes).symm
  have hvisible := visibleSamples_eq graph hcount
  generalize hrange : visibleHistoryRange graph (pushed pushes) = range at hvisible
  have hlength : (visibleSamples graph (windowOf pushes)).length = range.2 - range.1 := by
    rw [hvisible, List.length_map, List.length_range']
  have hsample : ∀ i, i < range.2 - range.1 →
      (visibleSamples graph (windowOf pushes))[i]? = some ((windowOf pushes)[range.1 + i]?.join) := by
    intro i hi
    rw [hvisible, List.getElem?_map, List.getElem?_range' hi, Nat.one_mul]
    rfl
  have hstart : Scanned log1p (pushed pushes) scale range.1 (range.2 - range.1) []
      ((visibleSamples graph (windowOf pushes)).map Option.isSome) ⟨{}, 0, 0⟩ := scanned_start _
  have hrun := hstart.run fun i hi => by
    rw [List.length_map, hlength] at hi
    have hget := hsample i hi
    rw [List.getElem?_eq_getElem (hlength ▸ hi), Option.some_inj] at hget
    rw [List.length_nil, Nat.add_zero, (hholds.reads _).2, List.getElem_map, hget]
  rw [List.nil_append, List.length_nil, Nat.add_zero, List.length_map, hlength] at hrun
  rw [buildSeriesGeometry_eq graph log1p (pushed pushes) hscale, hrange]
  refine ⟨_, rfl, drawn_of_scanned hlength ?_ hrun⟩
  intro i sample hi
  have hlt : i < range.2 - range.1 := hlength ▸ (List.getElem?_eq_some_iff.mp hi).1
  have hitem := (hsample i hlt).symm.trans hi
  rw [(hholds.reads _).1, Option.some.inj hitem]
  rfl

end SystemMonitor.Graphs
