import SystemMonitor.Lib.CStrings
import SystemMonitor.Recorder.Plot

/-! What is read back of a recording.

A line is taken as ended where its newline is seen, which a NUL hides: after a line whose
last piece in the buffer holds a NUL, the reader is still discarding, and the next line is
gone with it (`samples_lines`). So exactly the rows that do not follow such a line are
read (`import_iff`), and the graph shows the last of them in order (`replay_samples`). -/
namespace SystemMonitor.Recorder
open Lib Lines

/-- The lines that end in a newline, without it. -/
def physicalLines (bytes : Bytes) : List Bytes := (bytes.splitOnP (· == 10)).dropLast

theorem physicalLines_eq (bytes : Bytes) : (∀ line ∈ physicalLines bytes, 10 ∉ line) ∧
    ∃ tail, 10 ∉ tail ∧ bytes = (physicalLines bytes).flatMap (· ++ [10]) ++ tail := by
  have hpieces : ∀ piece ∈ bytes.splitOnP (· == 10), 10 ∉ piece :=
    fun piece hpiece hmem => absurd (CStrings.mem_splitOnP hpiece 10 hmem).2 (by decide)
  have hne := List.splitOnP_ne_nil (· == 10) bytes
  refine ⟨fun line hline => hpieces line (List.dropLast_subset _ hline), (bytes.splitOnP (· == 10)).getLast hne,
    hpieces _ (List.getLast_mem hne), ?_⟩
  rw [physicalLines, ← join_flatMap, List.dropLast_append_getLast, join_splitOnP]

/-- What is behind the last full buffer of a line. -/
def lastChunk (line : Bytes) : Bytes := line.drop (lineRoom * (line.length / lineRoom))

theorem lastChunk_short {line : Bytes} (h : line.length < lineRoom) : lastChunk line = line := by
  rw [lastChunk, Nat.div_eq_of_lt h]
  rfl

theorem lastChunk_drop {line : Bytes} (h : lineRoom ≤ line.length) :
    lastChunk (line.drop lineRoom) = lastChunk line := by
  have hdiv : (line.length - lineRoom) / lineRoom + 1 = line.length / lineRoom :=
    (Nat.div_eq_sub_div (by decide) h).symm
  rw [lastChunk, lastChunk, List.drop_drop, List.length_drop, ← hdiv, Nat.mul_add_one, Nat.add_comm]

/-! ### Buffers -/

variable {line bytes : Bytes}

theorem readLine_line (hnewline : 10 ∉ line) (hfits : line.length < lineRoom) (rest : Bytes) :
    readLine (line ++ 10 :: rest) = (cString (line ++ [10]), rest) := by
  rw [readLine, fgets_line hnewline hfits]

theorem readLine_long (hnewline : 10 ∉ line) (hlong : lineRoom ≤ line.length) (rest : Bytes) :
    10 ∉ (readLine (line ++ rest)).1 ∧ (readLine (line ++ rest)).2 = line.drop lineRoom ++ rest := by
  rw [readLine, fgets_long hnewline hlong]
  exact ⟨not_mem_cString fun hmem => hnewline (List.mem_of_mem_take hmem), rfl⟩

theorem readLine_end (hnewline : 10 ∉ bytes) (hfits : bytes.length < lineRoom) :
    10 ∉ (readLine bytes).1 ∧ (readLine bytes).2 = [] := by
  rw [readLine, fgets_end hnewline hfits]
  exact ⟨not_mem_cString hnewline, rfl⟩

theorem length_readLine (b : UInt8) (bytes : Bytes) : (readLine (b :: bytes)).2.length ≤ bytes.length := by
  rw [readLine, lineRoom, fgets]
  split
  · exact Nat.le_refl _
  · exact length_fgets _ _

/-! ### The inner loop -/

theorem length_discardLoop (fuel : Nat) (bytes : Bytes) : (discardLoop fuel bytes).length ≤ bytes.length := by
  induction fuel generalizing bytes with
  | zero => exact Nat.le_refl _
  | succ fuel ih =>
    cases bytes with
    | nil => exact Nat.le_refl _
    | cons b bytes =>
      have hread := length_readLine b bytes
      rw [discardLoop]
      dsimp only
      split
      · exact hread.trans (Nat.le_succ _)
      · exact (ih _).trans (hread.trans (Nat.le_succ _))

theorem discardLoop_fuel {fuel fuel' : Nat} (h : bytes.length ≤ fuel) (h' : bytes.length ≤ fuel') :
    discardLoop fuel bytes = discardLoop fuel' bytes := by
  induction fuel generalizing fuel' bytes with
  | zero =>
    obtain rfl := List.eq_nil_of_length_eq_zero (Nat.le_zero.mp h)
    cases fuel' <;> rfl
  | succ fuel ih =>
    cases bytes with
    | nil => cases fuel' <;> rfl
    | cons b bytes =>
      obtain ⟨fuel', rfl⟩ := Nat.exists_eq_succ_of_ne_zero (Nat.ne_of_gt (Nat.lt_of_lt_of_le (Nat.succ_pos _) h'))
      have hread := length_readLine b bytes
      rw [discardLoop, discardLoop]
      dsimp only
      rw [ih (hread.trans (Nat.le_of_succ_le_succ h)) (hread.trans (Nat.le_of_succ_le_succ h'))]

/-- The inner loop to its end. -/
def discard (bytes : Bytes) : Bytes := discardLoop bytes.length bytes

theorem discard_eq (hne : bytes ≠ []) :
    discard bytes = if 10 ∈ (readLine bytes).1 then (readLine bytes).2 else discard (readLine bytes).2 := by
  cases bytes with
  | nil => exact absurd rfl hne
  | cons b bytes =>
    rw [discard, List.length_cons, discardLoop]
    dsimp only
    rw [discard, discardLoop_fuel (length_readLine b bytes) (Nat.le_refl _)]

/-- What is read of a line while discarding decides whether the next one is discarded too. -/
theorem discard_line (hnewline : 10 ∉ line) (rest : Bytes) :
    discard (line ++ 10 :: rest) = if 0 ∈ lastChunk line then discard rest else rest := by
  induction hlength : line.length using Nat.strong_induction_on generalizing line with
  | _ n ih =>
    subst hlength
    rw [discard_eq (List.append_ne_nil_of_right_ne_nil _ (List.cons_ne_nil _ _))]
    by_cases hfits : line.length < lineRoom
    · have hseen := mem_cString_line hnewline
      rw [readLine_line hnewline hfits, lastChunk_short hfits]
      dsimp only
      by_cases hnul : 0 ∈ line
      · rw [if_neg fun h => hseen.mp h hnul, if_pos hnul]
      · rw [if_pos (hseen.mpr hnul), if_neg hnul]
    · have hlong := Nat.le_of_not_lt hfits
      obtain ⟨hunseen, hrest⟩ := readLine_long hnewline hlong (10 :: rest)
      have hshorter : (line.drop lineRoom).length < line.length := by
        rw [List.length_drop]
        exact Nat.sub_lt (Nat.lt_of_lt_of_le (by decide) hlong) (by decide)
      rw [if_neg hunseen, hrest, ih _ hshorter (fun h => hnewline (List.mem_of_mem_drop h)) rfl, lastChunk_drop hlong]

theorem discard_end (hnewline : 10 ∉ bytes) : discard bytes = [] := by
  induction hlength : bytes.length using Nat.strong_induction_on generalizing bytes with
  | _ n ih =>
    subst hlength
    by_cases hne : bytes = []
    · rw [hne]
      rfl
    · rw [discard_eq hne]
      by_cases hfits : bytes.length < lineRoom
      · obtain ⟨hunseen, hrest⟩ := readLine_end hnewline hfits
        rw [if_neg hunseen, hrest]
        rfl
      · have hlong := Nat.le_of_not_lt hfits
        obtain ⟨hunseen, hrest⟩ := readLine_long hnewline hlong []
        have hshorter : (bytes.drop lineRoom).length < bytes.length := by
          rw [List.length_drop]
          exact Nat.sub_lt (Nat.lt_of_lt_of_le (by decide) hlong) (by decide)
        rw [List.append_nil] at hunseen hrest
        rw [if_neg hunseen, hrest, List.append_nil]
        exact ih _ hshorter (fun h => hnewline (List.mem_of_mem_drop h)) rfl

/-! ### The loop -/

variable (numerals : Numerals)

/-- What a line gives on its own: the metrics of a row that fits the buffer. -/
def lineSample (line : Bytes) : Option (ℚ × ℚ) :=
  if line.length < lineRoom then
    match lsmProcessRecorderParseMetrics numerals (cString (line ++ [10])) (0, 0) with
    | (false, _) => none
    | (true, sample) => some sample
  else none

theorem lineSample_long (h : lineRoom ≤ line.length) : lineSample numerals line = none :=
  if_neg (Nat.not_lt_of_le h)

/-- A row has its newline. -/
theorem parse_metrics_unended {text : Text} (h : 10 ∉ text) (outputs : ℚ × ℚ) :
    lsmProcessRecorderParseMetrics numerals text outputs = (false, outputs) := by
  have hlast : text.getLast? ≠ some 10 := fun hlast => h (List.mem_of_getLast? hlast)
  have hbody : lineBody text = none := if_pos (Or.inr hlast)
  rw [lsmProcessRecorderParseMetrics, hbody]
  rfl

theorem lineSample_nul (hnewline : 10 ∉ line) (hnul : 0 ∈ line) : lineSample numerals line = none := by
  rw [lineSample, parse_metrics_unended numerals fun h => (mem_cString_line hnewline).mp h hnul]
  split <;> rfl

section
variable {σ : Type} (onSample : σ → ℚ × ℚ → σ)

theorem sampleLoop_fuel {fuel fuel' : Nat} {result : σ} (h : bytes.length ≤ fuel) (h' : bytes.length ≤ fuel') :
    sampleLoop numerals onSample fuel result bytes = sampleLoop numerals onSample fuel' result bytes := by
  induction fuel generalizing fuel' result bytes with
  | zero =>
    obtain rfl := List.eq_nil_of_length_eq_zero (Nat.le_zero.mp h)
    cases fuel' <;> rfl
  | succ fuel ih =>
    cases bytes with
    | nil => cases fuel' <;> rfl
    | cons b bytes =>
      obtain ⟨fuel', rfl⟩ := Nat.exists_eq_succ_of_ne_zero (Nat.ne_of_gt (Nat.lt_of_lt_of_le (Nat.succ_pos _) h'))
      have hread := length_readLine b bytes
      have hrest := hread.trans (Nat.le_of_succ_le_succ h)
      have hrest' := hread.trans (Nat.le_of_succ_le_succ h')
      have hdiscarded := length_discardLoop (readLine (b :: bytes)).2.length (readLine (b :: bytes)).2
      rw [sampleLoop, sampleLoop]
      dsimp only
      rw [ih (hdiscarded.trans hrest) (hdiscarded.trans hrest')]
      split
      · rfl
      · split
        · exact ih hrest hrest'
        · exact ih hrest hrest'

/-- The loop to the end of the file. -/
def samples (result : σ) (bytes : Bytes) : σ := sampleLoop numerals onSample bytes.length result bytes

theorem samples_eq {result : σ} (hne : bytes ≠ []) : samples numerals onSample result bytes =
    if 10 ∉ (readLine bytes).1 then samples numerals onSample result (discard (readLine bytes).2)
    else
      match lsmProcessRecorderParseMetrics numerals (readLine bytes).1 (0, 0) with
      | (false, _) => samples numerals onSample result (readLine bytes).2
      | (true, sample) => samples numerals onSample (onSample result sample) (readLine bytes).2 := by
  cases bytes with
  | nil => exact absurd rfl hne
  | cons b bytes =>
    have hread := length_readLine b bytes
    have hdiscarded := length_discardLoop (readLine (b :: bytes)).2.length (readLine (b :: bytes)).2
    simp only [samples, List.length_cons, sampleLoop]
    rw [discard, sampleLoop_fuel numerals onSample (hdiscarded.trans hread) (Nat.le_refl _)]
    split
    · rfl
    · obtain ⟨accepted, sample⟩ := lsmProcessRecorderParseMetrics numerals (readLine (b :: bytes)).1 (0, 0)
      cases accepted with
      | false => exact sampleLoop_fuel numerals onSample hread (Nat.le_refl _)
      | true => exact sampleLoop_fuel numerals onSample hread (Nat.le_refl _)

/-- A line gives what it gives on its own, and decides whether the next one is discarded. -/
theorem samples_line {result : σ} (hnewline : 10 ∉ line) (rest : Bytes) :
    samples numerals onSample result (line ++ 10 :: rest) =
      samples numerals onSample ((lineSample numerals line).toList.foldl onSample result)
        (if 0 ∈ lastChunk line then discard rest else rest) := by
  rw [samples_eq numerals onSample (List.append_ne_nil_of_right_ne_nil _ (List.cons_ne_nil _ _))]
  by_cases hfits : line.length < lineRoom
  · have hseen := mem_cString_line hnewline
    rw [readLine_line hnewline hfits, lastChunk_short hfits]
    dsimp only
    by_cases hnul : 0 ∈ line
    · rw [if_pos fun h => hseen.mp h hnul, if_pos hnul, lineSample_nul numerals hnewline hnul]
      rfl
    · rw [if_neg (not_not.mpr (hseen.mpr hnul)), if_neg hnul, lineSample, if_pos hfits]
      split <;> rfl
  · have hlong := Nat.le_of_not_lt hfits
    obtain ⟨hunseen, hrest⟩ := readLine_long hnewline hlong (10 :: rest)
    rw [if_pos hunseen, hrest, discard_line fun h => hnewline (List.mem_of_mem_drop h), lastChunk_drop hlong,
      lineSample_long numerals hlong]
    rfl

theorem samples_nil {result : σ} : samples numerals onSample result [] = result := rfl

theorem samples_end {result : σ} (hnewline : 10 ∉ bytes) : samples numerals onSample result bytes = result := by
  by_cases hne : bytes = []
  · rw [hne, samples_nil]
  · have hunseen : 10 ∉ (readLine bytes).1 ∧ 10 ∉ (readLine bytes).2 := by
      by_cases hfits : bytes.length < lineRoom
      · obtain ⟨hunseen, hrest⟩ := readLine_end hnewline hfits
        exact ⟨hunseen, hrest ▸ List.not_mem_nil⟩
      · obtain ⟨hunseen, hrest⟩ := readLine_long hnewline (Nat.le_of_not_lt hfits) []
        rw [List.append_nil] at hunseen hrest
        refine ⟨hunseen, ?_⟩
        rw [hrest, List.append_nil]
        exact fun h => hnewline (List.mem_of_mem_drop h)
    rw [samples_eq numerals onSample hne, if_pos hunseen.1, discard_end hunseen.2, samples_nil]

/-- The samples of the lines that are not discarded. -/
def keptSamples : Bool → List Bytes → List (ℚ × ℚ)
  | _, [] => []
  | discarding, line :: lines =>
    (if discarding then [] else (lineSample numerals line).toList) ++ keptSamples (decide (0 ∈ lastChunk line)) lines

/-- **The loop over lines.** -/
theorem samples_lines {lines : List Bytes} (hlines : ∀ line ∈ lines, 10 ∉ line) {tail : Bytes} (htail : 10 ∉ tail)
    (discarding : Bool) (result : σ) :
    samples numerals onSample result
        (if discarding then discard (lines.flatMap (· ++ [10]) ++ tail) else lines.flatMap (· ++ [10]) ++ tail) =
      (keptSamples numerals discarding lines).foldl onSample result := by
  induction lines generalizing discarding result with
  | nil =>
    cases discarding with
    | false => exact samples_end numerals onSample htail
    | true =>
      rw [if_pos rfl, List.flatMap_nil, List.nil_append, discard_end htail]
      rfl
  | cons line lines ih =>
    have hline := hlines line (List.mem_cons_self ..)
    have hrest := ih fun l hl => hlines l (List.mem_cons_of_mem line hl)
    have hbytes : (line :: lines).flatMap (· ++ [10]) ++ tail = line ++ 10 :: (lines.flatMap (· ++ [10]) ++ tail) := by
      rw [List.flatMap_cons, List.append_assoc, List.append_assoc]
      rfl
    rw [hbytes, keptSamples, List.foldl_append, ← hrest]
    cases discarding with
    | false =>
      rw [if_neg Bool.false_ne_true, samples_line numerals onSample hline, if_neg Bool.false_ne_true]
      simp only [decide_eq_true_eq]
    | true =>
      rw [if_pos rfl, discard_line hline, if_pos rfl]
      simp only [decide_eq_true_eq]
      rfl

end

/-! ### The circular arrays -/

/-- The samples that the arrays hold the last of. -/
def HoldsSamples (result : ProcessLogPlotResult) (stored : List (ℚ × ℚ)) : Prop :=
  Ring.Holds lsmHistoryLength (fun i => (result.cpu i, result.memory i)) result.next result.count stored

theorem HoldsSamples.store {result : ProcessLogPlotResult} {stored : List (ℚ × ℚ)} (h : HoldsSamples result stored)
    (sample : ℚ × ℚ) : HoldsSamples (storeSample result sample) (stored ++ [sample]) := by
  have hslots : (fun i => ((storeSample result sample).cpu i, (storeSample result sample).memory i)) =
      Function.update (fun i => (result.cpu i, result.memory i)) result.next sample := by
    funext i
    simp only [storeSample, Function.update_apply]
    split <;> rfl
  rw [HoldsSamples, hslots]
  exact Ring.Holds.push h sample

theorem holdsSamples_foldl (samples : List (ℚ × ℚ)) :
    HoldsSamples (samples.foldl storeSample {}) samples ∧ (samples.foldl storeSample {}).errorMessage = none := by
  induction samples using List.reverseRecOn with
  | nil => exact ⟨Ring.Holds.empty _ _, rfl⟩
  | append_singleton samples sample ih =>
    rw [List.foldl_append]
    exact ⟨ih.1.store sample, ih.2⟩

theorem readLine_header {header : Text} (h : lsmProcessRecorderHeaderMatches header = true) (rest : Bytes) :
    readLine (header ++ rest) = (header, rest) := by
  obtain ⟨hstart, hend⟩ := Bool.and_eq_true_iff.mp h
  obtain ⟨ending, rfl⟩ := List.isPrefixOf_iff_prefix.mp hstart
  rw [List.drop_left, Bool.or_eq_true, beq_iff_eq, beq_iff_eq] at hend
  have hread : ∀ line : Bytes, 10 ∉ line → line.length < lineRoom → 0 ∉ line →
      readLine (line ++ [10] ++ rest) = (line ++ [10], rest) := by
    intro line hnewline hfits hnul
    rw [List.append_assoc]
    refine (readLine_line hnewline hfits rest).trans ?_
    rw [cString_of_noNul (by simpa using hnul)]
  rcases hend with rfl | rfl
  · exact hread recorderCsvHeader (by decide) (by decide) (by decide)
  · have hsplit : recorderCsvHeader ++ [13, 10] = (recorderCsvHeader ++ [13]) ++ [10] := by rw [List.append_assoc]; rfl
    rw [hsplit]
    exact hread (recorderCsvHeader ++ [13]) (by decide) (by decide) (by decide)

theorem worker_header {header : Text} (h : lsmProcessRecorderHeaderMatches header = true) (rest : Bytes) :
    processLogPlotWorker numerals (header ++ rest) = reportEmpty (samples numerals storeSample {} rest) := by
  have hread := readLine_header h rest
  cases hbytes : header ++ rest with
  | nil =>
    rw [(List.append_eq_nil_iff.mp hbytes).1] at h
    exact absurd h (by decide)
  | cons b bytes =>
    rw [hbytes] at hread
    rw [processLogPlotWorker]
    dsimp only
    rw [hread, if_pos h, samples]

/-- **The graph gets the last samples in order.** -/
theorem replay_samples {header : Text} (h : lsmProcessRecorderHeaderMatches header = true) (rest : Bytes) :
    (processLogPlotComplete (processLogPlotWorker numerals (header ++ rest))).2 =
      (keptSamples numerals false (physicalLines rest)).rtake lsmHistoryLength := by
  obtain ⟨hlines, tail, htail, hrest⟩ := physicalLines_eq rest
  have hloop : samples numerals storeSample {} rest =
      (keptSamples numerals false (physicalLines rest)).foldl storeSample {} := by
    conv_lhs => rw [hrest]
    exact samples_lines numerals storeSample hlines htail false {}
  obtain ⟨hholds, herror⟩ := holdsSamples_foldl (keptSamples numerals false (physicalLines rest))
  rw [worker_header numerals h, hloop]
  generalize keptSamples numerals false (physicalLines rest) = stored at hholds herror
  generalize stored.foldl storeSample {} = result at hholds herror
  rw [reportEmpty]
  by_cases hcount : result.count = 0
  · rw [if_pos ⟨hcount, herror⟩]
    have hempty : stored.length = 0 := by
      have hmin := hholds.count_eq
      rw [hcount, lsmHistoryLength] at hmin
      omega
    rw [List.eq_nil_of_length_eq_zero hempty]
    rfl
  · rw [if_neg fun hboth => hcount hboth.1, processLogPlotComplete, herror]
    exact hholds.replay

/-! ### Lines that are lost -/

/-- A line that gives a sample is not kept behind one whose newline is not seen. -/
def Undisturbed (lines : List Bytes) : Prop :=
  lines.IsChain fun line next => 0 ∈ lastChunk line → lineSample numerals next = none

theorem length_keptSamples (discarding : Bool) (lines : List Bytes) :
    (keptSamples numerals discarding lines).length ≤ (lines.filterMap (lineSample numerals)).length := by
  induction lines generalizing discarding with
  | nil => exact Nat.le_refl _
  | cons line lines ih =>
    have hrest := ih (decide (0 ∈ lastChunk line))
    rw [keptSamples, List.length_append, List.filterMap_cons]
    cases lineSample numerals line <;> cases discarding <;> simp <;> omega

theorem keptSamples_eq {discarding : Bool} {lines : List Bytes} :
    keptSamples numerals discarding lines = lines.filterMap (lineSample numerals) ↔
      (discarding = true → ∀ line ∈ lines.head?, lineSample numerals line = none) ∧ Undisturbed numerals lines := by
  induction lines generalizing discarding with
  | nil => exact iff_of_true rfl ⟨nofun, List.isChain_nil⟩
  | cons line lines ih =>
    have hlater : keptSamples numerals (decide (0 ∈ lastChunk line)) lines = lines.filterMap (lineSample numerals) ↔
        Undisturbed numerals (line :: lines) := by
      have hchain : Undisturbed numerals (line :: lines) ↔ (∀ next ∈ lines.head?, 0 ∈ lastChunk line →
          lineSample numerals next = none) ∧ Undisturbed numerals lines := List.isChain_cons
      rw [ih, hchain, decide_eq_true_iff]
      exact and_congr_left fun _ =>
        ⟨fun h next hnext hnul => h hnul next hnext, fun h hnul next hnext => h next hnext hnul⟩
    have hlength := length_keptSamples numerals (decide (0 ∈ lastChunk line)) lines
    rw [keptSamples, List.filterMap_cons, ← hlater, List.head?_cons]
    simp only [Option.mem_some_iff, forall_eq']
    cases discarding with
    | false => cases lineSample numerals line <;> simp
    | true =>
      cases hsample : lineSample numerals line with
      | none => simp
      | some sample =>
        refine iff_of_false ?_ fun h => Option.some_ne_none sample (h.1 rfl)
        intro heq
        have hlonger := congrArg List.length heq
        simp only [if_true, List.nil_append, List.length_cons] at hlonger
        omega

/-! ### The import -/

/-- The samples stored are those of the rows, and the graph gets the last of them in order. -/
structure ImportsRows (header : Text) (rest : Bytes) : Prop where
  stored : sampleLoop numerals (fun stored sample => stored ++ [sample]) rest.length [] rest =
    (physicalLines rest).filterMap (lineSample numerals)
  replayed : (processLogPlotComplete (processLogPlotWorker numerals (header ++ rest))).2 =
    ((physicalLines rest).filterMap (lineSample numerals)).rtake lsmHistoryLength

theorem stored_samples (rest : Bytes) :
    sampleLoop numerals (fun stored sample => stored ++ [sample]) rest.length [] rest =
      keptSamples numerals false (physicalLines rest) := by
  obtain ⟨hlines, tail, htail, hrest⟩ := physicalLines_eq rest
  have hloop := samples_lines numerals (fun stored sample => stored ++ [sample]) hlines htail false []
  rw [if_neg Bool.false_ne_true, ← hrest] at hloop
  have happend : ∀ stored kept : List (ℚ × ℚ),
      kept.foldl (fun stored sample => stored ++ [sample]) stored = stored ++ kept := by
    intro stored kept
    induction kept generalizing stored with
    | nil => exact (List.append_nil stored).symm
    | cons sample kept ih => rw [List.foldl_cons, ih, List.append_assoc]; rfl
  exact hloop.trans (happend [] _)

/-- A row of the recorder. -/
def sampleRow : Text := ascii "2024-02-29T23:59:59+0100,42,12.500,3.250,1000,0,7,3"

/-- **A line with a NUL takes the row behind it along.** -/
theorem row_lost :
    (physicalLines ([0, 10] ++ sampleRow ++ [10])).filterMap (lineSample .documented) = [(25 / 2, 13 / 4)] ∧
    processLogPlotComplete
        (processLogPlotWorker .documented (recorderCsvHeader ++ [10] ++ ([0, 10] ++ sampleRow ++ [10]))) =
      (some (ascii "The process recording contains no valid samples."), []) := by
  constructor
  · decide +kernel
  · decide

/-- **The rows are imported if and only if none follows a line whose newline is not seen.** -/
theorem import_iff (header : Text) (h : lsmProcessRecorderHeaderMatches header = true) (rest : Bytes) :
    ImportsRows numerals header rest ↔ Undisturbed numerals (physicalLines rest) := by
  have hkept : keptSamples numerals false (physicalLines rest) = (physicalLines rest).filterMap (lineSample numerals) ↔
      Undisturbed numerals (physicalLines rest) := (keptSamples_eq numerals).trans (and_iff_right nofun)
  constructor
  · intro himports
    exact hkept.mp ((stored_samples numerals rest).symm.trans himports.stored)
  · intro hundisturbed
    have hall := hkept.mpr hundisturbed
    exact ⟨(stored_samples numerals rest).trans hall, hall ▸ replay_samples numerals h rest⟩

theorem import_iff_rows : ImportsRows .documented (recorderCsvHeader ++ [10]) (sampleRow ++ [10]) ∧
    ¬ ImportsRows .documented (recorderCsvHeader ++ [10]) ([0, 10] ++ sampleRow ++ [10]) := by
  have hheader : lsmProcessRecorderHeaderMatches (recorderCsvHeader ++ [10]) = true := by decide
  have hrow : physicalLines (sampleRow ++ [10]) = [sampleRow] := by decide
  have hrows : physicalLines ([0, 10] ++ sampleRow ++ [10]) = [[0], sampleRow] := by decide
  have hsample : lineSample .documented sampleRow ≠ none := by decide +kernel
  constructor
  · apply (import_iff .documented _ hheader _).mpr
    rw [hrow]
    exact List.isChain_singleton _
  · intro himports
    have hundisturbed := (import_iff .documented _ hheader _).mp himports
    rw [hrows] at hundisturbed
    exact hsample ((List.isChain_cons_cons.mp hundisturbed).1 (by decide))

end SystemMonitor.Recorder
