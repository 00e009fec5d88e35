import Mathlib.Data.List.Induction
import Mathlib.Order.Nat

/-! The runs of a list: its maximal stretches of `true`.

`runsFrom` finds them in one pass that keeps the length of the stretch it is in and closes
it at the next `false`, or at the end. What it finds are all the runs (`mem_runs`), in
order, with a gap between each and the next (`runsFrom_sorted`). -/
namespace SystemMonitor.Lib.Runs

/-- A stretch, by its start and its length, that cannot be extended. -/
structure IsRun (l : List Bool) (run : Nat × Nat) : Prop where
  pos : 0 < run.2
  inside : ∀ i, run.1 ≤ i → i < run.1 + run.2 → l[i]? = some true
  before : run.1 = 0 ∨ l[run.1 - 1]? = some false
  after : l[run.1 + run.2]? ≠ some true

/-- The stretch that ends at a position, if there is one. -/
def closed (position active : Nat) : List (Nat × Nat) := if 0 < active then [(position - active, active)] else []

/-- The runs of what is left, at a position where a stretch of some length ends. -/
def runsFrom (position active : Nat) : List Bool → List (Nat × Nat)
  | [] => closed position active
  | true :: rest => runsFrom (position + 1) (active + 1) rest
  | false :: rest => closed position active ++ runsFrom (position + 1) 0 rest

def runs (l : List Bool) : List (Nat × Nat) := runsFrom 0 0 l

/-- The stretch at the end of a list. -/
structure Ends (l : List Bool) (active : Nat) : Prop where
  le : active ≤ l.length
  inside : ∀ i, l.length - active ≤ i → i < l.length → l[i]? = some true
  before : active = l.length ∨ l[l.length - active - 1]? = some false

variable {front rest : List Bool} {active : Nat} {run : Nat × Nat}

theorem Ends.push_true (h : Ends front active) : Ends (front ++ [true]) (active + 1) := by
  have hle := h.le
  have hlength : (front ++ [true]).length = front.length + 1 := by rw [List.length_append, List.length_singleton]
  refine ⟨by omega, fun i hlow hhigh => ?_, ?_⟩
  · rcases Nat.lt_or_eq_of_le (Nat.le_of_lt_succ (hlength ▸ hhigh)) with hlt | rfl
    · rw [List.getElem?_append_left hlt]
      exact h.inside i (by omega) hlt
    · rw [List.getElem?_concat_length]
  · rcases h.before with hall | hbefore
    · left
      omega
    · right
      have hindex : (front ++ [true]).length - (active + 1) - 1 = front.length - active - 1 := by omega
      have hlt : front.length - active - 1 < front.length := by
        by_contra hout
        rw [List.getElem?_eq_none (by omega)] at hbefore
        cases hbefore
      rw [hindex, List.getElem?_append_left hlt, hbefore]

theorem Ends.push_false (front : List Bool) : Ends (front ++ [false]) 0 := by
  refine ⟨Nat.zero_le _, fun i hlow hhigh => absurd hhigh (by omega), .inr ?_⟩
  rw [List.length_append, List.length_singleton, Nat.sub_zero, Nat.add_sub_cancel, List.getElem?_concat_length]

/-- The run that ends at a position is the stretch there. -/
theorem isRun_closed (h : Ends front active) (hafter : (front ++ rest)[front.length]? ≠ some true) :
    IsRun (front ++ rest) run ∧ run.1 + run.2 = front.length ↔ run ∈ closed front.length active := by
  obtain ⟨start, length⟩ := run
  have hle := h.le
  have hleft : ∀ {i}, i < front.length → (front ++ rest)[i]? = front[i]? := fun hi => List.getElem?_append_left hi
  rw [closed]
  constructor
  · rintro ⟨hrun, hend⟩
    dsimp only at hend
    have hpos : 0 < length := hrun.pos
    have hlow : front.length - active ≤ start := by
      by_contra hout
      rcases h.before with hall | hbefore
      · omega
      · have hinside := hrun.inside (front.length - active - 1) (by dsimp only; omega) (by dsimp only; omega)
        rw [hleft (by omega), hbefore] at hinside
        cases hinside
    have hhigh : start ≤ front.length - active := by
      by_contra hout
      rcases hrun.before with hzero | hbefore
      · dsimp only at hzero
        omega
      · dsimp only at hbefore
        rw [hleft (by omega), h.inside (start - 1) (by omega) (by omega)] at hbefore
        cases hbefore
    have hactive : length = active := by omega
    rw [if_pos (by omega), List.mem_singleton, hactive]
    exact Prod.ext (by dsimp only; omega) rfl
  · intro hmem
    split at hmem
    next hpos =>
      obtain ⟨rfl, rfl⟩ := Prod.mk.inj (List.mem_singleton.mp hmem)
      have hend : front.length - length + length = front.length := by omega
      refine ⟨⟨hpos, fun i hlow hhigh => ?_, ?_, ?_⟩, hend⟩
      · dsimp only at hlow hhigh
        rw [hleft (by omega)]
        exact h.inside i hlow (by omega)
      · rcases h.before with hall | hbefore
        · left
          dsimp only
          omega
        · right
          dsimp only
          rw [hleft (by omega), hbefore]
      · dsimp only
        rw [hend]
        exact hafter
    next => cases hmem

/-- What is found at a position are the runs that do not end before it. -/
theorem mem_runsFrom (h : Ends front active) :
    run ∈ runsFrom front.length active rest ↔ IsRun (front ++ rest) run ∧ front.length ≤ run.1 + run.2 := by
  induction rest generalizing front active with
  | nil =>
    have hout : (front ++ [])[front.length]? = none := by rw [List.append_nil, List.getElem?_eq_none le_rfl]
    have hafter : (front ++ [])[front.length]? ≠ some true := by
      rw [hout]
      exact nofun
    rw [runsFrom, ← isRun_closed h hafter]
    refine and_congr_right fun hrun => ⟨Nat.le_of_eq ∘ Eq.symm, fun hle => Nat.le_antisymm ?_ hle⟩
    by_contra hlong
    have hpos := hrun.pos
    have hinside := hrun.inside (run.1 + run.2 - 1) (by omega) (by omega)
    rw [List.append_nil, List.getElem?_eq_none (by omega)] at hinside
    cases hinside
  | cons b rest ih =>
    have hsplit : front ++ b :: rest = front ++ [b] ++ rest := by rw [List.append_assoc, List.singleton_append]
    have hlength : (front ++ [b]).length = front.length + 1 := by rw [List.length_append, List.length_singleton]
    have hhere : (front ++ b :: rest)[front.length]? = some b := by rw [List.getElem?_append_right le_rfl, Nat.sub_self]; rfl
    cases b with
    | true =>
      have hnext := ih h.push_true
      rw [hlength, ← hsplit] at hnext
      rw [runsFrom, hnext]
      refine and_congr_right fun hrun => ⟨fun hle => by omega, fun hle => ?_⟩
      by_contra hend
      have heq : run.1 + run.2 = front.length := by omega
      exact hrun.after (heq ▸ hhere)
    | false =>
      have hnext := ih (Ends.push_false front)
      rw [hlength, ← hsplit] at hnext
      have hafter : (front ++ false :: rest)[front.length]? ≠ some true := by
        rw [hhere]
        decide
      rw [runsFrom, List.mem_append, ← isRun_closed h hafter, hnext]
      constructor
      · rintro (⟨hrun, hend⟩ | ⟨hrun, hend⟩)
        · exact ⟨hrun, hend.ge⟩
        · exact ⟨hrun, by omega⟩
      · rintro ⟨hrun, hend⟩
        rcases Nat.eq_or_lt_of_le hend with heq | hlt
        · exact .inl ⟨hrun, heq.symm⟩
        · exact .inr ⟨hrun, hlt⟩

/-- **The pass finds the runs and nothing else.** -/
theorem mem_runs {l : List Bool} : run ∈ runs l ↔ IsRun l run := by
  have hfrom := @mem_runsFrom [] l 0 run ⟨le_rfl, fun i _ hi => absurd hi (Nat.not_lt_zero i), .inl rfl⟩
  exact hfrom.trans (and_iff_left (Nat.zero_le _))

theorem start_runsFrom {position : Nat} (hle : active ≤ position) (hrun : run ∈ runsFrom position active rest) :
    position - active ≤ run.1 := by
  have hclosed : ∀ {position active : Nat}, run ∈ closed position active → position - active ≤ run.1 := by
    intro position active hmem
    rw [closed] at hmem
    split at hmem
    · exact (congrArg Prod.fst (List.mem_singleton.mp hmem)).ge
    · cases hmem
  induction rest generalizing position active with
  | nil => exact hclosed hrun
  | cons b rest ih =>
    cases b with
    | true =>
      have hstart := ih (Nat.succ_le_succ hle) hrun
      omega
    | false =>
      rcases List.mem_append.mp hrun with hmem | hmem
      · exact hclosed hmem
      · have hstart := ih (Nat.zero_le _) hmem
        omega

/-- **The runs come in order, each apart from the next.** -/
theorem runsFrom_sorted {position : Nat} (hle : active ≤ position) (l : List Bool) :
    (runsFrom position active l).Pairwise fun a b => a.1 + a.2 < b.1 := by
  have hone : ∀ position active, (closed position active).Pairwise fun a b => a.1 + a.2 < b.1 := by
    intro position active
    rw [closed]
    split
    · exact List.pairwise_singleton _ _
    · exact .nil
  induction l generalizing position active with
  | nil => exact hone position active
  | cons b l ih =>
    cases b with
    | true => exact ih (Nat.succ_le_succ hle)
    | false =>
      refine List.pairwise_append.mpr ⟨hone position active, ih (Nat.zero_le _), fun a ha c hc => ?_⟩
      have hstart := start_runsFrom (Nat.zero_le _) hc
      rw [closed] at ha
      split at ha
      · rw [List.mem_singleton.mp ha]
        dsimp only
        omega
      · cases ha

/-! ### Counted by the items

A run is also known by the number of `true` items before it. The runs then lie end to end
(`tiles_runs`), and the items of a run are those at the places of its stretch. -/

/-- The number of items before a run, and its length. -/
def byItems (l : List Bool) (run : Nat × Nat) : Nat × Nat := ((l.take run.1).count true, run.2)

/-- Pieces that lie end to end, none of them empty. -/
def Tiles : Nat → List (Nat × Nat) → Nat → Prop
  | start, [], stop => start = stop
  | start, (offset, length) :: rest, stop => offset = start ∧ 0 < length ∧ Tiles (start + length) rest stop

theorem Tiles.append {a b c : Nat} {first last : List (Nat × Nat)} (h : Tiles a first b) (h' : Tiles b last c) :
    Tiles a (first ++ last) c := by
  induction first generalizing a with
  | nil => exact (show a = b from h) ▸ h'
  | cons piece first ih => exact ⟨h.1, h.2.1, ih h.2.2⟩

/-- The stretch at the end counts among the items. -/
theorem Ends.count (h : Ends front active) :
    (front.take (front.length - active)).count true + active = front.count true := by
  have hall : front.drop (front.length - active) = List.replicate active true := by
    refine List.eq_replicate_iff.mpr ⟨by rw [List.length_drop]; have := h.le; omega, fun b hb => ?_⟩
    obtain ⟨i, hi, rfl⟩ := List.getElem_of_mem hb
    rw [List.length_drop] at hi
    have hinside := h.inside (front.length - active + i) (Nat.le_add_right _ _) (by omega)
    rw [List.getElem_drop]
    exact (List.getElem?_eq_some_iff.mp hinside).2
  conv_rhs => rw [← List.take_append_drop (front.length - active) front, List.count_append, hall, List.count_replicate_self]

theorem byItems_closed (h : Ends front active) (rest : List Bool) :
    (closed front.length active).map (byItems (front ++ rest)) =
      if 0 < active then [(front.count true - active, active)] else [] := by
  have hcount := h.count
  rw [closed]
  split
  · rw [List.map_singleton, byItems, List.take_append_of_le_length (Nat.sub_le _ _)]
    congr 2
    omega
  · rfl

theorem tiles_closed (h : Ends front active) (rest : List Bool) :
    Tiles (front.count true - active) ((closed front.length active).map (byItems (front ++ rest))) (front.count true) := by
  have hcount := h.count
  rw [byItems_closed h]
  split
  next hpos => exact ⟨rfl, hpos, show _ = _ by omega⟩
  next hzero => exact show _ = _ by omega

theorem tiles_runsFrom (h : Ends front active) : Tiles (front.count true - active)
    ((runsFrom front.length active rest).map (byItems (front ++ rest))) ((front ++ rest).count true) := by
  induction rest generalizing front active with
  | nil =>
    have hclosed := tiles_closed h []
    rwa [runsFrom, List.append_nil] at *
  | cons b rest ih =>
    have hsplit : front ++ b :: rest = front ++ [b] ++ rest := by rw [List.append_assoc, List.singleton_append]
    have hlength : (front ++ [b]).length = front.length + 1 := by rw [List.length_append, List.length_singleton]
    cases b with
    | true =>
      have hnext := ih h.push_true
      rw [hlength, ← hsplit, List.count_append, List.count_singleton_self, Nat.add_sub_add_right] at hnext
      exact hnext
    | false =>
      have hnext := ih (Ends.push_false front)
      have hcount : (front ++ [false]).count true - 0 = front.count true := by
        rw [List.count_append, Nat.sub_zero]
        rfl
      rw [hlength, ← hsplit, hcount] at hnext
      rw [runsFrom, List.map_append]
      exact (tiles_closed h (false :: rest)).append hnext

/-- **Counted by the items, the runs lie end to end.** -/
theorem tiles_runs (l : List Bool) : Tiles 0 ((runs l).map (byItems l)) (l.count true) :=
  @tiles_runsFrom [] l 0 ⟨le_rfl, fun i _ hi => absurd hi (Nat.not_lt_zero i), .inl rfl⟩

/-- The places of the items. -/
def places (l : List Bool) : List Nat := (List.range l.length).filter fun i => l[i]? == some true

theorem places_concat (l : List Bool) (b : Bool) :
    places (l ++ [b]) = places l ++ if b then [l.length] else [] := by
  have hsame : (List.range l.length).filter (fun i => (l ++ [b])[i]? == some true) = places l := by
    refine List.filter_congr fun i hi => ?_
    rw [List.getElem?_append_left (List.mem_range.mp hi)]
  rw [places, List.length_append, List.length_singleton, List.range_succ, List.filter_append, hsame]
  cases b <;> simp

theorem length_places (l : List Bool) : (places l).length = l.count true := by
  induction l using List.reverseRecOn with
  | nil => rfl
  | append_singleton l b ih =>
    rw [places_concat, List.length_append, ih, List.count_append]
    cases b <;> rfl

/-- An item stands behind as many items as there are before its place. -/
theorem places_getElem? {l : List Bool} {i : Nat} (h : l[i]? = some true) :
    (places l)[(l.take i).count true]? = some i := by
  induction l using List.reverseRecOn with
  | nil => cases h
  | append_singleton l b ih =>
    rw [places_concat]
    by_cases hlt : i < l.length
    · rw [List.getElem?_append_left hlt] at h
      have hfound := ih h
      rw [List.take_append_of_le_length hlt.le]
      rwa [List.getElem?_append_left (List.getElem?_eq_some_iff.mp hfound).1]
    · obtain ⟨hi, -⟩ := List.getElem?_eq_some_iff.mp h
      rw [List.length_append, List.length_singleton] at hi
      have heq : i = l.length := by omega
      subst heq
      rw [List.getElem?_concat_length] at h
      cases h
      rw [List.take_left, ← length_places, if_pos rfl, List.getElem?_concat_length]

/-- Within a run every place is an item. -/
theorem IsRun.count_take {l : List Bool} (h : IsRun l run) {j : Nat} (hj : j ≤ run.2) :
    (l.take (run.1 + j)).count true = (l.take run.1).count true + j := by
  induction j with
  | zero => rfl
  | succ j ih =>
    have hitem := h.inside (run.1 + j) (Nat.le_add_right _ _) (by omega)
    rw [← Nat.add_assoc, List.take_add_one, List.count_append, ih (by omega), hitem]
    rfl

end SystemMonitor.Lib.Runs
