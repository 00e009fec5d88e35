import Mathlib.Data.List.Basic

/-! A background reading with one worker at a time.

A page asks for a reading of something that changes; a worker makes it, and the page takes what
it comes back with. A flag says that a reading is under way, and a request that comes then is
remembered or dropped, as the page likes. `Single`: the flag counts the workers, so a second one
is never started. `Coming`: the reading under way, unless something changes, comes back with what
there is to read. -/
namespace SystemMonitor.Lib.SingleFlight

/-- `steady`: nothing has changed since the worker was started. -/
inductive Reading (ρ : Type) where
  | running (steady : Bool)
  | returned (result : ρ)

/-- A list of at most one worker, and where it was found. -/
theorem eraseIdx_of_length_le_one {α : Type} {xs : List α} {i : Nat} {x : α} (hlength : xs.length ≤ 1)
    (h : xs[i]? = some x) : xs = [x] ∧ i = 0 := by
  obtain ⟨hi, hx⟩ := List.getElem?_eq_some_iff.mp h
  obtain ⟨y, rfl⟩ := List.length_eq_one_iff.mp (Nat.le_antisymm hlength (Nat.lt_of_le_of_lt (Nat.zero_le i) hi))
  obtain rfl : i = 0 := Nat.lt_one_iff.mp hi
  cases hx
  exact ⟨rfl, rfl⟩

def Reading.disturbed {ρ : Type} : Reading ρ → Reading ρ
  | .running _ => .running false
  | .returned result => .returned result

/-- The flags of a page, and the workers that have not been answered. -/
structure Flight (ρ : Type) where
  pending : Bool := false
  again : Bool := false
  readings : List (Reading ρ) := []

namespace Flight
variable {ρ : Type}

def start (f : Flight ρ) : Flight ρ := {f with pending := true, readings := f.readings ++ [.running true]}

/-- A request that is remembered while a reading is under way. -/
def ask (f : Flight ρ) : Flight ρ := if f.pending then {f with again := true} else f.start

/-- What is read changes. -/
def disturb (f : Flight ρ) : Flight ρ := {f with readings := f.readings.map Reading.disturbed}

/-- A worker returns: with what there is, or, if that has changed under it, with anything. -/
def answer (f : Flight ρ) (i : Nat) (current torn : ρ) : Option (Flight ρ) :=
  match f.readings[i]? with
  | some (.running steady) =>
    some {f with readings := f.readings.set i (.returned (if steady then current else torn))}
  | _ => none

/-- The page takes what a worker has returned. -/
def take (f : Flight ρ) (i : Nat) : Option (ρ × Flight ρ) :=
  match f.readings[i]? with
  | some (.returned result) => some (result, {f with pending := false, readings := f.readings.eraseIdx i})
  | _ => none

/-! ### One worker -/

def Single (f : Flight ρ) : Prop := f.readings.length = f.pending.toNat

theorem Single.idle {f : Flight ρ} (h : f.Single) (hidle : f.pending = false) : f.readings = [] :=
  List.eq_nil_of_length_eq_zero (by rw [h, hidle]; rfl)

theorem Single.length_le {f : Flight ρ} (h : f.Single) : f.readings.length ≤ 1 := by
  rw [h]
  exact Bool.toNat_le _

theorem Single.pending {f : Flight ρ} (h : f.Single) {reading : Reading ρ} (hone : f.readings = [reading]) :
    f.pending = true := by
  rw [Single, hone] at h
  exact Bool.toNat_eq_one.mp h.symm

theorem Single.start {f : Flight ρ} (h : f.Single) (hidle : f.pending = false) : f.start.Single := by
  rw [Single, Flight.start, h.idle hidle]
  rfl

theorem Single.ask {f : Flight ρ} (h : f.Single) : f.ask.Single := by
  rw [Flight.ask]
  split
  · exact h
  · next hidle => exact h.start (Bool.not_eq_true _ ▸ hidle)

theorem Single.disturb {f : Flight ρ} (h : f.Single) : f.disturb.Single := by
  rw [Single, Flight.disturb, List.length_map]
  exact h

/-- A worker that returns is the one under way. -/
theorem Single.answer {f f' : Flight ρ} {i : Nat} {current torn : ρ} (h : f.Single)
    (hanswer : f.answer i current torn = some f') :
    f.pending = true ∧ ∃ steady, f.readings = [.running steady] ∧
      f' = {f with readings := [.returned (if steady then current else torn)]} := by
  rw [Flight.answer] at hanswer
  split at hanswer
  case h_2 => cases hanswer
  case h_1 steady hat =>
    obtain ⟨hone, rfl⟩ := eraseIdx_of_length_le_one h.length_le hat
    rw [hone] at hanswer
    cases hanswer
    exact ⟨h.pending hone, steady, hone, rfl⟩

/-- What is taken is what the one worker has returned, and no worker is left. -/
theorem Single.take {f f' : Flight ρ} {i : Nat} {result : ρ} (h : f.Single) (htake : f.take i = some (result, f')) :
    f.pending = true ∧ f.readings = [.returned result] ∧ f' = {f with pending := false, readings := []} := by
  rw [Flight.take] at htake
  split at htake
  case h_2 => cases htake
  case h_1 hat =>
    obtain ⟨hone, rfl⟩ := eraseIdx_of_length_le_one h.length_le hat
    rw [hone] at htake
    cases htake
    exact ⟨h.pending hone, hone, rfl⟩

theorem answer_length {f f' : Flight ρ} {i : Nat} {current torn : ρ} (h : f.answer i current torn = some f') :
    f'.readings.length = f.readings.length := by
  rw [Flight.answer] at h
  split at h
  · cases h
    exact List.length_set
  · cases h

theorem Single.answered {f f' : Flight ρ} {i : Nat} {current torn : ρ} (h : f.Single)
    (hanswer : f.answer i current torn = some f') : f'.Single := by
  obtain ⟨hp, -, -, rfl⟩ := h.answer hanswer
  rw [Single, hp]
  rfl

/-- Also of a page that has given up its flags. -/
theorem take_last {f f' : Flight ρ} {i : Nat} {result : ρ} (h : f.readings.length ≤ 1)
    (htake : f.take i = some (result, f')) : f'.readings = [] ∧ f'.pending = false := by
  rw [Flight.take] at htake
  split at htake
  · next hat =>
    obtain ⟨hone, rfl⟩ := eraseIdx_of_length_le_one h hat
    rw [hone] at htake
    cases htake
    exact ⟨rfl, rfl⟩
  · cases htake

/-! ### What is on its way -/

/-- What there is to read is what comes back. -/
def Coming (current : ρ) (f : Flight ρ) : Prop := f.readings = [.running true] ∨ f.readings = [.returned current]

/-- Another reading is asked for already, or the one under way is the last that is needed. -/
def Due (current : ρ) (f : Flight ρ) : Prop := f.pending = true ∧ (f.again = true ∨ f.Coming current)

theorem Single.start_coming {f : Flight ρ} (h : f.Single) (hidle : f.pending = false) (current : ρ) :
    f.start.Coming current :=
  .inl (by rw [Flight.start, h.idle hidle]; rfl)

theorem Single.ask_due {f : Flight ρ} (h : f.Single) (current : ρ) : f.ask.Due current := by
  rw [Flight.ask]
  split
  · next hbusy => exact ⟨hbusy, .inl rfl⟩
  · next hidle => exact ⟨rfl, .inr (h.start_coming (Bool.not_eq_true _ ▸ hidle) current)⟩

theorem Coming.answer {f f' : Flight ρ} {i : Nat} {current torn : ρ} (h : f.Single) (hcoming : f.Coming current)
    (hanswer : f.answer i current torn = some f') : f'.Coming current := by
  obtain ⟨-, steady, hone, rfl⟩ := h.answer hanswer
  rw [Coming, hone] at hcoming
  rcases hcoming with hcoming | hcoming
  · cases hcoming
    exact .inr rfl
  · cases hcoming

theorem Due.answer {f f' : Flight ρ} {i : Nat} {current torn : ρ} (h : f.Single) (hdue : f.Due current)
    (hanswer : f.answer i current torn = some f') : f'.Due current := by
  obtain ⟨hp, hdue⟩ := hdue
  refine hdue.elim (fun hagain => ?_) fun hcoming => ?_
  · obtain ⟨-, steady, -, rfl⟩ := h.answer hanswer
    exact ⟨hp, .inl hagain⟩
  · have hcoming' := hcoming.answer h hanswer
    obtain ⟨-, steady, -, rfl⟩ := h.answer hanswer
    exact ⟨hp, .inr hcoming'⟩

theorem Coming.take {f f' : Flight ρ} {i : Nat} {current result : ρ} (h : f.Single) (hcoming : f.Coming current)
    (htake : f.take i = some (result, f')) : result = current := by
  obtain ⟨-, hone, -⟩ := h.take htake
  rw [Coming, hone] at hcoming
  rcases hcoming with hcoming | hcoming
  · cases hcoming
  · cases hcoming
    rfl

end Flight

end SystemMonitor.Lib.SingleFlight
