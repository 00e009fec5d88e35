import SystemMonitor.Common
import SystemMonitor.Lib.CStrings

/-! The process rows that the pages show, and the search in them.

A finite `double` is the rational it stands for. GLib's case folding is not part of this
repository and enters as a function on texts. -/
namespace SystemMonitor.Pages
open Lib

inductive Double where
  | finite (value : ℚ)
  | infinite (negative : Bool)
  | nan
  deriving DecidableEq

/-- `a < b`: false where one of them is no number. -/
def Double.less : Double → Double → Bool
  | .finite a, .finite b => a < b
  | .finite _, .infinite negative => !negative
  | .infinite negative, .finite _ => negative
  | .infinite a, .infinite b => a && !b
  | _, _ => false

/-- The fields of a row that the process pages look at. -/
structure LsmProcessInfo where
  pid : Nat := 0
  ppid : Nat := 0
  instanceId : Nat := 0
  ownedByCurrentUser : Bool := false
  user : Chars 64 := .empty
  name : Chars 128 := .empty
  state : Chars 32 := .empty
  command : Chars 1024 := .empty
  efficiencyMode : Bool := false
  cpuPercent : Double := .finite 0
  readBytesPerSec : Double := .finite 0
  writeBytesPerSec : Double := .finite 0
  ioRateAvailable : Bool := false
  rssBytes : Nat := 0
  gpuPercent : Double := .finite 0
  gpuEngine : Chars 256 := .empty
  gpuAvailable : Bool := false
  deriving DecidableEq

/-- What a process scan delivers: every PID once, and PIDs as `parse_proc_pid` takes them. -/
structure ProcessSnapshot where
  rows : List LsmProcessInfo
  distinct : (rows.map (·.pid)).Nodup
  pid_range : ∀ process ∈ rows, 0 < process.pid ∧ process.pid < 2 ^ 31

/-- `lsm_ui_text_matches`. -/
def lsmUiTextMatches (casefold : Text → Text) (text needle : Text) : Bool :=
  if needle = [] then true
  else if casefold needle = [] then true
  else (CStrings.strstr (casefold needle) (casefold text)).isSome

/-- The three bytes of "…". -/
def ellipsis : Text := [0xe2, 0x80, 0xa6]

end SystemMonitor.Pages
