import Mathlib.Order.Basic
import SystemMonitor.Lib.Last
import SystemMonitor.Lib.Machine
import SystemMonitor.Lib.SingleFlight
import SystemMonitor.Mounts.Model
import SystemMonitor.Pages.Rows

/-! The File Systems page.

The page keeps the last complete inventory and shows what the search and the check button leave of
it; a collection that fails leaves the inventory as it is. `filesystems_page`: the rows are at
every moment those of the inventory that is kept, and of the search and the button as they are;
and when nothing is collected any more, it is the inventory of the namespace as it is. -/
namespace SystemMonitor.Pages
open Lib CStrings SingleFlight Mounts

/-- The columns of a row. -/
structure FilesystemRow where
  source : Text
  target : Text
  type : Text
  total : Text
  free : Text
  available : Text
  used : Text
  usePercent : Text
  deriving DecidableEq

/-- What a collection reads. -/
structure MountNamespace where
  file : Option MountFile
  host : Host

/-- A complete inventory; `none`: it could not be collected. -/
abbrev FilesystemInventory := Option (List LsmFilesystemInfo)

structure FilesystemsPage where
  mounts : MountNamespace
  search : Text := []
  showAll : Bool
  snapshot : List LsmFilesystemInfo := []
  rows : List FilesystemRow := []
  countLabel : Text := ascii "File systems: 0"
  /-- `refresh_pending` and `refresh_again`. -/
  refresh : Flight FilesystemInventory := {}
  shuttingDown : Bool := false

/-- What the page uses of Common, of GLib and of the collector. -/
structure FilesystemSystem where
  lib : Mounts.Library
  formatBytes : Nat → Text
  casefold : Text → Text

/-! ### What is shown -/

namespace FilesystemSystem
variable (sys : FilesystemSystem)

def matchesSearch (item : LsmFilesystemInfo) (search : Text) : Bool :=
  search = [] || lsmUiTextMatches sys.casefold item.source.text search ||
    lsmUiTextMatches sys.casefold item.target.text search || lsmUiTextMatches sys.casefold item.filesystem.text search

def appendFilesystem (item : LsmFilesystemInfo) : FilesystemRow :=
  let known (text : Text) : Text := if item.capacityAvailable then text else ascii "N/A"
  { source := item.source.text
    target := item.target.text
    type := item.filesystem.text
    total := known (sys.formatBytes item.totalBytes)
    free := known (sys.formatBytes item.freeBytes)
    available := known (sys.formatBytes item.availableBytes)
    used := known (sys.formatBytes item.usedBytes)
    usePercent := known (Decimal.print item.usedPercent ++ ascii "%") }

/-- The items that are shown. -/
def visible (showAll : Bool) (search : Text) (snapshot : List LsmFilesystemInfo) : List LsmFilesystemInfo :=
  snapshot.filter fun item => (showAll || item.normallyVisible) && sys.matchesSearch item search

def rowsOf (showAll : Bool) (search : Text) (snapshot : List LsmFilesystemInfo) : List FilesystemRow :=
  (sys.visible showAll search snapshot).map sys.appendFilesystem

end FilesystemSystem

def filesystemCount (rows : List FilesystemRow) : Text := ascii "File systems: " ++ Decimal.print rows.length

def filesystemsUnavailable : Text :=
  ascii "File systems unavailable " ++ [0xe2, 0x80, 0x94] ++ ascii " keeping previous snapshot"

/-! ### The page -/

def lsmFilesystemsRefresh (page : FilesystemsPage) : FilesystemsPage :=
  if page.shuttingDown then page else {page with refresh := page.refresh.ask}

/-- With the application shut down; the store and the inventory are gone. -/
def lsmFilesystemsDestroy (page : FilesystemsPage) : FilesystemsPage :=
  {page with
    snapshot := []
    rows := []
    refresh.pending := false
    refresh.again := false
    shuttingDown := true}

/-- `collected`: with what a worker has read of mounts that changed under it. -/
inductive FilesystemsEvent where
  | searchChanged (search : Text)
  | showAllToggled (active : Bool)
  | refresh
  | collected (reading : Nat) (torn : FilesystemInventory)
  | refreshComplete (reading : Nat)
  | mountsChanged (mounts : MountNamespace)
  | shutdown

namespace FilesystemSystem
variable (sys : FilesystemSystem)

def presentFilesystemSnapshot (page : FilesystemsPage) : FilesystemsPage :=
  if page.shuttingDown then page
  else
    let rows := sys.rowsOf page.showAll page.search page.snapshot
    {page with rows, countLabel := filesystemCount rows}

/-- `filesystem_refresh_worker`. -/
def collect (mounts : MountNamespace) : FilesystemInventory :=
  let (success, items, count) := lsmFilesystemInventoryCollect sys.lib mounts.host mounts.file
  if success then some ((items.getD []).take count) else none

/-- What a completion does with its result. -/
def showResult (page : FilesystemsPage) : FilesystemInventory → FilesystemsPage
  | some items => sys.presentFilesystemSnapshot {page with snapshot := items}
  | none => {page with countLabel := filesystemsUnavailable}

/-- `refresh`: the flags, with the pending one cleared. -/
def refreshComplete (page : FilesystemsPage) (result : FilesystemInventory) (refresh : Flight FilesystemInventory) :
    FilesystemsPage :=
  if page.shuttingDown then {page with refresh}
  else
    let page := sys.showResult {page with refresh} result
    if page.refresh.again then lsmFilesystemsRefresh {page with refresh.again := false} else page

def next (page : FilesystemsPage) : FilesystemsEvent → Option FilesystemsPage
  | .searchChanged search => some (sys.presentFilesystemSnapshot {page with search})
  | .showAllToggled active => some (sys.presentFilesystemSnapshot {page with showAll := active})
  | .refresh => some (lsmFilesystemsRefresh page)
  | .collected i torn =>
    (page.refresh.answer i (sys.collect page.mounts) torn).map fun refresh => {page with refresh}
  | .refreshComplete i => (page.refresh.take i).map fun taken => sys.refreshComplete page taken.1 taken.2
  | .mountsChanged mounts => some {page with mounts, refresh := page.refresh.disturb}
  | .shutdown => some (lsmFilesystemsDestroy page)

def machine : Machine FilesystemsPage FilesystemsEvent := ⟨sys.next⟩

end FilesystemSystem

/-- What comes back to the page. -/
def FilesystemsPage.returned (page : FilesystemsPage) : FilesystemsEvent → List FilesystemInventory
  | .refreshComplete i => if page.shuttingDown then [] else ((page.refresh.take i).map Prod.fst).toList
  | _ => []

/-! ### What is shown is what is kept -/

namespace FilesystemSystem
variable (sys : FilesystemSystem)

/-- Of an open page, with what has come back to it. -/
structure Open (log : List FilesystemInventory) (page : FilesystemsPage) : Prop where
  single : page.refresh.Single
  kept : page.snapshot = (lastOf id log).getD []
  rows : page.rows = sys.rowsOf page.showAll page.search page.snapshot
  label : page.countLabel = filesystemCount page.rows ∨ page.countLabel = filesystemsUnavailable

structure Kept (log : List FilesystemInventory) (page : FilesystemsPage) : Prop where
  readings : page.refresh.readings.length ≤ 1
  opened : page.shuttingDown = false → sys.Open log page

variable {sys}

theorem Kept.start (mounts : MountNamespace) (showAll : Bool) : sys.Kept [] {mounts, showAll} :=
  ⟨Nat.zero_le 1, fun _ => ⟨rfl, rfl, rfl, .inl rfl⟩⟩

theorem Open.refreshed {log : List FilesystemInventory} {page : FilesystemsPage} {refresh : Flight FilesystemInventory}
    (h : sys.Open log page) (hsingle : refresh.Single) : sys.Open log {page with refresh} :=
  ⟨hsingle, h.kept, h.rows, h.label⟩

theorem Kept.of_open {log : List FilesystemInventory} {page : FilesystemsPage} (h : sys.Open log page) : sys.Kept log page :=
  ⟨h.single.length_le, fun _ => h⟩

theorem lsmFilesystemsRefresh_open {log : List FilesystemInventory} {page : FilesystemsPage} (h : sys.Open log page) :
    sys.Open log (lsmFilesystemsRefresh page) := by
  rw [lsmFilesystemsRefresh]
  split
  · exact h
  · exact h.refreshed h.single.ask

theorem presentFilesystemSnapshot_open {log : List FilesystemInventory} {page : FilesystemsPage}
    (hsingle : page.refresh.Single) (hkept : page.snapshot = (lastOf id log).getD []) (hopen : page.shuttingDown = false) :
    sys.Open log (sys.presentFilesystemSnapshot page) := by
  rw [presentFilesystemSnapshot, hopen]
  exact ⟨hsingle, hkept, rfl, .inl rfl⟩

theorem showResult_open {log : List FilesystemInventory} {page : FilesystemsPage} (h : sys.Open log page)
    (hopen : page.shuttingDown = false) (result : FilesystemInventory) :
    sys.Open (log ++ [result]) (sys.showResult page result) := by
  cases result with
  | some items => exact presentFilesystemSnapshot_open h.single (by rw [lastOf_concat]; rfl) hopen
  | none => exact ⟨h.single, by rw [lastOf_concat]; exact h.kept, h.rows, .inr rfl⟩

theorem refreshComplete_open {log : List FilesystemInventory} {page : FilesystemsPage} {result : FilesystemInventory}
    {refresh : Flight FilesystemInventory} (h : sys.Open log page) (hopen : page.shuttingDown = false)
    (hsingle : refresh.Single) : sys.Open (log ++ [result]) (sys.refreshComplete page result refresh) := by
  have hshown := showResult_open (h.refreshed hsingle) hopen result
  rw [refreshComplete, if_neg (Bool.eq_false_iff.mp hopen)]
  dsimp only
  generalize sys.showResult {page with refresh} result = shown at hshown ⊢
  split
  · exact lsmFilesystemsRefresh_open ⟨hshown.single, hshown.kept, hshown.rows, hshown.label⟩
  · exact hshown

/-- A page that has been closed stays closed. -/
theorem next_closed {page after : FilesystemsPage} {e : FilesystemsEvent} (hclosed : page.shuttingDown = true)
    (hreadings : page.refresh.readings.length ≤ 1) (hnext : sys.next page e = some after) :
    after.refresh.readings.length ≤ 1 ∧ after.shuttingDown = true := by
  cases e with
  | searchChanged | showAllToggled =>
    cases hnext
    rw [presentFilesystemSnapshot, if_pos hclosed]
    exact ⟨hreadings, hclosed⟩
  | refresh =>
    cases hnext
    rw [lsmFilesystemsRefresh, if_pos hclosed]
    exact ⟨hreadings, hclosed⟩
  | collected i torn =>
    obtain ⟨refresh, hanswer, rfl⟩ := Option.map_eq_some_iff.mp hnext
    exact ⟨(Flight.answer_length hanswer).trans_le hreadings, hclosed⟩
  | refreshComplete i =>
    obtain ⟨⟨result, refresh⟩, htake, rfl⟩ := Option.map_eq_some_iff.mp hnext
    rw [refreshComplete, if_pos hclosed]
    exact ⟨(Flight.take_last hreadings htake).1 ▸ Nat.zero_le 1, hclosed⟩
  | mountsChanged mounts =>
    cases hnext
    exact ⟨(List.length_map ..).trans_le hreadings, hclosed⟩
  | shutdown =>
    cases hnext
    exact ⟨hreadings, rfl⟩

theorem next_kept {log : List FilesystemInventory} {page after : FilesystemsPage} {e : FilesystemsEvent}
    (h : sys.Kept log page) (hnext : sys.next page e = some after) : sys.Kept (log ++ page.returned e) after := by
  have hlog : log ++ [] = log := List.append_nil log
  cases hclosed : page.shuttingDown with
  | true =>
    obtain ⟨hreadings, hclosed⟩ := next_closed hclosed h.readings hnext
    exact ⟨hreadings, fun hopen => absurd (hclosed.symm.trans hopen) nofun⟩
  | false =>
    have hopen := h.opened hclosed
    cases e with
    | searchChanged search =>
      cases hnext
      exact .of_open (hlog.symm ▸ presentFilesystemSnapshot_open hopen.single hopen.kept hclosed)
    | showAllToggled active =>
      cases hnext
      exact .of_open (hlog.symm ▸ presentFilesystemSnapshot_open hopen.single hopen.kept hclosed)
    | refresh =>
      cases hnext
      exact .of_open (hlog.symm ▸ lsmFilesystemsRefresh_open hopen)
    | collected i torn =>
      obtain ⟨refresh, hanswer, rfl⟩ := Option.map_eq_some_iff.mp hnext
      exact .of_open (hlog.symm ▸ hopen.refreshed (hopen.single.answered hanswer))
    | refreshComplete i =>
      obtain ⟨⟨result, refresh⟩, htake, rfl⟩ := Option.map_eq_some_iff.mp hnext
      rw [FilesystemsPage.returned, hclosed, htake]
      obtain ⟨-, -, rfl⟩ := hopen.single.take htake
      exact .of_open (refreshComplete_open hopen hclosed rfl)
    | mountsChanged mounts =>
      cases hnext
      exact .of_open (hlog.symm ▸ ⟨hopen.single.disturb, hopen.kept, hopen.rows, hopen.label⟩)
    | shutdown =>
      cases hnext
      exact ⟨h.readings, nofun⟩

/-! ### No request is lost -/

/-- The inventory of the namespace as it is, if there is one, is shown, or will be. -/
def Settles (sys : FilesystemSystem) (page : FilesystemsPage) : Prop :=
  page.shuttingDown = true ∨ page.refresh.Due (sys.collect page.mounts) ∨
    page.refresh.pending = false ∧ ∀ items, sys.collect page.mounts = some items →
      page.snapshot = items ∧ page.countLabel = filesystemCount page.rows

theorem Settles.refresh {log : List FilesystemInventory} {page : FilesystemsPage} (h : sys.Kept log page) :
    sys.Settles (lsmFilesystemsRefresh page) := by
  rw [lsmFilesystemsRefresh]
  split
  · next hclosed => exact .inl hclosed
  · next hopen => exact .inr (.inl ((h.opened (Bool.not_eq_true _ ▸ hopen)).single.ask_due _))

theorem Settles.present {page : FilesystemsPage} (h : sys.Settles page) :
    sys.Settles (sys.presentFilesystemSnapshot page) := by
  rw [presentFilesystemSnapshot]
  split
  · exact h
  · exact h.imp id (.imp id fun ⟨hidle, hshown⟩ => ⟨hidle, fun items hitems => ⟨(hshown items hitems).1, rfl⟩⟩)

theorem showResult_refresh (sys : FilesystemSystem) (page : FilesystemsPage) (result : FilesystemInventory) :
    (sys.showResult page result).refresh = page.refresh ∧ (sys.showResult page result).mounts = page.mounts := by
  cases result with
  | none => exact ⟨rfl, rfl⟩
  | some items =>
    rw [showResult, presentFilesystemSnapshot]
    split <;> exact ⟨rfl, rfl⟩

theorem Settles.refreshComplete {log : List FilesystemInventory} {page : FilesystemsPage} {i : Nat}
    {result : FilesystemInventory} {refresh : Flight FilesystemInventory} (hkept : sys.Kept log page) (h : sys.Settles page)
    (htake : page.refresh.take i = some (result, refresh)) : sys.Settles (sys.refreshComplete page result refresh) := by
  rw [FilesystemSystem.refreshComplete]
  split
  · next hclosed => exact .inl hclosed
  · next hopen =>
    have hopen : page.shuttingDown = false := Bool.not_eq_true _ ▸ hopen
    have hpage := hkept.opened hopen
    obtain ⟨hbusy, -, hrefresh⟩ := hpage.single.take htake
    have hsingle : refresh.Single := by rw [hrefresh]; rfl
    have hshown := showResult_open (hpage.refreshed hsingle) hopen result
    obtain ⟨hflags, hmounts⟩ := showResult_refresh sys {page with refresh} result
    dsimp only
    split
    · exact Settles.refresh (.of_open ⟨hshown.single, hshown.kept, hshown.rows, hshown.label⟩)
    · next hagain =>
      -- nothing else was asked for, so what came back is what there is
      have hcurrent : result = sys.collect page.mounts := by
        rcases h with h | ⟨-, h | h⟩ | ⟨h, -⟩
        · rw [hopen] at h
          cases h
        · rw [hflags, hrefresh] at hagain
          exact absurd h hagain
        · exact h.take hpage.single htake
        · rw [hbusy] at h
          cases h
      refine .inr (.inr ⟨by rw [hflags, hrefresh], fun items hitems => ?_⟩)
      rw [hmounts] at hitems
      rw [hcurrent, hitems, showResult, presentFilesystemSnapshot]
      simp only [hopen, Bool.false_eq_true, if_false, and_self]

end FilesystemSystem

def FilesystemsEvent.foreign : FilesystemsEvent → Bool
  | .mountsChanged _ => true
  | _ => false

namespace FilesystemSystem
variable {sys : FilesystemSystem}

theorem next_settles {log : List FilesystemInventory} {page after : FilesystemsPage} {e : FilesystemsEvent}
    (hkept : sys.Kept log page) (h : sys.Settles page) (hown : e.foreign = false) (hnext : sys.next page e = some after) :
    sys.Settles after := by
  cases e with
  | searchChanged search =>
    cases hnext
    exact Settles.present (show sys.Settles {page with search} from h)
  | showAllToggled active =>
    cases hnext
    exact Settles.present (show sys.Settles {page with showAll := active} from h)
  | refresh =>
    cases hnext
    exact .refresh hkept
  | collected i torn =>
    obtain ⟨refresh, hanswer, rfl⟩ := Option.map_eq_some_iff.mp hnext
    refine (Bool.eq_false_or_eq_true page.shuttingDown).elim .inl fun hopen => ?_
    have hsingle := (hkept.opened hopen).single
    rcases h with h | h | ⟨h, -⟩
    · exact .inl h
    · exact .inr (.inl (h.answer hsingle hanswer))
    · rw [(hsingle.answer hanswer).1] at h
      cases h
  | refreshComplete i =>
    obtain ⟨⟨result, refresh⟩, htake, rfl⟩ := Option.map_eq_some_iff.mp hnext
    exact h.refreshComplete hkept htake
  | mountsChanged mounts => cases hown
  | shutdown =>
    cases hnext
    exact .inl rfl

theorem run_kept {log : List FilesystemInventory} {page after : FilesystemsPage} {events : List FilesystemsEvent}
    (h : sys.Kept log page) (hrun : sys.machine.run page events = some after) :
    sys.Kept (log ++ sys.machine.trace FilesystemsPage.returned page events) after :=
  sys.machine.run_trace_invariant FilesystemsPage.returned (fun _ _ => True) sys.Kept
    (fun _ _ _ _ h _ hnext => next_kept h hnext) h (sys.machine.admissible_true page events) hrun

theorem run_settles {log : List FilesystemInventory} {page after : FilesystemsPage} {events : List FilesystemsEvent}
    (hkept : sys.Kept log page) (h : sys.Settles page) (hown : ∀ e ∈ events, e.foreign = false)
    (hrun : sys.machine.run page events = some after) : sys.Settles after :=
  (sys.machine.run_trace_invariant FilesystemsPage.returned (fun _ e => e.foreign = false)
    (fun log page => sys.Kept log page ∧ sys.Settles page)
    (fun _ _ _ _ h hown hnext => ⟨next_kept h.1 hnext, next_settles h.1 h.2 hown hnext⟩) ⟨hkept, h⟩
    (sys.machine.admissible_of_forall (fun e he _ => hown e he) page) hrun).2

end FilesystemSystem

/-- **The page shows the last complete inventory.** In every run there is at most one worker, and the rows of
the open page are those of the last inventory that came back complete, for the search and the button as
they are. When the mounts have not changed since the last request and no collection is under way, that is
the inventory of the mounts, if it can be collected. -/
theorem filesystems_page (sys : FilesystemSystem) (mounts : MountNamespace) (showAll : Bool)
    (before : List FilesystemsEvent) (page : FilesystemsPage)
    (hbefore : sys.machine.run {mounts, showAll} before = some page) :
    page.refresh.readings.length ≤ 1 ∧
    (page.shuttingDown = false →
      page.snapshot = (lastOf id (sys.machine.trace FilesystemsPage.returned {mounts, showAll} before)).getD [] ∧
      page.rows = sys.rowsOf page.showAll page.search page.snapshot ∧
      (page.countLabel = filesystemCount page.rows ∨ page.countLabel = filesystemsUnavailable)) ∧
    ∀ after settled, (∀ e ∈ after, e.foreign = false) →
      sys.machine.run page (.refresh :: after) = some settled →
      settled.shuttingDown = false → settled.refresh.pending = false →
      ∀ items, sys.collect settled.mounts = some items →
        settled.rows = sys.rowsOf settled.showAll settled.search items ∧
          settled.countLabel = filesystemCount settled.rows := by
  have hkept := FilesystemSystem.run_kept (.start mounts showAll) hbefore
  rw [List.nil_append] at hkept
  refine ⟨hkept.readings, fun hopen => ?_, fun after settled hown hrun hopen hidle items hitems => ?_⟩
  · have hpage := hkept.opened hopen
    exact ⟨hpage.kept, hpage.rows, hpage.label⟩
  · obtain ⟨asked, hnext, hrun⟩ := sys.machine.run_cons hrun
    have hasked := FilesystemSystem.next_kept hkept (show sys.next page .refresh = some asked from hnext)
    cases hnext
    have hsettles := FilesystemSystem.run_settles hasked (.refresh hkept) hown hrun
    rcases hsettles with h | h | ⟨-, h⟩
    · rw [hopen] at h
      cases h
    · rw [Flight.Due, hidle] at h
      exact absurd h.1 nofun
    · obtain ⟨hsnapshot, hlabel⟩ := h items hitems
      exact ⟨hsnapshot ▸ ((FilesystemSystem.run_kept hasked hrun).opened hopen).rows, hlabel⟩

/-! ### A mount that comes while the page is refreshed -/

def documentedFilesystems : FilesystemSystem where
  lib := .documented
  formatBytes bytes := Decimal.print bytes ++ ascii " B"
  casefold := id

def noMounts : MountNamespace where
  file := none
  host := ⟨fun _ _ => none, fun _ => true⟩

def rootMount : MountNamespace where
  file := some ⟨ascii "22 1 8:1 / / rw,relatime - ext4 /dev/sda1 rw\n", true, true⟩
  host := ⟨fun _ _ => none, fun _ => true⟩

def rootFilesystem : LsmFilesystemInfo where
  source := .ofText (ascii "/dev/sda1")
  target := .ofText (ascii "/")
  filesystem := .ofText (ascii "ext4")
  normallyVisible := true

/-- The collection under way fails, and the one that was asked for meanwhile does not. -/
def mounting : List FilesystemsEvent :=
  [.collected 0 none, .refreshComplete 0, .collected 0 none, .refreshComplete 0, .searchChanged (ascii "ext")]

theorem filesystems_page_mounted : ∃ page settled,
    documentedFilesystems.machine.run {mounts := noMounts, showAll := false} [.refresh, .mountsChanged rootMount] = some page ∧
    documentedFilesystems.machine.run page (.refresh :: mounting) = some settled ∧
    settled.rows = documentedFilesystems.rowsOf false (ascii "ext") [rootFilesystem] ∧
    settled.countLabel = filesystemCount settled.rows :=
  ⟨_, _, rfl, rfl, (filesystems_page documentedFilesystems noMounts false [.refresh, .mountsChanged rootMount] _ rfl).2.2
    mounting _ (by decide) rfl rfl rfl [rootFilesystem] (by decide)⟩

end SystemMonitor.Pages
