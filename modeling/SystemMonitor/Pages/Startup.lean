import SystemMonitor.Desktop.Toggle
import SystemMonitor.Lib.Machine
import SystemMonitor.Lib.SingleFlight
import SystemMonitor.Pages.Rows

/-! The Startup Apps page.

The entries are collected by one worker, switched on or off by another, and both come back to the
main loop at any time; a failed switch is reported in a dialog with a main loop of its own. The
collection is asked for again when a switch is done, when the search has rested, and when the page
is entered or refreshed. `startup_page`: no such request is lost. When nothing is under way any
more, the page shows what is on the disk, filtered by what the search says now. -/
namespace SystemMonitor.Pages
open Lib CStrings SingleFlight Desktop

/-! ### What the page shows -/

/-- The columns of a row. -/
structure StartupRow where
  name : Text
  status : Text
  source : Text
  command : Text
  description : Text
  id : Text
  sourceIdentity : Text
  originIdentity : Text
  enabled : Bool
  deriving DecidableEq

def startupRow (entry : LsmStartupEntry) : StartupRow where
  name := entry.name.text
  status := if entry.enabled then ascii "Enabled" else ascii "Disabled"
  source := if entry.userEntry then ascii "User" else ascii "System"
  command := entry.command.text
  description := entry.description.text
  id := entry.id.text
  sourceIdentity := entry.sourceIdentity.text
  originIdentity := entry.originIdentity.text
  enabled := entry.enabled

def startupEntryMatches (casefold : Text → Text) (search : Text) (entry : LsmStartupEntry) : Bool :=
  search = [] || lsmUiTextMatches casefold entry.name.text search ||
    lsmUiTextMatches casefold entry.command.text search || lsmUiTextMatches casefold entry.description.text search ||
    lsmUiTextMatches casefold entry.id.text search

abbrev StartupInventory := Option (List LsmStartupEntry)

/-- The rows and the label for a collection; `none`: it failed. -/
def startupPresentRefresh (casefold : Text → Text) (search : Text) : StartupInventory → List StartupRow × Text
  | none => ([], ascii "Startup inventory unavailable")
  | some entries =>
    let visible := entries.filter (startupEntryMatches casefold search)
    (visible.map startupRow,
      Decimal.print visible.length ++ ascii " startup application" ++ if visible.length = 1 then [] else ascii "s")

/-! ### The page -/

structure StartupActionResult where
  id : Text
  sourceIdentity : Text
  originIdentity : Text
  enabled : Bool
  errorMessage : Option Text := none

inductive StartupAction where
  | queued (result : StartupActionResult)
  | done (result : StartupActionResult)

structure StartupPage where
  disk : Disk
  search : Text := []
  /-- `startup_search_timer`: the search has changed and is not used yet. -/
  searchTimer : Bool := false
  rows : List StartupRow := []
  countLabel : Text := ascii "Select the Startup Apps tab to load startup applications"
  /-- `startup_refresh_pending` and `startup_refresh_again`. -/
  refresh : Flight StartupInventory := {}
  actionPending : Bool := false
  actions : List StartupAction := []
  /-- Failed switches that are being reported. -/
  dialogs : Nat := 0
  shuttingDown : Bool := false

def lsmStartupRefresh (page : StartupPage) : StartupPage :=
  if page.shuttingDown then page
  else if page.refresh.pending then {page with refresh.again := true}
  else {page with
    refresh := {page.refresh.start with again := false}
    countLabel := ascii "Refreshing startup applications" ++ ellipsis}

/-- A row is selected, and the button clicked. -/
def startupToggle (page : StartupPage) (row : StartupRow) : StartupPage :=
  if page.shuttingDown || page.actionPending then page
  else {page with
    actionPending := true
    actions := page.actions ++ [.queued {
      id := row.id
      sourceIdentity := row.sourceIdentity
      originIdentity := row.originIdentity
      enabled := !row.enabled}]}

/-- The application is not found from the window any more when it has been shut down. -/
def startupActionComplete (page : StartupPage) (result : StartupActionResult) : StartupPage :=
  if page.shuttingDown then page
  else
    let page := {page with actionPending := false}
    match result.errorMessage with
    | some _ => {page with dialogs := page.dialogs + 1}
    | none => lsmStartupRefresh page

/-- Of the shut down application. -/
def lsmStartupDestroy (page : StartupPage) : StartupPage :=
  {page with
    searchTimer := false
    refresh.pending := false
    refresh.again := false
    actionPending := false
    shuttingDown := true}

/-- What the backend reads. -/
structure StartupSystem where
  lib : Library
  session : Session
  env : Environment
  keyFiles : KeyFileLibrary
  casefold : Text → Text

namespace StartupSystem
variable (sys : StartupSystem)

def collect (disk : Disk) : StartupInventory :=
  lsmStartupBackendCollect sys.lib sys.session sys.env (disk.fileSystem sys.keyFiles)

def present (search : Text) (inventory : StartupInventory) : List StartupRow × Text :=
  startupPresentRefresh sys.casefold search inventory

/-- `refresh` and `again`: the page's flags, cleared already. -/
def refreshComplete (page : StartupPage) (result : StartupInventory) (refresh : Flight StartupInventory) : StartupPage :=
  if page.shuttingDown then {page with refresh}
  else
    let shown := sys.present page.search result
    let next := {page with refresh := {refresh with again := false}, rows := shown.1, countLabel := shown.2}
    if refresh.again then lsmStartupRefresh next else next

def actionWorker (disk : Disk) (calls : Calls) (result : StartupActionResult) : StartupActionResult :=
  match lsmStartupBackendSetEnabled sys.lib sys.keyFiles calls sys.env disk result.id result.sourceIdentity
      result.originIdentity result.enabled with
  | .ok _ => result
  | .error error => {result with errorMessage := some error.message}

end StartupSystem

/-- `collected`: with what a worker has read of files that were changed under it. `actionWorker`: with
what it leaves on the disk, whether it fails or not. `changed`: by somebody else. -/
inductive StartupEvent where
  | typed (search : Text)
  | searchTimeout
  | refresh
  | toggle (row : Nat)
  | actionWorker (action : Nat) (calls : Calls) (disk : Disk)
  | actionComplete (action : Nat)
  | dialogClosed
  | collected (reading : Nat) (torn : StartupInventory)
  | refreshComplete (reading : Nat)
  | changed (disk : Disk)
  | shutdown

namespace StartupSystem
variable (sys : StartupSystem)

def next (page : StartupPage) : StartupEvent → Option StartupPage
  | .typed search => some {page with search, searchTimer := !page.shuttingDown}
  | .searchTimeout => if page.searchTimer then some (lsmStartupRefresh {page with searchTimer := false}) else none
  | .refresh => some (lsmStartupRefresh page)
  | .toggle row => (page.rows[row]?).map (startupToggle page)
  | .actionWorker i calls disk =>
    match page.actions[i]? with
    | some (.queued result) =>
      some {page with
        disk
        refresh := page.refresh.disturb
        actions := page.actions.set i (.done (sys.actionWorker page.disk calls result))}
    | _ => none
  | .actionComplete i =>
    match page.actions[i]? with
    | some (.done result) => some (startupActionComplete {page with actions := page.actions.eraseIdx i} result)
    | _ => none
  | .dialogClosed => if 0 < page.dialogs then some (lsmStartupRefresh {page with dialogs := page.dialogs - 1}) else none
  | .collected i torn =>
    (page.refresh.answer i (sys.collect page.disk) torn).map fun refresh => {page with refresh}
  | .refreshComplete i => (page.refresh.take i).map fun taken => sys.refreshComplete page taken.1 taken.2
  | .changed disk => some {page with disk, refresh := page.refresh.disturb}
  | .shutdown => some (lsmStartupDestroy page)

def machine : Machine StartupPage StartupEvent := ⟨sys.next⟩

end StartupSystem

/-! ### One worker of each kind -/

structure StartupPage.Kept (page : StartupPage) : Prop where
  refresh : page.refresh.readings.length ≤ 1
  actions : page.actions.length ≤ 1
  single : page.shuttingDown = false → page.refresh.Single ∧ page.actions.length = page.actionPending.toNat

theorem StartupPage.Kept.opened (disk : Disk) : ({disk} : StartupPage).Kept :=
  ⟨Nat.zero_le 1, Nat.zero_le 1, fun _ => ⟨rfl, rfl⟩⟩

theorem lsmStartupRefresh_kept {page : StartupPage} (h : page.Kept) : (lsmStartupRefresh page).Kept := by
  rw [lsmStartupRefresh]
  split
  · exact h
  · next hopen =>
    obtain ⟨hsingle, hactions⟩ := h.single (Bool.not_eq_true _ ▸ hopen)
    split
    · exact ⟨h.refresh, h.actions, fun _ => ⟨hsingle, hactions⟩⟩
    · next hidle =>
      have hstart : page.refresh.start.Single := hsingle.start (Bool.not_eq_true _ ▸ hidle)
      exact ⟨Nat.le_of_eq hstart, h.actions, fun _ => ⟨hstart, hactions⟩⟩

theorem startupToggle_kept {page : StartupPage} (h : page.Kept) (row : StartupRow) : (startupToggle page row).Kept := by
  rw [startupToggle]
  split
  · exact h
  · next hfree =>
    rw [Bool.or_eq_true, not_or, Bool.not_eq_true, Bool.not_eq_true] at hfree
    obtain ⟨hsingle, hactions⟩ := h.single hfree.1
    have hone (action : StartupAction) : (page.actions ++ [action]).length = 1 := by
      rw [List.length_append, hactions, hfree.2]
      rfl
    exact ⟨h.refresh, Nat.le_of_eq (hone _), fun _ => ⟨hsingle, hone _⟩⟩

theorem startupActionComplete_kept {page : StartupPage} {i : Nat} {result : StartupActionResult} (h : page.Kept)
    (hat : page.actions[i]? = some (.done result)) :
    (startupActionComplete {page with actions := page.actions.eraseIdx i} result).Kept := by
  obtain ⟨hone, rfl⟩ := eraseIdx_of_length_le_one h.actions hat
  rw [hone, startupActionComplete]
  split
  · next hclosed => exact ⟨h.refresh, Nat.zero_le 1, fun hopen => absurd (hclosed.symm.trans hopen) nofun⟩
  · have hnext : ({page with actions := [], actionPending := false} : StartupPage).Kept :=
      ⟨h.refresh, Nat.zero_le 1, fun hopen => ⟨(h.single hopen).1, rfl⟩⟩
    dsimp only
    split
    · exact ⟨hnext.refresh, hnext.actions, hnext.single⟩
    · exact lsmStartupRefresh_kept hnext

namespace StartupSystem
variable {sys : StartupSystem}

theorem refreshComplete_kept {page : StartupPage} {result : StartupInventory} {refresh : Flight StartupInventory}
    (h : page.Kept) (hnone : refresh.readings = []) (hidle : refresh.pending = false) :
    (sys.refreshComplete page result refresh).Kept := by
  have hlength : refresh.readings.length ≤ 1 := by rw [hnone]; exact Nat.zero_le 1
  have hsingle : refresh.Single := by rw [Flight.Single, hnone, hidle]; rfl
  rw [StartupSystem.refreshComplete]
  split
  · next hclosed => exact ⟨hlength, h.actions, fun hopen => by simp [hclosed] at hopen⟩
  · next hopen =>
    have hnext : ({page with
        refresh := {refresh with again := false}
        rows := (sys.present page.search result).1
        countLabel := (sys.present page.search result).2} : StartupPage).Kept :=
      ⟨hlength, h.actions, fun hopen => ⟨hsingle, (h.single hopen).2⟩⟩
    dsimp only
    split
    · exact lsmStartupRefresh_kept hnext
    · exact hnext

theorem next_kept {page after : StartupPage} {e : StartupEvent} (h : page.Kept) (hnext : sys.next page e = some after) :
    after.Kept := by
  cases e with
  | typed search =>
    cases hnext
    exact ⟨h.refresh, h.actions, h.single⟩
  | searchTimeout =>
    rw [next] at hnext
    split at hnext
    · cases hnext
      exact lsmStartupRefresh_kept ⟨h.refresh, h.actions, h.single⟩
    · cases hnext
  | refresh =>
    cases hnext
    exact lsmStartupRefresh_kept h
  | toggle row =>
    obtain ⟨row, -, rfl⟩ := Option.map_eq_some_iff.mp hnext
    exact startupToggle_kept h row
  | actionWorker i calls disk =>
    rw [next] at hnext
    split at hnext
    · cases hnext
      refine ⟨?_, ?_, fun hopen => ⟨(h.single hopen).1.disturb, ?_⟩⟩
      · exact (List.length_map ..).trans_le h.refresh
      · exact List.length_set.trans_le h.actions
      · exact List.length_set.trans (h.single hopen).2
    · cases hnext
  | actionComplete i =>
    rw [next] at hnext
    split at hnext
    · next hat =>
      cases hnext
      exact startupActionComplete_kept h hat
    · cases hnext
  | dialogClosed =>
    rw [next] at hnext
    split at hnext
    · cases hnext
      exact lsmStartupRefresh_kept ⟨h.refresh, h.actions, h.single⟩
    · cases hnext
  | collected i torn =>
    obtain ⟨refresh, hanswer, rfl⟩ := Option.map_eq_some_iff.mp hnext
    exact ⟨(Flight.answer_length hanswer).trans_le h.refresh, h.actions,
      fun hopen => ⟨(h.single hopen).1.answered hanswer, (h.single hopen).2⟩⟩
  | refreshComplete i =>
    obtain ⟨⟨result, refresh⟩, htake, rfl⟩ := Option.map_eq_some_iff.mp hnext
    obtain ⟨hnone, hidle⟩ := Flight.take_last h.refresh htake
    exact refreshComplete_kept h hnone hidle
  | changed disk =>
    cases hnext
    exact ⟨(List.length_map ..).trans_le h.refresh, h.actions,
      fun hopen => ⟨(h.single hopen).1.disturb, (h.single hopen).2⟩⟩
  | shutdown =>
    cases hnext
    exact ⟨h.refresh, h.actions, nofun⟩

end StartupSystem

/-! ### No request is lost -/

namespace StartupSystem
variable (sys : StartupSystem)

/-- What is on the disk is shown, filtered by some text: the one there is now, or the search has
changed and its timer is running. -/
def Shown (page : StartupPage) : Prop :=
  ∃ search, (page.rows, page.countLabel) = sys.present search (sys.collect page.disk) ∧
    (search = page.search ∨ page.searchTimer = true)

/-- What is on the disk is shown, or will be. -/
def Settles (page : StartupPage) : Prop :=
  page.shuttingDown = true ∨ page.actionPending = true ∨ 0 < page.dialogs ∨
    page.refresh.Due (sys.collect page.disk) ∨ page.refresh.pending = false ∧ sys.Shown page

variable {sys}

theorem Settles.refresh {page : StartupPage} (h : page.Kept) : sys.Settles (lsmStartupRefresh page) := by
  rw [lsmStartupRefresh]
  split
  · next hclosed => exact .inl hclosed
  · next hopen =>
    have hsingle : page.refresh.Single := (h.single (Bool.not_eq_true _ ▸ hopen)).1
    refine .inr (.inr (.inr (.inl ?_)))
    split
    · next hbusy => exact ⟨hbusy, .inl rfl⟩
    · next hidle => exact ⟨rfl, .inr (hsingle.start_coming (Bool.not_eq_true _ ▸ hidle) _)⟩

theorem Settles.refreshComplete {page : StartupPage} {i : Nat} {result : StartupInventory}
    {refresh : Flight StartupInventory} (hkept : page.Kept) (h : sys.Settles page)
    (htake : page.refresh.take i = some (result, refresh)) : sys.Settles (sys.refreshComplete page result refresh) := by
  obtain ⟨hnone, hidle⟩ := Flight.take_last hkept.refresh htake
  rw [StartupSystem.refreshComplete]
  split
  · next hclosed => exact .inl hclosed
  · next hopen =>
    have hsingle := (hkept.single (Bool.not_eq_true _ ▸ hopen)).1
    dsimp only
    split
    · refine Settles.refresh ⟨?_, hkept.actions, fun _ => ⟨?_, ?_⟩⟩
      · exact hnone ▸ Nat.zero_le 1
      · rw [Flight.Single, hnone, hidle]
        rfl
      · exact (hkept.single (Bool.not_eq_true _ ▸ hopen)).2
    · next hagain =>
      obtain ⟨hbusy, -, rfl⟩ := hsingle.take htake
      rcases h with h | h | h | ⟨-, h | h⟩ | ⟨h, -⟩
      · exact absurd h hopen
      · exact .inr (.inl h)
      · exact .inr (.inr (.inl h))
      · exact absurd h hagain
      · cases h.take hsingle htake
        exact .inr (.inr (.inr (.inr ⟨rfl, page.search, rfl, .inl rfl⟩)))
      · rw [hbusy] at h
        cases h

theorem Settles.toggle {page : StartupPage} (h : sys.Settles page) (row : StartupRow) :
    sys.Settles (startupToggle page row) := by
  rw [startupToggle]
  split
  · exact h
  · exact .inr (.inl rfl)

theorem Settles.actionComplete {page : StartupPage} {i : Nat} {result : StartupActionResult} (hkept : page.Kept)
    (hat : page.actions[i]? = some (.done result)) :
    sys.Settles (startupActionComplete {page with actions := page.actions.eraseIdx i} result) := by
  obtain ⟨hone, rfl⟩ := eraseIdx_of_length_le_one hkept.actions hat
  rw [hone, startupActionComplete]
  split
  · next hclosed => exact .inl hclosed
  · dsimp only
    split
    · exact .inr (.inr (.inl (Nat.succ_pos _)))
    · exact Settles.refresh ⟨hkept.refresh, Nat.zero_le 1, fun hopen => ⟨(hkept.single hopen).1, rfl⟩⟩

/-- A switch that is on its way is pending, unless the page has been closed. -/
theorem Settles.of_action {page : StartupPage} {i : Nat} {action : StartupAction} (hkept : page.Kept)
    (hat : page.actions[i]? = some action) : page.shuttingDown = true ∨ page.actionPending = true := by
  obtain ⟨hone, -⟩ := eraseIdx_of_length_le_one hkept.actions hat
  refine (Bool.eq_false_or_eq_true page.shuttingDown).imp id fun hopen => ?_
  have hactions := (hkept.single hopen).2
  rw [hone] at hactions
  exact Bool.toNat_eq_one.mp hactions.symm

theorem Settles.collected {page : StartupPage} {i : Nat} {torn : StartupInventory} {refresh : Flight StartupInventory}
    (hkept : page.Kept) (h : sys.Settles page)
    (hanswer : page.refresh.answer i (sys.collect page.disk) torn = some refresh) :
    sys.Settles {page with refresh} := by
  refine (Bool.eq_false_or_eq_true page.shuttingDown).elim .inl fun hopen => ?_
  have hsingle := (hkept.single hopen).1
  rcases h with h | h | h | h | ⟨h, -⟩
  · exact .inl h
  · exact .inr (.inl h)
  · exact .inr (.inr (.inl h))
  · exact .inr (.inr (.inr (.inl (h.answer hsingle hanswer))))
  · obtain ⟨hbusy, -⟩ := hsingle.answer hanswer
    rw [hbusy] at h
    cases h

theorem Settles.typed {page : StartupPage} (h : sys.Settles page) (search : Text) :
    sys.Settles {page with search, searchTimer := !page.shuttingDown} := by
  refine (Bool.eq_false_or_eq_true page.shuttingDown).elim .inl fun hopen => ?_
  refine .inr ((h.resolve_left (Bool.eq_false_iff.mp hopen)).imp id (.imp id (.imp id fun ⟨hidle, used, hshown, _⟩ => ?_)))
  exact ⟨hidle, used, hshown, .inr (by rw [hopen]; rfl)⟩

end StartupSystem

/-- The page has something to collect. -/
def StartupEvent.asks : StartupEvent → Bool
  | .searchTimeout | .refresh | .actionComplete _ | .dialogClosed => true
  | _ => false

def StartupEvent.foreign : StartupEvent → Bool
  | .changed _ => true
  | _ => false

namespace StartupSystem
variable {sys : StartupSystem}

theorem next_asks {page after : StartupPage} {e : StartupEvent} (hkept : page.Kept) (hasks : e.asks = true)
    (hnext : sys.next page e = some after) : sys.Settles after := by
  cases e with
  | searchTimeout =>
    rw [next] at hnext
    split at hnext
    · cases hnext
      exact Settles.refresh ⟨hkept.refresh, hkept.actions, hkept.single⟩
    · cases hnext
  | refresh =>
    cases hnext
    exact Settles.refresh hkept
  | actionComplete i =>
    rw [next] at hnext
    split at hnext
    · next hat =>
      cases hnext
      exact Settles.actionComplete hkept hat
    · cases hnext
  | dialogClosed =>
    rw [next] at hnext
    split at hnext
    · cases hnext
      exact Settles.refresh ⟨hkept.refresh, hkept.actions, hkept.single⟩
    · cases hnext
  | _ => cases hasks

theorem next_settles {page after : StartupPage} {e : StartupEvent} (hkept : page.Kept) (h : sys.Settles page)
    (hown : e.foreign = false) (hnext : sys.next page e = some after) : sys.Settles after := by
  cases e with
  | searchTimeout | refresh | actionComplete | dialogClosed => exact next_asks hkept rfl hnext
  | typed search =>
    cases hnext
    exact h.typed search
  | toggle row =>
    obtain ⟨row, -, rfl⟩ := Option.map_eq_some_iff.mp hnext
    exact h.toggle row
  | actionWorker i calls disk =>
    rw [next] at hnext
    split at hnext
    · next hat =>
      cases hnext
      exact (Settles.of_action hkept hat).imp id .inl
    · cases hnext
  | collected i torn =>
    obtain ⟨refresh, hanswer, rfl⟩ := Option.map_eq_some_iff.mp hnext
    exact h.collected hkept hanswer
  | refreshComplete i =>
    obtain ⟨⟨result, refresh⟩, htake, rfl⟩ := Option.map_eq_some_iff.mp hnext
    exact h.refreshComplete hkept htake
  | changed disk => cases hown
  | shutdown =>
    cases hnext
    exact .inl rfl

theorem run_kept {page after : StartupPage} {events : List StartupEvent} (hkept : page.Kept)
    (hrun : sys.machine.run page events = some after) : after.Kept :=
  sys.machine.run_preserves StartupPage.Kept (fun _ _ _ h hnext => next_kept h hnext) hkept hrun

theorem run_settles {page after : StartupPage} {events : List StartupEvent} (hkept : page.Kept) (h : sys.Settles page)
    (hown : ∀ e ∈ events, e.foreign = false) (hrun : sys.machine.run page events = some after) : sys.Settles after :=
  (sys.machine.run_invariant (fun _ e => e.foreign = false) (fun page => page.Kept ∧ sys.Settles page)
    (fun _ _ _ h hown hnext => ⟨next_kept h.1 hnext, next_settles h.1 h.2 hown hnext⟩) ⟨hkept, h⟩
    (sys.machine.admissible_of_forall (fun e he _ => hown e he) page) hrun).2

end StartupSystem

/-- Nothing is under way. -/
structure StartupPage.Idle (page : StartupPage) : Prop where
  timer : page.searchTimer = false
  refresh : page.refresh.pending = false
  action : page.actionPending = false
  dialogs : page.dialogs = 0
  opened : page.shuttingDown = false

/-- **No request is lost.** In every run there is at most one worker of each kind; and when nobody else
changes the files after the last request, and nothing is under way any more, the page shows what is on the
disk, filtered by what the search says now. -/
theorem startup_page (sys : StartupSystem) (disk : Disk) (before : List StartupEvent) (page : StartupPage)
    (hbefore : sys.machine.run {disk} before = some page) :
    (page.refresh.readings.length ≤ 1 ∧ page.actions.length ≤ 1) ∧
      ∀ e after settled, e.asks = true → (∀ a ∈ after, a.foreign = false) →
        sys.machine.run page (e :: after) = some settled → settled.Idle →
        (settled.rows, settled.countLabel) = sys.present settled.search (sys.collect settled.disk) := by
  have hkept : page.Kept := StartupSystem.run_kept (.opened disk) hbefore
  refine ⟨⟨hkept.refresh, hkept.actions⟩, fun e after settled hasks hown hrun hidle => ?_⟩
  obtain ⟨asked, hnext, hrun⟩ := sys.machine.run_cons hrun
  have hsettles : sys.Settles settled := StartupSystem.run_settles (StartupSystem.next_kept hkept hnext)
    (StartupSystem.next_asks hkept hasks hnext) hown hrun
  rcases hsettles with h | h | h | h | ⟨-, search, hshown, hsearch⟩
  · rw [hidle.opened] at h
    cases h
  · rw [hidle.action] at h
    cases h
  · rw [hidle.dialogs] at h
    exact absurd h (Nat.lt_irrefl 0)
  · rw [Flight.Due, hidle.refresh] at h
    exact absurd h.1 nofun
  · rw [hidle.timer] at hsearch
    rw [hshown, hsearch.resolve_right nofun]

/-! ### The system's application switched off -/

def documentedSystem : StartupSystem where
  lib := .documented
  session := emptySession
  env := userEnvironment
  keyFiles := .documented
  casefold := id

/-- The disk with the user's own file, which switches the application off. -/
def switchedDisk : Disk := systemDisk.override .documented (ascii "/h/autostart") (ascii "a.desktop") switchedOff.data systemName_plain

/-- The page is entered, and the entry is switched off while the page is refreshed. -/
def switching : List StartupEvent :=
  [.refresh, .collected 0 none, .refreshComplete 0, .toggle 0, .refresh, .actionWorker 0 noFailures switchedDisk]

/-- The collection that was under way is torn; the switch asks for another one. -/
def switched : List StartupEvent :=
  [.typed (ascii "a"), .collected 0 none, .refreshComplete 0, .collected 0 none, .refreshComplete 0,
    .searchTimeout, .collected 0 none, .refreshComplete 0]

theorem startup_page_switched : ∃ page settled, documentedSystem.machine.run {disk := systemDisk} switching = some page ∧
    documentedSystem.machine.run page (.actionComplete 0 :: switched) = some settled ∧
    (settled.rows, settled.countLabel) = documentedSystem.present (ascii "a") (documentedSystem.collect switchedDisk) :=
  ⟨_, _, rfl, rfl, (startup_page documentedSystem systemDisk switching _ rfl).2 (.actionComplete 0) switched _ rfl
    (by decide) rfl ⟨rfl, rfl, rfl, rfl, rfl⟩⟩

end SystemMonitor.Pages
