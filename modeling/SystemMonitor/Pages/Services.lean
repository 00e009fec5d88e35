import SystemMonitor.Lib.Last
import SystemMonitor.Lib.Machine
import SystemMonitor.Lib.SingleFlight
import SystemMonitor.Pages.Rows
import SystemMonitor.Services.Inventory

/-! The Services page.

The services are collected by one worker; a request that comes while it is at work is dropped, also
the one of an action that has been carried out. `services_page`: the rows are those of the last
collection that came back, and no change of the search is lost, although the request that it makes may
be. What a collection shows is what the system says when it was started with the last change. -/
namespace SystemMonitor.Pages
open Lib CStrings SingleFlight
open Services (LsmServiceEntry Replies lsmServiceBackendCollect)

/-! ### What the page shows -/

/-- The columns of a row. -/
structure ServiceRow where
  name : Text
  description : Text
  status : Text
  substate : Text
  startup : Text
  active : Text
  deriving DecidableEq

def serviceRow (entry : LsmServiceEntry) : ServiceRow where
  name := entry.name.text
  description := entry.description.text
  status := entry.active.text
  substate := entry.substate.text
  startup := entry.startup.text
  active := entry.active.text

def servicesUnavailable (errorMessage : Text) : ServiceRow where
  name := ascii "systemd services unavailable"
  description := errorMessage
  status := ascii "Unavailable"
  substate := []
  startup := []
  active := []

def serviceMatches (casefold : Text → Text) (search : Text) (entry : LsmServiceEntry) : Bool :=
  search = [] || lsmUiTextMatches casefold entry.name.text search ||
    lsmUiTextMatches casefold entry.description.text search || lsmUiTextMatches casefold entry.active.text search ||
    lsmUiTextMatches casefold entry.startup.text search

abbrev ServiceInventory := Except Text (List LsmServiceEntry)

/-- The rows and the label for a collection. -/
def applyServiceRefresh (casefold : Text → Text) (search : Text) : ServiceInventory → List ServiceRow × Text
  | .error message => ([servicesUnavailable message], ascii "Service manager unavailable")
  | .ok entries =>
    let visible := entries.filter (serviceMatches casefold search)
    (visible.map serviceRow,
      Decimal.print visible.length ++ ascii " service" ++ if visible.length = 1 then [] else ascii "s")

/-! ### The page -/

inductive LsmServiceAction where
  | start
  | stop
  | restart
  | enable
  | disable

def lsmServiceBackendStateIsEnabled (state : Text) : Bool :=
  (ascii "enabled").isPrefixOf state || (ascii "linked").isPrefixOf state || state = ascii "alias"

structure ServiceActionResult where
  name : Text
  action : LsmServiceAction
  errorMessage : Option Text := none

inductive ServiceTask where
  | queued (result : ServiceActionResult)
  | done (result : ServiceActionResult)

structure ServicesPage where
  /-- What the bus would answer. -/
  replies : Replies
  search : Text := []
  /-- `services_search_timer`: the search has changed and is not used yet. -/
  searchTimer : Bool := false
  rows : List ServiceRow := []
  countLabel : Text := ascii "Select the Services tab to load services"
  refresh : Flight ServiceInventory := {}
  actionPending : Nat := 0
  tasks : List ServiceTask := []
  /-- Failed actions that are being reported. -/
  dialogs : Nat := 0
  shuttingDown : Bool := false

def lsmServicesRefresh (page : ServicesPage) : ServicesPage :=
  if page.shuttingDown || page.refresh.pending then page
  else {page with refresh := page.refresh.start, countLabel := ascii "Refreshing services" ++ ellipsis}

def performServiceAction (page : ServicesPage) (name : Text) (action : LsmServiceAction) : ServicesPage :=
  if name = [] || page.shuttingDown then page
  else {page with actionPending := page.actionPending + 1, tasks := page.tasks ++ [.queued {name, action}]}

inductive ServiceButton where
  | start
  | stop
  | restart
  | enable

/-- What a button does with the selected row. -/
def ServiceButton.action (row : ServiceRow) : ServiceButton → LsmServiceAction
  | .start => .start
  | .stop => .stop
  | .restart => .restart
  | .enable => if lsmServiceBackendStateIsEnabled row.startup then .disable else .enable

/-- The application is not found from the store any more when it has been shut down. -/
def serviceActionComplete (page : ServicesPage) (result : ServiceActionResult) : ServicesPage :=
  if page.shuttingDown then page
  else
    let page := {page with actionPending := page.actionPending - 1}
    match result.errorMessage with
    | some _ => {page with dialogs := page.dialogs + 1}
    | none => lsmServicesRefresh page

/-- With the application shut down. -/
def lsmServicesDestroy (page : ServicesPage) : ServicesPage :=
  {page with
    searchTimer := false
    refresh.pending := false
    actionPending := 0
    shuttingDown := true}

structure ServiceSystem where
  lib : Services.Library
  casefold : Text → Text
  /-- The message of a collection that fails. -/
  errorMessage : Replies → Text

/-- `actionWorker`: with what the bus answers afterwards, and the message of a failure. `collected`: with what a
worker has read of services that changed under it. `changed`: by somebody else. -/
inductive ServicesEvent where
  | typed (search : Text)
  | searchTimeout
  | refresh
  | button (row : Nat) (button : ServiceButton)
  | actionWorker (task : Nat) (errorMessage : Option Text) (replies : Replies)
  | actionComplete (task : Nat)
  | dialogClosed
  | collected (reading : Nat) (torn : ServiceInventory)
  | refreshComplete (reading : Nat)
  | changed (replies : Replies)
  | shutdown

namespace ServiceSystem
variable (sys : ServiceSystem)

def collect (replies : Replies) : ServiceInventory :=
  match lsmServiceBackendCollect sys.lib replies with
  | some entries => .ok entries
  | none => .error (sys.errorMessage replies)

def present (search : Text) (inventory : ServiceInventory) : List ServiceRow × Text :=
  applyServiceRefresh sys.casefold search inventory

/-- `refresh`: the flags, with the pending one cleared. -/
def refreshComplete (page : ServicesPage) (result : ServiceInventory) (refresh : Flight ServiceInventory) : ServicesPage :=
  if page.shuttingDown then {page with refresh}
  else
    let shown := sys.present page.search result
    {page with refresh, rows := shown.1, countLabel := shown.2}

def next (page : ServicesPage) : ServicesEvent → Option ServicesPage
  | .typed search => some {page with search, searchTimer := !page.shuttingDown}
  | .searchTimeout => if page.searchTimer then some (lsmServicesRefresh {page with searchTimer := false}) else none
  | .refresh => some (lsmServicesRefresh page)
  | .button row button => (page.rows[row]?).map fun row => performServiceAction page row.name (button.action row)
  | .actionWorker i errorMessage replies =>
    match page.tasks[i]? with
    | some (.queued result) =>
      some {page with
        replies
        refresh := page.refresh.disturb
        tasks := page.tasks.set i (.done {result with errorMessage})}
    | _ => none
  | .actionComplete i =>
    match page.tasks[i]? with
    | some (.done result) => some (serviceActionComplete {page with tasks := page.tasks.eraseIdx i} result)
    | _ => none
  | .dialogClosed => if 0 < page.dialogs then some {page with dialogs := page.dialogs - 1} else none
  | .collected i torn =>
    (page.refresh.answer i (sys.collect page.replies) torn).map fun refresh => {page with refresh}
  | .refreshComplete i => (page.refresh.take i).map fun taken => sys.refreshComplete page taken.1 taken.2
  | .changed replies => some {page with replies, refresh := page.refresh.disturb}
  | .shutdown => some (lsmServicesDestroy page)

def machine : Machine ServicesPage ServicesEvent := ⟨sys.next⟩

end ServiceSystem

/-- What comes back to the page. -/
def ServicesPage.returned (page : ServicesPage) : ServicesEvent → List ServiceInventory
  | .refreshComplete i => if page.shuttingDown then [] else ((page.refresh.take i).map Prod.fst).toList
  | _ => []

/-! ### What is shown came back last -/

namespace ServiceSystem
variable (sys : ServiceSystem)

/-- The rows and the label are those of a collection, for some text: the search as it is now, or the timer of its
change is running. -/
def Shown (inventory : ServiceInventory) (page : ServicesPage) : Prop :=
  ∃ search, (page.rows, page.countLabel) = sys.present search inventory ∧
    (search = page.search ∨ page.searchTimer = true)

/-- Of an open page, with what has come back to it. -/
structure Open (log : List ServiceInventory) (page : ServicesPage) : Prop where
  single : page.refresh.Single
  tasks : page.tasks.length = page.actionPending
  shown : page.refresh.pending = false → ∀ inventory, lastOf some log = some inventory → sys.Shown inventory page

structure Kept (log : List ServiceInventory) (page : ServicesPage) : Prop where
  readings : page.refresh.readings.length ≤ 1
  opened : page.shuttingDown = false → sys.Open log page

variable {sys}

theorem Kept.start (replies : Replies) : sys.Kept [] {replies} :=
  ⟨Nat.zero_le 1, fun _ => ⟨rfl, rfl, fun _ _ h => nomatch h⟩⟩

theorem Kept.of_open {log : List ServiceInventory} {page : ServicesPage} (h : sys.Open log page) : sys.Kept log page :=
  ⟨h.single.length_le, fun _ => h⟩

/-- A request that starts a collection, or is dropped; one that is dropped leaves what is shown. -/
theorem lsmServicesRefresh_open {log : List ServiceInventory} {page : ServicesPage} (hsingle : page.refresh.Single)
    (htasks : page.tasks.length = page.actionPending) : sys.Open log (lsmServicesRefresh page) ∨ page.shuttingDown = true := by
  rw [lsmServicesRefresh]
  cases hopen : page.shuttingDown with
  | true => exact .inr rfl
  | false =>
    refine .inl ?_
    cases hbusy : page.refresh.pending with
    | true => exact ⟨hsingle, htasks, fun hidle => absurd (hbusy.symm.trans hidle) nofun⟩
    | false => exact ⟨hsingle.start hbusy, htasks, nofun⟩

theorem lsmServicesRefresh_shuttingDown (page : ServicesPage) : (lsmServicesRefresh page).shuttingDown = page.shuttingDown := by
  rw [lsmServicesRefresh]
  split
  · rfl
  · rfl

theorem lsmServicesRefresh_readings {page : ServicesPage} (h : page.refresh.readings.length ≤ 1)
    (hsingle : page.shuttingDown = false → page.refresh.Single) : (lsmServicesRefresh page).refresh.readings.length ≤ 1 := by
  rw [lsmServicesRefresh]
  split
  · exact h
  · next hfree =>
    rw [Bool.or_eq_true, not_or, Bool.not_eq_true, Bool.not_eq_true] at hfree
    exact ((hsingle hfree.1).start hfree.2).length_le

theorem Kept.refresh {log : List ServiceInventory} {page : ServicesPage} (h : page.refresh.readings.length ≤ 1)
    (hopen : page.shuttingDown = false → page.refresh.Single ∧ page.tasks.length = page.actionPending) :
    sys.Kept log (lsmServicesRefresh page) := by
  refine ⟨lsmServicesRefresh_readings h fun h => (hopen h).1, fun hnow => ?_⟩
  rw [lsmServicesRefresh_shuttingDown] at hnow
  obtain ⟨hsingle, htasks⟩ := hopen hnow
  exact (lsmServicesRefresh_open hsingle htasks).resolve_right (Bool.eq_false_iff.mp hnow)

theorem Open.unchanged {log : List ServiceInventory} {page after : ServicesPage} (h : sys.Open log page)
    (hrefresh : after.refresh = page.refresh) (htasks : after.tasks.length = after.actionPending)
    (hshown : ∀ inventory, sys.Shown inventory page → sys.Shown inventory after) : sys.Open log after where
  single := by
    rw [hrefresh]
    exact h.single
  tasks := htasks
  shown hidle inventory hlast := hshown inventory (h.shown (hrefresh ▸ hidle) inventory hlast)

theorem performServiceAction_kept {log : List ServiceInventory} {page : ServicesPage} (h : sys.Kept log page) (name : Text)
    (action : LsmServiceAction) : sys.Kept log (performServiceAction page name action) := by
  rw [performServiceAction]
  split
  · exact h
  · refine ⟨h.readings, fun hopen => (h.opened hopen).unchanged rfl ?_ fun _ hshown => hshown⟩
    rw [List.length_append, (h.opened hopen).tasks]
    rfl

theorem serviceActionComplete_kept {log : List ServiceInventory} {page : ServicesPage} {i : Nat} {result : ServiceActionResult}
    (h : sys.Kept log page) (hat : page.tasks[i]? = some (.done result)) :
    sys.Kept log (serviceActionComplete {page with tasks := page.tasks.eraseIdx i} result) := by
  have htasks : page.shuttingDown = false → (page.tasks.eraseIdx i).length = page.actionPending - 1 := fun hopen => by
    rw [List.length_eraseIdx_of_lt (List.getElem?_eq_some_iff.mp hat).1, (h.opened hopen).tasks]
  rw [serviceActionComplete]
  split
  · next hclosed => exact ⟨h.readings, fun hopen => absurd (hclosed.symm.trans hopen) nofun⟩
  · next hopen =>
    dsimp only
    split
    · exact ⟨h.readings, fun hopen => (h.opened hopen).unchanged rfl (htasks hopen) fun _ hshown => hshown⟩
    · exact Kept.refresh h.readings fun hopen => ⟨(h.opened hopen).single, htasks hopen⟩

theorem refreshComplete_kept {log : List ServiceInventory} {page : ServicesPage} {i : Nat} {result : ServiceInventory}
    {refresh : Flight ServiceInventory} (h : sys.Kept log page) (htake : page.refresh.take i = some (result, refresh)) :
    sys.Kept (log ++ page.returned (.refreshComplete i)) (sys.refreshComplete page result refresh) := by
  obtain ⟨hnone, hidle⟩ := Flight.take_last h.readings htake
  have hlength : refresh.readings.length ≤ 1 := by rw [hnone]; exact Nat.zero_le 1
  rw [ServicesPage.returned, refreshComplete, htake]
  cases hopen : page.shuttingDown with
  | true => exact ⟨hlength, fun hnow => by simp at hnow⟩
  | false =>
    refine Kept.of_open ⟨?_, (h.opened hopen).tasks, fun _ inventory hlast => ⟨page.search, ?_, .inl rfl⟩⟩
    · show refresh.Single
      rw [Flight.Single, hnone, hidle]
      rfl
    · rw [if_neg Bool.false_ne_true, Option.map_some, Option.toList_some, lastOf_concat] at hlast
      cases hlast
      rfl

theorem next_kept {log : List ServiceInventory} {page after : ServicesPage} {e : ServicesEvent} (h : sys.Kept log page)
    (hnext : sys.next page e = some after) : sys.Kept (log ++ page.returned e) after := by
  have hlog : ∀ {after : ServicesPage}, sys.Kept log after → sys.Kept (log ++ []) after := fun hafter => by
    rwa [List.append_nil]
  cases e with
  | typed search =>
    cases hnext
    refine hlog ⟨h.readings, fun hopen => (h.opened hopen).unchanged rfl (h.opened hopen).tasks ?_⟩
    intro inventory ⟨used, hused, _⟩
    exact ⟨used, hused, .inr (by rw [show page.shuttingDown = false from hopen]; rfl)⟩
  | searchTimeout =>
    rw [next] at hnext
    split at hnext
    · cases hnext
      exact hlog (Kept.refresh h.readings fun hopen => ⟨(h.opened hopen).single, (h.opened hopen).tasks⟩)
    · cases hnext
  | refresh =>
    cases hnext
    exact hlog (Kept.refresh h.readings fun hopen => ⟨(h.opened hopen).single, (h.opened hopen).tasks⟩)
  | button row button =>
    obtain ⟨row, -, rfl⟩ := Option.map_eq_some_iff.mp hnext
    exact hlog (performServiceAction_kept h _ _)
  | actionWorker i errorMessage replies =>
    rw [next] at hnext
    split at hnext
    · cases hnext
      refine hlog ⟨(List.length_map ..).trans_le h.readings, fun hopen => ?_⟩
      have hpage := h.opened hopen
      exact ⟨hpage.single.disturb, List.length_set.trans hpage.tasks, hpage.shown⟩
    · cases hnext
  | actionComplete i =>
    rw [next] at hnext
    split at hnext
    · next hat =>
      cases hnext
      exact hlog (serviceActionComplete_kept h hat)
    · cases hnext
  | dialogClosed =>
    rw [next] at hnext
    split at hnext
    · cases hnext
      exact hlog ⟨h.readings, fun hopen => (h.opened hopen).unchanged rfl (h.opened hopen).tasks fun _ hshown => hshown⟩
    · cases hnext
  | collected i torn =>
    obtain ⟨refresh, hanswer, rfl⟩ := Option.map_eq_some_iff.mp hnext
    refine hlog ⟨(Flight.answer_length hanswer).trans_le h.readings, fun hopen => ?_⟩
    have hpage := h.opened hopen
    obtain ⟨hbusy, _, _, rfl⟩ := hpage.single.answer hanswer
    exact ⟨hpage.single.answered hanswer, hpage.tasks, fun hidle => absurd (hbusy.symm.trans hidle) nofun⟩
  | refreshComplete i =>
    obtain ⟨⟨result, refresh⟩, htake, rfl⟩ := Option.map_eq_some_iff.mp hnext
    exact refreshComplete_kept h htake
  | changed replies =>
    cases hnext
    refine hlog ⟨(List.length_map ..).trans_le h.readings, fun hopen => ?_⟩
    have hpage := h.opened hopen
    exact ⟨hpage.single.disturb, hpage.tasks, hpage.shown⟩
  | shutdown =>
    cases hnext
    exact hlog ⟨h.readings, nofun⟩

theorem run_kept {log : List ServiceInventory} {page after : ServicesPage} {events : List ServicesEvent}
    (h : sys.Kept log page) (hrun : sys.machine.run page events = some after) :
    sys.Kept (log ++ sys.machine.trace ServicesPage.returned page events) after :=
  sys.machine.run_trace_invariant ServicesPage.returned (fun _ _ => True) sys.Kept
    (fun _ _ _ _ h _ hnext => next_kept h hnext) h (sys.machine.admissible_true page events) hrun

/-! ### A collection that nothing disturbs -/

variable (sys) in
/-- What the system says is shown, or is on its way. -/
def Settles (page : ServicesPage) : Prop :=
  page.shuttingDown = true ∨ page.refresh.pending = true ∧ page.refresh.Coming (sys.collect page.replies) ∨
    page.refresh.pending = false ∧ sys.Shown (sys.collect page.replies) page

/-- A request is dropped, or starts a collection. -/
theorem Settles.refresh {page : ServicesPage} (hopen : page.shuttingDown = false → page.refresh.Single)
    (h : page.shuttingDown = true ∨ page.refresh.pending = true → sys.Settles page) : sys.Settles (lsmServicesRefresh page) := by
  rw [lsmServicesRefresh]
  split
  · next hdropped =>
    rw [Bool.or_eq_true] at hdropped
    exact h hdropped
  · next hfree =>
    rw [Bool.or_eq_true, not_or, Bool.not_eq_true, Bool.not_eq_true] at hfree
    exact .inr (.inl ⟨rfl, (hopen hfree.1).start_coming hfree.2 _⟩)

theorem Settles.start {page : ServicesPage} (hopen : page.shuttingDown = false → page.refresh.Single)
    (hfree : page.refresh.pending = false) : sys.Settles (lsmServicesRefresh page) := by
  cases hclosed : page.shuttingDown with
  | true => exact .inl ((lsmServicesRefresh_shuttingDown page).trans hclosed)
  | false =>
    rw [lsmServicesRefresh, hclosed, hfree]
    exact .inr (.inl ⟨rfl, (hopen hclosed).start_coming hfree _⟩)

/-- A collection is started by a request only. -/
theorem next_starts {log : List ServiceInventory} {page after : ServicesPage} {e : ServicesEvent} (hkept : sys.Kept log page)
    (hfree : page.refresh.pending = false) (hnext : sys.next page e = some after) (hbusy : after.refresh.pending = true) :
    sys.Settles after := by
  have hsingle : page.shuttingDown = false → page.refresh.Single := fun hopen => (hkept.opened hopen).single
  have hsame : after.refresh.pending = page.refresh.pending → sys.Settles after := fun hsame =>
    absurd (hbusy.symm.trans (hsame.trans hfree)) nofun
  cases e with
  | typed search | changed replies =>
    cases hnext
    exact hsame rfl
  | shutdown =>
    cases hnext
    cases hbusy
  | refresh =>
    cases hnext
    exact Settles.start hsingle hfree
  | searchTimeout =>
    rw [next] at hnext
    split at hnext
    · cases hnext
      exact Settles.start hsingle hfree
    · cases hnext
  | button row button =>
    obtain ⟨row, -, rfl⟩ := Option.map_eq_some_iff.mp hnext
    refine hsame ?_
    rw [performServiceAction]
    split
    · rfl
    · rfl
  | actionWorker i errorMessage replies =>
    rw [next] at hnext
    split at hnext
    · cases hnext
      exact hsame rfl
    · cases hnext
  | actionComplete i =>
    rw [next] at hnext
    split at hnext
    · next result _ =>
      cases hnext
      rw [serviceActionComplete] at hbusy ⊢
      split
      · next hclosed => exact .inl hclosed
      · next hopen =>
        rw [if_neg hopen] at hbusy
        dsimp only at hbusy ⊢
        cases herror : result.errorMessage with
        | some message =>
          rw [herror] at hbusy
          exact absurd (hbusy.symm.trans hfree) nofun
        | none => exact Settles.start hsingle hfree
    · cases hnext
  | dialogClosed =>
    rw [next] at hnext
    split at hnext
    · cases hnext
      exact hsame rfl
    · cases hnext
  | collected i torn =>
    obtain ⟨refresh, hanswer, rfl⟩ := Option.map_eq_some_iff.mp hnext
    refine (Bool.eq_false_or_eq_true page.shuttingDown).elim .inl fun hopen => ?_
    obtain ⟨-, _, _, rfl⟩ := (hsingle hopen).answer hanswer
    exact hsame rfl
  | refreshComplete i =>
    obtain ⟨⟨result, refresh⟩, htake, rfl⟩ := Option.map_eq_some_iff.mp hnext
    have hidle := (Flight.take_last hkept.readings htake).2
    rw [refreshComplete] at hbusy
    split at hbusy
    · exact absurd (hbusy.symm.trans hidle) nofun
    · exact absurd (hbusy.symm.trans hidle) nofun

end ServiceSystem

/-- Nobody changes the services. -/
def ServicesEvent.steady : ServicesEvent → Bool
  | .actionWorker .. | .changed _ => false
  | _ => true

namespace ServiceSystem
variable {sys : ServiceSystem}

theorem Settles.busy {page after : ServicesPage} (h : sys.Settles page) (hbusy : page.shuttingDown = true ∨ page.refresh.pending = true)
    (hclosed : after.shuttingDown = page.shuttingDown) (hrefresh : after.refresh = page.refresh)
    (hreplies : after.replies = page.replies) : sys.Settles after := by
  rcases h with h | h | ⟨hidle, -⟩
  · exact .inl (hclosed.trans h)
  · exact .inr (.inl (by rwa [hrefresh, hreplies]))
  · exact .inl (hclosed.trans (hbusy.resolve_right (Bool.eq_false_iff.mp hidle)))

theorem next_settles {log : List ServiceInventory} {page after : ServicesPage} {e : ServicesEvent} (hkept : sys.Kept log page)
    (h : sys.Settles page) (hsteady : e.steady = true) (hnext : sys.next page e = some after) : sys.Settles after := by
  have hsingle : page.shuttingDown = false → page.refresh.Single := fun hopen => (hkept.opened hopen).single
  cases e with
  | typed search =>
    cases hnext
    refine (Bool.eq_false_or_eq_true page.shuttingDown).elim .inl fun hopen => .inr ?_
    refine (h.resolve_left (Bool.eq_false_iff.mp hopen)).imp id fun ⟨hidle, used, hused, _⟩ => ?_
    exact ⟨hidle, used, hused, .inr (by rw [hopen]; rfl)⟩
  | searchTimeout =>
    rw [next] at hnext
    split at hnext
    · cases hnext
      exact Settles.refresh hsingle fun hbusy => h.busy hbusy rfl rfl rfl
    · cases hnext
  | refresh =>
    cases hnext
    exact Settles.refresh hsingle fun _ => h
  | button row button =>
    obtain ⟨row, -, rfl⟩ := Option.map_eq_some_iff.mp hnext
    rw [performServiceAction]
    split
    · exact h
    · exact h
  | actionWorker i errorMessage replies => cases hsteady
  | actionComplete i =>
    rw [next] at hnext
    split at hnext
    · cases hnext
      rw [serviceActionComplete]
      split
      · next hclosed => exact .inl hclosed
      · dsimp only
        split
        · exact h
        · exact Settles.refresh hsingle fun hbusy => h.busy hbusy rfl rfl rfl
    · cases hnext
  | dialogClosed =>
    rw [next] at hnext
    split at hnext
    · cases hnext
      exact h
    · cases hnext
  | collected i torn =>
    obtain ⟨refresh, hanswer, rfl⟩ := Option.map_eq_some_iff.mp hnext
    refine (Bool.eq_false_or_eq_true page.shuttingDown).elim .inl fun hopen => .inr ?_
    rcases h.resolve_left (Bool.eq_false_iff.mp hopen) with ⟨hbusy, hcoming⟩ | ⟨hidle, -⟩
    · have hafter := hcoming.answer (hsingle hopen) hanswer
      obtain ⟨-, _, _, rfl⟩ := (hsingle hopen).answer hanswer
      exact .inl ⟨hbusy, hafter⟩
    · obtain ⟨hbusy, -⟩ := (hsingle hopen).answer hanswer
      exact absurd (hbusy.symm.trans hidle) nofun
  | refreshComplete i =>
    obtain ⟨⟨result, refresh⟩, htake, rfl⟩ := Option.map_eq_some_iff.mp hnext
    rw [refreshComplete]
    cases hopen : page.shuttingDown with
    | true => exact .inl rfl
    | false =>
      obtain ⟨hbusy, -, rfl⟩ := (hsingle hopen).take htake
      rcases h.resolve_left (Bool.eq_false_iff.mp hopen) with ⟨-, hcoming⟩ | ⟨hidle, -⟩
      · cases hcoming.take (hsingle hopen) htake
        exact .inr (.inr ⟨rfl, page.search, rfl, .inl rfl⟩)
      · exact absurd (hbusy.symm.trans hidle) nofun
  | changed replies => cases hsteady
  | shutdown =>
    cases hnext
    exact .inl rfl

theorem run_settles {log : List ServiceInventory} {page after : ServicesPage} {events : List ServicesEvent}
    (hkept : sys.Kept log page) (h : sys.Settles page) (hsteady : ∀ e ∈ events, e.steady = true)
    (hrun : sys.machine.run page events = some after) : sys.Settles after :=
  (sys.machine.run_trace_invariant ServicesPage.returned (fun _ e => e.steady = true)
    (fun log page => sys.Kept log page ∧ sys.Settles page)
    (fun _ _ _ _ h hsteady hnext => ⟨next_kept h.1 hnext, next_settles h.1 h.2 hsteady hnext⟩) ⟨hkept, h⟩
    (sys.machine.admissible_of_forall (fun e he _ => hsteady e he) page) hrun).2

end ServiceSystem

/-- **The page shows what came back last, for the search as it is.** In every run there is at most one worker, and
as many actions are under way as are counted. When no collection is pending and the search has rested, the open
page shows the last collection that came back, for the search of this moment: a request that was dropped has lost
nothing of it. And when a collection is started and nobody changes the services until the page rests, it shows the
services as they are. -/
theorem services_page (sys : ServiceSystem) (replies : Replies) (before : List ServicesEvent) (page : ServicesPage)
    (hbefore : sys.machine.run {replies} before = some page) :
    page.refresh.readings.length ≤ 1 ∧
    (page.shuttingDown = false →
      page.tasks.length = page.actionPending ∧
      (page.refresh.pending = false → page.searchTimer = false → ∀ inventory,
        lastOf some (sys.machine.trace ServicesPage.returned {replies} before) = some inventory →
          (page.rows, page.countLabel) = sys.present page.search inventory)) ∧
    ∀ e asked after settled, sys.machine.run page [e] = some asked →
      page.refresh.pending = false → asked.refresh.pending = true → (∀ e ∈ after, e.steady = true) →
      sys.machine.run asked after = some settled →
      settled.shuttingDown = false → settled.refresh.pending = false → settled.searchTimer = false →
        (settled.rows, settled.countLabel) = sys.present settled.search (sys.collect settled.replies) := by
  have hkept := ServiceSystem.run_kept (.start replies) hbefore
  rw [List.nil_append] at hkept
  refine ⟨hkept.readings, fun hopen => ⟨(hkept.opened hopen).tasks, fun hidle hrested inventory hlast => ?_⟩,
    fun e asked after settled hasked hfree hbusy hsteady hrun hopen hidle hrested => ?_⟩
  · obtain ⟨search, hshown, hsearch⟩ := (hkept.opened hopen).shown hidle inventory hlast
    rw [hshown, hsearch.resolve_right (Bool.eq_false_iff.mp hrested)]
  · obtain ⟨_, hnext, hend⟩ := sys.machine.run_cons hasked
    cases hend
    have hstarted := ServiceSystem.next_starts hkept hfree hnext hbusy
    rcases ServiceSystem.run_settles (ServiceSystem.next_kept hkept hnext) hstarted hsteady hrun
      with h | ⟨h, -⟩ | ⟨-, search, hshown, hsearch⟩
    · rw [hopen] at h
      cases h
    · rw [hidle] at h
      cases h
    · rw [hshown, hsearch.resolve_right (Bool.eq_false_iff.mp hrested)]

/-! ### A service that is stopped while the page is searched -/

def documentedServices : ServiceSystem where
  lib := .documented
  casefold := id
  errorMessage _ := ascii "Timeout was reached"

/-- A web server with its unit file, as it is now. -/
def webServer (active substate : Text) : Replies where
  units := some [⟨ascii "nginx.service", ascii "web server", active, substate⟩]
  unitFiles := some [⟨ascii "/usr/lib/systemd/system/nginx.service", ascii "enabled"⟩]

/-- The page is entered; the server is stopped while the search is changed. -/
def stopping : List ServicesEvent :=
  [.refresh, .collected 0 (.ok []), .refreshComplete 0, .button 0 .stop, .typed (ascii "web"),
    .actionWorker 0 none (webServer (ascii "inactive") (ascii "dead"))]

theorem services_page_stopped : ∃ page asked settled,
    documentedServices.machine.run {replies := webServer (ascii "active") (ascii "running")} stopping = some page ∧
    documentedServices.machine.run page [.actionComplete 0] = some asked ∧
    documentedServices.machine.run asked [.searchTimeout, .collected 0 (.ok []), .refreshComplete 0] = some settled ∧
    (settled.rows, settled.countLabel) =
      documentedServices.present (ascii "web") (documentedServices.collect (webServer (ascii "inactive") (ascii "dead"))) :=
  ⟨_, _, _, rfl, rfl, rfl,
    (services_page documentedServices (webServer (ascii "active") (ascii "running")) stopping _ rfl).2.2
      (.actionComplete 0) _ [.searchTimeout, .collected 0 (.ok []), .refreshComplete 0] _ rfl rfl rfl (by decide) rfl rfl rfl rfl⟩

end SystemMonitor.Pages
