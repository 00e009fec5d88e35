import SystemMonitor.App.Workspace
import SystemMonitor.Desktop.Catalog
import SystemMonitor.Lib.Each
import SystemMonitor.Lib.Expiry
import SystemMonitor.Pages.Forest
import SystemMonitor.Pages.Processes

/-! What a process is shown as on the Processes page.

A process belongs to the application that the catalogue finds for it, or for the nearest of its
ancestors (`application_of_process`); the walk up is guarded, and neither a cycle of parents nor the
guard changes what it finds. The answers are kept for five seconds, per process and instance, until the
catalogue changes (`identities_fresh`). -/
namespace SystemMonitor.Pages
open Lib CStrings ParentWalk Expiry
open Desktop (LsmApplicationEntry LsmApplicationCatalog lookupIdentity executableFromCommand lsmApplicationCatalogLookupCgroup)

/-- The fields that an identity is made of. -/
structure IdentifiedProcess extends LsmProcessInfo where
  cgroupV2 : Bool := false
  cgroupPath : Chars 512 := .empty

/-! ### The application of a process -/

section
variable (lib : Desktop.Library) (catalog : Option LsmApplicationCatalog)

def lsmApplicationCatalogLookup (processName command : Text) : Option LsmApplicationEntry :=
  match catalog with
  | none => none
  | some catalog =>
    match lookupIdentity lib catalog processName with
    | some entry => some entry
    | none =>
      let identity := executableFromCommand lib command
      match lookupIdentity lib catalog identity with
      | some entry => some entry
      | none =>
        if decide (4 < identity.length) && (ascii "-bin").isSuffixOf identity then
          lookupIdentity lib catalog (identity.take (identity.length - 4))
        else none

variable (rows : List LsmProcessInfo)

/-- The catalogue's answer for a row by its name and command. -/
def lookupRow (index : Nat) : Option LsmApplicationEntry :=
  lsmApplicationCatalogLookup lib catalog (rowAt rows index).name.text (rowAt rows index).command.text

/-- The loop up the parents. -/
def ancestorLoop : Nat → Nat → Option LsmApplicationEntry
  | 0, _ => none
  | guard + 1, parent =>
    if parent ≤ 1 then none
    else match processIndexForPid rows parent with
      | none => none
      | some parentIndex =>
        match lookupRow lib catalog rows parentIndex with
        | some entry => some entry
        | none =>
          if (rowAt rows parentIndex).ppid = parent then none
          else ancestorLoop guard (rowAt rows parentIndex).ppid

end

/-- The rows as the other parts of the page see them. -/
def plainRows (rows : List IdentifiedProcess) : List LsmProcessInfo := rows.map (·.toLsmProcessInfo)

section
variable (lib : Desktop.Library) (catalog : Option LsmApplicationCatalog) (rows : List IdentifiedProcess)

/-- What is found for the process itself: by its control group, then by name and command. -/
def ownEntry (index : Nat) : Option LsmApplicationEntry :=
  let process := rows.getD index {}
  let entry := if process.cgroupV2 then
      catalog.bind fun catalog => lsmApplicationCatalogLookupCgroup lib catalog process.cgroupPath.text
    else none
  match entry with
  | some entry => some entry
  | none => lsmApplicationCatalogLookup lib catalog process.name.text process.command.text

def applicationForProcess (index : Nat) : Option LsmApplicationEntry :=
  match ownEntry lib catalog rows index with
  | some entry => some entry
  | none => ancestorLoop lib catalog (plainRows rows) rows.length (rows.getD index {}).ppid

/-! ### The identity of a process -/

def categoryIcon : ProcessCategory → Text
  | .application => ascii "applications-other"
  | .background => ascii "system-run"
  | .system => ascii "computer"

end

/-- The loop over the places where the slice is found, each search behind the last place. -/
def cgroupSliceLoop (path slice : Text) : Nat → Text → Bool
  | 0, _ => false
  | fuel + 1, cursor =>
    match strstr slice cursor with
    | none => false
    | some found =>
      let place := path.length - found.length
      let behind := found.drop slice.length
      if (place = 0 || path[place - 1]? = some 47) && (behind.head? = none || behind.head? = some 47) then true
      else cgroupSliceLoop path slice fuel behind

def cgroupPathHasSlice (path slice : Text) : Bool :=
  if path = [] ∨ slice = [] then false else cgroupSliceLoop path slice (path.length + 1) path

section
variable (lib : Desktop.Library) (catalog : Option LsmApplicationCatalog) (rows : List IdentifiedProcess)

def processIdentityUncached (index : Nat) : ProcessIdentity :=
  let process := rows.getD index {}
  match applicationForProcess lib catalog rows index with
  | some entry =>
    { category := .application
      key := .ofText (ascii "app:" ++ entry.id.text)
      name := .copyString entry.name.text entry.name.nulFree
      icon := .copyString entry.icon.text entry.icon.nulFree }
  | none =>
    let (category, kind) : ProcessCategory × Text :=
      if process.cgroupV2 && cgroupPathHasSlice process.cgroupPath.text (ascii "app.slice") then
        (.application, ascii "cgroup-app:")
      else if process.cgroupV2 && cgroupPathHasSlice process.cgroupPath.text (ascii "background.slice") then
        (.background, ascii "background:")
      else if process.ownedByCurrentUser then (.background, ascii "background:")
      else (.system, ascii "system:")
    { category
      key := .ofText (kind ++ process.name.text)
      name := .copyString process.name.text process.name.nulFree
      icon := .ofText (categoryIcon category) }

end

/-! ### The nearest ancestor with an application -/

section
variable (lib : Desktop.Library) (catalog : Option LsmApplicationCatalog) (rows : List LsmProcessInfo)

/-- The parent that is asked: no process has one of PID 0 or 1. -/
def askedParent (index : Nat) : Option Nat :=
  if (rowAt rows index).ppid ≤ 1 then none else parentOf rows index

variable {lib catalog rows}

/-- The walk finds what the nearest ancestor within its reach has. -/
theorem ancestorLoop_eq_some {guard index : Nat} {entry : LsmApplicationEntry} :
    ancestorLoop lib catalog rows guard (rowAt rows index).ppid = some entry ↔
      ∃ n < guard, ∃ ancestor, nth (askedParent rows) (n + 1) index = some ancestor ∧
        lookupRow lib catalog rows ancestor = some entry ∧
        ∀ m < n, ∀ nearer, nth (askedParent rows) (m + 1) index = some nearer → lookupRow lib catalog rows nearer = none := by
  induction guard generalizing index with
  | zero =>
    rw [ancestorLoop]
    refine iff_of_false (Option.some_ne_none entry).symm ?_
    rintro ⟨n, hn, -⟩
    exact Nat.not_lt_zero n hn
  | succ guard ih =>
    have hfirst : ∀ n, nth (askedParent rows) (n + 1) index = (askedParent rows index).bind (nth (askedParent rows) n) :=
      fun _ => rfl
    have hstuck : askedParent rows index = none → ∀ n, nth (askedParent rows) (n + 1) index = none := by
      intro hnone n
      rw [hfirst, hnone, Option.bind_none]
    rw [ancestorLoop]
    split
    · next hroot =>
      refine iff_of_false (Option.some_ne_none entry).symm ?_
      rintro ⟨n, -, ancestor, hn, -⟩
      cases (hstuck (if_pos hroot) n).symm.trans hn
    · next hroot =>
      have hparent : askedParent rows index = processIndexForPid rows (rowAt rows index).ppid := if_neg hroot
      cases hnext : processIndexForPid rows (rowAt rows index).ppid with
      | none =>
        refine iff_of_false (Option.some_ne_none entry).symm ?_
        rintro ⟨n, -, ancestor, hn, -⟩
        cases (hstuck (hparent.trans hnext) n).symm.trans hn
      | some parent =>
        have hstep : ∀ n, nth (askedParent rows) (n + 1) index = nth (askedParent rows) n parent := fun n => by
          rw [hfirst, hparent, hnext, Option.bind_some]
        dsimp only
        cases hentry : lookupRow lib catalog rows parent with
        | some found =>
          dsimp only
          constructor
          · intro h
            cases h
            exact ⟨0, Nat.succ_pos _, parent, hstep 0, hentry, fun m hm => absurd hm (Nat.not_lt_zero m)⟩
          · rintro ⟨n, -, ancestor, hn, hfound, hnearer⟩
            cases n with
            | zero =>
              cases (hstep 0).symm.trans hn
              exact hentry.symm.trans hfound
            | succ n =>
              have hmiss := hnearer 0 (Nat.succ_pos n) parent (hstep 0)
              rw [hentry] at hmiss
              cases hmiss
        | none =>
          dsimp only
          have hparentPid : (rowAt rows parent).pid = (rowAt rows index).ppid := (processIndexForPid_some hnext).2.1
          split
          · next hloop =>
            -- the parent is its own parent: nothing else is above it
            have hself : askedParent rows parent = some parent := by
              rw [askedParent, if_neg (hloop ▸ hroot), parentOf, hloop, hnext]
            refine iff_of_false (Option.some_ne_none entry).symm ?_
            rintro ⟨n, -, ancestor, hn, hfound, -⟩
            rw [hstep, nth_of_self hself] at hn
            cases hn
            rw [hentry] at hfound
            cases hfound
          · rw [ih]
            constructor
            · rintro ⟨n, hn, ancestor, hway, hfound, hnearer⟩
              refine ⟨n + 1, Nat.succ_lt_succ hn, ancestor, (hstep _).trans hway, hfound, fun m hm nearer hnear => ?_⟩
              cases m with
              | zero =>
                cases (hstep 0).symm.trans hnear
                exact hentry
              | succ m => exact hnearer m (Nat.lt_of_succ_lt_succ hm) nearer ((hstep _).symm.trans hnear)
            · rintro ⟨n, hn, ancestor, hway, hfound, hnearer⟩
              cases n with
              | zero =>
                cases (hstep 0).symm.trans hway
                rw [hentry] at hfound
                cases hfound
              | succ n =>
                exact ⟨n, Nat.lt_of_succ_lt_succ hn, ancestor, (hstep _).symm.trans hway, hfound,
                  fun m hm nearer hnear => hnearer (m + 1) (Nat.succ_lt_succ hm) nearer ((hstep _).trans hnear)⟩

theorem askedParent_lt {index parent : Nat} (h : askedParent rows index = some parent) : parent < rows.length := by
  rw [askedParent] at h
  split at h
  · cases h
  · exact parentOf_lt h

end

section
variable {lib : Desktop.Library} {catalog : Option LsmApplicationCatalog} {rows : List IdentifiedProcess}

theorem rowAt_plainRows (index : Nat) : rowAt (plainRows rows) index = (rows.getD index {}).toLsmProcessInfo := by
  rw [rowAt, plainRows, List.getD_eq_getElem?_getD, List.getElem?_map, List.getD_eq_getElem?_getD]
  cases rows[index]? <;> rfl

/-- **The nearest one decides**: a process is shown as the application found for itself, and otherwise as that
of the nearest ancestor for which one is found; neither the guard of the walk nor a cycle of parents changes
that. -/
theorem application_of_process (lib : Desktop.Library) (catalog : Option LsmApplicationCatalog)
    (rows : List IdentifiedProcess) {index : Nat} (hindex : index < rows.length) (entry : LsmApplicationEntry) :
    applicationForProcess lib catalog rows index = some entry ↔
      ownEntry lib catalog rows index = some entry ∨ ownEntry lib catalog rows index = none ∧
        ∃ n ancestor, nth (askedParent (plainRows rows)) (n + 1) index = some ancestor ∧
          lookupRow lib catalog (plainRows rows) ancestor = some entry ∧
          ∀ m < n, ∀ nearer, nth (askedParent (plainRows rows)) (m + 1) index = some nearer →
            lookupRow lib catalog (plainRows rows) nearer = none := by
  rw [applicationForProcess]
  cases hown : ownEntry lib catalog rows index with
  | some own => simp
  | none =>
    have hself : lookupRow lib catalog (plainRows rows) index = none := by
      rw [lookupRow, rowAt_plainRows]
      rw [ownEntry] at hown
      split at hown
      · cases hown
      · exact hown
    rw [show (rows.getD index {}).ppid = (rowAt (plainRows rows) index).ppid by rw [rowAt_plainRows], ancestorLoop_eq_some]
    simp only [reduceCtorEq, true_and, false_or]
    constructor
    · intro ⟨n, _, ancestor, h⟩
      exact ⟨n, ancestor, h⟩
    · intro ⟨n, ancestor, hway, hfound, hnearer⟩
      refine ⟨n, ?_, ancestor, hway, hfound, hnearer⟩
      -- a longer way passes a row twice, and could be cut short
      by_contra hlong
      have hkeys : ∀ k j, askedParent (plainRows rows) k = some j → j ∈ List.range rows.length := fun k j h =>
        List.mem_range.mpr (List.length_map (f := IdentifiedProcess.toLsmProcessInfo) ▸ askedParent_lt h)
      obtain ⟨m, hm, hshort⟩ := nth_bounded hkeys (List.mem_range.mpr hindex) hway
      rw [List.length_range] at hm
      cases m with
      | zero =>
        cases hshort
        rw [hself] at hfound
        cases hfound
      | succ m =>
        have hmiss := hnearer m (by omega) ancestor hshort
        rw [hmiss] at hfound
        cases hfound

end

def editorEntry : LsmApplicationEntry where
  id := .ofText (ascii "editor")
  name := .ofText (ascii "Editor")
  icon := .ofText (ascii "text-editor")
  executable := .ofText (ascii "editor")

def editorCatalog : LsmApplicationCatalog := Desktop.registerIdentity .documented {} (ascii "editor") editorEntry

/-- A shell that an editor runs, and what the shell runs. -/
def editing : List IdentifiedProcess :=
  [{ pid := 900, ppid := 1, name := .ofText (ascii "editor") },
    { pid := 901, ppid := 900, name := .ofText (ascii "sh") },
    { pid := 902, ppid := 901, name := .ofText (ascii "sleep") }]

theorem application_of_process_editing :
    applicationForProcess .documented (some editorCatalog) editing 2 = some editorEntry ∧
      (ownEntry .documented (some editorCatalog) editing 2 = some editorEntry ∨
        ownEntry .documented (some editorCatalog) editing 2 = none ∧
        ∃ n ancestor, nth (askedParent (plainRows editing)) (n + 1) 2 = some ancestor ∧
          lookupRow .documented (some editorCatalog) (plainRows editing) ancestor = some editorEntry ∧
          ∀ m < n, ∀ nearer, nth (askedParent (plainRows editing)) (m + 1) 2 = some nearer →
            lookupRow .documented (some editorCatalog) (plainRows editing) nearer = none) := by
  have happlication : applicationForProcess .documented (some editorCatalog) editing 2 = some editorEntry := by
    decide +kernel
  exact ⟨happlication,
    (application_of_process .documented (some editorCatalog) editing (by decide) editorEntry).mp happlication⟩

/-! ### The identities that are kept -/

def identityCacheSeconds : ℚ := 5

structure IdentityPage where
  catalog : Option LsmApplicationCatalog := none
  rows : List IdentifiedProcess := []
  generation : Nat := 0
  cache : Cache (Nat × Nat) ProcessIdentity := fun _ => none

/-- One question for the identity of a process. -/
structure Look where
  catalog : Option LsmApplicationCatalog
  rows : List IdentifiedProcess
  index : Nat
  time : ℚ

namespace Look
variable (lib : Desktop.Library) (look : Look)

def key : Nat × Nat := ((look.rows.getD look.index {}).pid, (look.rows.getD look.index {}).instanceId)

def identity : ProcessIdentity := processIdentityUncached lib look.catalog look.rows look.index

end Look

/-- What a look was answered. -/
structure Identified extends Look where
  answer : ProcessIdentity

/-- How `collect_groups` asks: the time at each process, and how many processes it comes to when an
allocation fails. -/
structure IdentityCall where
  filters : List Text := []
  now : Nat → ℚ
  stopped : Option Nat := none

section
variable (lib : Desktop.Library) (env : GroupEnv)

/-- The processes that the filters leave. -/
def IdentityCall.asked (call : IdentityCall) (rows : List IdentifiedProcess) : List Nat :=
  (List.range (call.stopped.elim rows.length (min rows.length))).filter fun index =>
    !processExcluded env (call.filters.map env.casefold) (rowAt (plainRows rows) index)

def processIdentity (page : IdentityPage) (now : Nat → ℚ) (cache : Cache (Nat × Nat) ProcessIdentity) (index : Nat) :
    Identified × Cache (Nat × Nat) ProcessIdentity :=
  let look : Look := ⟨page.catalog, page.rows, index, now index⟩
  let served := serve identityCacheSeconds look.time page.generation (look.identity lib) cache look.key
  ({ look with answer := served.1 }, served.2)

def identityLoop (page : IdentityPage) (now : Nat → ℚ) :
    Cache (Nat × Nat) ProcessIdentity → List Nat → List Identified × Cache (Nat × Nat) ProcessIdentity
  | cache, [] => ([], cache)
  | cache, index :: rest =>
    let (identified, cache) := processIdentity lib page now cache index
    let (more, cache) := identityLoop page now cache rest
    (identified :: more, cache)

inductive IdentityEvent where
  | catalogChanged (catalog : Option LsmApplicationCatalog)
  | published (rows : List IdentifiedProcess)
  | collected (call : IdentityCall)

namespace IdentityPage
variable (page : IdentityPage)

/-- A call that fails keeps the processes that have ended. -/
def collect (call : IdentityCall) : List Identified × IdentityPage :=
  let asked := identityLoop lib page call.now page.cache (call.asked env page.rows)
  (asked.1, {page with cache := if call.stopped.isNone then sweep page.generation asked.2 else asked.2})

def step : IdentityEvent → IdentityPage
  | .catalogChanged catalog => {page with catalog, cache := fun _ => none}
  | .published rows => {page with rows, generation := App.nextGeneration page.generation}
  | .collected call => (page.collect lib env call).2

def answers : IdentityEvent → List Identified
  | .collected call => (page.collect lib env call).1
  | _ => []

end IdentityPage

def identities : Machine IdentityPage IdentityEvent where
  step page event := some (page.step lib env event)

end

/-! ### Every answer is recent -/

section
variable (lib : Desktop.Library)

/-- The answer is that of this look, or of one within the last five seconds, at the same process and with the
same catalogue. -/
def Identified.Recent (before : List Identified) (identified : Identified) : Prop :=
  ∃ look : Look, look.catalog = identified.catalog ∧ look.key = identified.key ∧ identified.answer = look.identity lib ∧
    (look = identified.toLook ∨
      look ∈ before.map (·.toLook) ∧ look.time ≤ identified.time ∧ identified.time - look.time < identityCacheSeconds)

/-- What the cache may hold: the answers of the looks with this catalogue. -/
def Answered (catalog : Option LsmApplicationCatalog) (log : List Identified) (key : Nat × Nat) (time : ℚ)
    (answer : ProcessIdentity) : Prop :=
  ∃ look ∈ log.map (·.toLook), look.catalog = catalog ∧ look.key = key ∧ look.time = time ∧ answer = look.identity lib

variable {lib}

theorem Answered.append {catalog : Option LsmApplicationCatalog} {log : List Identified} {key : Nat × Nat} {time : ℚ}
    {answer : ProcessIdentity} (h : Answered lib catalog log key time answer) (more : List Identified) :
    Answered lib catalog (log ++ more) key time answer := by
  obtain ⟨look, hlook, h⟩ := h
  exact ⟨look, List.map_append ▸ List.mem_append_left _ hlook, h⟩

/-- One process of a call. -/
theorem processIdentity_recent {page : IdentityPage} {log : List Identified} {cache : Cache (Nat × Nat) ProcessIdentity}
    (h : Sound (Answered lib page.catalog log) cache) (now : Nat → ℚ) (index : Nat) :
    Identified.Recent lib log (processIdentity lib page now cache index).1 ∧
      Sound (Answered lib page.catalog (log ++ [(processIdentity lib page now cache index).1]))
        (processIdentity lib page now cache index).2 := by
  constructor
  · have hserved : (processIdentity lib page now cache index).1.answer =
          (Look.mk page.catalog page.rows index (now index)).identity lib ∨
        ∃ time, time ≤ now index ∧ now index - time < identityCacheSeconds ∧
          Answered lib page.catalog log (Look.mk page.catalog page.rows index (now index)).key time
            (processIdentity lib page now cache index).1.answer :=
      h.served (Look.mk page.catalog page.rows index (now index)).key
    rcases hserved with hnow | ⟨time, hle, hlt, look, hlook, hcatalog, hkey, rfl, hanswer⟩
    · exact ⟨_, rfl, rfl, hnow, .inl rfl⟩
    · exact ⟨look, hcatalog, hkey, hanswer, .inr ⟨hlook, hle, hlt⟩⟩
  · refine (h.mono fun key time answer hanswered => hanswered.append _).serve ?_
    refine ⟨Look.mk page.catalog page.rows index (now index), ?_, rfl, rfl, rfl, rfl⟩
    rw [List.map_append]
    exact List.mem_append_right _ (List.mem_singleton.mpr rfl)

theorem identityLoop_recent {page : IdentityPage} {log : List Identified} {cache : Cache (Nat × Nat) ProcessIdentity}
    (now : Nat → ℚ) (indices : List Nat) (h : Sound (Answered lib page.catalog log) cache) :
    Each (Identified.Recent lib) log (identityLoop lib page now cache indices).1 ∧
      Sound (Answered lib page.catalog (log ++ (identityLoop lib page now cache indices).1))
        (identityLoop lib page now cache indices).2 := by
  induction indices generalizing log cache with
  | nil =>
    rw [identityLoop, List.append_nil]
    exact ⟨trivial, h⟩
  | cons index rest ih =>
    obtain ⟨hrecent, hsound⟩ := processIdentity_recent h now index
    obtain ⟨hmore, hend⟩ := ih hsound
    rw [identityLoop, List.append_cons]
    exact ⟨⟨hrecent, hmore⟩, hend⟩

/-! ### What stays in the cache -/

def IdentityEvent.isPublished : IdentityEvent → Bool
  | .published _ => true
  | _ => false

/-- What was served in this generation belongs to a process of the snapshot. -/
def Kept (page : IdentityPage) (cache : Cache (Nat × Nat) ProcessIdentity) : Prop :=
  ∀ key entry, cache key = some entry → entry.seen ≤ page.generation ∧
    (entry.seen = page.generation → key ∈ page.rows.map fun process => (process.pid, process.instanceId))

theorem kept_empty (page : IdentityPage) : Kept page fun _ => none := by
  intro key entry hentry
  cases hentry

variable (lib) in
theorem processIdentity_kept {page : IdentityPage} {cache : Cache (Nat × Nat) ProcessIdentity} (h : Kept page cache)
    (now : Nat → ℚ) {index : Nat} (hindex : index < page.rows.length) :
    Kept page (processIdentity lib page now cache index).2 := by
  intro key entry hentry
  rcases serve_seen hentry with ⟨rfl, hseen⟩ | hold
  · refine ⟨hseen.le, fun _ => List.mem_map.mpr ⟨page.rows[index], List.getElem_mem hindex, ?_⟩⟩
    rw [Look.key, List.getD_eq_getElem?_getD, List.getElem?_eq_getElem hindex, Option.getD_some]
  · exact h key entry hold

variable (lib) in
theorem identityLoop_kept {page : IdentityPage} {cache : Cache (Nat × Nat) ProcessIdentity} (now : Nat → ℚ)
    (indices : List Nat) (hindices : ∀ index ∈ indices, index < page.rows.length) (h : Kept page cache) :
    Kept page (identityLoop lib page now cache indices).2 := by
  induction indices generalizing cache with
  | nil => exact h
  | cons index rest ih =>
    rw [List.forall_mem_cons] at hindices
    exact ih hindices.2 (processIdentity_kept lib h now hindices.1)

theorem Kept.sweep {page : IdentityPage} {cache : Cache (Nat × Nat) ProcessIdentity} (h : Kept page cache) :
    Kept page (Expiry.sweep page.generation cache) :=
  fun key entry hentry => h key entry (Option.filter_eq_some_iff.mp hentry).1

variable {env : GroupEnv}

theorem lt_of_asked {call : IdentityCall} {rows : List IdentifiedProcess} {index : Nat} (h : index ∈ call.asked env rows) :
    index < rows.length := by
  have hlt := List.mem_range.mp (List.mem_of_mem_filter h)
  cases hstop : call.stopped with
  | none => rwa [hstop] at hlt
  | some n =>
    rw [hstop] at hlt
    exact Nat.lt_of_lt_of_le hlt (Nat.min_le_left _ _)

variable (lib env) in
theorem collect_kept {page : IdentityPage} (call : IdentityCall) (h : Kept page page.cache) :
    Kept (page.collect lib env call).2 (page.collect lib env call).2.cache := by
  have hloop := identityLoop_kept lib call.now (call.asked env page.rows) (fun _ => lt_of_asked) h
  rw [IdentityPage.collect]
  dsimp only
  split
  · exact hloop.sweep
  · exact hloop

theorem step_kept {page : IdentityPage} (event : IdentityEvent) (h : Kept page page.cache)
    (hroom : page.generation + [event].countP (·.isPublished) < 2 ^ 64) :
    Kept (page.step lib env event) (page.step lib env event).cache ∧
      (page.step lib env event).generation = page.generation + [event].countP (·.isPublished) := by
  cases event with
  | catalogChanged catalog => exact ⟨kept_empty _, rfl⟩
  | collected call => exact ⟨collect_kept lib env call h, rfl⟩
  | published rows =>
    have hnext : App.nextGeneration page.generation = page.generation + 1 := by
      have hroom : page.generation + 1 < 2 ^ 64 := hroom
      rw [App.nextGeneration, Nat.mod_eq_of_lt hroom, if_neg (Nat.succ_ne_zero _)]
    refine ⟨fun key entry hentry => ?_, hnext⟩
    have hseen := (h key entry hentry).1
    rw [IdentityPage.step, hnext]
    exact ⟨Nat.le_succ_of_le hseen, fun heq => absurd (heq ▸ hseen) (Nat.not_succ_le_self _)⟩

theorem step_recent {page : IdentityPage} {log : List Identified} (event : IdentityEvent)
    (h : Sound (Answered lib page.catalog log) page.cache) :
    Each (Identified.Recent lib) log (page.answers lib env event) ∧
      Sound (Answered lib (page.step lib env event).catalog (log ++ page.answers lib env event))
        (page.step lib env event).cache := by
  cases event with
  | catalogChanged catalog =>
    rw [show page.answers lib env (.catalogChanged catalog) = [] from rfl, List.append_nil]
    exact ⟨trivial, sound_empty _⟩
  | published rows =>
    rw [show page.answers lib env (.published rows) = [] from rfl, List.append_nil]
    exact ⟨trivial, h⟩
  | collected call =>
    obtain ⟨hrecent, hsound⟩ := identityLoop_recent call.now (call.asked env page.rows) h
    refine ⟨hrecent, ?_⟩
    rw [IdentityPage.step, IdentityPage.collect]
    dsimp only
    split
    · exact hsound.sweep
    · exact hsound

theorem run_kept {page after : IdentityPage} {events : List IdentityEvent} (h : Kept page page.cache)
    (hroom : page.generation + events.countP (·.isPublished) < 2 ^ 64)
    (hrun : (identities lib env).run page events = some after) : Kept after after.cache := by
  induction events generalizing page with
  | nil =>
    cases hrun
    exact h
  | cons event rest ih =>
    rw [← List.singleton_append, List.countP_append, ← Nat.add_assoc] at hroom
    obtain ⟨hkept, hgeneration⟩ := step_kept event h (Nat.lt_of_le_of_lt (Nat.le_add_right _ _) hroom)
    exact ih hkept (hgeneration ▸ hroom) hrun

end

/-- **No stale identity**: in every run, what a process is shown as is what the snapshot and the catalogue give at
that moment, or what they gave less than five seconds before for the same process and catalogue; and when a call
has gone through the whole snapshot, the cache holds nothing of a process that has ended. -/
theorem identities_fresh (lib : Desktop.Library) (env : GroupEnv) (events : List IdentityEvent) (page : IdentityPage)
    (hrun : (identities lib env).run {} events = some page) :
    Each (Identified.Recent lib) [] ((identities lib env).trace (IdentityPage.answers lib env) {} events) ∧
      (events.countP (·.isPublished) < 2 ^ 64 → ∀ call, call.stopped = none → ∀ key,
        ((page.collect lib env call).2.cache key).isSome → key ∈ page.rows.map fun process => (process.pid, process.instanceId)) := by
  constructor
  · refine ((identities lib env).run_each (IdentityPage.answers lib env)
      (fun log page => Sound (Answered lib page.catalog log) page.cache) ?_ (sound_empty _) hrun).1
    rintro log before event after hsound hafter
    cases hafter
    exact step_recent event hsound
  · intro hroom call hcomplete key hkey
    obtain ⟨entry, hentry⟩ := Option.isSome_iff_exists.mp hkey
    have hkept : Kept page page.cache := run_kept (kept_empty _) (by rwa [Nat.zero_add]) hrun
    refine ((collect_kept lib env call hkept) key entry hentry).2 ?_
    rw [IdentityPage.collect, hcomplete] at hentry
    exact sweep_seen hentry

/-- The shell ends between two calls, and the catalogue becomes known between two others. -/
def editingEvents : List IdentityEvent :=
  [.published editing, .collected { now := fun _ => 100 }, .published (editing.take 1), .collected { now := fun _ => 103 },
    .catalogChanged (some editorCatalog), .collected { now := fun _ => 104 }]

theorem identities_fresh_editing : ∃ page, (identities .documented bytewise).run {} editingEvents = some page ∧
    Each (Identified.Recent .documented) []
        ((identities .documented bytewise).trace (IdentityPage.answers .documented bytewise) {} editingEvents) ∧
      ∀ key, ((page.collect .documented bytewise { now := fun _ => 105 }).2.cache key).isSome →
        key ∈ page.rows.map fun process => (process.pid, process.instanceId) := by
  refine ⟨_, rfl, ?_⟩
  have hfresh := identities_fresh .documented bytewise editingEvents _ rfl
  exact ⟨hfresh.1, hfresh.2 (by decide) { now := fun _ => 105 } rfl⟩

end SystemMonitor.Pages
