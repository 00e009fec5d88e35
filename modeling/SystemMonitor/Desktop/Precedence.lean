import SystemMonitor.Desktop.Startup
import SystemMonitor.Lib.Precedence

/-! Which file a desktop entry comes from.

Both collectors scan their directories in order of priority and count a name as seen
before they load the file, so a file that does not load masks those behind it. A scan that
succeeds is the plain scan of the directories it has looked at
(`Lib.Precedence.scan_resolved`). The startup backend looks at all of them or fails; the
catalogue passes over a directory whose path does not fit its buffer and succeeds without
it, so that a directory behind it decides (`xdg_precedence`). -/
namespace SystemMonitor.Desktop
open Lib Precedence

variable (lib : Library) (session : Session) (fs : FileSystem)

/-- The desktop files of a directory, in the order of `readdir`. -/
def desktopNames (path : Text) : List Text :=
  match fs.directory path with
  | .listed names _ => names.filter isDesktopName
  | .missing | .failed => []

theorem joinPath_eq_some {base name path : Text} :
    joinPath lib base name = some path ↔ (lib.fullPath base name).length < 512 ∧ lib.fullPath base name = path := by
  rw [joinPath]
  split
  · rename_i hfits
    rw [Option.some_inj, and_iff_right hfits]
  · rename_i hfits
    exact iff_of_false nofun fun h => hfits h.1

/-! ### The startup backend -/

/-- What a file gives, in a directory that may be the user's. -/
def startupOf (place : Text × Bool) (name : Text) : Option LsmStartupEntry :=
  loadStartupEntry lib session fs (lib.fullPath place.1 name) name place.2

/-- The directories in order of priority, the user's first. -/
def startupPlaces (env : Environment) : List (Text × Bool) :=
  (env.home.toList.map fun home => (lib.fullPath home (ascii "autostart"), true)) ++
    (configDirs env).map fun base => (lib.fullPath base (ascii "autostart"), false)

theorem scanStartupNames_eq {directory : Text} {userEntry : Bool} {names : List Text}
    {state state' : List LsmStartupEntry × List Text}
    (h : scanStartupNames lib session fs directory userEntry names state = some state') :
    state' = scanOne (startupOf lib session fs (directory, userEntry)) (names.filter isDesktopName) state := by
  induction names generalizing state with
  | nil => exact (Option.some.inj h).symm
  | cons name names ih =>
    obtain ⟨entries, seen⟩ := state
    rw [scanStartupNames] at h
    cases hname : isDesktopName name with
    | false =>
      rw [List.filter_cons_of_neg (by rw [hname]; decide)]
      rw [hname] at h
      exact ih h
    | true =>
      rw [List.filter_cons_of_pos hname]
      rw [hname, Bool.not_true, Bool.false_or] at h
      by_cases hseen : name ∈ seen
      · rw [if_pos (List.contains_iff_mem.mpr hseen)] at h
        rw [scanOne_seen hseen]
        exact ih h
      · rw [if_neg fun hmem => hseen (List.contains_iff_mem.mp hmem)] at h
        rw [scanOne_new hseen]
        cases hjoin : joinPath lib directory name with
        | none =>
          rw [hjoin] at h
          cases h
        | some path =>
          obtain ⟨-, rfl⟩ := (joinPath_eq_some lib).mp hjoin
          rw [hjoin] at h
          dsimp only [startupOf] at h ⊢
          cases hload : loadStartupEntry lib session fs (lib.fullPath directory name) name userEntry with
          | none =>
            rw [hload] at h
            rw [Option.toList_none, List.append_nil]
            exact ih h
          | some entry =>
            rw [hload] at h
            exact ih h

theorem scanDirectory_eq {directory : Text} {userEntry : Bool} {state state' : List LsmStartupEntry × List Text}
    (h : scanDirectory lib session fs directory userEntry state = some state') :
    state' = scanOne (startupOf lib session fs (directory, userEntry)) (desktopNames fs directory) state := by
  rw [scanDirectory] at h
  rw [desktopNames]
  cases hdirectory : fs.directory directory with
  | missing =>
    rw [hdirectory] at h
    exact (Option.some.inj h).symm
  | failed =>
    rw [hdirectory] at h
    cases h
  | listed names complete =>
    rw [hdirectory] at h
    dsimp only at h ⊢
    cases hscan : scanStartupNames lib session fs directory userEntry names state with
    | none =>
      rw [hscan] at h
      cases h
    | some scanned =>
      rw [hscan] at h
      cases complete with
      | false => cases h
      | true =>
        cases h
        exact scanStartupNames_eq lib session fs hscan

theorem scanBases_eq {bases : List (Text × Bool)} {state state' : List LsmStartupEntry × List Text}
    (h : scanBases lib session fs bases state = some state') :
    state' = scan (fun place => desktopNames fs place.1) (startupOf lib session fs)
      (bases.map fun base => (lib.fullPath base.1 (ascii "autostart"), base.2)) state := by
  induction bases generalizing state with
  | nil => exact (Option.some.inj h).symm
  | cons base bases ih =>
    obtain ⟨base, userEntry⟩ := base
    rw [scanBases] at h
    cases hjoin : joinPath lib base (ascii "autostart") with
    | none =>
      rw [hjoin] at h
      cases h
    | some path =>
      obtain ⟨-, rfl⟩ := (joinPath_eq_some lib).mp hjoin
      rw [hjoin] at h
      dsimp only at h
      cases hscan : scanDirectory lib session fs (lib.fullPath base (ascii "autostart")) userEntry state with
      | none =>
        rw [hscan] at h
        cases h
      | some scanned =>
        rw [hscan] at h
        rw [ih h, scanDirectory_eq lib session fs hscan]
        rfl

theorem startupPlaces_eq {env : Environment} {configHome : Text} (h : xdgHome env = some configHome) :
    startupPlaces lib env = ((configHome, true) :: (configDirs env).map fun base => (base, false)).map fun base =>
      (lib.fullPath base.1 (ascii "autostart"), base.2) := by
  obtain ⟨hsome, -⟩ := Option.filter_eq_some_iff.mp h
  rw [startupPlaces, hsome, List.map_cons, List.map_map]
  rfl

theorem startup_resolved {env : Environment} {entries : List LsmStartupEntry}
    (h : lsmStartupBackendCollect lib session env fs = some entries) :
    Resolved (fun place => desktopNames fs place.1) (startupOf lib session fs) (startupPlaces lib env) entries := by
  rw [lsmStartupBackendCollect] at h
  cases hhome : xdgHome env with
  | none =>
    rw [hhome] at h
    cases h
  | some configHome =>
    rw [hhome] at h
    obtain ⟨state, hscan, rfl⟩ := Option.map_eq_some_iff.mp h
    rw [scanBases_eq lib session fs hscan, ← startupPlaces_eq lib hhome]
    exact scan_resolved _

/-! ### The catalogue -/

/-- What a file gives. -/
def applicationOf (directory name : Text) : Option LsmApplicationEntry :=
  (fs.keyFile (lib.fullPath directory name)).bind fun file => desktopEntry lib file name

/-- The base directories in order of priority, the user's first. -/
def dataBases (env : Environment) : List Text := env.home.toList ++ dataDirs env

def dataPlaces (env : Environment) : List Text :=
  (dataBases env).map fun base => lib.fullPath base (ascii "applications")

/-- The entries and the names seen. -/
def scanned (state : LsmApplicationCatalog × List Text) : List LsmApplicationEntry × List Text :=
  (state.1.entries, state.2)

theorem scanned_mk (catalog : LsmApplicationCatalog) (seen : List Text) :
    scanned (catalog, seen) = (catalog.entries, seen) := rfl

/-- Identities are registered in the hash table alone. -/
structure SameEntries (catalog after : LsmApplicationCatalog) : Prop where
  entries : after.entries = catalog.entries
  complete : after.complete = catalog.complete

theorem registerIdentity_same (catalog : LsmApplicationCatalog) (identity : Text) (entry : LsmApplicationEntry) :
    SameEntries catalog (registerIdentity lib catalog identity entry) := by
  rw [registerIdentity]
  split <;> exact ⟨rfl, rfl⟩

theorem registerBehind_same (catalog : LsmApplicationCatalog) (byte : UInt8) (desktopId : Text)
    (entry : LsmApplicationEntry) : SameEntries catalog (registerBehind lib catalog byte desktopId entry) := by
  rw [registerBehind]
  split
  · exact registerIdentity_same lib catalog _ entry
  · exact ⟨rfl, rfl⟩

theorem SameEntries.trans {a b c : LsmApplicationCatalog} (hab : SameEntries a b) (hbc : SameEntries b c) :
    SameEntries a c := ⟨hbc.entries.trans hab.entries, hbc.complete.trans hab.complete⟩

theorem loadDesktopFile_eq (catalog : LsmApplicationCatalog) (directory name : Text) :
    (loadDesktopFile lib fs catalog (lib.fullPath directory name) name).entries =
        catalog.entries ++ (applicationOf lib fs directory name).toList ∧
      (loadDesktopFile lib fs catalog (lib.fullPath directory name) name).complete = catalog.complete := by
  rw [loadDesktopFile, applicationOf]
  cases fs.keyFile (lib.fullPath directory name) with
  | none => exact ⟨(List.append_nil _).symm, rfl⟩
  | some file =>
    dsimp only [Option.bind_some]
    cases desktopEntry lib file name with
    | none => exact ⟨(List.append_nil _).symm, rfl⟩
    | some entry =>
      have hsame := (((registerIdentity_same lib {catalog with entries := catalog.entries ++ [entry]}
        entry.executable.text entry).trans (registerIdentity_same lib _ entry.id.text entry)).trans
          (registerBehind_same lib _ 46 entry.id.text entry)).trans (registerBehind_same lib _ 95 entry.id.text entry)
      have hall := hsame.trans (registerIdentity_same lib _ (desktopString file (ascii "StartupWMClass")) entry)
      exact ⟨hall.entries, hall.complete⟩

theorem scanNames_eq {directory : Text} {names : List Text} {state : LsmApplicationCatalog × List Text}
    (h : (scanNames lib fs directory names state).1.complete = true) :
    state.1.complete = true ∧ scanned (scanNames lib fs directory names state) =
      scanOne (applicationOf lib fs directory) (names.filter isDesktopName) (scanned state) := by
  induction names generalizing state with
  | nil => exact ⟨h, rfl⟩
  | cons name names ih =>
    obtain ⟨catalog, seen⟩ := state
    rw [scanNames] at h ⊢
    cases hname : isDesktopName name with
    | false =>
      rw [hname] at h
      rw [List.filter_cons_of_neg (by rw [hname]; decide)]
      exact ih h
    | true =>
      rw [hname, Bool.not_true, Bool.false_or] at h
      rw [List.filter_cons_of_pos hname, Bool.not_true, Bool.false_or]
      by_cases hseen : name ∈ seen
      · rw [if_pos (List.contains_iff_mem.mpr hseen)] at h ⊢
        rw [scanned_mk catalog seen, scanOne_seen hseen]
        exact ih h
      · have hnot : ¬ seen.contains name = true := fun hmem => hseen (List.contains_iff_mem.mp hmem)
        rw [if_neg hnot] at h ⊢
        rw [scanned_mk catalog seen, scanOne_new hseen]
        cases hjoin : joinPath lib directory name with
        | none =>
          rw [hjoin] at h
          cases (ih h).1
        | some path =>
          obtain ⟨-, rfl⟩ := (joinPath_eq_some lib).mp hjoin
          obtain ⟨hentries, hcomplete⟩ := loadDesktopFile_eq lib fs catalog directory name
          rw [hjoin] at h
          obtain ⟨hbefore, hscan⟩ := ih h
          refine ⟨hcomplete ▸ hbefore, hscan.trans ?_⟩
          rw [scanned_mk, hentries]

theorem scanApplicationDirectory_eq {directory : Text} {state : LsmApplicationCatalog × List Text}
    (h : (scanApplicationDirectory lib fs directory state).1.complete = true) :
    state.1.complete = true ∧ scanned (scanApplicationDirectory lib fs directory state) =
      scanOne (applicationOf lib fs directory) (desktopNames fs directory) (scanned state) := by
  rw [scanApplicationDirectory] at h ⊢
  rw [desktopNames]
  cases hdirectory : fs.directory directory with
  | missing =>
    rw [hdirectory] at h
    exact ⟨h, rfl⟩
  | failed =>
    rw [hdirectory] at h
    cases h
  | listed names complete =>
    rw [hdirectory] at h
    exact scanNames_eq lib fs (Bool.and_eq_true_iff.mp h).1

theorem scanBase_eq {base : Text} {state : LsmApplicationCatalog × List Text}
    (h : (scanBase lib fs base state).1.complete = true) : state.1.complete = true ∧
      scanned (scanBase lib fs base state) = scan (desktopNames fs) (applicationOf lib fs)
        (joinPath lib base (ascii "applications")).toList (scanned state) := by
  rw [scanBase] at h ⊢
  cases hjoin : joinPath lib base (ascii "applications") with
  | none =>
    rw [hjoin] at h
    exact ⟨h, rfl⟩
  | some path =>
    rw [hjoin] at h
    exact scanApplicationDirectory_eq lib fs h

/-- The bases are scanned whose paths fit. -/
theorem foldl_scanBase_eq {bases : List Text} {state : LsmApplicationCatalog × List Text}
    (h : (bases.foldl (fun state base => scanBase lib fs base state) state).1.complete = true) :
    state.1.complete = true ∧ scanned (bases.foldl (fun state base => scanBase lib fs base state) state) =
      scan (desktopNames fs) (applicationOf lib fs)
        (bases.filterMap fun base => joinPath lib base (ascii "applications")) (scanned state) := by
  induction bases generalizing state with
  | nil => exact ⟨h, rfl⟩
  | cons base bases ih =>
    obtain ⟨hbase, hscan⟩ := ih h
    obtain ⟨hbefore, hone⟩ := scanBase_eq lib fs hbase
    refine ⟨hbefore, hscan.trans ?_⟩
    rw [hone, List.filterMap_cons]
    cases joinPath lib base (ascii "applications") <;> rfl

/-- The bases whose own text fits. -/
def scannedBases (env : Environment) : List Text := (xdgHome env).toList ++ dataDirs env

theorem create_eq {env : Environment} {catalog : LsmApplicationCatalog}
    (h : lsmApplicationCatalogCreate lib env fs = some catalog) : catalog.entries =
      (scan (desktopNames fs) (applicationOf lib fs)
        ((scannedBases env).filterMap fun base => joinPath lib base (ascii "applications")) ([], [])).1 := by
  have hfold : lsmApplicationCatalogCreate lib env fs =
      let state := (scannedBases env).foldl (fun state base => scanBase lib fs base state) ({}, [])
      if state.1.complete then some state.1 else none := by
    rw [lsmApplicationCatalogCreate, scannedBases]
    cases xdgHome env <;> rfl
  rw [hfold] at h
  dsimp only at h
  split at h
  · rename_i hcomplete
    cases h
    exact congrArg Prod.fst (foldl_scanBase_eq lib fs hcomplete).2
  · cases h

/-- **Where every directory fits, the catalogue is resolved in all of them.** -/
theorem catalogue_resolved {env : Environment}
    (hfits : ∀ base ∈ dataBases env, (lib.fullPath base (ascii "applications")).length < 512)
    {catalog : LsmApplicationCatalog} (h : lsmApplicationCatalogCreate lib env fs = some catalog) :
    Resolved (desktopNames fs) (applicationOf lib fs) (dataPlaces lib env) catalog.entries := by
  have hhome : xdgHome env = env.home := by
    cases henv : env.home with
    | none => rw [xdgHome, henv]; rfl
    | some home =>
      have hpath := hfits home (List.mem_append_left _ (by rw [henv]; exact List.mem_singleton_self _))
      have hlength := (lib.fullPath_length home (ascii "applications")).trans_lt hpath
      rw [xdgHome, henv]
      exact Option.filter_some_pos (decide_eq_true hlength)
  have hplaces : (scannedBases env).filterMap (fun base => joinPath lib base (ascii "applications")) =
      dataPlaces lib env := by
    rw [scannedBases, hhome, ← dataBases, dataPlaces, ← List.filterMap_eq_map]
    apply List.filterMap_congr
    exact fun base hbase => (joinPath_eq_some lib).mpr ⟨hfits base hbase, rfl⟩
  rw [create_eq lib fs h, hplaces]
  exact scan_resolved _

/-! ### A directory that is passed over -/

/-- A file with nothing but a command. -/
def commandFile : KeyFile where
  string key := if key = ascii "Exec" then some (ascii "a") else none
  boolean _ := none

theorem executableFromCommand_a : executableFromCommand lib (ascii "a") = ascii "a" := by
  have hspace : lib.asciiIsSpace 97 = false := by
    rw [← Bool.not_eq_true, lib.asciiIsSpace_iff]
    decide
  have htoken : readExecToken lib (ascii "a") = some (ascii "a", []) := by
    rw [readExecToken, show ascii "a" = [97] from rfl, List.dropWhile_cons_of_neg (by rw [hspace]; decide)]
    simp only [tokenLoop, hspace]
    rfl
  have hidentity : normaliseIdentity lib (ascii "a") = ascii "a" := by
    rw [normaliseIdentity, if_neg (by decide), lib.pathBasename_name _ (by decide)]
    rfl
  rw [executableFromCommand, show (ascii "a").length + 1 = 2 from rfl, executableLoop, htoken]
  simp only [hidentity]
  rfl

theorem desktopEntry_commandFile (name : Text) : (desktopEntry lib commandFile name).isSome = true := by
  have hcommand : desktopString commandFile (ascii "Exec") = ascii "a" := by decide
  rw [desktopEntry, hcommand, executableFromCommand_a]
  rfl

/-- One directory with one application. -/
def singleFile (path : Text) : FileSystem where
  directory p := if p = path then .listed [ascii "a.desktop"] true else .missing
  keyFile _ := some commandFile

theorem create_singleFile {path : Text} (hlong : ¬ path.length < 512) (env : Environment) :
    lsmApplicationCatalogCreate lib env (singleFile path) = some {} := by
  have hbase : ∀ base state, scanBase lib (singleFile path) base state = state := by
    intro base state
    rw [scanBase]
    cases hjoin : joinPath lib base (ascii "applications") with
    | none => rfl
    | some joined =>
      obtain ⟨hfits, rfl⟩ := (joinPath_eq_some lib).mp hjoin
      have hne : lib.fullPath base (ascii "applications") ≠ path := fun heq => hlong (heq ▸ hfits)
      simp only [scanApplicationDirectory, singleFile, if_neg hne]
  have hfold : ∀ (bases : List Text) (state : LsmApplicationCatalog × List Text),
      bases.foldl (fun state base => scanBase lib (singleFile path) base state) state = state := by
    intro bases state
    induction bases with
    | nil => rfl
    | cons base bases ih => rw [List.foldl_cons, hbase, ih]
  rw [lsmApplicationCatalogCreate, hfold]
  cases xdgHome env with
  | none => rfl
  | some home => exact congrArg (fun state : LsmApplicationCatalog × List Text =>
      if state.1.complete then some state.1 else none) (hbase home ({}, []))

/-- The same names are in the same directories, in any order, and the files are the same. -/
structure SameFiles (fs fs' : FileSystem) : Prop where
  names : ∀ path name, name ∈ desktopNames fs path ↔ name ∈ desktopNames fs' path
  keyFile : fs.keyFile = fs'.keyFile

theorem SameFiles.startupOf_eq {fs fs' : FileSystem} (h : SameFiles fs fs') :
    startupOf lib session fs = startupOf lib session fs' := by
  funext place name
  rw [startupOf, startupOf, loadStartupEntry, loadStartupEntry, h.keyFile]

theorem SameFiles.applicationOf_eq {fs fs' : FileSystem} (h : SameFiles fs fs') :
    applicationOf lib fs = applicationOf lib fs' := by
  funext directory name
  rw [applicationOf, applicationOf, h.keyFile]

/-- Whatever is in the directories, each name gives what its first directory has, and the order of
`readdir` makes no difference. -/
structure CataloguePrecedence (env : Environment) : Prop where
  resolved : ∀ fs catalog, lsmApplicationCatalogCreate lib env fs = some catalog →
    Resolved (desktopNames fs) (applicationOf lib fs) (dataPlaces lib env) catalog.entries
  unordered : ∀ fs fs' catalog catalog', SameFiles fs fs' → lsmApplicationCatalogCreate lib env fs = some catalog →
    lsmApplicationCatalogCreate lib env fs' = some catalog' → catalog.entries.Perm catalog'.entries

theorem CataloguePrecedence.fits {env : Environment} (h : CataloguePrecedence lib env) :
    ∀ base ∈ dataBases env, (lib.fullPath base (ascii "applications")).length < 512 := by
  intro base hbase
  by_contra hlong
  generalize hpath : lib.fullPath base (ascii "applications") = path at hlong
  have hplace : path ∈ dataPlaces lib env := hpath ▸ List.mem_map_of_mem hbase
  have hname : ascii "a.desktop" ∈ desktopNames (singleFile path) path := by
    simp only [desktopNames, singleFile, if_pos]
    decide
  obtain ⟨order, -, hmem, hentries⟩ := h.resolved (singleFile path) {} (create_singleFile lib hlong env)
  have horder : ascii "a.desktop" ∈ order := (hmem _).mpr ⟨path, hplace, hname⟩
  have hnone : effective (desktopNames (singleFile path)) (applicationOf lib (singleFile path)) (dataPlaces lib env)
      (ascii "a.desktop") = none := List.filterMap_eq_nil_iff.mp hentries.symm _ horder
  obtain ⟨place, -, hvalue⟩ := exists_effective (applicationOf lib (singleFile path)) ⟨path, hplace, hname⟩
  have hentry : desktopEntry lib commandFile (ascii "a.desktop") = none := hvalue.symm.trans hnone
  have hsome := desktopEntry_commandFile lib (ascii "a.desktop")
  rw [hentry] at hsome
  cases hsome

/-- A directory whose `applications` does not fit. -/
def longBase : Text := 47 :: List.replicate 511 120

/-- The long directory comes before `/usr/share`. -/
def longFirst : Environment where
  home := none
  dirs := longBase ++ 58 :: ascii "/usr/share"

/-- Both directories have an `a.desktop`; the first is malformed. -/
def masked : FileSystem where
  directory p :=
    if p = longBase ++ ascii "/applications" ∨ p = ascii "/usr/share/applications" then
      .listed [ascii "a.desktop"] true
    else .missing
  keyFile p := if p = ascii "/usr/share/applications/a.desktop" then some commandFile else none

/-- **The malformed file does not mask the application behind it.** -/
theorem long_directory_passed_over :
    effective (desktopNames masked) (applicationOf .documented masked) (dataPlaces .documented longFirst)
        (ascii "a.desktop") = none ∧
      (lsmApplicationCatalogCreate .documented longFirst masked).map (fun catalog => catalog.entries.map (·.id.text)) =
        some [ascii "a"] ∧
      ¬ CataloguePrecedence .documented longFirst := by
  refine ⟨by decide +kernel, by decide +kernel, fun h => ?_⟩
  have hbase : longBase ∈ dataBases longFirst := by decide +kernel
  have hlong : ¬ (Library.documented.fullPath longBase (ascii "applications")).length < 512 := by decide +kernel
  exact hlong (h.fits _ longBase hbase)

/-- **Each name gives what its first directory has, and the order of `readdir` makes no difference:
for the startup entries always, for the catalogue where the path of every directory fits.** -/
theorem xdg_precedence :
    (∀ env fs entries, lsmStartupBackendCollect lib session env fs = some entries →
      Resolved (fun place => desktopNames fs place.1) (startupOf lib session fs) (startupPlaces lib env) entries) ∧
    (∀ env fs fs' entries entries', SameFiles fs fs' → lsmStartupBackendCollect lib session env fs = some entries →
      lsmStartupBackendCollect lib session env fs' = some entries' → entries.Perm entries') ∧
    ∀ env, CataloguePrecedence lib env ↔
      ∀ base ∈ dataBases env, (lib.fullPath base (ascii "applications")).length < 512 := by
  refine ⟨fun env fs entries h => startup_resolved lib session fs h, ?_, fun env => ⟨fun h => h.fits lib, ?_⟩⟩
  · intro env fs fs' entries entries' hsame h h'
    have hresolved' := startup_resolved lib session fs' h'
    rw [← hsame.startupOf_eq lib session] at hresolved'
    exact (startup_resolved lib session fs h).perm hresolved' fun place _ => hsame.names place.1
  · intro hfits
    refine ⟨fun fs catalog h => catalogue_resolved lib fs hfits h, ?_⟩
    intro fs fs' catalog catalog' hsame h h'
    have hresolved' := catalogue_resolved lib fs' hfits h'
    rw [← hsame.applicationOf_eq lib] at hresolved'
    exact (catalogue_resolved lib fs hfits h).perm hresolved' fun place _ => hsame.names place

end SystemMonitor.Desktop
