import SystemMonitor.Desktop.KeyFiles
import SystemMonitor.Desktop.Precedence

/-! Switching a startup application on or off.

A system entry is never edited: its file is copied into the user's directory under the same
name, with two keys set. `startup_toggle`: the copy is the only file that is written, and a
second collection finds the same entries but for the switched one, which is now the user's
and is enabled as asked, where the session allows it. -/
namespace SystemMonitor.Desktop
open Lib CStrings Precedence

/-! ### Files -/

structure GError where
  code : Nat
  message : Text
  deriving DecidableEq

/-- The directories and the contents of the files. -/
structure Disk where
  directory : Text → Directory
  content : Text → Option Text
  names_plain : ∀ path names complete, directory path = .listed names complete →
    ∀ name ∈ names, 0 ∉ name ∧ 47 ∉ name

/-- What the collector sees of the files. -/
def Disk.fileSystem (g : KeyFileLibrary) (disk : Disk) : FileSystem where
  directory := disk.directory
  keyFile path := ((disk.content path).bind g.loadFromData).map g.keyFile

/-- What the calls that may fail come back with; zero is success. -/
structure Calls where
  loadError : Text → GError
  dataError : GError
  mkdirParents : Text → Nat
  atomicFileWriteBytes : Text → Text → Nat
  strerror : Nat → Text

def einval : Nat := 22
def enametoolong : Nat := 36

/-- A file that was replaced. -/
structure Write where
  target : Text
  data : Text
  deriving DecidableEq

/-! ### The backend -/

section
variable (lib : Library) (g : KeyFileLibrary) (calls : Calls) (env : Environment) (disk : Disk)

def writeStartupOverride (sourcePath desktopId : Text) (enable : Bool) : Except GError Write :=
  match (disk.content sourcePath).bind g.loadFromData with
  | none => .error (calls.loadError sourcePath)
  | some file =>
    let file := g.setBoolean file (ascii "Hidden") !enable
    let file := g.setBoolean file (ascii "X-GNOME-Autostart-enabled") enable
    match g.toData file with
    | none => .error calls.dataError
    | some data =>
      match (xdgHome env).bind fun configHome => joinPath lib configHome (ascii "autostart") with
      | none => .error ⟨enametoolong, ascii "Startup configuration path is too long"⟩
      | some directory =>
        let mkdirFailure := calls.mkdirParents directory
        if mkdirFailure ≠ 0 then
          .error ⟨mkdirFailure, ascii "Unable to create " ++ directory ++ ascii ": " ++ calls.strerror mkdirFailure⟩
        else
          match joinPath lib directory desktopId with
          | none => .error ⟨enametoolong, ascii "Startup override path is too long"⟩
          | some target =>
            let failure := calls.atomicFileWriteBytes target data
            if failure = 0 then .ok ⟨target, data⟩
            else .error ⟨failure, ascii "Unable to write " ++ target ++ ascii ": " ++ calls.strerror failure⟩

/-- The identity is one basename, and the source has it too. -/
def validToggle (id sourceIdentity source : Text) : Bool :=
  !id.isEmpty && decide (id.length < 128) && (ascii ".desktop").isSuffixOf id && decide (8 < id.length) &&
    !id.contains 47 && !id.contains 92 && !sourceIdentity.isEmpty && !source.isEmpty &&
    lib.pathBasename sourceIdentity == id && lib.pathBasename source == id

def lsmStartupBackendSetEnabled (id sourceIdentity originIdentity : Text) (enabled : Bool) : Except GError Write :=
  let source := if originIdentity = [] then sourceIdentity else originIdentity
  if validToggle lib id sourceIdentity source then writeStartupOverride lib g calls env disk source id enabled
  else .error ⟨einval, ascii "Invalid startup desktop-file identity"⟩

end

/-- One file of a directory has been replaced or made, and no other path leads to it; the rest of the
disk is as before, in any order of the names. -/
structure Overridden (lib : Library) (disk disk' : Disk) (directory id data : Text) : Prop where
  content : disk'.content (lib.fullPath directory id) = some data
  otherContent : ∀ base name, name ≠ id → 47 ∉ name →
    disk'.content (lib.fullPath base name) = disk.content (lib.fullPath base name)
  listed : ∃ names, disk'.directory directory = .listed names true ∧ id ∈ names
  otherNames : ∀ path, disk'.directory path = disk.directory path ∨
    ∃ names names', (disk.directory path = .listed names true ∨ disk.directory path = .missing ∧ names = []) ∧
      disk'.directory path = .listed names' true ∧
        ∀ name, isDesktopName name = true → name ≠ id → (name ∈ names' ↔ name ∈ names)

/-! ### When a collection succeeds -/

section
variable (lib : Library) (session : Session) (fs : FileSystem)

/-- The directory is missing, or it is read to its end. -/
def Readable (path : Text) : Prop := fs.directory path = .missing ∨ ∃ names, fs.directory path = .listed names true

/-- Every directory can be read, and every name that has not been seen fits. -/
def Scannable : List Text → (Text → Prop) → Prop
  | [], _ => True
  | base :: bases, seen =>
    (lib.fullPath base (ascii "autostart")).length < 512 ∧ Readable fs (lib.fullPath base (ascii "autostart")) ∧
      (∀ name ∈ desktopNames fs (lib.fullPath base (ascii "autostart")), ¬ seen name →
        (lib.fullPath (lib.fullPath base (ascii "autostart")) name).length < 512) ∧
      Scannable bases fun name => seen name ∨ name ∈ desktopNames fs (lib.fullPath base (ascii "autostart"))

theorem scanStartupNames_isSome {directory : Text} {userEntry : Bool} {names : List Text}
    {state : List LsmStartupEntry × List Text} :
    (scanStartupNames lib session fs directory userEntry names state).isSome = true ↔
      ∀ name ∈ names.filter isDesktopName, name ∉ state.2 → (lib.fullPath directory name).length < 512 := by
  induction names generalizing state with
  | nil => exact iff_of_true rfl fun name hname => absurd hname List.not_mem_nil
  | cons name names ih =>
    obtain ⟨entries, seen⟩ := state
    rw [scanStartupNames]
    cases hname : isDesktopName name with
    | false =>
      rw [List.filter_cons_of_neg (by rw [hname]; decide)]
      exact ih
    | true =>
      rw [List.filter_cons_of_pos hname, Bool.not_true, Bool.false_or]
      by_cases hseen : name ∈ seen
      · rw [if_pos (List.contains_iff_mem.mpr hseen), ih]
        constructor
        · intro h other hother hnew
          rcases List.mem_cons.mp hother with rfl | hother
          · exact absurd hseen hnew
          · exact h other hother hnew
        · exact fun h other hother => h other (List.mem_cons_of_mem _ hother)
      · rw [if_neg fun hmem => hseen (List.contains_iff_mem.mp hmem)]
        have hlater : ∀ entries' : List LsmStartupEntry, (lib.fullPath directory name).length < 512 →
            ((scanStartupNames lib session fs directory userEntry names (entries', name :: seen)).isSome = true ↔
              ∀ other ∈ name :: names.filter isDesktopName, other ∉ seen → (lib.fullPath directory other).length < 512) := by
          intro entries' hfits
          rw [ih]
          constructor
          · intro h other hother hnew
            by_cases hsame : other = name
            · rwa [hsame]
            · exact h other ((List.mem_cons.mp hother).resolve_left hsame)
                (List.not_mem_cons_of_ne_of_not_mem hsame hnew)
          · exact fun h other hother hnew => h other (List.mem_cons_of_mem _ hother) fun hold =>
              hnew (List.mem_cons_of_mem _ hold)
        cases hjoin : joinPath lib directory name with
        | none =>
          refine iff_of_false Bool.false_ne_true fun h => ?_
          have hsome := (joinPath_eq_some lib).mpr ⟨h name (List.mem_cons_self ..) hseen, rfl⟩
          rw [hjoin] at hsome
          cases hsome
        | some path =>
          have hfits := ((joinPath_eq_some lib).mp hjoin).1
          dsimp only
          cases loadStartupEntry lib session fs path name userEntry with
          | none => exact hlater entries hfits
          | some entry => exact hlater (entries ++ [entry]) hfits

theorem scanDirectory_isSome {directory : Text} {userEntry : Bool} {state : List LsmStartupEntry × List Text} :
    (scanDirectory lib session fs directory userEntry state).isSome = true ↔ Readable fs directory ∧
      ∀ name ∈ desktopNames fs directory, name ∉ state.2 → (lib.fullPath directory name).length < 512 := by
  rw [scanDirectory, Readable, desktopNames]
  cases fs.directory directory with
  | missing => exact iff_of_true rfl ⟨.inl rfl, fun name hname => absurd hname List.not_mem_nil⟩
  | failed =>
    refine iff_of_false Bool.false_ne_true fun h => ?_
    rcases h.1 with hmissing | ⟨_, hlisted⟩
    · cases hmissing
    · cases hlisted
  | listed names complete =>
    dsimp only
    rw [← @scanStartupNames_isSome lib session fs directory userEntry names state]
    cases scanStartupNames lib session fs directory userEntry names state with
    | none => exact iff_of_false Bool.false_ne_true fun h => Bool.false_ne_true h.2
    | some scanned =>
      cases complete with
      | true => exact iff_of_true rfl ⟨.inr ⟨names, rfl⟩, rfl⟩
      | false =>
        refine iff_of_false Bool.false_ne_true fun h => ?_
        rcases h.1 with hmissing | ⟨_, hlisted⟩
        · cases hmissing
        · cases hlisted

theorem scanBases_isSome {bases : List (Text × Bool)} {state : List LsmStartupEntry × List Text} :
    (scanBases lib session fs bases state).isSome = true ↔ Scannable lib fs (bases.map Prod.fst) (· ∈ state.2) := by
  induction bases generalizing state with
  | nil => exact iff_of_true rfl trivial
  | cons base bases ih =>
    obtain ⟨base, userEntry⟩ := base
    have hone := @scanDirectory_isSome lib session fs (lib.fullPath base (ascii "autostart")) userEntry state
    rw [scanBases, List.map_cons, Scannable]
    cases hjoin : joinPath lib base (ascii "autostart") with
    | none =>
      refine iff_of_false Bool.false_ne_true fun h => ?_
      have hsome := (joinPath_eq_some lib).mpr ⟨h.1, rfl⟩
      rw [hjoin] at hsome
      cases hsome
    | some path =>
      obtain ⟨hfits, rfl⟩ := (joinPath_eq_some lib).mp hjoin
      rw [and_iff_right hfits, ← and_assoc, ← hone]
      dsimp only
      cases hscan : scanDirectory lib session fs (lib.fullPath base (ascii "autostart")) userEntry state with
      | none => exact iff_of_false Bool.false_ne_true fun h => Bool.false_ne_true h.1
      | some scanned =>
        have hseen : (fun name => name ∈ scanned.2) =
            fun name => name ∈ state.2 ∨ name ∈ desktopNames fs (lib.fullPath base (ascii "autostart")) := by
          funext name
          rw [scanDirectory_eq lib session fs hscan]
          exact propext mem_scanOne
        rw [← hseen]
        exact ih.trans (and_iff_right rfl).symm

/-- The bases in order of priority, the user's first. -/
def startupBases (configHome : Text) (env : Environment) : List Text := configHome :: configDirs env

theorem map_fst_bases (configHome : Text) (env : Environment) :
    ((configHome, true) :: (configDirs env).map fun base => (base, false)).map Prod.fst = startupBases configHome env := by
  rw [List.map_cons, List.map_map, startupBases]
  exact congrArg _ (List.map_id _)

theorem collect_isSome {env : Environment} : (lsmStartupBackendCollect lib session env fs).isSome = true ↔
    ∃ configHome, xdgHome env = some configHome ∧ Scannable lib fs (startupBases configHome env) fun _ => False := by
  rw [lsmStartupBackendCollect]
  cases xdgHome env with
  | none =>
    refine iff_of_false Bool.false_ne_true fun h => ?_
    obtain ⟨_, hhome, -⟩ := h
    cases hhome
  | some configHome =>
    have hscan := @scanBases_isSome lib session fs ((configHome, true) :: (configDirs env).map fun base => (base, false)) ([], [])
    have hempty : (fun name : Text => name ∈ ([] : List Text)) = fun _ => False :=
      funext fun _ => propext (iff_false_intro List.not_mem_nil)
    rw [map_fst_bases, hempty] at hscan
    rw [Option.isSome_map, hscan]
    constructor
    · intro h
      exact ⟨configHome, rfl, h⟩
    · intro h
      obtain ⟨_, hhome, h⟩ := h
      exact Option.some.inj hhome ▸ h

end

/-! ### What is collected -/

section
variable (lib : Library) (session : Session) {fs : FileSystem}

theorem startupEntry_eq_some {file : KeyFile} {path id : Text} {userEntry : Bool} {entry : LsmStartupEntry} :
    startupEntry lib session file path id userEntry = some entry ↔
      (desktopString file (ascii "Type") = [] ∨ desktopString file (ascii "Type") = ascii "Application") ∧
      entry =
        { id := .ofText id
          sourceIdentity := .ofText path
          originIdentity := .ofText path
          name := .ofText (if desktopString file (ascii "Name") = [] then id else desktopString file (ascii "Name"))
          command := .ofText (desktopString file (ascii "Exec"))
          description := .ofText (desktopString file (ascii "Comment"))
          userEntry
          enabled := !desktopBoolean file (ascii "Hidden") false &&
            desktopBoolean file (ascii "X-GNOME-Autostart-enabled") true && desktopEnvironmentAllows session file &&
            tryExecAvailable lib session file } := by
  rw [startupEntry]
  dsimp only
  split
  next htype => exact iff_of_false nofun fun h => htype h.1
  next htype =>
    rw [and_iff_right (not_not.mp htype), Option.some_inj]
    exact eq_comm

/-- The file with its two keys set. -/
structure Switched (file switched : KeyFile) (enabled : Bool) : Prop where
  string : ∀ key, key ≠ ascii "Hidden" → key ≠ ascii "X-GNOME-Autostart-enabled" → switched.string key = file.string key
  hidden : switched.boolean (ascii "Hidden") = some !enabled
  autostart : switched.boolean (ascii "X-GNOME-Autostart-enabled") = some enabled

/-- The entry as it is to be after the switch. -/
def LsmStartupEntry.toggled (entry : LsmStartupEntry) (target : Text) (enabled : Bool) : LsmStartupEntry :=
  {entry with
    sourceIdentity := .ofText target
    originIdentity := .ofText target
    userEntry := true
    enabled}

theorem Switched.startupEntry {file switched : KeyFile} {enabled : Bool} (h : Switched file switched enabled)
    {path id target : Text} {userEntry : Bool} {entry : LsmStartupEntry}
    (hentry : startupEntry lib session file path id userEntry = some entry) :
    Desktop.startupEntry lib session switched target id true =
      some (entry.toggled target (enabled && desktopEnvironmentAllows session file && tryExecAvailable lib session file)) := by
  obtain ⟨htype, rfl⟩ := (startupEntry_eq_some lib session).mp hentry
  have hstring : ∀ key, key ≠ ascii "Hidden" → key ≠ ascii "X-GNOME-Autostart-enabled" →
      desktopString switched key = desktopString file key := fun key hhidden hshown =>
    congrArg (Option.getD · []) (h.string key hhidden hshown)
  have hallows : desktopEnvironmentAllows session switched = desktopEnvironmentAllows session file := by
    rw [desktopEnvironmentAllows, desktopEnvironmentAllows, hstring (ascii "OnlyShowIn") (by decide) (by decide),
      hstring (ascii "NotShowIn") (by decide) (by decide)]
  have htry : tryExecAvailable lib session switched = tryExecAvailable lib session file := by
    rw [tryExecAvailable, tryExecAvailable, hstring (ascii "TryExec") (by decide) (by decide)]
  have hhidden : desktopBoolean switched (ascii "Hidden") false = !enabled := congrArg (Option.getD · false) h.hidden
  have hautostart : desktopBoolean switched (ascii "X-GNOME-Autostart-enabled") true = enabled :=
    congrArg (Option.getD · true) h.autostart
  refine (startupEntry_eq_some lib session).mpr ⟨?_, ?_⟩
  · rwa [hstring (ascii "Type") (by decide) (by decide)]
  · rw [hstring (ascii "Name") (by decide) (by decide), hstring (ascii "Exec") (by decide) (by decide),
      hstring (ascii "Comment") (by decide) (by decide), hallows, htry, hhidden, hautostart, Bool.not_not, Bool.and_self]
    rfl

/-- The path of a name fits, in the place that gives its entry. -/
theorem Scannable.fits {bases : List (Text × Bool)} {seen : Text → Prop} (h : Scannable lib fs (bases.map Prod.fst) seen)
    {name : Text} (hnew : ¬ seen name) {load : Text × Bool → Text → Option LsmStartupEntry} {entry : LsmStartupEntry}
    (hentry : effective (fun place : Text × Bool => desktopNames fs place.1) load
      (bases.map fun base => (lib.fullPath base.1 (ascii "autostart"), base.2)) name = some entry) :
    ∃ base ∈ bases, name ∈ desktopNames fs (lib.fullPath base.1 (ascii "autostart")) ∧
      load (lib.fullPath base.1 (ascii "autostart"), base.2) name = some entry ∧
      (lib.fullPath (lib.fullPath base.1 (ascii "autostart")) name).length < 512 := by
  induction bases generalizing seen with
  | nil => cases hentry
  | cons base bases ih =>
    obtain ⟨-, -, hnames, hrest⟩ := h
    rw [List.map_cons, effective_cons] at hentry
    split at hentry
    next hhere => exact ⟨base, List.mem_cons_self .., hhere, hentry, hnames name hhere hnew⟩
    next hhere =>
      obtain ⟨other, hother, hfound⟩ := ih hrest (fun hseen => hseen.elim hnew hhere) hentry
      exact ⟨other, List.mem_cons_of_mem _ hother, hfound⟩

end

/-! ### The disk after a switch -/

section
variable {lib : StartupLibrary} {g : KeyFileLibrary} {disk disk' : Disk} {directory id data : Text}

theorem Overridden.readable (h : Overridden lib.toLibrary disk disk' directory id data) {path : Text}
    (hpath : Readable (disk.fileSystem g) path) : Readable (disk'.fileSystem g) path := by
  rcases h.otherNames path with hsame | ⟨names, names', -, hlisted, -⟩
  · rw [Readable, Disk.fileSystem] at hpath ⊢
    dsimp only at hpath ⊢
    rwa [hsame]
  · exact .inr ⟨names', hlisted⟩

theorem Overridden.mem_desktopNames (h : Overridden lib.toLibrary disk disk' directory id data) {path name : Text}
    (hname : name ≠ id) :
    name ∈ desktopNames (disk'.fileSystem g) path ↔ name ∈ desktopNames (disk.fileSystem g) path := by
  rw [desktopNames, desktopNames, Disk.fileSystem, Disk.fileSystem]
  dsimp only
  rcases h.otherNames path with hsame | ⟨names, names', hbefore, hlisted, hsame⟩
  · rw [hsame]
  · rw [hlisted]
    rcases hbefore with hbefore | ⟨hbefore, rfl⟩
    · rw [hbefore]
      dsimp only
      rw [List.mem_filter, List.mem_filter]
      exact and_congr_left fun hdesktop => hsame name hdesktop hname
    · rw [hbefore]
      dsimp only
      rw [List.mem_filter]
      exact iff_of_false (fun hmem => List.not_mem_nil ((hsame name hmem.2 hname).mp hmem.1)) List.not_mem_nil

theorem Overridden.mem_own (h : Overridden lib.toLibrary disk disk' directory id data) (hid : isDesktopName id = true) :
    id ∈ desktopNames (disk'.fileSystem g) directory := by
  obtain ⟨names, hlisted, hmem⟩ := h.listed
  rw [desktopNames, Disk.fileSystem]
  dsimp only
  rw [hlisted]
  exact List.mem_filter.mpr ⟨hmem, hid⟩

/-- Behind the place of the switched file a collection goes as before. -/
theorem Overridden.scannable (h : Overridden lib.toLibrary disk disk' directory id data) {bases : List Text}
    {seen seen' : Text → Prop} (hscan : Scannable lib.toLibrary (disk.fileSystem g) bases seen)
    (hid : seen' id) (hseen : ∀ name, seen name → seen' name) :
    Scannable lib.toLibrary (disk'.fileSystem g) bases seen' := by
  induction bases generalizing seen seen' with
  | nil => trivial
  | cons base bases ih =>
    obtain ⟨hfits, hreadable, hnames, hrest⟩ := hscan
    refine ⟨hfits, h.readable hreadable, fun name hname hnew => ?_, ih hrest (.inl hid) fun name hname => ?_⟩
    · have hother : name ≠ id := fun heq => hnew (heq ▸ hid)
      exact hnames name ((h.mem_desktopNames hother).mp hname) fun hold => hnew (hseen name hold)
    · rcases hname with hold | hlisted
      · exact .inl (hseen name hold)
      · by_cases hother : name = id
        · exact .inl (hother ▸ hid)
        · exact .inr ((h.mem_desktopNames hother).mpr hlisted)

end

/-! ### The switch -/

/-- The variables of an environment are C strings. -/
structure Environment.Plain (env : Environment) : Prop where
  home : ∀ home, env.home = some home → 0 ∉ home
  dirs : 0 ∉ env.dirs

theorem Environment.Plain.bases {env : Environment} (h : env.Plain) {configHome : Text}
    (hhome : xdgHome env = some configHome) : ∀ base ∈ startupBases configHome env, 0 ∉ base := by
  intro base hbase
  rcases List.mem_cons.mp hbase with rfl | hbase
  · exact h.home base (Option.filter_eq_some_iff.mp hhome).1
  · intro hmem
    have hdirs := ((mem_tokens hbase).2 0 hmem).1
    split at hdirs
    · exact absurd hdirs (by decide)
    · exact h.dirs hdirs

section
variable {lib : StartupLibrary} {session : Session} {g : KeyFileLibrary} {calls : Calls} {env : Environment} {disk : Disk}

/-- What a switch that succeeds has done. -/
structure SetEnabled (lib : Library) (g : KeyFileLibrary) (env : Environment) (disk : Disk) (source id : Text)
    (enabled : Bool) (configHome : Text) (file : g.File) (write : Write) : Prop where
  valid : ∃ sourceIdentity, validToggle lib id sourceIdentity source = true
  home : xdgHome env = some configHome
  loaded : (disk.content source).bind g.loadFromData = some file
  data : g.toData (g.setBoolean (g.setBoolean file (ascii "Hidden") !enabled) (ascii "X-GNOME-Autostart-enabled") enabled) =
    some write.data
  fits : (lib.fullPath (lib.fullPath configHome (ascii "autostart")) id).length < 512
  target : write.target = lib.fullPath (lib.fullPath configHome (ascii "autostart")) id

theorem writeStartupOverride_eq_ok {lib : Library} {source id : Text} {enabled : Bool} {write : Write}
    (h : writeStartupOverride lib g calls env disk source id enabled = .ok write)
    (hvalid : ∃ sourceIdentity, validToggle lib id sourceIdentity source = true) :
    ∃ configHome file, SetEnabled lib g env disk source id enabled configHome file write := by
  rw [writeStartupOverride] at h
  cases hload : (disk.content source).bind g.loadFromData with
  | none =>
    rw [hload] at h
    cases h
  | some file =>
    rw [hload] at h
    dsimp only at h
    split at h
    next => cases h
    next data hdata =>
      split at h
      next => cases h
      next directory hdirectory =>
        obtain ⟨configHome, hhome, hjoin⟩ := Option.bind_eq_some_iff.mp hdirectory
        obtain ⟨-, rfl⟩ := (joinPath_eq_some lib).mp hjoin
        split at h
        next => cases h
        next =>
          split at h
          next => cases h
          next target htarget =>
            obtain ⟨hfits, rfl⟩ := (joinPath_eq_some lib).mp htarget
            split at h
            next =>
              cases h
              exact ⟨configHome, file, hvalid, hhome, hload, hdata, hfits, rfl⟩
            next => cases h

theorem setEnabled_eq_ok {lib : Library} {id sourceIdentity originIdentity : Text} {enabled : Bool} {write : Write}
    (h : lsmStartupBackendSetEnabled lib g calls env disk id sourceIdentity originIdentity enabled = .ok write) :
    ∃ configHome file, SetEnabled lib g env disk (if originIdentity = [] then sourceIdentity else originIdentity) id
      enabled configHome file write := by
  rw [lsmStartupBackendSetEnabled] at h
  generalize (if originIdentity = [] then sourceIdentity else originIdentity) = source at h ⊢
  split at h
  next hvalid => exact writeStartupOverride_eq_ok h ⟨sourceIdentity, hvalid⟩
  next => cases h

theorem SetEnabled.name {lib : Library} {source id configHome : Text} {enabled : Bool} {file : g.File} {write : Write}
    (h : SetEnabled lib g env disk source id enabled configHome file write) :
    isDesktopName id = true ∧ 47 ∉ id ∧ lib.pathBasename source = id := by
  obtain ⟨sourceIdentity, hvalid⟩ := h.valid
  simp only [validToggle, Bool.and_eq_true, Bool.not_eq_true', decide_eq_true_eq, beq_iff_eq, List.contains_eq_mem,
    decide_eq_false_iff_not] at hvalid
  obtain ⟨⟨⟨⟨⟨⟨⟨⟨⟨-, -⟩, hsuffix⟩, hlong⟩, hslash⟩, -⟩, -⟩, -⟩, -⟩, hbase⟩ := hvalid
  exact ⟨Bool.and_eq_true_iff.mpr ⟨decide_eq_true hlong, hsuffix⟩, hslash, hbase⟩

/-- What was written loads as the file with its two keys set. -/
theorem SetEnabled.switched {lib : Library} {source id configHome : Text} {enabled : Bool} {file : g.File} {write : Write}
    (h : SetEnabled lib g env disk source id enabled configHome file write) :
    ∃ loaded, g.loadFromData write.data = some loaded ∧ Switched (g.keyFile file) (g.keyFile loaded) enabled := by
  obtain ⟨loaded, hload, hkeys⟩ := g.loadFromData_toData _ _ h.data
  refine ⟨loaded, hload, fun key hhidden hautostart => ?_, ?_, ?_⟩
  · rw [hkeys, g.string_other _ _ _ _ hautostart, g.string_other _ _ _ _ hhidden]
  · rw [hkeys, g.boolean_other _ _ _ _ (by decide), g.boolean_set]
  · rw [hkeys, g.boolean_set]

/-- Where an entry comes from. -/
structure Collected (lib : Library) (session : Session) (fs : FileSystem) (env : Environment) (entry : LsmStartupEntry)
    (name path : Text) (userEntry : Bool) (file : KeyFile) : Prop where
  effective : effective (fun place : Text × Bool => desktopNames fs place.1) (startupOf lib session fs)
    (startupPlaces lib env) name = some entry
  source : entry.sourceIdentity.text = path
  origin : entry.originIdentity.text = path
  basename : lib.pathBasename path = name
  keyFile : fs.keyFile path = some file
  entry : startupEntry lib session file path name userEntry = some entry

theorem mem_desktopNames_plain {path name : Text} (h : name ∈ desktopNames (disk.fileSystem g) path) :
    0 ∉ name ∧ 47 ∉ name := by
  rw [desktopNames, Disk.fileSystem] at h
  dsimp only at h
  cases hdirectory : disk.directory path with
  | missing =>
    rw [hdirectory] at h
    cases h
  | failed =>
    rw [hdirectory] at h
    cases h
  | listed names complete =>
    rw [hdirectory] at h
    exact disk.names_plain path names complete hdirectory name (List.mem_filter.mp h).1

theorem collected_of_mem (henv : env.Plain) {entries : List LsmStartupEntry}
    (h : lsmStartupBackendCollect lib.toLibrary session env (disk.fileSystem g) = some entries) {entry : LsmStartupEntry}
    (hentry : entry ∈ entries) : ∃ name path userEntry file,
      Collected lib.toLibrary session (disk.fileSystem g) env entry name path userEntry file := by
  obtain ⟨configHome, hhome, hscan⟩ := (collect_isSome lib.toLibrary session (disk.fileSystem g)).mp
    (Option.isSome_iff_exists.mpr ⟨entries, h⟩)
  obtain ⟨order, -, -, rfl⟩ := startup_resolved lib.toLibrary session (disk.fileSystem g) h
  obtain ⟨name, -, heffective⟩ := List.mem_filterMap.mp hentry
  have hfound := heffective
  rw [startupPlaces_eq lib.toLibrary hhome] at hfound
  rw [← map_fst_bases configHome env] at hscan
  obtain ⟨base, hbase, hname, hstartup, hfits⟩ := hscan.fits lib.toLibrary id hfound
  obtain ⟨file, hfile, hload⟩ := Option.bind_eq_some_iff.mp hstartup
  obtain ⟨hnul, hslash⟩ := mem_desktopNames_plain hname
  have hhomes : base.1 ∈ startupBases configHome env := by
    rw [← map_fst_bases]
    exact List.mem_map_of_mem hbase
  have hdirectory : 0 ∉ lib.fullPath base.1 (ascii "autostart") :=
    lib.fullPath_noNul _ _ (henv.bases hhome _ hhomes) (by decide)
  generalize lib.fullPath base.1 (ascii "autostart") = directory at *
  have htext : (Chars.ofText (lib.fullPath directory name) : Chars 512).text = lib.fullPath directory name :=
    Chars.ofText_text (lib.fullPath_noNul _ _ hdirectory hnul) (Nat.le_sub_one_of_lt hfits)
  refine ⟨name, lib.fullPath directory name, base.2, file, heffective, ?_, ?_, lib.pathBasename_fullPath _ _ hslash,
    hfile, hload⟩
  · rw [((startupEntry_eq_some lib.toLibrary session).mp hload).2]
    exact htext
  · rw [((startupEntry_eq_some lib.toLibrary session).mp hload).2]
    exact htext

/-- A second collection succeeds too. -/
theorem collect_overridden {disk' : Disk} {configHome id data : Text} (hhome : xdgHome env = some configHome)
    (hcollect : (lsmStartupBackendCollect lib.toLibrary session env (disk.fileSystem g)).isSome = true)
    (hid : isDesktopName id = true) (hfits : (lib.fullPath (lib.fullPath configHome (ascii "autostart")) id).length < 512)
    (hover : Overridden lib.toLibrary disk disk' (lib.fullPath configHome (ascii "autostart")) id data) :
    (lsmStartupBackendCollect lib.toLibrary session env (disk'.fileSystem g)).isSome = true := by
  obtain ⟨home, hsame, hdirectory, hreadable, hnames, hrest⟩ :=
    (collect_isSome lib.toLibrary session (disk.fileSystem g)).mp hcollect
  obtain rfl : home = configHome := Option.some.inj (hsame.symm.trans hhome)
  have hown := @Overridden.mem_own lib g _ _ _ _ _ hover hid
  refine (collect_isSome lib.toLibrary session (disk'.fileSystem g)).mpr
    ⟨home, hhome, hdirectory, hover.readable hreadable, fun name hname _ => ?_, hover.scannable hrest (.inr hown) ?_⟩
  · by_cases hother : name = id
    · rwa [hother]
    · exact hnames name ((hover.mem_desktopNames hother).mp hname) not_false
  · intro name hname
    refine .inr (hname.elim False.elim fun hmem => ?_)
    by_cases hother : name = id
    · rwa [hother]
    · exact (hover.mem_desktopNames hother).mpr hmem

/-- The other files load as before. -/
theorem startupOf_overridden {disk' : Disk} {directory id data : Text}
    (hover : Overridden lib.toLibrary disk disk' directory id data) {place : Text × Bool} {name : Text}
    (hname : name ∈ desktopNames (disk.fileSystem g) place.1) (hother : name ≠ id) :
    startupOf lib.toLibrary session (disk'.fileSystem g) place name =
      startupOf lib.toLibrary session (disk.fileSystem g) place name := by
  have hcontent := hover.otherContent place.1 name hother (mem_desktopNames_plain hname).2
  rw [startupOf, startupOf, loadStartupEntry, loadStartupEntry, Disk.fileSystem, Disk.fileSystem]
  dsimp only
  rw [hcontent]

/-- **Only the user's file of that name is written, and then the entry is the user's, as asked, among
the same others.** -/
theorem startup_toggle (lib : StartupLibrary) (session : Session) (g : KeyFileLibrary) (calls : Calls) (env : Environment)
    (disk : Disk) :
    (∀ id sourceIdentity originIdentity enabled write,
      lsmStartupBackendSetEnabled lib.toLibrary g calls env disk id sourceIdentity originIdentity enabled = .ok write →
      ∃ configHome, xdgHome env = some configHome ∧ 47 ∉ id ∧
        write.target = lib.fullPath (lib.fullPath configHome (ascii "autostart")) id) ∧
    (env.Plain → ∀ entries, lsmStartupBackendCollect lib.toLibrary session env (disk.fileSystem g) = some entries →
      ∀ entry ∈ entries, ∀ enabled write,
      lsmStartupBackendSetEnabled lib.toLibrary g calls env disk entry.id.text entry.sourceIdentity.text
        entry.originIdentity.text enabled = .ok write →
      ∀ configHome, xdgHome env = some configHome → ∀ disk',
      Overridden lib.toLibrary disk disk' (lib.fullPath configHome (ascii "autostart")) entry.id.text write.data →
      ∃ file rest entries', (disk.fileSystem g).keyFile entry.sourceIdentity.text = some file ∧
        entries.Perm (entry :: rest) ∧
        lsmStartupBackendCollect lib.toLibrary session env (disk'.fileSystem g) = some entries' ∧
        entries'.Perm (entry.toggled write.target (enabled && desktopEnvironmentAllows session file &&
          tryExecAvailable lib.toLibrary session file) :: rest)) := by
  constructor
  · intro id sourceIdentity originIdentity enabled write h
    obtain ⟨configHome, file, hset⟩ := setEnabled_eq_ok h
    exact ⟨configHome, hset.home, hset.name.2.1, hset.target⟩
  intro henv entries hcollect entry hentry enabled write hwrite configHome hhome disk' hover
  obtain ⟨name, path, userEntry, file, hfrom⟩ := collected_of_mem henv hcollect hentry
  obtain ⟨configHome', keys, hset⟩ := setEnabled_eq_ok hwrite
  obtain rfl : configHome' = configHome := Option.some.inj (hset.home.symm.trans hhome)
  rw [hfrom.source, hfrom.origin, ite_self] at hset
  -- the source has been accepted under the name it was found by
  obtain ⟨hdesktop, hslash, hbasename⟩ := hset.name
  obtain rfl : name = entry.id.text := hfrom.basename.symm.trans hbasename
  have hfile : g.keyFile keys = file := by
    have hkeys := hfrom.keyFile
    rw [Disk.fileSystem] at hkeys
    dsimp only at hkeys
    rw [hset.loaded] at hkeys
    exact Option.some.inj hkeys
  obtain ⟨loaded, hload, hswitched⟩ := hset.switched
  rw [hfile] at hswitched
  obtain ⟨entries', hcollect'⟩ := Option.isSome_iff_exists.mp
    (collect_overridden hhome (Option.isSome_iff_exists.mpr ⟨entries, hcollect⟩) hdesktop hset.fits hover)
  have hown : effective (fun place : Text × Bool => desktopNames (disk'.fileSystem g) place.1)
      (startupOf lib.toLibrary session (disk'.fileSystem g)) (startupPlaces lib.toLibrary env) entry.id.text =
        some (entry.toggled write.target (enabled && desktopEnvironmentAllows session file &&
          tryExecAvailable lib.toLibrary session file)) := by
    rw [startupPlaces_eq lib.toLibrary hhome, List.map_cons, effective_cons, if_pos (hover.mem_own hdesktop), startupOf,
      loadStartupEntry, Disk.fileSystem]
    dsimp only
    rw [hover.content, Option.bind_some, hload, Option.map_some, Option.bind_some, ← hset.target]
    exact hswitched.startupEntry lib.toLibrary session hfrom.entry
  obtain ⟨rest, hbefore, hafter⟩ := (startup_resolved lib.toLibrary session _ hcollect).replaced
    (startup_resolved lib.toLibrary session _ hcollect') hfrom.effective hown
    (fun place _ other hother => hover.mem_desktopNames hother)
    fun place _ other hmem hother => startupOf_overridden hover hmem hother
  exact ⟨file, rest, entries', by rw [hfrom.source]; exact hfrom.keyFile, hbefore, hcollect', hafter⟩

end

/-! ### Replacing a file -/

def Directory.addName (id : Text) : Directory → Directory
  | .missing => .listed [id] true
  | .failed => .failed
  | .listed names complete => .listed (if id ∈ names then names else id :: names) complete

theorem addName_plain {id : Text} (hid : 0 ∉ id ∧ 47 ∉ id) (disk : Disk) (directory : Text) :
    ∀ path names complete,
      (if path = directory then (disk.directory path).addName id else disk.directory path) = .listed names complete →
      ∀ name ∈ names, 0 ∉ name ∧ 47 ∉ name := by
  intro path names complete h name hname
  split at h
  · cases hlisted : disk.directory path with
    | missing =>
      rw [hlisted] at h
      cases h
      exact List.mem_singleton.mp hname ▸ hid
    | failed =>
      rw [hlisted] at h
      cases h
    | listed before complete' =>
      rw [hlisted, Directory.addName] at h
      cases h
      split at hname
      · exact disk.names_plain path before complete hlisted name hname
      · rcases List.mem_cons.mp hname with rfl | hname
        · exact hid
        · exact disk.names_plain path before complete hlisted name hname
  · exact disk.names_plain path names complete h name hname

/-- The disk with one file replaced or made. -/
def Disk.override (lib : Library) (disk : Disk) (directory id data : Text) (hid : 0 ∉ id ∧ 47 ∉ id) : Disk where
  directory path := if path = directory then (disk.directory path).addName id else disk.directory path
  content path := if path = lib.fullPath directory id then some data else disk.content path
  names_plain := addName_plain hid disk directory

theorem Disk.override_overridden (lib : StartupLibrary) (g : KeyFileLibrary) {disk : Disk} {directory id data : Text}
    (hid : 0 ∉ id ∧ 47 ∉ id) (h : Readable (disk.fileSystem g) directory) :
    Overridden lib.toLibrary disk (disk.override lib.toLibrary directory id data hid) directory id data := by
  have hdirectory : (disk.override lib.toLibrary directory id data hid).directory directory =
      (disk.directory directory).addName id := if_pos rfl
  refine ⟨if_pos rfl, fun base name hother hslash => if_neg fun hsame => hother ?_, ?_, fun path => ?_⟩
  · rw [← lib.pathBasename_fullPath base name hslash, hsame, lib.pathBasename_fullPath directory id hid.2]
  · rw [hdirectory]
    rcases h with h | ⟨names, h⟩
    · rw [show disk.directory directory = .missing from h]
      exact ⟨[id], rfl, List.mem_singleton_self id⟩
    · rw [show disk.directory directory = .listed names true from h]
      refine ⟨_, rfl, ?_⟩
      split
      next hmem => exact hmem
      next => exact List.mem_cons_self ..
  · by_cases hpath : path = directory
    · subst hpath
      rw [hdirectory]
      rcases h with h | ⟨names, h⟩
      · rw [show disk.directory path = .missing from h]
        exact .inr ⟨[], [id], .inr ⟨rfl, rfl⟩, rfl, fun name _ hother =>
          iff_of_false (fun hmem => hother (List.mem_singleton.mp hmem)) List.not_mem_nil⟩
      · rw [show disk.directory path = .listed names true from h]
        refine .inr ⟨names, _, .inl rfl, rfl, fun name _ hother => ?_⟩
        split
        next => rfl
        next => rw [List.mem_cons, or_iff_right hother]
    · exact .inl (if_neg hpath)

/-! ### A system entry switched off -/

def userEnvironment : Environment where
  home := some (ascii "/h")
  dirs := []

def systemDirectory (path : Text) : Directory :=
  if path = ascii "/etc/xdg/autostart" then .listed [ascii "a.desktop"] true else .missing

theorem systemDirectory_plain (path : Text) (names : List Text) (complete : Bool)
    (h : systemDirectory path = .listed names complete) : ∀ name ∈ names, 0 ∉ name ∧ 47 ∉ name := by
  rw [systemDirectory] at h
  split at h
  · cases h
    decide
  · cases h

/-- The system has one application. -/
def systemDisk : Disk where
  directory := systemDirectory
  content path :=
    if path = ascii "/etc/xdg/autostart/a.desktop" then some (ascii "[Desktop Entry]\nName=A\nExec=a\n") else none
  names_plain := systemDirectory_plain

def systemEntry : LsmStartupEntry where
  id := .ofText (ascii "a.desktop")
  sourceIdentity := .ofText (ascii "/etc/xdg/autostart/a.desktop")
  originIdentity := .ofText (ascii "/etc/xdg/autostart/a.desktop")
  name := .ofText (ascii "A")
  command := .ofText (ascii "a")
  description := .empty
  userEntry := false
  enabled := true

def emptySession : Session where
  currentDesktop := none
  path := none
  executableFile _ := false

def noFailures : Calls where
  loadError _ := ⟨0, []⟩
  dataError := ⟨0, []⟩
  mkdirParents _ := 0
  atomicFileWriteBytes _ _ := 0
  strerror _ := []

/-- What switching the system's application off writes. -/
def switchedOff : Write where
  target := ascii "/h/autostart/a.desktop"
  data := ascii "[Desktop Entry]\nName=A\nExec=a\nHidden=true\nX-GNOME-Autostart-enabled=false\n"

theorem collect_system : lsmStartupBackendCollect Library.documented emptySession userEnvironment
    (systemDisk.fileSystem .documented) = some [systemEntry] := by decide

theorem systemEntry_off : lsmStartupBackendSetEnabled Library.documented .documented noFailures userEnvironment systemDisk
    systemEntry.id.text systemEntry.sourceIdentity.text systemEntry.originIdentity.text false = .ok switchedOff := by rfl

theorem userEnvironment_plain : userEnvironment.Plain where
  home home h := by
    cases h
    decide
  dirs := by decide

theorem systemName_plain : 0 ∉ ascii "a.desktop" ∧ 47 ∉ ascii "a.desktop" := by decide

theorem startup_toggle_system :
    ∃ file rest entries', (systemDisk.fileSystem .documented).keyFile systemEntry.sourceIdentity.text = some file ∧
      [systemEntry].Perm (systemEntry :: rest) ∧
      lsmStartupBackendCollect StartupLibrary.documented.toLibrary emptySession userEnvironment
        ((systemDisk.override .documented (ascii "/h/autostart") (ascii "a.desktop") switchedOff.data
          systemName_plain).fileSystem .documented) = some entries' ∧
      entries'.Perm (systemEntry.toggled switchedOff.target (false && desktopEnvironmentAllows emptySession file &&
        tryExecAvailable StartupLibrary.documented.toLibrary emptySession file) :: rest) :=
  (startup_toggle .documented emptySession .documented noFailures userEnvironment systemDisk).2 userEnvironment_plain
    [systemEntry] collect_system systemEntry (List.mem_singleton_self _) false switchedOff systemEntry_off (ascii "/h")
    (by decide) _ (Disk.override_overridden .documented .documented systemName_plain (.inl (by rfl)))

end SystemMonitor.Desktop
