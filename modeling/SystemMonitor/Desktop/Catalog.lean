import SystemMonitor.Common
import SystemMonitor.Lib.CStrings

/-! The catalogue of desktop applications.

Desktop files are found in an ordered list of directories and give an entry each, with
the identities it is registered under. A control group path names an application in one
of its components, and the lookup tries parts of that name. What is below a directory
and what GKeyFile makes of a file are inputs; memory is always there. -/
namespace SystemMonitor.Desktop
open Lib CStrings

/-- What the catalogue and the startup backend use of Common. -/
structure Library where
  asciiIsSpace : UInt8 → Bool
  asciiIsAlnum : UInt8 → Bool
  pathBasename : Text → Text
  /-- The path that `infiltratr_path_join` makes. -/
  fullPath : Text → Text → Text
  asciiIsSpace_iff : ∀ b, asciiIsSpace b = true ↔ b = 32 ∨ 9 ≤ b ∧ b ≤ 13
  pathBasename_name : ∀ name, 47 ∉ name → pathBasename name = name
  fullPath_length : ∀ base name, base.length ≤ (fullPath base name).length

theorem afterLast_name (name : Text) (h : 47 ∉ name) : afterLast 47 name = name := by
  have hall : ∀ b ∈ name.reverse, (b != 47) = true := by
    intro b hb
    exact bne_iff_ne.mpr fun heq => h (heq ▸ List.mem_reverse.mp hb)
  rw [afterLast, List.takeWhile_eq_self_iff.mpr hall, List.reverse_reverse]

theorem length_joined (base name : Text) :
    base.length ≤ ((if base.getLast? = some 47 then base else base ++ [47]) ++ name).length := by
  rw [List.length_append]
  split
  · exact Nat.le_add_right _ _
  · rw [List.length_append]
    omega

/-- The documented behaviour as functions. -/
def Library.documented : Library where
  asciiIsSpace b := b == 32 || (9 ≤ b && b ≤ 13)
  asciiIsAlnum b := (48 ≤ b && b ≤ 57) || (65 ≤ b && b ≤ 90) || (97 ≤ b && b ≤ 122)
  pathBasename t := afterLast 47 t
  fullPath base name := (if base.getLast? = some 47 then base else base ++ [47]) ++ name
  asciiIsSpace_iff := space_iff
  pathBasename_name := afterLast_name
  fullPath_length := length_joined

variable (lib : Library)

/-- `lsm_join_path` into a `char[LSM_PATH_LEN]`; `none`: it does not fit. -/
def joinPath (base name : Text) : Option Text :=
  if (lib.fullPath base name).length < 512 then some (lib.fullPath base name) else none

/-! ### Files -/

/-- The group `Desktop Entry` of a file that GKeyFile has loaded; `none`: the key is missing or
has no such value. -/
structure KeyFile where
  string : Text → Option Text
  boolean : Text → Option Bool

inductive Directory where
  | missing
  | failed
  /-- The names in the order of `readdir`; incomplete when reading or closing failed. -/
  | listed (names : List Text) (complete : Bool)

structure FileSystem where
  directory : Text → Directory
  /-- A function of the file's content; `none`: it could not be loaded. -/
  keyFile : Text → Option KeyFile

def desktopString (file : KeyFile) (key : Text) : Text := (file.string key).getD []

def desktopBoolean (file : KeyFile) (key : Text) (fallback : Bool) : Bool := (file.boolean key).getD fallback

/-- A name that ends in `.desktop` and is longer. -/
def isDesktopName (name : Text) : Bool := decide (8 < name.length) && (ascii ".desktop").isSuffixOf name

/-! ### Identities -/

/-- Into a `char[LSM_NAME_LEN]`. -/
def normaliseIdentity (input : Text) : Text :=
  if input = [] then [] else ((lib.pathBasename input).map asciiToLower).take 127

/-- The token up to its end, and the text behind it. -/
def tokenLoop (quote : Option UInt8) : Text → Text × Text
  | [] => ([], [])
  | b :: rest =>
    if (match quote with | some q => b == q | none => lib.asciiIsSpace b) then
      ([], if quote.isSome then rest else b :: rest)
    else if b = 92 then
      match rest with
      | [] => ([b], [])
      | c :: rest =>
        let (token, behind) := tokenLoop quote rest
        (c :: token, behind)
    else
      let (token, behind) := tokenLoop quote rest
      (b :: token, behind)

/-- The next token, as much of it as fits; `none`: there is none, or it is empty. -/
def readExecToken (cursor : Text) : Option (Text × Text) :=
  let (token, behind) :=
    match cursor.dropWhile lib.asciiIsSpace with
    | [] => ([], [])
    | b :: rest => if b = 39 ∨ b = 34 then tokenLoop lib (some b) rest else tokenLoop lib none (b :: rest)
  if token = [] then none else some (token.take 511, behind)

def assignmentToken (token : Text) : Bool :=
  let name := token.takeWhile (· != 61)
  decide (name.length < token.length) && !name.isEmpty && name.all fun b => lib.asciiIsAlnum b || b == 95

/-- The loop over the tokens, and what wrappers have been passed; each turn takes a byte at least. -/
def executableLoop : Nat → Text → Bool → Bool → Text
  | 0, _, _, _ => []
  | fuel + 1, cursor, environmentWrapper, flatpakWrapper =>
    match readExecToken lib cursor with
    | none => []
    | some (token, cursor) =>
      let identity := normaliseIdentity lib token
      if token.head? = some 37 ∨ identity = [] then executableLoop fuel cursor environmentWrapper flatpakWrapper
      else if !environmentWrapper ∧ (identity = ascii "env" ∨ identity = ascii "flatpak-spawn") then
        executableLoop fuel cursor true flatpakWrapper
      else if !environmentWrapper ∧ identity = ascii "flatpak" then executableLoop fuel cursor true true
      else if environmentWrapper ∧ (assignmentToken lib token = true ∨ token.head? = some 45) then
        executableLoop fuel cursor environmentWrapper flatpakWrapper
      else if flatpakWrapper ∧ identity = ascii "run" then executableLoop fuel cursor environmentWrapper flatpakWrapper
      else identity

def executableFromCommand (command : Text) : Text := executableLoop lib (command.length + 1) command false false

def desktopIdFromFilename (filename : Text) : Text :=
  let id := filename.take 127
  match strstr (ascii ".desktop") id with
  | some suffix => if suffix.length = 8 then id.take (id.length - 8) else id
  | none => id

/-! ### The catalogue -/

structure LsmApplicationEntry where
  id : Chars 128
  executable : Chars 128
  name : Chars 128
  icon : Chars 128
  deriving DecidableEq

structure LsmApplicationCatalog where
  byExecutable : List (Text × LsmApplicationEntry) := []
  entries : List LsmApplicationEntry := []
  complete : Bool := true
  deriving DecidableEq

/-- `g_hash_table_lookup`. -/
def LsmApplicationCatalog.find (catalog : LsmApplicationCatalog) (key : Text) : Option LsmApplicationEntry :=
  (catalog.byExecutable.find? (·.1 == key)).map Prod.snd

def registerIdentity (catalog : LsmApplicationCatalog) (identity : Text) (entry : LsmApplicationEntry) :
    LsmApplicationCatalog :=
  let normalised := normaliseIdentity lib identity
  if normalised = [] ∨ (catalog.find normalised).isSome then catalog
  else {catalog with byExecutable := (normalised, entry) :: catalog.byExecutable}

/-- What follows the last occurrence of a byte is an identity too. -/
def registerBehind (catalog : LsmApplicationCatalog) (byte : UInt8) (desktopId : Text) (entry : LsmApplicationEntry) :
    LsmApplicationCatalog :=
  if byte ∈ desktopId ∧ afterLast byte desktopId ≠ [] then registerIdentity lib catalog (afterLast byte desktopId) entry
  else catalog

def registerDesktopIdAliases (catalog : LsmApplicationCatalog) (desktopId : Text) (entry : LsmApplicationEntry) :
    LsmApplicationCatalog :=
  let catalog := registerIdentity lib catalog desktopId entry
  let catalog := registerBehind lib catalog 46 desktopId entry
  registerBehind lib catalog 95 desktopId entry

/-- The entry of a file; `none`: it is not an application that can be started. -/
def desktopEntry (file : KeyFile) (filename : Text) : Option LsmApplicationEntry :=
  let type := desktopString file (ascii "Type")
  if ¬ (type = [] ∨ type = ascii "Application") ∨ desktopBoolean file (ascii "Hidden") false then none
  else
    let executable := executableFromCommand lib (desktopString file (ascii "Exec"))
    if executable = [] then none
    else
      let name := desktopString file (ascii "Name")
      let icon := desktopString file (ascii "Icon")
      let id := desktopIdFromFilename filename
      some
        { id := .ofText id
          executable := .ofText executable
          name := .ofText (if name = [] then id else name)
          icon := .ofText (if icon = [] then ascii "application-x-executable" else icon) }

def loadDesktopFile (fs : FileSystem) (catalog : LsmApplicationCatalog) (path filename : Text) :
    LsmApplicationCatalog :=
  match fs.keyFile path with
  | none => catalog
  | some file =>
    match desktopEntry lib file filename with
    | none => catalog
    | some entry =>
      let catalog := {catalog with entries := catalog.entries ++ [entry]}
      let catalog := registerIdentity lib catalog entry.executable.text entry
      let catalog := registerDesktopIdAliases lib catalog entry.id.text entry
      registerIdentity lib catalog (desktopString file (ascii "StartupWMClass")) entry

/-- The loop over the names of a directory, with the names seen so far. -/
def scanNames (fs : FileSystem) (directory : Text) : List Text → LsmApplicationCatalog × List Text →
    LsmApplicationCatalog × List Text
  | [], state => state
  | name :: names, (catalog, seen) =>
    if !isDesktopName name || seen.contains name then scanNames fs directory names (catalog, seen)
    else
      match joinPath lib directory name with
      | none => scanNames fs directory names ({catalog with complete := false}, name :: seen)
      | some path => scanNames fs directory names (loadDesktopFile lib fs catalog path name, name :: seen)

def scanApplicationDirectory (fs : FileSystem) (directory : Text) (state : LsmApplicationCatalog × List Text) :
    LsmApplicationCatalog × List Text :=
  match fs.directory directory with
  | .missing => state
  | .failed => ({state.1 with complete := false}, state.2)
  | .listed names complete =>
    let (catalog, seen) := scanNames lib fs directory names state
    ({catalog with complete := catalog.complete && complete}, seen)

/-- One base directory; its path may not fit. -/
def scanBase (fs : FileSystem) (base : Text) (state : LsmApplicationCatalog × List Text) :
    LsmApplicationCatalog × List Text :=
  match joinPath lib base (ascii "applications") with
  | some path => scanApplicationDirectory lib fs path state
  | none => state

/-- The environment variables that name the base directories. -/
structure Environment where
  /-- The user's directory: `$XDG_DATA_HOME` or `$XDG_CONFIG_HOME`, or their defaults. -/
  home : Option Text
  /-- `$XDG_DATA_DIRS` or `$XDG_CONFIG_DIRS`. -/
  dirs : Text

/-- `lsm_xdg_data_home` and `lsm_xdg_config_home`, into a `char[LSM_PATH_LEN]`. -/
def xdgHome (env : Environment) : Option Text := env.home.filter fun home => decide (home.length < 512)

def isColon (b : UInt8) : Bool := b == 58

def dataDirs (env : Environment) : List Text :=
  tokens isColon (if env.dirs = [] then ascii "/usr/local/share:/usr/share" else env.dirs)

def lsmApplicationCatalogCreate (env : Environment) (fs : FileSystem) : Option LsmApplicationCatalog :=
  let state : LsmApplicationCatalog × List Text := ({}, [])
  let state := match xdgHome env with
    | some dataHome => scanBase lib fs dataHome state
    | none => state
  let state := (dataDirs env).foldl (fun state base => scanBase lib fs base state) state
  if state.1.complete then some state.1 else none

/-! ### Lookups -/

def lookupIdentity (catalog : LsmApplicationCatalog) (identity : Text) : Option LsmApplicationEntry :=
  let normalised := normaliseIdentity lib identity
  if normalised = [] then none else catalog.find normalised

section
variable {α : Type} (lookup : Text → Option α)

/-- The text up to the last dash; `none`: there is no dash. -/
def cutLastDash (t : Text) : Option Text :=
  match t.reverse.dropWhile (· != 45) with
  | [] => none
  | _ :: front => some front.reverse

/-- The loop that cuts words from the end of a variant; each turn takes a byte at least. -/
def variantLoop (scopeUnit : Bool) : Nat → Text → Option α
  | 0, _ => none
  | fuel + 1, variant =>
    match lookup variant with
    | some entry => some entry
    | none =>
      if !scopeUnit then none
      else match cutLastDash variant with
        | none => none
        | some front => if 46 ∉ variant ∨ front = [] then none else variantLoop scopeUnit fuel front

/-- The loop that cuts words from the start of the candidate. -/
def startLoop (scopeUnit : Bool) : Nat → Text → Option α
  | 0, _ => none
  | fuel + 1, start =>
    if start = [] then none
    else
      let found := if 46 ∈ start then variantLoop lookup scopeUnit (start.length + 1) start else none
      match found with
      | some entry => some entry
      | none =>
        match start.dropWhile (· != 45) with
        | [] => none
        | _ :: rest => startLoop scopeUnit fuel rest

/-- What is left of a payload in a `char[LSM_PATH_LEN]`, without an instance. -/
def candidateOf (payload : Text) : Text := (payload.take 511).takeWhile (· != 64)

/-- `lookup_application_unit_payload`, over what `lookup_identity` gives. -/
def lookupApplicationUnitPayload (payload : Text) (scopeUnit : Bool) : Option α :=
  startLoop lookup scopeUnit ((candidateOf payload).length + 1) (candidateOf payload)

/-- The payload of a component that is an application unit, and whether it is a scope. -/
def unitOf (component : Text) : Option (Text × Bool) :=
  if !(ascii "app-").isPrefixOf component then none
  else if 6 < component.length ∧ (ascii ".scope").isSuffixOf component then
    some ((component.take (component.length - 6)).drop 4, true)
  else if 8 < component.length ∧ (ascii ".service").isSuffixOf component then
    some ((component.take (component.length - 8)).drop 4, false)
  else none

def isSlash (b : UInt8) : Bool := b == 47

def componentLoop : List Text → Option α
  | [] => none
  | component :: components =>
    match unitOf component with
    | none => componentLoop components
    | some (payload, scopeUnit) =>
      match lookupApplicationUnitPayload lookup payload scopeUnit with
      | some entry => some entry
      | none => componentLoop components

def lookupCgroup (cgroupPath : Text) : Option α := componentLoop lookup (tokens isSlash cgroupPath)

end

def lsmApplicationCatalogLookupCgroup (catalog : LsmApplicationCatalog) (cgroupPath : Text) :
    Option LsmApplicationEntry :=
  lookupCgroup (lookupIdentity lib catalog) cgroupPath

end SystemMonitor.Desktop
