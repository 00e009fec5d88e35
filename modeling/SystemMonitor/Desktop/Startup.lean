import SystemMonitor.Desktop.Catalog

/-! The startup applications.

They are found as desktop files in the XDG autostart directories. Any file that loads and
is an application gives an entry; whether it is enabled depends on the session as well. -/
namespace SystemMonitor.Desktop
open Lib CStrings

structure LsmStartupEntry where
  id : Chars 128
  sourceIdentity : Chars 512
  originIdentity : Chars 512
  name : Chars 128
  command : Chars 1024
  description : Chars 512
  userEntry : Bool
  enabled : Bool
  deriving DecidableEq

/-- What the entries are checked against. -/
structure Session where
  /-- `$XDG_CURRENT_DESKTOP`. -/
  currentDesktop : Option Text
  /-- `$PATH`. -/
  path : Option Text
  /-- A regular file that may be executed. -/
  executableFile : Text → Bool

variable (lib : Library) (session : Session)

def isSemicolon (b : UInt8) : Bool := b == 59

def currentDesktopMatches (candidate : Text) : Bool :=
  let current := session.currentDesktop.getD []
  !candidate.isEmpty && !current.isEmpty && (current.splitOnP isColon).contains candidate

def desktopEnvironmentAllows (file : KeyFile) : Bool :=
  let onlyText := desktopString file (ascii "OnlyShowIn")
  let notShowText := desktopString file (ascii "NotShowIn")
  (onlyText.isEmpty || (onlyText.splitOnP isSemicolon).any (currentDesktopMatches session)) &&
    !(notShowText.splitOnP isSemicolon).any (currentDesktopMatches session)

/-- An empty component of the path is the working directory. -/
def executableInPath (name : Text) : Bool :=
  if name = [] then false
  else if 47 ∈ name then session.executableFile name
  else match session.path with
    | none => false
    | some [] => session.executableFile name
    | some path => (path.splitOnP isColon).any fun item =>
      (joinPath lib (if item = [] then ascii "." else item) name).any session.executableFile

def tryExecAvailable (file : KeyFile) : Bool :=
  let tryExec := desktopString file (ascii "TryExec")
  tryExec.isEmpty || executableInPath lib session tryExec

/-- The entry of a file; `none`: it is not an application. -/
def startupEntry (file : KeyFile) (path id : Text) (userEntry : Bool) : Option LsmStartupEntry :=
  let type := desktopString file (ascii "Type")
  if ¬ (type = [] ∨ type = ascii "Application") then none
  else
    let name := desktopString file (ascii "Name")
    some
      { id := .ofText id
        sourceIdentity := .ofText path
        originIdentity := .ofText path
        name := .ofText (if name = [] then id else name)
        command := .ofText (desktopString file (ascii "Exec"))
        description := .ofText (desktopString file (ascii "Comment"))
        userEntry
        enabled := !desktopBoolean file (ascii "Hidden") false &&
          desktopBoolean file (ascii "X-GNOME-Autostart-enabled") true && desktopEnvironmentAllows session file &&
          tryExecAvailable lib session file }

def loadStartupEntry (fs : FileSystem) (path id : Text) (userEntry : Bool) : Option LsmStartupEntry :=
  (fs.keyFile path).bind fun file => startupEntry lib session file path id userEntry

/-- The loop over the names of a directory, with the entries and the names seen so far. -/
def scanStartupNames (fs : FileSystem) (directory : Text) (userEntry : Bool) :
    List Text → List LsmStartupEntry × List Text → Option (List LsmStartupEntry × List Text)
  | [], state => some state
  | name :: names, (entries, seen) =>
    if !isDesktopName name || seen.contains name then scanStartupNames fs directory userEntry names (entries, seen)
    else
      match joinPath lib directory name with
      | none => none
      | some path =>
        match loadStartupEntry lib session fs path name userEntry with
        | none => scanStartupNames fs directory userEntry names (entries, name :: seen)
        | some entry => scanStartupNames fs directory userEntry names (entries ++ [entry], name :: seen)

def scanDirectory (fs : FileSystem) (directory : Text) (userEntry : Bool)
    (state : List LsmStartupEntry × List Text) : Option (List LsmStartupEntry × List Text) :=
  match fs.directory directory with
  | .missing => some state
  | .failed => none
  | .listed names complete =>
    match scanStartupNames lib session fs directory userEntry names state with
    | none => none
    | some state => if complete then some state else none

/-- The loop over the base directories; a path that does not fit ends it. -/
def scanBases (fs : FileSystem) : List (Text × Bool) → List LsmStartupEntry × List Text →
    Option (List LsmStartupEntry × List Text)
  | [], state => some state
  | (base, userEntry) :: bases, state =>
    match joinPath lib base (ascii "autostart") with
    | none => none
    | some path =>
      match scanDirectory lib session fs path userEntry state with
      | none => none
      | some state => scanBases fs bases state

def configDirs (env : Environment) : List Text := tokens isColon (if env.dirs = [] then ascii "/etc/xdg" else env.dirs)

/-- `none`: the inventory was not collected. -/
def lsmStartupBackendCollect (env : Environment) (fs : FileSystem) : Option (List LsmStartupEntry) :=
  match xdgHome env with
  | none => none
  | some configHome =>
    (scanBases lib session fs ((configHome, true) :: (configDirs env).map fun base => (base, false)) ([], [])).map
      Prod.fst

end SystemMonitor.Desktop
