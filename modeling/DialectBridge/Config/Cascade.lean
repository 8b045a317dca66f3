import DialectBridge.Config.Settings
import DialectBridge.Config.Template
import DialectBridge.File.System
/-!
# The cascade of configuration files

The files that count are those in a directory and in the directories above it, nearest first, up
to the first one that calls itself the root, and after them the user's own file, unless the user
has opted out of it. The search ends at the first file that cannot be used.
-/
namespace DialectBridge.Cascade

/-- What a search does, for those who want to follow it. -/
inductive Event where
  | loading (path : Text)
  | loadingOwn (path : Text)
  | optedOut
  deriving DecidableEq, Repr

/-- What a search did, and the files that it found. -/
structure Search where
  events : List Event
  result : Except Error (List LoadedConfig)

/-- How to get at configurations: none if there is no file at a path. -/
abbrev Loader (m : Type → Type) := (path : Text) → m (Option (Except Error Config))

variable {m : Type → Type} [Monad m]

/-- Searches directories from the first one on. -/
def searchUp (load : Loader m) : (directories : List Text) → m Search
  | [] => return ⟨[], .ok []⟩
  | directory :: above => do
    let path := Path.join directory Config.fileName
    match ← load path with
    | none => searchUp load above
    | some (.error e) => return ⟨[.loading path], .error e⟩
    | some (.ok config) =>
      if config.root then return ⟨[.loading path], .ok [⟨path, config⟩]⟩
      else
        let rest ← searchUp load above
        return ⟨.loading path :: rest.events, do return ⟨path, config⟩ :: (← rest.result)⟩

def ownPath (home : Text) : Text := Path.join home Config.fileName

/-- Searches for the user's own file after the files found before. -/
def searchOwn (load : Loader m) (home : Text) (optedOut : Bool) (found : List LoadedConfig) :
    m Search := do
  let path := ownPath home
  if optedOut then return ⟨[.optedOut], .ok found⟩
  else if found.any fun c => Path.same c.path path then return ⟨[], .ok found⟩
  else
    match ← load path with
    | none => return ⟨[], .ok found⟩
    | some (.error e) => return ⟨[.loadingOwn path], .error e⟩
    | some (.ok config) => return ⟨[.loadingOwn path], .ok (found ++ [⟨path, config⟩])⟩

/-- Searches for the configuration files that count in a directory. -/
def discover (load : Loader m) (start home : Text) (optedOut : Bool) : m Search := do
  let up ← searchUp load (Path.ancestors start)
  match up.result with
  | .error _ => return up
  | .ok found =>
    let own ← searchOwn load home optedOut found
    return ⟨up.events ++ own.events, own.result⟩

/-- Whether a variable is set to something that means yes. -/
def isYes (value : Option Text) : Bool :=
  value.any fun v => !(["", "0", "false", "no"] : List Text).contains (Text.lower v)

def loader (fs : FileSystem m) : Loader m := fun path => do
  if ← fs.present path then
    match ← fs.read? path with
    | none => return some (.error (.configUnreadable path))
    | some content => return some (Config.parse path content)
  else return none

end DialectBridge.Cascade
