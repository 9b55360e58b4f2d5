import Overlay.Disk.Path
import Overlay.Store

/-! Where settings and cache live. A variable of the program's own decides when it is set; otherwise
the directories of the user do, which the desktop's variables may move as long as they are absolute.
A variable that is set to nothing counts as not set, and a home that no variable gives is the one
that the system keeps for the account. -/
namespace Overlay

/-- The variables that are looked at, and the home that the system keeps for the account. -/
structure Environment where
  home : Option String := none
  configHome : Option String := none
  cacheHome : Option String := none
  configDirectory : Option String := none
  cacheDirectory : Option String := none
  accountHome : Option String := none
  deriving DecidableEq, Repr

/-- The directories of settings and cache. -/
structure Places where
  configDirectory : String
  cacheDirectory : String
  deriving DecidableEq, Repr

namespace Places

/-- A variable that says something. -/
def nonempty (value : Option String) : Option String :=
  value.filter (· != "")

/-- The program's directory below a directory of the user. -/
def below (moved : Option String) (home : String) (name : String) : String :=
  let base := match moved.filter Path.isAbsolute with
    | some directory => directory
    | none => Path.append home name
  Path.append base "shaderlay"

/-- What is said when a directory depends on a home and there is none. -/
def homeless : String := "failed to determine user directories"

/-- The directories that an environment decides on. -/
def discover (environment : Environment) : Except String Places :=
  match nonempty environment.configDirectory, nonempty environment.cacheDirectory with
  | some configDirectory, some cacheDirectory => .ok ⟨configDirectory, cacheDirectory⟩
  | configDirectory, cacheDirectory =>
    match nonempty environment.home <|> nonempty environment.accountHome with
    | none => .error homeless
    | some home =>
      .ok ⟨configDirectory.getD (below environment.configHome home ".config"),
        cacheDirectory.getD (below environment.cacheHome home ".cache")⟩

/-- Another cache directory. -/
def withCacheDirectory (places : Places) (cacheDirectory : String) : Places :=
  { places with cacheDirectory }

def configFile (places : Places) : String :=
  Path.append places.configDirectory "config.toml"

/-- The directory that holds one file for each compiled shader. -/
def shaderCache (places : Places) : String :=
  Path.append places.cacheDirectory Store.directoryName

end Places
end Overlay
