import Overlay.Manager
import Overlay.Store.Choice
import Overlay.Store.Directory
import Overlay.Store.Memory
import Overlay.Settings.Loading
import Overlay.Places
import Overlay.CommandLine

/-! One session of the program: the settings, and a manager with every shader imported that the
settings and the command line name. A shader of the settings that cannot be imported is skipped; one
of the command line ends the session. The cache lies in a directory of the disk or in memory, and
what the session does to the disk it does through the cache alone. -/
namespace Overlay

/-- Why a session ends. -/
inductive SessionError where
  | homeless
  | settings (error : SettingsFileError)
  | cacheDirectory (path : String) (error : StoreError)
  | load (path : String) (error : LoadError)
  | build (name : String) (error : ProgramError)
  | rebuild (error : ProgramError)
  /-- Building a second time gave another program. -/
  | rebuilt (name : String)
  deriving DecidableEq, Repr

/-- An error and what it was caused by, outermost first. -/
def StoreError.chain (error : StoreError) : List String :=
  match error with
  | .io _ fault => [error.message, fault.message]
  | _ => [error.message]

def LoadError.chain (error : LoadError) : List String :=
  match error with
  | .unreadable _ fault => [error.message, fault.message]
  | _ => [error.message]

def ProgramError.chain (error : ProgramError) : List String :=
  [error.message, error.fault.message]

def SessionError.chain : SessionError → List String
  | .homeless => [Places.homeless]
  | .settings error => error.chain
  | .cacheDirectory path error => ("failed to open shader cache in " ++ path) :: error.chain
  | .load path error => ("failed to import " ++ path) :: error.chain
  | .build name error => ("failed to build shader '" ++ name ++ "'") :: error.chain
  | .rebuild error => error.chain
  | .rebuilt name => ["program for '" ++ name ++ "' was rebuilt unexpectedly"]

/-- Where compiled shaders are kept. -/
abbrev SessionStore := MemoryStore ⊕ DirectoryStore

structure Session where
  settings : Settings
  manager : Manager
  cache : Cache SessionStore
  /-- The disk as it was when the cache had been opened. -/
  found : Disk

namespace Session

/-- The disk as it is now. -/
def disk (session : Session) : Disk :=
  match session.cache.store with
  | .inl _ => session.found
  | .inr store => store.disk

/-- The present; no time passes within a session. -/
def now (session : Session) : Millis :=
  session.found.present

/-! ### Opening -/

/-- The directories and the settings file that an environment and options decide on. -/
def resolvePlaces (environment : Environment) (options : Options) :
    Except SessionError (Places × String) :=
  match Places.discover environment with
  | .error _ => .error .homeless
  | .ok places =>
    let places := match options.cacheDirectory with
      | some directory => places.withCacheDirectory directory
      | none => places
    .ok (places, options.config.getD places.configFile)

/-- The store of a session, and the disk after opening it. -/
def openStore (disk : Disk) (places : Places) (noPersist : Bool) :
    Except SessionError SessionStore × Disk :=
  if noPersist then (.ok (.inl {}), disk)
  else
    match DirectoryStore.openIn disk places.cacheDirectory with
    | (.ok store, disk) => (.ok (.inr store), disk)
    | (.error error, disk) => (.error (.cacheDirectory places.cacheDirectory error), disk)

/-- A session without imports. Opening the cache deletes what has expired in it. -/
def begin (settings : Settings) (store : SessionStore) (compiler : CompilerKind) (found : Disk) :
    Session where
  settings
  manager := Manager.create { compiler := .ofKind compiler }
  cache := Cache.start settings.cache.policy store found.present
  found

/-- Imports a file under the name it gives. -/
def load (session : Session) (path : String) : Except LoadError String × Session :=
  let (result, manager) := session.manager.loadExternal session.disk (.onDisk path)
  (result, { session with manager })

/-- Imports what can be imported. -/
def loadConfigured (session : Session) (paths : List String) : Session :=
  paths.foldl (fun session path => (session.load path).2) session

/-- Imports every file or fails at the first that cannot be imported. -/
def loadRequired (session : Session) : List String → Except SessionError Session
  | [] => .ok session
  | path :: rest =>
    match session.load path with
    | (.ok _, session) => session.loadRequired rest
    | (.error error, _) => .error (.load path error)

/-- A session as an environment and options make it, or why there is none; and the disk after
that. -/
def openWith (environment : Environment) (found : Disk) (options : Options) :
    Except SessionError Session × Disk :=
  let prepared := do
    let (places, configFile) ← resolvePlaces environment options
    match Settings.load found configFile with
    | .error error => .error (.settings error)
    | .ok settings => .ok (places, settings)
  match prepared with
  | .error error => (.error error, found)
  | .ok (places, settings) =>
    match openStore found places options.noPersist with
    | (.error error, disk) => (.error error, disk)
    | (.ok store, disk) =>
      let session := begin settings store options.compiler disk
      let session := session.loadConfigured settings.overlay.shaders
      (session.loadRequired options.load, session.disk)

/-! ### Working -/

/-- The texts that a name means. -/
def resolve (session : Session) (name : String) : ResolvedSources × Session :=
  let (sources, manager, cache) :=
    session.manager.resolve session.cache session.disk session.now name
  (sources, { session with manager, cache })

/-- The program of a name, built unless it is there. -/
def createProgram (session : Session) (name : String) :
    Except ProgramError BuiltProgram × Session :=
  let (result, manager, cache) :=
    session.manager.createProgram session.cache session.disk session.now name
  (result, { session with manager, cache })

/-- Builds a program and asks for it again: the second answer has to be the same program. -/
def build (session : Session) (name : String) : Except SessionError BuiltProgram × Session :=
  match session.createProgram name with
  | (.error error, session) => (.error (.build name error), session)
  | (.ok built, session) =>
    match session.createProgram name with
    | (.error error, session) => (.error (.rebuild error), session)
    | (.ok again, session) =>
      if again.program = built.program then (.ok built, session)
      else (.error (.rebuilt name), session)

/-- The name to work on: the given one, else the one that the settings choose. -/
def chosen (session : Session) (name : Option String) : String :=
  name.getD session.settings.overlay.shader

def imported? (session : Session) (name : String) : Option ImportedShader :=
  session.manager.registry.get? name

def clearCache (session : Session) : Session :=
  { session with cache := session.cache.clear }

end Session
end Overlay
