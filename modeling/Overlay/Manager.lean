import Overlay.Bench
import Overlay.Builtin
import Overlay.Cache
import Overlay.Shader.Loading

/-! The shader manager turns names into linked programs. A name means an imported shader, else a
built-in effect, else the default effect; a preset that cannot be resolved means a plain tint. The
text it means is looked up in the cache, compiled when the cache does not know it, and used as
written when the compiler cannot help. Only the device can refuse a program, and then everything
that was installed stays installed.

The cache is handed to each operation and handed back, so several managers can share one. -/
namespace Overlay

/-- Where the text of a fragment came from. -/
inductive Origin where
  | builtin
  | external
  | preset
  /-- The tint that stands in for a preset that cannot be resolved. -/
  | fallback
  /-- An unknown name; the default effect was used. -/
  | default
  deriving DecidableEq, Repr

def Origin.name : Origin → String
  | .builtin => "builtin"
  | .external => "external"
  | .preset => "preset"
  | .fallback => "fallback"
  | .default => "default"

/-- What happened to the text of a fragment before it reached the device. -/
inductive Compilation where
  | cacheHit
  | compiled
  | uncompiled
  deriving DecidableEq, Repr

def Compilation.name : Compilation → String
  | .cacheHit => "cache-hit"
  | .compiled => "compiled"
  | .uncompiled => "uncompiled"

/-- The two texts of a program, ready for the device. -/
structure ResolvedSources where
  name : String
  vertex : String
  fragment : String
  origin : Origin
  compilation : Compilation
  deriving DecidableEq, Repr

/-- An installed program and how its fragment came about. -/
structure BuiltProgram where
  program : Gpu.Handle
  origin : Origin
  compilation : Compilation
  deriving DecidableEq, Repr

/-- Why a program could not be built. -/
inductive ProgramError where
  | stageCompile (name : String) (stage : Stage) (fault : Gpu.Fault)
  | link (name : String) (fault : Gpu.Fault)
  deriving DecidableEq, Repr

namespace ProgramError

def fault : ProgramError → Gpu.Fault
  | .stageCompile _ _ fault => fault
  | .link _ fault => fault

def message : ProgramError → String
  | .stageCompile name stage fault =>
    "failed to compile " ++ stage.name ++ " shader for '" ++ name ++ "': " ++ fault.message
  | .link name fault => "failed to link program for '" ++ name ++ "': " ++ fault.message

end ProgramError

/-- What a manager knows of its compiler. -/
inductive CompilerState where
  | ready
  /-- The last attempt to start it failed. -/
  | unavailable
  /-- Not started, or stopped again; the next build starts it. -/
  | released
  deriving DecidableEq, Repr

/-- Programs by the name they were built for, imported shaders, and the bench they are built on. -/
structure Manager where
  programs : Table String BuiltProgram := ∅
  registry : Registry := ∅
  compilerState : CompilerState := .released
  bench : Bench := {}

namespace Manager

/-- Starts the compiler and remembers whether that worked. -/
def startCompiler (manager : Manager) : Manager :=
  let (started, bench) := manager.bench.startCompiler
  { manager with bench, compilerState := if started then .ready else .unavailable }

/-- A manager without programs and imports, its compiler started if it can be. -/
def create (bench : Bench) : Manager :=
  startCompiler { bench }

/-- The program installed for a name. -/
def program? (manager : Manager) (name : String) : Option BuiltProgram :=
  manager.programs.get? name

/-! ### What a name means -/

/-- The text of an imported shader: its own, or that of the first pass of a preset. -/
def importedFragment (disk : Disk) (shader : ImportedShader) : String × Origin :=
  match shader.body with
  | .direct (source :: _) => (source, .external)
  | .direct [] => (BuiltinShader.fallbackFragment, .fallback)
  | .preset _ =>
    match shader.entrySource disk with
    | .ok source => (source, .preset)
    | .error _ => (BuiltinShader.fallbackFragment, .fallback)

/-- The text that a name means now, before compilation, and where it comes from. -/
def fragmentSource (manager : Manager) (disk : Disk) (name : String) : String × Origin :=
  match manager.registry.get? name with
  | some shader => importedFragment disk shader
  | none =>
    match BuiltinShader.find? name with
    | some shader => (shader.fragment, .builtin)
    | none => (BuiltinShader.default.fragment, .default)

/-- Every effect draws with the same vertex text, whatever the name means. -/
def vertexSource (manager : Manager) (name : String) : String :=
  if manager.registry.contains name then BuiltinShader.vertexText
  else (BuiltinShader.findOrDefault name).vertex

/-- Built-in names in their order, then the other imported names ascending. -/
def availableShaders (manager : Manager) : List String :=
  BuiltinShader.names ++
    manager.registry.keys.filter fun name => !BuiltinShader.isBuiltin name

section Cached
variable {σ : Type} [Store σ]

/-- The text handed to the device for a source: from the cache, from the compiler, or as written.
What the compiler makes of it is recorded. -/
def compileFragment (manager : Manager) (cache : Cache σ) (now : Millis) (source : String) :
    (String × Compilation) × Manager × Cache σ :=
  match cache.lookup now .fragment source with
  | (some compiled, cache) => ((compiled, .cacheHit), manager, cache)
  | (none, cache) =>
    if manager.compilerState = .ready then
      match manager.bench.compile source .fragment with
      | (.ok compiled, bench) =>
        ((compiled, .compiled), { manager with bench },
          cache.record now .fragment source compiled)
      | (.error _, bench) => ((source, .uncompiled), { manager with bench }, cache)
    else ((source, .uncompiled), manager, cache)

/-- The texts that a name means, without touching the device. -/
def resolve (manager : Manager) (cache : Cache σ) (disk : Disk) (now : Millis) (name : String) :
    ResolvedSources × Manager × Cache σ :=
  let vertex := manager.vertexSource name
  let (source, origin) := manager.fragmentSource disk name
  let ((fragment, compilation), manager, cache) := manager.compileFragment cache now source
  (⟨name, vertex, fragment, origin, compilation⟩, manager, cache)

end Cached

/-! ### Building -/

/-- Joins two stages into a linked program; one that does not link is deleted again. -/
def joinStages (bench : Bench) (vertex fragment : Gpu.Handle) :
    Except Gpu.Fault Gpu.Handle × Bench :=
  match bench.createProgram vertex fragment with
  | (.error fault, bench) => (.error fault, bench)
  | (.ok program, bench) =>
    match bench.link program with
    | (.ok (), bench) => (.ok program, bench)
    | (.error fault, bench) => (.error fault, bench.deleteProgram program)

/-- Makes a program of two texts. Whatever happens, the stages made on the way are deleted. -/
def linkSources (bench : Bench) (sources : ResolvedSources) :
    Except ProgramError Gpu.Handle × Bench :=
  match bench.createStage .vertex sources.vertex with
  | (.error fault, bench) => (.error (.stageCompile sources.name .vertex fault), bench)
  | (.ok vertex, bench) =>
    match bench.createStage .fragment sources.fragment with
    | (.error fault, bench) =>
      (.error (.stageCompile sources.name .fragment fault), bench.deleteStage vertex)
    | (.ok fragment, bench) =>
      let (joined, bench) := joinStages bench vertex fragment
      let bench := (bench.deleteStage vertex).deleteStage fragment
      match joined with
      | .ok program => (.ok program, bench)
      | .error fault => (.error (.link sources.name fault), bench)

/-- Deletes a program unless it is gone already. -/
def deleteLive (bench : Bench) (program : Gpu.Handle) : Bench :=
  if bench.isProgram program then bench.deleteProgram program else bench

/-- Installs a program for a name in place of the one installed before, which is deleted. -/
def install (manager : Manager) (name : String) (built : BuiltProgram) : Manager :=
  let bench := match manager.programs.get? name with
    | some previous =>
      if previous.program = built.program then manager.bench
      else deleteLive manager.bench previous.program
    | none => manager.bench
  { manager with bench, programs := manager.programs.insert name built }

/-- Takes the program of a name out of the table and deletes it. -/
def release (manager : Manager) (name : String) : Manager :=
  match manager.programs.get? name with
  | some built =>
    { manager with
      bench := deleteLive manager.bench built.program
      programs := manager.programs.erase name }
  | none => manager

section Cached
variable {σ : Type} [Store σ]

/-- Builds the program of a name and installs it. A build that fails installs nothing. -/
def build (manager : Manager) (cache : Cache σ) (disk : Disk) (now : Millis) (name : String) :
    Except ProgramError BuiltProgram × Manager × Cache σ :=
  let manager := if manager.compilerState = .released then manager.startCompiler else manager
  let (sources, manager, cache) := manager.resolve cache disk now name
  match linkSources manager.bench sources with
  | (.error error, bench) => (.error error, { manager with bench }, cache)
  | (.ok program, bench) =>
    let built : BuiltProgram := ⟨program, sources.origin, sources.compilation⟩
    (.ok built, { manager with bench }.install name built, cache)

/-- The installed program of a name as long as it lives, else a new one. -/
def createProgram (manager : Manager) (cache : Cache σ) (disk : Disk) (now : Millis)
    (name : String) : Except ProgramError BuiltProgram × Manager × Cache σ :=
  match manager.programs.get? name with
  | some built =>
    if manager.bench.isProgram built.program then (.ok built, manager, cache)
    else { manager with programs := manager.programs.erase name }.build cache disk now name
  | none => manager.build cache disk now name

/-- A new program for a name even if one lives; the old one stays when that fails. -/
def reloadProgram (manager : Manager) (cache : Cache σ) (disk : Disk) (now : Millis)
    (name : String) : Except ProgramError BuiltProgram × Manager × Cache σ :=
  manager.build cache disk now name

end Cached

/-! ### Imports and the end -/

/-- Imports a file under the name it gives. A program of that name no longer fits and is released.
-/
def loadExternal (manager : Manager) (disk : Disk) (reference : Reference) :
    Except LoadError String × Manager :=
  match reference.load disk with
  | .error error => (.error error, manager)
  | .ok shader =>
    (.ok shader.name,
      { manager with registry := manager.registry.register shader }.release shader.name)

/-- Forgets an imported shader and releases its program; false when the name was not imported. -/
def removeExternal (manager : Manager) (name : String) : Bool × Manager :=
  if manager.registry.contains name then
    (true, { manager with registry := manager.registry.erase name }.release name)
  else (false, manager)

/-- Deletes every live program and stops the compiler if it runs. The manager stays usable: the next
build starts the compiler again. -/
def cleanup (manager : Manager) : Manager :=
  let bench := (manager.programs.values.map (·.program)).foldl deleteLive manager.bench
  let bench := if manager.compilerState = .ready then bench.stopCompiler else bench
  { manager with programs := ∅, bench, compilerState := .released }

end Manager
end Overlay
