import Overlay.Session

/-! What the program prints, and running an invocation. An action prints as it goes, so what was
printed before a failure stays printed. -/
namespace Overlay

/-- What a run leaves behind: what it printed, why it failed if it did, and the disk. -/
structure Outcome where
  output : String := ""
  failure : Option SessionError := none
  disk : Disk
  deriving Repr

namespace Report

def line (text : String) : String :=
  text ++ "\n"

/-- A text widened with blanks at its end, counted in characters. -/
def padded (width : Nat) (text : String) : String :=
  text ++ String.ofList (List.replicate (width - text.length) ' ')

def pass (pass : Pass) : String :=
  let scaleType := (pass.scaleType.map ScaleType.name).getD "-"
  let scale := (pass.scale.getD Preset.defaultScale).text .single
  line ("  pass " ++ padded 3 (toString pass.index) ++ " " ++ padded 32 (pass.path.getD "-") ++
    " filter_linear=" ++ toString (pass.filterLinear.getD false) ++
    " scale_type=" ++ scaleType ++ " scale=" ++ scale)

/-- What was imported from a file: how many octets of text, or the passes that a preset describes.
-/
def imported (path : String) (shader : ImportedShader) : String :=
  let heading := "imported " ++ padded 24 shader.name
  match shader.body with
  | .direct sources =>
    let count := (sources.map fun source => (octets source).length).foldr (· + ·) 0
    line (heading ++ " shader  " ++ path ++ " (" ++ toString count ++ " bytes)")
  | .preset content =>
    let preset := Preset.parse content
    line (heading ++ " preset  " ++ path ++
      " (declares " ++ toString preset.shaderCount ++ " passes)") ++
      String.join (preset.passes.map pass)

/-- What kind of shader a name is in the menu. -/
def kindName : Option ImportedShader → String
  | some shader => if shader.isPreset then "preset" else "external"
  | none => "builtin"

/-- One shader of the menu; a star marks the one that the settings choose. -/
def menuEntry (session : Session) (name : String) : String :=
  let marker := if name == session.settings.overlay.shader then "*" else " "
  line (marker ++ " " ++ padded 24 name ++ " " ++ kindName (session.imported? name))

def menu (session : Session) : String :=
  String.join (session.manager.availableShaders.map (menuEntry session))

def built (name : String) (program : BuiltProgram) (stats : CacheStats) : String :=
  line ("built " ++ name ++ " -> program#" ++ toString program.program ++
    " (source=" ++ program.origin.name ++ ", fragment=" ++ program.compilation.name ++ ")") ++
    line ("cache: " ++ toString stats.memoryEntries ++ " in memory, " ++
      toString stats.persistentEntries ++ " persisted")

/-- The text of a fragment, closed by a newline in any case. -/
def preview (sources : ResolvedSources) (withVertex : Bool) : String :=
  let vertex :=
    if withVertex then line "// vertex" ++ sources.vertex ++ line "// fragment" else ""
  let closing := if sources.fragment.toList.getLast? == some '\n' then "" else "\n"
  vertex ++ sources.fragment ++ closing

def stats (stats : CacheStats) : String :=
  line ("memory entries:     " ++ toString stats.memoryEntries) ++
    line ("persistent entries: " ++ toString stats.persistentEntries) ++
    line ("persistent bytes:   " ++ toString stats.persistentBytes)

def cleared (before : CacheStats) : String :=
  line ("removed " ++ toString before.persistentEntries ++ " cached shaders")

def places (places : Places) (configFile : String) (noPersist : Bool) : String :=
  line ("config dir:   " ++ places.configDirectory) ++ line ("config file:  " ++ configFile) ++
    line ("cache dir:    " ++ places.cacheDirectory) ++
    line ("shader cache: " ++ if noPersist then "(memory only)" else places.shaderCache)

end Report

namespace Session

/-- Imports files one after the other and describes each; the first that cannot be imported ends
it. -/
def importFiles (session : Session) (printed : String) : List String → Outcome
  | [] => { output := printed, disk := session.disk }
  | path :: rest =>
    match session.load path with
    | (.error error, session) =>
      { output := printed, failure := some (.load path error), disk := session.disk }
    | (.ok name, session) =>
      let described := ((session.imported? name).map (Report.imported path)).getD ""
      session.importFiles (printed ++ described) rest

def perform (session : Session) : Action → Outcome
  | .importFiles files => session.importFiles "" files
  | .list => { output := Report.menu session, disk := session.disk }
  | .build name =>
    let name := session.chosen name
    match session.build name with
    | (.error error, session) => { failure := some error, disk := session.disk }
    | (.ok program, session) =>
      { output := Report.built name program session.cache.stats, disk := session.disk }
  | .preview name withVertex =>
    let (sources, session) := session.resolve (session.chosen name)
    { output := Report.preview sources withVertex, disk := session.disk }
  | .cache .stats => { output := Report.stats session.cache.stats, disk := session.disk }
  | .cache .clear =>
    { output := Report.cleared session.cache.stats, disk := session.clearCache.disk }
  | .paths => { disk := session.disk }

end Session

namespace Invocation

/-- Runs an invocation. Printing the paths opens no session, so it works where none could be
opened. -/
def run (invocation : Invocation) (environment : Environment) (disk : Disk) : Outcome :=
  match invocation.action with
  | .paths =>
    match Session.resolvePlaces environment invocation.options with
    | .error error => { failure := some error, disk }
    | .ok (places, configFile) =>
      { output := Report.places places configFile invocation.options.noPersist, disk }
  | action =>
    match Session.openWith environment disk invocation.options with
    | (.error error, disk) => { failure := some error, disk }
    | (.ok session, _) => session.perform action

end Invocation
end Overlay
