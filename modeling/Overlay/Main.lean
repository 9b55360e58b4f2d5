import Overlay.CommandLine.Reading
import Overlay.Session.Report

/-! The program. It takes a picture of the part of the disk that an invocation can look at, runs the
invocation on the picture, and then makes the disk what the picture has become. Everything that is
decided is decided on the picture. -/
namespace Overlay.Program

/-! ### Taking the picture -/

/-- A stamp of the disk in milliseconds. -/
def millisOf (time : IO.FS.SystemTime) : Millis :=
  .ofNat (time.sec.toNat * 1000 + time.nsec.toNat / 1000000)

/-- The picture with what stands where the names lead. -/
def withPlace (picture : Disk) (names : List String) : IO Disk := do
  let path := (← IO.currentDir) / Path.absolute names
  if names.isEmpty || !(← path.pathExists) then return picture
  let changed := millisOf (← path.metadata).modified
  if ← path.isDir then
    if (picture.node? names).isSome then return picture
    return picture.put names (.directory changed ∅)
  return picture.put names (.file (← IO.FS.readBinFile path).toList changed)

/-- Every place on the way along some components, the start left out. -/
def stations (start : List String) : List Path.Component → List (List String)
  | [] => []
  | component :: rest =>
    let reached := Path.fold start [component]
    reached :: stations reached rest

/-- The picture with everything on the way along a path. -/
def withPath (picture : Disk) (path : String) : IO Disk :=
  (stations (if Path.isAbsolute path then [] else picture.workingDirectory)
    (Path.components path)).foldlM withPlace picture

/-- The picture with a directory and the entries in it. -/
def withDirectory (picture : Disk) (path : String) : IO Disk := do
  let mut picture ← withPath picture path
  let directory := (← IO.currentDir) / path
  if ← directory.isDir then
    for entry in ← directory.readDir do
      picture ← withPath picture (Path.append path entry.fileName)
  return picture

/-- The path of the file that a preset is drawn with. -/
def drawnFile? (picture : Disk) (path : String) : Option String := do
  let bytes ← (picture.read path).toOption
  let text ← Text.Utf8.decode? bytes
  let relative ← (Preset.parse (String.ofList text)).firstShaderPath?
  let container := (Path.anchor picture.workingDirectory path).dropLast
  some (Path.append (Path.absolute container) (Path.join (Reference.segments relative)))

/-- The picture with a shader file and what it is drawn with. -/
def withShader (picture : Disk) (path : String) : IO Disk := do
  let picture ← withPath picture path
  match drawnFile? picture path with
  | some drawn => withPath picture drawn
  | none => return picture

/-- The files that an action names. -/
def filesOf : Action → List String
  | .importFiles files => files
  | _ => []

/-- The picture with everything that an invocation can look at. -/
def withInvocation (picture : Disk) (environment : Environment) (invocation : Invocation) :
    IO Disk := do
  match Session.resolvePlaces environment invocation.options with
  | .error _ => return picture
  | .ok (places, configFile) =>
    let picture ← withPath picture configFile
    let picture ← withDirectory picture places.shaderCache
    let configured := match Settings.load picture configFile with
      | .ok settings => settings.overlay.shaders
      | .error _ => []
    (configured ++ invocation.options.load ++ filesOf invocation.action).foldlM withShader picture

/-- The time that a new file is stamped with. -/
def presentTime : IO Millis := do
  let (_, path) ← IO.FS.createTempFile
  let modified := (← path.metadata).modified
  IO.FS.removeFile path
  return millisOf modified

/-! ### Carrying out -/

/-- Everything on a picture with the names that lead there. -/
def everything (picture : Disk) : List (List String × Node) :=
  (picture.standing []).contents []

/-- Whether a place looks on one picture as it does on another. What is in a directory has a place
of its own. -/
def looksLike : Node → Node → Bool
  | .directory .., .directory .. => true
  | .file content changed, .file held time => content == held && changed == time
  | _, _ => false

/-- Makes the disk what the picture has become. What is in a directory comes after it. -/
def carryOut (before after : Disk) : IO Unit := do
  let directory ← IO.currentDir
  for (names, node) in everything after do
    if !(before.node? names).any (looksLike node) then
      let path := directory / Path.absolute names
      match node with
      | .directory .. => IO.FS.createDirAll path
      | .file content _ => IO.FS.writeBinFile path ⟨content.toArray⟩
  for (names, _) in everything before do
    if (after.node? names).isNone then
      IO.FS.removeFile (directory / Path.absolute names)

/-- The parts of a line. -/
def fields (mark : Char) (line : String) : List String :=
  (Text.splitAll (· == mark) line.toList).map String.ofList

/-- The home in a table of accounts for the owner of a process. -/
def homeOf? (status accounts : List String) : Option String := do
  let owner ← (status.map (fields '\t')).find? (·.head? == some "Uid:")
  let account ← (accounts.map (fields ':')).find? fun account => account[2]? == owner[1]?
  account[5]?

/-- The home that the system keeps for the account, as far as it can be read. -/
def accountHome : IO (Option String) := do
  try
    let status ← IO.FS.lines "/proc/self/status"
    let accounts ← IO.FS.lines "/etc/passwd"
    return homeOf? status.toList accounts.toList
  catch _ => return none

def readEnvironment : IO Environment := do
  return { accountHome := ← accountHome
           home := ← IO.getEnv "HOME", configHome := ← IO.getEnv "XDG_CONFIG_HOME"
           cacheHome := ← IO.getEnv "XDG_CACHE_HOME"
           configDirectory := ← IO.getEnv "SHADERLAY_CONFIG_DIR"
           cacheDirectory := ← IO.getEnv "SHADERLAY_CACHE_DIR" }

def run (invocation : Invocation) : IO Outcome := do
  let environment ← readEnvironment
  let workingDirectory := Path.anchor [] (← IO.currentDir).toString
  let start : Disk := { workingDirectory, present := ← presentTime }
  let start ← withPath start (Path.absolute workingDirectory)
  let picture ← withInvocation start environment invocation
  let outcome := invocation.run environment picture
  carryOut picture outcome.disk
  return outcome

/-! ### Talking -/

def versionText : String :=
  "shaderlay 0.1.0"

def helpText : String :=
  String.intercalate "\n"
    ["Shader overlay pipeline tools", "", "Usage: shaderlay [OPTIONS] <COMMAND>", "", "Commands:",
      "  import   Import shader and preset files and describe them",
      "  list     List built-in and imported shaders",
      "  build    Resolve, compile and link a shader",
      "  preview  Print the fragment source a shader resolves to",
      "  cache    Inspect or clear the compiled shader cache (stats, clear)",
      "  paths    Print resolved config and cache locations",
      "  help     Print this message or the help of the given command", "", "Options:",
      "      --cache-dir <DIR>      Cache directory",
      "      --config <FILE>        Config file to read",
      "      --no-persist           Keep compiled shaders in memory only",
      "  -l, --load <FILE>          Import a shader file before running the command",
      "      --compiler <COMPILER>  Native compiler backend: passthrough or shaderc",
      "  -h, --help                 Print help", "  -V, --version              Print version"]

def complaint : UsageError → String
  | .help | .nothingGiven => helpText
  | .version => versionText
  | .missingAction => "error: a command is required but none was given"
  | .unknownAction => "error: unrecognized command"
  | .unknownWord => "error: unexpected argument"
  | .missingOperand => "error: a required argument was not provided"
  | .missingValue => "error: a value is required but none was supplied"
  | .refusedValue => "error: invalid value"
  | .repeated => "error: an argument cannot be used multiple times"
  | .surplusValue => "error: unexpected value"

/-- Says why nothing was done; asking for help is no failure. -/
def refuse (error : UsageError) : IO UInt32 := do
  match error with
  | .help | .version =>
    IO.println (complaint error)
    return 0
  | _ =>
    IO.eprintln (complaint error)
    return 2

/-- An error and what it was caused by, numbered if there are several causes. -/
def failureText : List String → String
  | [] => "Error"
  | [message] => "Error: " ++ message
  | [message, cause] => "Error: " ++ message ++ "\n\nCaused by:\n    " ++ cause
  | message :: causes =>
    "Error: " ++ message ++ "\n\nCaused by:\n" ++ String.intercalate "\n"
      (causes.zipIdx.map fun (cause, index) => "    " ++ toString index ++ ": " ++ cause)

def report (outcome : Outcome) : IO UInt32 := do
  IO.print outcome.output
  match outcome.failure with
  | none => return 0
  | some error =>
    IO.eprintln (failureText error.chain)
    return 1

end Overlay.Program

def main (args : List String) : IO UInt32 := do
  match Overlay.CommandLine.read args with
  | .error error => Overlay.Program.refuse error
  | .ok invocation => Overlay.Program.report (← Overlay.Program.run invocation)
