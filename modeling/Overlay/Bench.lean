import Overlay.Compiler
import Overlay.Gpu

/-! The bench that programs are built on: one compiler and one device, each of whose calls may be
made to fail, and a journal of the calls in their order. What may fail here is exactly what a
machine may refuse; the failures are switches, so every history of failures is a history of switch
settings. -/
namespace Overlay

/-- The calls on a device that can be refused. -/
inductive GpuCall where
  | createVertex
  | createFragment
  | createProgram
  | link
  deriving DecidableEq, Repr

/-- The call with a name. -/
def GpuCall.ofName? (name : String) : Option GpuCall :=
  match name with
  | "create_vertex" => some .createVertex
  | "create_fragment" => some .createFragment
  | "create_program" => some .createProgram
  | "link" => some .link
  | _ => none

/-- What is refused now. -/
structure Refusals where
  gpu : Option GpuCall := none
  /-- The compiler refuses every text. -/
  compile : Bool := false
  /-- The compiler cannot be started. -/
  compilerDown : Bool := false
  deriving DecidableEq, Repr, Inhabited

/-- A call that was made, whether or not it succeeded. -/
inductive Call where
  | startCompiler (succeeded : Bool)
  | compile (stage : Stage)
  | stopCompiler
  | createStage (stage : Stage)
  | deleteStage (handle : Gpu.Handle)
  | createProgram (vertex fragment : Gpu.Handle)
  | link (handle : Gpu.Handle)
  | deleteProgram (handle : Gpu.Handle)
  deriving DecidableEq, Repr

def Call.text : Call → String
  | .startCompiler _ => "initialize"
  | .compile stage => "compile " ++ stage.name
  | .stopCompiler => "cleanup"
  | .createStage stage => "create_stage " ++ stage.name
  | .deleteStage handle => "delete_stage " ++ toString handle
  | .createProgram vertex fragment =>
    "create_program " ++ toString vertex ++ " " ++ toString fragment
  | .link handle => "link " ++ toString handle
  | .deleteProgram handle => "delete_program " ++ toString handle

structure Bench where
  compiler : Compiler := {}
  gpu : Gpu := {}
  refusals : Refusals := {}
  /-- The calls so far, the latest last. -/
  journal : List Call := []

namespace Bench

def note (bench : Bench) (call : Call) : Bench :=
  { bench with journal := bench.journal ++ [call] }

/-- What a refused call gives as its reason. -/
def refusal : String := "refused"

/-- Starts the compiler, unless it is down. -/
def startCompiler (bench : Bench) : Bool × Bench :=
  if bench.refusals.compilerDown then (false, bench.note (.startCompiler false))
  else
    (true, { bench with compiler := bench.compiler.start }.note (.startCompiler true))

def stopCompiler (bench : Bench) : Bench :=
  { bench with compiler := bench.compiler.stop }.note .stopCompiler

def compile (bench : Bench) (source : String) (stage : Stage) :
    Except CompileError String × Bench :=
  let answer :=
    if bench.refusals.compile then .error (.failed stage refusal)
    else bench.compiler.compile source stage
  (answer, bench.note (.compile stage))

/-- The call that creates a stage. -/
def creating : Stage → GpuCall
  | .vertex => .createVertex
  | .fragment => .createFragment

def createStage (bench : Bench) (stage : Stage) (source : String) :
    Except Gpu.Fault Gpu.Handle × Bench :=
  let bench := bench.note (.createStage stage)
  if bench.refusals.gpu = some (creating stage) then (.error (.createStage stage), bench)
  else
    let (answer, gpu) := bench.gpu.createStage stage source
    (answer, { bench with gpu })

def deleteStage (bench : Bench) (handle : Gpu.Handle) : Bench :=
  { bench with gpu := bench.gpu.deleteStage handle }.note (.deleteStage handle)

def createProgram (bench : Bench) (vertex fragment : Gpu.Handle) :
    Except Gpu.Fault Gpu.Handle × Bench :=
  let bench := bench.note (.createProgram vertex fragment)
  if bench.refusals.gpu = some .createProgram then (.error .createProgram, bench)
  else
    let (answer, gpu) := bench.gpu.createProgram vertex fragment
    (answer, { bench with gpu })

def link (bench : Bench) (handle : Gpu.Handle) : Except Gpu.Fault Unit × Bench :=
  let bench := bench.note (.link handle)
  if bench.refusals.gpu = some .link then (.error (.link refusal), bench)
  else
    let (answer, gpu) := bench.gpu.link handle
    (answer, { bench with gpu })

def isProgram (bench : Bench) (handle : Gpu.Handle) : Bool :=
  bench.gpu.isProgram handle

def deleteProgram (bench : Bench) (handle : Gpu.Handle) : Bench :=
  { bench with gpu := bench.gpu.deleteProgram handle }.note (.deleteProgram handle)

end Bench
end Overlay
