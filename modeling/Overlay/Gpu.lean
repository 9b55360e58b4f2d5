import Overlay.Table
import Overlay.Stage
import Overlay.Gpu.Balance

/-! The graphics device without graphics: it creates, links, queries and deletes stages and programs
as a device does, and checks only the structure of a source. Stages and programs take their handles
from one counter that never goes back, so no handle is given out twice; a program remembers what its
stages were, so they may be deleted before it is linked. -/
namespace Overlay

namespace Gpu

/-- A handle of a stage or a program. There are handles without end here, and the first `2 ^ 32 - 1`
of them are those of a counter of 32 bits. -/
abbrev Handle := Nat

/-- A program: what its two stages were when it was created, and whether it has been linked. -/
structure Program where
  vertex : Stage
  fragment : Stage
  linked : Bool := false
  deriving DecidableEq, Repr

inductive Fault where
  | createStage (stage : Stage)
  | compile (reason : String)
  | createProgram
  | link (reason : String)
  | unknownHandle (handle : Handle)
  deriving DecidableEq, Repr

def Fault.message : Fault → String
  | .createStage stage => "could not create " ++ stage.name ++ " shader object"
  | .compile reason => "compile failed: " ++ reason
  | .createProgram => "could not create program"
  | .link reason => "link failed: " ++ reason
  | .unknownHandle handle => "unknown object handle " ++ toString handle

/-- How a program is shown. -/
def programLabel (handle : Handle) : String :=
  "program#" ++ toString handle

end Gpu

/-- The live objects of a device, and how many handles it has given out. -/
structure Gpu where
  issued : Nat := 0
  stages : Table Nat Stage := ∅
  programs : Table Nat Gpu.Program := ∅
  deriving DecidableEq, Repr, Inhabited

namespace Gpu

/-- A source that passes the structural check gets the next handle; any other changes nothing. -/
def createStage (gpu : Gpu) (stage : Stage) (source : String) :
    Except Fault Handle × Gpu :=
  match checkStructure source with
  | .error fault => (.error (.compile fault.message), gpu)
  | .ok () =>
    let handle := gpu.issued + 1
    (.ok handle, { gpu with issued := handle, stages := gpu.stages.insert handle stage })

/-- Deleting what does not live does nothing. -/
def deleteStage (gpu : Gpu) (handle : Handle) : Gpu :=
  { gpu with stages := gpu.stages.erase handle }

/-- Both stages have to live; which kinds they are is checked when the program is linked. -/
def createProgram (gpu : Gpu) (vertex fragment : Handle) : Except Fault Handle × Gpu :=
  match gpu.stages.get? vertex, gpu.stages.get? fragment with
  | none, _ => (.error (.unknownHandle vertex), gpu)
  | _, none => (.error (.unknownHandle fragment), gpu)
  | some first, some second =>
    let handle := gpu.issued + 1
    let program : Program := { vertex := first, fragment := second }
    (.ok handle, { gpu with issued := handle, programs := gpu.programs.insert handle program })

def link (gpu : Gpu) (handle : Handle) : Except Fault Unit × Gpu :=
  match gpu.programs.get? handle with
  | none => (.error (.unknownHandle handle), gpu)
  | some program =>
    if program.vertex = .vertex ∧ program.fragment = .fragment then
      (.ok (), { gpu with programs := gpu.programs.insert handle { program with linked := true } })
    else
      (.error (.link ("expected vertex + fragment, got " ++ program.vertex.name ++ " + " ++
        program.fragment.name)), gpu)

/-- A program can be drawn with once it is linked and until it is deleted. -/
def isProgram (gpu : Gpu) (handle : Handle) : Bool :=
  match gpu.programs.get? handle with
  | some program => program.linked
  | none => false

def deleteProgram (gpu : Gpu) (handle : Handle) : Gpu :=
  { gpu with programs := gpu.programs.erase handle }

def liveStages (gpu : Gpu) : Nat :=
  gpu.stages.size

def livePrograms (gpu : Gpu) : Nat :=
  gpu.programs.size

end Gpu
end Overlay
