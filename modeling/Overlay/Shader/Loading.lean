import Overlay.Preset
import Overlay.Shader.Imported

/-! Reading shader files. A reference is classified by its file name and read whole; a preset names
other files by paths relative to its own container. Such a path is followed one segment at a time,
so every directory on the way has to exist, and one that starts at the root of anything is refused.
-/
namespace Overlay

/-- Why a shader cannot be loaded. -/
inductive LoadError where
  | unsupportedType (fileName : String)
  | notFound (what : String)
  | emptyPreset (name : String)
  | unreadable (reference : String) (fault : ReadFault)
  deriving DecidableEq, Repr

def LoadError.message : LoadError → String
  | .unsupportedType fileName => "unsupported shader file type: " ++ fileName
  | .notFound what => "shader reference not found: " ++ what
  | .emptyPreset name => "preset '" ++ name ++ "' does not name a shader for pass 0"
  | .unreadable reference fault => "failed to read " ++ reference ++ ": " ++ fault.message

namespace Reference

/-- The whole text that stands there. -/
def readText (disk : Disk) (reference : Reference) : Except LoadError String :=
  match reference.read disk with
  | .error fault => .error (.unreadable reference.describe fault)
  | .ok bytes =>
    match Text.Utf8.decode bytes with
    | .ok text => .ok (String.ofList text)
    | .error fault => .error (.unreadable reference.describe (.notText fault))

/-- Imports a file: a preset keeps its own text, a shader the text it consists of. -/
def load (disk : Disk) (reference : Reference) : Except LoadError ImportedShader :=
  match reference.displayName? with
  | none => .error (.notFound reference.describe)
  | some fileName =>
    match ShaderFormat.ofFileName? fileName with
    | none => .error (.unsupportedType fileName)
    | some format => do
      let content ← reference.readText disk
      let body := match format with
        | .preset => ShaderBody.preset content
        | .shader => .direct [content]
      .ok ⟨format.shaderName fileName, reference, body⟩

def isSeparator (c : Char) : Bool :=
  c == '/' || c == '\\'

/-- The segments of a relative path that say something; slashes of both kinds separate. -/
def segments (relative : String) : List String :=
  ((Text.splitAll isSeparator relative.toList).map String.ofList).filter fun segment =>
    !Path.isIdle segment

/-- One segment on: to the container, or to the entry of that name. -/
def follow? (disk : Disk) (reference : Reference) (segment : String) : Option Reference :=
  if segment == ".." then reference.parent? disk else reference.child? disk segment

def followAll? (disk : Disk) (reference : Reference) : List String → Option Reference
  | [] => some reference
  | segment :: rest =>
    (reference.follow? disk segment).bind fun reference => reference.followAll? disk rest

/-- Where a relative path leads from the container of a preset. -/
def sibling? (disk : Disk) (preset : Reference) (relative : String) : Option Reference :=
  match relative.toList.head? with
  | some c => if isSeparator c then none else
    match segments relative with
    | [] => none
    | segments => (preset.parent? disk).bind fun container => container.followAll? disk segments
  | none => none

def sibling (disk : Disk) (preset : Reference) (relative : String) : Except LoadError Reference :=
  match preset.sibling? disk relative with
  | some reference => .ok reference
  | none => .error (.notFound (relative ++ " (from " ++ preset.describe ++ ")"))

/-- The text of a file that a preset names. -/
def siblingText (disk : Disk) (preset : Reference) (relative : String) :
    Except LoadError String := do
  (← preset.sibling disk relative).readText disk

end Reference

/-- The text of the first pass of a preset. Anything else than a preset that names a file for pass
zero has none. -/
def ImportedShader.entrySource (disk : Disk) (shader : ImportedShader) :
    Except LoadError String :=
  match shader.presetContent?.bind fun content => (Preset.parse content).firstShaderPath? with
  | none => .error (.emptyPreset shader.name)
  | some path => shader.reference.siblingText disk path

end Overlay
