import Overlay.Shader.Format
import Overlay.Shader.Reference

/-! Imported shaders: what was read when a file was imported, and the registry that keeps it by
name. The text of a shader is kept, so importing is the last time its file is opened; of a preset
only the preset itself is kept, and the passes it names are read when they are asked for. -/
namespace Overlay

/-- What an imported file holds. -/
inductive ShaderBody where
  | preset (content : String)
  | direct (sources : List String)
  deriving DecidableEq, Repr

/-- An imported file under the name it is known by. -/
structure ImportedShader where
  name : String
  reference : Reference
  body : ShaderBody
  deriving DecidableEq, Repr

namespace ImportedShader

def isPreset (shader : ImportedShader) : Bool :=
  match shader.body with
  | .preset _ => true
  | .direct _ => false

def presetContent? (shader : ImportedShader) : Option String :=
  match shader.body with
  | .preset content => some content
  | .direct _ => none

/-- The text captured at import; a preset has none. -/
def sources (shader : ImportedShader) : List String :=
  match shader.body with
  | .preset _ => []
  | .direct sources => sources

end ImportedShader

/-- Imported shaders by name. -/
abbrev Registry := Table String ImportedShader

/-- Files a shader under its own name, in place of what held that name. -/
def Registry.register (registry : Registry) (shader : ImportedShader) : Registry :=
  registry.insert shader.name shader

end Overlay
