import Overlay.Text.Line

/-! Kinds of shader files, told apart by the ending of the file name alone, and the soft check on
the text of one. -/
namespace Overlay

/-- What a shader file is. -/
inductive ShaderFormat where
  /-- A description of several passes. -/
  | preset
  /-- The text of one shader. -/
  | shader
  deriving DecidableEq, Repr

namespace ShaderFormat

def name : ShaderFormat → String
  | .preset => "preset"
  | .shader => "shader"

def extension : ShaderFormat → String
  | .preset => ".slangp"
  | .shader => ".slang"

/-- The endings of shader files without the dot. -/
def extensions : List String :=
  ["slangp", "slang"]

/-- The kind of a file name; capitals in the ending make it another ending. -/
def ofFileName? (fileName : String) : Option ShaderFormat :=
  if (Text.before? ShaderFormat.preset.extension.toList fileName.toList).isSome then some .preset
  else if (Text.before? ShaderFormat.shader.extension.toList fileName.toList).isSome then
    some .shader
  else none

/-- The name a file is imported under: without its ending, unless nothing else is left. -/
def shaderName (format : ShaderFormat) (fileName : String) : String :=
  match Text.before? format.extension.toList fileName.toList with
  | some (c :: stem) => String.ofList (c :: stem)
  | _ => fileName

end ShaderFormat

/-- Whether a text looks like a shader: a version pragma and an entry point. -/
def looksLikeShader (content : String) : Bool :=
  let cs := content.toList
  Text.occurs "#version".toList cs &&
    (Text.occurs "void main".toList cs || Text.occurs "main()".toList cs)

end Overlay
