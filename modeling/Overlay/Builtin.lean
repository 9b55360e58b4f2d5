/-! The effects that ship with the program. Every effect draws a textured quad with the same vertex
text; only the fragment differs. Opacity, time and resolution come from the draw loop. -/
namespace Overlay

/-- A named effect. -/
structure BuiltinShader where
  name : String
  vertex : String
  fragment : String
  deriving DecidableEq, Repr

namespace BuiltinShader

/-- A text by its lines, each closed by a newline. -/
def source (lines : List String) : String :=
  String.join (lines.map fun line => line ++ "\n")

/-- The vertex text of every effect. -/
def vertexText : String := source [
  "attribute vec4 a_Position;",
  "attribute vec2 a_TexCoord;",
  "",
  "uniform mat4 u_MVPMatrix;",
  "",
  "varying vec2 v_TexCoord;",
  "",
  "void main() \x7b",
  "    gl_Position = u_MVPMatrix * a_Position;",
  "    v_TexCoord = a_TexCoord;",
  "\x7d"]

/-- Draws nothing. -/
def noneFragment : String := source [
  "precision mediump float;",
  "",
  "uniform float u_Opacity;",
  "uniform float u_Time;",
  "uniform vec2 u_Resolution;",
  "",
  "varying vec2 v_TexCoord;",
  "",
  "void main() \x7b",
  "    vec3 color = vec3(0.0, 0.0, 0.0);",
  "    gl_FragColor = vec4(color, 0.0);",
  "\x7d"]

/-- A curved tube with a green phosphor. -/
def crtFragment : String := source [
  "precision mediump float;",
  "",
  "uniform float u_Opacity;",
  "uniform float u_Time;",
  "uniform vec2 u_Resolution;",
  "",
  "varying vec2 v_TexCoord;",
  "",
  "void main() \x7b",
  "    vec2 uv = v_TexCoord;",
  "    vec2 dc = abs(0.5 - uv);",
  "    dc *= dc;",
  "",
  "    // barrel curvature",
  "    uv.x -= 0.5; uv.x *= 1.0 + (dc.y * (0.3 * 0.5));",
  "    uv.y -= 0.5; uv.y *= 1.0 + (dc.x * (0.4 * 0.5));",
  "    uv += 0.5;",
  "",
  "    float vig = pow(1.0 - dot(dc, dc), 0.5);",
  "    float scanline = sin(uv.y * u_Resolution.y * 3.14159) * 0.04;",
  "",
  "    // green phosphor",
  "    vec3 col = vec3(0.2, 0.8, 0.3);",
  "    col += scanline;",
  "    col *= vig;",
  "",
  "    gl_FragColor = vec4(col, u_Opacity * 0.3);",
  "\x7d"]

/-- Dark lines over the picture. -/
def scanlinesFragment : String := source [
  "precision mediump float;",
  "",
  "uniform float u_Opacity;",
  "uniform float u_Time;",
  "uniform vec2 u_Resolution;",
  "",
  "varying vec2 v_TexCoord;",
  "",
  "void main() \x7b",
  "    vec2 uv = v_TexCoord;",
  "",
  "    float scanline = sin(uv.y * u_Resolution.y * 3.14159 * 2.0) * 0.5 + 0.5;",
  "    scanline = pow(scanline, 2.0);",
  "    float vertical = sin(uv.x * u_Resolution.x * 3.14159 * 0.5) * 0.1 + 0.9;",
  "",
  "    vec3 color = vec3(0.0, 0.0, 0.0);",
  "    float alpha = scanline * vertical * u_Opacity * 0.4;",
  "",
  "    gl_FragColor = vec4(color, alpha);",
  "\x7d"]

/-- The stripes of a liquid crystal. -/
def lcdFragment : String := source [
  "precision mediump float;",
  "",
  "uniform float u_Opacity;",
  "uniform float u_Time;",
  "uniform vec2 u_Resolution;",
  "",
  "varying vec2 v_TexCoord;",
  "",
  "void main() \x7b",
  "    vec2 uv = v_TexCoord;",
  "",
  "    vec2 grid = abs(fract(uv * u_Resolution / 3.0) - 0.5) / fwidth(uv * u_Resolution / 3.0);",
  "    float line = min(grid.x, grid.y);",
  "",
  "    // RGB subpixel stripes",
  "    vec3 subpixel = vec3(1.0);",
  "    float mod_x = mod(uv.x * u_Resolution.x, 3.0);",
  "    if (mod_x < 1.0) subpixel = vec3(1.0, 0.3, 0.3);",
  "    else if (mod_x < 2.0) subpixel = vec3(0.3, 1.0, 0.3);",
  "    else subpixel = vec3(0.3, 0.3, 1.0);",
  "",
  "    vec3 color = mix(vec3(0.0), subpixel * 0.2, 1.0 - min(line, 1.0));",
  "",
  "    gl_FragColor = vec4(color, u_Opacity * 0.2);",
  "\x7d"]

/-- Stands in for a preset that cannot be resolved: a tint that every device compiles. -/
def fallbackFragment : String := source [
  "#version 100",
  "precision mediump float;",
  "",
  "uniform float u_Opacity;",
  "uniform float u_Time;",
  "uniform vec2 u_Resolution;",
  "",
  "varying vec2 v_TexCoord;",
  "",
  "void main() \x7b",
  "    vec2 uv = v_TexCoord;",
  "    vec3 color = vec3(0.5 + 0.3 * sin(u_Time + uv.x * 10.0));",
  "    gl_FragColor = vec4(color, u_Opacity * 0.5);",
  "\x7d"]

/-- The effect for an unknown name. -/
def default : BuiltinShader := ⟨"none", vertexText, noneFragment⟩

/-- The effects in the order of the menu. -/
def all : List BuiltinShader := [
  default,
  ⟨"crt", vertexText, crtFragment⟩,
  ⟨"scanlines", vertexText, scanlinesFragment⟩,
  ⟨"lcd", vertexText, lcdFragment⟩]

def find? (name : String) : Option BuiltinShader :=
  all.find? fun shader => shader.name == name

def findOrDefault (name : String) : BuiltinShader :=
  (find? name).getD default

def isBuiltin (name : String) : Bool :=
  (find? name).isSome

def names : List String :=
  all.map (·.name)

end BuiltinShader
end Overlay
