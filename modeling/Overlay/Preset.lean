import Overlay.Table
import Overlay.Text.Blank
import Overlay.Text.Line
import Overlay.Number.Binary

/-! Shader presets. A preset is a list of `key = value` lines that describes a chain of passes, and
presets in the wild are sloppy, so reading never fails: a line either makes one setting or is
skipped, and a later setting of the same thing replaces an earlier one. Reading a line and applying
a setting are two functions, so what a line means does not depend on the lines around it. -/
namespace Overlay

/-- How a pass scales its picture. -/
inductive ScaleType where
  | source
  | viewport
  | absolute
  deriving DecidableEq, Repr

namespace ScaleType

def name : ScaleType → String
  | .source => "source"
  | .viewport => "viewport"
  | .absolute => "absolute"

/-- Blanks around the word and capitals are accepted. -/
def ofText? (text : String) : Option ScaleType :=
  let word := String.ofList (Text.lower (Text.trim text.toList))
  if word = "source" then some .source
  else if word = "viewport" then some .viewport
  else if word = "absolute" then some .absolute
  else none

/-- What is said of a text that names no way to scale. -/
def complaint (text : String) : String :=
  "unknown scale type '" ++ text ++ "' (expected source, viewport or absolute)"

end ScaleType

/-- What a preset says, by pass. Passes are sparse: nothing makes them start at zero or follow each
other, and a pass may be missing from any of the four tables. -/
structure Preset where
  shaderCount : Nat := 0
  shaderPaths : Table Nat String := ∅
  filterLinear : Table Nat Bool := ∅
  scaleTypes : Table Nat String := ∅
  scales : Table Nat Binary := ∅
  deriving DecidableEq, Repr, Inhabited

/-- Everything a preset says of one pass. -/
structure Pass where
  index : Nat
  path : Option String
  filterLinear : Option Bool
  scaleType : Option ScaleType
  scale : Option Binary
  deriving DecidableEq, Repr

namespace Preset

/-- The scale of a pass whose value is no number. -/
def defaultScale : Binary := Binary.one

/-- What one line sets. -/
inductive Setting where
  | shaders (count : Nat)
  | path (index : Nat) (text : String)
  | filterLinear (index : Nat) (enabled : Bool)
  | scaleType (index : Nat) (text : String)
  | scale (index : Nat) (factor : Binary)
  deriving DecidableEq, Repr

/-- One pair of double quotes around a value is no part of it; a single quote mark is. -/
def unquote (value : List Char) : List Char :=
  match value with
  | '"' :: rest => (Text.before? ['"'] rest).getD value
  | _ => value

/-- The pass that a key names after its beginning: digits and nothing else, in thirty-two bits. -/
def indexAfter? (start : String) (key : List Char) : Option Nat :=
  (Text.after? start.toList key).bind (Numeral.bounded? Numeral.max32)

/-- What a key and its value set. The four kinds of key cannot be confused, because what follows the
beginning of a key is digits alone. -/
def Setting.ofPair? (key value : List Char) : Option Setting :=
  if key = "shaders".toList then
    (Numeral.signedBounded? Numeral.max32 value).map .shaders
  else if let some index := indexAfter? "shader" key then
    some (.path index (String.ofList value))
  else if let some index := indexAfter? "filter_linear" key then
    some (.filterLinear index (Text.lower value == "true".toList))
  else if let some index := indexAfter? "scale_type" key then
    some (.scaleType index (String.ofList value))
  else if let some index := indexAfter? "scale" key then
    some (.scale index ((Binary.ofText? .single value).getD defaultScale))
  else none

/-- What a line sets: nothing when it is blank, a comment, or has no equals sign. -/
def Setting.ofLine? (line : List Char) : Option Setting :=
  match Text.trim line with
  | '#' :: _ => none
  | trimmed => do
    let (key, value) ← Text.splitFirst '=' trimmed
    Setting.ofPair? (Text.trim key) (unquote (Text.trim value))

/-- The setting holds afterwards; everything else is as before. -/
def apply (preset : Preset) : Setting → Preset
  | .shaders count => { preset with shaderCount := count }
  | .path index text => { preset with shaderPaths := preset.shaderPaths.insert index text }
  | .filterLinear index enabled =>
    { preset with filterLinear := preset.filterLinear.insert index enabled }
  | .scaleType index text => { preset with scaleTypes := preset.scaleTypes.insert index text }
  | .scale index factor => { preset with scales := preset.scales.insert index factor }

/-- The settings of a text in the order of its lines. -/
def settings (content : List Char) : List Setting :=
  (Text.lines content).filterMap Setting.ofLine?

def parse (content : String) : Preset :=
  (settings content.toList).foldl apply {}

/-- The path of pass zero, which is the one that is drawn. -/
def firstShaderPath? (preset : Preset) : Option String :=
  preset.shaderPaths.get? 0

def isEmpty (preset : Preset) : Bool :=
  preset.shaderPaths.isEmpty

/-- The passes that any of the four tables mentions, ascending. -/
def indices (preset : Preset) : List Nat :=
  (Table.ofList ((preset.shaderPaths.keys ++ preset.filterLinear.keys ++ preset.scaleTypes.keys ++
    preset.scales.keys).map fun index => (index, ()))).keys

def pass (preset : Preset) (index : Nat) : Pass where
  index
  path := preset.shaderPaths.get? index
  filterLinear := preset.filterLinear.get? index
  scaleType := (preset.scaleTypes.get? index).bind ScaleType.ofText?
  scale := preset.scales.get? index

def passes (preset : Preset) : List Pass :=
  preset.indices.map preset.pass

end Preset
end Overlay
