import Overlay.Settings
import Overlay.Toml
import Overlay.Text.Quote

/-! What can be wrong with a setting. A complaint names what was found and what would have been
right, and it never depends on the settings around it. -/
namespace Overlay

/-- What stands where a setting should. A date counts as a table. -/
inductive FoundKind where
  | integer (n : Int)
  | float (x : Binary)
  | boolean (b : Bool)
  | text (s : String)
  | sequence
  | map
  deriving DecidableEq, Repr

namespace FoundKind

def of : Toml.Value → FoundKind
  | .text s => .text s
  | .integer n => .integer n
  | .float x => .float x
  | .boolean b => .boolean b
  | .moment => .map
  | .array _ => .sequence
  | .table .. => .map
  | .tables .. => .sequence

def describe : FoundKind → String
  | .integer n => "integer `" ++ toString n ++ "`"
  | .float x => "floating point `" ++ x.pointedText .double ++ "`"
  | .boolean b => "boolean `" ++ toString b ++ "`"
  | .text s => "string " ++ Text.quote s
  | .sequence => "sequence"
  | .map => "map"

end FoundKind

/-- What should stand there. -/
inductive WantedKind where
  | cacheSection
  | overlaySection
  | text
  | opacity
  | count
  | sequence
  | path
  | duration
  deriving DecidableEq, Repr

def WantedKind.describe : WantedKind → String
  | .cacheSection => "struct CacheSection"
  | .overlaySection => "struct OverlaySettings"
  | .text => "a string"
  | .opacity => "f32"
  | .count => "usize"
  | .sequence => "a sequence"
  | .path => "path string"
  | .duration => "a duration as number of seconds or human-readable string"

/-- Why a setting is refused. -/
inductive SettingsFault where
  | unknownField (name : String) (known : List String)
  | unknownMode (name : String)
  | wrongKind (found : FoundKind) (wanted : WantedKind)
  | negativeCount (n : Int)
  | negativeDuration
  | unreadableDuration (text : String)
  /-- A mode is neither a name nor a table that holds one. -/
  | notMode
  | noMode
  | severalModes
  /-- The name of a mode leads to something else than a table. -/
  | modeHolds (what : String)
  /-- The name of a mode leads to a table with something in it. -/
  | modeNotEmpty (what : String)
  deriving DecidableEq, Repr

namespace SettingsFault

def ticked (name : String) : String :=
  "`" ++ name ++ "`"

/-- The names that would have been right. -/
def expected : List String → String
  | [one, other] => "expected " ++ ticked one ++ " or " ++ ticked other
  | names => "expected one of " ++ String.intercalate ", " (names.map ticked)

def message : SettingsFault → String
  | .unknownField name known => "unknown field " ++ ticked name ++ ", " ++ expected known
  | .unknownMode name =>
    "unknown variant " ++ ticked name ++ ", " ++ expected (PerformanceMode.all.map (·.name))
  | .wrongKind found wanted =>
    "invalid type: " ++ found.describe ++ ", expected " ++ wanted.describe
  | .negativeCount n =>
    "invalid value: " ++ (FoundKind.integer n).describe ++ ", expected " ++
      WantedKind.count.describe
  | .negativeDuration => "duration must be non-negative"
  | .unreadableDuration text => "invalid duration '" ++ text ++ "'"
  | .notMode => "wanted string or table"
  | .noMode => "wanted exactly 1 element, found 0 elements"
  | .severalModes => "wanted exactly 1 element, more than 1 element"
  | .modeHolds what => "expected table, found " ++ what
  | .modeNotEmpty what => "expected empty " ++ what

end SettingsFault
end Overlay
