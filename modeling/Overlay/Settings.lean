import Overlay.Number.Binary
import Overlay.Disk.Path
import Overlay.Cache

/-! What a settings file decides: how long compiled shaders are kept, which shader the overlay
shows, and how. Every setting has a default, so an empty file and a missing one mean the same. -/
namespace Overlay

/-- What the overlay trades quality against. -/
inductive PerformanceMode where
  | highQuality
  | balanced
  | batterySaver
  deriving DecidableEq, Repr

namespace PerformanceMode

def all : List PerformanceMode :=
  [.highQuality, .balanced, .batterySaver]

/-- How a mode is spelled. -/
def name : PerformanceMode → String
  | .highQuality => "high-quality"
  | .balanced => "balanced"
  | .batterySaver => "battery-saver"

def ofName? (name : String) : Option PerformanceMode :=
  all.find? fun mode => mode.name == name

end PerformanceMode

namespace Opacity

/-- Four fifths, to the nearest single. -/
def default : Binary :=
  .finite false 13421773 (-24)

/-- Whether a finite value above zero exceeds one. -/
def exceedsOne (units : Nat) (exponent : Int) : Bool :=
  Binary.scaleUp 2 (-exponent) < units * Binary.scaleUp 2 exponent

/-- An opacity between zero and one. A zero keeps its sign, and what is no finite number means the
default. -/
def clamp : Binary → Binary
  | .finite true units exponent => if units = 0 then .finite true 0 exponent else .zero
  | .finite false units exponent =>
    if exceedsOne units exponent then .one else .finite false units exponent
  | _ => default

end Opacity

/-- How the cache is to be kept. -/
structure CacheSection where
  maxAge : Duration := ⟨7 * 24 * 60 * 60, 0⟩
  memoryEntries : Nat := 50
  deriving DecidableEq, Repr

def CacheSection.policy (cache : CacheSection) : CachePolicy :=
  { maxAge := cache.maxAge, memoryCapacity := cache.memoryEntries }

/-- What the overlay shows. -/
structure OverlaySection where
  shader : String := "crt"
  opacity : Binary := Opacity.default
  performance : PerformanceMode := .balanced
  shaders : List String := []
  deriving DecidableEq, Repr

/-- Every setting. -/
structure Settings where
  cache : CacheSection := {}
  overlay : OverlaySection := {}
  deriving DecidableEq, Repr

/-- Shader paths as seen from a directory; absolute ones stay. -/
def OverlaySection.anchored (overlay : OverlaySection) (base : String) : OverlaySection :=
  { overlay with shaders := overlay.shaders.map (Path.append base) }

end Overlay
