import Overlay.Sha256
import Overlay.Stage

/-! Content addresses. What a cache entry is filed under depends on the stage and on the source text
before compilation, never on a shader's name: two shaders with the same body share one entry, and an
edited shader misses by itself. -/
namespace Overlay

/-- Sixty-four hexadecimal digits that stand for a source text. -/
def fingerprint (source : String) : String :=
  String.ofList (Sha256.digest (octets source)).hex

/-- The stage's tag in front of a fingerprint. -/
def keyFor (stage : Stage) (hash : String) : String :=
  toString stage.discriminator ++ "_" ++ hash

/-- Where the compiled form of a source is kept. -/
def cacheKey (stage : Stage) (source : String) : String :=
  keyFor stage (fingerprint source)

end Overlay
