/-! The two stages of a program on the graphics device. -/
namespace Overlay

/-- Where a piece of shader text runs. -/
inductive Stage where
  | vertex
  | fragment
  deriving DecidableEq, Repr

namespace Stage

/-- The tag that stands in front of a cache key. -/
def discriminator : Stage → Nat
  | .vertex => 0
  | .fragment => 1

def name : Stage → String
  | .vertex => "vertex"
  | .fragment => "fragment"

def ofName? (name : String) : Option Stage :=
  if name = "vertex" then some .vertex
  else if name = "fragment" then some .fragment
  else none

end Stage
end Overlay
