import Overlay.CacheKey
import Overlay.Store

/-! Keys of cache entries. A key is the stage's tag, an underscore and a fingerprint, so it tells
the stage and the fingerprint apart, and it consists of characters that every store takes. -/
namespace Overlay

/-- The character that stands for a stage at the beginning of a key. -/
def stageMark : Stage → Char
  | .vertex => '0'
  | .fragment => '1'

private theorem toList_keyFor (stage : Stage) (hash : String) :
    (keyFor stage hash).toList = stageMark stage :: '_' :: hash.toList := by
  have tag : (toString stage.discriminator).toList = [stageMark stage] := by
    cases stage <;> rfl
  rw [keyFor, String.toList_append, String.toList_append, tag]
  rfl

/-- The stage and the fingerprint can be read off a key. -/
theorem keyFor_inj {stage other : Stage} {hash otherHash : String}
    (same : keyFor stage hash = keyFor other otherHash) : stage = other ∧ hash = otherHash := by
  have characters := congrArg String.toList same
  rw [toList_keyFor, toList_keyFor, List.cons.injEq, List.cons.injEq] at characters
  refine ⟨?_, String.toList_inj.mp characters.2.2⟩
  have mark := characters.1
  cases stage <;> cases other <;> first
    | rfl
    | exact absurd mark (by decide)

theorem cacheKey_eq_iff {stage other : Stage} {source otherSource : String} :
    cacheKey stage source = cacheKey other otherSource ↔
      stage = other ∧ fingerprint source = fingerprint otherSource := by
  constructor
  · exact keyFor_inj
  · rintro ⟨rfl, same⟩
    rw [cacheKey, same, cacheKey]

theorem length_cacheKey (stage : Stage) (source : String) :
    (cacheKey stage source).length = 66 := by
  rw [cacheKey, ← String.length_toList, toList_keyFor]
  simp [fingerprint, Sha256.State.hex, Sha256.hexWord]

private theorem hexChar_isKeyChar : ∀ d, d < 16 → Store.isKeyChar (Numeral.hexChar d) = true := by
  decide

/-- Fingerprints consist of characters that a key may have. -/
theorem fingerprint_isKeyChar (source : String) :
    ∀ c ∈ (fingerprint source).toList, Store.isKeyChar c = true := by
  intro c member
  simp only [fingerprint, String.toList_ofList, Sha256.State.hex, Sha256.hexWord,
    List.mem_flatMap, List.mem_map] at member
  obtain ⟨word, -, shift, -, rfl⟩ := member
  exact hexChar_isKeyChar _ (Nat.mod_lt _ (by decide))

/-- Every store that checks its keys takes the key of a cache entry. -/
theorem isKey_cacheKey (stage : Stage) (source : String) :
    Store.isKey (cacheKey stage source) = true := by
  have tag : (toString stage.discriminator ++ "_").toList.all Store.isKeyChar = true := by
    cases stage <;> decide
  have some_character : cacheKey stage source ≠ "" := by
    intro empty
    have length := congrArg String.length empty
    simp [cacheKey, keyFor] at length
  simp only [Store.isKey, Bool.and_eq_true, bne_iff_ne, ne_eq, List.all_eq_true]
  refine ⟨some_character, fun c member => ?_⟩
  rw [cacheKey, keyFor, String.toList_append, List.mem_append] at member
  rcases member with before | after
  · exact List.all_eq_true.mp tag c before
  · exact fingerprint_isKeyChar source c after

end Overlay
