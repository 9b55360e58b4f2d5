/-! Keyed tables, listed by ascending key. Every listing the program shows (cache keys, imported
names, preset passes, files of a directory) is in key order, so the order is kept by the table and
no listing sorts. Looking a key up, replacing it and removing it need equality of keys alone; only
the listing depends on their order. -/
namespace Overlay

/-- Entries by ascending key, each key once. -/
structure Table (κ ν : Type) where
  entries : List (κ × ν) := []
  deriving DecidableEq, Repr

namespace Table
variable {κ ν : Type}

instance : EmptyCollection (Table κ ν) := ⟨⟨[]⟩⟩

instance : Inhabited (Table κ ν) := ⟨∅⟩

/-- What the first entry of the key holds. -/
def find [DecidableEq κ] (key : κ) : List (κ × ν) → Option ν
  | [] => none
  | (other, value) :: rest => if key = other then some value else find key rest

/-- Puts the entry before the first greater key, in place of the entry of its own key. -/
def place [DecidableEq κ] [LT κ] [DecidableLT κ] (key : κ) (value : ν) :
    List (κ × ν) → List (κ × ν)
  | [] => [(key, value)]
  | (other, held) :: rest =>
    if key = other then (key, value) :: rest
    else if key < other then (key, value) :: (other, held) :: rest
    else (other, held) :: place key value rest

def get? [DecidableEq κ] (table : Table κ ν) (key : κ) : Option ν :=
  find key table.entries

def contains [DecidableEq κ] (table : Table κ ν) (key : κ) : Bool :=
  (table.get? key).isSome

/-- The key holds this value afterwards, whatever it held before. -/
def insert [DecidableEq κ] [LT κ] [DecidableLT κ] (table : Table κ ν) (key : κ) (value : ν) :
    Table κ ν :=
  ⟨place key value table.entries⟩

/-- The key holds nothing afterwards. -/
def erase [DecidableEq κ] (table : Table κ ν) (key : κ) : Table κ ν :=
  ⟨table.entries.filter fun entry => decide (entry.1 ≠ key)⟩

def keys (table : Table κ ν) : List κ :=
  table.entries.map (·.1)

def values (table : Table κ ν) : List ν :=
  table.entries.map (·.2)

def size (table : Table κ ν) : Nat :=
  table.entries.length

def isEmpty (table : Table κ ν) : Bool :=
  table.entries.isEmpty

/-- Later pairs replace earlier ones of the same key. -/
def ofList [DecidableEq κ] [LT κ] [DecidableLT κ] (pairs : List (κ × ν)) : Table κ ν :=
  pairs.foldl (fun table pair => table.insert pair.1 pair.2) ∅

theorem find_place_self [DecidableEq κ] [LT κ] [DecidableLT κ] (key : κ) (value : ν)
    (entries : List (κ × ν)) : find key (place key value entries) = some value := by
  induction entries with
  | nil => simp [place, find]
  | cons entry rest ih =>
    obtain ⟨other, held⟩ := entry
    by_cases same : key = other
    · simp [place, find, same]
    · by_cases before : key < other <;> simp [place, find, same, before, ih]

theorem find_place_of_ne [DecidableEq κ] [LT κ] [DecidableLT κ] {key probe : κ} (value : ν)
    (apart : probe ≠ key) (entries : List (κ × ν)) :
    find probe (place key value entries) = find probe entries := by
  induction entries with
  | nil => simp [place, find, apart]
  | cons entry rest ih =>
    obtain ⟨other, held⟩ := entry
    by_cases same : key = other
    · subst same; simp [place, find, apart]
    · by_cases before : key < other <;> simp [place, find, same, before, apart, ih]

@[simp] theorem get?_insert_self [DecidableEq κ] [LT κ] [DecidableLT κ] (table : Table κ ν)
    (key : κ) (value : ν) : (table.insert key value).get? key = some value :=
  find_place_self key value table.entries

theorem get?_insert_of_ne [DecidableEq κ] [LT κ] [DecidableLT κ] (table : Table κ ν)
    {key probe : κ} (value : ν) (apart : probe ≠ key) :
    (table.insert key value).get? probe = table.get? probe :=
  find_place_of_ne value apart table.entries

@[simp] theorem get?_empty [DecidableEq κ] (key : κ) : (∅ : Table κ ν).get? key = none := rfl

@[simp] theorem get?_erase_self [DecidableEq κ] (table : Table κ ν) (key : κ) :
    (table.erase key).get? key = none := by
  obtain ⟨entries⟩ := table
  simp only [get?, erase, ne_eq, decide_not]
  induction entries with
  | nil => rfl
  | cons entry rest ih =>
    by_cases same : entry.1 = key
    · simpa [same] using ih
    · simpa [same, find, Ne.symm same] using ih

theorem get?_erase_of_ne [DecidableEq κ] (table : Table κ ν) {key probe : κ}
    (apart : probe ≠ key) : (table.erase key).get? probe = table.get? probe := by
  obtain ⟨entries⟩ := table
  simp only [get?, erase, ne_eq, decide_not]
  induction entries with
  | nil => rfl
  | cons entry rest ih =>
    obtain ⟨other, held⟩ := entry
    by_cases same : other = key
    · subst same; simpa [find, apart] using ih
    · by_cases hit : probe = other
      · simp [same, find, hit]
      · simpa [same, find, hit] using ih

end Table
end Overlay
