import Overlay.Table

/-! Laws of keyed tables beyond looking up what was just put there: which keys a table lists, and
that undoing an insertion gives the very same table back. The second kind is what a roll-back is
measured by, for it speaks of the whole table and not of one key. -/
namespace Overlay.Table
variable {κ ν : Type} [DecidableEq κ]

section Ordered
variable [LT κ] [DecidableLT κ]

theorem get?_insert (table : Table κ ν) (key probe : κ) (value : ν) :
    (table.insert key value).get? probe = if probe = key then some value else table.get? probe := by
  by_cases same : probe = key
  · subst probe
    rw [if_pos rfl, get?_insert_self]
  · rw [if_neg same, get?_insert_of_ne table value same]

private theorem place_place (key : κ) (first second : ν) (entries : List (κ × ν)) :
    place key second (place key first entries) = place key second entries := by
  induction entries with
  | nil => simp [place]
  | cons entry rest ih =>
    obtain ⟨other, held⟩ := entry
    by_cases same : key = other
    · simp [place, same]
    · by_cases before : key < other
      · simp [place, same, before]
      · simp [place, same, before, ih]

/-- Only the last of two insertions under one key is left. -/
theorem insert_insert (table : Table κ ν) (key : κ) (first second : ν) :
    (table.insert key first).insert key second = table.insert key second :=
  congrArg Table.mk (place_place key first second table.entries)

end Ordered

theorem get?_erase (table : Table κ ν) (key probe : κ) :
    (table.erase key).get? probe = if probe = key then none else table.get? probe := by
  by_cases same : probe = key
  · subst probe
    rw [if_pos rfl, get?_erase_self]
  · rw [if_neg same, get?_erase_of_ne table same]

/-- What is found after an erasure was there before it. -/
theorem get?_of_get?_erase {table : Table κ ν} {key probe : κ} {value : ν}
    (found : (table.erase key).get? probe = some value) :
    probe ≠ key ∧ table.get? probe = some value := by
  rw [get?_erase] at found
  split at found
  · cases found
  · exact ⟨‹_›, found⟩

private theorem find_eq_none_iff (key : κ) (entries : List (κ × ν)) :
    find key entries = none ↔ ∀ entry ∈ entries, entry.1 ≠ key := by
  induction entries with
  | nil => simp [find]
  | cons entry rest ih =>
    obtain ⟨other, held⟩ := entry
    by_cases same : key = other
    · simp [find, same]
    · simp [find, same, ih, Ne.symm same]

theorem mem_keys (table : Table κ ν) (key : κ) :
    key ∈ table.keys ↔ (table.get? key).isSome = true := by
  obtain ⟨entries⟩ := table
  change key ∈ entries.map (·.1) ↔ (find key entries).isSome = true
  induction entries with
  | nil => simp [find]
  | cons entry rest ih =>
    obtain ⟨other, held⟩ := entry
    by_cases same : key = other
    · simp [find, same]
    · simp only [List.map_cons, List.mem_cons, find, same, ↓reduceIte, false_or]
      exact ih

theorem mem_values_of_get? {table : Table κ ν} {key : κ} {value : ν}
    (found : table.get? key = some value) : value ∈ table.values := by
  obtain ⟨entries⟩ := table
  change find key entries = some value at found
  change value ∈ entries.map (·.2)
  induction entries with
  | nil => cases found
  | cons entry rest ih =>
    obtain ⟨other, held⟩ := entry
    by_cases same : key = other
    · simp only [find, same, ↓reduceIte, Option.some.injEq] at found
      simp [found]
    · simp only [find, same, ↓reduceIte] at found
      exact List.mem_cons_of_mem _ (ih found)

/-- Erasing a key that is not there changes nothing. -/
theorem erase_of_absent {table : Table κ ν} {key : κ} (absent : table.get? key = none) :
    table.erase key = table := by
  have others := (find_eq_none_iff key table.entries).mp absent
  have kept : table.entries.filter (fun entry => decide (entry.1 ≠ key)) = table.entries :=
    List.filter_eq_self.mpr fun entry member => decide_eq_true (others entry member)
  exact congrArg Table.mk kept

theorem mem_keys_erase (table : Table κ ν) (key probe : κ) :
    probe ∈ (table.erase key).keys ↔ probe ≠ key ∧ probe ∈ table.keys := by
  rw [mem_keys, mem_keys, get?_erase]
  split
  · simp [*]
  · simp [*]

theorem mem_keys_insert [LT κ] [DecidableLT κ] (table : Table κ ν) (key probe : κ) (value : ν) :
    probe ∈ (table.insert key value).keys ↔ probe = key ∨ probe ∈ table.keys := by
  rw [mem_keys, mem_keys, get?_insert]
  split
  · simp [*]
  · simp [*]

theorem mem_keys_foldl_erase (keys : List κ) (table : Table κ ν) (probe : κ) :
    probe ∈ (keys.foldl erase table).keys ↔ probe ∈ table.keys ∧ probe ∉ keys := by
  induction keys generalizing table with
  | nil => simp
  | cons key rest ih =>
    rw [List.foldl_cons, ih, mem_keys_erase, List.mem_cons, not_or, and_comm (a := probe ≠ key),
      and_assoc]

private theorem filter_place [LT κ] [DecidableLT κ] (key : κ) (value : ν)
    (entries : List (κ × ν)) :
    (place key value entries).filter (fun entry => decide (entry.1 ≠ key)) =
      entries.filter (fun entry => decide (entry.1 ≠ key)) := by
  induction entries with
  | nil => simp [place]
  | cons entry rest ih =>
    obtain ⟨other, held⟩ := entry
    by_cases same : key = other
    · simp [place, same]
    · by_cases before : key < other
      · simp [place, same, before]
      · simp only [place, same, before, ↓reduceIte, List.filter_cons, ih]

/-- Erasing what was just inserted leaves what erasing alone leaves. -/
theorem erase_insert [LT κ] [DecidableLT κ] (table : Table κ ν) (key : κ) (value : ν) :
    (table.insert key value).erase key = table.erase key :=
  congrArg Table.mk (filter_place key value table.entries)

/-- Inserting under a new key and erasing it again gives the same table back. -/
theorem erase_insert_of_absent [LT κ] [DecidableLT κ] {table : Table κ ν} {key : κ}
    (absent : table.get? key = none) (value : ν) : (table.insert key value).erase key = table := by
  rw [erase_insert, erase_of_absent absent]

theorem erase_comm (table : Table κ ν) (first second : κ) :
    (table.erase first).erase second = (table.erase second).erase first := by
  simp only [erase, List.filter_filter, Bool.and_comm]

/-- Two insertions under new keys are undone in the order in which they were made, too. -/
theorem erase_insert_pair [LT κ] [DecidableLT κ] {table : Table κ ν} {first second : κ}
    (apart : first ≠ second) (firstAbsent : table.get? first = none)
    (secondAbsent : table.get? second = none) (a b : ν) :
    (((table.insert first a).insert second b).erase first).erase second = table := by
  have still : (table.insert first a).get? second = none := by
    rw [get?_insert_of_ne table a (Ne.symm apart), secondAbsent]
  rw [erase_comm, erase_insert_of_absent still, erase_insert_of_absent firstAbsent]

/-- A table in which nothing is found is empty. -/
theorem eq_empty_of_absent {table : Table κ ν} (absent : ∀ key, table.get? key = none) :
    table = ∅ := by
  obtain ⟨entries⟩ := table
  cases entries with
  | nil => rfl
  | cons entry rest =>
    have none := absent entry.1
    simp [get?, find] at none

/-! ### The order of the listing -/

/-- The listed keys ascend, so that none is listed twice. -/
def Ascending [LT κ] (table : Table κ ν) : Prop :=
  table.entries.Pairwise fun earlier later => earlier.1 < later.1

omit [DecidableEq κ] in
theorem ascending_empty [LT κ] : (∅ : Table κ ν).Ascending := List.Pairwise.nil

omit [DecidableEq κ] in
theorem Ascending.keys [LT κ] {table : Table κ ν} (ascending : table.Ascending) :
    table.keys.Pairwise (· < ·) :=
  List.pairwise_map.mpr ascending

theorem Ascending.erase [LT κ] {table : Table κ ν} (ascending : table.Ascending) (key : κ) :
    (table.erase key).Ascending :=
  ascending.filter _

private theorem mem_place [LT κ] [DecidableLT κ] {key : κ} {value : ν} {entries : List (κ × ν)}
    {entry : κ × ν} (member : entry ∈ place key value entries) :
    entry = (key, value) ∨ entry ∈ entries := by
  induction entries with
  | nil => simpa [place] using member
  | cons head rest ih =>
    obtain ⟨other, held⟩ := head
    simp only [place] at member
    split at member
    · exact (List.mem_cons.mp member).imp_right (List.mem_cons_of_mem _)
    · split at member
      · exact List.mem_cons.mp member
      · rcases List.mem_cons.mp member with rfl | member
        · exact .inr List.mem_cons_self
        · exact (ih member).imp_right (List.mem_cons_of_mem _)

/-- Counting what a key has no part in is not changed by an entry under that key. -/
theorem countP_insert [LT κ] [DecidableLT κ] (table : Table κ ν) (key : κ) (value : ν)
    {counts : κ × ν → Bool} (blind : ∀ held, counts (key, held) = false) :
    (table.insert key value).entries.countP counts = table.entries.countP counts := by
  obtain ⟨entries⟩ := table
  change (place key value entries).countP counts = entries.countP counts
  induction entries with
  | nil => simp [place, blind]
  | cons entry rest ih =>
    obtain ⟨other, held⟩ := entry
    by_cases same : key = other
    · subst other
      simp [place, blind]
    · by_cases before : key < other
      · simp [place, same, before, blind]
      · simp [place, same, before, List.countP_cons, ih]

variable [LE κ] [LT κ] [Std.LawfulOrderLT κ] {table : Table κ ν}

theorem Ascending.insert [DecidableLT κ] [Std.IsLinearOrder κ] (ascending : table.Ascending)
    (key : κ) (value : ν) : (table.insert key value).Ascending := by
  obtain ⟨entries⟩ := table
  change (place key value entries).Pairwise fun earlier later => earlier.1 < later.1
  induction entries with
  | nil => simp [place]
  | cons entry rest ih =>
    obtain ⟨other, held⟩ := entry
    obtain ⟨least, restAscending⟩ := List.pairwise_cons.mp ascending
    simp only [place]
    split
    · rename_i same
      subst other
      exact List.pairwise_cons.mpr ⟨least, restAscending⟩
    · rename_i different
      split
      · rename_i before
        refine List.pairwise_cons.mpr ⟨fun later member => ?_, ascending⟩
        rcases List.mem_cons.mp member with rfl | member
        · exact before
        · exact Std.lt_trans before (least later member)
      · rename_i notBefore
        refine List.pairwise_cons.mpr ⟨fun later member => ?_, ih restAscending⟩
        rcases mem_place member with rfl | member
        · exact Std.lt_of_le_of_ne (Std.not_lt.mp notBefore) (Ne.symm different)
        · exact least later member

/-- What is listed is what is found. -/
theorem Ascending.mem_entries (ascending : table.Ascending) {key : κ} {value : ν} :
    (key, value) ∈ table.entries ↔ table.get? key = some value := by
  obtain ⟨entries⟩ := table
  change _ ↔ find key entries = some value
  induction entries with
  | nil => simp [find]
  | cons entry rest ih =>
    obtain ⟨other, held⟩ := entry
    obtain ⟨least, restAscending⟩ := List.pairwise_cons.mp ascending
    rw [List.mem_cons, ih restAscending, Prod.mk.injEq]
    by_cases same : key = other
    · subst other
      have unlisted : ¬ find key rest = some value := by
        intro found
        have member : (key, value) ∈ rest := (ih restAscending).mpr found
        exact Std.lt_irrefl (least (key, value) member)
      simp [find, unlisted, eq_comm]
    · simp [find, same]

/-- Erasing a key that is there costs one entry. -/
theorem Ascending.size_erase (ascending : table.Ascending) {key : κ} {value : ν}
    (found : table.get? key = some value) : (table.erase key).size + 1 = table.size := by
  obtain ⟨entries⟩ := table
  change (entries.filter fun entry => decide (entry.1 ≠ key)).length + 1 = entries.length
  change find key entries = some value at found
  induction entries with
  | nil => cases found
  | cons entry rest ih =>
    obtain ⟨other, held⟩ := entry
    obtain ⟨least, restAscending⟩ := List.pairwise_cons.mp ascending
    by_cases same : key = other
    · subst other
      have kept : rest.filter (fun entry => decide (entry.1 ≠ key)) = rest :=
        List.filter_eq_self.mpr fun entry member => decide_eq_true fun same =>
          Std.lt_irrefl (same ▸ least entry member)
      simp only [List.filter_cons, ne_eq, not_true_eq_false, decide_false, Bool.false_eq_true,
        if_false, List.length_cons]
      rw [← kept]
      simp
    · simp only [find, same, if_false] at found
      simp only [List.filter_cons, ne_eq, Ne.symm same, not_false_eq_true, decide_true, if_true,
        List.length_cons]
      rw [ih restAscending found]

omit [LE κ] [Std.LawfulOrderLT κ] [LT κ] in
theorem size_erase_le (table : Table κ ν) (key : κ) : (table.erase key).size ≤ table.size :=
  List.length_filter_le _ _

omit [LE κ] [Std.LawfulOrderLT κ] [LT κ] in
/-- An entry that is taken away is one less at least. -/
theorem size_erase_lt {table : Table κ ν} {entry : κ × ν} (listed : entry ∈ table.entries) :
    (table.erase entry.1).size < table.size :=
  List.length_filter_lt_length_iff_exists.mpr ⟨entry, listed, by simp⟩

/-- An insertion makes one entry of those under other keys and its own. -/
theorem Ascending.size_insert [DecidableLT κ] [Std.IsLinearOrder κ] (ascending : table.Ascending)
    (key : κ) (value : ν) : (table.insert key value).size = (table.erase key).size + 1 := by
  rw [← (ascending.insert key value).size_erase (get?_insert_self table key value), erase_insert]

/-- It makes no difference to an insertion what its key held. -/
theorem Ascending.insert_erase [DecidableLT κ] [Std.IsLinearOrder κ] (ascending : table.Ascending)
    (key : κ) (value : ν) : (table.erase key).insert key value = table.insert key value := by
  obtain ⟨entries⟩ := table
  change Table.mk (place key value (entries.filter fun entry => decide (entry.1 ≠ key))) =
    ⟨place key value entries⟩
  congr 1
  induction entries with
  | nil => rfl
  | cons entry rest ih =>
    obtain ⟨other, held⟩ := entry
    obtain ⟨least, restAscending⟩ := List.pairwise_cons.mp ascending
    -- The keys after one that is no less than the new key are greater than it, so none is erased.
    have untouched (before : ∀ later ∈ rest, key < later.1) :
        rest.filter (fun entry => decide (entry.1 ≠ key)) = rest :=
      List.filter_eq_self.mpr fun later member => decide_eq_true fun same =>
        Std.lt_irrefl (same ▸ before later member)
    by_cases same : key = other
    · subst other
      rw [List.filter_cons_of_neg (by simp), untouched least]
      cases rest with
      | nil => simp [place]
      | cons next others =>
        have before : key < next.1 := least next List.mem_cons_self
        have apart : key ≠ next.1 := fun same => Std.lt_irrefl (same ▸ before)
        simp [place, before, apart]
    · rw [List.filter_cons_of_pos (by simpa using Ne.symm same)]
      by_cases before : key < other
      · rw [untouched fun later member => Std.lt_trans before (least later member)]
      · simp only [place, same, before, if_false]
        rw [ih restAscending]

/-! ### Tables made of pairs -/

omit [LE κ] [Std.LawfulOrderLT κ] in
theorem mem_keys_ofList [DecidableLT κ] (pairs : List (κ × ν)) (probe : κ) :
    probe ∈ (ofList pairs).keys ↔ probe ∈ pairs.map (·.1) := by
  suffices folds : ∀ table : Table κ ν,
      probe ∈ (pairs.foldl (fun table pair => table.insert pair.1 pair.2) table).keys ↔
        probe ∈ table.keys ∨ probe ∈ pairs.map (·.1) by
    have empty : probe ∉ (∅ : Table κ ν).keys := List.not_mem_nil
    exact (folds ∅).trans (or_iff_right empty)
  induction pairs with
  | nil => simp
  | cons pair rest ih =>
    intro table
    rw [List.foldl_cons, ih, mem_keys_insert, List.map_cons, List.mem_cons, or_comm (a := probe = _),
      or_assoc]

theorem ascending_ofList [DecidableLT κ] [Std.IsLinearOrder κ] (pairs : List (κ × ν)) :
    (ofList pairs).Ascending := by
  suffices folds : ∀ table : Table κ ν, table.Ascending →
      (pairs.foldl (fun table pair => table.insert pair.1 pair.2) table).Ascending by
    exact folds ∅ ascending_empty
  induction pairs with
  | nil => exact fun table ascending => ascending
  | cons pair rest ih => exact fun table ascending => ih _ (ascending.insert pair.1 pair.2)

omit [DecidableEq κ] in
/-- Lists in the order of their keys are equal if they have the same members. -/
theorem eq_of_ascending_by [Std.IsLinearOrder κ] {α : Type} (key : α → κ) {one other : List α}
    (ordered : one.Pairwise fun earlier later => key earlier < key later)
    (otherOrdered : other.Pairwise fun earlier later => key earlier < key later)
    (same : ∀ item, item ∈ one ↔ item ∈ other) : one = other := by
  have distinct {items : List α}
      (ordered : items.Pairwise fun earlier later => key earlier < key later) : items.Nodup := by
    refine ordered.imp ?_
    rintro one other before rfl
    exact Std.lt_irrefl before
  have shuffled : one.Perm other :=
    (List.perm_ext_iff_of_nodup (distinct ordered) (distinct otherOrdered)).mpr same
  exact shuffled.eq_of_pairwise (fun one two _ _ before after =>
    absurd (Std.lt_trans before after) Std.lt_irrefl) ordered otherOrdered

omit [DecidableEq κ] in
/-- Lists in order are equal if they have the same members. -/
theorem eq_of_ascending [Std.IsLinearOrder κ] {one other : List κ}
    (ordered : one.Pairwise (· < ·)) (otherOrdered : other.Pairwise (· < ·))
    (same : ∀ key, key ∈ one ↔ key ∈ other) : one = other :=
  eq_of_ascending_by id ordered otherOrdered same

/-- Asking a table for keys in order gives its entries, if none of its own keys is left out. -/
theorem Ascending.filterMap_get? [Std.IsLinearOrder κ] (ascending : table.Ascending)
    {keys : List κ} (ordered : keys.Pairwise (· < ·)) (covers : ∀ key ∈ table.keys, key ∈ keys) :
    keys.filterMap (fun key => (table.get? key).map (key, ·)) = table.entries := by
  refine eq_of_ascending_by Prod.fst ?_ ascending fun (key, value) => ?_
  · refine List.pairwise_filterMap.mpr (ordered.imp fun before one shown two alsoShown => ?_)
    obtain ⟨value, -, rfl⟩ := Option.map_eq_some_iff.mp shown
    obtain ⟨other, -, rfl⟩ := Option.map_eq_some_iff.mp alsoShown
    exact before
  · rw [ascending.mem_entries, List.mem_filterMap]
    constructor
    · rintro ⟨probe, -, shown⟩
      obtain ⟨held, found, same⟩ := Option.map_eq_some_iff.mp shown
      cases same
      exact found
    · intro found
      have listed : key ∈ table.keys := by
        rw [mem_keys, found]
        rfl
      exact ⟨key, covers key listed, by rw [found]; rfl⟩

end Overlay.Table
