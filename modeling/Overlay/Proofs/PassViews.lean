import Mathlib.Data.List.Destutter
import Overlay.Proofs.PresetGrammar

/-! What the passes of a preset show of its tables. The tables are sparse and need not agree about
which passes there are, so the passes are put together from all four: each index that any of them
has, once and in order, with what each of them has under it. Read back from the passes, a table is
what it was, entry by entry. The argument is about order: every setting keeps the tables in order,
and lists in order are the same if their members are. -/
namespace Overlay

namespace ScaleType

/-- A text that names a way to scale: the name stands alone between blanks, in letters of either
case. -/
structure Names (text : String) (type : ScaleType) : Prop where
  written : ∃ before word after, text.toList = before ++ word ++ after ∧
    (∀ c ∈ before, Text.isBlank c = true) ∧ (∀ c ∈ after, Text.isBlank c = true) ∧
    word.map Char.toLower = type.name.toList

theorem word_name (type : ScaleType) : Text.Word type.name.toList := by
  have visible : type.name.toList.all (fun c => !Text.isBlank c) = true := by
    cases type <;> rfl
  refine ⟨?_, fun c member => ?_⟩
  · cases type <;> exact List.cons_ne_nil _ _
  · simpa using List.all_eq_true.mp visible c member

/-- The reader compares the names with what is left of a text, made small, without the blanks at its
ends. -/
theorem ofText?_eq_some_iff_trim {text : String} {type : ScaleType} :
    ofText? text = some type ↔ Text.lower (Text.trim text.toList) = type.name.toList := by
  have spelled : Text.lower (Text.trim text.toList) = type.name.toList ↔
      String.ofList (Text.lower (Text.trim text.toList)) = type.name := by
    rw [← String.toList_inj, String.toList_ofList]
  rw [spelled, ofText?]
  generalize String.ofList (Text.lower (Text.trim text.toList)) = word
  constructor
  · intro read
    split at read
    · cases read
      assumption
    split at read
    · cases read
      assumption
    split at read
    · cases read
      assumption
    · cases read
  · rintro rfl
    cases type <;> decide

theorem ofText?_eq_some_iff {text : String} {type : ScaleType} :
    ofText? text = some type ↔ Names text type := by
  rw [ofText?_eq_some_iff_trim]
  constructor
  · intro read
    obtain ⟨before, after, shape, first, last⟩ := Text.trim_append_blanks text.toList
    exact ⟨before, _, after, shape, first, last, read⟩
  · rintro ⟨before, word, after, shape, first, last, small⟩
    rw [shape, Text.trim_append first last, ← Text.trim_lower, Text.lower, small,
      (word_name type).trim_eq]

end ScaleType

namespace Preset
variable {α : Type}

/-! ### The tables are in order -/

theorem Column.ascending_apply (column : Column α) {preset : Preset} (setting : Setting)
    (ascending : (column.table preset).Ascending) :
    (column.table (apply preset setting)).Ascending := by
  rw [column.applies]
  split
  · exact ascending.insert _ _
  · exact ascending

theorem Column.ascending_parse (column : Column α) (content : String) :
    (column.table (parse content)).Ascending := by
  suffices folds : ∀ (settings : List Setting) (preset : Preset),
      (column.table preset).Ascending → (column.table (settings.foldl apply preset)).Ascending by
    refine folds _ {} ?_
    rw [column.begins]
    exact Table.ascending_empty
  intro settings
  induction settings with
  | nil => exact fun _ ascending => ascending
  | cons setting rest ih =>
    exact fun preset ascending => ih _ (column.ascending_apply setting ascending)

/-! ### The indices of the passes -/

/-- The indices that the tables mention, table by table. -/
def mentions (preset : Preset) : List Nat :=
  preset.shaderPaths.keys ++ preset.filterLinear.keys ++ preset.scaleTypes.keys ++
    preset.scales.keys

theorem mem_mentions {preset : Preset} {index : Nat} : index ∈ preset.mentions ↔
    index ∈ preset.shaderPaths.keys ∨ index ∈ preset.filterLinear.keys ∨
      index ∈ preset.scaleTypes.keys ∨ index ∈ preset.scales.keys := by
  simp only [mentions, List.mem_append, or_assoc]

theorem ascending_indices (preset : Preset) : preset.indices.Pairwise (· < ·) :=
  (Table.ascending_ofList _).keys

theorem mem_indices (preset : Preset) (index : Nat) :
    index ∈ preset.indices ↔ index ∈ preset.mentions := by
  rw [indices, Table.mem_keys_ofList, List.map_map]
  exact iff_of_eq (congrArg (index ∈ ·) (List.map_id _))

/-- The indices are what the four listings come to when they are sorted together and an index that
repeats the one before it is left out. -/
theorem indices_eq_sorted (preset : Preset) :
    preset.indices = preset.mentions.mergeSort.destutter (· ≠ ·) := by
  have sorted : preset.mentions.mergeSort.Pairwise (· ≤ ·) :=
    (List.pairwise_mergeSort (by simpa using fun _ _ _ => Nat.le_trans)
      (by simpa using Nat.le_total) preset.mentions).imp of_decide_eq_true
  rw [sorted.destutter_eq_dedup]
  refine Table.eq_of_ascending preset.ascending_indices ?_ fun index => ?_
  · have distinct := List.nodup_dedup preset.mentions.mergeSort
    have ordered := sorted.sublist (List.dedup_sublist _)
    exact (ordered.and distinct).imp fun both => Nat.lt_of_le_of_ne both.1 both.2
  · rw [mem_indices, List.mem_dedup, List.mem_mergeSort]

/-! ### What the passes show -/

theorem index_passes (preset : Preset) : preset.passes.map Pass.index = preset.indices := by
  rw [passes, List.map_map]
  exact List.map_id _

/-- One field of the passes shows a table: each pass what the table has under its index, and the
passes together all that the table has. -/
structure Attributes (passes : List Pass) (field : Pass → Option α) (table : Table Nat α) :
    Prop where
  each {pass : Pass} : pass ∈ passes → field pass = table.get? pass.index
  whole : passes.filterMap (fun pass => (field pass).map (pass.index, ·)) = table.entries

theorem attributes_passes {preset : Preset} {field : Pass → Option α} {table : Table Nat α}
    (ascending : table.Ascending) (mentioned : ∀ index ∈ table.keys, index ∈ preset.mentions)
    (reads : ∀ index, field (preset.pass index) = table.get? index) :
    Attributes preset.passes field table := by
  refine ⟨fun {pass} listed => ?_, ?_⟩
  · obtain ⟨index, -, rfl⟩ := List.mem_map.mp listed
    exact reads index
  · have covers : ∀ index ∈ table.keys, index ∈ preset.indices := by
      intro index held
      exact (preset.mem_indices index).mpr (mentioned index held)
    rw [passes, List.filterMap_map, ← ascending.filterMap_get? preset.ascending_indices covers]
    exact List.filterMap_congr fun index _ => by rw [Function.comp_apply, reads]; rfl

theorem scaleType_pass {preset : Preset} {index : Nat} {type : ScaleType} :
    (preset.pass index).scaleType = some type ↔
      ∃ text, preset.scaleTypes.get? index = some text ∧ ScaleType.Names text type := by
  simp only [pass, Option.bind_eq_some_iff, ScaleType.ofText?_eq_some_iff]

/-- Passes that show a preset whole. -/
structure ShownBy (preset : Preset) (passes : List Pass) : Prop where
  ascending : (passes.map Pass.index).Pairwise (· < ·)
  listed (index : Nat) : index ∈ passes.map Pass.index ↔
    index ∈ preset.shaderPaths.keys ∨ index ∈ preset.filterLinear.keys ∨
      index ∈ preset.scaleTypes.keys ∨ index ∈ preset.scales.keys
  gathered : passes.map Pass.index = preset.mentions.mergeSort.destutter (· ≠ ·)
  paths : Attributes passes Pass.path preset.shaderPaths
  filters : Attributes passes Pass.filterLinear preset.filterLinear
  scales : Attributes passes Pass.scale preset.scales
  /-- A text that names no way to scale is shown like none. -/
  scaleType {pass : Pass} (type : ScaleType) : pass ∈ passes →
    (pass.scaleType = some type ↔
      ∃ text, preset.scaleTypes.get? pass.index = some text ∧ ScaleType.Names text type)
  scaleTypes (index : Nat) (type : ScaleType) :
    (∃ pass ∈ passes, pass.index = index ∧ pass.scaleType = some type) ↔
      ∃ text, (index, text) ∈ preset.scaleTypes.entries ∧ ScaleType.Names text type

/-- The passes of a preset are in order, there is one for each index that any of the four tables
has, and each shows what the tables have under its index, absent where they have nothing. The tables
of paths, filters and scales can be read back from the passes entry by entry; of the ways to scale,
those that are named. -/
theorem passes_cover_tables (content : String) :
    (parse content).ShownBy (parse content).passes := by
  have paths := Column.paths.ascending_parse content
  have filters := Column.filters.ascending_parse content
  have types : (parse content).scaleTypes.Ascending := Column.scaleTypes.ascending_parse content
  have scales := Column.scales.ascending_parse content
  generalize parse content = preset at *
  refine ⟨?ascending, ?listed, ?gathered, ?paths, ?filters, ?scales, ?scaleType, ?scaleTypes⟩
  case ascending =>
    rw [index_passes]
    exact preset.ascending_indices
  case listed =>
    intro index
    rw [index_passes, mem_indices, mem_mentions]
  case gathered =>
    rw [index_passes]
    exact preset.indices_eq_sorted
  case paths =>
    exact attributes_passes paths (fun index held => mem_mentions.mpr (.inl held)) fun _ => rfl
  case filters =>
    exact attributes_passes filters (fun index held => mem_mentions.mpr (.inr (.inl held)))
      fun _ => rfl
  case scales =>
    exact attributes_passes scales
      (fun index held => mem_mentions.mpr (.inr (.inr (.inr held)))) fun _ => rfl
  case scaleType =>
    intro pass type listed
    obtain ⟨index, -, rfl⟩ := List.mem_map.mp listed
    exact scaleType_pass
  case scaleTypes =>
    intro index type
    simp only [types.mem_entries]
    constructor
    · rintro ⟨_, listed, rfl, shown⟩
      obtain ⟨index, -, rfl⟩ := List.mem_map.mp listed
      exact scaleType_pass.mp shown
    · rintro ⟨text, held, names⟩
      have listed : index ∈ preset.indices := by
        rw [mem_indices, mem_mentions, Table.mem_keys preset.scaleTypes, held]
        exact .inr (.inr (.inl rfl))
      exact ⟨_, List.mem_map_of_mem listed, rfl, scaleType_pass.mpr ⟨text, held, names⟩⟩

example :
    (parse "shader7 = c\nscale_type7 = View\nfilter_linear4 = TRUE\nscale_type2 = Source ").passes =
      [⟨2, none, none, some .source, none⟩, ⟨4, none, some true, none, none⟩,
        ⟨7, some "c", none, none, none⟩] := by
  decide +kernel

end Preset
end Overlay
