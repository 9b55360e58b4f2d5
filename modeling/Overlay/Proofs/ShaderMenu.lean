import Overlay.Proofs.ProgramTable
import Overlay.Store.Memory

/-! The menu lists what the program knows by name. It is put together from the names that ship and
those that were imported, without looking at what a name means; what a name means is looked up name
by name, an import before an effect that ships. The two agree: a name is listed, once, if it means
something of its own, and every other name means the default effect. The listing of the registry is in
order because every event keeps it so. -/
namespace Overlay

theorem BuiltinShader.isBuiltin_iff (name : String) : isBuiltin name = true ↔ name ∈ names := by
  simp [isBuiltin, find?, names]

namespace Manager
variable {manager : Manager} {name : String}

/-! ### Where the text of a name comes from -/

theorem origin_of_unregistered (absent : manager.registry.get? name = none) (disk : Disk) :
    (manager.fragmentSource disk name).2 =
      if BuiltinShader.isBuiltin name then .builtin else .default := by
  unfold fragmentSource BuiltinShader.isBuiltin
  rw [absent]
  cases BuiltinShader.find? name with
  | none => rfl
  | some shader => rfl

theorem origin_of_registered {shader : ImportedShader}
    (registered : manager.registry.get? name = some shader) (disk : Disk) :
    (manager.fragmentSource disk name).2 ≠ .builtin ∧
      (manager.fragmentSource disk name).2 ≠ .default := by
  unfold fragmentSource
  rw [registered]
  dsimp only
  unfold importedFragment
  split
  · simp
  · simp
  · split
    · simp
    · simp

/-- A name has an origin of its own if it was imported or ships. -/
theorem origin_ne_default_iff (disk : Disk) :
    (manager.fragmentSource disk name).2 ≠ .default ↔
      manager.registry.contains name = true ∨ BuiltinShader.isBuiltin name = true := by
  unfold Table.contains
  cases registered : manager.registry.get? name with
  | none => simp [origin_of_unregistered registered]
  | some shader => simp [origin_of_registered registered]

/-! ### The listing -/

theorem mem_availableShaders (manager : Manager) (name : String) :
    name ∈ manager.availableShaders ↔
      manager.registry.contains name = true ∨ BuiltinShader.isBuiltin name = true := by
  rw [availableShaders, List.mem_append, List.mem_filter, Table.mem_keys, ← Table.contains,
    ← BuiltinShader.isBuiltin_iff]
  cases BuiltinShader.isBuiltin name <;> simp

end Manager

/-! ### The registry stays in order -/

section Runs
variable {σ : Type} [Store σ]

theorem ascending_loadExternal {manager : Manager} (ascending : manager.registry.Ascending)
    (disk : Disk) (reference : Reference) :
    (manager.loadExternal disk reference).2.registry.Ascending := by
  unfold Manager.loadExternal
  split
  · exact ascending
  · rw [Manager.release_registry]
    exact ascending.insert _ _

theorem ascending_removeExternal {manager : Manager} (ascending : manager.registry.Ascending)
    (name : String) : (manager.removeExternal name).2.registry.Ascending := by
  unfold Manager.removeExternal
  split
  · rw [Manager.release_registry]
    exact ascending.erase name
  · exact ascending

/-- Every event leaves the imports in the order of their names. -/
theorem ascending_after {scene : Scene σ} (ascending : scene.manager.registry.Ascending)
    (event : ManagerEvent σ) : (scene.after event).manager.registry.Ascending := by
  cases event with
  | create name =>
    change (Manager.createProgram _ _ _ _ name).2.1.registry.Ascending
    rwa [Manager.createProgram_registry]
  | reload name =>
    change (Manager.build _ _ _ _ name).2.1.registry.Ascending
    rwa [Manager.build_registry]
  | resolve name =>
    change (Manager.resolve _ _ _ _ name).2.1.registry.Ascending
    rwa [Manager.resolve_registry]
  | load reference => exact ascending_loadExternal ascending _ reference
  | remove name => exact ascending_removeExternal ascending name
  | register shader => exact ascending.insert _ _
  | unregister name => exact ascending.erase name
  | _ => exact ascending

theorem ascending_of_reached {run : ManagerRun σ}
    (reached : Reached ManagerRun.step Anything Begins run) :
    run.scene.manager.registry.Ascending := by
  apply reached.invariant
  · rintro run ⟨-, bench, -, created⟩
    obtain ⟨-, registry, -⟩ := Manager.startCompiler_kept { bench }
    rw [created, Manager.create, registry]
    exact Table.ascending_empty
  · intro run event ascending _
    exact ascending_after ascending event

/-- The origin that resolving a name reports in a scene. -/
def Scene.origin (scene : Scene σ) (name : String) : Origin :=
  (scene.manager.resolve scene.cache scene.disk scene.now name).1.origin

/-- Neither the cache nor the compiler has a part in the origin. -/
theorem Scene.origin_eq (scene : Scene σ) (name : String) :
    scene.origin name = (scene.manager.fragmentSource scene.disk name).2 := by
  rw [Scene.origin, Manager.resolve_eq]

/-- The menu of a scene, and what its names resolve to. -/
structure MenuMatches (scene : Scene σ) : Prop where
  once : scene.manager.availableShaders.Nodup
  arranged : ∃ imported, scene.manager.availableShaders = BuiltinShader.names ++ imported ∧
    imported.Pairwise (· < ·) ∧
    ∀ name, name ∈ imported ↔
      scene.manager.registry.contains name = true ∧ name ∉ BuiltinShader.names
  listed (name : String) : name ∈ scene.manager.availableShaders ↔ scene.origin name ≠ .default
  builtin (name : String) :
    scene.origin name = .builtin → scene.manager.registry.contains name = false
  registered (name : String) : scene.manager.registry.contains name = true →
    scene.origin name ≠ .builtin ∧ scene.origin name ≠ .default

theorem menuMatches_of_ascending {scene : Scene σ}
    (ascending : scene.manager.registry.Ascending) : MenuMatches scene := by
  have builtinOnce : BuiltinShader.names.Nodup := by decide
  have inOrder : (scene.manager.registry.keys.filter
      fun name => !BuiltinShader.isBuiltin name).Pairwise (· < ·) := ascending.keys.filter _
  have imported (name : String) :
      name ∈ scene.manager.registry.keys.filter (fun name => !BuiltinShader.isBuiltin name) ↔
        scene.manager.registry.contains name = true ∧ name ∉ BuiltinShader.names := by
    rw [List.mem_filter, Table.mem_keys, ← Table.contains, ← BuiltinShader.isBuiltin_iff,
      Bool.not_eq_true', Bool.not_eq_true]
  have origins (name : String) (registered : scene.manager.registry.contains name = true) :
      scene.origin name ≠ .builtin ∧ scene.origin name ≠ .default := by
    obtain ⟨shader, found⟩ := Option.isSome_iff_exists.mp registered
    rw [Scene.origin_eq]
    exact Manager.origin_of_registered found scene.disk
  refine ⟨?_, ⟨_, rfl, inOrder, imported⟩, ?_, ?_, origins⟩
  · refine List.nodup_append.mpr ⟨builtinOnce, inOrder.imp Std.ne_of_lt, ?_⟩
    rintro name ships other listed rfl
    exact ((imported name).mp listed).2 ships
  · intro name
    rw [Manager.mem_availableShaders, Scene.origin_eq, Manager.origin_ne_default_iff]
  · intro name ships
    rw [← Bool.not_eq_true]
    exact fun registered => (origins name registered).1 ships

/-- Whatever happened, direct changes of the registry included: the menu lists no name twice, the
effects that ship in their order and then the other imports by name; it lists the names that mean
something else than the default effect; and an import hides the effect of its name. -/
theorem menu_matches_meanings {run : ManagerRun σ}
    (reached : Reached ManagerRun.step Anything Begins run) : MenuMatches run.scene :=
  menuMatches_of_ascending (ascending_of_reached reached)

end Runs

/-- Three imports, one under the name of an effect that ships and one a preset without passes, and one
name that is struck again. -/
theorem menu_matches_meanings_with_hidden_effect :
    ∃ run : ManagerRun MemoryStore, Reached ManagerRun.step Anything Begins run ∧
      run.scene.manager.availableShaders = ["none", "crt", "scanlines", "lcd", "aa", "zz"] ∧
      MenuMatches run.scene ∧ run.scene.origin "crt" = .external ∧
      run.scene.origin "aa" = .fallback ∧ run.scene.origin "lcd" = .builtin ∧
      run.scene.origin "gone" = .default := by
  have begins : Reached ManagerRun.step Anything Begins
      (ManagerRun.opened {} {} ({} : MemoryStore) {} 0) := .start ⟨rfl, {}, rfl, rfl⟩
  have first := begins.step (.register ⟨"zz", .inMemory {} "zz", .direct ["main"]⟩) trivial
  have second := first.step (.register ⟨"gone", .inMemory {} "gone", .direct ["main"]⟩) trivial
  have third := second.step (.register ⟨"crt", .inMemory {} "crt", .direct ["main"]⟩) trivial
  have fourth := third.step (.register ⟨"aa", .inMemory {} "aa", .preset ""⟩) trivial
  have struck := fourth.step (.unregister "gone") trivial
  have matching := menu_matches_meanings struck
  -- The origin is read off before the text of the name is looked up, whose digest is slow to compute.
  refine ⟨_, struck, by decide +kernel, matching, ?_, ?_, ?_, ?_⟩
  all_goals
    rw [Scene.origin_eq]
    decide +kernel

end Overlay
