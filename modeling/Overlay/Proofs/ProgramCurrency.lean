import Overlay.Proofs.ProgramTable
import Overlay.Store.Memory

/-! Programs are up to date with the imports. An imported name shadows a built-in effect, two files
can claim one name, and a build can fail and leave the old program in place; still, no program
outlives the registration it was built from. The invariant ties each entry of the table to the event
that built it: since then its name was neither imported nor removed, so what is registered for it
now is what was registered then. -/
namespace Overlay

/-- What a name means, by what is registered for it: a text, and where the text comes from. The
files count for presets alone, because the text of a shader is kept when it is imported. -/
inductive StandsFor (disk : Disk) (name : String) :
    Option ImportedShader → String → Origin → Prop where
  | shader {shader : ImportedShader} {source : String} {rest : List String}
    (body : shader.body = .direct (source :: rest)) :
    StandsFor disk name (some shader) source .external
  | preset {shader : ImportedShader} {content source : String} (body : shader.body = .preset content)
    (found : shader.entrySource disk = .ok source) : StandsFor disk name (some shader) source .preset
  | unresolved {shader : ImportedShader} {content : String} {error : LoadError}
    (body : shader.body = .preset content) (lost : shader.entrySource disk = .error error) :
    StandsFor disk name (some shader) BuiltinShader.fallbackFragment .fallback
  | builtin {effect : BuiltinShader} (known : BuiltinShader.find? name = some effect) :
    StandsFor disk name none effect.fragment .builtin
  | unknown (unknown : BuiltinShader.find? name = none) :
    StandsFor disk name none BuiltinShader.default.fragment .default

/-- Every import registered for a name has a text or is a preset. -/
def Manager.Filled (manager : Manager) (name : String) : Prop :=
  ∀ shader, manager.registry.get? name = some shader → shader.body ≠ .direct []

theorem standsFor_fragmentSource {manager : Manager} {name : String} (filled : manager.Filled name)
    (disk : Disk) :
    StandsFor disk name (manager.registry.get? name) (manager.fragmentSource disk name).1
      (manager.fragmentSource disk name).2 := by
  unfold Manager.fragmentSource
  cases registered : manager.registry.get? name with
  | none =>
    dsimp only
    split
    · exact .builtin ‹_›
    · exact .unknown ‹_›
  | some shader =>
    dsimp only
    unfold Manager.importedFragment
    split
    · exact .shader ‹_›
    · exact absurd ‹_› (filled shader registered)
    · split
      · exact .preset ‹_› ‹_›
      · exact .unresolved ‹_› ‹_›

/-- What is read from a file is a preset or a text. -/
theorem load_body_ne {disk : Disk} {reference : Reference} {shader : ImportedShader}
    (loaded : reference.load disk = .ok shader) : shader.body ≠ .direct [] := by
  unfold Reference.load at loaded
  split at loaded
  · cases loaded
  · split at loaded
    · cases loaded
    · rename_i format known
      cases text : reference.readText disk with
      | error error =>
        rw [text] at loaded
        cases loaded
      | ok content =>
        rw [text] at loaded
        cases loaded
        cases format with
        | preset => exact nofun
        | shader => exact nofun

/-- An import that fails leaves the manager as it was. -/
theorem Manager.loadExternal_failed {manager : Manager} {disk : Disk} {reference : Reference}
    {error : LoadError} (failed : (manager.loadExternal disk reference).1 = .error error) :
    (manager.loadExternal disk reference).2 = manager := by
  unfold loadExternal at failed ⊢
  split
  · rfl
  · rename_i loaded
    rw [loaded] at failed
    cases failed

section Runs
variable {σ : Type}

/-- The registry changes by imports and removals alone. -/
def OnlyImports (_ : ManagerRun σ) : ManagerEvent σ → Prop
  | .register _ | .unregister _ => False
  | _ => True

variable [Store σ]

/-- The events that import and remove change what is registered for the name they are about; what
they register has just been read. -/
theorem registry_after {run : ManagerRun σ} {event : ManagerEvent σ} (allowed : OnlyImports run event)
    (name : String) :
    (run.step event).scene.manager.registry.get? name = run.scene.manager.registry.get? name ∨
    (event.Renews run.scene name ∧ (run.step event).scene.manager.Filled name) := by
  change (run.scene.after event).manager.registry.get? name = _ ∨
    (_ ∧ (run.scene.after event).manager.Filled name)
  cases event with
  | create requested =>
    left
    change (Manager.createProgram _ _ _ _ requested).2.1.registry.get? name = _
    rw [Manager.createProgram_registry]
  | reload requested =>
    left
    change (Manager.build _ _ _ _ requested).2.1.registry.get? name = _
    rw [Manager.build_registry]
  | resolve requested =>
    left
    change (Manager.resolve _ _ _ _ requested).2.1.registry.get? name = _
    rw [Manager.resolve_registry]
  | load reference =>
    simp only [ManagerEvent.Renews, Scene.after, Manager.loadExternal, Manager.Filled]
    cases loaded : reference.load run.scene.disk with
    | error error => exact .inl rfl
    | ok shader =>
      dsimp only
      rw [Manager.release_registry, Registry.register, Table.get?_insert]
      split
      · rename_i same
        refine .inr ⟨by rw [same], ?_⟩
        rintro _ ⟨⟩
        exact load_body_ne loaded
      · exact .inl rfl
  | remove removed =>
    simp only [ManagerEvent.Renews, Scene.after, Manager.removeExternal, Manager.Filled]
    split
    · dsimp only
      rw [Manager.release_registry, Table.get?_erase]
      split
      · rename_i same
        refine .inr ⟨⟨same.symm, rfl⟩, ?_⟩
        intro shader registered
        cases registered
      · exact .inl rfl
    · exact .inl rfl
  | register shader => exact allowed.elim
  | unregister removed => exact allowed.elim
  | _ => exact .inl rfl

/-- A program was built for its name, and the registration of the name is the same ever since. -/
def BuiltSince (run : ManagerRun σ) (name : String) (built : BuiltProgram) : Prop :=
  ∃ later scene event earlier, run.past = later ++ (scene, event) :: earlier ∧
    Produces scene event name built ∧
    (∀ moment ∈ later, ¬ moment.2.Renews moment.1 name) ∧
    scene.manager.registry.get? name = run.scene.manager.registry.get? name

/-- Every import is filled, and every program was built from what is registered now. -/
structure Current (run : ManagerRun σ) : Prop where
  filled (name : String) : run.scene.manager.Filled name
  since {name : String} {built : BuiltProgram} :
    run.scene.manager.program? name = some built → BuiltSince run name built

/-- No event that builds a program imports or removes anything. -/
theorem Produces.not_renews {scene : Scene σ} {event : ManagerEvent σ} {name : String}
    {built : BuiltProgram} (produces : Produces scene event name built) :
    ¬ event.Renews scene name := by
  cases produces.granted with
  | created answer => exact id
  | reloaded answer => exact id

theorem current_step {run : ManagerRun σ} {event : ManagerEvent σ} (current : Current run)
    (allowed : OnlyImports run event) : Current (run.step event) where
  filled := by
    intro name
    rcases registry_after allowed name with same | ⟨-, filled⟩
    · intro shader registered
      exact current.filled name shader (same.symm.trans registered)
    · exact filled
  since := by
    intro name built installed
    have turns : Turns run.scene event name ((run.step event).scene.manager.program? name) :=
      turns_after run.scene event name
    rw [installed] at turns
    generalize entry : some built = turned at turns
    cases turns with
    | produced produces =>
      cases entry
      have same := (registry_after allowed name).resolve_right fun renewed =>
        produces.not_renews renewed.1
      exact ⟨[], run.scene, event, run.past, rfl, produces, List.forall_mem_nil _, same.symm⟩
    | released renews => cases entry
    | cleared isCleanup => cases entry
    | dropped dead => cases entry
    | kept spared =>
      have same := (registry_after allowed name).resolve_right fun renewed => spared renewed.1
      obtain ⟨later, scene, builder, earlier, split, produces, untouched, registered⟩ :=
        current.since entry.symm
      refine ⟨(run.scene, event) :: later, scene, builder, earlier, ?_, produces, ?_, ?_⟩
      · exact congrArg ((run.scene, event) :: ·) split
      · intro moment member
        rcases List.mem_cons.mp member with rfl | member
        · exact spared
        · exact untouched moment member
      · exact registered.trans same.symm

theorem current_of_reached {run : ManagerRun σ}
    (reached : Reached ManagerRun.step OnlyImports Begins run) : Current run := by
  apply reached.invariant
  · rintro run ⟨-, bench, -, created⟩
    obtain ⟨programs, registry, -⟩ := Manager.startCompiler_kept { bench }
    refine ⟨fun name shader registered => ?_, fun {name built} installed => ?_⟩
    · rw [created, Manager.create, registry] at registered
      cases registered
    · rw [created, Manager.program?, Manager.create, programs] at installed
      cases installed
  · intro run event current allowed
    exact current_step current allowed

end Runs

/-- While the registry changes by imports and removals alone, every installed program was built
after its name was last imported and last removed. So its origin, and the text it was built from,
are those of what is registered for the name now, or of the built-in effects when nothing is; a
preset counts with the files as they were when the program was built. An import that fails changes
nothing. -/
theorem programs_are_current {σ : Type} [Store σ] {run : ManagerRun σ}
    (reached : Reached ManagerRun.step OnlyImports Begins run) :
    (∀ name built, run.scene.manager.program? name = some built →
      ∃ later scene event earlier, run.past = later ++ (scene, event) :: earlier ∧
        Produces scene event name built ∧
        (∀ moment ∈ later, ¬ moment.2.Renews moment.1 name) ∧
        StandsFor scene.disk name (run.scene.manager.registry.get? name)
          (scene.manager.fragmentSource scene.disk name).1 built.origin) ∧
    ∀ reference error, (run.scene.manager.loadExternal run.scene.disk reference).1 = .error error →
      run.scene.after (.load reference) = run.scene := by
  have current := current_of_reached reached
  constructor
  · intro name built installed
    obtain ⟨later, scene, event, earlier, split, produces, untouched, same⟩ :=
      current.since installed
    refine ⟨later, scene, event, earlier, split, produces, untouched, ?_⟩
    have filled : scene.manager.Filled name := by
      unfold Manager.Filled
      rw [same]
      exact current.filled name
    rw [← same, produces.origin]
    exact standsFor_fragmentSource filled scene.disk
  · intro reference error failed
    have same := Manager.loadExternal_failed failed
    exact congrArg (fun manager => { run.scene with manager }) same

/-- A file takes the name of a built-in effect and is removed, and another file takes the name again:
the program that is built then stands for the text of the second file. -/
theorem programs_are_current_after_another_import :
    ∃ run : ManagerRun MemoryStore, Reached ManagerRun.step OnlyImports Begins run ∧
      run.scene.manager.program? "crt" = some ⟨3, .external, .compiled⟩ ∧
      (∃ later scene event earlier, run.past = later ++ (scene, event) :: earlier ∧
        Produces scene event "crt" ⟨3, .external, .compiled⟩ ∧
        (∀ moment ∈ later, ¬ moment.2.Renews moment.1 "crt") ∧
        StandsFor scene.disk "crt" (run.scene.manager.registry.get? "crt")
          (scene.manager.fragmentSource scene.disk "crt").1 .external) ∧
      run.scene.after (.load (.inMemory {} "crt.slang")) = run.scene := by
  let file (text : String) : Reference :=
    .inMemory (MemoryTree.ofList [("crt.slang", octets text)]) "crt.slang"
  have begins : Reached ManagerRun.step OnlyImports Begins
      (ManagerRun.opened {} {} ({} : MemoryStore) {} 0) := .start ⟨rfl, {}, rfl, rfl⟩
  have imported := begins.step (ManagerEvent.load (file "main")) trivial
  have removed := imported.step (ManagerEvent.remove "crt") trivial
  have replaced := removed.step (ManagerEvent.load (file "main 2")) trivial
  have created := replaced.step (ManagerEvent.create "crt") trivial
  have current := programs_are_current created
  refine ⟨_, created, ?installed, current.1 "crt" _ ?installed,
    current.2 _ (.unreadable "memory:/crt.slang" (.noFile "crt.slang")) ?missing⟩
  · decide +kernel
  · decide +kernel

end Overlay
