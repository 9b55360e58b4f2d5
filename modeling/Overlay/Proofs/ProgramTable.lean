import Overlay.Proofs.Building
import Overlay.Proofs.ManagerRuns

/-! What events do to the table of programs, name by name. An entry is made by a build that succeeds
and by nothing else. It goes when its name is imported again or removed, at a clean-up, and when its
program is found dead and cannot be built again; whatever else happens, it stays as it is. -/
namespace Overlay

namespace Manager

/-- No program of the name lives. -/
def Lacks (manager : Manager) (name : String) : Prop :=
  ∀ built, manager.program? name = some built → manager.bench.isProgram built.program = false

@[simp] theorem release_programs (manager : Manager) (name : String) :
    (manager.release name).programs = manager.programs.erase name := by
  unfold release
  split
  · rfl
  · rename_i absent
    rw [Table.erase_of_absent absent]

@[simp] theorem release_registry (manager : Manager) (name : String) :
    (manager.release name).registry = manager.registry := by
  unfold release
  split
  · rfl
  · rfl

theorem release_program? (manager : Manager) (name probe : String) :
    (manager.release name).program? probe =
      if probe = name then none else manager.program? probe := by
  unfold program?
  rw [release_programs, Table.get?_erase]

section Cached
variable {σ : Type} [Store σ]

@[simp] theorem resolve_programs (manager : Manager) (cache : Cache σ) (disk : Disk) (now : Millis)
    (name : String) : (manager.resolve cache disk now name).2.1.programs = manager.programs := by
  obtain ⟨calls, answer⟩ := manager.resolve_manager cache disk now name
  rw [answer]

@[simp] theorem resolve_registry (manager : Manager) (cache : Cache σ) (disk : Disk) (now : Millis)
    (name : String) : (manager.resolve cache disk now name).2.1.registry = manager.registry := by
  obtain ⟨calls, answer⟩ := manager.resolve_manager cache disk now name
  rw [answer]

/-- The entry that a build leaves for its name: what it built, or what was there. -/
theorem build_program?_self (manager : Manager) (cache : Cache σ) (disk : Disk) (now : Millis)
    (name : String) :
    (manager.build cache disk now name).2.1.program? name =
      match (manager.build cache disk now name).1 with
      | .ok built => some built
      | .error _ => manager.program? name := by
  rw [build_eq]
  dsimp only
  split
  · simp [program?]
  · simp [program?, install]

/-- A build leaves the entries of other names alone. -/
theorem build_program?_of_ne (manager : Manager) (cache : Cache σ) (disk : Disk) (now : Millis)
    {name other : String} (different : other ≠ name) :
    (manager.build cache disk now name).2.1.program? other = manager.program? other := by
  rw [build_eq]
  dsimp only
  split
  · simp [program?]
  · simp [program?, install, Table.get?_insert_of_ne _ _ different]

/-- A build imports nothing. -/
theorem build_registry (manager : Manager) (cache : Cache σ) (disk : Disk) (now : Millis)
    (name : String) :
    (manager.build cache disk now name).2.1.registry = manager.registry := by
  rw [build_eq]
  dsimp only
  split
  · simp
  · simp [install]

theorem createProgram_registry (manager : Manager) (cache : Cache σ) (disk : Disk) (now : Millis)
    (name : String) :
    (manager.createProgram cache disk now name).2.1.registry = manager.registry := by
  rcases manager.createProgram_cases cache disk now name with ⟨built, held, lives, answer⟩ | ⟨dead, answer⟩
  · rw [answer]
  · rw [answer, build_registry]

/-- A build records the origin of the text that the name means. -/
theorem build_origin {manager : Manager} {cache : Cache σ} {disk : Disk} {now : Millis}
    {name : String} {built : BuiltProgram}
    (answer : (manager.build cache disk now name).1 = .ok built) :
    built.origin = (manager.fragmentSource disk name).2 := by
  rw [← prepared_fragmentSource]
  rw [build_eq] at answer
  dsimp only at answer
  split at answer
  · cases answer
  · cases answer
    rfl

/-- A build reports what became of the text that was resolved for it. -/
theorem build_compilation {manager : Manager} {cache : Cache σ} {disk : Disk} {now : Millis}
    {name : String} {built : BuiltProgram}
    (answer : (manager.build cache disk now name).1 = .ok built) :
    built.compilation = (manager.prepared.resolve cache disk now name).1.compilation := by
  rw [build_eq] at answer
  dsimp only at answer
  split at answer
  · cases answer
  · cases answer
    rfl

/-- Creating is building when no program of the name lives. -/
theorem createProgram_of_lacks {manager : Manager} {name : String} (cache : Cache σ) (disk : Disk)
    (now : Millis) (lacks : manager.Lacks name) :
    manager.createProgram cache disk now name =
      { manager with programs := manager.programs.erase name }.build cache disk now name := by
  rcases manager.createProgram_cases cache disk now name with ⟨built, held, lives, -⟩ | ⟨-, answer⟩
  · rw [lacks built held] at lives
    cases lives
  · exact answer

end Cached
end Manager

section Events
variable {σ : Type} [Store σ]

/-- A request for the program of a name that is answered with one. -/
inductive Grants (scene : Scene σ) : ManagerEvent σ → String → BuiltProgram → Prop where
  | created {name : String} {built : BuiltProgram}
    (answer : (scene.manager.createProgram scene.cache scene.disk scene.now name).1 = .ok built) :
    Grants scene (.create name) name built
  | reloaded {name : String} {built : BuiltProgram}
    (answer : (scene.manager.reloadProgram scene.cache scene.disk scene.now name).1 = .ok built) :
    Grants scene (.reload name) name built

/-- A request that is answered with a program that was built for it. -/
structure Produces (scene : Scene σ) (event : ManagerEvent σ) (name : String)
    (built : BuiltProgram) : Prop where
  granted : Grants scene event name built
  /-- A program that lives is answered with as it is. -/
  lacking : event = .create name → scene.manager.Lacks name

/-- A request is answered with a build, on a table of programs of which only the dead entry of the
name may have been dropped before. -/
theorem Produces.build {scene : Scene σ} {event : ManagerEvent σ} {name : String}
    {built : BuiltProgram} (produces : Produces scene event name built) :
    ∃ programs,
      ({ scene.manager with programs }.build scene.cache scene.disk scene.now name).1 = .ok built := by
  obtain ⟨granted, lacking⟩ := produces
  cases granted with
  | reloaded answer => exact ⟨scene.manager.programs, answer⟩
  | created answer =>
    rw [Manager.createProgram_of_lacks _ _ _ (lacking rfl)] at answer
    exact ⟨_, answer⟩

/-- A program records the origin of the text that its name meant when it was built. -/
theorem Produces.origin {scene : Scene σ} {event : ManagerEvent σ} {name : String}
    {built : BuiltProgram} (produces : Produces scene event name built) :
    built.origin = (scene.manager.fragmentSource scene.disk name).2 := by
  obtain ⟨programs, answer⟩ := produces.build
  have origin := Manager.build_origin answer
  exact origin

/-- What a name is registered for changes: it is imported, or its import is removed. -/
def ManagerEvent.Renews (scene : Scene σ) (name : String) : ManagerEvent σ → Prop
  | .load reference => (scene.manager.loadExternal scene.disk reference).1 = .ok name
  | .remove other => other = name ∧ (scene.manager.removeExternal other).1 = true
  | _ => False

/-- What the table has for a name after an event. -/
inductive Turns (scene : Scene σ) (event : ManagerEvent σ) (name : String) :
    Option BuiltProgram → Prop where
  | produced {built : BuiltProgram} (produces : Produces scene event name built) :
    Turns scene event name (some built)
  | released (renews : event.Renews scene name) : Turns scene event name none
  | cleared (isCleanup : event = .cleanup) : Turns scene event name none
  | dropped (dead : scene.manager.Lacks name) : Turns scene event name none
  | kept (same : ¬ event.Renews scene name) : Turns scene event name (scene.manager.program? name)

/-- A creation does nothing while the program lives, and else it is a build without the entry. -/
theorem turns_create (scene : Scene σ) (requested name : String) :
    Turns scene (.create requested) name
      ((scene.after (.create requested)).manager.program? name) := by
  change Turns scene _ name
    ((scene.manager.createProgram scene.cache scene.disk scene.now requested).2.1.program? name)
  rcases scene.manager.createProgram_cases scene.cache scene.disk scene.now requested with
    ⟨built, held, lives, answer⟩ | ⟨dead, answer⟩
  · rw [answer]
    exact .kept id
  generalize bare :
    { scene.manager with programs := scene.manager.programs.erase requested } = manager at answer
  have entries (probe : String) : manager.program? probe =
      if probe = requested then none else scene.manager.program? probe := by
    rw [← bare, Manager.program?, Table.get?_erase]
    rfl
  by_cases same : name = requested
  · subst same
    rw [answer, Manager.build_program?_self, entries, if_pos rfl]
    split
    · rename_i built success
      exact .produced ⟨.created (by rw [answer, success]), fun _ => dead⟩
    · exact .dropped dead
  · rw [answer, Manager.build_program?_of_ne _ _ _ _ same, entries, if_neg same]
    exact .kept id

theorem turns_reload (scene : Scene σ) (requested name : String) :
    Turns scene (.reload requested) name
      ((scene.after (.reload requested)).manager.program? name) := by
  change Turns scene _ name
    ((scene.manager.build scene.cache scene.disk scene.now requested).2.1.program? name)
  by_cases same : name = requested
  · subst same
    rw [Manager.build_program?_self]
    split
    · rename_i built success
      exact .produced ⟨.reloaded success, nofun⟩
    · exact .kept id
  · rw [Manager.build_program?_of_ne _ _ _ _ same]
    exact .kept id

theorem turns_load (scene : Scene σ) (reference : Reference) (name : String) :
    Turns scene (.load reference) name
      ((scene.after (.load reference)).manager.program? name) := by
  change Turns scene _ name
    ((scene.manager.loadExternal scene.disk reference).2.program? name)
  cases loaded : reference.load scene.disk with
  | error error =>
    have answer : scene.manager.loadExternal scene.disk reference = (.error error, scene.manager) := by
      rw [Manager.loadExternal, loaded]
    rw [answer]
    refine .kept ?_
    simp [ManagerEvent.Renews, answer]
  | ok shader =>
    have answer : scene.manager.loadExternal scene.disk reference = (.ok shader.name,
        { scene.manager with
          registry := scene.manager.registry.register shader }.release shader.name) := by
      rw [Manager.loadExternal, loaded]
    rw [answer, Manager.release_program?]
    split
    · rename_i same
      exact .released (by simp [ManagerEvent.Renews, answer, same])
    · rename_i different
      refine .kept ?_
      simp [ManagerEvent.Renews, answer, Ne.symm different]

theorem turns_remove (scene : Scene σ) (removed name : String) :
    Turns scene (.remove removed) name
      ((scene.after (.remove removed)).manager.program? name) := by
  change Turns scene _ name ((scene.manager.removeExternal removed).2.program? name)
  by_cases imported : scene.manager.registry.contains removed = true
  · have answer : scene.manager.removeExternal removed = (true,
        { scene.manager with
          registry := scene.manager.registry.erase removed }.release removed) := by
      rw [Manager.removeExternal, if_pos imported]
    rw [answer, Manager.release_program?]
    split
    · rename_i same
      exact .released ⟨same.symm, by rw [answer]⟩
    · rename_i different
      exact .kept fun renews => different renews.1.symm
  · have answer : scene.manager.removeExternal removed = (false, scene.manager) := by
      rw [Manager.removeExternal, if_neg imported]
    rw [answer]
    refine .kept ?_
    simp [ManagerEvent.Renews, answer]

/-- Every event turns the entry of every name in one of these ways. -/
theorem turns_after (scene : Scene σ) (event : ManagerEvent σ) (name : String) :
    Turns scene event name ((scene.after event).manager.program? name) := by
  cases event with
  | create requested => exact turns_create scene requested name
  | reload requested => exact turns_reload scene requested name
  | load reference => exact turns_load scene reference name
  | remove removed => exact turns_remove scene removed name
  | cleanup => exact .cleared rfl
  | resolve requested =>
    have untouched : (scene.after (.resolve requested)).manager.program? name =
        scene.manager.program? name := by
      change (Manager.resolve _ _ _ _ requested).2.1.programs.get? name = _
      rw [Manager.resolve_programs]
      rfl
    rw [untouched]
    exact .kept id
  | _ => exact .kept id

end Events
end Overlay
