import Overlay.Manager
import Overlay.Proofs.Reached

/-! Runs of a manager: what is asked of it, and what happens around it meanwhile. Files change, time
moves, calls fail, other managers use the same cache, and programs are deleted behind the manager's
back; all of this is an event like the manager's own operations, so a run is any sequence of them. A
run remembers every event with the scene it met, and whatever history an argument needs is read off
that. -/
namespace Overlay

/-- A manager with what it works on: its cache, the disk its references read, and the time. -/
structure Scene (σ : Type) where
  manager : Manager
  cache : Cache σ
  disk : Disk
  now : Millis

/-- What can happen to a manager and around it. -/
inductive ManagerEvent (σ : Type) where
  | create (name : String)
  | reload (name : String)
  | resolve (name : String)
  | load (reference : Reference)
  | remove (name : String)
  | cleanup
  | clearCache
  | evict
  /-- The registry is changed directly. -/
  | register (shader : ImportedShader)
  | unregister (name : String)
  /-- A program is deleted behind the manager's back. -/
  | loseProgram (handle : Gpu.Handle)
  /-- Other calls on the compiler and on the device fail from now on. -/
  | refuse (refusals : Refusals)
  /-- Another manager resolves a name with the same cache, as its builds do. -/
  | elsewhere (other : Manager) (name : String)
  /-- The cache is given up and opened anew over the store it leaves. -/
  | reopen (policy : CachePolicy)
  /-- The store of the cache is another one from now on. -/
  | disturb (store : σ)
  | files (disk : Disk)
  | clock (reading : Millis)

namespace Scene
variable {σ : Type} [Store σ]

/-- The manager and the cache after an operation that answers with both. -/
def handing {α : Type} (scene : Scene σ) (answer : α × Manager × Cache σ) : Scene σ :=
  { scene with manager := answer.2.1, cache := answer.2.2 }

/-- The scene after an event. -/
def after (scene : Scene σ) : ManagerEvent σ → Scene σ
  | .create name =>
    scene.handing (scene.manager.createProgram scene.cache scene.disk scene.now name)
  | .reload name =>
    scene.handing (scene.manager.reloadProgram scene.cache scene.disk scene.now name)
  | .resolve name => scene.handing (scene.manager.resolve scene.cache scene.disk scene.now name)
  | .load reference => { scene with manager := (scene.manager.loadExternal scene.disk reference).2 }
  | .remove name => { scene with manager := (scene.manager.removeExternal name).2 }
  | .cleanup => { scene with manager := scene.manager.cleanup }
  | .clearCache => { scene with cache := scene.cache.clear }
  | .evict => { scene with cache := (scene.cache.evict scene.now).2 }
  | .register shader =>
    { scene with manager.registry := scene.manager.registry.register shader }
  | .unregister name => { scene with manager.registry := scene.manager.registry.erase name }
  | .loseProgram handle =>
    { scene with manager.bench.gpu := scene.manager.bench.gpu.deleteProgram handle }
  | .refuse refusals => { scene with manager.bench.refusals := refusals }
  | .elsewhere other name =>
    { scene with cache := (other.resolve scene.cache scene.disk scene.now name).2.2 }
  | .reopen policy => { scene with cache := Cache.start policy scene.cache.store scene.now }
  | .disturb store => { scene with cache.store := store }
  | .files disk => { scene with disk }
  | .clock reading => { scene with now := reading }

end Scene

/-- A scene and what led to it, the latest event first, each with the scene it met. -/
structure ManagerRun (σ : Type) where
  scene : Scene σ
  past : List (Scene σ × ManagerEvent σ) := []

/-- A new manager, and a new cache over a store. -/
def ManagerRun.opened {σ : Type} [Store σ] (bench : Bench) (policy : CachePolicy) (store : σ)
    (disk : Disk) (now : Millis) : ManagerRun σ where
  scene := ⟨Manager.create bench, Cache.start policy store now, disk, now⟩

def ManagerRun.step {σ : Type} [Store σ] (run : ManagerRun σ) (event : ManagerEvent σ) :
    ManagerRun σ where
  scene := run.scene.after event
  past := (run.scene, event) :: run.past

/-- A run begins with a new manager on a device on which nothing was made yet. -/
def Begins {σ : Type} (run : ManagerRun σ) : Prop :=
  run.past = [] ∧ ∃ bench : Bench, bench.gpu = {} ∧ run.scene.manager = Manager.create bench

/-- Nothing is ruled out. -/
def Anything {σ : Type} (_ : ManagerRun σ) (_ : ManagerEvent σ) : Prop := True

section Since
variable {σ : Type} [Store σ] {permitted : ManagerRun σ → ManagerEvent σ → Prop}
  {run : ManagerRun σ} {later earlier : List (Scene σ × ManagerEvent σ)} {scene : Scene σ}
  {event : ManagerEvent σ}

/-- What holds after some moment of a run, and is kept by each event since, holds in the end. -/
theorem ManagerRun.since (holds : ManagerRun σ → Prop) {spares : Scene σ × ManagerEvent σ → Prop}
    (reached : Reached ManagerRun.step permitted Begins run)
    (split : run.past = later ++ (scene, event) :: earlier)
    (spared : ∀ moment ∈ later, spares moment)
    (first : Reached ManagerRun.step permitted Begins ⟨scene, earlier⟩ →
      holds (ManagerRun.step ⟨scene, earlier⟩ event))
    (kept : ∀ run event, Reached ManagerRun.step permitted Begins run → holds run →
      spares (run.scene, event) → holds (run.step event)) : holds run := by
  induction reached generalizing later with
  | start begins =>
    rw [begins.1] at split
    exact absurd split.symm (List.append_ne_nil_of_right_ne_nil _ (List.cons_ne_nil _ _))
  | @step run latest before allowed ih =>
    change (run.scene, latest) :: run.past = _ at split
    cases later with
    | nil =>
      cases split
      exact first before
    | cons moment later =>
      obtain ⟨rfl, rest⟩ := List.cons.inj split
      have holdsBefore := ih rest fun moment member => spared moment (List.mem_cons_of_mem _ member)
      exact kept run latest before holdsBefore (spared _ List.mem_cons_self)

/-- Every moment of a run was met by a run. -/
theorem ManagerRun.reached_before (reached : Reached ManagerRun.step permitted Begins run)
    (split : run.past = later ++ (scene, event) :: earlier) :
    Reached ManagerRun.step permitted Begins ⟨scene, earlier⟩ :=
  ManagerRun.since (fun _ => Reached ManagerRun.step permitted Begins ⟨scene, earlier⟩) reached split
    (fun _ member => member) id fun _ _ _ met _ => met

end Since

end Overlay
