import Overlay.Proofs.Building
import Overlay.Proofs.ManagerRuns

/-! The account of a manager's programs: its table against the live objects of the device and
against the programs that were taken from it. The account balances when a manager is created, and
every event of a run keeps it balanced. All handles that were ever in use are at most the last one
issued; that is why a new program is never one of the old. -/
namespace Overlay

namespace Gpu

/-- No program of the device waits to be linked. -/
def AllLinked (gpu : Gpu) : Prop :=
  ∀ handle program, gpu.programs.get? handle = some program → program.linked = true

theorem AllLinked.isProgram_iff {gpu : Gpu} (linked : gpu.AllLinked) (handle : Handle) :
    gpu.isProgram handle = true ↔ handle ∈ gpu.programs.keys := by
  rw [Table.mem_keys]
  unfold isProgram
  cases found : gpu.programs.get? handle with
  | none => simp
  | some program => simp [linked handle program found]

theorem AllLinked.deleteProgram {gpu : Gpu} (linked : gpu.AllLinked) (handle : Handle) :
    (gpu.deleteProgram handle).AllLinked := by
  intro other program found
  exact linked other program (Table.get?_of_get?_erase found).2

theorem AllLinked.gaining {gpu : Gpu} (linked : gpu.AllLinked) (program : Handle) :
    (gpu.gaining program).AllLinked := by
  intro handle other found
  unfold Gpu.gaining at found
  rw [Table.get?_insert] at found
  split at found
  · cases found
    rfl
  · exact linked handle other found

/-- Deleting a program unless it is gone is deleting it, when all of them are linked. -/
theorem AllLinked.deleteLive_gpu {bench : Bench} (linked : bench.gpu.AllLinked) (handle : Handle) :
    (Manager.deleteLive bench handle).gpu = bench.gpu.deleteProgram handle := by
  unfold Manager.deleteLive
  split
  · rfl
  · rename_i dead
    rw [Bench.isProgram, linked.isProgram_iff, Table.mem_keys] at dead
    unfold Gpu.deleteProgram
    rw [Table.erase_of_absent (Option.not_isSome_iff_eq_none.mp dead)]

end Gpu

/-- The programs of a device against a table that names its owners. -/
structure Accounted (owned : Table String BuiltProgram) (gpu : Gpu) (lost : List Gpu.Handle) :
    Prop where
  stages : gpu.stages = ∅
  linked : gpu.AllLinked
  live {handle : Gpu.Handle} : handle ∈ gpu.programs.keys ↔
    (∃ name built, owned.get? name = some built ∧ built.program = handle) ∧ handle ∉ lost
  apart {first second : String} {one other : BuiltProgram} :
    owned.get? first = some one → owned.get? second = some other →
    one.program = other.program → first = second
  issued {name : String} {built : BuiltProgram} :
    owned.get? name = some built → built.program ≤ gpu.issued
  past {handle : Gpu.Handle} : handle ∈ lost → handle ≤ gpu.issued

namespace Accounted
variable {owned : Table String BuiltProgram} {gpu : Gpu} {lost : List Gpu.Handle}

theorem fresh (accounted : Accounted owned gpu lost) : gpu.Fresh where
  stages := by
    intro handle _
    rw [accounted.stages]
    rfl
  programs := by
    intro handle later
    cases found : gpu.programs.get? handle with
    | none => rfl
    | some program =>
      have member : handle ∈ gpu.programs.keys := by
        rw [Table.mem_keys, found]
        rfl
      obtain ⟨⟨name, built, held, rfl⟩, _⟩ := accounted.live.mp member
      exact absurd (accounted.issued held) (Nat.not_le_of_lt later)

/-- Handles that are spent without a program change nothing. -/
theorem spend (accounted : Accounted owned gpu lost) {issued : Nat} (spent : gpu.issued ≤ issued) :
    Accounted owned { gpu with issued } lost where
  stages := accounted.stages
  linked := accounted.linked
  live := accounted.live
  apart := accounted.apart
  issued held := Nat.le_trans (accounted.issued held) spent
  past gone := Nat.le_trans (accounted.past gone) spent

/-- The entry of a name goes when its program is gone. -/
theorem drop (accounted : Accounted owned gpu lost) {name : String}
    (dead : ∀ built, owned.get? name = some built → gpu.isProgram built.program = false) :
    Accounted (owned.erase name) gpu lost where
  stages := accounted.stages
  linked := accounted.linked
  live := by
    intro handle
    rw [accounted.live]
    constructor
    · rintro ⟨⟨other, built, held, rfl⟩, kept⟩
      refine ⟨⟨other, built, ?_, rfl⟩, kept⟩
      have lives := (accounted.linked.isProgram_iff built.program).mpr
        (accounted.live.mpr ⟨⟨other, built, held, rfl⟩, kept⟩)
      rw [Table.get?_erase_of_ne owned, held]
      rintro rfl
      rw [dead built held] at lives
      cases lives
    · rintro ⟨⟨other, built, held, same⟩, kept⟩
      exact ⟨⟨other, built, (Table.get?_of_get?_erase held).2, same⟩, kept⟩
  apart := by
    intro first second one other holds holdsToo
    exact accounted.apart (Table.get?_of_get?_erase holds).2 (Table.get?_of_get?_erase holdsToo).2
  issued := by
    intro other built held
    exact accounted.issued (Table.get?_of_get?_erase held).2
  past := accounted.past

/-- A name gives up its program, which is deleted. -/
theorem release (accounted : Accounted owned gpu lost) {name : String} {built : BuiltProgram}
    (held : owned.get? name = some built) :
    Accounted (owned.erase name) (gpu.deleteProgram built.program) lost where
  stages := accounted.stages
  linked := accounted.linked.deleteProgram _
  live := by
    intro handle
    unfold Gpu.deleteProgram
    rw [Table.mem_keys_erase, accounted.live]
    constructor
    · rintro ⟨different, ⟨other, another, holds, rfl⟩, kept⟩
      refine ⟨⟨other, another, ?_, rfl⟩, kept⟩
      rw [Table.get?_erase_of_ne owned, holds]
      rintro rfl
      rw [held] at holds
      injection holds with same
      exact different (congrArg _ same.symm)
    · rintro ⟨⟨other, another, holds, rfl⟩, kept⟩
      obtain ⟨different, holds⟩ := Table.get?_of_get?_erase holds
      refine ⟨?_, ⟨other, another, holds, rfl⟩, kept⟩
      intro same
      exact different (accounted.apart holds held same)
  apart := by
    intro first second one other holds holdsToo
    exact accounted.apart (Table.get?_of_get?_erase holds).2 (Table.get?_of_get?_erase holdsToo).2
  issued := by
    intro other another holds
    exact accounted.issued (Table.get?_of_get?_erase holds).2
  past := accounted.past

/-- A program is deleted behind the back of its owner. -/
theorem lose (accounted : Accounted owned gpu lost) (handle : Gpu.Handle) :
    Accounted owned (gpu.deleteProgram handle)
      (if handle ∈ gpu.programs.keys then handle :: lost else lost) where
  stages := accounted.stages
  linked := accounted.linked.deleteProgram _
  live := by
    intro other
    unfold Gpu.deleteProgram
    rw [Table.mem_keys_erase]
    by_cases lives : handle ∈ gpu.programs.keys
    · rw [if_pos lives, accounted.live, List.mem_cons, not_or]
      constructor
      · rintro ⟨different, owner, kept⟩
        exact ⟨owner, different, kept⟩
      · rintro ⟨owner, different, kept⟩
        exact ⟨different, owner, kept⟩
    · rw [if_neg lives, ← accounted.live]
      constructor
      · exact And.right
      · intro livesToo
        refine ⟨?_, livesToo⟩
        rintro rfl
        exact lives livesToo
  apart := accounted.apart
  issued := accounted.issued
  past := by
    intro other gone
    split at gone
    · rename_i lives
      rcases List.mem_cons.mp gone with rfl | before
      · obtain ⟨⟨name, built, held, rfl⟩, _⟩ := accounted.live.mp lives
        exact accounted.issued held
      · exact accounted.past before
    · exact accounted.past gone

/-- A name without a program gets a new one. -/
theorem add (accounted : Accounted owned gpu lost) {name : String} {built : BuiltProgram}
    (absent : owned.get? name = none) (new : gpu.issued < built.program) :
    Accounted (owned.insert name built) (gpu.gaining built.program) lost where
  stages := accounted.stages
  linked := accounted.linked.gaining built.program
  live := by
    intro handle
    unfold Gpu.gaining
    rw [Table.mem_keys_insert, accounted.live]
    constructor
    · rintro (rfl | ⟨⟨other, another, holds, rfl⟩, kept⟩)
      · refine ⟨⟨name, built, Table.get?_insert_self _ _ _, rfl⟩, ?_⟩
        intro gone
        exact Nat.not_lt_of_le (accounted.past gone) new
      · refine ⟨⟨other, another, ?_, rfl⟩, kept⟩
        rw [Table.get?_insert_of_ne owned, holds]
        rintro rfl
        rw [absent] at holds
        cases holds
    · rintro ⟨⟨other, another, holds, rfl⟩, kept⟩
      rw [Table.get?_insert] at holds
      split at holds
      · cases holds
        exact .inl rfl
      · exact .inr ⟨⟨other, another, holds, rfl⟩, kept⟩
  apart := by
    intro first second one other holds holdsToo same
    rw [Table.get?_insert] at holds holdsToo
    split at holds <;> split at holdsToo
    · rename_i isFirst isSecond
      rw [isFirst, isSecond]
    · cases holds
      exact absurd new (Nat.not_lt_of_le (same ▸ accounted.issued holdsToo))
    · cases holdsToo
      exact absurd new (Nat.not_lt_of_le (same ▸ accounted.issued holds))
    · exact accounted.apart holds holdsToo same
  issued := by
    intro other another holds
    unfold Gpu.gaining
    rw [Table.get?_insert] at holds
    split at holds
    · cases holds
      exact Nat.le_refl _
    · exact Nat.le_trans (accounted.issued holds) (Nat.le_of_lt new)
  past gone := Nat.le_trans (accounted.past gone) (Nat.le_of_lt new)

/-- Only what is found in the two tables counts, not how they came about. -/
theorem congr (accounted : Accounted owned gpu lost) {table : Table String BuiltProgram}
    {device : Gpu} (sameOwned : ∀ name, table.get? name = owned.get? name)
    (samePrograms : ∀ handle, device.programs.get? handle = gpu.programs.get? handle)
    (sameStages : device.stages = gpu.stages) (sameIssued : device.issued = gpu.issued) :
    Accounted table device lost where
  stages := by
    rw [sameStages, accounted.stages]
  linked := by
    intro handle program found
    rw [samePrograms] at found
    exact accounted.linked handle program found
  live := by
    intro handle
    rw [Table.mem_keys, samePrograms, ← Table.mem_keys, accounted.live]
    simp only [sameOwned]
  apart := by
    intro first second one other holds holdsToo
    rw [sameOwned] at holds holdsToo
    exact accounted.apart holds holdsToo
  issued := by
    intro name built holds
    rw [sameOwned] at holds
    rw [sameIssued]
    exact accounted.issued holds
  past := by
    intro handle gone
    rw [sameIssued]
    exact accounted.past gone

end Accounted

namespace Manager
variable {lost : List Gpu.Handle}

/-- What a manager has built is accounted for, but for what was taken from it. -/
def Accounts (manager : Manager) (lost : List Gpu.Handle) : Prop :=
  Accounted manager.programs manager.bench.gpu lost

/-- A manager that owns nothing, on a device with nothing on it. -/
theorem accounts_of_empty {manager : Manager} (owns : manager.programs = ∅)
    (stages : manager.bench.gpu.stages = ∅) (programs : manager.bench.gpu.programs = ∅)
    (past : ∀ handle ∈ lost, handle ≤ manager.bench.gpu.issued) : manager.Accounts lost where
  stages := stages
  linked := by
    intro handle program found
    rw [programs] at found
    cases found
  live := by
    intro handle
    rw [Table.mem_keys, programs, owns]
    simp
  apart := by
    intro first second one other holds
    rw [owns] at holds
    cases holds
  issued := by
    intro name built holds
    rw [owns] at holds
    cases holds
  past gone := past _ gone

theorem accounts_create {bench : Bench} (blank : bench.gpu = {}) : (create bench).Accounts [] := by
  obtain ⟨programs, -, gpu, -, -⟩ := startCompiler_kept { bench }
  refine accounts_of_empty programs ?_ ?_ ?_
  · exact (congrArg Gpu.stages gpu).trans (congrArg Gpu.stages blank)
  · exact (congrArg Gpu.programs gpu).trans (congrArg Gpu.programs blank)
  · intro handle gone
    cases gone

theorem Accounts.release {manager : Manager} (accounts : manager.Accounts lost) (name : String) :
    (manager.release name).Accounts lost := by
  unfold Manager.release
  split
  · rename_i built held
    unfold Accounts
    dsimp only
    rw [accounts.linked.deleteLive_gpu]
    exact Accounted.release accounts held
  · exact accounts

/-- A new program takes the place of the one a name had. -/
theorem Accounts.install {manager : Manager} (accounts : manager.Accounts lost) (name : String)
    {built : BuiltProgram} {bench : Bench} (new : manager.bench.gpu.issued < built.program)
    (gains : bench.gpu = manager.bench.gpu.gaining built.program) :
    ({ manager with bench }.install name built).Accounts lost := by
  unfold Manager.install Accounts
  dsimp only
  cases held : manager.programs.get? name with
  | none =>
    dsimp only
    rw [gains]
    exact Accounted.add accounts held new
  | some previous =>
    dsimp only
    have older : previous.program < built.program :=
      Nat.lt_of_le_of_lt (Accounted.issued accounts held) new
    have linked : bench.gpu.AllLinked := by
      rw [gains]
      exact accounts.linked.gaining built.program
    rw [if_neg (Nat.ne_of_lt older), linked.deleteLive_gpu, gains]
    -- The order of the insertion and the deletion shows in the tables, but not in what they hold.
    have added := (Accounted.release accounts held).add (Table.get?_erase_self _ _) new
    refine added.congr ?_ ?_ rfl rfl
    · intro probe
      rw [Table.get?_insert, Table.get?_insert, Table.get?_erase]
      split
      · rfl
      · rfl
    · intro handle
      simp only [Gpu.deleteProgram, Gpu.gaining, Table.get?_insert, Table.get?_erase]
      by_cases isPrevious : handle = previous.program
      · rw [isPrevious, if_pos rfl, if_pos rfl, if_neg (Nat.ne_of_lt older)]
      · rw [if_neg isPrevious, if_neg isPrevious]

theorem accounts_build {σ : Type} [Store σ] {manager : Manager} (accounts : manager.Accounts lost)
    (cache : Cache σ) (disk : Disk) (now : Millis) (name : String) :
    (manager.build cache disk now name).2.1.Accounts lost := by
  have outcome := build_builds accounts.fresh cache disk now name
  generalize manager.build cache disk now name = answer at outcome ⊢
  cases outcome with
  | refused error calls issued spent =>
    unfold Accounts
    dsimp only
    rw [prepared_programs, Bench.afterCalls_gpu]
    exact accounts.spend spent
  | installed built calls new =>
    have prepared : manager.prepared.Accounts lost := by
      unfold Accounts
      rw [prepared_programs, prepared_gpu]
      exact accounts
    refine prepared.install name ?_ ?_
    · rw [prepared_gpu]
      exact new
    · rw [prepared_gpu, Bench.afterCalls_gpu]

theorem accounts_createProgram {σ : Type} [Store σ] {manager : Manager}
    (accounts : manager.Accounts lost) (cache : Cache σ) (disk : Disk) (now : Millis)
    (name : String) : (manager.createProgram cache disk now name).2.1.Accounts lost := by
  rcases manager.createProgram_cases cache disk now name with
    ⟨built, held, lives, answer⟩ | ⟨dead, answer⟩
  · rw [answer]
    exact accounts
  · rw [answer]
    have dropped : { manager with programs := manager.programs.erase name }.Accounts lost :=
      Accounted.drop accounts dead
    exact accounts_build dropped cache disk now name

theorem accounts_resolve {σ : Type} [Store σ] {manager : Manager}
    (accounts : manager.Accounts lost) (cache : Cache σ) (disk : Disk) (now : Millis)
    (name : String) : (manager.resolve cache disk now name).2.1.Accounts lost := by
  obtain ⟨calls, answer⟩ := manager.resolve_manager cache disk now name
  rw [answer]
  exact accounts

theorem Accounts.loadExternal {manager : Manager} (accounts : manager.Accounts lost) (disk : Disk)
    (reference : Reference) : (manager.loadExternal disk reference).2.Accounts lost := by
  unfold Manager.loadExternal
  split
  · exact accounts
  · rename_i shader _
    have registered :
        { manager with registry := manager.registry.register shader }.Accounts lost := accounts
    exact registered.release shader.name

theorem Accounts.removeExternal {manager : Manager} (accounts : manager.Accounts lost)
    (name : String) : (manager.removeExternal name).2.Accounts lost := by
  unfold Manager.removeExternal
  split
  · have erased :
        { manager with registry := manager.registry.erase name }.Accounts lost := accounts
    exact erased.release name
  · exact accounts

/-- Deleting programs one after the other takes each of them out of the device. -/
theorem foldl_deleteLive_gpu (handles : List Gpu.Handle) {bench : Bench}
    (linked : bench.gpu.AllLinked) :
    (handles.foldl deleteLive bench).gpu =
      { bench.gpu with programs := handles.foldl Table.erase bench.gpu.programs } := by
  induction handles generalizing bench with
  | nil => rfl
  | cons handle rest ih =>
    have still : (deleteLive bench handle).gpu.AllLinked := by
      rw [linked.deleteLive_gpu handle]
      exact linked.deleteProgram handle
    rw [List.foldl_cons, List.foldl_cons, ih still, linked.deleteLive_gpu handle]
    rfl

/-- Nothing is left by the clean-up: no program, on the device or in the table, and no stage. -/
theorem Accounts.cleanup_gpu {manager : Manager} (accounts : manager.Accounts lost) :
    manager.cleanup.bench.gpu = { manager.bench.gpu with stages := ∅, programs := ∅ } := by
  have emptied : (manager.programs.values.map (·.program)).foldl Table.erase
      manager.bench.gpu.programs = ∅ := by
    refine Table.eq_empty_of_absent ?_
    intro handle
    rw [← Option.not_isSome_iff_eq_none, ← Table.mem_keys, Table.mem_keys_foldl_erase]
    rintro ⟨lives, spared⟩
    obtain ⟨⟨name, built, held, rfl⟩, _⟩ := accounts.live.mp lives
    exact spared (List.mem_map_of_mem (Table.mem_values_of_get? held))
  have deleted := foldl_deleteLive_gpu (manager.programs.values.map (·.program)) accounts.linked
  rw [emptied] at deleted
  have blank := accounts.stages
  unfold cleanup
  dsimp only
  split
  · unfold Bench.stopCompiler Bench.note
    dsimp only
    rw [deleted, ← blank]
  · rw [deleted, ← blank]

theorem Accounts.cleanup {manager : Manager} (accounts : manager.Accounts lost) :
    manager.cleanup.Accounts lost := by
  have emptied := accounts.cleanup_gpu
  refine accounts_of_empty rfl ?_ ?_ ?_
  · rw [emptied]
  · rw [emptied]
  · rw [emptied]
    intro handle gone
    exact accounts.past gone

end Manager

section Runs
variable {σ : Type} [Store σ]

/-- The programs that lived when they were deleted behind the manager's back. -/
def lost : List (Scene σ × ManagerEvent σ) → List Gpu.Handle
  | [] => []
  | (scene, .loseProgram handle) :: past =>
    if handle ∈ scene.manager.bench.gpu.programs.keys then handle :: lost past else lost past
  | _ :: past => lost past

/-- Every event leaves the programs accounted for. -/
theorem accounts_step {run : ManagerRun σ} (event : ManagerEvent σ)
    (accounts : run.scene.manager.Accounts (lost run.past)) :
    (run.step event).scene.manager.Accounts (lost (run.step event).past) := by
  cases event with
  | create name => exact Manager.accounts_createProgram accounts _ _ _ name
  | reload name => exact Manager.accounts_build accounts _ _ _ name
  | resolve name => exact Manager.accounts_resolve accounts _ _ _ name
  | load reference => exact accounts.loadExternal _ reference
  | remove name => exact accounts.removeExternal name
  | cleanup => exact accounts.cleanup
  | loseProgram handle => exact Accounted.lose accounts handle
  | _ => exact accounts

theorem accounts_of_reached {run : ManagerRun σ}
    (reached : Reached ManagerRun.step Anything Begins run) :
    run.scene.manager.Accounts (lost run.past) := by
  apply reached.invariant
  · rintro run ⟨nothing, bench, blank, created⟩
    rw [nothing, created]
    exact Manager.accounts_create blank
  · intro run event accounts _
    exact accounts_step event accounts

/-- Only a build gives out handles. -/
theorem issued_after {scene : Scene σ} {event : ManagerEvent σ}
    (notCreate : ∀ name, event ≠ .create name) (notReload : ∀ name, event ≠ .reload name) :
    (scene.after event).manager.bench.gpu.issued = scene.manager.bench.gpu.issued := by
  cases event with
  | create name => exact absurd rfl (notCreate name)
  | reload name => exact absurd rfl (notReload name)
  | resolve name =>
    obtain ⟨calls, answer⟩ :=
      scene.manager.resolve_manager scene.cache scene.disk scene.now name
    exact congrArg (·.bench.gpu.issued) answer
  | load reference => exact (Manager.loadExternal_sheds _ _ reference).issued
  | remove name => exact (Manager.removeExternal_sheds _ name).issued
  | cleanup => exact scene.manager.cleanup_issued
  | _ => rfl

end Runs

end Overlay
