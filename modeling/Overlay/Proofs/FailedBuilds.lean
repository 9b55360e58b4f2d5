import Overlay.Proofs.ProgramAccounts
import Overlay.Store.Memory

/-! What a build that fails leaves behind. A build can fail at either stage, when the two are joined
and when the program is linked, each time after a different amount of work. None of it shows
afterwards: the imports, the installed programs and the objects of the device are what they were,
and the cache is as resolving the name alone would have left it. Only the compiler may have been
started, which any build does first. -/
namespace Overlay

/-- A manager after a build of a name that failed, against the manager before it. -/
structure LeftAsItWas (before after : Manager) (name : String) : Prop where
  registry : after.registry = before.registry
  stages : after.bench.gpu.stages = before.bench.gpu.stages
  programs : after.bench.gpu.programs = before.bench.gpu.programs
  /-- What was alive is alive, and installed for the same name as it was. -/
  kept {other : String} {built : BuiltProgram} : before.program? other = some built →
    before.bench.isProgram built.program = true →
    after.program? other = some built ∧ after.bench.isProgram built.program = true
  /-- What is installed was installed before. -/
  nothingNew {other : String} {built : BuiltProgram} :
    after.program? other = some built → before.program? other = some built
  /-- Only the name itself can have lost its entry, and only if its program was dead. -/
  dropped {other : String} {built : BuiltProgram} : before.program? other = some built →
    after.program? other = none → other = name ∧ before.bench.isProgram built.program = false
  compilerState : after.compilerState = before.prepared.compilerState
  compiler : after.bench.compiler = before.prepared.bench.compiler
  refusals : after.bench.refusals = before.bench.refusals

namespace Manager

/-- The prepared manager with a part of the old table, after calls that gave nothing. -/
theorem leftAsItWas_of_spent {manager : Manager} {table : Table String BuiltProgram} {name : String}
    (entries : table = manager.programs ∨ table = manager.programs.erase name ∧
      ∀ built, manager.programs.get? name = some built →
        manager.bench.isProgram built.program = false)
    (calls : List Call) (issued : Nat) :
    LeftAsItWas manager
      { manager.prepared with
        programs := table
        bench := manager.prepared.bench.afterCalls calls { manager.bench.gpu with issued } }
      name where
  registry := prepared_registry manager
  stages := rfl
  programs := rfl
  kept := by
    intro other built held lives
    refine ⟨?_, lives⟩
    change table.get? other = some built
    rcases entries with rfl | ⟨rfl, dead⟩
    · exact held
    · rw [Table.get?_erase_of_ne]
      · exact held
      · rintro rfl
        rw [dead built held] at lives
        cases lives
  nothingNew := by
    intro other built held
    change table.get? other = some built at held
    rcases entries with rfl | ⟨rfl, dead⟩
    · exact held
    · exact (Table.get?_of_get?_erase held).2
  dropped := by
    intro other built held gone
    change table.get? other = none at gone
    change manager.programs.get? other = some built at held
    rcases entries with rfl | ⟨rfl, dead⟩
    · rw [held] at gone
      cases gone
    · rw [Table.get?_erase] at gone
      split at gone
      · rename_i same
        subst same
        exact ⟨rfl, dead built held⟩
      · rw [held] at gone
        cases gone
  compilerState := rfl
  compiler := rfl
  refusals := manager.prepared_kept.2.2.2.1

variable {σ : Type} [Store σ]

/-- A build that fails has made calls and may have spent handles. -/
theorem build_failed {manager : Manager} (fresh : manager.bench.gpu.Fresh) {cache : Cache σ}
    {disk : Disk} {now : Millis} {name : String} {error : ProgramError}
    (failed : (manager.build cache disk now name).1 = .error error) :
    ∃ calls issued, (manager.build cache disk now name).2 =
      ({ manager.prepared with
          bench := manager.prepared.bench.afterCalls calls { manager.bench.gpu with issued } },
        (manager.prepared.resolve cache disk now name).2.2) := by
  have outcome := build_builds fresh cache disk now name
  generalize manager.build cache disk now name = answer at outcome failed ⊢
  cases outcome with
  | refused error calls issued spent => exact ⟨calls, issued, rfl⟩
  | installed built calls new => cases failed

theorem reloadProgram_failed {manager : Manager} (fresh : manager.bench.gpu.Fresh)
    {cache : Cache σ} {disk : Disk} {now : Millis} {name : String} {error : ProgramError}
    (failed : (manager.reloadProgram cache disk now name).1 = .error error) :
    LeftAsItWas manager (manager.reloadProgram cache disk now name).2.1 name ∧
    (manager.reloadProgram cache disk now name).2.1.programs = manager.programs ∧
    (manager.reloadProgram cache disk now name).2.2 =
      (manager.prepared.resolve cache disk now name).2.2 := by
  obtain ⟨calls, issued, left⟩ := build_failed fresh failed
  unfold reloadProgram
  rw [left]
  exact ⟨leftAsItWas_of_spent (.inl (prepared_programs manager)) calls issued,
    prepared_programs manager, rfl⟩

theorem createProgram_failed {manager : Manager} (fresh : manager.bench.gpu.Fresh)
    {cache : Cache σ} {disk : Disk} {now : Millis} {name : String} {error : ProgramError}
    (failed : (manager.createProgram cache disk now name).1 = .error error) :
    LeftAsItWas manager (manager.createProgram cache disk now name).2.1 name ∧
    (manager.createProgram cache disk now name).2.2 =
      (manager.prepared.resolve cache disk now name).2.2 := by
  rcases manager.createProgram_cases cache disk now name with
    ⟨built, held, lives, answer⟩ | ⟨dead, answer⟩
  · rw [answer] at failed
    cases failed
  · rw [answer] at failed ⊢
    have freshToo :
        { manager with programs := manager.programs.erase name }.bench.gpu.Fresh := fresh
    obtain ⟨calls, issued, left⟩ := build_failed freshToo failed
    have alone := resolve_withPrograms manager.prepared (manager.programs.erase name) cache disk
      now name
    rw [left, prepared_withPrograms, alone]
    refine ⟨?_, rfl⟩
    exact leftAsItWas_of_spent (.inr ⟨rfl, dead⟩) calls issued

end Manager

/-! ### Handles that are spent

A build gives out a handle for each stage and one for the program, and those of a build that fails
are spent for nothing. A counter of 32 bits has to hold out for all of them. -/

section Spent
variable {σ : Type} [Store σ]

namespace Bench

theorem createStage_spends (bench : Bench) (stage : Stage) (source : String) :
    (bench.createStage stage source).2.gpu.issued ≤ bench.gpu.issued + 1 := by
  rcases bench.createStage_cases stage source with ⟨fault, refused⟩ | created
  · rw [refused]
    exact Nat.le_succ _
  · rw [created]
    exact Nat.le_refl _

theorem createProgram_spends (bench : Bench) (vertex fragment : Gpu.Handle) :
    (bench.createProgram vertex fragment).2.gpu.issued ≤ bench.gpu.issued + 1 := by
  unfold createProgram
  dsimp only
  split
  · exact Nat.le_succ _
  · unfold Gpu.createProgram
    split
    · exact Nat.le_succ _
    · exact Nat.le_succ _
    · exact Nat.le_refl _

/-- Linking needs no handle. -/
theorem link_spends (bench : Bench) (handle : Gpu.Handle) :
    (bench.link handle).2.gpu.issued = bench.gpu.issued := by
  unfold link
  dsimp only
  split
  · rfl
  · unfold Gpu.link
    split
    · rfl
    · split <;> rfl

end Bench

namespace Manager

theorem joinStages_spends (bench : Bench) (vertex fragment : Gpu.Handle) :
    (joinStages bench vertex fragment).2.gpu.issued ≤ bench.gpu.issued + 1 := by
  have created := bench.createProgram_spends vertex fragment
  unfold joinStages
  generalize bench.createProgram vertex fragment = answer at created ⊢
  obtain ⟨fault | program, made⟩ := answer
  · exact created
  have linked := made.link_spends program
  dsimp only at created ⊢
  generalize made.link program = answer at linked ⊢
  rw [← linked] at created
  obtain ⟨fault | _, left⟩ := answer
  · exact created
  · exact created

/-- Two stages and a program are three handles. -/
theorem linkSources_spends (bench : Bench) (sources : ResolvedSources) :
    (linkSources bench sources).2.gpu.issued ≤ bench.gpu.issued + 3 := by
  have first := bench.createStage_spends .vertex sources.vertex
  unfold linkSources
  generalize bench.createStage .vertex sources.vertex = answer at first ⊢
  obtain ⟨fault | vertex, withVertex⟩ := answer
  · exact Nat.le_trans first (Nat.le_add_right _ 2)
  have second := withVertex.createStage_spends .fragment sources.fragment
  dsimp only at first ⊢
  generalize withVertex.createStage .fragment sources.fragment = answer at second ⊢
  obtain ⟨fault | fragment, withBoth⟩ := answer
  · exact Nat.le_trans second (Nat.le_succ_of_le (Nat.succ_le_succ first))
  have third := joinStages_spends withBoth vertex fragment
  dsimp only at second ⊢
  have spent : (joinStages withBoth vertex fragment).2.gpu.issued ≤ bench.gpu.issued + 3 := by
    omega
  generalize joinStages withBoth vertex fragment = answer at spent ⊢
  obtain ⟨fault | program, joined⟩ := answer
  · exact spent
  · exact spent

theorem build_spends (manager : Manager) (cache : Cache σ) (disk : Disk) (now : Millis)
    (name : String) : (manager.build cache disk now name).2.1.bench.gpu.issued ≤
      manager.bench.gpu.issued + 3 := by
  obtain ⟨calls, resolves⟩ := manager.prepared.resolve_manager cache disk now name
  rw [build_eq]
  generalize manager.prepared.resolve cache disk now name = answer at resolves ⊢
  obtain ⟨sources, resolved, after⟩ := answer
  dsimp only at resolves ⊢
  subst resolves
  dsimp only
  generalize called : manager.prepared.bench.afterCalls calls _ = bench
  have linked := linkSources_spends bench sources
  have same : bench.gpu = manager.bench.gpu := by
    rw [← called, Bench.afterCalls_gpu, prepared_gpu]
  rw [same] at linked
  generalize linkSources bench sources = answer at linked ⊢
  obtain ⟨error | program, left⟩ := answer
  · exact linked
  · dsimp only
    rw [(install_sheds _ name _).issued]
    exact linked

theorem createProgram_spends (manager : Manager) (cache : Cache σ) (disk : Disk) (now : Millis)
    (name : String) : (manager.createProgram cache disk now name).2.1.bench.gpu.issued ≤
      manager.bench.gpu.issued + 3 := by
  rcases manager.createProgram_cases cache disk now name with
    ⟨built, held, lives, answer⟩ | ⟨dead, answer⟩
  · rw [answer]
    exact Nat.le_add_right _ 3
  · rw [answer]
    exact build_spends _ cache disk now name

end Manager

/-- No event spends more than the handles of one build. -/
theorem Scene.after_spends (scene : Scene σ) (event : ManagerEvent σ) :
    (scene.after event).manager.bench.gpu.issued ≤ scene.manager.bench.gpu.issued + 3 := by
  cases event with
  | create name => exact Manager.createProgram_spends _ _ _ _ name
  | reload name => exact Manager.build_spends _ _ _ _ name
  | _ =>
    refine Nat.le_add_right_of_le (Nat.le_of_eq ?_)
    exact issued_after (fun _ => nofun) fun _ => nofun

/-- A run gives out three handles an event at most, so 32 bits hold those of any run of fewer than
`2 ^ 32 / 3` events. -/
theorem handles_are_few {permitted : ManagerRun σ → ManagerEvent σ → Prop} {run : ManagerRun σ}
    (reached : Reached ManagerRun.step permitted Begins run) :
    run.scene.manager.bench.gpu.issued ≤ 3 * run.past.length := by
  apply Reached.invariant reached
  · rintro run ⟨nothing, bench, unused, opened⟩
    rw [nothing, opened]
    have kept : (Manager.create bench).bench.gpu = bench.gpu :=
      (Manager.startCompiler_kept _).2.2.1
    rw [kept, unused]
    exact Nat.le_refl _
  · intro run event few _
    have spent := run.scene.after_spends event
    change (run.scene.after event).manager.bench.gpu.issued ≤ 3 * (run.past.length + 1)
    omega

end Spent

/-- In whatever state a build fails, and wherever it fails, it leaves the manager and the device as
they were and the cache as resolving the name alone leaves it. Only handles are spent. They are
counted without end here, and a device that counts in 32 bits does the same in a run of fewer than
`2 ^ 32` allocations; how few handles a run spends, `handles_are_few` says. -/
theorem failed_builds_leave_no_trace {σ : Type} [Store σ] {run : ManagerRun σ}
    (reached : Reached ManagerRun.step Anything Begins run) (name : String) :
    let ⟨manager, cache, disk, now⟩ := run.scene
    let resolved := (manager.prepared.resolve cache disk now name).2.2
    let created := manager.createProgram cache disk now name
    let reloaded := manager.reloadProgram cache disk now name
    (∀ error, created.1 = .error error →
      LeftAsItWas manager created.2.1 name ∧ created.2.2 = resolved) ∧
    (∀ error, reloaded.1 = .error error →
      LeftAsItWas manager reloaded.2.1 name ∧ reloaded.2.1.programs = manager.programs ∧
        reloaded.2.2 = resolved) := by
  have fresh : run.scene.manager.bench.gpu.Fresh := (accounts_of_reached reached).fresh
  constructor
  · intro error failed
    exact Manager.createProgram_failed fresh failed
  · intro error failed
    exact Manager.reloadProgram_failed fresh failed

/-- An import whose braces do not balance is refused at the fragment stage, after the vertex stage
was made and the text was compiled and recorded. -/
theorem failed_builds_leave_no_trace_of_import :
    ∃ run : ManagerRun MemoryStore,
      Reached ManagerRun.step Anything Begins run ∧
      let ⟨manager, cache, disk, now⟩ := run.scene
      let created := manager.createProgram cache disk now "plain"
      created.1 = .error (.stageCompile "plain" .fragment (.compile "1 unclosed '\x7b'")) ∧
      LeftAsItWas manager created.2.1 "plain" ∧
      created.2.2 = (manager.prepared.resolve cache disk now "plain").2.2 := by
  have begins : Reached ManagerRun.step Anything Begins
      (ManagerRun.opened {} {} ({} : MemoryStore) {} 0) := .start ⟨rfl, {}, rfl, rfl⟩
  have imported := begins.step
    (.register ⟨"plain", .inMemory {} "plain", .direct ["void main() \x7b"]⟩) trivial
  have outcome := (failed_builds_leave_no_trace imported "plain").1
    (.stageCompile "plain" .fragment (.compile "1 unclosed '\x7b'"))
  refine ⟨_, imported, ?refused, outcome ?refused⟩
  decide +kernel

end Overlay
