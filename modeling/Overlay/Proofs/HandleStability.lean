import Overlay.Proofs.ProgramAccounts
import Overlay.Proofs.ProgramTable
import Overlay.Store.Memory

/-! The handle of a program is stable. Once a name was granted a program, every later creation
answers with the same one and does nothing, until an event about that very name or that very handle
ends it; what happens to other names cannot, because handles come from a counter that never goes
back and no two names share one. -/
namespace Overlay

namespace Manager

variable {σ : Type} [Store σ]

/-- A build that succeeds gives out a handle that is greater than all before; no build takes one
back. -/
theorem build_issued {manager : Manager} (fresh : manager.bench.gpu.Fresh) (cache : Cache σ)
    (disk : Disk) (now : Millis) (name : String) :
    manager.bench.gpu.issued ≤ (manager.build cache disk now name).2.1.bench.gpu.issued ∧
    ∀ built, (manager.build cache disk now name).1 = .ok built →
      manager.bench.gpu.issued < built.program := by
  have outcome := build_builds fresh cache disk now name
  generalize manager.build cache disk now name = answer at outcome ⊢
  cases outcome with
  | refused error calls issued spent => exact ⟨spent, nofun⟩
  | installed built calls new =>
    constructor
    · dsimp only
      rw [(install_sheds _ name built).issued]
      exact Nat.le_of_lt new
    · rintro _ ⟨⟩
      exact new

theorem createProgram_issued {manager : Manager} (fresh : manager.bench.gpu.Fresh) (cache : Cache σ)
    (disk : Disk) (now : Millis) (name : String) :
    manager.bench.gpu.issued ≤ (manager.createProgram cache disk now name).2.1.bench.gpu.issued := by
  rcases manager.createProgram_cases cache disk now name with
    ⟨built, held, lives, answer⟩ | ⟨dead, answer⟩
  · exact Nat.le_of_eq (congrArg (·.2.1.bench.gpu.issued) answer).symm
  · rw [answer]
    have freshToo :
        { manager with programs := manager.programs.erase name }.bench.gpu.Fresh := fresh
    exact (build_issued freshToo cache disk now name).1

end Manager

section Runs
variable {σ : Type}

/-- A name has its program, and nobody deleted that from outside. -/
structure Stands (run : ManagerRun σ) (name : String) (built : BuiltProgram) : Prop where
  installed : run.scene.manager.program? name = some built
  spared : built.program ∉ lost run.past

/-- A program that stands lives. -/
theorem Stands.lives {run : ManagerRun σ} {name : String} {built : BuiltProgram}
    (stands : Stands run name built) (accounts : run.scene.manager.Accounts (lost run.past)) :
    run.scene.manager.bench.isProgram built.program = true := by
  refine (accounts.linked.isProgram_iff built.program).mpr ?_
  exact accounts.live.mpr ⟨⟨name, built, stands.installed, rfl⟩, stands.spared⟩

variable [Store σ]

/-- No event gives a handle back. -/
theorem issued_le_after {scene : Scene σ} {lost : List Gpu.Handle}
    (accounts : scene.manager.Accounts lost) (event : ManagerEvent σ) :
    scene.manager.bench.gpu.issued ≤ (scene.after event).manager.bench.gpu.issued := by
  cases event with
  | create name => exact Manager.createProgram_issued accounts.fresh _ _ _ name
  | reload name => exact (Manager.build_issued accounts.fresh _ _ _ name).1
  | _ =>
    refine Nat.le_of_eq (Eq.symm ?_)
    exact issued_after (fun _ => nofun) fun _ => nofun

/-- A program that is built for a request has a handle greater than all before. -/
theorem Produces.new {scene : Scene σ} {event : ManagerEvent σ} {name : String}
    {built : BuiltProgram} (produces : Produces scene event name built)
    (fresh : scene.manager.bench.gpu.Fresh) : scene.manager.bench.gpu.issued < built.program := by
  obtain ⟨programs, answer⟩ := produces.build
  have freshToo : { scene.manager with programs }.bench.gpu.Fresh := fresh
  exact (Manager.build_issued freshToo _ _ _ _).2 built answer

/-- The events that end what a name was granted. -/
inductive Ends (scene : Scene σ) (name : String) (handle : Gpu.Handle) : ManagerEvent σ → Prop where
  | renewed {event : ManagerEvent σ} (renews : event.Renews scene name) : Ends scene name handle event
  | reloaded {built : BuiltProgram} (succeeds : Grants scene (.reload name) name built) :
    Ends scene name handle (.reload name)
  | cleanup : Ends scene name handle .cleanup
  | lost : Ends scene name handle (.loseProgram handle)

/-- An event takes away at most the handle that it deletes from outside. -/
theorem spared_step {run : ManagerRun σ} {event : ManagerEvent σ} {handle : Gpu.Handle}
    (spared : handle ∉ lost run.past) (apart : event ≠ .loseProgram handle) :
    handle ∉ lost (run.step event).past := by
  cases event with
  | loseProgram other =>
    change handle ∉ if other ∈ run.scene.manager.bench.gpu.programs.keys
      then other :: lost run.past else lost run.past
    split
    · rw [List.mem_cons, not_or]
      exact ⟨fun same => apart (congrArg _ same.symm), spared⟩
    · exact spared
  | _ => exact spared

theorem Stands.step {run : ManagerRun σ} {event : ManagerEvent σ} {name : String}
    {built : BuiltProgram} (stands : Stands run name built)
    (accounts : run.scene.manager.Accounts (lost run.past))
    (goesOn : ¬ Ends run.scene name built.program event) : Stands (run.step event) name built where
  installed := by
    have lives := stands.lives accounts
    have turns : Turns run.scene event name ((run.step event).scene.manager.program? name) :=
      turns_after run.scene event name
    have notLacking : ¬ run.scene.manager.Lacks name := by
      intro lacks
      rw [lacks built stands.installed] at lives
      cases lives
    generalize (run.step event).scene.manager.program? name = turned at turns
    cases turns with
    | @produced another produces =>
      -- A creation builds only what is lacking, and a reload that succeeds ends what was granted.
      obtain ⟨granted, lacking⟩ := produces
      cases granted with
      | created answer => exact absurd (lacking rfl) notLacking
      | reloaded answer => exact absurd (Ends.reloaded (.reloaded answer)) goesOn
    | released renews => exact absurd (Ends.renewed renews) goesOn
    | cleared isCleanup =>
      subst isCleanup
      exact absurd Ends.cleanup goesOn
    | dropped dead => exact absurd dead notLacking
    | kept same => exact stands.installed
  spared := by
    refine spared_step stands.spared ?_
    rintro rfl
    exact goesOn .lost

/-- What a request is granted stands. -/
theorem Grants.stands {run : ManagerRun σ} {event : ManagerEvent σ} {name : String}
    {built : BuiltProgram} (granted : Grants run.scene event name built)
    (accounts : run.scene.manager.Accounts (lost run.past)) : Stands (run.step event) name built := by
  have newSpared (new : run.scene.manager.bench.gpu.issued < built.program) :
      built.program ∉ lost run.past :=
    fun gone => Nat.not_lt_of_le (accounts.past gone) new
  cases granted with
  | reloaded answer =>
    refine ⟨?_, newSpared ((Manager.build_issued accounts.fresh _ _ _ _).2 built answer)⟩
    change (Manager.build _ _ _ _ name).2.1.program? name = _
    rw [Manager.build_program?_self]
    change (Manager.build _ _ _ _ name).1 = .ok built at answer
    rw [answer]
  | created answer =>
    rcases run.scene.manager.createProgram_cases run.scene.cache run.scene.disk run.scene.now name
      with ⟨held, installed, lives, same⟩ | ⟨dead, builds⟩
    · rw [same] at answer
      cases answer
      have listed := (accounts.linked.isProgram_iff built.program).mp lives
      refine ⟨?_, (accounts.live.mp listed).2⟩
      change (Manager.createProgram _ _ _ _ name).2.1.program? name = _
      rw [same]
      exact installed
    · have produces : Produces run.scene (.create name) name built :=
        ⟨.created answer, fun _ => dead⟩
      refine ⟨?_, newSpared (produces.new accounts.fresh)⟩
      change (Manager.createProgram _ _ _ _ name).2.1.program? name = _
      rw [builds] at answer ⊢
      rw [Manager.build_program?_self, answer]

variable {run : ManagerRun σ} {later earlier : List (Scene σ × ManagerEvent σ)} {scene : Scene σ}
  {event : ManagerEvent σ} {name : String} {built : BuiltProgram}

/-- What a name was granted stands until an event ends it. -/
theorem stands_until_ended (reached : Reached ManagerRun.step Anything Begins run)
    (split : run.past = later ++ (scene, event) :: earlier)
    (granted : Grants scene event name built)
    (goesOn : ∀ moment ∈ later, ¬ Ends moment.1 name built.program moment.2) :
    Stands run name built := by
  refine ManagerRun.since (Stands · name built) reached split goesOn ?_ ?_
  · intro met
    exact Grants.stands granted (accounts_of_reached met)
  · intro run event met stands spared
    exact stands.step (accounts_of_reached met) spared

/-- Every handle that was granted has been issued. -/
theorem granted_le_issued (reached : Reached ManagerRun.step Anything Begins run)
    (member : (scene, event) ∈ run.past) (granted : Grants scene event name built) :
    built.program ≤ run.scene.manager.bench.gpu.issued := by
  obtain ⟨later, earlier, split⟩ := List.append_of_mem member
  refine ManagerRun.since (built.program ≤ ·.scene.manager.bench.gpu.issued) reached split
    (fun _ member => member) ?_ ?_
  · intro met
    have accounts := accounts_of_reached met
    have stands := Grants.stands granted accounts
    exact Accounted.issued (accounts_step event accounts) stands.installed
  · intro run event met issued _
    exact Nat.le_trans issued (issued_le_after (accounts_of_reached met) event)

/-- A name that was granted a program, by a creation or by a reload, is answered with it by every
later creation, which changes nothing at all, neither calls the compiler nor the device nor looks
into the cache. This goes on until the name is reloaded with success, imported again or removed, a
clean-up is made, or the program is deleted from outside; no other event ends it. And a program
that is built for a request has a handle that was never granted before. -/
theorem handles_are_stable (reached : Reached ManagerRun.step Anything Begins run)
    (split : run.past = later ++ (scene, event) :: earlier)
    (granted : Grants scene event name built) :
    ((∀ moment ∈ later, ¬ Ends moment.1 name built.program moment.2) →
      run.scene.manager.createProgram run.scene.cache run.scene.disk run.scene.now name =
        (.ok built, run.scene.manager, run.scene.cache)) ∧
    (Produces scene event name built → ∀ moment ∈ earlier, ∀ other another,
      Grants moment.1 moment.2 other another → another.program ≠ built.program) := by
  constructor
  · intro goesOn
    have stands := stands_until_ended reached split granted goesOn
    have lives := stands.lives (accounts_of_reached reached)
    unfold Manager.createProgram
    have held : run.scene.manager.programs.get? name = some built := stands.installed
    rw [held]
    exact if_pos lives
  · intro produces moment member other another grantedBefore same
    have met := ManagerRun.reached_before reached split
    have new := produces.new (accounts_of_reached met).fresh
    have old := granted_le_issued met member grantedBefore
    exact Nat.not_lt_of_le (same ▸ old) new

end Runs

/-- A program is granted; then the device refuses stages, a reload of the name fails, and the import
that the program was built from is struck from the registry. The name is answered as before. -/
theorem handles_are_stable_while_reloads_fail :
    ∃ (run : ManagerRun MemoryStore) (later earlier : List (Scene MemoryStore × ManagerEvent MemoryStore))
      (scene : Scene MemoryStore),
      Reached ManagerRun.step Anything Begins run ∧
      run.past = later ++ (scene, .create "plain") :: earlier ∧ later.length = 3 ∧
      Grants scene (.create "plain") "plain" ⟨3, .external, .compiled⟩ ∧
      (∀ moment ∈ later, ¬ Ends moment.1 "plain" 3 moment.2) ∧
      run.scene.manager.createProgram run.scene.cache run.scene.disk run.scene.now "plain" =
        (.ok ⟨3, .external, .compiled⟩, run.scene.manager, run.scene.cache) := by
  let registered := (ManagerRun.opened {} {} ({} : MemoryStore) {} 0).step
    (.register ⟨"plain", .inMemory {} "plain", .direct ["main"]⟩)
  let created := registered.step (.create "plain")
  let hindered := created.step (.refuse { gpu := some .createVertex })
  let reloaded := hindered.step (.reload "plain")
  have begins : Reached ManagerRun.step Anything Begins
      (ManagerRun.opened {} {} ({} : MemoryStore) {} 0) := .start ⟨rfl, {}, rfl, rfl⟩
  have reached : Reached ManagerRun.step Anything Begins (reloaded.step (.unregister "plain")) :=
    ((((begins.step _ trivial).step _ trivial).step _ trivial).step _ trivial).step _ trivial
  have answers :
      (registered.scene.manager.createProgram registered.scene.cache registered.scene.disk
        registered.scene.now "plain").1 = .ok ⟨3, .external, .compiled⟩ ∧
      (hindered.scene.manager.reloadProgram hindered.scene.cache hindered.scene.disk
        hindered.scene.now "plain").1 =
          .error (.stageCompile "plain" .vertex (.createStage .vertex)) := by
    decide +kernel
  let later : List (Scene MemoryStore × ManagerEvent MemoryStore) :=
    [(reloaded.scene, .unregister "plain"), (hindered.scene, .reload "plain"),
      (created.scene, .refuse { gpu := some .createVertex })]
  have goesOn : ∀ moment ∈ later, ¬ Ends moment.1 "plain" 3 moment.2 := by
    intro moment member ends
    simp only [later, List.mem_cons, List.not_mem_nil, or_false] at member
    rcases member with rfl | rfl | rfl
    · cases ends with
      | renewed renews => exact renews
    · cases ends with
      | renewed renews => exact renews
      | reloaded succeeds =>
        cases succeeds with
        | reloaded answer =>
          rw [answers.2] at answer
          cases answer
    · cases ends with
      | renewed renews => exact renews
  have split : (reloaded.step (.unregister "plain")).past =
      later ++ (registered.scene, .create "plain") :: registered.past := rfl
  have stable := handles_are_stable reached split (.created answers.1)
  exact ⟨_, _, _, _, reached, split, rfl, .created answers.1, goesOn, stable.1 goesOn⟩

end Overlay
