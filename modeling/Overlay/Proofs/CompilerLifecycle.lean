import Overlay.Proofs.ProgramTable
import Overlay.Store.Memory

/-! The life of the compiler, read off the calls made on it. A manager starts it once when it is
made, and again at the first build after a clean-up; it is asked for a text only while it runs, and
stopped only if it runs. What the manager remembers of its compiler carries the argument: `ready`
means that the latest start succeeded and nothing but texts followed it, and `released` means that
no build came after the latest clean-up. Starting may fail each time, and so may compiling. -/
namespace Overlay

/-- The calls that the compiler sees. -/
def Call.onCompiler : Call → Bool
  | .startCompiler _ | .compile _ | .stopCompiler => true
  | _ => false

/-- Of calls that are none of its, the compiler sees nothing. -/
theorem unseen_calls {calls : List Call} (other : ∀ call ∈ calls, call.onCompiler = false) :
    calls.filter Call.onCompiler = [] :=
  List.filter_eq_nil_iff.mpr fun call member => by simp [other call member]

/-- What the compiler has seen so far, the latest call last. -/
def Bench.compilerLog (bench : Bench) : List Call :=
  bench.journal.filter Call.onCompiler

/-- By its calls, the compiler runs: its latest start succeeded, and since then it was only asked
for texts. -/
def Runs (log : List Call) : Prop :=
  ∃ before since, log = before ++ .startCompiler true :: since ∧
    ∀ call ∈ since, ∃ stage, call = .compile stage

theorem runs_started (log : List Call) : Runs (log ++ [.startCompiler true]) :=
  ⟨log, [], rfl, List.forall_mem_nil _⟩

theorem Runs.asked {log : List Call} (runs : Runs log) (stage : Stage) :
    Runs (log ++ [.compile stage]) := by
  obtain ⟨before, since, rfl, texts⟩ := runs
  refine ⟨before, since ++ [.compile stage], by simp, ?_⟩
  intro call member
  rcases List.mem_append.mp member with member | member
  · exact texts call member
  · exact ⟨stage, List.mem_singleton.mp member⟩

/-- A call that is made only on a compiler that runs. -/
def Call.Needs (call : Call) : Prop :=
  (∃ stage, call = .compile stage) ∨ call = .stopCompiler

/-- Whatever needs the compiler to run was called while it ran. -/
def Orderly (log : List Call) : Prop :=
  ∀ before call after, log = before ++ call :: after → call.Needs → Runs before

theorem orderly_nil : Orderly [] := by
  intro before call after split
  exact absurd split.symm (List.append_ne_nil_of_right_ne_nil _ (List.cons_ne_nil _ _))

/-- One more call keeps the order if the compiler runs or the call does not need it to. -/
theorem Orderly.called {log : List Call} (orderly : Orderly log) {call : Call}
    (allowed : call.Needs → Runs log) : Orderly (log ++ [call]) := by
  intro before other after split needs
  rcases List.eq_nil_or_concat after with rfl | ⟨rest, latest, rfl⟩
  · obtain ⟨rfl, same⟩ := List.append_inj' split rfl
    obtain rfl := List.singleton_inj.mp same
    exact allowed needs
  · rw [List.concat_eq_append, ← List.cons_append, ← List.append_assoc] at split
    obtain ⟨same, -⟩ := List.append_inj' split rfl
    exact orderly before other rest same needs

/-- Starting does not need the compiler to run. -/
theorem Orderly.started {log : List Call} (orderly : Orderly log) (up : Bool) :
    Orderly (log ++ [.startCompiler up]) := by
  apply orderly.called
  rintro (⟨stage, isText⟩ | isStop)
  · cases isText
  · cases isStop

/-! ### Calls on the device alone -/

/-- A bench after further calls, of which the compiler has seen none. -/
def Bench.WorksOn (before after : Bench) : Prop :=
  ∃ calls, after.journal = before.journal ++ calls ∧ ∀ call ∈ calls, call.onCompiler = false

namespace Bench.WorksOn
variable {before between after : Bench}

theorem refl (bench : Bench) : bench.WorksOn bench :=
  ⟨[], (List.append_nil _).symm, List.forall_mem_nil _⟩

theorem trans (first : before.WorksOn between) (second : between.WorksOn after) :
    before.WorksOn after := by
  obtain ⟨early, firstCalls, firstOther⟩ := first
  obtain ⟨late, secondCalls, secondOther⟩ := second
  refine ⟨early ++ late, by rw [secondCalls, firstCalls, List.append_assoc], ?_⟩
  intro call member
  rcases List.mem_append.mp member with member | member
  · exact firstOther call member
  · exact secondOther call member

/-- One call on the device. -/
theorem call (call : Call) (journal : after.journal = before.journal ++ [call])
    (other : call.onCompiler = false) : before.WorksOn after :=
  ⟨[call], journal, List.forall_mem_singleton.mpr other⟩

/-- The compiler does not notice. -/
theorem compilerLog (works : before.WorksOn after) : after.compilerLog = before.compilerLog := by
  obtain ⟨calls, journal, other⟩ := works
  rw [Bench.compilerLog, journal, List.filter_append, unseen_calls other, List.append_nil]
  rfl

end Bench.WorksOn

namespace Bench

theorem createStage_worksOn (bench : Bench) (stage : Stage) (source : String) :
    bench.WorksOn (bench.createStage stage source).2 := by
  apply WorksOn.call (.createStage stage) _ rfl
  unfold createStage
  dsimp only
  split
  · rfl
  · rfl

theorem createProgram_worksOn (bench : Bench) (vertex fragment : Gpu.Handle) :
    bench.WorksOn (bench.createProgram vertex fragment).2 := by
  apply WorksOn.call (.createProgram vertex fragment) _ rfl
  unfold createProgram
  dsimp only
  split
  · rfl
  · rfl

theorem link_worksOn (bench : Bench) (handle : Gpu.Handle) :
    bench.WorksOn (bench.link handle).2 := by
  apply WorksOn.call (.link handle) _ rfl
  unfold link
  dsimp only
  split
  · rfl
  · rfl

theorem deleteStage_worksOn (bench : Bench) (handle : Gpu.Handle) :
    bench.WorksOn (bench.deleteStage handle) :=
  .call (.deleteStage handle) rfl rfl

theorem deleteProgram_worksOn (bench : Bench) (handle : Gpu.Handle) :
    bench.WorksOn (bench.deleteProgram handle) :=
  .call (.deleteProgram handle) rfl rfl

end Bench

namespace Manager

theorem joinStages_worksOn (bench : Bench) (vertex fragment : Gpu.Handle) :
    bench.WorksOn (joinStages bench vertex fragment).2 := by
  have created := bench.createProgram_worksOn vertex fragment
  unfold joinStages
  split
  · rename_i refused
    rw [refused] at created
    exact created
  rename_i program joined answer
  rw [answer] at created
  have linked := joined.link_worksOn program
  split
  · rename_i answer
    rw [answer] at linked
    exact created.trans linked
  · rename_i answer
    rw [answer] at linked
    exact (created.trans linked).trans (Bench.deleteProgram_worksOn _ program)

/-- Linking does not concern the compiler, however far it gets. -/
theorem linkSources_worksOn (bench : Bench) (sources : ResolvedSources) :
    bench.WorksOn (linkSources bench sources).2 := by
  have vertexMade := bench.createStage_worksOn .vertex sources.vertex
  unfold linkSources
  split
  · rename_i refused
    rw [refused] at vertexMade
    exact vertexMade
  rename_i vertex first answer
  rw [answer] at vertexMade
  have fragmentMade := first.createStage_worksOn .fragment sources.fragment
  split
  · rename_i refused
    rw [refused] at fragmentMade
    exact (vertexMade.trans fragmentMade).trans (Bench.deleteStage_worksOn _ vertex)
  rename_i fragment second answer
  rw [answer] at fragmentMade
  have joined := joinStages_worksOn second vertex fragment
  have left := (((vertexMade.trans fragmentMade).trans joined).trans
    (Bench.deleteStage_worksOn _ vertex)).trans (Bench.deleteStage_worksOn _ fragment)
  dsimp only
  split
  · exact left
  · exact left

theorem deleteLive_worksOn (bench : Bench) (program : Gpu.Handle) :
    bench.WorksOn (deleteLive bench program) := by
  unfold deleteLive
  split
  · exact bench.deleteProgram_worksOn program
  · exact .refl bench

theorem foldl_deleteLive_worksOn (handles : List Gpu.Handle) (bench : Bench) :
    bench.WorksOn (handles.foldl deleteLive bench) := by
  induction handles generalizing bench with
  | nil => exact .refl bench
  | cons handle rest ih => exact (deleteLive_worksOn bench handle).trans (ih _)

theorem install_worksOn (manager : Manager) (name : String) (built : BuiltProgram) :
    manager.bench.WorksOn (manager.install name built).bench := by
  unfold install
  dsimp only
  split
  · split
    · exact .refl _
    · exact deleteLive_worksOn _ _
  · exact .refl _

theorem release_worksOn (manager : Manager) (name : String) :
    manager.bench.WorksOn (manager.release name).bench := by
  unfold release
  split
  · exact deleteLive_worksOn _ _
  · exact .refl _

@[simp] theorem release_compilerState (manager : Manager) (name : String) :
    (manager.release name).compilerState = manager.compilerState := by
  unfold release
  split
  · rfl
  · rfl

theorem loadExternal_worksOn (manager : Manager) (disk : Disk) (reference : Reference) :
    manager.bench.WorksOn (manager.loadExternal disk reference).2.bench ∧
      (manager.loadExternal disk reference).2.compilerState = manager.compilerState := by
  unfold loadExternal
  split
  · exact ⟨.refl _, rfl⟩
  · exact ⟨release_worksOn _ _, release_compilerState _ _⟩

theorem removeExternal_worksOn (manager : Manager) (name : String) :
    manager.bench.WorksOn (manager.removeExternal name).2.bench ∧
      (manager.removeExternal name).2.compilerState = manager.compilerState := by
  unfold removeExternal
  split
  · exact ⟨release_worksOn _ _, release_compilerState _ _⟩
  · exact ⟨.refl _, rfl⟩

/-! ### Asking for texts, and starting -/

/-- A step of a manager that asks the compiler for one text at most, and only if it is ready. -/
structure Consults (before after : Manager) (texts : List Call) : Prop where
  state : after.compilerState = before.compilerState
  journal : ∃ calls, after.bench.journal = before.bench.journal ++ calls ∧
    calls.filter Call.onCompiler = texts
  texts : texts = [] ∨ before.compilerState = .ready ∧ texts = [.compile .fragment]

/-- Work on the device does not add to what a manager asks. -/
theorem Consults.then_works {before between after : Manager} {texts : List Call}
    (consults : Consults before between texts) (works : between.bench.WorksOn after.bench)
    (state : after.compilerState = between.compilerState) : Consults before after texts where
  state := state.trans consults.state
  journal := by
    obtain ⟨early, first, asked⟩ := consults.journal
    obtain ⟨late, second, other⟩ := works
    refine ⟨early ++ late, by rw [second, first, List.append_assoc], ?_⟩
    rw [List.filter_append, asked, unseen_calls other, List.append_nil]
  texts := consults.texts

theorem Consults.compilerLog {before after : Manager} {texts : List Call}
    (consults : Consults before after texts) :
    after.bench.compilerLog = before.bench.compilerLog ++ texts := by
  obtain ⟨calls, journal, asked⟩ := consults.journal
  rw [Bench.compilerLog, journal, List.filter_append, asked]
  rfl

section Cached
variable {σ : Type} [Store σ]

theorem resolve_consults (manager : Manager) (cache : Cache σ) (disk : Disk) (now : Millis)
    (name : String) :
    ∃ texts, Consults manager (manager.resolve cache disk now name).2.1 texts := by
  have unasked : Consults manager manager [] := ⟨rfl, ⟨[], by simp, rfl⟩, .inl rfl⟩
  have asked (ready : manager.compilerState = .ready) :
      Consults manager { manager with bench := manager.bench.note (.compile .fragment) }
        [.compile .fragment] :=
    ⟨rfl, ⟨[.compile .fragment], rfl, rfl⟩, .inr ⟨ready, rfl⟩⟩
  rw [resolve_eq]
  dsimp only
  have outcome := compileFragment_compiles manager cache now (manager.fragmentSource disk name).1
  generalize manager.compileFragment cache now (manager.fragmentSource disk name).1 = answer
    at outcome ⊢
  cases outcome with
  | hit found => exact ⟨_, unasked⟩
  | compiled missed ready accepted => exact ⟨_, asked ready⟩
  | refused missed ready refused => exact ⟨_, asked ready⟩
  | unasked missed idle => exact ⟨_, unasked⟩

/-- Once the compiler is prepared, a build asks it for what resolving asks, and no more. -/
theorem build_consults (manager : Manager) (cache : Cache σ) (disk : Disk) (now : Millis)
    (name : String) :
    ∃ texts, Consults manager.prepared (manager.build cache disk now name).2.1 texts := by
  obtain ⟨texts, resolves⟩ := manager.prepared.resolve_consults cache disk now name
  refine ⟨texts, ?_⟩
  rw [build_eq]
  generalize manager.prepared.resolve cache disk now name = answer at resolves ⊢
  obtain ⟨sources, resolved, after⟩ := answer
  have linking := linkSources_worksOn resolved.bench sources
  dsimp only at resolves ⊢
  split
  · rename_i refused
    rw [refused] at linking
    exact resolves.then_works linking rfl
  · rename_i program bench linked
    rw [linked] at linking
    exact resolves.then_works (linking.trans (install_worksOn { resolved with bench } name _)) rfl

end Cached

/-- Whether the compiler can be started now. -/
def starts (manager : Manager) : Bool :=
  !manager.bench.refusals.compilerDown

/-- Starting is one call, and the manager remembers how it went. -/
theorem startCompiler_calls (manager : Manager) :
    manager.startCompiler.bench.journal =
      manager.bench.journal ++ [.startCompiler manager.starts] ∧
    manager.startCompiler.compilerState = if manager.starts then .ready else .unavailable := by
  unfold startCompiler Bench.startCompiler starts
  cases manager.bench.refusals.compilerDown with
  | true => exact ⟨rfl, rfl⟩
  | false => exact ⟨rfl, rfl⟩

theorem prepared_of_released {manager : Manager} (released : manager.compilerState = .released) :
    manager.prepared = manager.startCompiler := if_pos released

theorem prepared_of_engaged {manager : Manager} (engaged : manager.compilerState ≠ .released) :
    manager.prepared = manager := if_neg engaged

/-- A clean-up stops the compiler if it is ready; else the compiler does not notice it. -/
theorem cleanup_compilerLog (manager : Manager) :
    manager.cleanup.bench.compilerLog = manager.bench.compilerLog ++
      if manager.compilerState = .ready then [.stopCompiler] else [] := by
  have deleted := foldl_deleteLive_worksOn (manager.programs.values.map (·.program)) manager.bench
  unfold cleanup
  dsimp only
  split
  · rw [← deleted.compilerLog]
    simp [Bench.stopCompiler, Bench.note, Bench.compilerLog, Call.onCompiler]
  · rw [deleted.compilerLog, List.append_nil]

end Manager

/-! ### What an event does to the compiler -/

section Events
variable {σ : Type}

/-- A program of the name is built: it is asked for while none lives, or whatever lives. -/
def ManagerEvent.Builds (scene : Scene σ) (name : String) : ManagerEvent σ → Prop
  | .create other => other = name ∧ scene.manager.Lacks name
  | .reload other => other = name
  | _ => False

/-- The ways an event goes for the compiler: its calls, and what the manager knows afterwards. -/
inductive Engages (scene : Scene σ) (event : ManagerEvent σ) :
    List Call → CompilerState → Prop where
  | goesOn {texts : List Call} (noCleanup : event ≠ .cleanup)
    (noStart : (∃ name, event.Builds scene name) → scene.manager.compilerState ≠ .released)
    (asks : texts = [] ∨ scene.manager.compilerState = .ready ∧ texts = [.compile .fragment]) :
    Engages scene event texts scene.manager.compilerState
  | starts {texts : List Call} (builds : ∃ name, event.Builds scene name)
    (released : scene.manager.compilerState = .released) (up : Bool)
    (asks : texts = [] ∨ up = true ∧ texts = [.compile .fragment]) :
    Engages scene event (.startCompiler up :: texts) (if up then .ready else .unavailable)
  | stops (isCleanup : event = .cleanup) (ready : scene.manager.compilerState = .ready) :
    Engages scene event [.stopCompiler] .released
  | letGo (isCleanup : event = .cleanup) (idle : scene.manager.compilerState ≠ .ready) :
    Engages scene event [] .released

section Outcomes
variable {scene : Scene σ} {event : ManagerEvent σ} {calls log : List Call}
  {state : CompilerState}

/-- However an event goes, the order is kept, and a compiler that is ready afterwards runs. -/
theorem Engages.orderly (engages : Engages scene event calls state) (orderly : Orderly log)
    (runs : scene.manager.compilerState = .ready → Runs log) :
    Orderly (log ++ calls) ∧ (state = .ready → Runs (log ++ calls)) := by
  cases engages with
  | goesOn noCleanup noStart asks =>
    rcases asks with rfl | ⟨ready, rfl⟩
    · rw [List.append_nil]
      exact ⟨orderly, runs⟩
    · exact ⟨orderly.called fun _ => runs ready, fun _ => (runs ready).asked .fragment⟩
  | @starts texts builds released up asks =>
    have started := orderly.started up
    rw [List.append_cons]
    rcases asks with rfl | ⟨rfl, rfl⟩
    · rw [List.append_nil]
      refine ⟨started, fun ready => ?_⟩
      cases up with
      | true => exact runs_started log
      | false => cases ready
    · exact ⟨started.called fun _ => runs_started log, fun _ => (runs_started log).asked .fragment⟩
  | stops isCleanup ready => exact ⟨orderly.called fun _ => runs ready, nofun⟩
  | letGo isCleanup idle =>
    rw [List.append_nil]
    exact ⟨orderly, nofun⟩

/-- The compiler is started by a build that finds it released, and by nothing else. -/
theorem Engages.starts_iff (engages : Engages scene event calls state) :
    (∃ up, .startCompiler up ∈ calls) ↔
      (∃ name, event.Builds scene name) ∧ scene.manager.compilerState = .released := by
  cases engages with
  | goesOn noCleanup noStart asks =>
    refine ⟨?_, fun ⟨builds, released⟩ => absurd released (noStart builds)⟩
    rintro ⟨up, member⟩
    rcases asks with rfl | ⟨-, rfl⟩
    · cases member
    · cases List.mem_singleton.mp member
  | starts builds released up asks =>
    exact ⟨fun _ => ⟨builds, released⟩, fun _ => ⟨up, List.mem_cons_self⟩⟩
  | stops isCleanup ready =>
    constructor
    · rintro ⟨up, member⟩
      cases List.mem_singleton.mp member
    · rintro ⟨-, released⟩
      rw [ready] at released
      cases released
  | letGo isCleanup idle =>
    constructor
    · rintro ⟨up, member⟩
      cases member
    · rintro ⟨⟨name, builds⟩, -⟩
      rw [isCleanup] at builds
      exact absurd builds id

/-- An event leaves the compiler released if it is a clean-up, or found it so and does not build. -/
theorem Engages.released_iff (engages : Engages scene event calls state) :
    state = .released ↔ event = .cleanup ∨
      (¬ ∃ name, event.Builds scene name) ∧ scene.manager.compilerState = .released := by
  cases engages with
  | goesOn noCleanup noStart asks =>
    constructor
    · exact fun released => .inr ⟨fun builds => noStart builds released, released⟩
    · rintro (isCleanup | ⟨-, released⟩)
      · exact absurd isCleanup noCleanup
      · exact released
  | starts builds released up asks =>
    constructor
    · intro again
      cases up with
      | true => cases again
      | false => cases again
    · rintro (rfl | ⟨noBuild, -⟩)
      · obtain ⟨name, builds⟩ := builds
        exact absurd builds id
      · exact absurd builds noBuild
  | stops isCleanup ready => exact ⟨fun _ => .inl isCleanup, fun _ => rfl⟩
  | letGo isCleanup idle => exact ⟨fun _ => .inl isCleanup, fun _ => rfl⟩

end Outcomes

variable [Store σ]

/-- The calls on the compiler during an event. -/
def ManagerEvent.compilerCalls (event : ManagerEvent σ) (scene : Scene σ) : List Call :=
  (scene.after event).manager.bench.compilerLog.drop scene.manager.bench.compilerLog.length

/-- A building event is a build on a table that may have lost the dead entry of the name. -/
theorem ManagerEvent.Builds.after {scene : Scene σ} {event : ManagerEvent σ} {name : String}
    (builds : event.Builds scene name) :
    ∃ programs, scene.after event = scene.handing
      ({ scene.manager with programs }.build scene.cache scene.disk scene.now name) := by
  cases event with
  | create other =>
    obtain ⟨rfl, lacks⟩ := builds
    exact ⟨_, congrArg scene.handing (Manager.createProgram_of_lacks _ _ _ lacks)⟩
  | reload other =>
    obtain rfl := builds
    exact ⟨scene.manager.programs, rfl⟩
  | _ => exact absurd builds id

/-- What a building event asks the compiler once it is prepared. -/
theorem ManagerEvent.Builds.consults {scene : Scene σ} {event : ManagerEvent σ} {name : String}
    (builds : event.Builds scene name) :
    ∃ texts, scene.manager.prepared.Consults (scene.after event).manager texts := by
  obtain ⟨programs, after⟩ := builds.after
  obtain ⟨texts, state, journal, asks⟩ := { scene.manager with programs }.build_consults
    scene.cache scene.disk scene.now name
  rw [Manager.prepared_withPrograms] at state journal asks
  rw [after]
  exact ⟨texts, state, journal, asks⟩

/-- The journal of an event that finds the compiler released and builds. -/
theorem ManagerEvent.Builds.journal {scene : Scene σ} {event : ManagerEvent σ} {name : String}
    (builds : event.Builds scene name) (released : scene.manager.compilerState = .released) :
    ∃ rest, (scene.after event).manager.bench.journal =
        scene.manager.bench.journal ++ .startCompiler scene.manager.starts :: rest ∧
      (rest.filter Call.onCompiler = [] ∨
        scene.manager.starts = true ∧ rest.filter Call.onCompiler = [.compile .fragment]) := by
  obtain ⟨texts, state, ⟨rest, journal, asked⟩, asks⟩ := builds.consults
  rw [Manager.prepared_of_released released] at state journal asks
  obtain ⟨first, knows⟩ := scene.manager.startCompiler_calls
  refine ⟨rest, by rw [journal, first, List.append_assoc]; rfl, ?_⟩
  rw [asked]
  refine asks.imp_right fun ⟨ready, isText⟩ => ⟨?_, isText⟩
  rw [knows] at ready
  split at ready
  · assumption
  · cases ready

theorem engages_of_builds {scene : Scene σ} {event : ManagerEvent σ} {name : String}
    (builds : event.Builds scene name) :
    ∃ calls, (scene.after event).manager.bench.compilerLog =
        scene.manager.bench.compilerLog ++ calls ∧
      Engages scene event calls (scene.after event).manager.compilerState := by
  have noCleanup : event ≠ .cleanup := by
    rintro rfl
    exact builds
  obtain ⟨texts, consults⟩ := builds.consults
  by_cases released : scene.manager.compilerState = .released
  · obtain ⟨rest, journal, asks⟩ := builds.journal released
    refine ⟨.startCompiler scene.manager.starts :: rest.filter Call.onCompiler, ?_, ?_⟩
    · rw [Bench.compilerLog, journal, List.filter_append]
      rfl
    · rw [consults.state, Manager.prepared_of_released released,
        scene.manager.startCompiler_calls.2]
      exact .starts ⟨name, builds⟩ released _ asks
  · rw [Manager.prepared_of_engaged released] at consults
    refine ⟨texts, consults.compilerLog, ?_⟩
    rw [consults.state]
    exact .goesOn noCleanup (fun _ => released) consults.texts

/-- Every event goes in one of these ways. -/
theorem engages_after (scene : Scene σ) (event : ManagerEvent σ) :
    ∃ calls, (scene.after event).manager.bench.compilerLog =
        scene.manager.bench.compilerLog ++ calls ∧
      Engages scene event calls (scene.after event).manager.compilerState := by
  -- An event that leaves the log and what the manager knows of the compiler alone.
  have quiet (noCleanup : event ≠ .cleanup) (noBuild : ¬ ∃ name, event.Builds scene name)
      (log : (scene.after event).manager.bench.compilerLog = scene.manager.bench.compilerLog)
      (state : (scene.after event).manager.compilerState = scene.manager.compilerState) :
      ∃ calls, (scene.after event).manager.bench.compilerLog =
          scene.manager.bench.compilerLog ++ calls ∧
        Engages scene event calls (scene.after event).manager.compilerState := by
    rw [state]
    exact ⟨[], by rw [log, List.append_nil], .goesOn noCleanup (absurd · noBuild) (.inl rfl)⟩
  by_cases builds : ∃ name, event.Builds scene name
  · obtain ⟨name, builds⟩ := builds
    exact engages_of_builds builds
  cases event with
  | create name =>
    rcases scene.manager.createProgram_cases scene.cache scene.disk scene.now name with
      ⟨built, held, lives, answer⟩ | ⟨lacks, -⟩
    · have same : (scene.after (.create name)).manager = scene.manager :=
        congrArg (fun answer : Except ProgramError BuiltProgram × Manager × Cache σ =>
          answer.2.1) answer
      exact quiet nofun builds (by rw [same]) (by rw [same])
    · exact absurd ⟨name, rfl, lacks⟩ builds
  | reload name => exact absurd ⟨name, rfl⟩ builds
  | resolve name =>
    obtain ⟨texts, consults⟩ := scene.manager.resolve_consults scene.cache scene.disk scene.now name
    refine ⟨texts, consults.compilerLog, ?_⟩
    change Engages scene _ texts (Manager.resolve _ _ _ _ name).2.1.compilerState
    rw [consults.state]
    exact .goesOn nofun (absurd · builds) consults.texts
  | load reference =>
    obtain ⟨works, state⟩ := scene.manager.loadExternal_worksOn scene.disk reference
    exact quiet nofun builds works.compilerLog state
  | remove name =>
    obtain ⟨works, state⟩ := scene.manager.removeExternal_worksOn name
    exact quiet nofun builds works.compilerLog state
  | cleanup =>
    refine ⟨_, scene.manager.cleanup_compilerLog, ?_⟩
    split
    · exact .stops rfl ‹_›
    · exact .letGo rfl ‹_›
  | _ => exact quiet nofun builds rfl rfl

/-- The calls of an event are added to the log, and they are as the event goes. -/
theorem compilerCalls_spec (scene : Scene σ) (event : ManagerEvent σ) :
    (scene.after event).manager.bench.compilerLog =
        scene.manager.bench.compilerLog ++ event.compilerCalls scene ∧
      Engages scene event (event.compilerCalls scene)
        (scene.after event).manager.compilerState := by
  obtain ⟨calls, log, engages⟩ := engages_after scene event
  have same : event.compilerCalls scene = calls := by
    rw [ManagerEvent.compilerCalls, log, List.drop_left]
  rw [same]
  exact ⟨log, engages⟩

end Events

/-! ### Runs -/

section Runs
variable {σ : Type}

/-- There was a clean-up, and no build after it. -/
def CleanedUp (past : List (Scene σ × ManagerEvent σ)) : Prop :=
  ∃ between scene before, past = between ++ (scene, .cleanup) :: before ∧
    ∀ moment ∈ between, ∀ name, ¬ moment.2.Builds moment.1 name

theorem cleanedUp_cons {scene : Scene σ} {event : ManagerEvent σ}
    {past : List (Scene σ × ManagerEvent σ)} :
    CleanedUp ((scene, event) :: past) ↔
      event = .cleanup ∨ (¬ ∃ name, event.Builds scene name) ∧ CleanedUp past := by
  constructor
  · rintro ⟨between, met, before, split, spared⟩
    cases between with
    | nil =>
      cases split
      exact .inl rfl
    | cons moment between =>
      obtain ⟨rfl, rest⟩ := List.cons.inj split
      refine .inr ⟨?_, between, met, before, rest, fun moment member => ?_⟩
      · exact not_exists.mpr (spared (scene, event) List.mem_cons_self)
      · exact spared moment (List.mem_cons_of_mem _ member)
  · rintro (rfl | ⟨noBuild, between, met, before, rfl, spared⟩)
    · exact ⟨[], scene, past, rfl, List.forall_mem_nil _⟩
    · refine ⟨(scene, event) :: between, met, before, rfl, ?_⟩
      exact List.forall_mem_cons.mpr ⟨not_exists.mp noBuild, spared⟩

variable [Store σ]

/-- A run begins with a new manager, whose compiler has not been called yet. -/
def WithUnusedCompiler (run : ManagerRun σ) : Prop :=
  run.past = [] ∧ ∃ bench : Bench, bench.compilerLog = [] ∧ run.scene.manager = Manager.create bench

/-- What the manager knows of its compiler against the calls on it and the events of the run. -/
structure InOrder (run : ManagerRun σ) : Prop where
  orderly : Orderly run.scene.manager.bench.compilerLog
  ready : run.scene.manager.compilerState = .ready → Runs run.scene.manager.bench.compilerLog
  released : run.scene.manager.compilerState = .released ↔ CleanedUp run.past
  /-- It knew as much at every moment before. -/
  before {later earlier : List (Scene σ × ManagerEvent σ)} {scene : Scene σ}
    {event : ManagerEvent σ} : run.past = later ++ (scene, event) :: earlier →
      (scene.manager.compilerState = .released ↔ CleanedUp earlier)
  /-- Apart from the first start, each call belongs to an event. -/
  calls : ∃ up, run.scene.manager.bench.compilerLog =
    .startCompiler up :: run.past.reverse.flatMap fun moment => moment.2.compilerCalls moment.1

theorem inOrder_begins {run : ManagerRun σ} (begins : WithUnusedCompiler run) : InOrder run := by
  obtain ⟨fresh, bench, unused, created⟩ := begins
  obtain ⟨journal, knows⟩ := Manager.startCompiler_calls { bench }
  have state : run.scene.manager.compilerState =
      if Manager.starts { bench } then .ready else .unavailable := by
    rw [created]
    exact knows
  have log : run.scene.manager.bench.compilerLog = [.startCompiler (Manager.starts { bench })] := by
    rw [created, Bench.compilerLog, Manager.create, journal, List.filter_append]
    exact congrArg (· ++ _) unused
  rw [← List.nil_append [_]] at log
  have empty : ¬ CleanedUp run.past := by
    rw [fresh]
    rintro ⟨between, scene, before, split, -⟩
    exact absurd split.symm (List.append_ne_nil_of_right_ne_nil _ (List.cons_ne_nil _ _))
  refine ⟨?_, fun ready => ?_, ⟨fun released => ?_, fun cleaned => absurd cleaned empty⟩,
    fun split => ?_, ⟨_, by rw [log, fresh]; rfl⟩⟩
  · rw [log]
    exact orderly_nil.started _
  · rw [log]
    rw [state] at ready
    split at ready
    · rename_i up
      rw [up]
      exact runs_started []
    · cases ready
  · rw [state] at released
    split at released
    · cases released
    · cases released
  · rw [fresh] at split
    exact absurd split.symm (List.append_ne_nil_of_right_ne_nil _ (List.cons_ne_nil _ _))

theorem inOrder_step {run : ManagerRun σ} (inOrder : InOrder run) (event : ManagerEvent σ) :
    InOrder (run.step event) := by
  obtain ⟨log, engages⟩ := compilerCalls_spec run.scene event
  obtain ⟨orderly, ready⟩ := engages.orderly inOrder.orderly inOrder.ready
  rw [← log] at orderly ready
  refine ⟨orderly, ready, ?_, fun {later earlier scene other} split => ?_, ?_⟩
  · exact engages.released_iff.trans
      ((or_congr_right (and_congr_right fun _ => inOrder.released)).trans cleanedUp_cons.symm)
  · cases later with
    | nil =>
      cases split
      exact inOrder.released
    | cons moment later => exact inOrder.before (List.cons.inj split).2
  · obtain ⟨up, calls⟩ := inOrder.calls
    refine ⟨up, log.trans ?_⟩
    rw [calls]
    simp [ManagerRun.step, List.flatMap_append]

theorem inOrder_of_reached {run : ManagerRun σ}
    (reached : Reached ManagerRun.step Anything WithUnusedCompiler run) : InOrder run := by
  apply reached.invariant
  · exact fun run begins => inOrder_begins begins
  · exact fun run event inOrder _ => inOrder_step inOrder event

/-- An event that starts the compiler, and how it does so: before it calls anything else, once, and
before the name is resolved. -/
structure StartsFirst (scene : Scene σ) (event : ManagerEvent σ) (name : String) : Prop where
  journal : ∃ up rest, (scene.after event).manager.bench.journal =
    scene.manager.bench.journal ++ .startCompiler up :: rest ∧
      ∀ again, .startCompiler again ∉ rest
  cache : (scene.after event).cache =
    (scene.manager.startCompiler.resolve scene.cache scene.disk scene.now name).2.2
  compilation {built : BuiltProgram} : Grants scene event name built → built.compilation =
    (scene.manager.startCompiler.resolve scene.cache scene.disk scene.now name).1.compilation

theorem ManagerEvent.Builds.startsFirst {scene : Scene σ} {event : ManagerEvent σ} {name : String}
    (builds : event.Builds scene name) (released : scene.manager.compilerState = .released) :
    StartsFirst scene event name := by
  refine ⟨?_, ?_, fun {built} granted => ?_⟩
  · obtain ⟨rest, journal, asks⟩ := builds.journal released
    refine ⟨_, rest, journal, fun again member => ?_⟩
    have seen : .startCompiler again ∈ rest.filter Call.onCompiler :=
      List.mem_filter.mpr ⟨member, rfl⟩
    rcases asks with unasked | ⟨-, asked⟩
    · rw [unasked] at seen
      cases seen
    · rw [asked] at seen
      cases List.mem_singleton.mp seen
  · obtain ⟨programs, after⟩ := builds.after
    rw [after]
    change (Manager.build _ _ _ _ name).2.2 = _
    rw [Manager.build_cache, Manager.prepared_withPrograms, Manager.resolve_withPrograms,
      Manager.prepared_of_released released]
  · have produces : Produces scene event name built := by
      refine ⟨granted, ?_⟩
      rintro rfl
      exact builds.2
    obtain ⟨programs, answer⟩ := produces.build
    rw [Manager.build_compilation answer, Manager.prepared_withPrograms,
      Manager.resolve_withPrograms, Manager.prepared_of_released released]

end Runs

/-- In every run of a manager, however starting and compiling go, the compiler is asked for a text
or stopped only while it runs: its latest start succeeded and it was not stopped since. Every call
but the first start belongs to an event of the run, and an event starts the compiler exactly when it
is the first to build after a clean-up. It does so before anything else, so what its name resolves
to is what the started compiler makes of it. Resolving alone never starts the compiler. -/
theorem compiler_is_used_in_order {σ : Type} [Store σ] {run : ManagerRun σ}
    (reached : Reached ManagerRun.step Anything WithUnusedCompiler run) :
    let log := run.scene.manager.bench.compilerLog
    (∀ before stage after, log = before ++ .compile stage :: after → Runs before) ∧
    (∀ before after, log = before ++ .stopCompiler :: after → Runs before) ∧
    (∃ up, log = .startCompiler up ::
      run.past.reverse.flatMap fun moment => moment.2.compilerCalls moment.1) ∧
    ∀ later scene event earlier, run.past = later ++ (scene, event) :: earlier →
      ((∃ up, .startCompiler up ∈ event.compilerCalls scene) ↔
        (∃ name, event.Builds scene name) ∧ CleanedUp earlier) ∧
      (CleanedUp earlier → ∀ name, event.Builds scene name → StartsFirst scene event name) := by
  have inOrder := inOrder_of_reached reached
  refine ⟨?_, ?_, inOrder.calls, ?_⟩
  · intro before stage after split
    exact inOrder.orderly before _ after split (.inl ⟨stage, rfl⟩)
  · intro before after split
    exact inOrder.orderly before _ after split (.inr rfl)
  · intro later scene event earlier split
    have released := inOrder.before split
    refine ⟨?_, fun cleaned name builds => builds.startsFirst (released.mpr cleaned)⟩
    exact (compilerCalls_spec scene event).2.starts_iff.trans (and_congr_right fun _ => released)

/-- The device refuses every program, and the first start fails. The build then goes without the
compiler, and the clean-up after it has nothing to stop; the next build starts it and has its text
compiled. After a clean-up that stops it, resolving leaves it alone, and the next build starts it
again. -/
theorem compiler_is_used_in_order_after_failed_start :
    ∃ run : ManagerRun MemoryStore,
      Reached ManagerRun.step Anything WithUnusedCompiler run ∧
      run.scene.manager.bench.compilerLog =
        [.startCompiler false, .startCompiler true, .compile .fragment, .stopCompiler,
          .startCompiler true] ∧
      Runs [.startCompiler false, .startCompiler true] ∧
      Runs [.startCompiler false, .startCompiler true, .compile .fragment] ∧
      ∃ scene earlier, run.past = (scene, .reload "plain") :: earlier ∧
        StartsFirst scene (.reload "plain") "plain" := by
  have begins : Reached ManagerRun.step Anything WithUnusedCompiler
      (ManagerRun.opened { refusals := { gpu := some .createVertex, compilerDown := true } } {}
        ({} : MemoryStore) {} 0) :=
    .start ⟨rfl, _, rfl, rfl⟩
  have imported := begins.step
    (.register ⟨"plain", .inMemory {} "plain", .direct ["main"]⟩) trivial
  have without := imported.step (ManagerEvent.create "plain") trivial
  have nothingToStop := (without.step .cleanup trivial).step
    (.refuse { gpu := some .createVertex }) trivial
  have compiled := nothingToStop.step (ManagerEvent.create "plain") trivial
  have stopped := (compiled.step .cleanup trivial).step (.resolve "plain") trivial
  have again := stopped.step (ManagerEvent.reload "plain") trivial
  obtain ⟨asked, stops, -, events⟩ := compiler_is_used_in_order again
  refine ⟨_, again, ?log, asked _ .fragment _ ?log, stops _ _ ?log, _, _, rfl, ?first⟩
  case log => decide +kernel
  case first =>
    obtain ⟨-, startsFirst⟩ := events [] _ _ _ rfl
    refine startsFirst ⟨[_], _, _, rfl, ?_⟩ "plain" rfl
    rintro moment member name builds
    obtain rfl := List.mem_singleton.mp member
    exact builds

end Overlay
