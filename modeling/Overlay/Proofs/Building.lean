import Overlay.Manager
import Overlay.Proofs.Table

/-! How a build changes the bench, said once for each of its steps. Resolving writes calls into the
journal and nothing else on the bench. Linking either leaves every stage and every program of the
device as they were, or adds one linked program under a handle that was never issued before; the
stages made on the way are gone in both cases. Installing, releasing and importing delete programs
at most. -/
namespace Overlay

/-- Answers of calls that can fail are compared by what they say. -/
instance decEqAnswer {ε α : Type} [DecidableEq ε] [DecidableEq α] : DecidableEq (Except ε α)
  | .ok one, .ok other => decidable_of_iff (one = other) ⟨congrArg Except.ok, Except.ok.inj⟩
  | .error one, .error other =>
    decidable_of_iff (one = other) ⟨congrArg Except.error, Except.error.inj⟩
  | .ok _, .error _ => isFalse nofun
  | .error _, .ok _ => isFalse nofun

/-- The bench after calls, with the device that they leave. -/
def Bench.afterCalls (bench : Bench) (calls : List Call) (gpu : Gpu) : Bench :=
  { bench with gpu, journal := bench.journal ++ calls }

/-- The device with one more linked program, whose handle is the last one issued. -/
def Gpu.gaining (gpu : Gpu) (program : Gpu.Handle) : Gpu :=
  { gpu with
    issued := program
    programs := gpu.programs.insert program ⟨.vertex, .fragment, true⟩ }

/-- Handles that have not been issued are not in use. -/
structure Gpu.Fresh (gpu : Gpu) : Prop where
  stages {handle : Gpu.Handle} : gpu.issued < handle → gpu.stages.get? handle = none
  programs {handle : Gpu.Handle} : gpu.issued < handle → gpu.programs.get? handle = none

namespace Bench

@[simp] theorem afterCalls_gpu (bench : Bench) (calls : List Call) (gpu : Gpu) :
    (bench.afterCalls calls gpu).gpu = gpu := rfl

@[simp] theorem afterCalls_afterCalls (bench : Bench) (first second : List Call)
    (between gpu : Gpu) :
    (bench.afterCalls first between).afterCalls second gpu =
      bench.afterCalls (first ++ second) gpu := by
  simp [afterCalls]

/-- A stage is refused and nothing happens, or it gets the next handle. -/
theorem createStage_cases (bench : Bench) (stage : Stage) (source : String) :
    (∃ fault, bench.createStage stage source =
      (.error fault, bench.afterCalls [.createStage stage] bench.gpu)) ∨
    bench.createStage stage source =
      (.ok (bench.gpu.issued + 1),
        bench.afterCalls [.createStage stage]
          { bench.gpu with
            issued := bench.gpu.issued + 1
            stages := bench.gpu.stages.insert (bench.gpu.issued + 1) stage }) := by
  unfold createStage
  dsimp only
  split
  · exact .inl ⟨_, rfl⟩
  · unfold Gpu.createStage
    cases checked : Gpu.checkStructure source with
    | error fault => exact .inl ⟨_, rfl⟩
    | ok _ => exact .inr rfl

/-- A program of two live stages is refused and nothing happens, or it gets the next handle. -/
theorem createProgram_cases {bench : Bench} {vertex fragment : Gpu.Handle} {first second : Stage}
    (vertexLives : bench.gpu.stages.get? vertex = some first)
    (fragmentLives : bench.gpu.stages.get? fragment = some second) :
    (∃ fault, bench.createProgram vertex fragment =
      (.error fault, bench.afterCalls [.createProgram vertex fragment] bench.gpu)) ∨
    bench.createProgram vertex fragment =
      (.ok (bench.gpu.issued + 1),
        bench.afterCalls [.createProgram vertex fragment]
          { bench.gpu with
            issued := bench.gpu.issued + 1
            programs := bench.gpu.programs.insert (bench.gpu.issued + 1)
              ⟨first, second, false⟩ }) := by
  unfold createProgram
  dsimp only
  split
  · exact .inl ⟨_, rfl⟩
  · right
    simp [Gpu.createProgram, note, afterCalls, vertexLives, fragmentLives]

/-- A program of a vertex and a fragment stage is refused and nothing happens, or it is linked. -/
theorem link_cases (bench : Bench) (handle : Gpu.Handle) {linked : Bool}
    (lives : bench.gpu.programs.get? handle = some ⟨.vertex, .fragment, linked⟩) :
    (∃ fault, bench.link handle = (.error fault, bench.afterCalls [.link handle] bench.gpu)) ∨
    bench.link handle =
      (.ok (),
        bench.afterCalls [.link handle]
          { bench.gpu with
            programs := bench.gpu.programs.insert handle ⟨.vertex, .fragment, true⟩ }) := by
  unfold link
  dsimp only
  split
  · exact .inl ⟨_, rfl⟩
  · right
    simp [Gpu.link, note, afterCalls, lives]

theorem deleteStage_eq (bench : Bench) (handle : Gpu.Handle) :
    bench.deleteStage handle =
      bench.afterCalls [.deleteStage handle] (bench.gpu.deleteStage handle) := rfl

theorem deleteProgram_eq (bench : Bench) (handle : Gpu.Handle) :
    bench.deleteProgram handle =
      bench.afterCalls [.deleteProgram handle] (bench.gpu.deleteProgram handle) := rfl

end Bench

/-- What linking comes to: a refusal, or one new linked program. Handles may be spent either way. -/
inductive Links (bench : Bench) {ε : Type} : Except ε Gpu.Handle × Bench → Prop where
  | refused (error : ε) (calls : List Call) (issued : Nat) (spent : bench.gpu.issued ≤ issued) :
    Links bench (.error error, bench.afterCalls calls { bench.gpu with issued })
  | linked (program : Gpu.Handle) (calls : List Call) (new : bench.gpu.issued < program) :
    Links bench (.ok program, bench.afterCalls calls (bench.gpu.gaining program))

/-- What is left of a bench when programs were deleted and nothing else was done. -/
def Bench.Sheds (before after : Bench) : Prop :=
  ∃ calls programs, after = before.afterCalls calls { before.gpu with programs }

namespace Bench.Sheds
variable {before between after : Bench}

theorem refl (bench : Bench) : bench.Sheds bench :=
  ⟨[], bench.gpu.programs, by simp [afterCalls]⟩

theorem trans (first : before.Sheds between) (second : between.Sheds after) :
    before.Sheds after := by
  obtain ⟨early, _, rfl⟩ := first
  obtain ⟨late, programs, rfl⟩ := second
  exact ⟨early ++ late, programs, by simp⟩

theorem compiler (sheds : before.Sheds after) : after.compiler = before.compiler := by
  obtain ⟨calls, programs, rfl⟩ := sheds
  rfl

theorem issued (sheds : before.Sheds after) : after.gpu.issued = before.gpu.issued := by
  obtain ⟨calls, programs, rfl⟩ := sheds
  rfl

end Bench.Sheds

/-- Creating a stage uses no handle that is issued later. -/
theorem Gpu.Fresh.withStage {gpu : Gpu} (fresh : gpu.Fresh) (stage : Stage) :
    Gpu.Fresh { gpu with
      issued := gpu.issued + 1
      stages := gpu.stages.insert (gpu.issued + 1) stage } where
  stages := by
    intro handle later
    dsimp only at later ⊢
    rw [Table.get?_insert_of_ne _ _ (by omega)]
    exact fresh.stages (by omega)
  programs := by
    intro handle later
    dsimp only at later ⊢
    exact fresh.programs (by omega)

namespace Manager

theorem joinStages_links {bench : Bench} {vertex fragment : Gpu.Handle}
    (fresh : bench.gpu.Fresh) (vertexLives : bench.gpu.stages.get? vertex = some .vertex)
    (fragmentLives : bench.gpu.stages.get? fragment = some .fragment) :
    Links bench (joinStages bench vertex fragment) := by
  have unused := fresh.programs (Nat.lt_succ_self bench.gpu.issued)
  unfold joinStages
  rcases Bench.createProgram_cases vertexLives fragmentLives with ⟨fault, refused⟩ | created
  · rw [refused]
    exact .refused fault _ _ (Nat.le_refl _)
  rw [created]
  dsimp only
  rcases Bench.link_cases (bench.afterCalls [.createProgram vertex fragment]
      { bench.gpu with
        issued := bench.gpu.issued + 1
        programs := bench.gpu.programs.insert (bench.gpu.issued + 1) ⟨.vertex, .fragment, false⟩ })
      (bench.gpu.issued + 1) (Table.get?_insert_self _ _ _) with ⟨fault, refused⟩ | linked
  · rw [refused]
    dsimp only
    rw [Bench.deleteProgram_eq, Bench.afterCalls_afterCalls, Bench.afterCalls_afterCalls]
    simp only [Bench.afterCalls_gpu, Gpu.deleteProgram, Table.erase_insert_of_absent unused]
    exact .refused fault _ _ (Nat.le_succ _)
  · rw [linked]
    dsimp only
    rw [Bench.afterCalls_afterCalls]
    simp only [Bench.afterCalls_gpu, Table.insert_insert]
    exact .linked _ _ (Nat.lt_succ_self _)

/-- Joining two new stages and deleting them is linking on the bench before they were made. -/
theorem links_of_staged {bench staged : Bench} {vertex fragment : Gpu.Handle} (name : String)
    {calls : List Call} {issued : Nat} {stages : Table Nat Stage}
    (spent : bench.gpu.issued ≤ issued)
    (made : staged = bench.afterCalls calls { bench.gpu with issued, stages })
    (restored : (stages.erase vertex).erase fragment = bench.gpu.stages)
    {joined : Except Gpu.Fault Gpu.Handle × Bench} (links : Links staged joined) :
    let left := (joined.2.deleteStage vertex).deleteStage fragment
    Links bench (match joined.1 with
      | .ok program => (.ok program, left)
      | .error fault => (.error (ProgramError.link name fault), left)) := by
  subst made
  cases links with
  | refused fault more issued' spentMore =>
    simp only [Bench.deleteStage_eq, Bench.afterCalls_afterCalls, Bench.afterCalls_gpu,
      Gpu.deleteStage, restored] at spentMore ⊢
    exact .refused _ _ issued' (Nat.le_trans spent spentMore)
  | linked program more new =>
    simp only [Bench.deleteStage_eq, Bench.afterCalls_afterCalls, Bench.afterCalls_gpu,
      Gpu.deleteStage, Gpu.gaining, restored] at new ⊢
    exact .linked program _ (Nat.lt_of_le_of_lt spent new)

/-- Linking makes one program or none, and leaves no stage behind. -/
theorem linkSources_links {bench : Bench} (fresh : bench.gpu.Fresh) (sources : ResolvedSources) :
    Links bench (linkSources bench sources) := by
  have unused := fresh.stages (Nat.lt_succ_self bench.gpu.issued)
  have unusedNext : bench.gpu.stages.get? (bench.gpu.issued + 1 + 1) = none :=
    fresh.stages (by omega)
  have apart : bench.gpu.issued + 1 ≠ bench.gpu.issued + 1 + 1 := by omega
  unfold linkSources
  rcases bench.createStage_cases .vertex sources.vertex with ⟨fault, refused⟩ | created
  · rw [refused]
    exact .refused _ _ _ (Nat.le_refl _)
  rw [created]
  dsimp only
  generalize firstEq : bench.afterCalls [.createStage .vertex] _ = first
  rcases first.createStage_cases .fragment sources.fragment with ⟨fault, refused⟩ | created
  · rw [refused]
    dsimp only
    subst first
    simp only [Bench.deleteStage_eq, Bench.afterCalls_afterCalls, Bench.afterCalls_gpu,
      Gpu.deleteStage, Table.erase_insert_of_absent unused]
    exact .refused _ _ _ (Nat.le_succ _)
  rw [created]
  subst first
  dsimp only [Bench.afterCalls_gpu]
  rw [Bench.afterCalls_afterCalls]
  generalize made : bench.afterCalls _ _ = staged
  have stagedFresh : staged.gpu.Fresh := by
    rw [← made]
    exact (fresh.withStage .vertex).withStage .fragment
  have vertexLives : staged.gpu.stages.get? (bench.gpu.issued + 1) = some .vertex := by
    rw [← made, Bench.afterCalls_gpu, Table.get?_insert_of_ne _ _ apart, Table.get?_insert_self]
  have fragmentLives : staged.gpu.stages.get? (bench.gpu.issued + 1 + 1) = some .fragment := by
    rw [← made, Bench.afterCalls_gpu, Table.get?_insert_self]
  have joins := joinStages_links stagedFresh vertexLives fragmentLives
  exact links_of_staged sources.name (Nat.le_add_right _ 2) made.symm
    (Table.erase_insert_pair apart unused unusedNext _ _) joins

/-! ### Deleting programs -/

theorem deleteLive_sheds (bench : Bench) (program : Gpu.Handle) :
    bench.Sheds (deleteLive bench program) := by
  unfold deleteLive
  split
  · exact ⟨[.deleteProgram program], bench.gpu.programs.erase program, rfl⟩
  · exact .refl bench

theorem foldl_deleteLive_sheds (handles : List Gpu.Handle) (bench : Bench) :
    bench.Sheds (handles.foldl deleteLive bench) := by
  induction handles generalizing bench with
  | nil => exact .refl bench
  | cons handle rest ih => exact (deleteLive_sheds bench handle).trans (ih _)

theorem install_sheds (manager : Manager) (name : String) (built : BuiltProgram) :
    manager.bench.Sheds (manager.install name built).bench := by
  unfold install
  dsimp only
  split
  · split
    · exact .refl _
    · exact deleteLive_sheds _ _
  · exact .refl _

theorem release_sheds (manager : Manager) (name : String) :
    manager.bench.Sheds (manager.release name).bench := by
  unfold release
  split
  · exact deleteLive_sheds _ _
  · exact .refl _

theorem loadExternal_sheds (manager : Manager) (disk : Disk) (reference : Reference) :
    manager.bench.Sheds (manager.loadExternal disk reference).2.bench := by
  unfold loadExternal
  split
  · exact .refl _
  · exact release_sheds _ _

theorem removeExternal_sheds (manager : Manager) (name : String) :
    manager.bench.Sheds (manager.removeExternal name).2.bench := by
  unfold removeExternal
  split
  · exact release_sheds _ _
  · exact .refl _

theorem cleanup_issued (manager : Manager) :
    manager.cleanup.bench.gpu.issued = manager.bench.gpu.issued := by
  have deleted := (foldl_deleteLive_sheds (manager.programs.values.map (·.program))
    manager.bench).issued
  rw [cleanup]
  dsimp only
  split
  · exact deleted
  · exact deleted

/-! ### Preparing and resolving -/

/-- The manager as a build uses it: a compiler that is released is started first. -/
def prepared (manager : Manager) : Manager :=
  if manager.compilerState = .released then manager.startCompiler else manager

/-- Starting the compiler changes nothing but the compiler. -/
theorem startCompiler_kept (manager : Manager) :
    manager.startCompiler.programs = manager.programs ∧
    manager.startCompiler.registry = manager.registry ∧
    manager.startCompiler.bench.gpu = manager.bench.gpu ∧
    manager.startCompiler.bench.refusals = manager.bench.refusals ∧
    manager.startCompiler.bench.compiler.translate = manager.bench.compiler.translate := by
  cases down : manager.bench.refusals.compilerDown with
  | true => simp [startCompiler, Bench.startCompiler, Bench.note, down]
  | false => simp [startCompiler, Bench.startCompiler, Bench.note, Compiler.start, down]

theorem prepared_kept (manager : Manager) :
    manager.prepared.programs = manager.programs ∧
    manager.prepared.registry = manager.registry ∧
    manager.prepared.bench.gpu = manager.bench.gpu ∧
    manager.prepared.bench.refusals = manager.bench.refusals ∧
    manager.prepared.bench.compiler.translate = manager.bench.compiler.translate := by
  unfold prepared
  split
  · exact manager.startCompiler_kept
  · exact ⟨rfl, rfl, rfl, rfl, rfl⟩

@[simp] theorem prepared_programs (manager : Manager) :
    manager.prepared.programs = manager.programs := manager.prepared_kept.1

@[simp] theorem prepared_registry (manager : Manager) :
    manager.prepared.registry = manager.registry := manager.prepared_kept.2.1

@[simp] theorem prepared_gpu (manager : Manager) :
    manager.prepared.bench.gpu = manager.bench.gpu := manager.prepared_kept.2.2.1

@[simp] theorem prepared_translate (manager : Manager) :
    manager.prepared.bench.compiler.translate = manager.bench.compiler.translate :=
  manager.prepared_kept.2.2.2.2

theorem prepared_fragmentSource (manager : Manager) (disk : Disk) (name : String) :
    manager.prepared.fragmentSource disk name = manager.fragmentSource disk name := by
  unfold fragmentSource
  rw [prepared_registry]

/-- Which programs are installed makes no difference to starting the compiler. -/
theorem prepared_withPrograms (manager : Manager) (programs : Table String BuiltProgram) :
    { manager with programs }.prepared = { manager.prepared with programs } := by
  unfold prepared
  dsimp only
  split <;> rfl

section Cached
variable {σ : Type} [Store σ]

/-- What becomes of the text of a fragment. -/
inductive Compiles (manager : Manager) (cache : Cache σ) (now : Millis) (source : String) :
    (String × Compilation) × Manager × Cache σ → Prop where
  | hit {text : String} {after : Cache σ}
    (found : cache.lookup now .fragment source = (some text, after)) :
    Compiles manager cache now source ((text, .cacheHit), manager, after)
  | compiled {text : String} {after : Cache σ}
    (missed : cache.lookup now .fragment source = (none, after))
    (ready : manager.compilerState = .ready)
    (accepted : (manager.bench.compile source .fragment).1 = .ok text) :
    Compiles manager cache now source
      ((text, .compiled), { manager with bench := manager.bench.note (.compile .fragment) },
        after.record now .fragment source text)
  | refused {error : CompileError} {after : Cache σ}
    (missed : cache.lookup now .fragment source = (none, after))
    (ready : manager.compilerState = .ready)
    (refused : (manager.bench.compile source .fragment).1 = .error error) :
    Compiles manager cache now source
      ((source, .uncompiled), { manager with bench := manager.bench.note (.compile .fragment) },
        after)
  | unasked {after : Cache σ}
    (missed : cache.lookup now .fragment source = (none, after))
    (idle : manager.compilerState ≠ .ready) :
    Compiles manager cache now source ((source, .uncompiled), manager, after)

theorem compileFragment_compiles (manager : Manager) (cache : Cache σ) (now : Millis)
    (source : String) :
    Compiles manager cache now source (manager.compileFragment cache now source) := by
  unfold compileFragment
  rcases found : cache.lookup now .fragment source with ⟨_ | text, after⟩
  · dsimp only
    split
    · rename_i ready
      unfold Bench.compile
      dsimp only
      split
      · rename_i accepted
        injection accepted with accepted journal
        subst journal
        exact .compiled found ready accepted
      · rename_i refused
        injection refused with refused journal
        subst journal
        exact .refused found ready refused
    · exact .unasked found ‹_›
  · exact .hit found

/-- Compiling leaves the cache as the lookup does, or the text was missed and is recorded. -/
theorem compileFragment_cache (manager : Manager) (cache : Cache σ) (now : Millis)
    (source : String) :
    let looked := cache.lookup now .fragment source
    (manager.compileFragment cache now source).2.2 = looked.2 ∨
      ∃ text, looked.1 = none ∧ (manager.bench.compile source .fragment).1 = .ok text ∧
        (manager.compileFragment cache now source).2.2 =
          looked.2.record now .fragment source text := by
  have outcome := compileFragment_compiles manager cache now source
  generalize manager.compileFragment cache now source = answer at outcome ⊢
  cases outcome with
  | hit found =>
    rw [found]
    exact .inl rfl
  | compiled missed ready accepted =>
    rw [missed]
    exact .inr ⟨_, rfl, accepted, rfl⟩
  | refused missed =>
    rw [missed]
    exact .inl rfl
  | unasked missed =>
    rw [missed]
    exact .inl rfl

/-- What the cache has is not compiled. -/
theorem compileFragment_of_found (manager : Manager) {cache after : Cache σ} {now : Millis}
    {source text : String} (found : cache.lookup now .fragment source = (some text, after)) :
    manager.compileFragment cache now source = ((text, .cacheHit), manager, after) := by
  rw [compileFragment, found]

/-- What was compiled had been missed, and is recorded. -/
theorem compileFragment_compiled {manager : Manager} {cache : Cache σ} {now : Millis}
    {source : String} (compiled : (manager.compileFragment cache now source).1.2 = .compiled) :
    (manager.compileFragment cache now source).2.2 =
      (cache.lookup now .fragment source).2.record now .fragment source
        (manager.compileFragment cache now source).1.1 := by
  have outcome := compileFragment_compiles manager cache now source
  generalize manager.compileFragment cache now source = answer at outcome compiled ⊢
  cases outcome with
  | hit => cases compiled
  | compiled missed => rw [missed]
  | refused => cases compiled
  | unasked => cases compiled

/-- What is missed is compiled when the compiler is ready and accepts it. -/
theorem compileFragment_of_missed {manager : Manager} {cache after : Cache σ} {now : Millis}
    {source text : String} (missed : cache.lookup now .fragment source = (none, after))
    (ready : manager.compilerState = .ready)
    (accepted : (manager.bench.compile source .fragment).1 = .ok text) :
    (manager.compileFragment cache now source).1 = (text, .compiled) := by
  have outcome := compileFragment_compiles manager cache now source
  generalize manager.compileFragment cache now source = answer at outcome ⊢
  cases outcome with
  | hit found =>
    rw [missed] at found
    cases found
  | compiled _ _ accepts =>
    rw [accepted] at accepts
    cases accepts
    rfl
  | refused _ _ refuses =>
    rw [accepted] at refuses
    cases refuses
  | unasked _ idle => exact absurd ready idle

/-- Resolving is handing the text that a name means to the cache and the compiler. -/
theorem resolve_eq (manager : Manager) (cache : Cache σ) (disk : Disk) (now : Millis)
    (name : String) :
    let meaning := manager.fragmentSource disk name
    let answer := manager.compileFragment cache now meaning.1
    manager.resolve cache disk now name =
      (⟨name, manager.vertexSource name, answer.1.1, meaning.2, answer.1.2⟩, answer.2) := rfl

theorem resolve_compiled {manager : Manager} {cache : Cache σ} {disk : Disk} {now : Millis}
    {name : String}
    (compiled : (manager.resolve cache disk now name).1.compilation = .compiled) :
    (manager.resolve cache disk now name).2.2 =
      (cache.lookup now .fragment (manager.fragmentSource disk name).1).2.record now .fragment
        (manager.fragmentSource disk name).1 (manager.resolve cache disk now name).1.fragment :=
  compileFragment_compiled compiled

/-- Resolving calls the compiler at most, and changes nothing else of the manager. -/
theorem resolve_manager (manager : Manager) (cache : Cache σ) (disk : Disk) (now : Millis)
    (name : String) :
    ∃ calls, (manager.resolve cache disk now name).2.1 =
      { manager with bench := manager.bench.afterCalls calls manager.bench.gpu } := by
  have unchanged : manager =
      { manager with bench := manager.bench.afterCalls [] manager.bench.gpu } := by
    simp [Bench.afterCalls]
  rw [resolve_eq]
  dsimp only
  have outcome := compileFragment_compiles manager cache now (manager.fragmentSource disk name).1
  generalize manager.compileFragment cache now (manager.fragmentSource disk name).1 = answer
    at outcome ⊢
  cases outcome with
  | hit found => exact ⟨[], unchanged⟩
  | compiled missed ready accepted => exact ⟨[.compile .fragment], rfl⟩
  | refused missed ready refused => exact ⟨[.compile .fragment], rfl⟩
  | unasked missed idle => exact ⟨[], unchanged⟩

theorem compileFragment_withPrograms (manager : Manager) (programs : Table String BuiltProgram)
    (cache : Cache σ) (now : Millis) (source : String) :
    let answer := manager.compileFragment cache now source
    { manager with programs }.compileFragment cache now source =
      (answer.1, { answer.2.1 with programs }, answer.2.2) := by
  dsimp only
  unfold compileFragment
  rcases cache.lookup now .fragment source with ⟨_ | text, after⟩
  · dsimp only
    split
    · generalize manager.bench.compile source .fragment = answer
      rcases answer with ⟨_ | text, bench⟩ <;> rfl
    · rfl
  · rfl

/-- Which programs are installed makes no difference to what a name resolves to. -/
theorem resolve_withPrograms (manager : Manager) (programs : Table String BuiltProgram)
    (cache : Cache σ) (disk : Disk) (now : Millis) (name : String) :
    let answer := manager.resolve cache disk now name
    { manager with programs }.resolve cache disk now name =
      (answer.1, { answer.2.1 with programs }, answer.2.2) := by
  have same := compileFragment_withPrograms manager programs cache now
    (manager.fragmentSource disk name).1
  exact congrArg (fun answer : (String × Compilation) × Manager × Cache σ =>
    ((⟨name, manager.vertexSource name, answer.1.1, (manager.fragmentSource disk name).2,
      answer.1.2⟩ : ResolvedSources), answer.2)) same

/-- What a build comes to: either way the cache is as resolving leaves it. -/
inductive Builds (manager : Manager) (cache : Cache σ) (disk : Disk) (now : Millis)
    (name : String) : Except ProgramError BuiltProgram × Manager × Cache σ → Prop where
  | refused (error : ProgramError) (calls : List Call) (issued : Nat)
    (spent : manager.bench.gpu.issued ≤ issued) :
    Builds manager cache disk now name
      (.error error,
        { manager.prepared with
          bench := manager.prepared.bench.afterCalls calls { manager.bench.gpu with issued } },
        (manager.prepared.resolve cache disk now name).2.2)
  | installed (built : BuiltProgram) (calls : List Call)
    (new : manager.bench.gpu.issued < built.program) :
    Builds manager cache disk now name
      (.ok built,
        { manager.prepared with
          bench := manager.prepared.bench.afterCalls calls
            (manager.bench.gpu.gaining built.program) }.install name built,
        (manager.prepared.resolve cache disk now name).2.2)

/-- A build resolves, links what that gives, and installs the program if there is one. -/
theorem build_eq (manager : Manager) (cache : Cache σ) (disk : Disk) (now : Millis)
    (name : String) :
    manager.build cache disk now name =
      let (sources, resolved, after) := manager.prepared.resolve cache disk now name
      match linkSources resolved.bench sources with
      | (.error error, bench) => (.error error, { resolved with bench }, after)
      | (.ok program, bench) =>
        let built : BuiltProgram := ⟨program, sources.origin, sources.compilation⟩
        (.ok built, { resolved with bench }.install name built, after) := rfl

/-- A build answers as linking the texts that it resolved does. -/
theorem build_answer (manager : Manager) (cache : Cache σ) (disk : Disk) (now : Millis)
    (name : String) :
    let (sources, resolved, _) := manager.prepared.resolve cache disk now name
    (manager.build cache disk now name).1 =
      (linkSources resolved.bench sources).1.map (⟨·, sources.origin, sources.compilation⟩) := by
  rw [build_eq]
  dsimp only
  split <;> rename_i linked <;> rw [linked] <;> rfl

/-- A build leaves the cache as resolving does, whether or not it succeeds. -/
theorem build_cache (manager : Manager) (cache : Cache σ) (disk : Disk) (now : Millis)
    (name : String) :
    (manager.build cache disk now name).2.2 =
      (manager.prepared.resolve cache disk now name).2.2 := by
  rw [build_eq]
  dsimp only
  split
  · rfl
  · rfl

theorem build_builds {manager : Manager} (fresh : manager.bench.gpu.Fresh) (cache : Cache σ)
    (disk : Disk) (now : Millis) (name : String) :
    Builds manager cache disk now name (manager.build cache disk now name) := by
  rw [build_eq]
  obtain ⟨calls, resolves⟩ := manager.prepared.resolve_manager cache disk now name
  have freshNow : Gpu.Fresh (manager.prepared.bench.afterCalls calls
      manager.prepared.bench.gpu).gpu := by
    rw [Bench.afterCalls_gpu, prepared_gpu]
    exact fresh
  rcases answer : manager.prepared.resolve cache disk now name with ⟨sources, resolved, after⟩
  have left : after = (manager.prepared.resolve cache disk now name).2.2 := by rw [answer]
  rw [answer] at resolves
  dsimp only at resolves ⊢
  subst resolves
  have links := linkSources_links freshNow sources
  dsimp only
  generalize linkSources _ sources = linked at links ⊢
  cases links with
  | refused error more issued spent =>
    rw [left]
    simp only [Bench.afterCalls_afterCalls, Bench.afterCalls_gpu, prepared_gpu] at spent ⊢
    exact .refused error (calls ++ more) issued spent
  | linked program more new =>
    rw [left]
    simp only [Bench.afterCalls_afterCalls, Bench.afterCalls_gpu, prepared_gpu] at new ⊢
    exact .installed ⟨program, sources.origin, sources.compilation⟩ (calls ++ more) new

/-- Creating answers with the program that lives, or builds a new one in place of a dead one. -/
theorem createProgram_cases (manager : Manager) (cache : Cache σ) (disk : Disk) (now : Millis)
    (name : String) :
    (∃ built, manager.programs.get? name = some built ∧
      manager.bench.isProgram built.program = true ∧
      manager.createProgram cache disk now name = (.ok built, manager, cache)) ∨
    (∀ built, manager.programs.get? name = some built →
      manager.bench.isProgram built.program = false) ∧
    manager.createProgram cache disk now name =
      { manager with programs := manager.programs.erase name }.build cache disk now name := by
  unfold createProgram
  cases found : manager.programs.get? name with
  | none =>
    right
    constructor
    · intro built held
      cases held
    · rw [Table.erase_of_absent found]
  | some built =>
    by_cases lives : manager.bench.isProgram built.program = true
    · exact .inl ⟨built, rfl, lives, by simp [lives]⟩
    · right
      constructor
      · intro other held
        injection held with same
        rw [← same]
        exact Bool.eq_false_iff.mpr lives
      · simp [lives]

end Cached
end Manager
end Overlay
