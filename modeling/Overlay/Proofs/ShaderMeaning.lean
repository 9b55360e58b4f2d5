import Overlay.Proofs.CacheContents
import Overlay.Proofs.CacheKeys
import Overlay.Proofs.CacheRuns
import Overlay.Proofs.ProgramAccounts

/-! The cache never changes what a shader means. Where the compiler succeeds it makes a function of
the source, and whatever was done to the cache meanwhile, a fragment that is said to be compiled is
that function of the text its name means at the moment. What carries this is that every entry of
either tier lies under the fragment key of some source that was resolved, and holds what the
function makes of that source; entries are dropped, promoted and lost, but never mixed up. -/
namespace Overlay

/-- Where the compiler accepts a fragment, it makes this function of it. -/
def Compiler.Means (compiler : Compiler) (meaning : String → String) : Prop :=
  ∀ source text, compiler.translate source .fragment = .ok text → text = meaning source

/-- What an accepted compilation gives. -/
theorem Compiler.Means.of_compile {bench : Bench} {meaning : String → String}
    (means : bench.compiler.Means meaning) {source text : String}
    (accepted : (bench.compile source .fragment).1 = .ok text) : text = meaning source := by
  unfold Bench.compile Compiler.compile at accepted
  dsimp only at accepted
  split at accepted
  · cases accepted
  · split at accepted
    · exact means source text accepted
    · cases accepted

/-- The compiler built in normalises what it accepts. -/
theorem passthrough_means : Compiler.Means {} normalise := by
  intro source text accepted
  change passthrough source .fragment = .ok text at accepted
  unfold passthrough at accepted
  split at accepted
  · cases accepted
  · cases accepted
    rfl

section Entries
variable {σ : Type} [Store σ] [LawfulStore σ] {meaning : String → String}

/-- An entry is what one of the sources means, under the key of that source. -/
def Meant (meaning : String → String) (sources : List String) (key : String)
    (artifact : Artifact) : Prop :=
  ∃ source ∈ sources, key = cacheKey .fragment source ∧ artifact.compiledSource = meaning source

theorem Meant.mono {fewer more : List String} (subset : fewer ⊆ more) {key : String}
    {artifact : Artifact} (meant : Meant meaning fewer key artifact) :
    Meant meaning more key artifact := by
  obtain ⟨source, member, rest⟩ := meant
  exact ⟨source, subset member, rest⟩

/-- Compiling a source adds at most an entry for that source. -/
theorem holds_compileFragment {manager : Manager} {cache : Cache σ} {sources : List String}
    (means : manager.bench.compiler.Means meaning) (holds : cache.Holds (Meant meaning sources))
    (now : Millis) (source : String) :
    (manager.compileFragment cache now source).2.2.Holds (Meant meaning (source :: sources)) := by
  have wider : cache.Holds (Meant meaning (source :: sources)) :=
    holds.mono fun _ _ => Meant.mono (List.subset_cons_self _ _)
  have looked := wider.lookup now .fragment source
  rcases manager.compileFragment_cache cache now source with same | ⟨text, -, accepted, recorded⟩
  · rw [same]
    exact looked
  · rw [recorded]
    exact looked.record ⟨source, List.mem_cons_self, rfl, means.of_compile accepted⟩

/-- Sources tell entries apart, so what a lookup serves is what the source means. -/
theorem served_means {cache : Cache σ} {sources : List String} {now : Millis}
    {source compiled : String} (holds : cache.Holds (Meant meaning sources))
    (apart : Apart (source :: sources))
    (served : (cache.lookup now .fragment source).1 = some compiled) :
    compiled = meaning source := by
  obtain ⟨artifact, ⟨other, member, sameKey, text⟩, rfl, _⟩ := holds.served served
  have sameHash := (cacheKey_eq_iff.mp sameKey).2
  obtain rfl := apart source List.mem_cons_self other (List.mem_cons_of_mem _ member) sameHash
  exact text

theorem holds_resolve {manager : Manager} {cache : Cache σ} {sources : List String}
    (means : manager.bench.compiler.Means meaning) (holds : cache.Holds (Meant meaning sources))
    (disk : Disk) (now : Millis) (name : String) :
    (manager.resolve cache disk now name).2.2.Holds
      (Meant meaning ((manager.fragmentSource disk name).1 :: sources)) :=
  holds_compileFragment means holds now (manager.fragmentSource disk name).1

theorem prepared_means {manager : Manager} (means : manager.bench.compiler.Means meaning) :
    manager.prepared.bench.compiler.Means meaning := by
  unfold Compiler.Means
  rw [Manager.prepared_translate]
  exact means

theorem holds_build {manager : Manager} {cache : Cache σ} {sources : List String}
    (means : manager.bench.compiler.Means meaning) (holds : cache.Holds (Meant meaning sources))
    (disk : Disk) (now : Millis) (name : String) :
    (manager.build cache disk now name).2.2.Holds
      (Meant meaning ((manager.fragmentSource disk name).1 :: sources)) := by
  rw [Manager.build_cache, ← Manager.prepared_fragmentSource]
  exact holds_resolve (prepared_means means) holds disk now name

end Entries

/-! ### The compiler of a manager stays the same -/

namespace Manager

theorem cleanup_translate (manager : Manager) :
    manager.cleanup.bench.compiler.translate = manager.bench.compiler.translate := by
  have sheds := foldl_deleteLive_sheds (manager.programs.values.map (·.program)) manager.bench
  have kept := congrArg Compiler.translate sheds.compiler
  unfold cleanup
  dsimp only
  split
  · exact kept
  · exact kept

variable {σ : Type} [Store σ]

theorem build_translate {manager : Manager} (fresh : manager.bench.gpu.Fresh) (cache : Cache σ)
    (disk : Disk) (now : Millis) (name : String) :
    (manager.build cache disk now name).2.1.bench.compiler.translate =
      manager.bench.compiler.translate := by
  have outcome := build_builds fresh cache disk now name
  generalize manager.build cache disk now name = answer at outcome ⊢
  cases outcome with
  | refused error calls issued spent => exact manager.prepared_translate
  | installed built calls new =>
    dsimp only
    rw [(install_sheds _ name built).compiler]
    exact manager.prepared_translate

theorem createProgram_translate {manager : Manager} (fresh : manager.bench.gpu.Fresh)
    (cache : Cache σ) (disk : Disk) (now : Millis) (name : String) :
    (manager.createProgram cache disk now name).2.1.bench.compiler.translate =
      manager.bench.compiler.translate := by
  rcases manager.createProgram_cases cache disk now name with
    ⟨built, held, lives, answer⟩ | ⟨dead, answer⟩
  · rw [answer]
  · rw [answer]
    have freshToo :
        { manager with programs := manager.programs.erase name }.bench.gpu.Fresh := fresh
    exact build_translate freshToo cache disk now name

theorem resolve_translate (manager : Manager) (cache : Cache σ) (disk : Disk) (now : Millis)
    (name : String) :
    (manager.resolve cache disk now name).2.1.bench.compiler.translate =
      manager.bench.compiler.translate := by
  obtain ⟨calls, answer⟩ := manager.resolve_manager cache disk now name
  rw [answer]
  rfl

end Manager

/-- What a compiler makes of a text never changes; only whether it may be asked does. -/
theorem translate_after {σ : Type} [Store σ] {scene : Scene σ}
    (fresh : scene.manager.bench.gpu.Fresh) (event : ManagerEvent σ) :
    (scene.after event).manager.bench.compiler.translate =
      scene.manager.bench.compiler.translate := by
  cases event with
  | create name => exact Manager.createProgram_translate fresh _ _ _ name
  | reload name => exact Manager.build_translate fresh _ _ _ name
  | resolve name => exact Manager.resolve_translate _ _ _ _ name
  | load reference =>
    exact congrArg Compiler.translate (Manager.loadExternal_sheds _ _ reference).compiler
  | remove name => exact congrArg Compiler.translate (Manager.removeExternal_sheds _ name).compiler
  | cleanup => exact Manager.cleanup_translate _
  | _ => rfl

section Runs
open LawfulStore (held)
variable {σ : Type}

/-- The text that an event hands to the cache and the compiler, if it does: a program that lives is
answered with as it is. -/
def ManagerEvent.source? (scene : Scene σ) : ManagerEvent σ → Option String
  | .create name =>
    if (scene.manager.program? name).any (scene.manager.bench.isProgram ·.program) then none
    else some (scene.manager.fragmentSource scene.disk name).1
  | .reload name => some (scene.manager.fragmentSource scene.disk name).1
  | .resolve name => some (scene.manager.fragmentSource scene.disk name).1
  | .elsewhere other name => some (other.fragmentSource scene.disk name).1
  | _ => none

/-- The texts that were resolved in a run. -/
def resolvedSources : List (Scene σ × ManagerEvent σ) → List String
  | [] => []
  | (scene, event) :: past => (event.source? scene).toList ++ resolvedSources past

theorem source?_create_of_dead {scene : Scene σ} {name : String}
    (dead : ∀ built, scene.manager.programs.get? name = some built →
      scene.manager.bench.isProgram built.program = false) :
    (ManagerEvent.create name).source? scene =
      some (scene.manager.fragmentSource scene.disk name).1 := by
  have lacking :
      (scene.manager.program? name).any (scene.manager.bench.isProgram ·.program) = false := by
    unfold Manager.program?
    cases found : scene.manager.programs.get? name with
    | none => rfl
    | some built => exact dead built found
  exact if_neg (Bool.eq_false_iff.mp lacking)

variable [Store σ] [LawfulStore σ]

/-- A run begins with a new manager whose compiler has this meaning, and a cache opened over a store
that holds nothing. -/
def BeginsEmpty (meaning : String → String) (run : ManagerRun σ) : Prop :=
  ∃ bench policy store disk now, run = ManagerRun.opened bench policy store disk now ∧
    bench.gpu = {} ∧ bench.compiler.Means meaning ∧ ∀ key, held store key = none

/-- The cache is written by managers whose compilers have this meaning, and by nobody else: a store
that takes the place of another brings along no artifact of its own. -/
def WrittenBy (meaning : String → String) (run : ManagerRun σ) : ManagerEvent σ → Prop
  | .elsewhere other _ => other.bench.compiler.Means meaning
  | .disturb store => ∀ key content artifact, held store key = some content →
    Artifact.decode? content = some artifact →
    ∃ before, held run.scene.cache.store key = some before ∧
      Artifact.decode? before = some artifact
  | _ => True

/-- Every event keeps every entry the meaning of a source that was resolved. -/
theorem holds_after {meaning : String → String} {run : ManagerRun σ} {event : ManagerEvent σ}
    (means : run.scene.manager.bench.compiler.Means meaning)
    (holds : run.scene.cache.Holds (Meant meaning (resolvedSources run.past)))
    (allowed : WrittenBy meaning run event) :
    (run.scene.after event).cache.Holds
      (Meant meaning (resolvedSources (run.step event).past)) := by
  cases event with
  | create name =>
    change (Manager.createProgram _ _ _ _ name).2.2.Holds (Meant meaning
      (((ManagerEvent.create name).source? run.scene).toList ++ resolvedSources run.past))
    rcases run.scene.manager.createProgram_cases run.scene.cache run.scene.disk run.scene.now name
      with ⟨built, installed, lives, answer⟩ | ⟨dead, answer⟩
    · rw [answer]
      exact holds.mono fun _ _ => Meant.mono (List.subset_append_right _ _)
    · rw [answer, source?_create_of_dead dead]
      have meansToo : Compiler.Means { run.scene.manager with
        programs := run.scene.manager.programs.erase name }.bench.compiler meaning := means
      exact holds_build meansToo holds _ _ name
  | reload name => exact holds_build means holds _ _ name
  | resolve name => exact holds_resolve means holds _ _ name
  | elsewhere other name => exact holds_resolve allowed holds _ _ name
  | clearCache => exact holds.clear
  | evict => exact holds.evict _
  | reopen policy => exact holds.reopen policy _
  | disturb store =>
    refine ⟨holds.memory, ?_⟩
    intro key content artifact found read
    obtain ⟨before, foundBefore, readBefore⟩ := allowed key content artifact found read
    exact holds.store foundBefore readBefore
  | _ => exact holds

/-- In every state that is reached the compiler means what it meant, and so does every entry. -/
theorem meaning_of_reached {meaning : String → String} {run : ManagerRun σ}
    (reached : Reached ManagerRun.step (WrittenBy meaning) (BeginsEmpty meaning) run) :
    run.scene.manager.bench.compiler.Means meaning ∧
    run.scene.cache.Holds (Meant meaning (resolvedSources run.past)) := by
  induction reached with
  | start initially =>
    obtain ⟨bench, policy, store, disk, now, rfl, blank, means, empty⟩ := initially
    constructor
    · obtain ⟨-, -, -, -, translate⟩ := Manager.startCompiler_kept { bench }
      intro source text accepted
      refine means source text ?_
      rw [← accepted]
      exact congrArg (· source .fragment) translate.symm
    · exact (Cache.holds_empty empty).evict now
  | @step run event before allowed ih =>
    obtain ⟨means, holds⟩ := ih
    have fresh : run.scene.manager.bench.gpu.Fresh := by
      refine (accounts_of_reached (before.mono ?_ ?_)).fresh
      · intro _ _ _
        trivial
      · rintro _ ⟨bench, policy, store, disk, now, rfl, blank, _⟩
        exact ⟨rfl, bench, blank, rfl⟩
    refine ⟨?_, holds_after means holds allowed⟩
    change Compiler.Means (run.scene.after event).manager.bench.compiler meaning
    unfold Compiler.Means
    rw [translate_after fresh event]
    exact means

/-- What a manager may say of the text that it resolved for a source. -/
structure Faithful (meaning : String → String) (manager : Manager) (source : String)
    (resolved : ResolvedSources) : Prop where
  compiled : resolved.compilation = .cacheHit ∨ resolved.compilation = .compiled →
    resolved.fragment = meaning source
  uncompiled : resolved.compilation = .uncompiled →
    resolved.fragment = source ∧ (manager.compilerState ≠ .ready ∨
      ∃ error, (manager.bench.compile source .fragment).1 = .error error)

theorem faithful_resolve {meaning : String → String} {manager : Manager} {cache : Cache σ}
    {sources : List String} {disk : Disk} {now : Millis} {name : String}
    (means : manager.bench.compiler.Means meaning) (holds : cache.Holds (Meant meaning sources))
    (apart : Apart ((manager.fragmentSource disk name).1 :: sources)) :
    Faithful meaning manager (manager.fragmentSource disk name).1
      (manager.resolve cache disk now name).1 := by
  rw [Manager.resolve_eq]
  dsimp only
  generalize (manager.fragmentSource disk name).1 = source at apart ⊢
  have outcome := Manager.compileFragment_compiles manager cache now source
  generalize manager.compileFragment cache now source = answer at outcome ⊢
  cases outcome with
  | hit found =>
    have served := served_means holds apart (congrArg Prod.fst found)
    exact ⟨fun _ => served, by intro said; cases said⟩
  | compiled missed ready accepted =>
    exact ⟨fun _ => means.of_compile accepted, by intro said; cases said⟩
  | refused missed ready refused =>
    refine ⟨?_, fun _ => ⟨rfl, .inr ⟨_, refused⟩⟩⟩
    rintro (said | said) <;> cases said
  | unasked missed idle =>
    refine ⟨?_, fun _ => ⟨rfl, .inl idle⟩⟩
    rintro (said | said) <;> cases said

end Runs

/-- Whatever happened to the cache, a name resolves to what the compiler makes of the text it means,
or to that text itself when the compiler could not be asked or refused it just now. -/
theorem cache_keeps_meaning {σ : Type} [Store σ] [LawfulStore σ] {meaning : String → String}
    {run : ManagerRun σ}
    (reached : Reached ManagerRun.step (WrittenBy meaning) (BeginsEmpty meaning) run)
    {asked : Manager}
    (asks : asked = run.scene.manager ∨ asked = run.scene.manager.prepared ∨
      asked.bench.compiler.Means meaning)
    (name : String)
    (apart : Apart ((asked.fragmentSource run.scene.disk name).1 :: resolvedSources run.past)) :
    Faithful meaning asked (asked.fragmentSource run.scene.disk name).1
      (asked.resolve run.scene.cache run.scene.disk run.scene.now name).1 := by
  obtain ⟨means, holds⟩ := meaning_of_reached reached
  have asksMeaning : asked.bench.compiler.Means meaning := by
    rcases asks with rfl | rfl | means'
    · exact means
    · exact prepared_means means
    · exact means'
  exact faithful_resolve asksMeaning holds apart

/-- While nothing can be written, one name is resolved and recorded in memory; after the clock was
set back another name for the same text is answered from there with the normalised text. -/
theorem cache_keeps_meaning_under_other_name :
    ∃ run : ManagerRun (FaultyStore MemoryStore),
      Reached ManagerRun.step (WrittenBy normalise) (BeginsEmpty normalise) run ∧
      (run.scene.manager.fragmentSource run.scene.disk "other").1 = "main " ∧
      Apart ("main " :: resolvedSources run.past) ∧
      let resolved :=
        (run.scene.manager.resolve run.scene.cache run.scene.disk run.scene.now "other").1
      resolved.compilation = .cacheHit ∧ resolved.fragment = normalise "main " := by
  have begins : Reached ManagerRun.step (WrittenBy normalise) (BeginsEmpty normalise)
      (ManagerRun.opened {} {} (⟨{}, []⟩ : FaultyStore MemoryStore) {} 5) :=
    .start ⟨{}, {}, ⟨{}, []⟩, {}, 5, rfl, rfl, passthrough_means, fun _ => rfl⟩
  have imported := begins.step
    (ManagerEvent.register ⟨"one", .inMemory {} "one", .direct ["main "]⟩) trivial
  have named := imported.step
    (ManagerEvent.register ⟨"other", .inMemory {} "other", .direct ["main "]⟩) trivial
  have failing := named.step (ManagerEvent.disturb ⟨{}, [.put]⟩) (by
    intro key content artifact found
    cases found)
  have resolved := failing.step (ManagerEvent.resolve "one") trivial
  have earlier := resolved.step (ManagerEvent.clock 3) trivial
  have apart : Apart ["main ", "main "] := by
    unfold Apart
    decide +kernel
  have faithful := cache_keeps_meaning earlier (.inl rfl) "other" (apart.mono (by decide +kernel))
  refine ⟨_, earlier, by decide +kernel, apart.mono (by decide +kernel), ?hit,
    faithful.compiled (.inl ?hit)⟩
  decide +kernel

end Overlay
