import Overlay.Proofs.ProgramTable
import Overlay.Proofs.ShaderMeaning
import Overlay.Proofs.StructuralCheck

/-! What decides whether a name builds. While the device refuses no call, a build succeeds when the
text that its name means passes the structural check, and fails with what the check says of that
text. Neither the compiler nor the cache has a say: what reaches the device is the text itself or
its normal form, and the check tells them apart in nothing. -/
namespace Overlay
open Gpu (checkStructure)

/-- An answer to a build that is the verdict of the structural check on a fragment. -/
structure Decides {α : Type} (name source : String) (answer : Except ProgramError α) : Prop where
  accepts : (∃ made, answer = .ok made) ↔ checkStructure source = .ok ()
  refuses : ∀ fault, checkStructure source = .error fault →
    answer = .error (.stageCompile name .fragment (.compile fault.message))

namespace Decides
variable {α β : Type} {name source : String} {answer : Except ProgramError α}

theorem accepting (passes : checkStructure source = .ok ()) (made : α) :
    Decides name source (.ok made : Except ProgramError α) where
  accepts := ⟨fun _ => passes, fun _ => ⟨made, rfl⟩⟩
  refuses := by
    intro fault fails
    rw [passes] at fails
    cases fails

theorem refusing {fault : Gpu.StructureFault} (fails : checkStructure source = .error fault) :
    Decides name source
      (.error (.stageCompile name .fragment (.compile fault.message)) : Except ProgramError α) where
  accepts := by
    rw [fails]
    constructor
    · rintro ⟨_, made⟩
      cases made
    · intro passes
      cases passes
  refuses := by
    intro other failsToo
    rw [fails] at failsToo
    cases failsToo
    rfl

/-- Texts of which the check says the same are decided alike. -/
theorem of_same {text : String} (decides : Decides name text answer)
    (same : checkStructure text = checkStructure source) : Decides name source answer := by
  obtain ⟨accepts, refuses⟩ := decides
  rw [same] at accepts
  simp only [same] at refuses
  exact ⟨accepts, refuses⟩

theorem map (decides : Decides name source answer) (f : α → β) :
    Decides name source (answer.map f) := by
  cases verdict : checkStructure source with
  | ok _ =>
    obtain ⟨made, rfl⟩ := decides.accepts.mpr verdict
    exact .accepting verdict (f made)
  | error fault =>
    rw [decides.refuses fault verdict]
    exact .refusing verdict

end Decides

/-! ### The device -/

namespace Bench
variable {bench : Bench} {stage : Stage} {source : String}

theorem createStage_of_passes (willing : bench.refusals.gpu = none)
    (passes : checkStructure source = .ok ()) :
    bench.createStage stage source =
      (.ok (bench.gpu.issued + 1),
        bench.afterCalls [.createStage stage]
          { bench.gpu with
            issued := bench.gpu.issued + 1
            stages := bench.gpu.stages.insert (bench.gpu.issued + 1) stage }) := by
  simp [createStage, Gpu.createStage, note, afterCalls, willing, passes]

theorem createStage_of_fails {fault : Gpu.StructureFault} (willing : bench.refusals.gpu = none)
    (fails : checkStructure source = .error fault) :
    bench.createStage stage source =
      (.error (.compile fault.message), bench.note (.createStage stage)) := by
  simp [createStage, Gpu.createStage, note, willing, fails]

end Bench

namespace Manager

/-- A vertex and a fragment stage that live make a program. -/
theorem joinStages_ok {bench : Bench} {vertex fragment : Gpu.Handle}
    (willing : bench.refusals.gpu = none)
    (vertexLives : bench.gpu.stages.get? vertex = some .vertex)
    (fragmentLives : bench.gpu.stages.get? fragment = some .fragment) :
    ∃ program, (joinStages bench vertex fragment).1 = .ok program := by
  refine ⟨bench.gpu.issued + 1, ?_⟩
  simp [joinStages, Bench.createProgram, Bench.link, Bench.note, Gpu.createProgram, Gpu.link,
    willing, vertexLives, fragmentLives]

/-- The vertex text passes, so the fragment decides. -/
theorem linkSources_decides {bench : Bench} (willing : bench.refusals.gpu = none)
    (sources : ResolvedSources) (vertexPasses : checkStructure sources.vertex = .ok ()) :
    Decides sources.name sources.fragment (linkSources bench sources).1 := by
  unfold linkSources
  rw [Bench.createStage_of_passes willing vertexPasses]
  dsimp only
  generalize made : bench.afterCalls [.createStage .vertex] _ = first
  have stillWilling : first.refusals.gpu = none := by
    subst made
    exact willing
  have issued : first.gpu.issued = bench.gpu.issued + 1 := by rw [← made, Bench.afterCalls_gpu]
  have vertexLives : first.gpu.stages.get? (bench.gpu.issued + 1) = some .vertex := by
    rw [← made, Bench.afterCalls_gpu, Table.get?_insert_self]
  cases verdict : checkStructure sources.fragment with
  | error fault =>
    rw [Bench.createStage_of_fails stillWilling verdict]
    exact .refusing verdict
  | ok _ =>
    rw [Bench.createStage_of_passes stillWilling verdict]
    dsimp only
    generalize madeNext : first.afterCalls [.createStage .fragment] _ = second
    have willingToJoin : second.refusals.gpu = none := by
      subst madeNext
      exact stillWilling
    have fragmentLives : second.gpu.stages.get? (first.gpu.issued + 1) = some .fragment := by
      rw [← madeNext, Bench.afterCalls_gpu, Table.get?_insert_self]
    have vertexStillLives : second.gpu.stages.get? (bench.gpu.issued + 1) = some .vertex := by
      rw [← madeNext, Bench.afterCalls_gpu, Table.get?_insert_of_ne _ _ (by omega), vertexLives]
    obtain ⟨program, joined⟩ := joinStages_ok willingToJoin vertexStillLives fragmentLives
    rw [joined]
    exact .accepting verdict program

/-! ### The texts of a build -/

theorem vertexSource_eq (manager : Manager) (name : String) :
    manager.vertexSource name = BuiltinShader.vertexText := by
  have shared : ∀ shader ∈ BuiltinShader.all, shader.vertex = BuiltinShader.vertexText := by
    simp [BuiltinShader.all, BuiltinShader.default]
  unfold vertexSource
  split
  · rfl
  · unfold BuiltinShader.findOrDefault BuiltinShader.find?
    cases found : BuiltinShader.all.find? fun shader => shader.name == name with
    | none => rfl
    | some shader => exact shared shader (List.mem_of_find?_eq_some found)

theorem vertexText_passes : checkStructure BuiltinShader.vertexText = .ok () :=
  Gpu.shipped_texts_pass _ List.mem_cons_self

/-- What ships with the program passes, so nothing but an import can fail to build. -/
theorem passes_of_origin {manager : Manager} {disk : Disk} {name : String}
    (shipped : (manager.fragmentSource disk name).2 ∈ [.builtin, .default, .fallback]) :
    checkStructure (manager.fragmentSource disk name).1 = .ok () := by
  have builtin {shader : BuiltinShader} (member : shader ∈ BuiltinShader.all) :
      checkStructure shader.fragment = .ok () :=
    Gpu.shipped_texts_pass _
      (List.mem_cons_of_mem _ (List.mem_cons_of_mem _ (List.mem_map_of_mem member)))
  have fallback : checkStructure BuiltinShader.fallbackFragment = .ok () :=
    Gpu.shipped_texts_pass _ (List.mem_cons_of_mem _ List.mem_cons_self)
  unfold fragmentSource at shipped ⊢
  cases imported : manager.registry.get? name with
  | none =>
    dsimp only
    cases found : BuiltinShader.find? name with
    | none => exact builtin List.mem_cons_self
    | some shader => exact builtin (List.mem_of_find?_eq_some found)
  | some shader =>
    rw [imported] at shipped
    dsimp only at shipped ⊢
    unfold importedFragment at shipped ⊢
    split at shipped
    · simp at shipped
    · exact fallback
    · split at shipped
      · simp at shipped
      · exact fallback

section Cached
variable {σ : Type} [Store σ]

/-- A device that refuses no call accepts a build exactly when the text resolved for it passes. -/
theorem build_decides_resolved (manager : Manager) (willing : manager.bench.refusals.gpu = none)
    (cache : Cache σ) (disk : Disk) (now : Millis) (name : String) :
    Decides name (manager.prepared.resolve cache disk now name).1.fragment
      (manager.build cache disk now name).1 := by
  have willingToLink :
      (manager.prepared.resolve cache disk now name).2.1.bench.refusals.gpu = none := by
    obtain ⟨calls, resolves⟩ := manager.prepared.resolve_manager cache disk now name
    rw [resolves]
    change manager.prepared.bench.refusals.gpu = none
    rw [manager.prepared_kept.2.2.2.1, willing]
  have vertexPasses :
      checkStructure (manager.prepared.resolve cache disk now name).1.vertex = .ok () := by
    change checkStructure (manager.prepared.vertexSource name) = .ok ()
    rw [vertexSource_eq, vertexText_passes]
  have answers := manager.build_answer cache disk now name
  rw [answers]
  exact (linkSources_decides willingToLink _ vertexPasses).map _

variable [LawfulStore σ]

/-- Whatever compiler and cache made of a text, the check says of it what it says of the text. -/
theorem checkStructure_of_faithful {manager : Manager} {source : String}
    {resolved : ResolvedSources} (faithful : Faithful normalise manager source resolved) :
    checkStructure resolved.fragment = checkStructure source := by
  cases outcome : resolved.compilation with
  | cacheHit => rw [faithful.compiled (.inl outcome), Gpu.checkStructure_normalise]
  | compiled => rw [faithful.compiled (.inr outcome), Gpu.checkStructure_normalise]
  | uncompiled => rw [(faithful.uncompiled outcome).1]

/-- The verdict on the text that a name means is the verdict on building it. -/
theorem build_decides (manager : Manager) {cache : Cache σ} {sources : List String} {disk : Disk}
    {now : Millis} {name : String} (willing : manager.bench.refusals.gpu = none)
    (means : manager.bench.compiler.Means normalise)
    (holds : cache.Holds (Meant normalise sources))
    (apart : Apart ((manager.fragmentSource disk name).1 :: sources)) :
    Decides name (manager.fragmentSource disk name).1 (manager.build cache disk now name).1 := by
  rw [← prepared_fragmentSource] at apart ⊢
  have faithful : Faithful normalise manager.prepared (manager.prepared.fragmentSource disk name).1
      (manager.prepared.resolve cache disk now name).1 :=
    faithful_resolve (prepared_means means) holds apart
  exact (build_decides_resolved manager willing cache disk now name).of_same
    (checkStructure_of_faithful faithful)

theorem createProgram_decides {manager : Manager} {cache : Cache σ} {sources : List String}
    {disk : Disk} {now : Millis} {name : String} (willing : manager.bench.refusals.gpu = none)
    (means : manager.bench.compiler.Means normalise)
    (holds : cache.Holds (Meant normalise sources))
    (apart : Apart ((manager.fragmentSource disk name).1 :: sources)) (lacks : manager.Lacks name) :
    Decides name (manager.fragmentSource disk name).1
      (manager.createProgram cache disk now name).1 := by
  rw [createProgram_of_lacks _ _ _ lacks]
  exact build_decides { manager with programs := manager.programs.erase name } willing means holds
    apart

end Cached
end Manager

/-- Compiling never decides whether a shader builds. A text that is not blank is compiled to one of
which the check says the same; and whatever compiler and cache did before, a build on a device that
refuses no call has the outcome that the check gives for the text its name means. What ships with
the program always builds, and so does a preset that cannot be resolved. -/
theorem compilation_never_decides {σ : Type} [Store σ] [LawfulStore σ] {run : ManagerRun σ}
    (reached : Reached ManagerRun.step (WrittenBy normalise) (BeginsEmpty normalise) run)
    (willing : run.scene.manager.bench.refusals.gpu = none) (name : String)
    (apart : Apart ((run.scene.manager.fragmentSource run.scene.disk name).1 ::
      resolvedSources run.past)) :
    let scene := run.scene
    let meaning := scene.manager.fragmentSource scene.disk name
    let reloaded := (scene.manager.reloadProgram scene.cache scene.disk scene.now name).1
    let created := (scene.manager.createProgram scene.cache scene.disk scene.now name).1
    (∀ source stage, Text.allBlank source.toList = false →
      ∃ text, passthrough source stage = .ok text ∧ checkStructure text = checkStructure source) ∧
    Decides name meaning.1 reloaded ∧
    (scene.manager.Lacks name → Decides name meaning.1 created) ∧
    (meaning.2 ∈ [.builtin, .default, .fallback] →
      (∃ built, reloaded = .ok built) ∧ ∃ built, created = .ok built) ∧
    (∀ shader preset error, scene.manager.registry.get? name = some shader →
      shader.body = .preset preset → shader.entrySource scene.disk = .error error →
      (∃ built, reloaded = .ok built ∧ built.origin = .fallback) ∧
      ∃ built, created = .ok built) := by
  intro scene meaning reloaded created
  obtain ⟨means, holds⟩ := meaning_of_reached reached
  have reload : Decides name meaning.1 reloaded :=
    Manager.build_decides scene.manager willing means holds apart
  have create : scene.manager.Lacks name → Decides name meaning.1 created :=
    Manager.createProgram_decides willing means holds apart
  have always (shipped : meaning.2 ∈ [.builtin, .default, .fallback]) :
      (∃ built, reloaded = .ok built) ∧ ∃ built, created = .ok built := by
    have passes := Manager.passes_of_origin shipped
    refine ⟨reload.accepts.mpr passes, ?_⟩
    rcases scene.manager.createProgram_cases scene.cache scene.disk scene.now name with
      ⟨built, held, lives, answer⟩ | ⟨dead, -⟩
    · exact ⟨built, congrArg Prod.fst answer⟩
    · exact (create dead).accepts.mpr passes
  refine ⟨?_, reload, create, always, ?_⟩
  · intro source stage something
    refine ⟨normalise source, ?_, Gpu.checkStructure_normalise source⟩
    rw [passthrough, something]
    rfl
  · intro shader preset error imported body unresolved
    have standIn : meaning.2 = .fallback := by
      change (scene.manager.fragmentSource scene.disk name).2 = .fallback
      simp only [Manager.fragmentSource, imported, Manager.importedFragment, body, unresolved]
    obtain ⟨⟨built, answer⟩, creates⟩ := always (by simp [standIn])
    exact ⟨⟨built, answer, (Manager.build_origin answer).trans standIn⟩, creates⟩

/-- A text with a brace too many is compiled and cached; while the compiler refuses everything, the
build takes the compiled text from the cache and names the line of the text as it was written. -/
theorem compilation_never_decides_on_cached_text :
    ∃ run : ManagerRun MemoryStore,
      Reached ManagerRun.step (WrittenBy normalise) (BeginsEmpty normalise) run ∧
      run.scene.manager.bench.refusals = { compile := true } ∧
      (run.scene.manager.fragmentSource run.scene.disk "odd").1 = "main \r\n\x7d" ∧
      Apart ("main \r\n\x7d" :: resolvedSources run.past) ∧
      (run.scene.manager.resolve run.scene.cache run.scene.disk run.scene.now "odd").1.compilation =
        .cacheHit ∧
      (run.scene.manager.reloadProgram run.scene.cache run.scene.disk run.scene.now "odd").1 =
        .error (.stageCompile "odd" .fragment (.compile "unexpected '\x7d' on line 2")) := by
  have begins : Reached ManagerRun.step (WrittenBy normalise) (BeginsEmpty normalise)
      (ManagerRun.opened {} {} ({} : MemoryStore) {} 5) :=
    .start ⟨{}, {}, {}, {}, 5, rfl, rfl, passthrough_means, fun _ => rfl⟩
  have imported := begins.step
    (ManagerEvent.register ⟨"odd", .inMemory {} "odd", .direct ["main \r\n\x7d"]⟩) trivial
  have resolved := imported.step (ManagerEvent.resolve "odd") trivial
  have refusing := resolved.step (ManagerEvent.refuse { compile := true }) trivial
  have apart : Apart ["main \r\n\x7d"] := by
    intro one member other alsoMember _
    rw [List.mem_singleton.mp member, List.mem_singleton.mp alsoMember]
  obtain ⟨-, decides, -⟩ := compilation_never_decides refusing rfl "odd"
    (apart.mono (by decide +kernel))
  exact ⟨_, refusing, rfl, rfl, apart.mono (by decide +kernel), by decide +kernel,
    decides.refuses (.unexpectedClose 2) (by decide +kernel)⟩

end Overlay
