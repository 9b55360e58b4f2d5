import Overlay.Session
import Overlay.Proofs.DirectoryContract
import Overlay.Proofs.GuardedEntries
import Overlay.Proofs.ProgramTable
import Overlay.Proofs.Retention
import Overlay.Proofs.ShaderMeaning

/-! A text that was compiled is not compiled again before it has outlived the limit, whichever of
several managers asks for it and under whatever name. Memory may be trimmed to nothing at any time,
so it is the store that carries this: a compiled text is written there, and from then on the store
keeps an artifact for it that is no older, by its own date and by the stamp of the store, for
neither a lookup nor an eviction drops what is within the limit and a record can only renew it. -/
namespace Overlay
open LawfulStore (held)
open PunctualStore (Works stamp)

namespace Cache
variable {σ : Type} [Store σ] [PunctualStore σ]

/-- What was made since some reading is within the limit. -/
def Recent (policy : CachePolicy) (now since : Millis) : Prop :=
  ageAt now since ≤ policy.maxAge.wholeMillis.toNat

/-- The store works, and has an artifact for a fragment that is no older than some reading, by its
own date and by the stamp of the store. -/
structure Keeps (source : String) (since : Millis) (cache : Cache σ) : Prop where
  works : Works cache.store
  filed : ∃ content artifact, held cache.store (cacheKey .fragment source) = some content ∧
    Artifact.decode? content = some artifact ∧ artifact.version = cache.policy.schemaVersion ∧
    artifact.sourceHash = fingerprint source ∧ since.toNat ≤ artifact.createdAt.toNat
  stamped {reading : Millis} :
    stamp cache.store (cacheKey .fragment source) = some reading → since.toNat ≤ reading.toNat

variable {cache : Cache σ} {source : String} {since now : Millis}

/-- What was made later is no older. -/
private theorem Recent.later {policy : CachePolicy} {made : Millis}
    (recent : Recent policy now since) (later : since.toNat ≤ made.toNat) :
    Recent policy now made :=
  Nat.le_trans (Nat.sub_le_sub_left later _) recent

/-- What is recent now was recent before. -/
private theorem Recent.earlier {policy : CachePolicy} {reading : Millis}
    (recent : Recent policy reading since) (forward : now.toNat ≤ reading.toNat) :
    Recent policy now since :=
  Nat.le_trans (Nat.sub_le_sub_right forward _) recent

/-- An artifact that a policy takes for a source, made no earlier than some reading. -/
def Describes (policy : CachePolicy) (source : String) (since : Millis) (artifact : Artifact) :
    Prop :=
  artifact.version = policy.schemaVersion ∧ artifact.sourceHash = fingerprint source ∧
    since.toNat ≤ artifact.createdAt.toNat

/-- What is described is fresh while the time since is within the limit. -/
private theorem Recent.spares {policy : CachePolicy} (recent : Recent policy now since)
    (source : String) : policy.Spares now since source (Describes policy source since) where
  fresh described := by
    obtain ⟨version, hash, later⟩ := described
    have young := recent.later later
    unfold Recent at young
    simp only [Artifact.isValidFor, version, hash, young, beq_self_eq_true, decide_true,
      Bool.and_true]
  recent := recent

namespace Keeps

/-- Only the store and the policy matter. -/
private theorem congr {after : Cache σ} (keeps : cache.Keeps source since)
    (policy : after.policy = cache.policy) (works : Works after.store)
    (content : held after.store (cacheKey .fragment source) =
      held cache.store (cacheKey .fragment source))
    (stamps : stamp after.store (cacheKey .fragment source) =
      stamp cache.store (cacheKey .fragment source)) : after.Keeps source since := by
  obtain ⟨-, filed, stamped⟩ := keeps
  rw [← policy, ← content] at filed
  rw [← stamps] at stamped
  exact ⟨works, filed, stamped⟩

/-- Whatever is in memory, what a cache keeps is kept by a store like its own. -/
private theorem iff_store :
    cache.Keeps source since ↔ Keeps source since (Cache.mk cache.policy ∅ cache.store) :=
  ⟨fun keeps => keeps.congr rfl keeps.works rfl rfl,
    fun keeps => keeps.congr rfl keeps.works rfl rfl⟩

private theorem guards (policy : CachePolicy) (source : String) (since : Millis) :
    Guards (cacheKey .fragment source) since (Describes policy source since)
      fun store : σ => Keeps source since (Cache.mk policy ∅ store) where
  read keeps := by
    obtain ⟨content, artifact, found, read, described⟩ := keeps.filed
    refine ⟨content, artifact, ?_, read, described⟩
    rw [PunctualStore.get_answers keeps.works (isKey_cacheKey .fragment source)]
    exact congrArg Except.ok found
  stamped keeps asked := keeps.stamped (PunctualStore.modified_stamp keeps.works asked)
  put keeps apart done := by
    refine keeps.congr rfl (PunctualStore.put_works keeps.works done) ?_ ?_
    · rw [LawfulStore.put_held done, if_neg apart.symm]
    · rw [PunctualStore.put_stamp keeps.works done, if_neg apart.symm]
  delete keeps apart done := by
    refine keeps.congr rfl (PunctualStore.delete_works keeps.works done) ?_ ?_
    · rw [LawfulStore.delete_held done, if_neg apart.symm]
    · rw [PunctualStore.delete_stamp keeps.works done, if_neg apart.symm]

/-- A lookup finds what is kept. -/
theorem hit (keeps : cache.Keeps source since) (recent : Recent cache.policy now since) :
    (cache.lookup now .fragment source).1 ≠ none :=
  (guards cache.policy source since).answers (iff_store.mp keeps) (recent.spares source) rfl

/-- A lookup drops only what is not fresh. -/
theorem lookup (keeps : cache.Keeps source since) (recent : Recent cache.policy now since)
    (stage : Stage) (text : String) : (cache.lookup now stage text).2.Keeps source since := by
  rw [iff_store, lookup_policy]
  exact (guards cache.policy source since).lookup (iff_store.mp keeps) (recent.spares source)
    stage text

/-- An eviction drops only what has outlived the limit. -/
theorem evict (keeps : cache.Keeps source since) (recent : Recent cache.policy now since) :
    (cache.evict now).2.Keeps source since := by
  rw [iff_store, evict_policy]
  exact (guards cache.policy source since).expire (iff_store.mp keeps) (recent.spares source)
    cache.persistentKeys

theorem reopen (keeps : cache.Keeps source since) (recent : Recent cache.policy now since) :
    (start cache.policy cache.store now).Keeps source since :=
  (iff_store.mp keeps).evict recent

end Keeps

/-- What the calls of a store leave works like the store. -/
theorem works_lasts : Lasts (Works : σ → Prop) :=
  ⟨PunctualStore.put_works, PunctualStore.delete_works⟩

/-- A record under the key of a fragment is kept for it from then on. -/
theorem keeps_of_record (works : Works cache.store) {stage : Stage} {text : String}
    (compiled : String) (sameKey : cacheKey .fragment source = cacheKey stage text)
    (earlier : since.toNat ≤ now.toNat) :
    (cache.record now stage text compiled).Keeps source since := by
  obtain ⟨written, put⟩ : ∃ written, Store.put cache.store now (cacheKey stage text)
      (recordedArtifact cache.policy text compiled now).encode = .ok written :=
    PunctualStore.put_answers works (isKey_cacheKey stage text)
  have store := record_written put
  refine ⟨works_lasts.record works now stage text compiled,
    ⟨_, recordedArtifact cache.policy text compiled now, ?_, Artifact.decode?_encode _, ?_, ?_,
      earlier⟩, fun found => ?_⟩
  · rw [store, LawfulStore.put_held put, if_pos sameKey]
  · rw [record_policy]
    rfl
  · exact (cacheKey_eq_iff.mp sameKey).2.symm
  · rw [store, PunctualStore.put_stamp works put, if_pos sameKey] at found
    cases found
    exact earlier

/-- A record renews what is kept or leaves it alone. -/
theorem Keeps.record (keeps : cache.Keeps source since) (earlier : since.toNat ≤ now.toNat)
    (stage : Stage) (text compiled : String) :
    (cache.record now stage text compiled).Keeps source since := by
  by_cases sameKey : cacheKey .fragment source = cacheKey stage text
  · exact keeps_of_record keeps.works compiled sameKey earlier
  · rw [iff_store, record_policy]
    exact (guards cache.policy source since).record (iff_store.mp keeps) (Ne.symm sameKey) compiled

end Cache

/-! ### Resolving once -/

namespace Manager
variable {σ : Type} [Store σ] {cache : Cache σ} {source : String} {since now : Millis}

/-- Resolving leaves the policy of the cache alone. -/
theorem resolve_policy (manager : Manager) (cache : Cache σ) (disk : Disk) (now : Millis)
    (name : String) : (manager.resolve cache disk now name).2.2.policy = cache.policy := by
  rw [resolve_eq]
  rcases manager.compileFragment_cache cache now (manager.fragmentSource disk name).1 with
    looked | ⟨text, -, -, recorded⟩
  · rw [looked, Cache.lookup_policy]
  · rw [recorded, Cache.record_policy, Cache.lookup_policy]

variable [PunctualStore σ]

/-- Whatever is resolved, what is kept within the limit stays. -/
theorem keeps_resolve (keeps : cache.Keeps source since)
    (recent : Cache.Recent cache.policy now since) (earlier : since.toNat ≤ now.toNat)
    (manager : Manager) (disk : Disk) (name : String) :
    (manager.resolve cache disk now name).2.2.Keeps source since := by
  rw [resolve_eq]
  generalize (manager.fragmentSource disk name).1 = text
  have looked := keeps.lookup recent .fragment text
  rcases manager.compileFragment_cache cache now text with same | ⟨compiled, -, -, recorded⟩
  · rw [same]
    exact looked
  · rw [recorded]
    exact looked.record earlier .fragment text compiled

/-- What is compiled is kept from then on. -/
theorem keeps_of_compiled (works : Works cache.store) {manager : Manager}
    (compiled : (manager.compileFragment cache now source).1.2 = .compiled) :
    (manager.compileFragment cache now source).2.2.Keeps source now := by
  rw [compileFragment_compiled compiled]
  exact Cache.keeps_of_record (Cache.works_lasts.lookup works now .fragment source) _ rfl
    (Nat.le_refl _)

/-- What is kept within the limit is taken from the cache, without a call of the compiler. -/
theorem compileFragment_hit (keeps : cache.Keeps source since)
    (recent : Cache.Recent cache.policy now since) (manager : Manager) :
    (manager.compileFragment cache now source).1.2 = .cacheHit ∧
      (manager.compileFragment cache now source).2.1 = manager := by
  obtain ⟨text, found⟩ := Option.ne_none_iff_exists'.mp (keeps.hit recent)
  rw [manager.compileFragment_of_found (Prod.ext found rfl)]
  exact ⟨rfl, rfl⟩

end Manager

/-! ### Several managers -/

/-- Managers that share a cache, the disk and the time. -/
structure Workshop (σ : Type) where
  managers : Nat → Manager
  cache : Cache σ
  disk : Disk
  now : Millis

/-- A text that was handed to the cache and the compiler: when, and what became of it. -/
structure Resolution where
  source : String
  now : Millis
  compilation : Compilation
  deriving DecidableEq, Repr

variable {σ : Type} [Store σ]

/-- The manager that an event has resolve a name: a build starts a compiler that is released, and
creating does not build while a program lives. -/
def ManagerEvent.asks? (scene : Scene σ) : ManagerEvent σ → Option (Manager × String)
  | .create name =>
    if (scene.manager.program? name).any (scene.manager.bench.isProgram ·.program) then none
    else some ({ scene.manager with programs := scene.manager.programs.erase name }.prepared, name)
  | .reload name => some (scene.manager.prepared, name)
  | .resolve name => some (scene.manager, name)
  | .elsewhere other name => some (other, name)
  | _ => none

/-- What comes of a manager's resolving a name. -/
def Scene.resolution (scene : Scene σ) (manager : Manager) (name : String) : Resolution where
  source := (manager.fragmentSource scene.disk name).1
  now := scene.now
  compilation := (manager.resolve scene.cache scene.disk scene.now name).1.compilation

def ManagerEvent.resolution? (scene : Scene σ) (event : ManagerEvent σ) : Option Resolution :=
  (event.asks? scene).map fun asked => scene.resolution asked.1 asked.2

/-- What an event that neither clears the cache nor disturbs its store does to it: a name is
resolved, expired entries go, the cache is opened anew, or nothing happens. -/
inductive Handles (scene : Scene σ) (event : ManagerEvent σ) : Cache σ → Prop where
  | resolved {manager : Manager} {name : String}
    (asked : event.asks? scene = some (manager, name)) :
    Handles scene event (manager.resolve scene.cache scene.disk scene.now name).2.2
  | evicted (silent : event.asks? scene = none) :
    Handles scene event (scene.cache.evict scene.now).2
  | reopened (silent : event.asks? scene = none) :
    Handles scene event (Cache.start scene.cache.policy scene.cache.store scene.now)
  | untouched (silent : event.asks? scene = none) : Handles scene event scene.cache

/-- Creating a program builds it or leaves the cache alone. -/
private theorem handles_create (scene : Scene σ) (name : String) :
    Handles scene (.create name) (scene.after (.create name)).cache := by
  change Handles scene _ (scene.manager.createProgram scene.cache scene.disk scene.now name).2.2
  rcases scene.manager.createProgram_cases scene.cache scene.disk scene.now name with
    ⟨built, held, lives, answer⟩ | ⟨dead, answer⟩
  · rw [answer]
    refine .untouched (if_pos ?_)
    rw [Manager.program?, held]
    exact lives
  · rw [answer, Manager.build_cache]
    refine .resolved (if_neg ?_)
    unfold Manager.program?
    cases found : scene.manager.programs.get? name with
    | none => exact Bool.false_ne_true
    | some built => exact Bool.eq_false_iff.mp (dead built found)

namespace Workshop

/-- The workshop as one of the managers sees it. -/
def scene (workshop : Workshop σ) (index : Nat) : Scene σ :=
  ⟨workshop.managers index, workshop.cache, workshop.disk, workshop.now⟩

/-- The workshop after something happened to one of the managers or around it. -/
def step (workshop : Workshop σ) (event : Nat × ManagerEvent σ) : Workshop σ :=
  let after := (workshop.scene event.1).after event.2
  { managers := fun index => if index = event.1 then after.manager else workshop.managers index
    cache := after.cache
    disk := after.disk
    now := after.now }

/-- The resolutions of a run, the latest first. -/
def resolutions (past : List (Workshop σ × Nat × ManagerEvent σ)) : List Resolution :=
  past.filterMap fun moment => moment.2.2.resolution? (moment.1.scene moment.2.1)

/-- The managers do whatever they like, and so does the device. The cache is not cleared, it is
reopened with the policy it has, nobody else writes to its store, and the clock does not go back. -/
def Orderly (workshop : Workshop σ) (event : Nat × ManagerEvent σ) : Prop :=
  match event.2 with
  | .clearCache | .disturb _ => False
  | .reopen policy => policy = workshop.cache.policy
  | .clock reading => workshop.now.toNat ≤ reading.toNat
  | _ => True

theorem handles_of_orderly {workshop : Workshop σ} {index : Nat} {event : ManagerEvent σ}
    (orderly : workshop.Orderly (index, event)) :
    Handles (workshop.scene index) event (workshop.step (index, event)).cache := by
  cases event with
  | create name => exact handles_create _ name
  | reload name =>
    change Handles _ _ (Manager.build _ _ _ _ name).2.2
    rw [Manager.build_cache]
    exact .resolved rfl
  | resolve name => exact .resolved rfl
  | elsewhere other name => exact .resolved rfl
  | clearCache => exact orderly.elim
  | disturb store => exact orderly.elim
  | evict => exact .evicted rfl
  | reopen policy =>
    obtain rfl : policy = workshop.cache.policy := orderly
    exact .reopened rfl
  | _ => exact .untouched rfl

/-- Time does not go back. -/
theorem now_of_orderly {workshop : Workshop σ} {event : Nat × ManagerEvent σ}
    (orderly : workshop.Orderly event) : workshop.now.toNat ≤ (workshop.step event).now.toNat := by
  obtain ⟨index, event⟩ := event
  cases event with
  | clock reading => exact orderly
  | _ => exact Nat.le_refl _

/-- The resolution of an event comes before all earlier ones. -/
theorem resolutions_cons (workshop : Workshop σ) (index : Nat) (event : ManagerEvent σ)
    (past : List (Workshop σ × Nat × ManagerEvent σ)) :
    resolutions ((workshop, index, event) :: past) =
      (event.resolution? (workshop.scene index)).toList ++ resolutions past := by
  rw [resolutions, List.filterMap_cons]
  cases event.resolution? (workshop.scene index) with
  | none => simp [resolutions]
  | some resolution => simp [resolutions]

theorem mem_resolutions_cons {workshop : Workshop σ} {index : Nat} {event : ManagerEvent σ}
    {past : List (Workshop σ × Nat × ManagerEvent σ)} {resolution : Resolution} :
    resolution ∈ resolutions ((workshop, index, event) :: past) ↔
      event.resolution? (workshop.scene index) = some resolution ∨
        resolution ∈ resolutions past := by
  rw [resolutions_cons, List.mem_append, Option.mem_toList]

end Workshop

theorem resolution_now {scene : Scene σ} {event : ManagerEvent σ} {resolution : Resolution}
    (resolved : event.resolution? scene = some resolution) : resolution.now = scene.now := by
  obtain ⟨asked, -, rfl⟩ := Option.map_eq_some_iff.mp resolved
  rfl

theorem Handles.policy {scene : Scene σ} {event : ManagerEvent σ} {after : Cache σ}
    (handles : Handles scene event after) : after.policy = scene.cache.policy := by
  cases handles with
  | resolved asked => exact Manager.resolve_policy _ _ _ _ _
  | evicted => exact Cache.evict_policy _ _
  | reopened => exact Cache.evict_policy _ _
  | untouched => rfl

variable [PunctualStore σ]

/-- No event makes a store fail. -/
theorem Handles.works {scene : Scene σ} {event : ManagerEvent σ} {after : Cache σ}
    (handles : Handles scene event after) (works : Works scene.cache.store) :
    Works after.store := by
  cases handles with
  | resolved asked => exact Cache.works_lasts.resolve works _ _ _ _
  | evicted => exact Cache.works_lasts.expire works _ _
  | reopened => exact Cache.works_lasts.start works _ _
  | untouched => exact works

/-- No event drops what is within the limit. -/
theorem Handles.keeps {scene : Scene σ} {event : ManagerEvent σ} {after : Cache σ}
    (handles : Handles scene event after) {source : String} {since : Millis}
    (keeps : scene.cache.Keeps source since)
    (recent : Cache.Recent scene.cache.policy scene.now since)
    (earlier : since.toNat ≤ scene.now.toNat) : after.Keeps source since := by
  cases handles with
  | resolved asked => exact Manager.keeps_resolve keeps recent earlier _ _ _
  | evicted => exact keeps.evict recent
  | reopened => exact keeps.reopen recent
  | untouched => exact keeps

/-- What an event has compiled is kept from then on. -/
theorem Handles.keeps_compiled {scene : Scene σ} {event : ManagerEvent σ} {after : Cache σ}
    (handles : Handles scene event after) (works : Works scene.cache.store)
    {resolution : Resolution} (resolved : event.resolution? scene = some resolution)
    (compiled : resolution.compilation = .compiled) :
    after.Keeps resolution.source resolution.now := by
  obtain ⟨asked, asks, rfl⟩ := Option.map_eq_some_iff.mp resolved
  cases handles with
  | resolved alsoAsks =>
    rw [asks, Option.some.injEq] at alsoAsks
    subst alsoAsks
    exact Manager.keeps_of_compiled works compiled
  | evicted silent => rw [asks] at silent; cases silent
  | reopened silent => rw [asks] at silent; cases silent
  | untouched silent => rw [asks] at silent; cases silent

/-- What is kept within the limit is taken from the cache whoever resolves it. -/
theorem resolution_hit {scene : Scene σ} {event : ManagerEvent σ} {resolution : Resolution}
    (resolved : event.resolution? scene = some resolution) {since : Millis}
    (keeps : scene.cache.Keeps resolution.source since)
    (recent : Cache.Recent scene.cache.policy scene.now since) :
    resolution.compilation = .cacheHit := by
  obtain ⟨asked, asks, rfl⟩ := Option.map_eq_some_iff.mp resolved
  exact (Manager.compileFragment_hit keeps recent asked.1).1

namespace Workshop

/-- After a text was compiled it is taken from the cache as long as the limit lasts. -/
def Spares (policy : CachePolicy) (later earlier : Resolution) : Prop :=
  earlier.compilation = .compiled → later.source = earlier.source →
    Cache.Recent policy later.now earlier.now → later.compilation = .cacheHit

/-- What was compiled and is still within the limit is kept, and it has been taken from the cache
ever since. -/
structure Retained (policy : CachePolicy)
    (chronicle : Chronicle (Workshop σ) (Nat × ManagerEvent σ)) : Prop where
  policy_same : chronicle.state.cache.policy = policy
  works : Works chronicle.state.cache.store
  bygone {resolution : Resolution} : resolution ∈ resolutions chronicle.past →
    resolution.now.toNat ≤ chronicle.state.now.toNat
  kept {resolution : Resolution} : resolution ∈ resolutions chronicle.past →
    resolution.compilation = .compiled →
    Cache.Recent policy chronicle.state.now resolution.now →
    chronicle.state.cache.Keeps resolution.source resolution.now
  spared : (resolutions chronicle.past).Pairwise (Spares policy)

private theorem retained_step {policy : CachePolicy}
    {chronicle : Chronicle (Workshop σ) (Nat × ManagerEvent σ)} {event : Nat × ManagerEvent σ}
    (retained : Retained policy chronicle) (orderly : chronicle.state.Orderly event) :
    Retained policy (chronicle.extend step event) := by
  obtain ⟨index, event⟩ := event
  have handles := handles_of_orderly orderly
  have forward := now_of_orderly orderly
  obtain ⟨samePolicy, works, bygone, kept, spared⟩ := retained
  refine ⟨handles.policy.trans samePolicy, handles.works works, fun member => ?_,
    fun member compiled recent => ?_, ?_⟩
  · rcases mem_resolutions_cons.mp member with resolved | old
    · rw [resolution_now resolved]
      exact forward
    · exact Nat.le_trans (bygone old) forward
  · rcases mem_resolutions_cons.mp member with resolved | old
    · exact handles.keeps_compiled works resolved compiled
    · have recentBefore := recent.earlier forward
      have keeps := kept old compiled recentBefore
      rw [← samePolicy] at recentBefore
      exact handles.keeps keeps recentBefore (bygone old)
  · change (resolutions ((chronicle.state, index, event) :: chronicle.past)).Pairwise _
    rw [resolutions_cons, List.pairwise_append]
    refine ⟨?_, spared, fun later new earlier old compiled sameSource recent => ?_⟩
    · cases event.resolution? (chronicle.state.scene index) with
      | none => exact .nil
      | some resolution => exact List.pairwise_singleton _ _
    · have resolved := Option.mem_toList.mp new
      rw [resolution_now resolved] at recent
      have keeps := kept old compiled recent
      rw [← sameSource] at keeps
      rw [← samePolicy] at recent
      exact resolution_hit resolved keeps recent

/-- A run begins with any managers, and a cache opened over any store that works. -/
def Opens (workshop : Workshop σ) : Prop :=
  ∃ policy store, Works store ∧ workshop.cache = Cache.start policy store workshop.now

end Workshop

/-- Whatever a manager is asked under a name, the text comes from the cache and the compiler is not
called for it. -/
structure ServedFromCache (scene : Scene σ) (name : String) : Prop where
  resolves : (scene.manager.resolve scene.cache scene.disk scene.now name).1.compilation = .cacheHit
  uncalled : (scene.manager.resolve scene.cache scene.disk scene.now name).2.1 = scene.manager
  reloads {built : BuiltProgram} :
    (scene.manager.reloadProgram scene.cache scene.disk scene.now name).1 = .ok built →
      built.compilation = .cacheHit
  creates {built : BuiltProgram} : scene.manager.Lacks name →
    (scene.manager.createProgram scene.cache scene.disk scene.now name).1 = .ok built →
      built.compilation = .cacheHit

/-- What is kept within the limit is served from the cache under every name that means it. -/
theorem servedFromCache {scene : Scene σ} {source name : String} {since : Millis}
    (keeps : scene.cache.Keeps source since)
    (recent : Cache.Recent scene.cache.policy scene.now since)
    (meant : (scene.manager.fragmentSource scene.disk name).1 = source) :
    ServedFromCache scene name := by
  subst meant
  have hit := Manager.compileFragment_hit keeps recent
  have builds {programs : Table String BuiltProgram} {built : BuiltProgram}
      (answer : ({ scene.manager with programs }.build scene.cache scene.disk scene.now name).1 =
        .ok built) : built.compilation = .cacheHit := by
    rw [Manager.build_compilation answer, Manager.resolve_eq]
    dsimp only
    rw [Manager.prepared_fragmentSource]
    exact (hit _).1
  refine ⟨(hit _).1, (hit _).2, fun answer => builds answer, fun lacks answer => ?_⟩
  rw [Manager.createProgram_of_lacks _ _ _ lacks] at answer
  exact builds answer

/-- Several managers share a cache that is not cleared, over a store that works when the run begins and
that nobody disturbs: it reads and writes what it is asked to and stamps by the readings of the
cache, though it may fail to list and delete. Once one of them has compiled a text, each later
resolution of the same text, by whichever manager and under whatever name, takes it from the cache
until the limit is over: it is compiled no second time. -/
theorem compiled_once_within_limit {chronicle : Chronicle (Workshop σ) (Nat × ManagerEvent σ)}
    (chronicled : Chronicled Workshop.step Workshop.Orderly Workshop.Opens chronicle) :
    let workshop := chronicle.state
    let limit := workshop.cache.policy.maxAge.wholeMillis.toNat
    let resolutions := Workshop.resolutions chronicle.past
    (resolutions.Pairwise fun later earlier => earlier.compilation = .compiled →
      later.source = earlier.source → ageAt later.now earlier.now ≤ limit →
      later.compilation = .cacheHit) ∧
    ∀ earlier ∈ resolutions, earlier.compilation = .compiled →
      ageAt workshop.now earlier.now ≤ limit → ∀ index name,
      ((workshop.managers index).fragmentSource workshop.disk name).1 = earlier.source →
      ServedFromCache (workshop.scene index) name := by
  have retained : ∃ policy, Workshop.Retained policy chronicle := by
    apply Reached.invariant chronicled
    · rintro ⟨workshop, past⟩ ⟨⟨policy, store, works, opened⟩, rfl⟩
      refine ⟨policy, ?_, ?_, nofun, nofun, .nil⟩
      · rw [opened]
        exact Cache.evict_policy _ _
      · rw [opened]
        exact Cache.works_lasts.start works policy workshop.now
    · rintro chronicle event ⟨policy, retained⟩ orderly
      exact ⟨policy, Workshop.retained_step retained orderly⟩
  obtain ⟨policy, retained⟩ := retained
  dsimp only
  rw [retained.policy_same]
  refine ⟨retained.spared, fun earlier member compiled recent index name meant => ?_⟩
  have keeps := retained.kept member compiled recent
  refine servedFromCache keeps ?_ meant
  rw [← retained.policy_same] at recent
  exact recent

/-- With no room in memory, and a store of a session that fails to list and to delete, one manager
compiles a text; at the last reading within the limit, after an eviction and with the cache opened
anew, another manager that has imported the same text under another name builds it from the cache. -/
theorem compiled_once_within_limit_by_other_manager :
    ∃ chronicle : Chronicle (Workshop (FaultyStore SessionStore))
        (Nat × ManagerEvent (FaultyStore SessionStore)),
      Chronicled Workshop.step Workshop.Orderly Workshop.Opens chronicle ∧
      ⟨"main ", 5, .compiled⟩ ∈ Workshop.resolutions chronicle.past ∧
      chronicle.state.now = 1005 ∧ chronicle.state.cache.policy.maxAge.wholeMillis = 1000 ∧
      ServedFromCache (chronicle.state.scene 1) "other" := by
  let policy : CachePolicy := { maxAge := ⟨1, 0⟩, memoryCapacity := 0 }
  let store : FaultyStore SessionStore := ⟨.inl {}, [.keys, .delete]⟩
  have begins : Chronicled Workshop.step Workshop.Orderly Workshop.Opens
      ⟨⟨fun _ => Manager.create {}, Cache.start policy store 5, {}, 5⟩, []⟩ :=
    .start ⟨⟨policy, store, ⟨by decide, by decide, trivial⟩, rfl⟩, rfl⟩
  have imported := begins.step
    (0, ManagerEvent.register ⟨"one", .inMemory {} "one", .direct ["main "]⟩) trivial
  have alsoImported := imported.step
    (1, ManagerEvent.register ⟨"other", .inMemory {} "other", .direct ["main "]⟩) trivial
  have compiled := alsoImported.step (0, ManagerEvent.resolve "one") trivial
  have later := compiled.step (0, ManagerEvent.clock 1005) (by
    change (5 : Millis).toNat ≤ (1005 : Millis).toNat
    decide)
  have evicted := later.step (1, ManagerEvent.evict) trivial
  have reopened := evicted.step (1, ManagerEvent.reopen _) rfl
  refine ⟨_, reopened, ?member, by decide +kernel, by decide +kernel,
    (compiled_once_within_limit reopened).2 _ ?member rfl (by decide +kernel) 1 "other"
      (by decide +kernel)⟩
  decide +kernel

end Overlay
