import Overlay.Cache
import Overlay.Proofs.Reached

/-! Runs of a cache: what is asked of it, and what happens meanwhile to its clock and to its store.
A run remembers every event with the time and the policy it met, so that what a lookup answers can
be compared with what was recorded before. -/
namespace Overlay

/-- What can happen to a cache, its clock and its store. -/
inductive CacheEvent (σ : Type) where
  | record (stage : Stage) (source compiled : String)
  | lookup (stage : Stage) (source : String)
  | evict
  | clear
  /-- The cache is given up and opened anew over the store it leaves. -/
  | reopen (policy : CachePolicy)
  | advance (step : Duration)
  | setClock (reading : Millis)
  /-- The store is another one from now on: calls begin or cease to fail, or entries were changed by
  somebody else. -/
  | disturb (store : σ)

/-- An event together with the time and the policy it met. -/
structure Moment (σ : Type) where
  now : Millis
  policy : CachePolicy
  event : CacheEvent σ

/-- A cache with its clock, and what has happened so far, the latest first. -/
structure CacheRun (σ : Type) where
  clock : Clock
  cache : Cache σ
  past : List (Moment σ) := []

namespace CacheRun
variable {σ : Type}

def now (run : CacheRun σ) : Millis :=
  run.clock.reading

/-- A cache that has just been opened over a store. -/
def opened [Store σ] (policy : CachePolicy) (clock : Clock) (store : σ) : CacheRun σ :=
  { clock, cache := Cache.start policy store clock.reading }

/-- The clock after an event. -/
def clockAfter (clock : Clock) : CacheEvent σ → Clock
  | .advance step => clock.advance step
  | .setClock reading => clock.set reading
  | _ => clock

/-- The cache after an event at a time. -/
def cacheAfter [Store σ] (cache : Cache σ) (now : Millis) : CacheEvent σ → Cache σ
  | .record stage source compiled => cache.record now stage source compiled
  | .lookup stage source => (cache.lookup now stage source).2
  | .evict => (cache.evict now).2
  | .clear => cache.clear
  | .reopen policy => Cache.start policy cache.store now
  | .disturb store => { cache with store }
  | .advance _ | .setClock _ => cache

def step [Store σ] (run : CacheRun σ) (event : CacheEvent σ) : CacheRun σ where
  clock := clockAfter run.clock event
  cache := cacheAfter run.cache run.now event
  past := ⟨run.now, run.cache.policy, event⟩ :: run.past

end CacheRun

/-- What the latest record of a source since the cache was last cleared says, and when it was made.
-/
def lastRecorded {σ : Type} (stage : Stage) (source : String) :
    List (Moment σ) → Option (String × Millis)
  | [] => none
  | moment :: earlier =>
    match moment.event with
    | .record other text compiled =>
      if other = stage ∧ text = source then some (compiled, moment.now)
      else lastRecorded stage source earlier
    | .clear => none
    | _ => lastRecorded stage source earlier

theorem lastRecorded_record_self {σ : Type} (now : Millis) (policy : CachePolicy) (stage : Stage)
    (source compiled : String) (past : List (Moment σ)) :
    lastRecorded stage source (⟨now, policy, .record stage source compiled⟩ :: past) =
      some (compiled, now) := by
  simp [lastRecorded]

theorem lastRecorded_record_of_ne {σ : Type} {stage other : Stage} {source text : String}
    (different : ¬ (stage = other ∧ source = text)) (now : Millis) (policy : CachePolicy)
    (compiled : String) (past : List (Moment σ)) :
    lastRecorded other text (⟨now, policy, .record stage source compiled⟩ :: past) =
      lastRecorded other text past := by
  simp [lastRecorded, different]

/-- The source that an event is about. -/
def CacheEvent.source? {σ : Type} : CacheEvent σ → Option String
  | .record _ source _ => some source
  | .lookup _ source => some source
  | _ => none

/-- The sources that were recorded or looked up. -/
def CacheRun.sources {σ : Type} (past : List (Moment σ)) : List String :=
  past.filterMap fun moment => moment.event.source?

/-- What happens later takes no source away. -/
theorem CacheRun.sources_subset {σ : Type} (moment : Moment σ) (past : List (Moment σ)) :
    sources past ⊆ sources (moment :: past) := by
  intro source member
  rw [sources, List.filterMap_cons]
  split
  · exact member
  · exact List.mem_cons_of_mem _ member

/-- Different sources have different fingerprints. -/
def Apart (sources : List String) : Prop :=
  ∀ one ∈ sources, ∀ other ∈ sources, fingerprint one = fingerprint other → one = other

theorem Apart.mono {sources more : List String} (apart : Apart more) (fewer : sources ⊆ more) :
    Apart sources :=
  fun one member other alsoMember => apart one (fewer member) other (fewer alsoMember)

theorem mem_sources_of_lastRecorded {σ : Type} {stage : Stage} {source : String}
    {past : List (Moment σ)} {entry : String × Millis}
    (recorded : lastRecorded stage source past = some entry) : source ∈ CacheRun.sources past := by
  induction past with
  | nil => cases recorded
  | cons moment earlier ih =>
    obtain ⟨now, policy, event⟩ := moment
    cases event with
    | record other text compiled =>
      simp only [lastRecorded] at recorded
      split at recorded
      · rename_i same
        simp [CacheRun.sources, CacheEvent.source?, same.2]
      · exact List.mem_cons_of_mem text (ih recorded)
    | lookup other text => exact List.mem_cons_of_mem text (ih recorded)
    | clear => cases recorded
    | evict => exact ih recorded
    | reopen policy => exact ih recorded
    | advance step => exact ih recorded
    | setClock reading => exact ih recorded
    | disturb store => exact ih recorded

end Overlay
