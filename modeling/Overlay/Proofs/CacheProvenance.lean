import Overlay.Proofs.CacheContents
import Overlay.Proofs.CacheKeys
import Overlay.Proofs.CacheRuns

/-! Where the answers of a cache come from. Calls on the store may fail and cease to fail, entries
may vanish, the clock may be set to any reading and the policy may change with every restart: what a
lookup serves was recorded for the same stage and the same fingerprint all the same, under the schema
in force and within the limit in force. A run over all this keeps both tiers traceable: every entry
is the artifact that some moment of the past filed under its key. Where others write to the store as
well, an entry can be what they have brought, and still it is served under its own key alone. -/
namespace Overlay
open LawfulStore (held)
variable {σ : Type}

/-- The artifact that a moment files under a key: a record at that time and under that policy. -/
inductive Files : Moment σ → String → Artifact → Prop where
  | record (now : Millis) (policy : CachePolicy) (stage : Stage) (source compiled : String) :
      Files ⟨now, policy, .record stage source compiled⟩ (cacheKey stage source)
        ⟨compiled, fingerprint source, now, policy.schemaVersion⟩

/-- An artifact was filed under a key at some moment of the past. -/
def Filed (past : List (Moment σ)) (key : String) (artifact : Artifact) : Prop :=
  ∃ moment ∈ past, Files moment key artifact

/-- What was filed stays filed, whatever happens next. -/
theorem Filed.later {past : List (Moment σ)} {key : String} {artifact : Artifact}
    (filed : Filed past key artifact) (moment : Moment σ) : Filed (moment :: past) key artifact := by
  obtain ⟨earlier, member, files⟩ := filed
  exact ⟨earlier, List.mem_cons_of_mem _ member, files⟩

variable [Store σ] [LawfulStore σ]

/-- A store that holds only what another one holds. -/
def Loses (before after : σ) : Prop :=
  ∀ key content, held after key = some content → held before key = some content

/-- Nobody but the cache writes to the store; it may fail, recover and lose entries. -/
def OnlyLoses (run : CacheRun σ) : CacheEvent σ → Prop
  | .disturb store => Loses run.cache.store store
  | _ => True

/-- An entry may be deleted behind the back of the cache, whichever of its own calls fail. -/
theorem onlyLoses_delete {run : CacheRun (FaultyStore σ)} (key : String) {after : σ}
    (deleted : Store.delete run.cache.store.store key = .ok after) :
    OnlyLoses run (.disturb { run.cache.store with store := after }) := by
  intro probe content found
  change held after probe = some content at found
  rw [LawfulStore.delete_held deleted] at found
  split at found
  · cases found
  · exact found

/-- Other calls may fail from now on, for what is held does not change by that. -/
theorem onlyLoses_failing (run : CacheRun (FaultyStore σ)) (failing : List StoreCall) :
    OnlyLoses run (.disturb { run.cache.store with failing }) :=
  fun _ _ found => found

/-- A run begins with a cache of any policy over a store that holds nothing. -/
def OpenedBare (run : CacheRun σ) : Prop :=
  ∃ policy clock store, run = CacheRun.opened policy clock store ∧ ∀ key, held store key = none

/-- What lies in a store under a key is read as an artifact. -/
def Reads (store : σ) (key : String) (artifact : Artifact) : Prop :=
  ∃ content, held store key = some content ∧ Artifact.decode? content = some artifact

/-- Others may change the store behind the back of the cache: calls begin and cease to fail, entries
vanish, and what is read under a key that was not read there before is among what others bring. -/
def OthersBring (brought : String → Artifact → Prop) (run : CacheRun σ) : CacheEvent σ → Prop
  | .disturb store => ∀ key artifact, Reads store key artifact →
    Reads run.cache.store key artifact ∨ brought key artifact
  | _ => True

/-- A run begins with a cache of any policy over a store in which others have left what they bring.
-/
def OpenedAmid (brought : String → Artifact → Prop) (run : CacheRun σ) : Prop :=
  ∃ policy clock store, run = CacheRun.opened policy clock store ∧
    ∀ key artifact, Reads store key artifact → brought key artifact

/-- An entry was brought by others, or filed by the cache itself. -/
def BroughtOrFiled (brought : String → Artifact → Prop) (past : List (Moment σ)) (key : String)
    (artifact : Artifact) : Prop :=
  brought key artifact ∨ Filed past key artifact

/-- Every event keeps every entry traceable. -/
theorem broughtOrFiled_step {brought : String → Artifact → Prop} {run : CacheRun σ}
    {event : CacheEvent σ} (holds : run.cache.Holds (BroughtOrFiled brought run.past))
    (allowed : OthersBring brought run event) :
    (run.step event).cache.Holds (BroughtOrFiled brought (run.step event).past) := by
  have kept : run.cache.Holds
      (BroughtOrFiled brought (⟨run.now, run.cache.policy, event⟩ :: run.past)) :=
    holds.mono fun _ _ => Or.imp_right fun filed => filed.later _
  cases event with
  | record stage source compiled =>
    exact kept.record (.inr ⟨_, List.mem_cons_self, .record _ _ stage source compiled⟩)
  | lookup stage source => exact kept.lookup run.now stage source
  | evict => exact kept.evict run.now
  | clear => exact kept.clear
  | reopen policy => exact kept.reopen policy run.now
  | disturb store =>
    refine ⟨kept.memory, fun found read => ?_⟩
    rcases allowed _ _ ⟨_, found, read⟩ with ⟨content, before, same⟩ | new
    · exact kept.store before same
    · exact .inl new
  | advance step => exact kept
  | setClock reading => exact kept

theorem broughtOrFiled_of_reached {brought : String → Artifact → Prop} {run : CacheRun σ}
    (reached : Reached CacheRun.step (OthersBring brought) (OpenedAmid brought) run) :
    run.cache.Holds (BroughtOrFiled brought run.past) := by
  apply reached.invariant
  · rintro run ⟨policy, clock, store, rfl, found⟩
    apply Cache.Holds.evict
    refine ⟨fun remembered => ?_, fun stored read => .inl (found _ _ ⟨_, stored, read⟩)⟩
    simp at remembered
  · intro run event holds allowed
    exact broughtOrFiled_step holds allowed

/-- If nobody else writes, nothing is brought. -/
theorem filed_of_reached {run : CacheRun σ}
    (reached : Reached CacheRun.step OnlyLoses OpenedBare run) :
    run.cache.Holds (Filed run.past) := by
  have amid : Reached CacheRun.step (OthersBring fun _ _ => False)
      (OpenedAmid fun _ _ => False) run := by
    apply reached.mono
    · intro run event allowed
      cases event with
      | disturb store =>
        rintro key artifact ⟨content, found, read⟩
        exact .inl ⟨content, allowed key content found, read⟩
      | _ => trivial
    · rintro run ⟨policy, clock, store, opened, empty⟩
      refine ⟨policy, clock, store, opened, ?_⟩
      rintro key artifact ⟨content, found, -⟩
      rw [empty] at found
      cases found
  exact (broughtOrFiled_of_reached amid).mono fun _ _ described => described.resolve_left id

/-- What a lookup serves was brought by others under this very key, or recorded for this stage and a
source of the same fingerprint. -/
theorem served_was_brought_or_recorded {brought : String → Artifact → Prop} {run : CacheRun σ}
    (reached : Reached CacheRun.step (OthersBring brought) (OpenedAmid brought) run) {stage : Stage}
    {source compiled : String}
    (served : (run.cache.lookup run.now stage source).1 = some compiled) :
    (∃ artifact, brought (cacheKey stage source) artifact ∧ artifact.compiledSource = compiled) ∨
      ∃ moment ∈ run.past, ∃ recorded, moment.event = .record stage recorded compiled ∧
        fingerprint recorded = fingerprint source := by
  obtain ⟨artifact, described, text, -⟩ := (broughtOrFiled_of_reached reached).served served
  rcases described with new | ⟨moment, member, files⟩
  · exact .inl ⟨artifact, new, text⟩
  · generalize sameKey : cacheKey stage source = key at files
    cases files with
    | record now policy other recorded output =>
      obtain ⟨rfl, same⟩ := cacheKey_eq_iff.mp sameKey
      cases text
      exact .inr ⟨_, member, recorded, rfl, same.symm⟩

/-- Whatever failed and however the clock moved, what a lookup serves was recorded earlier in the
run for the same stage and a source of the same fingerprint, by a cache of the schema that is in
force now, and its age is within the limit that is in force now. -/
theorem served_was_recorded {run : CacheRun σ}
    (reached : Reached CacheRun.step OnlyLoses OpenedBare run) {stage : Stage}
    {source compiled : String}
    (served : (run.cache.lookup run.now stage source).1 = some compiled) :
    ∃ moment ∈ run.past, ∃ recorded, moment.event = .record stage recorded compiled ∧
      fingerprint recorded = fingerprint source ∧
      moment.policy.schemaVersion = run.cache.policy.schemaVersion ∧
      ageAt run.now moment.now ≤ run.cache.policy.maxAge.wholeMillis.toNat := by
  obtain ⟨artifact, ⟨moment, member, files⟩, text, fresh⟩ := (filed_of_reached reached).served served
  obtain ⟨sameSchema, sameHash, young⟩ := Cache.isFresh_iff.mp fresh
  generalize sameKey : cacheKey stage source = key at files
  cases files with
  | record now policy other recorded output =>
    obtain ⟨rfl, -⟩ := cacheKey_eq_iff.mp sameKey
    cases text
    exact ⟨_, member, recorded, rfl, sameHash, sameSchema, young⟩

/-- A text is recorded under one schema; under another the same source is recorded again while
nothing can be written. Back under the first schema and with the clock set back before the first
record, the store serves the first text, for a stamp that lies ahead has no age. -/
theorem served_was_recorded_before_clock_was_set_back :
    ∃ run : CacheRun (FaultyStore MemoryStore),
      Reached CacheRun.step OnlyLoses OpenedBare run ∧
      (run.cache.lookup run.now .fragment "raw").1 = some "one" ∧
      ∃ moment ∈ run.past, ∃ recorded, moment.event = .record .fragment recorded "one" ∧
        fingerprint recorded = fingerprint "raw" ∧
        moment.policy.schemaVersion = run.cache.policy.schemaVersion ∧
        ageAt run.now moment.now ≤ run.cache.policy.maxAge.wholeMillis.toNat := by
  let brief : CachePolicy := { maxAge := ⟨1, 0⟩ }
  have begins : Reached CacheRun.step OnlyLoses OpenedBare
      (CacheRun.opened brief ⟨5000⟩ (⟨{}, []⟩ : FaultyStore MemoryStore)) :=
    .start ⟨brief, ⟨5000⟩, ⟨{}, []⟩, rfl, fun _ => rfl⟩
  have filed := begins.step (CacheEvent.record .fragment "raw" "one") trivial
  have beside := filed.step (CacheEvent.record .vertex "raw" "three") trivial
  have deleted := beside.step _ (onlyLoses_delete (cacheKey .vertex "raw") rfl)
  have renewed := deleted.step (CacheEvent.reopen { brief with schemaVersion := 2 }) trivial
  have failing := renewed.step _ (onlyLoses_failing _ [.put])
  have unwritten := failing.step (CacheEvent.record .fragment "raw" "two") trivial
  have back := unwritten.step (CacheEvent.reopen brief) trivial
  have earlier := back.step (CacheEvent.setClock 3) trivial
  refine ⟨_, earlier, ?served, served_was_recorded earlier ?served⟩
  decide +kernel

end Overlay
