import Overlay.Proofs.Retention

/-! What may come back after it was replaced. Memory takes every record and the store takes those
that can be written, so from the first failure on the two tiers may disagree about a source. What a
lookup answers is nothing, or the latest record, or, once memory has lost a latest record that was
never written, the latest one of those that were. The invariant says of every entry of memory that
it is one of these two records of its source, and of every entry of the store that it is the second.
-/
namespace Overlay
open LawfulStore (held)
variable {σ : Type} [Store σ]

/-- A record of one source: what, when, and whether the store took it. -/
structure Filing where
  compiled : String
  stored : Millis
  written : Bool
  deriving DecidableEq, Repr

/-- The artifact that a filing puts into the cache. -/
def Filing.artifact (policy : CachePolicy) (source : String) (filing : Filing) : Artifact :=
  recordedArtifact policy source filing.compiled filing.stored

/-- Whether the store would take a record. -/
def CacheRun.writes (run : CacheRun σ) (stage : Stage) (source compiled : String) : Bool :=
  (Store.put run.cache.store run.now (cacheKey stage source)
    (recordedArtifact run.cache.policy source compiled run.now).encode).isOk

/-- The records of a source, the latest first. -/
def filings (stage : Stage) (source : String) : List (CacheRun σ × CacheEvent σ) → List Filing
  | [] => []
  | (run, .record other text compiled) :: earlier =>
    if other = stage ∧ text = source then
      ⟨compiled, run.now, run.writes stage source compiled⟩ :: filings stage source earlier
    else filings stage source earlier
  | _ :: earlier => filings stage source earlier

/-- The latest record that the store took. -/
def lastWritten (records : List Filing) : Option Filing :=
  records.find? (·.written)

/-- What a lookup may answer, given the records of its source and whether memory still has the
latest one. -/
inductive Recalls (records : List Filing) (remembered : Filing → Prop) : Option String → Prop where
  | nothing : Recalls records remembered none
  | latest {latest : Filing} (recorded : records.head? = some latest) :
      Recalls records remembered (some latest.compiled)
  /-- The latest record was not written and memory has lost it. -/
  | outdated {latest older : Filing} (recorded : records.head? = some latest)
      (unwritten : latest.written = false) (lost : ¬ remembered latest)
      (found : lastWritten records = some older) :
      Recalls records remembered (some older.compiled)

theorem filings_record_self (run : CacheRun σ) (stage : Stage) (source compiled : String)
    (past : List (CacheRun σ × CacheEvent σ)) :
    filings stage source ((run, .record stage source compiled) :: past) =
      ⟨compiled, run.now, run.writes stage source compiled⟩ :: filings stage source past := by
  simp [filings]

theorem filings_record_of_ne {stage other : Stage} {source text : String}
    (different : ¬ (stage = other ∧ source = text)) (run : CacheRun σ) (compiled : String)
    (past : List (CacheRun σ × CacheEvent σ)) :
    filings other text ((run, .record stage source compiled) :: past) =
      filings other text past := by
  simp [filings, different]

/-- An entry is the artifact of a chosen record of the source that its key stands for. -/
def Stems (chosen : List Filing → Filing → Prop) (policy : CachePolicy)
    (past : List (CacheRun σ × CacheEvent σ)) (key : String) (artifact : Artifact) : Prop :=
  ∃ stage source filing, chosen (filings stage source past) filing ∧
    key = cacheKey stage source ∧ artifact = filing.artifact policy source

/-- The latest record that was written. -/
def Written (records : List Filing) (filing : Filing) : Prop :=
  lastWritten records = some filing

/-- The latest record, or the latest one that was written. -/
def Standing (records : List Filing) (filing : Filing) : Prop :=
  records.head? = some filing ∨ Written records filing

/-- A record is no part of what is chosen under any other key. -/
private theorem Stems.of_record {chosen : List Filing → Filing → Prop} {policy : CachePolicy}
    {past : List (CacheRun σ × CacheEvent σ)} {key : String} {artifact : Artifact}
    (stems : Stems chosen policy past key artifact) {stage : Stage} {source : String}
    (apart : key ≠ cacheKey stage source) (run : CacheRun σ) (compiled : String) :
    Stems chosen policy ((run, .record stage source compiled) :: past) key artifact := by
  obtain ⟨other, text, filing, choice, rfl, shape⟩ := stems
  have different : ¬ (stage = other ∧ source = text) := by
    rintro ⟨rfl, rfl⟩
    exact apart rfl
  refine ⟨other, text, filing, ?_, rfl, shape⟩
  rwa [filings_record_of_ne different]

variable [LawfulStore σ]

/-- The clock does not go back, only the cache writes to its store, and the cache is reopened with
the policy it has. -/
def Steady (run : CacheRun σ) (event : CacheEvent σ) : Prop :=
  Forward run event ∧ ∀ policy, event = .reopen policy → policy = run.cache.policy

/-- Every entry of memory is the latest record of its source or the latest written one, every entry
of the store is the latter, and records follow each other in time. -/
structure Attributed (policy : CachePolicy) (chronicle : Chronicle (CacheRun σ) (CacheEvent σ)) :
    Prop where
  policy_same : chronicle.state.cache.policy = policy
  memory {key : String} {artifact : Artifact} :
    chronicle.state.cache.memory.get? key = some artifact →
      Stems Standing policy chronicle.past key artifact
  store {key : String} {content : Bytes} {artifact : Artifact} :
    held chronicle.state.cache.store key = some content → Artifact.decode? content = some artifact →
      Stems Written policy chronicle.past key artifact
  ordered (stage : Stage) (source : String) : (filings stage source chronicle.past).Pairwise
    fun later earlier => earlier.stored.toNat ≤ later.stored.toNat
  bygone {stage : Stage} {source : String} {filing : Filing} :
    filing ∈ filings stage source chronicle.past →
      filing.stored.toNat ≤ chronicle.state.now.toNat

namespace Attributed
variable {policy : CachePolicy} {chronicle : Chronicle (CacheRun σ) (CacheEvent σ)}

/-- One description fits both tiers. -/
private theorem entries (attributed : Attributed policy chronicle) :
    chronicle.state.cache.Holds (Stems Standing policy chronicle.past) := by
  refine ⟨attributed.memory, fun found read => ?_⟩
  obtain ⟨stage, source, filing, written, shape⟩ := attributed.store found read
  exact ⟨stage, source, filing, .inr written, shape⟩

/-- An event that records nothing and adds nothing to either tier leaves everything attributed. -/
private theorem quiet {event : CacheEvent σ} (attributed : Attributed policy chronicle)
    (silent : ∀ stage source, filings stage source ((chronicle.state, event) :: chronicle.past) =
      filings stage source chronicle.past)
    (same : (chronicle.state.step event).cache.policy = policy)
    (entries : ∀ describes, chronicle.state.cache.Holds describes →
      (chronicle.state.step event).cache.Holds describes)
    (shrinks : ∀ key content, held (chronicle.state.step event).cache.store key = some content →
      held chronicle.state.cache.store key = some content)
    (forward : chronicle.state.now.toNat ≤ (chronicle.state.step event).now.toNat) :
    Attributed policy (chronicle.extend CacheRun.step event) := by
  have stems : ∀ chosen, Stems chosen policy ((chronicle.state, event) :: chronicle.past) =
      Stems chosen policy chronicle.past := by
    intro chosen
    funext key artifact
    simp only [Stems, silent]
  refine ⟨same, fun found => ?_, fun found read => ?_, fun stage source => ?_, fun member => ?_⟩
  · change Stems Standing policy ((chronicle.state, event) :: chronicle.past) _ _
    rw [stems]
    exact (entries _ attributed.entries).memory found
  · change Stems Written policy ((chronicle.state, event) :: chronicle.past) _ _
    rw [stems]
    exact attributed.store (shrinks _ _ found) read
  · change (filings stage source ((chronicle.state, event) :: chronicle.past)).Pairwise _
    rw [silent]
    exact attributed.ordered stage source
  · change _ ∈ filings _ _ ((chronicle.state, event) :: chronicle.past) at member
    rw [silent] at member
    exact Nat.le_trans (attributed.bygone member) forward

/-- The store has the new record exactly if it took it. -/
private theorem store_record (attributed : Attributed policy chronicle) {stage : Stage}
    {source compiled key : String} {content : Bytes} {artifact : Artifact}
    (found : held (chronicle.state.step (.record stage source compiled)).cache.store key =
      some content) (read : Artifact.decode? content = some artifact) :
    Stems Written policy
      ((chronicle.state, .record stage source compiled) :: chronicle.past) key artifact := by
  let run := chronicle.state
  change held (run.cache.record run.now stage source compiled).store key = some content at found
  cases put : Store.put run.cache.store run.now (cacheKey stage source)
      (recordedArtifact run.cache.policy source compiled run.now).encode with
  | error error =>
    have unwritten : run.writes stage source compiled = false := by
      rw [CacheRun.writes, put]
      rfl
    rw [Cache.record_unwritten put] at found
    obtain ⟨other, text, filing, written, rfl, shape⟩ := attributed.store found read
    refine ⟨other, text, filing, ?_, rfl, shape⟩
    by_cases same : stage = other ∧ source = text
    · obtain ⟨rfl, rfl⟩ := same
      rw [Written, filings_record_self, lastWritten, List.find?_cons, unwritten]
      exact written
    · rwa [filings_record_of_ne same]
  | ok written =>
    rw [Cache.record_written put, LawfulStore.put_held put] at found
    split at found
    · rename_i sameKey
      cases found
      rw [Artifact.decode?_encode] at read
      cases read
      refine ⟨stage, source, ⟨compiled, run.now, true⟩, ?_, sameKey, ?_⟩
      · have taken : run.writes stage source compiled = true := by
          rw [CacheRun.writes, put]
          rfl
        rw [Written, filings_record_self, lastWritten, List.find?_cons, taken]
      · rw [← attributed.policy_same]
        rfl
    · rename_i apart
      exact (attributed.store found read).of_record apart run compiled

private theorem record (attributed : Attributed policy chronicle) (stage : Stage)
    (source compiled : String) :
    Attributed policy (chronicle.extend CacheRun.step (.record stage source compiled)) := by
  refine ⟨(Cache.record_policy ..).trans attributed.policy_same, fun found => ?_,
    fun found read => attributed.store_record found read, fun other text => ?_, fun member => ?_⟩
  · rcases Cache.record_found found with ⟨rfl, rfl⟩ | ⟨apart, found⟩
    · refine ⟨stage, source, _, .inl (congrArg List.head? (filings_record_self ..)), rfl, ?_⟩
      rw [← attributed.policy_same]
      rfl
    · exact (attributed.memory found).of_record apart chronicle.state compiled
  · change (filings other text
      ((chronicle.state, .record stage source compiled) :: chronicle.past)).Pairwise _
    by_cases same : stage = other ∧ source = text
    · obtain ⟨rfl, rfl⟩ := same
      rw [filings_record_self]
      exact List.pairwise_cons.mpr
        ⟨fun _ member => attributed.bygone member, attributed.ordered stage source⟩
    · rw [filings_record_of_ne same]
      exact attributed.ordered other text
  · rename_i other text filing
    change filing ∈ filings other text
      ((chronicle.state, .record stage source compiled) :: chronicle.past) at member
    by_cases same : stage = other ∧ source = text
    · obtain ⟨rfl, rfl⟩ := same
      rw [filings_record_self] at member
      rcases List.mem_cons.mp member with rfl | member
      · exact Nat.le_refl _
      · exact attributed.bygone member
    · rw [filings_record_of_ne same] at member
      exact attributed.bygone member

end Attributed

private theorem attributed_step {policy : CachePolicy}
    {chronicle : Chronicle (CacheRun σ) (CacheEvent σ)} {event : CacheEvent σ}
    (attributed : Attributed policy chronicle) (allowed : Steady chronicle.state event) :
    Attributed policy (chronicle.extend CacheRun.step event) := by
  obtain ⟨⟨forward, loses⟩, samePolicy⟩ := allowed
  have same := attributed.policy_same
  cases event with
  | record stage source compiled => exact attributed.record stage source compiled
  | lookup stage source =>
    exact attributed.quiet (fun _ _ => rfl) ((Cache.lookup_policy ..).trans same)
      (fun _ holds => holds.lookup _ _ _) (fun _ _ found => Cache.held_of_lookup found) forward
  | evict =>
    exact attributed.quiet (fun _ _ => rfl) ((Cache.evict_policy ..).trans same)
      (fun _ holds => holds.evict _) (fun _ _ found => Cache.held_of_expire found) forward
  | clear =>
    exact attributed.quiet (fun _ _ => rfl) ((Cache.clear_policy _).trans same)
      (fun _ holds => holds.clear) (fun _ _ found => Cache.held_of_clear found) forward
  | reopen policy =>
    exact attributed.quiet (fun _ _ => rfl)
      ((Cache.evict_policy ..).trans ((samePolicy policy rfl).trans same))
      (fun _ holds => holds.reopen _ _) (fun _ _ found => Cache.held_of_reopen found) forward
  | disturb store =>
    exact attributed.quiet (fun _ _ => rfl) same
      (fun _ holds => holds.shrink (fun _ _ found => found) loses) loses forward
  | advance step =>
    exact attributed.quiet (fun _ _ => rfl) same (fun _ holds => holds) (fun _ _ found => found)
      forward
  | setClock reading =>
    exact attributed.quiet (fun _ _ => rfl) same (fun _ holds => holds) (fun _ _ found => found)
      forward

theorem attributed_of_chronicled {chronicle : Chronicle (CacheRun σ) (CacheEvent σ)}
    (chronicled : Chronicled CacheRun.step Steady OpenedBare chronicle) :
    Attributed chronicle.state.cache.policy chronicle := by
  have attributed : ∃ policy, Attributed policy chronicle := by
    apply Reached.invariant chronicled
    · rintro ⟨run, past⟩ ⟨⟨policy, clock, store, rfl, empty⟩, rfl⟩
      have holds : ∀ describes, (Cache.start policy store clock.reading).Holds describes :=
        fun _ => (Cache.holds_empty empty).evict clock.reading
      refine ⟨policy, Cache.evict_policy _ _, (holds _).memory, (holds _).store,
        fun _ _ => List.Pairwise.nil, fun member => ?_⟩
      cases member
    · rintro chronicle event ⟨policy, attributed⟩ allowed
      exact ⟨policy, attributed_step attributed allowed⟩
  obtain ⟨policy, attributed⟩ := attributed
  rwa [attributed.policy_same]

/-- Text that stands for a source may be served unless memory still has another one. -/
private theorem Standing.recalls {records : List Filing} {filing : Filing}
    {remembered : Filing → Prop} (standing : Standing records filing)
    (same : ∀ latest, records.head? = some latest → remembered latest →
      latest.compiled = filing.compiled) :
    Recalls records remembered (some filing.compiled) := by
  rcases standing with recorded | written
  · exact .latest recorded
  · cases records with
    | nil => cases written
    | cons latest earlier =>
      by_cases taken : latest.written = true
      · rw [Written, lastWritten, List.find?_cons, taken, Option.some.injEq] at written
        rw [← written]
        exact .latest rfl
      · by_cases kept : remembered latest
        · rw [← same latest rfl kept]
          exact .latest rfl
        · exact .outdated rfl (Bool.eq_false_iff.mpr taken) kept written

/-- No record of a source is younger than its latest. -/
private theorem Attributed.latest_last {policy : CachePolicy}
    {chronicle : Chronicle (CacheRun σ) (CacheEvent σ)} (attributed : Attributed policy chronicle)
    {stage : Stage} {source : String} {latest filing : Filing}
    (recorded : (filings stage source chronicle.past).head? = some latest)
    (member : filing ∈ filings stage source chronicle.past) :
    filing.stored.toNat ≤ latest.stored.toNat := by
  have ordered := attributed.ordered stage source
  cases shape : filings stage source chronicle.past with
  | nil =>
    rw [shape] at member
    cases member
  | cons first earlier =>
    rw [shape] at recorded member ordered
    cases recorded
    rcases List.mem_cons.mp member with rfl | member
    · exact Nat.le_refl _
    · exact List.rel_of_pairwise_cons ordered member

omit [LawfulStore σ] in
/-- What lies under the key of a source was recorded for this source, for no other one has its
fingerprint. -/
private theorem Stems.here {chosen : List Filing → Filing → Prop} {policy : CachePolicy}
    {past : List (CacheRun σ × CacheEvent σ)} {stage : Stage} {source : String}
    {artifact : Artifact} (stems : Stems chosen policy past (cacheKey stage source) artifact)
    (apart : ∀ text, filings stage text past ≠ [] → fingerprint text = fingerprint source →
      text = source) (something : ∀ filing, ¬ chosen [] filing) :
    ∃ filing, chosen (filings stage source past) filing ∧
      artifact = filing.artifact policy source := by
  obtain ⟨other, text, filing, choice, sameKey, shape⟩ := stems
  obtain ⟨rfl, sameHash⟩ := cacheKey_eq_iff.mp sameKey
  have recorded : filings stage text past ≠ [] := by
    intro none
    rw [none] at choice
    exact something filing choice
  obtain rfl := apart text recorded sameHash.symm
  exact ⟨filing, choice, shape⟩

/-- Whichever calls of the store fail and whenever, a lookup answers with nothing or with the latest
record of its source, but for one case: if the latest record was not written and memory has lost it,
the latest record that was written may be served again. -/
theorem replaced_returns_only_after_unwritten_loss
    {chronicle : Chronicle (CacheRun σ) (CacheEvent σ)}
    (chronicled : Chronicled CacheRun.step Steady OpenedBare chronicle) (stage : Stage)
    (source : String) (apart : ∀ text, filings stage text chronicle.past ≠ [] →
      fingerprint text = fingerprint source → text = source) :
    let run := chronicle.state
    Recalls (filings stage source chronicle.past)
      (fun filing => run.cache.memory.get? (cacheKey stage source) =
        some (filing.artifact run.cache.policy source))
      (run.cache.lookup run.now stage source).1 := by
  have attributed := attributed_of_chronicled chronicled
  have outcome := chronicle.state.cache.lookup_outcome chronicle.state.now stage source
  dsimp only
  generalize (chronicle.state.cache.lookup chronicle.state.now stage source).1 = answer at outcome ⊢
  generalize (chronicle.state.cache.lookup chronicle.state.now stage source).2 = after at outcome
  cases outcome with
  | remembered found fresh =>
    obtain ⟨filing, standing, rfl⟩ := (attributed.memory found).here apart
      (by simp [Standing, Written, lastWritten])
    refine standing.recalls fun latest _ kept => ?_
    rw [found, Option.some.injEq] at kept
    exact (congrArg Artifact.compiledSource kept).symm
  | promoted unserved found fresh =>
    obtain ⟨content, held, read⟩ := Cache.held_of_persisted found
    obtain ⟨filing, written, rfl⟩ := (attributed.store held read).here apart
      (by simp [Written, lastWritten])
    refine Standing.recalls (.inr written) fun latest recorded kept => ?_
    -- Were the latest still in memory, it would be at least as fresh as what the store has.
    have stale := unserved _ kept
    have younger := attributed.latest_last recorded (List.mem_of_find?_eq_some written)
    rw [Cache.isFresh_iff] at fresh
    have fresh : chronicle.state.cache.isFresh
        (latest.artifact chronicle.state.cache.policy source) (fingerprint source)
        chronicle.state.now = true := by
      rw [Cache.isFresh_iff]
      refine ⟨rfl, rfl, Nat.le_trans ?_ fresh.2.2⟩
      exact Nat.sub_le_sub_left younger _
    rw [stale] at fresh
    cases fresh
  | missing => exact .nothing
  | dropped => exact .nothing

theorem steady_record (run : CacheRun σ) (stage : Stage) (source compiled : String) :
    Steady run (.record stage source compiled) :=
  ⟨⟨Nat.le_refl _, trivial⟩, nofun⟩

theorem steady_reopen (run : CacheRun σ) : Steady run (.reopen run.cache.policy) :=
  ⟨⟨Nat.le_refl _, trivial⟩, by rintro _ ⟨⟩; rfl⟩

/-- Other calls may fail from now on at any moment. -/
theorem steady_failing (run : CacheRun (FaultyStore σ)) (failing : List StoreCall) :
    Steady run (.disturb { run.cache.store with failing }) :=
  ⟨⟨Nat.le_refl _, onlyLoses_failing run failing⟩, nofun⟩

/-- After two records of which the second could not be written, a cache opened anew serves the first
one, and this is what the general statement allows. -/
theorem replaced_returns_only_after_unwritten_loss_at_reopening :
    ∃ chronicle : Chronicle (CacheRun (FaultyStore MemoryStore))
        (CacheEvent (FaultyStore MemoryStore)),
      Chronicled CacheRun.step Steady OpenedBare chronicle ∧
      (∀ text, filings .fragment text chronicle.past ≠ [] →
        fingerprint text = fingerprint "raw" → text = "raw") ∧
      filings .fragment "raw" chronicle.past = [⟨"two", 2000, false⟩, ⟨"one", 1000, true⟩] ∧
      (chronicle.state.cache.lookup chronicle.state.now .fragment "raw").1 = some "one" ∧
      Recalls (filings .fragment "raw" chronicle.past)
        (fun filing => chronicle.state.cache.memory.get? (cacheKey .fragment "raw") =
          some (filing.artifact chronicle.state.cache.policy "raw"))
        (chronicle.state.cache.lookup chronicle.state.now .fragment "raw").1 := by
  have begins : Chronicled CacheRun.step Steady OpenedBare
      ⟨CacheRun.opened {} ⟨1000⟩ (⟨{}, []⟩ : FaultyStore MemoryStore), []⟩ :=
    .start ⟨⟨_, _, _, rfl, fun _ => rfl⟩, rfl⟩
  have written := begins.step _ (steady_record _ .fragment "raw" "one")
  have later := written.step (CacheEvent.advance ⟨1, 0⟩)
    ⟨⟨by decide +kernel, trivial⟩, nofun⟩
  have failing := later.step _ (steady_failing _ [.put])
  have unwritten := failing.step _ (steady_record _ .fragment "raw" "two")
  have anew := unwritten.step _ (steady_reopen _)
  refine ⟨_, anew, ?apart, by decide +kernel, by decide +kernel,
    replaced_returns_only_after_unwritten_loss anew .fragment "raw" ?apart⟩
  intro text recorded _
  by_cases same : text = "raw"
  · exact same
  · exact absurd (by simp [Chronicle.extend, filings, Ne.symm same]) recorded

/-- So a text that was replaced can come back. -/
theorem replaced_returns :
    ∃ run : CacheRun (FaultyStore MemoryStore),
      Reached CacheRun.step Steady OpenedBare run ∧
      Apart ("raw" :: CacheRun.sources run.past) ∧
      lastRecorded .fragment "raw" run.past = some ("two", 1000) ∧
      (run.cache.lookup run.now .fragment "raw").1 = some "one" := by
  have begins : Reached CacheRun.step Steady OpenedBare
      (CacheRun.opened {} ⟨1000⟩ (⟨{}, []⟩ : FaultyStore MemoryStore)) :=
    .start ⟨_, _, _, rfl, fun _ => rfl⟩
  have written := begins.step _ (steady_record _ .fragment "raw" "one")
  have failing := written.step _ (steady_failing _ [.put])
  have unwritten := failing.step _ (steady_record _ .fragment "raw" "two")
  have anew := unwritten.step _ (steady_reopen _)
  have apart : Apart ["raw"] := by
    unfold Apart
    decide +kernel
  exact ⟨_, anew, apart.mono (by decide +kernel), by decide +kernel, by decide +kernel⟩

end Overlay
