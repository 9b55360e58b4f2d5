import Overlay.Proofs.CacheProvenance
import Overlay.Proofs.CacheRefinement

/-! What memory keeps. Trimming takes the oldest entries first and, of equally old ones, those with
the least keys, so whether an entry stays is decided by counting the entries that outlast it. For an
entry that was recorded just now that count comes from ties alone: on a clock that never goes back
nothing is younger, but what was recorded at the same reading under a greater key goes after it. A
record whose copy in memory goes this way is served by the store or not at all. -/
namespace Overlay.Cache
variable {σ : Type}

/-! ### The order of leaving -/

/-- By creation time, and by key at equal times. -/
theorem leavesBefore_iff {one other : String × Artifact} :
    leavesBefore one other = true ↔ one.2.createdAt.toNat < other.2.createdAt.toNat ∨
      one.2.createdAt.toNat = other.2.createdAt.toNat ∧ one.1 ≤ other.1 := by
  simp only [leavesBefore, Bool.or_eq_true, Bool.and_eq_true, beq_iff_eq, decide_eq_true_eq,
    UInt64.lt_iff_toNat_lt, UInt64.toNat_inj]

private theorem leavesBefore_refl (entry : String × Artifact) : leavesBefore entry entry = true :=
  leavesBefore_iff.mpr (.inr ⟨rfl, String.le_refl _⟩)

private theorem leavesBefore_trans {one other third : String × Artifact}
    (first : leavesBefore one other = true) (second : leavesBefore other third = true) :
    leavesBefore one third = true := by
  rw [leavesBefore_iff] at first second ⊢
  rcases first with older | ⟨same, before⟩
  · left
    omega
  · rcases second with older | ⟨alsoSame, alsoBefore⟩
    · left
      omega
    · exact .inr ⟨same.trans alsoSame, String.le_trans before alsoBefore⟩

private theorem leavesBefore_of_not {one other : String × Artifact}
    (later : ¬ leavesBefore one other = true) : leavesBefore other one = true := by
  rw [leavesBefore_iff] at later ⊢
  rcases Nat.lt_trichotomy one.2.createdAt.toNat other.2.createdAt.toNat with older | same | younger
  · exact absurd (.inl older) later
  · exact .inr ⟨same.symm, (String.le_total one.1 other.1).resolve_left fun before =>
      later (.inr ⟨same, before⟩)⟩
  · exact .inl younger

/-- Two entries that leave before each other have one key. -/
theorem key_of_leavesBefore {one other : String × Artifact}
    (first : leavesBefore one other = true) (second : leavesBefore other one = true) :
    one.1 = other.1 := by
  rw [leavesBefore_iff] at first second
  rcases first with older | ⟨same, before⟩
  · omega
  · rcases second with older | ⟨-, after⟩
    · omega
    · exact String.le_antisymm before after

theorem first?_cons (head : String × Artifact) (rest : List (String × Artifact)) :
    ∃ first, first? (head :: rest) = some first := by
  simp only [first?]
  split
  · exact ⟨_, rfl⟩
  · split <;> exact ⟨_, rfl⟩

/-- The first to leave is one of the entries and leaves before each of them. -/
theorem first?_least {entries : List (String × Artifact)} {first : String × Artifact}
    (chosen : first? entries = some first) :
    first ∈ entries ∧ ∀ entry ∈ entries, leavesBefore first entry = true := by
  induction entries generalizing first with
  | nil => cases chosen
  | cons head rest ih =>
    simp only [first?] at chosen
    split at chosen
    · rename_i restEmpty
      cases chosen
      have nothing : rest = [] := by
        cases rest with
        | nil => rfl
        | cons next others =>
          obtain ⟨_, chosen⟩ := first?_cons next others
          rw [chosen] at restEmpty
          cases restEmpty
      subst rest
      exact ⟨List.mem_cons_self, fun entry member => by
        rw [List.mem_singleton.mp member]
        exact leavesBefore_refl _⟩
    · rename_i other restChosen
      obtain ⟨member, least⟩ := ih restChosen
      split at chosen
      · rename_i before
        cases chosen
        refine ⟨List.mem_cons_self, fun entry listed => ?_⟩
        rcases List.mem_cons.mp listed with rfl | listed
        · exact leavesBefore_refl _
        · exact leavesBefore_trans before (least entry listed)
      · rename_i notBefore
        cases chosen
        refine ⟨List.mem_cons_of_mem _ member, fun entry listed => ?_⟩
        rcases List.mem_cons.mp listed with rfl | listed
        · exact leavesBefore_of_not notBefore
        · exact least entry listed

/-! ### Trimming -/

/-- How many entries are still in memory when it is an entry's turn to leave. -/
def outlasting (memory : Table String Artifact) (entry : String × Artifact) : Nat :=
  memory.entries.countP fun other => other.1 != entry.1 && leavesBefore entry other

section Memory
variable {memory : Table String Artifact} {key : String} {artifact : Artifact}

/-- All that outlast an entry are others. -/
private theorem outlasting_lt_size (ascending : memory.Ascending)
    (found : memory.get? key = some artifact) :
    outlasting memory (key, artifact) < memory.size := by
  have others : outlasting memory (key, artifact) ≤ (memory.erase key).size := by
    rw [Table.size, Table.erase, ← List.countP_eq_length_filter]
    refine List.countP_mono_left fun entry _ counted => ?_
    rw [Bool.and_eq_true, bne_iff_ne] at counted
    exact decide_eq_true counted.1
  have size := ascending.size_erase found
  omega

/-- All others outlast the first to leave. -/
private theorem outlasting_first (ascending : memory.Ascending)
    (chosen : first? memory.entries = some (key, artifact)) :
    outlasting memory (key, artifact) + 1 = memory.size := by
  obtain ⟨member, least⟩ := first?_least chosen
  rw [← ascending.size_erase (ascending.mem_entries.mp member), Table.size, Table.erase,
    ← List.countP_eq_length_filter, outlasting]
  congr 1
  refine List.countP_congr fun entry listed => ?_
  simp [least entry listed]

/-- What leaves earlier than an entry is none of those that outlast it. -/
private theorem outlasting_erase {first : String × Artifact} (ascending : memory.Ascending)
    (listed : first ∈ memory.entries) (before : leavesBefore first (key, artifact) = true)
    (apart : first.1 ≠ key) :
    outlasting (memory.erase first.1) (key, artifact) = outlasting memory (key, artifact) := by
  rw [outlasting, Table.erase, List.countP_filter, outlasting]
  refine List.countP_congr fun entry member => ?_
  simp only [Bool.and_eq_true, decide_eq_true_eq, and_iff_left_iff_imp]
  rintro ⟨-, after⟩ sameKey
  have same : entry = first := by
    obtain ⟨entryKey, entryArtifact⟩ := entry
    obtain ⟨firstKey, firstArtifact⟩ := first
    obtain rfl : entryKey = firstKey := sameKey
    have found := ascending.mem_entries.mp member
    rw [ascending.mem_entries.mp listed, Option.some.injEq] at found
    rw [found]
  rw [same] at after
  exact apart (key_of_leavesBefore before after)

/-- An entry survives as many departures as leave room for those that outlast it and for itself. -/
theorem dropOldest_keeps_iff {count : Nat} (ascending : memory.Ascending)
    (found : memory.get? key = some artifact) :
    (dropOldest count memory).get? key = some artifact ↔
      count + outlasting memory (key, artifact) < memory.size := by
  induction count generalizing memory with
  | zero => simp [dropOldest, found, outlasting_lt_size ascending found]
  | succ count ih =>
    have member := ascending.mem_entries.mpr found
    simp only [dropOldest]
    cases chosen : first? memory.entries with
    | none =>
      cases listed : memory.entries with
      | nil => simp [listed] at member
      | cons head rest =>
        obtain ⟨_, someChosen⟩ := first?_cons head rest
        rw [listed, someChosen] at chosen
        cases chosen
    | some first =>
      obtain ⟨firstKey, firstArtifact⟩ := first
      obtain ⟨listed, least⟩ := first?_least chosen
      have firstFound := ascending.mem_entries.mp listed
      dsimp only
      by_cases same : firstKey = key
      · subst same
        rw [found, Option.some.injEq] at firstFound
        subst firstFound
        have last := outlasting_first ascending chosen
        refine iff_of_false (fun kept => ?_) (by omega)
        simpa using dropOldest_found kept
      · have size := ascending.size_erase firstFound
        have still : (memory.erase firstKey).get? key = some artifact := by
          rw [Table.get?_erase_of_ne _ (Ne.symm same), found]
        rw [ih (ascending.erase _) still, outlasting_erase ascending listed (least _ member) same]
        omega

theorem ascending_dropOldest (count : Nat) (ascending : memory.Ascending) :
    (dropOldest count memory).Ascending := by
  induction count generalizing memory with
  | zero => exact ascending
  | succ count ih =>
    simp only [dropOldest]
    split
    · exact ascending
    · exact ih (ascending.erase _)

end Memory

/-- Trimming keeps an entry exactly if those that outlast it leave it room. -/
theorem trim_get? {cache : Cache σ} {key : String} {artifact : Artifact}
    (ascending : cache.memory.Ascending) (found : cache.memory.get? key = some artifact) :
    cache.trim.2.memory.get? key =
      if outlasting cache.memory (key, artifact) < cache.policy.memoryCapacity then some artifact
      else none := by
  have outlasted := outlasting_lt_size ascending found
  have keeps : cache.trim.2.memory.get? key = some artifact ↔
      cache.memory.size - cache.policy.memoryCapacity + outlasting cache.memory (key, artifact) <
        cache.memory.size := dropOldest_keeps_iff ascending found
  split
  · exact keeps.mpr (by omega)
  · cases left : cache.trim.2.memory.get? key with
    | none => rfl
    | some other =>
      have same := trim_found left
      rw [found] at same
      rw [← same] at left
      have := keeps.mp left
      omega

/-! ### The listing of memory -/

variable [Store σ] {cache : Cache σ}

theorem ascending_lookup (ascending : cache.memory.Ascending) (now : Millis) (stage : Stage)
    (source : String) : (cache.lookup now stage source).2.memory.Ascending := by
  have outcome := cache.lookup_outcome now stage source
  generalize (cache.lookup now stage source).1 = answer at outcome
  generalize (cache.lookup now stage source).2 = after at outcome ⊢
  cases outcome with
  | remembered => exact ascending
  | promoted => exact ascending_dropOldest _ ((ascending.erase _).insert _ _)
  | missing => exact ascending.erase _
  | dropped =>
    rw [dropPersistent_memory]
    exact ascending.erase _

theorem ascending_record (ascending : cache.memory.Ascending) (now : Millis) (stage : Stage)
    (source compiled : String) : (cache.record now stage source compiled).memory.Ascending := by
  apply ascending_dropOldest
  rw [persist_memory]
  exact ascending.insert _ _

theorem ascending_evict (ascending : cache.memory.Ascending) (now : Millis) :
    (cache.evict now).2.memory.Ascending := by
  apply ascending_dropOldest
  rw [expire_memory]
  exact ascending

/-! ### A record and the lookup after it -/

/-- What the store alone has to say about a source. -/
def persistedAnswer (cache : Cache σ) (now : Millis) (stage : Stage) (source : String) :
    Option String :=
  match cache.persisted (cacheKey stage source) with
  | .held artifact =>
    if cache.isFresh artifact (fingerprint source) now then some artifact.compiledSource else none
  | _ => none

/-- Fresh memory answers. -/
theorem lookup_remembered {now : Millis} {stage : Stage} {source : String} {artifact : Artifact}
    (found : cache.memory.get? (cacheKey stage source) = some artifact)
    (fresh : cache.isFresh artifact (fingerprint source) now = true) :
    (cache.lookup now stage source).1 = some artifact.compiledSource := by
  rw [lookup_fresh found fresh]

/-- Where memory has nothing the store answers. -/
theorem lookup_forgotten {now : Millis} {stage : Stage} {source : String}
    (absent : cache.memory.get? (cacheKey stage source) = none) :
    (cache.lookup now stage source).1 = cache.persistedAnswer now stage source := by
  have outcome := cache.lookup_outcome now stage source
  generalize (cache.lookup now stage source).1 = answer at outcome ⊢
  generalize (cache.lookup now stage source).2 = after at outcome
  cases outcome with
  | remembered found =>
    rw [absent] at found
    cases found
  | promoted unserved found fresh => simp [persistedAnswer, found, fresh]
  | missing unserved gone => simp [persistedAnswer, gone]
  | dropped unserved present stale =>
    unfold persistedAnswer
    split
    · rename_i artifact held
      simp [stale artifact held]
    · rfl

/-- Where neither tier has an entry nothing is found. -/
theorem lookup_vacant [LawfulStore σ] {now : Millis} {stage : Stage} {source : String}
    (forgotten : cache.memory.get? (cacheKey stage source) = none)
    (empty : LawfulStore.held cache.store (cacheKey stage source) = none) :
    (cache.lookup now stage source).1 = none := by
  rw [lookup_forgotten forgotten]
  unfold persistedAnswer persisted
  cases got : Store.get cache.store (cacheKey stage source) with
  | error fault => rfl
  | ok found =>
    obtain rfl : none = found := empty.symm.trans (LawfulStore.get_held got)
    rfl

/-- The store's answer depends on the store and the policy alone. -/
theorem persistedAnswer_congr {one other : Cache σ} (policy : one.policy = other.policy)
    (store : one.store = other.store) (now : Millis) (stage : Stage) (source : String) :
    one.persistedAnswer now stage source = other.persistedAnswer now stage source := by
  obtain ⟨onePolicy, oneMemory, oneStore⟩ := one
  obtain rfl : onePolicy = other.policy := policy
  obtain rfl : oneStore = other.store := store
  rfl

/-- The artifact of a record just made is fresh. -/
private theorem record_isFresh (cache : Cache σ) (now : Millis) (stage : Stage)
    (source compiled : String) :
    (cache.record now stage source compiled).isFresh
      (recordedArtifact cache.policy source compiled now) (fingerprint source) now = true := by
  rw [isFresh_iff, record_policy]
  refine ⟨rfl, rfl, ?_⟩
  rw [recordedArtifact, ageAt, Nat.sub_self]
  exact Nat.zero_le _

theorem record_get? (ascending : cache.memory.Ascending) (now : Millis) (stage : Stage)
    (source compiled : String) :
    (cache.record now stage source compiled).memory.get? (cacheKey stage source) =
      if outlasting cache.memory
          (cacheKey stage source, recordedArtifact cache.policy source compiled now) <
        cache.policy.memoryCapacity
      then some (recordedArtifact cache.policy source compiled now) else none := by
  let artifact := recordedArtifact cache.policy source compiled now
  let inserted : Cache σ :=
    { cache with memory := cache.memory.insert (cacheKey stage source) artifact }
  have memory : (inserted.persist now (cacheKey stage source) artifact).memory = inserted.memory :=
    persist_memory ..
  have policy : (inserted.persist now (cacheKey stage source) artifact).policy = cache.policy :=
    persist_policy ..
  have blind : outlasting inserted.memory (cacheKey stage source, artifact) =
      outlasting cache.memory (cacheKey stage source, artifact) :=
    Table.countP_insert _ _ _ fun _ => by simp
  have order : (inserted.persist now (cacheKey stage source) artifact).memory.Ascending := by
    rw [memory]
    exact ascending.insert _ _
  have found : (inserted.persist now (cacheKey stage source) artifact).memory.get?
      (cacheKey stage source) = some artifact := by
    rw [memory]
    exact Table.get?_insert_self ..
  have trimmed := trim_get? order found
  rwa [memory, policy, blind] at trimmed

/-- The store after a record that can be written. -/
theorem record_written {now : Millis} {stage : Stage} {source compiled : String} {written : σ}
    (put : Store.put cache.store now (cacheKey stage source)
      (recordedArtifact cache.policy source compiled now).encode = .ok written) :
    (cache.record now stage source compiled).store = written := by
  change Store.put cache.store now (keyFor stage (fingerprint source)) (Artifact.encode
    ⟨compiled, fingerprint source, now, cache.policy.schemaVersion⟩) = _ at put
  simp [record, persist, put]

/-- The store after a record that cannot be written. -/
theorem record_unwritten {now : Millis} {stage : Stage} {source compiled : String}
    {error : StoreError}
    (put : Store.put cache.store now (cacheKey stage source)
      (recordedArtifact cache.policy source compiled now).encode = .error error) :
    (cache.record now stage source compiled).store = cache.store := by
  change Store.put cache.store now (keyFor stage (fingerprint source)) (Artifact.encode
    ⟨compiled, fingerprint source, now, cache.policy.schemaVersion⟩) = _ at put
  simp [record, persist, put]

/-- What the store has to say about a source right after a record of it: the new text if it could be
written and can be read, and if it could not be written whatever was there before. -/
def answerPastMemory (cache : Cache σ) (now : Millis) (stage : Stage) (source compiled : String) :
    Option String :=
  match Store.put cache.store now (cacheKey stage source)
      (recordedArtifact cache.policy source compiled now).encode with
  | .error _ => cache.persistedAnswer now stage source
  | .ok written =>
    match Store.get written (cacheKey stage source) with
    | .ok _ => some compiled
    | .error _ => none

theorem persistedAnswer_record [LawfulStore σ] (cache : Cache σ) (now : Millis) (stage : Stage)
    (source compiled : String) :
    (cache.record now stage source compiled).persistedAnswer now stage source =
      cache.answerPastMemory now stage source compiled := by
  have policy := cache.record_policy now stage source compiled
  unfold answerPastMemory
  split
  · rename_i put
    exact persistedAnswer_congr policy (record_unwritten put) now stage source
  · rename_i written put
    have fresh := cache.record_isFresh now stage source compiled
    have store : (cache.record now stage source compiled).store = written := record_written put
    split
    · rename_i found got
      have held := (LawfulStore.get_held got).symm.trans (LawfulStore.put_held put _)
      rw [if_pos rfl] at held
      subst held
      simp only [persistedAnswer, persisted, store, got, Artifact.decode?_encode, fresh, if_true]
      rfl
    · rename_i got
      simp only [persistedAnswer, persisted, store, got]

/-- Right after a record memory answers with the new text if there is room for it, and otherwise the
store answers. -/
theorem lookup_record [LawfulStore σ] (ascending : cache.memory.Ascending) (now : Millis)
    (stage : Stage) (source compiled : String) :
    ((cache.record now stage source compiled).lookup now stage source).1 =
      if outlasting cache.memory
          (cacheKey stage source, recordedArtifact cache.policy source compiled now) <
        cache.policy.memoryCapacity
      then some compiled else cache.answerPastMemory now stage source compiled := by
  have kept := record_get? ascending now stage source compiled
  split
  · rename_i room
    rw [if_pos room] at kept
    exact lookup_remembered kept (cache.record_isFresh now stage source compiled)
  · rename_i crowded
    rw [if_neg crowded] at kept
    rw [lookup_forgotten kept, persistedAnswer_record]

end Overlay.Cache

namespace Overlay
variable {σ : Type} [Store σ] [LawfulStore σ]

/-! ### Runs on a clock that never goes back -/

/-- The clock does not go back, and only the cache writes to its store. -/
def Forward (run : CacheRun σ) (event : CacheEvent σ) : Prop :=
  run.now.toNat ≤ (CacheRun.clockAfter run.clock event).reading.toNat ∧ OnlyLoses run event

/-- Memory lists its entries in order, and no entry of either tier is from the future. -/
structure InTime (run : CacheRun σ) : Prop where
  ascending : run.cache.memory.Ascending
  past : run.cache.Holds fun _ artifact => artifact.createdAt.toNat ≤ run.now.toNat

private theorem inTime_step {run : CacheRun σ} {event : CacheEvent σ} (inTime : InTime run)
    (allowed : Forward run event) : InTime (run.step event) := by
  obtain ⟨forward, loses⟩ := allowed
  have still : run.cache.Holds fun _ artifact =>
      artifact.createdAt.toNat ≤ (run.step event).now.toNat :=
    inTime.past.mono fun _ _ older => Nat.le_trans older forward
  cases event with
  | record stage source compiled =>
    exact ⟨Cache.ascending_record inTime.ascending _ _ _ _, still.record (Nat.le_refl _)⟩
  | lookup stage source =>
    exact ⟨Cache.ascending_lookup inTime.ascending _ _ _, still.lookup _ _ _⟩
  | evict => exact ⟨Cache.ascending_evict inTime.ascending _, still.evict _⟩
  | clear =>
    refine ⟨?_, still.clear⟩
    change run.cache.clear.memory.Ascending
    rw [Cache.clear_memory]
    exact Table.ascending_empty
  | reopen policy =>
    exact ⟨Cache.ascending_evict Table.ascending_empty _, still.reopen _ _⟩
  | disturb store => exact ⟨inTime.ascending, still.shrink (fun _ _ found => found) loses⟩
  | advance step => exact ⟨inTime.ascending, still⟩
  | setClock reading => exact ⟨inTime.ascending, still⟩

theorem inTime_of_reached {run : CacheRun σ}
    (reached : Reached CacheRun.step Forward OpenedBare run) : InTime run := by
  apply reached.invariant
  · rintro run ⟨policy, clock, store, rfl, empty⟩
    exact ⟨Cache.ascending_evict Table.ascending_empty _,
      (Cache.holds_empty empty).evict clock.reading⟩
  · intro run event inTime allowed
    exact inTime_step inTime allowed

/-- How many entries of memory an entry of the present reading has to give way to: those of the same
reading under a greater key. -/
def rivals (memory : Table String Artifact) (now : Millis) (key : String) : Nat :=
  memory.entries.countP fun entry => entry.2.createdAt == now && decide (key < entry.1)

/-- Where nothing is from the future only rivals outlast what is new. -/
private theorem outlasting_eq_rivals {run : CacheRun σ} (inTime : InTime run) {key : String}
    {artifact : Artifact} (new : artifact.createdAt = run.now) :
    Cache.outlasting run.cache.memory (key, artifact) = rivals run.cache.memory run.now key := by
  rw [Cache.outlasting, rivals]
  refine List.countP_congr fun entry listed => ?_
  have older := inTime.past.memory (inTime.ascending.mem_entries.mp listed)
  simp only [Bool.and_eq_true, bne_iff_ne, ne_eq, Cache.leavesBefore_iff, new, beq_iff_eq,
    decide_eq_true_eq]
  constructor
  · rintro ⟨apart, younger | ⟨same, before⟩⟩
    · omega
    · exact ⟨UInt64.toNat_inj.mp same.symm, Std.lt_of_le_of_ne before (Ne.symm apart)⟩
  · rintro ⟨same, before⟩
    refine ⟨fun equal => ?_, .inr ⟨?_, ?_⟩⟩
    · rw [equal] at before
      exact String.lt_irrefl _ before
    · rw [same]
    · exact Std.le_of_lt before

/-- A lookup right after a record at the same reading of the clock answers with the recorded text,
whichever calls of the store fail, unless as many entries as memory has room for were created at
this very reading under greater keys. Then the copy in memory is trimmed away at once and the store
answers: with the recorded text if that could be written and can be read, with nothing if it was
written and cannot be read, and with what it held before if it was not written. -/
theorem record_is_served_unless_crowded_out {run : CacheRun σ}
    (reached : Reached CacheRun.step Forward OpenedBare run) (stage : Stage)
    (source compiled : String) :
    let after := run.step (.record stage source compiled)
    (after.cache.lookup after.now stage source).1 =
      if rivals run.cache.memory run.now (cacheKey stage source) < run.cache.policy.memoryCapacity
      then some compiled else run.cache.answerPastMemory run.now stage source compiled := by
  have inTime := inTime_of_reached reached
  have answer := Cache.lookup_record inTime.ascending run.now stage source compiled
  rwa [outlasting_eq_rivals inTime rfl] at answer

/-- With room for one entry and a store that cannot be written, what is recorded second at one
reading is served because its key is the greater one. -/
theorem record_is_served_under_greatest_key :
    ∃ run : CacheRun (FaultyStore MemoryStore),
      Reached CacheRun.step Forward OpenedBare run ∧
      run.cache.policy.memoryCapacity = 1 ∧ run.cache.memory.size = 1 ∧
      let after := run.step (.record .fragment "raw" "two")
      (after.cache.lookup after.now .fragment "raw").1 = some "two" := by
  have begins : Reached CacheRun.step Forward OpenedBare
      (CacheRun.opened { memoryCapacity := 1 } ⟨1000⟩
        (⟨{}, [.put]⟩ : FaultyStore MemoryStore)) :=
    .start ⟨_, _, _, rfl, fun _ => rfl⟩
  have first := begins.step (CacheEvent.record .vertex "raw" "one") ⟨Nat.le_refl _, trivial⟩
  refine ⟨_, first, rfl, by decide +kernel, ?_⟩
  exact (record_is_served_unless_crowded_out first .fragment "raw" "two").trans
    (by decide +kernel)

/-- With the keys the other way round what is recorded second is not served: the copy in memory gave
way to the entry recorded before, and the store has no other. -/
theorem record_is_crowded_out_under_lesser_key :
    ∃ run : CacheRun (FaultyStore MemoryStore),
      Reached CacheRun.step Forward OpenedBare run ∧
      run.cache.policy.memoryCapacity = 1 ∧
      let after := run.step (.record .vertex "raw" "two")
      (after.cache.lookup after.now .vertex "raw").1 = none := by
  have begins : Reached CacheRun.step Forward OpenedBare
      (CacheRun.opened { memoryCapacity := 1 } ⟨1000⟩
        (⟨{}, [.put]⟩ : FaultyStore MemoryStore)) :=
    .start ⟨_, _, _, rfl, fun _ => rfl⟩
  have first := begins.step (CacheEvent.record .fragment "raw" "one") ⟨Nat.le_refl _, trivial⟩
  exact ⟨_, first, rfl, by decide +kernel⟩

end Overlay
