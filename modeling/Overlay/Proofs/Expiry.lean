import Overlay.Proofs.CacheTiers
import Overlay.Proofs.StoreFrames

/-! What an eviction does to each entry of the store. The entries are gone through one by one and
the store changes on the way, but in a framed store a deletion makes no difference to what is found
out about the others. So the fate of an entry can be told before the eviction begins: it goes if
it is listed, its stamp is told and lies further back than the limit, and the store lets it go;
otherwise nothing about it changes. An entry that goes does so once, however often it is listed, so
the count is the number of entries that went. -/
namespace Overlay

/-- What is left of a store when entries are deleted one after another. -/
inductive Deletions {σ : Type} [Store σ] : σ → List String → σ → Prop where
  | nil {store : σ} : Deletions store [] store
  | cons {store next after : σ} {key : String} {keys : List String}
      (deleted : Store.delete store key = .ok next) (further : Deletions next keys after) :
      Deletions store (key :: keys) after

namespace Deletions
variable {σ : Type} [Store σ] [FramedStore σ] {store after : σ} {gone : List String} {key : String}

/-- Nothing about an entry that is not deleted is changed. -/
theorem same (deletions : Deletions store gone after) (kept : key ∉ gone) :
    SameEntry key after store := by
  induction deletions with
  | nil => exact .refl _ _
  | cons deleted _ ih =>
    obtain ⟨apart, later⟩ := not_or.mp (mt List.mem_cons.mpr kept)
    exact (ih later).trans (FramedStore.delete_others deleted apart)

/-- What has been deleted has no stamp in the end. -/
theorem unstamped (deletions : Deletions store gone after) (listed : key ∈ gone)
    (stamp : Millis) : Store.modified after key ≠ .ok (some stamp) := by
  induction deletions with
  | nil => cases listed
  | @cons _ next _ first rest deleted further ih =>
    by_cases again : key ∈ rest
    · exact ih again
    · obtain rfl : key = first := (List.mem_cons.mp listed).resolve_right again
      rw [(further.same again).modified]
      exact FramedStore.delete_unstamped deleted stamp

end Deletions

namespace Cache
variable {σ : Type} [Store σ] {cache : Cache σ} {now : Millis} {key : String} {keys : List String}

/-- An entry has expired when a stamp is told that lies further back than the limit. -/
theorem isExpired_iff_stamp :
    cache.isExpired now key = true ↔ ∃ stamp, Store.modified cache.store key = .ok (some stamp) ∧
      cache.policy.maxAge.wholeMillis.toNat < ageAt now stamp := by
  unfold isExpired
  split
  · rename_i stamp told
    simp [told]
  · rename_i untold
    refine iff_of_false Bool.false_ne_true ?_
    rintro ⟨stamp, told, -⟩
    exact untold stamp told

/-- An entry that goes when these keys are gone through. -/
structure Expires (cache : Cache σ) (now : Millis) (keys : List String) (key : String) :
    Prop where
  listed : key ∈ keys
  expired : cache.isExpired now key = true
  deletable : (Store.delete cache.store key).isOk = true

theorem Expires.tail {first : String} (expires : cache.Expires now (first :: keys) key)
    (apart : key ≠ first) : cache.Expires now keys key :=
  ⟨(List.mem_cons.mp expires.listed).resolve_left apart, expires.expired, expires.deletable⟩

theorem Expires.cons {first : String} (expires : cache.Expires now keys key) :
    cache.Expires now (first :: keys) key :=
  ⟨List.mem_cons_of_mem _ expires.listed, expires.expired, expires.deletable⟩

/-- A name at which nothing goes may be left out of the listing. -/
theorem Expires.cons_iff_of_kept {first : String}
    (kept : cache.isExpired now first = true → (Store.delete cache.store first).isOk = false) :
    cache.Expires now (first :: keys) key ↔ cache.Expires now keys key := by
  refine ⟨fun expires => expires.tail ?_, Expires.cons⟩
  rintro rfl
  have refused := kept expires.expired
  rw [expires.deletable] at refused
  cases refused

variable [FramedStore σ]

/-- Where the stores agree about an entry its fate is the same. -/
theorem Expires.of_same {other : Cache σ} (expires : cache.Expires now keys key)
    (policy : cache.policy = other.policy) (same : SameEntry key cache.store other.store) :
    other.Expires now keys key := by
  refine ⟨expires.listed, ?_, ?_⟩
  · rw [isExpired, ← policy, ← same.modified]
    exact expires.expired
  · rw [← same.deletable]
    exact expires.deletable

/-- Going through keys deletes what goes, each entry once, and counts the deletions. -/
theorem expire_deletions (cache : Cache σ) (now : Millis) (keys : List String) :
    ∃ gone : List String, gone.Nodup ∧ (∀ key, key ∈ gone ↔ cache.Expires now keys key) ∧
      (cache.expire now keys).1 = gone.length ∧
      Deletions cache.store gone (cache.expire now keys).2.store := by
  induction keys generalizing cache with
  | nil =>
    refine ⟨[], List.nodup_nil, fun key => ?_, rfl, .nil⟩
    exact iff_of_false List.not_mem_nil fun expires => absurd expires.listed List.not_mem_nil
  | cons first rest ih =>
    rw [expire]
    split
    · rename_i expired
      split
      · rename_i store deleted
        obtain ⟨gone, distinct, members, count, deletions⟩ := ih { cache with store }
        -- What has been deleted has no stamp, so it does not go again when it is listed again.
        have once : first ∉ gone := by
          intro again
          obtain ⟨stamp, told, -⟩ := isExpired_iff_stamp.mp ((members first).mp again).expired
          exact FramedStore.delete_unstamped deleted stamp told
        refine ⟨first :: gone, List.nodup_cons.mpr ⟨once, distinct⟩, fun key => ?_,
          congrArg (· + 1) count, .cons deleted deletions⟩
        by_cases here : key = first
        · subst here
          have deletable : (Store.delete cache.store key).isOk = true := by
            rw [deleted]
            rfl
          exact iff_of_true List.mem_cons_self ⟨List.mem_cons_self, expired, deletable⟩
        · have same := FramedStore.delete_others deleted here
          rw [List.mem_cons, or_iff_right here, members]
          constructor
          · intro expires
            have before : cache.Expires now rest key := expires.of_same rfl same
            exact before.cons
          · intro expires
            exact (expires.tail here).of_same rfl same.symm
      · rename_i refused
        obtain ⟨gone, distinct, members, counted⟩ := ih cache
        refine ⟨gone, distinct, fun key => (members key).trans ?_, counted⟩
        refine (Expires.cons_iff_of_kept fun _ => ?_).symm
        rw [refused]
        rfl
    · rename_i young
      obtain ⟨gone, distinct, members, counted⟩ := ih cache
      exact ⟨gone, distinct, fun key => (members key).trans
        (Expires.cons_iff_of_kept fun expired => absurd expired young).symm, counted⟩

/-- An eviction leaves an entry alone unless it is listed, has expired and can be deleted. -/
theorem evict_same_iff :
    SameEntry key (cache.evict now).2.store cache.store ↔
      ¬ cache.Expires now cache.persistentKeys key := by
  obtain ⟨gone, -, members, -, deletions⟩ := cache.expire_deletions now cache.persistentKeys
  rw [← members]
  refine ⟨fun same listed => ?_, deletions.same⟩
  obtain ⟨stamp, told, -⟩ := isExpired_iff_stamp.mp ((members key).mp listed).expired
  exact deletions.unstamped listed stamp (same.modified.trans told)

end Cache
end Overlay
