import Overlay.Proofs.DirectoryEntries
import Overlay.Proofs.Reached
import Overlay.Store.Memory

/-! A store in memory and a store in a directory are interchangeable. One is a table in the order of
its keys and the other a directory whose names are built from keys and read back from them; one says
by an absent entry what the other says by a missing file. Whatever is asked of both, under keys that
a file name has room for, they answer alike. The invariant is that every file holds what memory
holds under the key it is named for. -/
namespace Overlay

/-- What is asked of a store. When an entry was written is not among it, for the stores go by
different clocks. -/
inductive StoreRequest where
  | put (key : String) (content : Bytes)
  | get (key : String)
  | delete (key : String)
  | keys
  | size (key : String)
  deriving DecidableEq, Repr

/-- What a store answers. -/
inductive StoreReply where
  | done
  | found (content : Option Bytes)
  | listed (keys : List String)
  | measured (size : Option Nat)
  deriving DecidableEq, Repr

/-- The answer of a store and what it is afterwards; a call that fails leaves it as it was. -/
def StoreRequest.serve {σ : Type} [Store σ] (store : σ) (now : Millis) :
    StoreRequest → Except StoreError StoreReply × σ
  | .put key content =>
    match Store.put store now key content with
    | .ok after => (.ok .done, after)
    | .error error => (.error error, store)
  | .get key => ((Store.get store key).map .found, store)
  | .delete key =>
    match Store.delete store key with
    | .ok after => (.ok .done, after)
    | .error error => (.error error, store)
  | .keys => ((Store.keys store).map .listed, store)
  | .size key => ((Store.size store key).map .measured, store)

/-- The keys a directory has room for: the ending takes six of the octets of a name. -/
structure DirectoryStore.Holds (store : DirectoryStore) (key : String) : Prop where
  valid : Store.isKey key = true
  short : key.length ≤ 249
  fits : (octets (store.path key)).length ≤ Disk.longestPath

/-- The key of a request, if it names one, is one that the directory has room for. -/
def StoreRequest.Fits (store : DirectoryStore) : StoreRequest → Prop
  | .put key _ | .get key | .delete key | .size key => store.Holds key
  | .keys => True

/-- Two stores that are asked the same. -/
structure StorePair where
  memory : MemoryStore
  directory : DirectoryStore

inductive StorePairEvent where
  | request (now : Millis) (request : StoreRequest)
  /-- Time passes, and others use the disk. -/
  | meanwhile (disk : Disk)

namespace StorePair

def step (pair : StorePair) : StorePairEvent → StorePair
  | .request now request => ⟨(request.serve pair.memory now).2, (request.serve pair.directory now).2⟩
  | .meanwhile disk => { pair with directory.disk := disk }

/-- Nobody else changes what lies in the directory. -/
def Permits (pair : StorePair) : StorePairEvent → Prop
  | .request _ request => request.Fits pair.directory
  | .meanwhile disk => ∃ entries, (∃ place, pair.directory.Stands place entries) ∧
    ∃ place, { pair.directory with disk }.Stands place entries

/-- In the beginning memory is empty, and so is the directory, which exists. -/
def Begins (pair : StorePair) : Prop :=
  pair.memory = {} ∧ ∃ place, pair.directory.Stands place ∅

end StorePair

/-! ### Keys as names of files -/

private theorem toNat_of_isKeyChar {c : Char} (letter : Store.isKeyChar c = true) :
    c.toNat < 0x80 := by
  simp only [Store.isKeyChar, Bool.or_eq_true, beq_iff_eq] at letter
  rcases letter with (alphanumeric | rfl) | rfl
  · change ((decide (65 ≤ c.val ∧ c.val ≤ 90) ||
      (decide (97 ≤ c.val) && decide (c.val ≤ 122))) ||
      (decide (48 ≤ c.val) && decide (c.val ≤ 57))) = true at alphanumeric
    simp only [Bool.or_eq_true, Bool.and_eq_true, decide_eq_true_eq, UInt32.le_iff_toNat_le]
      at alphanumeric
    change ((65 ≤ c.toNat ∧ c.toNat ≤ 90) ∨ (97 ≤ c.toNat ∧ c.toNat ≤ 122)) ∨
      (48 ≤ c.toNat ∧ c.toNat ≤ 57) at alphanumeric
    omega
  · decide
  · decide

private theorem length_encode_ascii {cs : List Char} (ascii : ∀ c ∈ cs, c.toNat < 0x80) :
    (Text.Utf8.encode cs).length = cs.length := by
  induction cs with
  | nil => rfl
  | cons c rest ih =>
    obtain ⟨first, later⟩ := List.forall_mem_cons.mp ascii
    have one : Text.Utf8.encodeChar c = [UInt8.ofNat c.toNat] := by
      simp [Text.Utf8.encodeChar, first]
    rw [Text.Utf8.encode_cons, one, List.length_append, ih later, List.length_singleton,
      List.length_cons, Nat.add_comm]

/-- A key takes one octet a letter. -/
theorem length_octets_of_isKey {key : String} (valid : Store.isKey key = true) :
    (octets key).length = key.length := by
  simp only [Store.isKey, Bool.and_eq_true, List.all_eq_true] at valid
  rw [octets, length_encode_ascii fun c member => toNat_of_isKeyChar (valid.2 c member),
    String.length_toList]

namespace DirectoryStore

/-- The ending takes six octets. -/
theorem length_octets_fileName {key : String} (valid : Store.isKey key = true) :
    (octets (fileName key)).length = key.length + 6 := by
  have dot : (octets ".").length = 1 := by decide
  have ending : (octets Store.entryExtension).length = 5 := by decide
  rw [fileName, length_octets_append, length_octets_append, length_octets_of_isKey valid, dot,
    ending]

theorem Holds.admits {store : DirectoryStore} {key : String} (holds : store.Holds key) :
    store.Admits key := by
  refine ⟨Store.isStem_of_isKey holds.valid, ?_, holds.fits⟩
  have short := holds.short
  rw [length_octets_fileName holds.valid, Disk.longestName]
  omega

theorem Holds.nonempty {store : DirectoryStore} {key : String} (holds : store.Holds key) :
    key ≠ "" := by
  rintro rfl
  exact absurd holds.valid (by decide)

end DirectoryStore

/-! ### The same entries in both -/

section Mirror
open DirectoryStore (fileName Free Founded)

/-- What lies in a file, and what memory holds. -/
inductive SameContent : Option Node → Option MemoryEntry → Prop where
  | nothing : SameContent none none
  | held (content : Bytes) (changed modified : Millis) :
    SameContent (some (.file content changed)) (some ⟨content, modified⟩)

/-- Every file holds what memory holds under the key that it is named for. -/
structure Mirrors (memory : MemoryStore) (entries : Directory) : Prop where
  alike (key : String) : SameContent (entries.get? (fileName key)) (memory.entries.get? key)
  keyed {key : String} : key ∈ memory.entries.keys → key ≠ ""
  ascending : memory.entries.Ascending

variable {memory : MemoryStore} {entries : Directory} {store : DirectoryStore}
  {place : List String} {key : String}

/-- Both say the same of what they hold. -/
theorem SameContent.content {node : Option Node} {entry : Option MemoryEntry}
    (same : SameContent node entry) :
    node.bind DirectoryStore.contentOf = entry.map (·.content) := by
  cases same with
  | nothing => rfl
  | held content changed modified => rfl

theorem SameContent.size {node : Option Node} {entry : Option MemoryEntry}
    (same : SameContent node entry) : node.map Node.size = entry.map (·.content.length) := by
  cases same with
  | nothing => rfl
  | held content changed modified => rfl

theorem SameContent.isSome {node : Option Node} {entry : Option MemoryEntry}
    (same : SameContent node entry) : node.isSome = entry.isSome := by
  cases same with
  | nothing => rfl
  | held content changed modified => rfl

theorem Mirrors.free (mirrors : Mirrors memory entries) (key : String) : Free entries key := by
  intro time inner held
  have alike := mirrors.alike key
  rw [held] at alike
  cases alike

theorem mirrors_empty : Mirrors {} ∅ :=
  ⟨fun _ => .nothing, fun member => absurd member List.not_mem_nil, Table.ascending_empty⟩

theorem Mirrors.put (mirrors : Mirrors memory entries) (something : key ≠ "") (content : Bytes)
    (changed modified : Millis) :
    Mirrors ⟨memory.entries.insert key ⟨content, modified⟩⟩
      (entries.insert (fileName key) (.file content changed)) where
  alike probe := by
    by_cases same : probe = key
    · rw [same, Table.get?_insert_self, Table.get?_insert_self]
      exact .held content changed modified
    · have apart : fileName probe ≠ fileName key :=
        fun named => same (DirectoryStore.fileName_inj named)
      rw [Table.get?_insert_of_ne _ _ apart, Table.get?_insert_of_ne _ _ same]
      exact mirrors.alike probe
  keyed member := by
    rcases (Table.mem_keys_insert _ _ _ _).mp member with rfl | before
    · exact something
    · exact mirrors.keyed before
  ascending := mirrors.ascending.insert key _

theorem Mirrors.delete (mirrors : Mirrors memory entries) (key : String) :
    Mirrors ⟨memory.entries.erase key⟩ (entries.erase (fileName key)) where
  alike probe := by
    by_cases same : probe = key
    · rw [same, Table.get?_erase_self, Table.get?_erase_self]
      exact .nothing
    · have apart : fileName probe ≠ fileName key :=
        fun named => same (DirectoryStore.fileName_inj named)
      rw [Table.get?_erase_of_ne _ apart, Table.get?_erase_of_ne _ same]
      exact mirrors.alike probe
  keyed member := mirrors.keyed ((Table.mem_keys_erase _ _ _).mp member).2
  ascending := mirrors.ascending.erase key

/-- Both list the same keys, in the same order. -/
theorem Mirrors.keys (mirrors : Mirrors memory entries) (stands : store.Stands place entries) :
    store.keys = .ok memory.entries.keys := by
  obtain ⟨keys, listed, ordered, members⟩ := stands.keys
  rw [listed]
  refine congrArg Except.ok (Table.eq_of_ascending ordered mirrors.ascending.keys fun key => ?_)
  rw [members, Table.mem_keys, Table.mem_keys, (mirrors.alike key).isSome]
  exact and_iff_right_of_imp fun held => mirrors.keyed ((Table.mem_keys _ _).mpr held)

end Mirror

/-- The directory stands, and what lies in it is what memory holds. -/
def StorePair.Alike (pair : StorePair) : Prop :=
  ∃ place entries, pair.directory.Founded place entries ∧ Mirrors pair.memory entries

/-- Both answer a request alike, and are alike afterwards. -/
theorem StorePair.Alike.serve {pair : StorePair} (alike : pair.Alike) (now : Millis)
    {request : StoreRequest} (fits : request.Fits pair.directory) :
    (∃ reply, (request.serve pair.memory now).1 = .ok reply ∧
      (request.serve pair.directory now).1 = .ok reply) ∧
    (pair.step (.request now request)).Alike := by
  obtain ⟨place, entries, founded, mirrors⟩ := alike
  have unchanged : pair.Alike := ⟨place, entries, founded, mirrors⟩
  cases request with
  | put key content =>
    obtain ⟨written, still⟩ := founded.put fits.admits fits.valid (mirrors.free key) content
    have kept : Store.put pair.memory now key content =
        .ok ⟨pair.memory.entries.insert key ⟨content, now⟩⟩ := if_pos fits.valid
    change Store.put pair.directory now key content = _ at written
    simp only [step, StoreRequest.serve, written, kept]
    exact ⟨⟨.done, rfl, rfl⟩, place, _, still, mirrors.put fits.nonempty content _ now⟩
  | get key =>
    refine ⟨⟨.found ((pair.memory.entries.get? key).map (·.content)), rfl, ?_⟩, unchanged⟩
    change (pair.directory.get key).map StoreReply.found = _
    rw [founded.get fits.admits fits.valid (mirrors.free key), (mirrors.alike key).content]
    rfl
  | delete key =>
    obtain ⟨after, deleted, -, still⟩ := founded.delete fits.admits (mirrors.free key)
    change Store.delete pair.directory key = _ at deleted
    simp only [step, StoreRequest.serve, deleted]
    exact ⟨⟨.done, rfl, rfl⟩, place, _, still, mirrors.delete key⟩
  | keys =>
    refine ⟨⟨.listed pair.memory.entries.keys, rfl, ?_⟩, unchanged⟩
    change pair.directory.keys.map StoreReply.listed = _
    rw [mirrors.keys founded.stands]
    rfl
  | size key =>
    refine ⟨⟨.measured ((pair.memory.entries.get? key).map (·.content.length)), rfl, ?_⟩,
      unchanged⟩
    change (pair.directory.size key).map StoreReply.measured = _
    rw [founded.size fits.admits, (mirrors.alike key).size]
    rfl

theorem alike_of_reached {pair : StorePair}
    (reached : Reached StorePair.step StorePair.Permits StorePair.Begins pair) : pair.Alike := by
  apply reached.invariant
  · rintro pair ⟨empty, place, stands⟩
    refine ⟨place, ∅, stands.founded, ?_⟩
    rw [empty]
    exact mirrors_empty
  · intro pair event alike allowed
    cases event with
    | request now request => exact (alike.serve now allowed).2
    | meanwhile disk =>
      obtain ⟨place, entries, founded, mirrors⟩ := alike
      obtain ⟨others, ⟨elsewhere, stands⟩, after, standsAfter⟩ := allowed
      obtain rfl := stands.entries_eq founded.stands
      exact ⟨after, others, standsAfter.founded, mirrors⟩

/-- In every state that a store in memory and a store in a directory get into from nothing, through
requests under keys that the directory has room for, while nobody else changes what lies in the
directory: whatever is asked of both next, both answer, and they answer the same. -/
theorem stores_agree {pair : StorePair}
    (reached : Reached StorePair.step StorePair.Permits StorePair.Begins pair) (now : Millis)
    {request : StoreRequest} (fits : request.Fits pair.directory) :
    ∃ reply, (request.serve pair.memory now).1 = .ok reply ∧
      (request.serve pair.directory now).1 = .ok reply :=
  ((alike_of_reached reached).serve now fits).1

/-- Two entries are put and a missing one is deleted; both stores list the two, in the order of their
keys. -/
theorem stores_agree_on_two_entries :
    ∃ pair : StorePair, Reached StorePair.step StorePair.Permits StorePair.Begins pair ∧
      (StoreRequest.keys.serve pair.memory 9).1 = .ok (.listed ["0_b", "1_a"]) ∧
      ∃ reply, (StoreRequest.keys.serve pair.memory 9).1 = .ok reply ∧
        (StoreRequest.keys.serve pair.directory 9).1 = .ok reply := by
  have begins : Reached StorePair.step StorePair.Permits StorePair.Begins
      ⟨{}, DirectoryStore.beside ∅ 0⟩ := .start ⟨rfl, ["c"], DirectoryStore.beside_stands ∅ 0⟩
  have first := begins.step (StorePairEvent.request 7 (.put "1_a" [1, 2]))
    ⟨by decide, by decide, by decide +kernel⟩
  have second := first.step (StorePairEvent.request 8 (.put "0_b" []))
    ⟨by decide, by decide, by decide +kernel⟩
  have third := second.step (StorePairEvent.request 8 (.delete "2_c"))
    ⟨by decide, by decide, by decide +kernel⟩
  exact ⟨_, third, rfl, stores_agree third 9 trivial⟩

end Overlay
