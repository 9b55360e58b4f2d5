import Overlay.Proofs.ArtifactCodec
import Overlay.Proofs.GuardedEntries
import Overlay.Proofs.KeyAdmission
import Overlay.Proofs.Retention
import Overlay.Proofs.Sessions
import Overlay.Proofs.StoreAgreement

/-! Compiled shaders survive the session that compiled them. A session writes what it compiled into a
file, and the sessions after it find the file as long as nobody takes it away. They do not: when one
opens, it deletes by the stamp of the file, when it looks something up, by the date inside, and the
stamp is no earlier than the date; and what a session finds fresh it does not compile and write
again. -/
namespace Overlay

open DirectoryStore (fileName)

/-! ### A file that stays -/

/-- The file of a key lies in a directory with some content, and its stamp is no earlier than a
reading. -/
def Lies (key : String) (content : Bytes) (since : Millis) (entries : Directory) : Prop :=
  ∃ changed, entries.get? (fileName key) = some (.file content changed) ∧
    since.toNat ≤ changed.toNat

/-- The store of a session in whose directory the file lies. -/
inductive Reaches (place : List String) (key : String) (content : Bytes) (since : Millis) :
    SessionStore → Prop where
  | intro {store : DirectoryStore} {entries : Directory} (founded : store.Founded place entries)
    (admits : store.Admits key) (lies : Lies key content since entries) :
    Reaches place key content since (.inr store)

theorem Lies.free {key : String} {content : Bytes} {since : Millis} {entries : Directory}
    (lies : Lies key content since entries) : DirectoryStore.Free entries key := by
  obtain ⟨changed, held, -⟩ := lies
  intro time inner same
  rw [held] at same
  cases same

section Files
variable {place : List String} {key : String} {content : Bytes} {since : Millis}
  {store : DirectoryStore} {entries : Directory}

/-- A change at another key leaves the file where it is. -/
theorem reaches_changing {what : Directory → Directory} {other : String}
    {elsewhere : List String} (founded : store.Founded place entries) (admits : store.Admits key)
    (lies : Lies key content since entries) (opens : store.Open other elsewhere)
    (others : ∀ name entries, name ≠ fileName other →
      (what entries).get? name = Table.get? entries name) (apart : other ≠ key) :
    Reaches place key content since (.inr (store.changing what elsewhere)) := by
  obtain rfl : place.reverse = elsewhere := Option.some.inj (founded.led.symm.trans opens.led)
  obtain ⟨time, there⟩ := founded.there
  have free : DirectoryStore.Free entries other := by
    intro time inner same
    have held : (store.disk.entriesAt place.reverse.reverse).get? (fileName other) =
        some (.directory time inner) := by
      rw [List.reverse_reverse, Disk.entriesAt_of_there there]
      exact same
    exact opens.free held
  have keeps : Directory.KeepsDirectories what entries :=
    DirectoryStore.keepsDirectories_of_free free fun name => others name entries
  obtain ⟨changed, held, later⟩ := lies
  refine .intro (founded.changing keeps) ⟨admits.stem, admits.short, admits.fits⟩
    ⟨changed, ?_, later⟩
  rw [others _ _ fun same => apart (DirectoryStore.fileName_inj same).symm]
  exact held

/-- A file that lies there is guarded by the store that reaches it. -/
theorem reaches_guards {artifact : Artifact} (valid : Store.isKey key = true)
    (read : Artifact.decode? content = some artifact) :
    Guards key since (· = artifact) (Reaches place key content since) where
  read := by
    rintro _ ⟨founded, admits, lies⟩
    refine ⟨content, artifact, ?_, read, rfl⟩
    refine (founded.get admits valid lies.free).trans ?_
    obtain ⟨changed, held, -⟩ := lies
    rw [held]
    rfl
  stamped := by
    rintro _ reading ⟨founded, admits, changed, held, later⟩ asked
    have answer := founded.modified admits
    rw [held] at answer
    cases answer.symm.trans asked
    exact later
  put := by
    rintro _ after now other written ⟨founded, admits, lies⟩ apart put
    obtain ⟨inner, done, rfl⟩ := map_ok put
    obtain ⟨-, elsewhere, opens, rfl⟩ := DirectoryStore.put_ok done
    exact reaches_changing founded admits lies opens
      (fun name entries different => Table.get?_insert_of_ne entries _ different) apart
  delete := by
    rintro _ after other ⟨founded, admits, lies⟩ apart deleted
    obtain ⟨inner, done, rfl⟩ := map_ok deleted
    rcases DirectoryStore.delete_ok done with ⟨-, rfl⟩ | ⟨elsewhere, opens, rfl⟩
    · exact .intro founded admits lies
    · exact reaches_changing founded admits lies opens
        (fun name entries different => Table.get?_erase_of_ne entries different) apart

end Files

/-! ### What a session leaves -/

/-- What was compiled from a source, when, and the place of the directory where it was filed. -/
structure Deposit where
  place : List String
  source : String
  text : String
  made : Millis

namespace Deposit

def key (deposit : Deposit) : String :=
  cacheKey .fragment deposit.source

def artifact (deposit : Deposit) : Artifact :=
  recordedArtifact {} deposit.source deposit.text deposit.made

/-- The file of the deposit lies on a disk. -/
def Filed (deposit : Deposit) (disk : Disk) : Prop :=
  ∃ changed entries, disk.node? deposit.place = some (.directory changed entries) ∧
    Lies deposit.key deposit.artifact.encode deposit.made entries

/-- The store of a session reaches the file of the deposit. -/
def InReach (deposit : Deposit) : SessionStore → Prop :=
  Reaches deposit.place deposit.key deposit.artifact.encode deposit.made

theorem guards (deposit : Deposit) :
    Guards (cacheKey .fragment deposit.source) deposit.made (· = deposit.artifact)
      deposit.InReach :=
  reaches_guards (isKey_cacheKey .fragment deposit.source) (Artifact.decode?_encode _)

/-- The directory of the deposit, with all that lies in it, is where it was. -/
def Untouched (deposit : Deposit) (before after : Disk) : Prop :=
  ∀ changed entries, before.node? deposit.place = some (.directory changed entries) →
    ∃ time, after.node? deposit.place = some (.directory time entries)

/-- The path of a cache directory leads to the directory of the deposit, and to the file in it. -/
structure LedTo (deposit : Deposit) (store : DirectoryStore) : Prop where
  stands : ∃ entries, store.Stands deposit.place entries
  fits : (octets (store.path deposit.key)).length ≤ Disk.longestPath

/-- A session that is opened soon enough, keeps its cache where the deposit is, and keeps what it
finds there for long enough. -/
structure Welcomes (deposit : Deposit) (limit : Nat) (environment : Environment)
    (options : Options) (disk : Disk) : Prop where
  persists : options.noPersist = false
  soon : ageAt disk.present deposit.made ≤ limit
  placed {places : Places} {config : String} :
    Session.resolvePlaces environment options = .ok (places, config) →
    deposit.LedTo ⟨places.shaderCache, disk⟩
  lasting {places : Places} {config : String} {settings : Settings} :
    Session.resolvePlaces environment options = .ok (places, config) →
    Settings.load disk config = .ok settings → limit ≤ settings.cache.maxAge.wholeMillis.toNat

/-- Sessions use the directory of the deposit and keep entries for as long as the limit says, they
are opened and run within the limit, and none of them clears the cache. Whatever else uses the disk
leaves the directory alone; sessions that keep their cache elsewhere are among that. -/
def Respected (deposit : Deposit) (limit : Nat) : Desk → DeskEvent → Prop
  | .idle disk, .enter environment options => deposit.Welcomes limit environment options disk
  | .idle disk, .pass _ after => deposit.Untouched disk after
  | .busy session, .pass clock after => deposit.Untouched session.disk after ∧
    (∀ store, session.cache.store = .inr store →
      ∃ entries, { store with disk := after }.Stands deposit.place entries) ∧
    ageAt clock deposit.made ≤ limit
  | .busy _, .act action => action ≠ .cache .clear
  | _, _ => True

variable {deposit : Deposit} {limit : Nat} {session : Session}

/-- What a session is to keep, it keeps through its whole time. -/
structure Kept (deposit : Deposit) (limit : Nat) (session : Session) : Prop where
  opened : session.AsOpened
  inReach : deposit.InReach session.cache.store
  soon : ageAt session.now deposit.made ≤ limit
  lasting : limit ≤ session.cache.policy.maxAge.wholeMillis.toNat

def KeptAt (deposit : Deposit) (limit : Nat) : Desk → Prop
  | .idle disk => deposit.Filed disk
  | .busy session => deposit.Kept limit session

theorem spares {policy : CachePolicy} {now : Millis} (version : policy.schemaVersion = 1)
    (soon : ageAt now deposit.made ≤ limit) (lasting : limit ≤ policy.maxAge.wholeMillis.toNat) :
    policy.Spares now deposit.made deposit.source (· = deposit.artifact) where
  fresh := by
    rintro _ rfl
    have young : ageAt now deposit.made ≤ policy.maxAge.wholeMillis.toNat :=
      Nat.le_trans soon lasting
    simp [Artifact.isValidFor, young, version, artifact, recordedArtifact]
  recent := Nat.le_trans soon lasting

theorem Kept.spares (kept : deposit.Kept limit session) :
    session.cache.policy.Spares session.now deposit.made deposit.source (· = deposit.artifact) := by
  refine Deposit.spares ?_ kept.soon kept.lasting
  rw [kept.opened.policy]
  rfl

/-- What a session reaches lies on its disk. -/
theorem filed_of_inReach (reached : deposit.InReach session.cache.store) :
    deposit.Filed session.disk := by
  unfold Session.disk
  cases behind : session.cache.store with
  | inl store =>
    rw [behind] at reached
    cases reached
  | inr store =>
    rw [behind] at reached
    cases reached with
    | intro founded admits lies =>
      obtain ⟨changed, there⟩ := founded.there
      exact ⟨changed, _, there, lies⟩

/-! ### Opening, waiting, acting -/

theorem LedTo.inReach {store : DirectoryStore} (led : deposit.LedTo store)
    (filed : deposit.Filed store.disk) : deposit.InReach (.inr store) := by
  obtain ⟨entries, stands⟩ := led.stands
  obtain ⟨changed, there⟩ := stands.founded.there
  obtain ⟨time, others, alsoThere, lies⟩ := filed
  rw [there] at alsoThere
  cases alsoThere
  exact .intro stands.founded (holds_cacheKey_of_fits led.fits).admits lies

/-- The cache directory is there, so opening it changes nothing. -/
theorem Welcomes.openStore {environment : Environment} {options : Options} {disk : Disk}
    {places : Places} {config : String}
    (welcomes : deposit.Welcomes limit environment options disk)
    (placed : Session.resolvePlaces environment options = .ok (places, config)) :
    Session.openStore disk places options.noPersist =
      (.ok (.inr ⟨places.shaderCache, disk⟩), disk) := by
  obtain ⟨entries, stands⟩ := (welcomes.placed placed).stands
  have opened : DirectoryStore.openIn disk places.cacheDirectory =
      (.ok ⟨places.shaderCache, disk⟩, disk) :=
    stands.openAt (Path.withoutEnd_append places.cacheDirectory (by decide))
  rw [Session.openStore, welcomes.persists, if_neg Bool.false_ne_true, opened]

theorem Welcomes.keptAt {environment : Environment} {options : Options} {disk : Disk}
    (welcomes : deposit.Welcomes limit environment options disk) (filed : deposit.Filed disk) :
    deposit.KeptAt limit ((Desk.idle disk).step (.enter environment options)) := by
  rw [Desk.step_enter]
  have opens := Session.openWith_opens environment disk options
  generalize Session.openWith environment disk options = answer at opens ⊢
  cases opens with
  | refused => exact filed
  | unopened placed set failed =>
    rw [welcomes.openStore placed] at failed
    cases failed
  | @begun places config settings store after answer placed set stored imported =>
    rw [welcomes.openStore placed] at stored
    cases stored
    have lasting := welcomes.lasting placed set
    have started : deposit.InReach (Session.begin settings (.inr ⟨places.shaderCache, disk⟩)
        options.compiler disk).cache.store :=
      deposit.guards.start ((welcomes.placed placed).inReach filed)
        (spares rfl welcomes.soon lasting)
    cases answer with
    | error error => exact filed_of_inReach started
    | ok session =>
      obtain ⟨manager, rfl, unused⟩ := imported session rfl
      have opened := Session.asOpened_begin settings (.inr ⟨places.shaderCache, disk⟩)
        options.compiler disk unused
      refine ⟨opened, started, welcomes.soon, ?_⟩
      rw [opened.policy]
      exact lasting

/-- What lies in an untouched directory can be reached from there as before. -/
theorem Kept.later {clock : Millis} {after : Disk} (kept : deposit.Kept limit session)
    (untouched : deposit.Untouched session.disk after)
    (stands : ∀ store, session.cache.store = .inr store →
      ∃ entries, { store with disk := after }.Stands deposit.place entries)
    (soon : ageAt clock deposit.made ≤ limit) :
    deposit.Kept limit (session.later clock after) := by
  refine ⟨kept.opened.later clock after, ?_, soon, kept.lasting⟩
  obtain ⟨changed, entries, there, lies⟩ := filed_of_inReach kept.inReach
  obtain ⟨time, still⟩ := untouched changed entries there
  have reached := kept.inReach
  change deposit.InReach (session.cache.store.map id ({ · with disk := after }))
  cases behind : session.cache.store with
  | inl store =>
    rw [behind] at reached
    cases reached
  | inr store =>
    rw [behind] at reached
    cases reached with
    | intro founded admits _ =>
      exact LedTo.inReach ⟨stands store behind, admits.fits⟩ ⟨time, entries, still, lies⟩

/-- An action that does not clear the cache leaves the file on the disk. -/
theorem Kept.act {action : Action} (kept : deposit.Kept limit session)
    (spared : action ≠ .cache .clear) : deposit.Filed (session.perform action).disk := by
  rw [Session.perform_disk]
  cases action with
  | build name =>
    dsimp only
    rw [Session.build_session kept.opened]
    refine filed_of_inReach ?_
    exact deposit.guards.createProgram kept.inReach kept.spares _ _ _
  | preview name withVertex =>
    refine filed_of_inReach ?_
    exact deposit.guards.resolve kept.inReach kept.spares _ _ _
  | cache action =>
    cases action with
    | stats => exact filed_of_inReach kept.inReach
    | clear => exact absurd rfl spared
  | _ => exact filed_of_inReach kept.inReach

theorem keptAt_step {desk : Desk} {event : DeskEvent} (kept : deposit.KeptAt limit desk)
    (respected : deposit.Respected limit desk event) : deposit.KeptAt limit (desk.step event) := by
  cases desk with
  | idle disk =>
    cases event with
    | enter environment options => exact Welcomes.keptAt respected kept
    | pass clock after =>
      obtain ⟨changed, entries, there, lies⟩ := kept
      obtain ⟨time, still⟩ := respected changed entries there
      exact ⟨time, entries, still, lies⟩
    | act action => exact kept
  | busy session =>
    cases event with
    | enter environment options => exact kept
    | pass clock after =>
      obtain ⟨untouched, stands, soon⟩ := respected
      exact Kept.later kept untouched stands soon
    | act action => exact Kept.act kept respected

/-! ### Finding it again -/

/-- The store has the artifact, and memory knows nothing else. -/
theorem Kept.lookup (kept : deposit.Kept limit session) :
    (session.cache.lookup session.now .fragment deposit.source).1 = some deposit.text := by
  have absent : session.cache.memory.get? (cacheKey .fragment deposit.source) = none := by
    rw [kept.opened.memory, Table.get?_empty]
  obtain ⟨artifact, known, rfl⟩ := deposit.guards.persisted kept.inReach
  rw [Cache.lookup_forgotten absent, Cache.persistedAnswer, known]
  exact if_pos (kept.spares.fresh rfl)

theorem Kept.resolve {name : String} (kept : deposit.Kept limit session)
    (same : (session.manager.fragmentSource session.disk name).1 = deposit.source) :
    (session.resolve name).1.compilation = .cacheHit ∧
      (session.resolve name).1.fragment = deposit.text := by
  change (Manager.resolve _ _ _ _ name).1.compilation = _ ∧
    (Manager.resolve _ _ _ _ name).1.fragment = _
  rw [Manager.resolve_eq, same]
  dsimp only
  rw [Manager.compileFragment_of_found _ (Prod.ext kept.lookup rfl)]
  exact ⟨rfl, rfl⟩

/-- A text that was built once is built again. -/
theorem Kept.build {name : String} (kept : deposit.Kept limit session)
    (passes : Gpu.checkStructure deposit.text = .ok ())
    (same : (session.manager.fragmentSource session.disk name).1 = deposit.source) :
    ∃ built, (session.build name).1 = .ok built ∧ built.compilation = .cacheHit := by
  obtain ⟨hit, text⟩ := kept.resolve same
  rw [← text] at passes
  obtain ⟨built, answer⟩ := (Session.createProgram_ok_iff kept.opened).mpr passes
  refine ⟨built, by rw [Session.build_of_created kept.opened answer], ?_⟩
  exact (Session.createProgram_compilation kept.opened answer).trans hit

end Deposit

/-! ### Filing it -/

/-- What a build of a name files. The text that the name means is looked up, and then what it was
compiled to is put into the store: into the file of its key, in the directory that the root leads
to. The write succeeds, and the stamp is no earlier than the clock reading before it. -/
structure Session.Deposits (session : Session) (name : String) (deposit : Deposit)
    (store written : DirectoryStore) : Prop where
  source : deposit.source = (session.manager.fragmentSource session.disk name).1
  text : deposit.text = (session.resolve name).1.fragment
  made : deposit.made = session.now
  looked : (session.cache.lookup session.now .fragment deposit.source).2.store = .inr store
  led : store.place? = some deposit.place.reverse
  put : store.put deposit.key deposit.artifact.encode = .ok written
  stamped : deposit.made ≤ Disk.stamp store.disk.present

namespace Session.Deposits
variable {deposit : Deposit} {session after : Session} {name : String} {built : BuiltProgram}
  {store written : DirectoryStore}

/-- What is put into the directory lies there. -/
theorem filed (deposits : session.Deposits name deposit store written) :
    deposit.Filed written.disk := by
  obtain ⟨-, place, opens, rfl⟩ := DirectoryStore.put_ok deposits.put
  obtain rfl : deposit.place.reverse = place := Option.some.inj (deposits.led.symm.trans opens.led)
  obtain ⟨changed, entries, there⟩ := opens.there
  rw [List.reverse_reverse] at there
  refine ⟨changed, entries.insert _ _, ?_, _, Table.get?_insert_self _ _ _,
    UInt64.le_iff_toNat_le.mp deposits.stamped⟩
  change (Node.directory 0 (store.disk.root.change _ deposit.place.reverse.reverse)).at? _ = _
  rw [List.reverse_reverse]
  exact Directory.at?_change _ there

/-- A build that compiled leaves the disk as it is after the write. -/
theorem disk_after (deposits : session.Deposits name deposit store written)
    (opened : session.AsOpened) (builds : session.build name = (.ok built, after))
    (compiled : built.compilation = .compiled) : after.disk = written.disk := by
  obtain ⟨answer, rfl⟩ := Session.created_of_build opened builds
  rw [Session.createProgram_compilation opened answer] at compiled
  have records : (session.resolve name).2.cache =
      (session.cache.lookup session.now .fragment deposit.source).2.record session.now .fragment
        deposit.source deposit.text := by
    rw [deposits.source, deposits.text]
    exact Manager.resolve_compiled compiled
  have artifact : recordedArtifact
      (session.cache.lookup session.now .fragment deposit.source).2.policy deposit.source
      deposit.text session.now = deposit.artifact := by
    rw [Cache.lookup_policy, opened.policy, Deposit.artifact, deposits.made]
    rfl
  have stored : (session.createProgram name).2.cache.store = .inr written := by
    rw [Session.createProgram_cache opened, records]
    refine Cache.record_written ?_
    rw [artifact, deposits.looked]
    change (store.put deposit.key deposit.artifact.encode).map Sum.inr = _
    rw [deposits.put]
    rfl
  rw [Session.disk, stored]

/-- What was built passes the check of the device. -/
theorem passes (deposits : session.Deposits name deposit store written)
    (opened : session.AsOpened) (builds : session.build name = (.ok built, after)) :
    Gpu.checkStructure deposit.text = .ok () := by
  obtain ⟨answer, -⟩ := Session.created_of_build opened builds
  rw [deposits.text]
  exact (Session.createProgram_ok_iff opened).mp ⟨built, answer⟩

end Session.Deposits

/-! ### A session on an empty directory -/

/-- The session that is opened where there is no settings file. -/
def Session.bare (places : Places) (disk : Disk) : Session :=
  .begin {} (.inr ⟨places.shaderCache, disk⟩) .passthrough disk

theorem Session.asOpened_bare (places : Places) (disk : Disk) : (bare places disk).AsOpened :=
  asOpened_begin {} (.inr ⟨places.shaderCache, disk⟩) .passthrough disk
    (Manager.unused_create .passthrough)

section Bare
variable {places : Places} {disk : Disk} {place : List String}

theorem step_bare {environment : Environment} {config : String} {entries : Directory}
    (placed : Session.resolvePlaces environment {} = .ok (places, config))
    (set : Settings.load disk config = .ok {})
    (stands : (DirectoryStore.mk places.shaderCache disk).Stands place entries) :
    (Desk.idle disk).step (.enter environment {}) = .busy (.bare places disk) := by
  have opens : DirectoryStore.openIn disk places.cacheDirectory =
      (.ok ⟨places.shaderCache, disk⟩, disk) :=
    stands.openAt (Path.withoutEnd_append places.cacheDirectory (by decide))
  have opened : Session.openStore disk places false =
      (.ok (.inr ⟨places.shaderCache, disk⟩), disk) := by
    rw [Session.openStore, if_neg Bool.false_ne_true, opens]
  rw [Desk.step_enter, Session.openWith_bare placed set opened rfl rfl]
  rfl

theorem bare_store (empty : (DirectoryStore.mk places.shaderCache disk).Stands place ∅) :
    (Session.bare places disk).cache.store = .inr ⟨places.shaderCache, disk⟩ := by
  obtain ⟨keys, listed, -, members⟩ := empty.keys
  obtain rfl : keys = [] := List.eq_nil_iff_forall_not_mem.mpr fun key member =>
    absurd ((members key).mp member).2 List.not_mem_nil
  exact Cache.start_store _ _ listed

theorem bare_lookup (empty : (DirectoryStore.mk places.shaderCache disk).Stands place ∅)
    {source : String}
    (holds : (DirectoryStore.mk places.shaderCache disk).Holds (cacheKey .fragment source)) :
    (Session.bare places disk).cache.lookup (Session.bare places disk).now .fragment source =
      (none, (Session.bare places disk).cache) := by
  have got := empty.founded.get holds.admits holds.valid nofun
  have asked : Store.get (Session.bare places disk).cache.store (cacheKey .fragment source) =
      .ok none := by
    rw [bare_store empty]
    exact got
  refine Cache.lookup_missing ?_ ?_
  · rw [(Session.asOpened_bare places disk).memory, Table.get?_empty]
  · rw [Cache.persisted, asked]

theorem bare_resolve (empty : (DirectoryStore.mk places.shaderCache disk).Stands place ∅)
    {name source : String}
    (holds : (DirectoryStore.mk places.shaderCache disk).Holds (cacheKey .fragment source))
    (means : ((Session.bare places disk).manager.fragmentSource (Session.bare places disk).disk
      name).1 = source)
    (passes : Gpu.checkStructure source = .ok ()) :
    let resolved := ((Session.bare places disk).resolve name).1
    resolved.compilation = .compiled ∧ resolved.fragment = normalise source := by
  have accepts : ((Session.bare places disk).manager.bench.compile source .fragment).1 =
      .ok (normalise source) := by
    change passthrough source .fragment = _
    rw [passthrough, Gpu.not_allBlank_of_passes passes]
    rfl
  exact Session.resolve_of_missed (Session.asOpened_bare places disk) means
    (bare_lookup empty holds) accepts

theorem bare_means (places : Places) (disk : Disk) (name : String)
    (unknown : BuiltinShader.find? name = none) :
    ((Session.bare places disk).manager.fragmentSource (Session.bare places disk).disk name).1 =
      BuiltinShader.default.fragment := by
  have empty : (Session.bare places disk).manager.registry = ∅ := rfl
  unfold Manager.fragmentSource
  rw [empty, Table.get?_empty, unknown]

end Bare

/-- A disk with an empty directory of entries and no settings file. -/
def attic (present : Millis) : Disk where
  root := ⟨[("c", .directory 0 ⟨[("shader_cache", .directory 0 ∅)]⟩)]⟩
  present

def atticPlaces : Places := ⟨"/g", "/c"⟩

theorem attic_placed :
    Session.resolvePlaces { configDirectory := some "/g", cacheDirectory := some "/c" } {} =
      .ok (atticPlaces, "/g/config.toml") := by
  decide +kernel

theorem attic_root : atticPlaces.shaderCache = "/c/shader_cache" := by decide +kernel

theorem attic_stands (present : Millis) :
    (DirectoryStore.mk atticPlaces.shaderCache (attic present)).Stands ["c", "shader_cache"] ∅ := by
  rw [attic_root]
  have permitted : Disk.permit "/c/shader_cache" = .ok () :=
    Disk.permit_eq_ok_iff.mpr ⟨by decide, by decide, by decide⟩
  have pieces : Path.pieces "/c/shader_cache" = ["", "c", "shader_cache"] := by decide +kernel
  have absolute : Path.isAbsolute "/c/shader_cache" = true := by decide
  have short : ∀ name ∈ ["c", "shader_cache"], ¬ Disk.longestName < (octets name).length := by
    decide
  refine ⟨?_, 0, ?_⟩
  · rw [DirectoryStore.start, absolute]
    rfl
  · rw [Disk.locate_of_permit permitted, Disk.follow, pieces, absolute]
    simp [attic, Disk.walk, Disk.standing, Disk.node?, Node.at?, Table.get?, Table.find,
      Path.isIdle, short]

theorem attic_holds (disk : Disk) (source : String) :
    (DirectoryStore.mk atticPlaces.shaderCache disk).Holds (cacheKey .fragment source) := by
  apply holds_cacheKey
  have root : (octets "/c/shader_cache").length = 15 := by decide
  rw [attic_root, root]
  decide

theorem attic_settings {disk : Disk} (bare : disk.root.get? "g" = none) :
    Settings.load disk "/g/config.toml" = .ok {} := by
  have permitted : Disk.permit "/g/config.toml" = .ok () :=
    Disk.permit_eq_ok_iff.mpr ⟨by decide, by decide, by decide⟩
  have pieces : Path.pieces "/g/config.toml" = ["", "g", "config.toml"] := by decide +kernel
  have absolute : Path.isAbsolute "/g/config.toml" = true := by decide
  have short : ¬ Disk.longestName < (octets "g").length := by decide
  have lost : disk.locate "/g/config.toml" = .error .notFound := by
    rw [Disk.locate_of_permit permitted, Disk.follow, pieces, absolute]
    simp [Disk.walk, Disk.standing, Disk.node?, Node.at?, Path.isIdle, short, bare]
  have unread : disk.read "/g/config.toml" = .error .notFound := by
    rw [Disk.read, Disk.stat, lost]
    rfl
  rw [Settings.load, unread]

/-- What a session leaves there that builds the default effect. -/
def atticDeposit : Deposit where
  place := ["c", "shader_cache"]
  source := BuiltinShader.default.fragment
  text := normalise BuiltinShader.default.fragment
  made := 5

/-- The disk with the deposit, at some time. -/
def atticAfter (present : Millis) : Disk :=
  (attic present).changing
    (·.insert (fileName atticDeposit.key) (.file atticDeposit.artifact.encode (Disk.stamp 5)))
    ["c", "shader_cache"]

theorem atticAfter_stands (present : Millis) : ∃ entries,
    (DirectoryStore.mk atticPlaces.shaderCache (atticAfter present)).Stands
      ["c", "shader_cache"] entries :=
  ⟨_, ((attic_stands present).founded.changing fun _ _ _ held => nomatch held).stands⟩

theorem atticAfter_settings (present : Millis) :
    Settings.load (atticAfter present) "/g/config.toml" = .ok {} := by
  apply attic_settings
  change ((attic present).root.change _ ["c", "shader_cache"]).get? "g" = none
  have there : (attic present).root.get? "c" =
    some (.directory 0 ⟨[("shader_cache", .directory 0 ∅)]⟩) := rfl
  rw [Directory.change, there]
  dsimp only
  rw [Table.get?_insert_of_ne _ _ (by decide)]
  rfl

theorem attic_passes : Gpu.checkStructure atticDeposit.source = .ok () :=
  Gpu.shipped_texts_pass _ (List.mem_cons_of_mem _ (List.mem_cons_of_mem _ List.mem_cons_self))

theorem attic_deposits : (Session.bare atticPlaces (attic 5)).Deposits "one" atticDeposit
    ⟨atticPlaces.shaderCache, attic 5⟩ ⟨atticPlaces.shaderCache, atticAfter 5⟩ := by
  have empty := attic_stands 5
  have holds := attic_holds (attic 5) atticDeposit.source
  have means := bare_means atticPlaces (attic 5) "one" (by decide)
  obtain ⟨-, text⟩ := bare_resolve empty holds means attic_passes
  obtain ⟨put, -⟩ := empty.founded.put holds.admits holds.valid nofun atticDeposit.artifact.encode
  refine ⟨means.symm, text.symm, rfl, ?_, empty.founded.led, put, by decide⟩
  rw [bare_lookup empty holds]
  exact bare_store empty

theorem attic_welcomes : atticDeposit.Welcomes 604800000
    { configDirectory := some "/g", cacheDirectory := some "/c" } {} (atticAfter 604800005) := by
  refine ⟨rfl, by decide, ?_, ?_⟩
  · intro places config placed
    rw [attic_placed] at placed
    cases placed
    exact ⟨atticAfter_stands _, (attic_holds (atticAfter 604800005) atticDeposit.source).fits⟩
  · intro places config settings placed set
    rw [attic_placed] at placed
    cases placed
    rw [atticAfter_settings] at set
    cases set
    decide

/-- A compiled text outlives the session that compiled it. When a session has built a program from a
text that it compiled and filed, and the sessions after it keep their cache in the same directory,
keep entries for as long as the limit says, are opened and run within that time, and do not clear
the cache, then each of them, however many came between and however little it keeps in memory,
finds the text: whatever name means the same source resolves to it, and builds with it. -/
theorem compiled_shaders_survive {first after session : Session} {name other : String}
    {built : BuiltProgram} {deposit : Deposit} {store written : DirectoryStore} {limit : Nat}
    (opened : Reached Desk.step (fun _ _ => True) Desk.AtRest (.busy first))
    (builds : first.build name = (.ok built, after)) (compiled : built.compilation = .compiled)
    (deposits : first.Deposits name deposit store written)
    (reached : Reached Desk.step (deposit.Respected limit) (· = .idle after.disk) (.busy session))
    (same : (session.manager.fragmentSource session.disk other).1 = deposit.source) :
    (session.resolve other).1.compilation = .cacheHit ∧
      (session.resolve other).1.fragment = (first.resolve name).1.fragment ∧
      ∃ again, (session.build other).1 = .ok again ∧ again.compilation = .cacheHit := by
  have asOpened := Desk.asOpened_of_reached opened
  have kept : deposit.KeptAt limit (.busy session) := by
    apply reached.invariant
    · rintro _ rfl
      change deposit.Filed after.disk
      rw [deposits.disk_after asOpened builds compiled]
      exact deposits.filed
    · exact fun desk event kept respected => Deposit.keptAt_step kept respected
  obtain ⟨hit, text⟩ := Deposit.Kept.resolve kept same
  have passes := deposits.passes asOpened builds
  exact ⟨hit, text.trans deposits.text, Deposit.Kept.build kept passes same⟩

/-- A session on an empty directory builds a name that nobody knows, and so the default effect. A week
later, to the millisecond, another session builds another such name, and finds the text. -/
theorem compiled_shaders_survive_a_week :
    ∃ (first after session : Session) (built : BuiltProgram) (store written : DirectoryStore),
      Reached Desk.step (fun _ _ => True) Desk.AtRest (.busy first) ∧
      first.build "one" = (.ok built, after) ∧ built.compilation = .compiled ∧
      first.Deposits "one" atticDeposit store written ∧
      Reached Desk.step (atticDeposit.Respected 604800000) (· = .idle after.disk)
        (.busy session) ∧
      session.now = first.now + 604800000 ∧
      (session.resolve "two").1.compilation = .cacheHit ∧
      (session.resolve "two").1.fragment = (first.resolve "one").1.fragment ∧
      ∃ again, (session.build "two").1 = .ok again ∧ again.compilation = .cacheHit := by
  have asOpened := Session.asOpened_bare atticPlaces (attic 5)
  have opened : Reached Desk.step (fun _ _ => True) Desk.AtRest
      (.busy (.bare atticPlaces (attic 5))) := by
    rw [← step_bare attic_placed (attic_settings rfl) (attic_stands 5)]
    exact (Reached.start ⟨attic 5, rfl⟩).step _ trivial
  have means := bare_means atticPlaces (attic 5) "one" (by decide)
  obtain ⟨compiles, text⟩ := bare_resolve (attic_stands 5) (attic_holds _ _) means attic_passes
  obtain ⟨built, answer⟩ : ∃ built,
      ((Session.bare atticPlaces (attic 5)).createProgram "one").1 = .ok built := by
    rw [Session.createProgram_ok_iff asOpened, text, Gpu.checkStructure_normalise]
    exact attic_passes
  have builds := Session.build_of_created asOpened answer
  have compiled : built.compilation = .compiled :=
    (Session.createProgram_compilation asOpened answer).trans compiles
  have left := attic_deposits.disk_after asOpened builds compiled
  obtain ⟨entries, stands⟩ := atticAfter_stands 604800005
  have reached : Reached Desk.step (atticDeposit.Respected 604800000)
      (· = .idle ((Session.bare atticPlaces (attic 5)).createProgram "one").2.disk)
      (.busy (.bare atticPlaces (atticAfter 604800005))) := by
    rw [left, ← step_bare attic_placed (atticAfter_settings _) stands]
    have rests : Reached Desk.step (atticDeposit.Respected 604800000)
      (· = .idle (atticAfter 5)) (.idle (atticAfter 5)) := .start rfl
    have untouched : atticDeposit.Untouched (atticAfter 5) (atticAfter 604800005) :=
      fun changed entries there => ⟨changed, there⟩
    have waits := rests.step (DeskEvent.pass 604800005 (atticAfter 604800005)) untouched
    exact waits.step _ attic_welcomes
  have same := bare_means atticPlaces (atticAfter 604800005) "two" (by decide)
  obtain ⟨hit, identical, again⟩ :=
    compiled_shaders_survive opened builds compiled attic_deposits reached same
  exact ⟨_, _, _, built, _, _, opened, builds, compiled, attic_deposits, reached, rfl, hit,
    identical, again⟩

end Overlay
