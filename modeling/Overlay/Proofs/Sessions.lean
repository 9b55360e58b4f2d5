import Overlay.Proofs.BuildVerdicts
import Overlay.Proofs.DirectoryEntries
import Overlay.Session.Report

/-! Sessions, one after the other on one disk. A session begins with a manager that has built nothing
and with a cache whose memory is empty, so what it knows of earlier ones it has from the disk. It does
one thing and ends, and leaves the disk behind. -/
namespace Overlay

namespace Manager

/-- A manager as a session begins with it: its compiler runs, its device refuses nothing, and it has
not built anything. -/
structure Unused (manager : Manager) : Prop where
  programs : manager.programs = ∅
  ready : manager.compilerState = .ready
  willing : manager.bench.refusals.gpu = none
  blank : manager.bench.gpu = {}

theorem unused_create (kind : CompilerKind) : (create { compiler := .ofKind kind }).Unused :=
  ⟨rfl, rfl, rfl, rfl⟩

namespace Unused
variable {manager : Manager}

theorem accounts (unused : manager.Unused) : manager.Accounts [] := by
  refine accounts_of_empty unused.programs ?_ ?_ (List.forall_mem_nil _)
  · rw [unused.blank]
  · rw [unused.blank]

theorem prepared (unused : manager.Unused) : manager.prepared = manager := by
  unfold Manager.prepared
  rw [unused.ready]
  exact if_neg nofun

/-- Importing finds nothing to release. -/
theorem loadExternal (unused : manager.Unused) (disk : Disk) (reference : Reference) :
    (manager.loadExternal disk reference).2.Unused := by
  unfold Manager.loadExternal
  split
  · exact unused
  · unfold release
    simp only [unused.programs, Table.get?_empty]
    exact ⟨rfl, unused.ready, unused.willing, unused.blank⟩

section Cached
variable {σ : Type} [Store σ]

theorem createProgram (unused : manager.Unused) (cache : Cache σ) (disk : Disk) (now : Millis)
    (name : String) :
    manager.createProgram cache disk now name = manager.build cache disk now name := by
  unfold Manager.createProgram
  rw [unused.programs, Table.get?_empty]

/-- The first build succeeds exactly when the text resolved for it passes. -/
theorem createProgram_ok_iff (unused : manager.Unused) (cache : Cache σ) (disk : Disk)
    (now : Millis) (name : String) :
    (∃ built, (manager.createProgram cache disk now name).1 = .ok built) ↔
      Gpu.checkStructure (manager.resolve cache disk now name).1.fragment = .ok () := by
  have decides := (build_decides_resolved manager unused.willing cache disk now name).accepts
  rw [unused.prepared] at decides
  rw [unused.createProgram]
  exact decides

theorem createProgram_compilation (unused : manager.Unused) {cache : Cache σ} {disk : Disk}
    {now : Millis} {name : String} {built : BuiltProgram}
    (answer : (manager.createProgram cache disk now name).1 = .ok built) :
    built.compilation = (manager.resolve cache disk now name).1.compilation := by
  rw [unused.createProgram] at answer
  rw [build_compilation answer, unused.prepared]

theorem createProgram_cache (unused : manager.Unused) (cache : Cache σ) (disk : Disk)
    (now : Millis) (name : String) :
    (manager.createProgram cache disk now name).2.2 =
      (manager.resolve cache disk now name).2.2 := by
  rw [unused.createProgram, build_cache, unused.prepared]

end Cached
end Unused

/-- A program that was created is there when it is asked for again. -/
theorem createProgram_again {σ : Type} [Store σ] {manager : Manager} {cache : Cache σ} {disk : Disk}
    {now : Millis} {name : String} {built : BuiltProgram} (accounts : manager.Accounts [])
    (answer : (manager.createProgram cache disk now name).1 = .ok built) (later : Cache σ)
    (diskThen : Disk) (reading : Millis) :
    (manager.createProgram cache disk now name).2.1.createProgram later diskThen reading name =
      (.ok built, (manager.createProgram cache disk now name).2.1, later) := by
  have kept := accounts_createProgram accounts cache disk now name
  have installed : (manager.createProgram cache disk now name).2.1.program? name = some built := by
    rcases manager.createProgram_cases cache disk now name with
      ⟨live, held, lives, same⟩ | ⟨dead, same⟩
    · rw [same] at answer ⊢
      cases answer
      exact held
    · rw [same] at answer ⊢
      rw [build_program?_self, answer]
  generalize (manager.createProgram cache disk now name).2.1 = after at kept installed ⊢
  have listed := kept.live.mpr ⟨⟨name, built, installed, rfl⟩, List.not_mem_nil⟩
  have lives : after.bench.isProgram built.program = true :=
    (kept.linked.isProgram_iff built.program).mpr listed
  unfold program? at installed
  unfold Manager.createProgram
  rw [installed]
  exact if_pos lives

end Manager

namespace Session
variable {session : Session} {name : String}

/-! ### Opening -/

/-- Importing changes the manager alone. -/
theorem load_kept (session : Session) (path : String) :
    ∃ manager, (session.load path).2 = { session with manager } ∧
      (session.manager.Unused → manager.Unused) :=
  ⟨_, rfl, fun unused => unused.loadExternal session.disk (.onDisk path)⟩

theorem loadConfigured_kept (session : Session) (paths : List String) :
    ∃ manager, session.loadConfigured paths = { session with manager } ∧
      (session.manager.Unused → manager.Unused) := by
  induction paths generalizing session with
  | nil => exact ⟨session.manager, rfl, id⟩
  | cons path rest ih =>
    obtain ⟨first, loaded, unused⟩ := session.load_kept path
    obtain ⟨last, others, unusedStill⟩ := ih (session.load path).2
    refine ⟨last, ?_, fun before => ?_⟩
    · rw [loadConfigured, List.foldl_cons]
      change (session.load path).2.loadConfigured rest = _
      rw [others, loaded]
    · refine unusedStill ?_
      rw [loaded]
      exact unused before

theorem loadRequired_kept {after : Session} {paths : List String}
    (loads : session.loadRequired paths = .ok after) :
    ∃ manager, after = { session with manager } ∧
      (session.manager.Unused → manager.Unused) := by
  induction paths generalizing session with
  | nil =>
    cases loads
    exact ⟨_, rfl, id⟩
  | cons path rest ih =>
    obtain ⟨first, loaded, unused⟩ := session.load_kept path
    rw [loadRequired] at loads
    split at loads
    · rename_i next answer
      rw [answer] at loaded
      obtain ⟨last, rfl, unusedStill⟩ := ih loads
      obtain rfl : next = { session with manager := first } := loaded
      exact ⟨last, rfl, unusedStill ∘ unused⟩
    · cases loads

/-- The ways that opening a session can go. Where the settings and the cache directory can be had,
the session is begun, and then at most the imports fail. -/
inductive Opens (environment : Environment) (found : Disk) (options : Options) :
    Except SessionError Session × Disk → Prop where
  | refused (error : SessionError) : Opens environment found options (.error error, found)
  | unopened {places : Places} {config : String} {settings : Settings} {error : SessionError}
      {disk : Disk} (placed : resolvePlaces environment options = .ok (places, config))
      (set : Settings.load found config = .ok settings)
      (failed : openStore found places options.noPersist = (.error error, disk)) :
      Opens environment found options (.error error, disk)
  | begun {places : Places} {config : String} {settings : Settings} {store : SessionStore}
      {disk : Disk} {answer : Except SessionError Session}
      (placed : resolvePlaces environment options = .ok (places, config))
      (set : Settings.load found config = .ok settings)
      (stored : openStore found places options.noPersist = (.ok store, disk))
      (imported : ∀ session, answer = .ok session → ∃ manager,
        session = { begin settings store options.compiler disk with manager } ∧ manager.Unused) :
      Opens environment found options (answer, (begin settings store options.compiler disk).disk)

theorem openWith_opens (environment : Environment) (found : Disk) (options : Options) :
    Opens environment found options (openWith environment found options) := by
  unfold openWith
  cases placed : resolvePlaces environment options with
  | error error => exact .refused error
  | ok answer =>
    obtain ⟨places, config⟩ := answer
    simp only [bind, Except.bind]
    cases set : Settings.load found config with
    | error error => exact .refused _
    | ok settings =>
      dsimp only
      rcases stored : openStore found places options.noPersist with ⟨error | store, disk⟩
      · exact .unopened placed set stored
      · dsimp only
        obtain ⟨first, configured, unused⟩ :=
          (begin settings store options.compiler disk).loadConfigured_kept settings.overlay.shaders
        rw [configured]
        refine .begun placed set stored fun session loads => ?_
        obtain ⟨last, rfl, unusedStill⟩ := loadRequired_kept loads
        exact ⟨last, rfl, unusedStill (unused (Manager.unused_create options.compiler))⟩

/-- Where nothing is to be imported, a session is opened as it is begun. -/
theorem openWith_bare {environment : Environment} {found disk : Disk} {options : Options}
    {places : Places} {config : String} {settings : Settings} {store : SessionStore}
    (placed : resolvePlaces environment options = .ok (places, config))
    (set : Settings.load found config = .ok settings)
    (stored : openStore found places options.noPersist = (.ok store, disk))
    (bare : settings.overlay.shaders = []) (alone : options.load = []) :
    openWith environment found options =
      (.ok (begin settings store options.compiler disk),
        (begin settings store options.compiler disk).disk) := by
  unfold openWith
  rw [placed]
  simp only [bind, Except.bind, set, stored, bare, alone]
  rfl

/-! ### Working -/

/-- A session in which nothing was done yet. -/
structure AsOpened (session : Session) : Prop where
  manager : session.manager.Unused
  memory : session.cache.memory = ∅
  policy : session.cache.policy = session.settings.cache.policy

theorem createProgram_ok_iff (opened : session.AsOpened) :
    (∃ built, (session.createProgram name).1 = .ok built) ↔
      Gpu.checkStructure (session.resolve name).1.fragment = .ok () :=
  opened.manager.createProgram_ok_iff session.cache session.disk session.now name

theorem createProgram_compilation (opened : session.AsOpened) {built : BuiltProgram}
    (answer : (session.createProgram name).1 = .ok built) :
    built.compilation = (session.resolve name).1.compilation :=
  opened.manager.createProgram_compilation answer

/-- The first program of a session is built from what its name resolves to, and leaves as much. -/
theorem createProgram_cache (opened : session.AsOpened) (name : String) :
    (session.createProgram name).2.cache = (session.resolve name).2.cache :=
  opened.manager.createProgram_cache session.cache session.disk session.now name

theorem createProgram_eq (session : Session) (name : String) :
    session.createProgram name =
      let answer := session.manager.createProgram session.cache session.disk session.now name
      (answer.1, { session with manager := answer.2.1, cache := answer.2.2 }) := rfl

/-- A program that was created is not built again when it is asked for the second time. -/
theorem build_of_created (opened : session.AsOpened) {built : BuiltProgram}
    (answer : (session.createProgram name).1 = .ok built) :
    session.build name = (.ok built, (session.createProgram name).2) := by
  have again := Manager.createProgram_again opened.manager.accounts answer
    (session.createProgram name).2.cache (session.createProgram name).2.disk
    (session.createProgram name).2.now
  have second : (session.createProgram name).2.createProgram name =
      (.ok built, (session.createProgram name).2) := by
    rw [createProgram_eq]
    dsimp only
    rw [show (session.createProgram name).2.manager.createProgram _ _ _ name = _ from again]
    rfl
  have first : session.createProgram name = (.ok built, (session.createProgram name).2) := by
    rw [← answer]
  unfold build
  rw [first]
  dsimp only
  rw [second]
  exact if_pos rfl

/-- Asking for the second time changes nothing. -/
theorem build_session (opened : session.AsOpened) (name : String) :
    (session.build name).2 = (session.createProgram name).2 := by
  cases answer : (session.createProgram name).1 with
  | ok built => rw [build_of_created opened answer]
  | error error =>
    have failed : session.createProgram name = (.error error, (session.createProgram name).2) := by
      rw [← answer]
    unfold build
    rw [failed]

/-- A build that succeeds has created its program. -/
theorem created_of_build {after : Session} {built : BuiltProgram} (opened : session.AsOpened)
    (builds : session.build name = (.ok built, after)) :
    (session.createProgram name).1 = .ok built ∧ after = (session.createProgram name).2 := by
  refine ⟨?_, ?_⟩
  · cases answer : (session.createProgram name).1 with
    | ok made =>
      rw [build_of_created opened answer] at builds
      cases builds
      rfl
    | error error =>
      have failed : session.createProgram name = (.error error, (session.createProgram name).2) := by
        rw [← answer]
      unfold build at builds
      rw [failed] at builds
      cases builds
  · rw [← build_session opened, builds]

/-- What an action leaves on the disk. Importing and looking leave it alone; what a name resolves to
is recorded. -/
theorem perform_disk (session : Session) (action : Action) :
    (session.perform action).disk = match action with
      | .build name => (session.build (session.chosen name)).2.disk
      | .preview name _ => (session.resolve (session.chosen name)).2.disk
      | .cache .clear => session.clearCache.disk
      | _ => session.disk := by
  have imports : ∀ paths session printed,
      (Session.importFiles session printed paths).disk = session.disk := by
    intro paths
    induction paths with
    | nil => exact fun _ _ => rfl
    | cons path rest ih =>
      intro session printed
      obtain ⟨manager, loaded, -⟩ := session.load_kept path
      have same : (session.load path).2.disk = session.disk := by
        rw [loaded]
        rfl
      rw [importFiles]
      split
      · rename_i answer
        rw [answer] at same
        exact same
      · rename_i answer
        rw [answer] at same
        exact (ih _ _).trans same
  cases action with
  | importFiles files => exact imports files session ""
  | build name =>
    unfold perform
    dsimp only
    split <;> rename_i answer <;> rw [answer]
  | cache action => cases action <;> rfl
  | _ => rfl

/-- A session begins with empty memory, for evicting fills none. -/
theorem asOpened_begin (settings : Settings) (store : SessionStore) (kind : CompilerKind)
    (found : Disk) {manager : Manager} (unused : manager.Unused) :
    { begin settings store kind found with manager }.AsOpened where
  manager := unused
  memory := Cache.start_memory _ _ _
  policy := Cache.evict_policy _ _

/-- What a new session misses it compiles, if the compiler accepts it. -/
theorem resolve_of_missed (opened : session.AsOpened) {source text : String}
    {after : Cache SessionStore}
    (means : (session.manager.fragmentSource session.disk name).1 = source)
    (missed : session.cache.lookup session.now .fragment source = (none, after))
    (accepted : (session.manager.bench.compile source .fragment).1 = .ok text) :
    (session.resolve name).1.compilation = .compiled ∧
      (session.resolve name).1.fragment = text := by
  change (Manager.resolve _ _ _ _ name).1.compilation = _ ∧
    (Manager.resolve _ _ _ _ name).1.fragment = _
  rw [Manager.resolve_eq, means]
  dsimp only
  rw [Manager.compileFragment_of_missed missed opened.manager.ready accepted]
  exact ⟨rfl, rfl⟩

/-- The session at a later time, on the disk as it is then. -/
def later (session : Session) (clock : Millis) (disk : Disk) : Session :=
  { session with
    found := { disk with present := clock }
    cache.store := session.cache.store.map id ({ · with disk }) }

theorem AsOpened.later (opened : session.AsOpened) (clock : Millis) (disk : Disk) :
    (session.later clock disk).AsOpened :=
  ⟨opened.manager, opened.memory, opened.policy⟩

end Session

/-! ### One session after the other -/

/-- A disk that no session uses, or the session that uses it. -/
inductive Desk where
  | idle (disk : Disk)
  | busy (session : Session)

inductive DeskEvent where
  | enter (environment : Environment) (options : Options)
  /-- Time passes, and others use the disk. -/
  | pass (clock : Millis) (disk : Disk)
  /-- A session does what it was opened for, and ends. -/
  | act (action : Action)

namespace Desk

/-- The desk after an attempt to open a session. -/
def afterOpening : Except SessionError Session × Disk → Desk
  | (.ok session, _) => .busy session
  | (.error _, disk) => .idle disk

/-- What an event leads to. There is one session at a time, so opening another one has to wait. -/
def step : Desk → DeskEvent → Desk
  | .idle disk, .enter environment options =>
    afterOpening (Session.openWith environment disk options)
  | .idle _, .pass clock disk => .idle { disk with present := clock }
  | .busy session, .pass clock disk => .busy (session.later clock disk)
  | .busy session, .act action => .idle (session.perform action).disk
  | desk, _ => desk

theorem step_enter (disk : Disk) (environment : Environment) (options : Options) :
    (idle disk).step (.enter environment options) =
      afterOpening (Session.openWith environment disk options) := by
  rw [step]

/-- An invocation opens a session and acts at once. -/
theorem step_run (invocation : Invocation) (works : invocation.action ≠ .paths)
    (environment : Environment) (disk : Disk) :
    ((idle disk).step (.enter environment invocation.options)).step (.act invocation.action) =
      .idle (invocation.run environment disk).disk := by
  rw [step_enter]
  unfold Invocation.run
  split
  · exact absurd ‹_› works
  · rcases Session.openWith environment disk invocation.options with ⟨error | session, after⟩
    · rfl
    · rfl

def AtRest (desk : Desk) : Prop :=
  ∃ disk, desk = .idle disk

/-- A session in use is as it was opened. -/
def Sound (desk : Desk) : Prop :=
  ∀ session, desk = .busy session → session.AsOpened

theorem sound_step {desk : Desk} (sound : desk.Sound) (event : DeskEvent) :
    (desk.step event).Sound := by
  intro session same
  cases desk with
  | idle disk =>
    cases event with
    | enter environment options =>
      rw [step_enter] at same
      have opens := Session.openWith_opens environment disk options
      generalize Session.openWith environment disk options = answer at opens same
      cases opens with
      | refused => cases same
      | unopened => cases same
      | @begun places config settings store after answer placed set stored imported =>
        cases answer with
        | error error => cases same
        | ok opened =>
          cases same
          obtain ⟨manager, rfl, unused⟩ := imported _ rfl
          exact Session.asOpened_begin settings store _ after unused
    | pass clock after => cases same
    | act action => cases same
  | busy current =>
    have opened := sound current rfl
    cases event with
    | enter environment options =>
      cases same
      exact opened
    | pass clock disk =>
      cases same
      exact opened.later clock disk
    | act action => cases same

/-- Whatever happened before, a session in use is as it was opened. -/
theorem asOpened_of_reached {session : Session}
    (reached : Reached step (fun _ _ => True) AtRest (.busy session)) : session.AsOpened := by
  have sound : (busy session).Sound := by
    apply reached.invariant
    · rintro _ ⟨disk, rfl⟩ session same
      cases same
    · exact fun desk event sound _ => sound_step sound event
  exact sound session rfl

end Desk
end Overlay
