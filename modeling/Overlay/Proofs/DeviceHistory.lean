import Overlay.Gpu
import Overlay.Proofs.Table

/-! A device is known by what it was asked. Every exchange with it is remembered, and whether a
program can be drawn with, whether it can be linked and how many objects live is read off these
exchanges alone: an object lives from the answer that gave out its handle to the first deletion of
that handle. The invariant holds the two tables of the device against the exchanges. It rests on one
counter for both tables: the next handle is greater than all those given out, so it is none of them.
-/
namespace Overlay.Gpu

/-- What is asked of a device. -/
inductive Request where
  | createStage (stage : Stage) (source : String)
  | deleteStage (handle : Handle)
  | createProgram (vertex fragment : Handle)
  | link (handle : Handle)
  | isProgram (handle : Handle)
  | deleteProgram (handle : Handle)
  deriving DecidableEq, Repr

/-- What a device answers. -/
inductive Reply where
  | made (handle : Handle)
  | done
  | truth (answer : Bool)
  | refused (fault : Fault)
  deriving DecidableEq, Repr

/-- The answer to a request and the device after it. -/
def Request.serve (gpu : Gpu) : Request → Reply × Gpu
  | .createStage stage source =>
    match gpu.createStage stage source with
    | (.ok handle, after) => (.made handle, after)
    | (.error fault, after) => (.refused fault, after)
  | .deleteStage handle => (.done, gpu.deleteStage handle)
  | .createProgram vertex fragment =>
    match gpu.createProgram vertex fragment with
    | (.ok handle, after) => (.made handle, after)
    | (.error fault, after) => (.refused fault, after)
  | .link handle =>
    match gpu.link handle with
    | (.ok (), after) => (.done, after)
    | (.error fault, after) => (.refused fault, after)
  | .isProgram handle => (.truth (gpu.isProgram handle), gpu)
  | .deleteProgram handle => (.done, gpu.deleteProgram handle)

/-- A request with its answer. -/
structure Exchange where
  request : Request
  reply : Reply
  deriving DecidableEq, Repr

/-- A device and what it was asked, the latest first. -/
structure Dialogue where
  gpu : Gpu := {}
  past : List Exchange := []

def Dialogue.ask (dialogue : Dialogue) (request : Request) : Dialogue where
  gpu := (request.serve dialogue.gpu).2
  past := ⟨request, (request.serve dialogue.gpu).1⟩ :: dialogue.past

/-- A new device after these requests. -/
def Dialogue.over (requests : List Request) : Dialogue :=
  requests.foldl Dialogue.ask {}

/-! ### What exchanges say -/

/-- The two kinds of objects on a device. -/
inductive Kind where
  | stage
  | program
  deriving DecidableEq, Repr

/-- The handle that an exchange gave to an object of the kind. -/
def Exchange.made? : Kind → Exchange → Option Handle
  | .stage, ⟨.createStage _ _, .made handle⟩ => some handle
  | .program, ⟨.createProgram _ _, .made handle⟩ => some handle
  | _, _ => none

/-- The handle that an exchange asked to be deleted as one of the kind. -/
def Exchange.deleted? : Kind → Exchange → Option Handle
  | .stage, ⟨.deleteStage handle, _⟩ => some handle
  | .program, ⟨.deleteProgram handle, _⟩ => some handle
  | _, _ => none

/-- Whether a handle was given to an object of the kind and not deleted since. -/
def lives (kind : Kind) (handle : Handle) : List Exchange → Bool
  | [] => false
  | exchange :: past =>
    exchange.made? kind = some handle ||
      (exchange.deleted? kind ≠ some handle && lives kind handle past)

/-- How many objects of the kind were made. -/
def creations (kind : Kind) (past : List Exchange) : Nat :=
  past.countP fun exchange => (exchange.made? kind).isSome

/-- How many deletions of the kind found an object to delete. -/
def deletions (kind : Kind) : List Exchange → Nat
  | [] => 0
  | exchange :: past =>
    deletions kind past +
      match exchange.deleted? kind with
      | some handle => if lives kind handle past then 1 else 0
      | none => 0

/-- The handle was given to a stage of this kind, which may have been deleted since. -/
def CreatedAs (past : List Exchange) (handle : Handle) (stage : Stage) : Prop :=
  ∃ source, ⟨.createStage stage source, .made handle⟩ ∈ past

/-- The handle was given to a program of two stages, before which and since which this was asked, and
which has not been deleted. -/
structure Stands (past : List Exchange) (handle vertex fragment : Handle)
    (earlier since : List Exchange) : Prop where
  split : past = since ++ ⟨.createProgram vertex fragment, .made handle⟩ :: earlier
  kept : ∀ exchange ∈ since, exchange.request ≠ .deleteProgram handle

/-! ### What a request comes to -/

/-- The outcomes of requests; what is refused changes nothing. -/
inductive Serves (gpu : Gpu) : Request → Reply → Gpu → Prop where
  | madeStage (stage : Stage) (source : String) :
    Serves gpu (.createStage stage source) (.made (gpu.issued + 1))
      { gpu with
        issued := gpu.issued + 1
        stages := gpu.stages.insert (gpu.issued + 1) stage }
  | madeProgram {vertex fragment : Handle} {first second : Stage}
      (vertexLives : gpu.stages.get? vertex = some first)
      (fragmentLives : gpu.stages.get? fragment = some second) :
    Serves gpu (.createProgram vertex fragment) (.made (gpu.issued + 1))
      { gpu with
        issued := gpu.issued + 1
        programs := gpu.programs.insert (gpu.issued + 1) ⟨first, second, false⟩ }
  | linked {handle : Handle} {linked : Bool}
      (found : gpu.programs.get? handle = some ⟨.vertex, .fragment, linked⟩) :
    Serves gpu (.link handle) .done
      { gpu with programs := gpu.programs.insert handle ⟨.vertex, .fragment, true⟩ }
  | deletedStage (handle : Handle) :
    Serves gpu (.deleteStage handle) .done (gpu.deleteStage handle)
  | deletedProgram (handle : Handle) :
    Serves gpu (.deleteProgram handle) .done (gpu.deleteProgram handle)
  | told (handle : Handle) (answer : Bool) : Serves gpu (.isProgram handle) (.truth answer) gpu
  | refused (request : Request) (fault : Fault)
      (spares : ∀ kind, Exchange.deleted? kind ⟨request, .refused fault⟩ = none) :
    Serves gpu request (.refused fault) gpu

/-- A stage is made of any source that passes the check. -/
theorem createStage_succeeds_iff (gpu : Gpu) (stage : Stage) (source : String) :
    (∃ handle, (gpu.createStage stage source).1 = .ok handle) ↔ checkStructure source = .ok () := by
  unfold createStage
  cases checkStructure source with
  | error fault => simp
  | ok _ => simp

/-- A program is made of any two handles in the table of stages. -/
theorem createProgram_succeeds_iff (gpu : Gpu) (vertex fragment : Handle) :
    (∃ handle, (gpu.createProgram vertex fragment).1 = .ok handle) ↔
      (gpu.stages.get? vertex).isSome = true ∧ (gpu.stages.get? fragment).isSome = true := by
  unfold createProgram
  cases gpu.stages.get? vertex with
  | none => simp
  | some first =>
    cases gpu.stages.get? fragment with
    | none => simp
    | some second => simp

theorem link_eq_ok_iff (gpu : Gpu) (handle : Handle) :
    (gpu.link handle).1 = .ok () ↔
      ∃ linked, gpu.programs.get? handle = some ⟨.vertex, .fragment, linked⟩ := by
  unfold link
  split
  · simp [*]
  · rename_i program found
    obtain ⟨first, second, linked⟩ := program
    by_cases kinds : first = .vertex ∧ second = .fragment
    · simp [found, kinds]
    · simp [found, kinds]

theorem serve_serves (gpu : Gpu) (request : Request) :
    Serves gpu request (request.serve gpu).1 (request.serve gpu).2 := by
  cases request with
  | createStage stage source =>
    simp only [Request.serve, createStage]
    cases checkStructure source with
    | error fault => exact .refused _ _ fun kind => by cases kind <;> rfl
    | ok _ => exact .madeStage stage source
  | createProgram vertex fragment =>
    simp only [Request.serve, createProgram]
    cases first : gpu.stages.get? vertex with
    | none => exact .refused _ _ fun kind => by cases kind <;> rfl
    | some _ =>
      cases second : gpu.stages.get? fragment with
      | none => exact .refused _ _ fun kind => by cases kind <;> rfl
      | some _ => exact .madeProgram first second
  | link handle =>
    simp only [Request.serve, link]
    cases found : gpu.programs.get? handle with
    | none => exact .refused _ _ fun kind => by cases kind <;> rfl
    | some program =>
      obtain ⟨first, second, linked⟩ := program
      by_cases kinds : first = .vertex ∧ second = .fragment
      · simp only [kinds, and_self, ↓reduceIte]
        obtain ⟨rfl, rfl⟩ := kinds
        exact .linked found
      · simp only [kinds, ↓reduceIte]
        exact .refused _ _ fun kind => by cases kind <;> rfl
  | deleteStage handle => exact .deletedStage handle
  | deleteProgram handle => exact .deletedProgram handle
  | isProgram handle => exact .told handle _

/-! ### Tables against exchanges -/

/-- A table lists what lives by the exchanges, and has as many entries as they leave. -/
structure Tallied {ν : Type} (kind : Kind) (table : Table Handle ν) (past : List Exchange) :
    Prop where
  ascending : table.Ascending
  found (handle : Handle) : (table.get? handle).isSome = lives kind handle past
  size : table.size + deletions kind past = creations kind past

namespace Tallied
variable {ν : Type} {kind : Kind} {table : Table Handle ν} {past : List Exchange}
  {exchange : Exchange} {handle : Handle}

theorem empty (kind : Kind) : Tallied kind (∅ : Table Handle ν) [] where
  ascending := Table.ascending_empty
  found _ := rfl
  size := rfl

/-- What neither makes nor deletes an object of the kind leaves them as they are. -/
theorem keep (tallied : Tallied kind table past) (noneMade : exchange.made? kind = none)
    (noneDeleted : exchange.deleted? kind = none) : Tallied kind table (exchange :: past) where
  ascending := tallied.ascending
  found other := by simp [lives, noneMade, noneDeleted, tallied.found]
  size := by simpa [creations, deletions, noneMade, noneDeleted] using tallied.size

/-- Only whether there is an entry counts, not what it holds. -/
theorem renew (tallied : Tallied kind table past) {held : ν} (present : table.get? handle = some held)
    (value : ν) : Tallied kind (table.insert handle value) past where
  ascending := tallied.ascending.insert handle value
  found other := by
    rw [Table.get?_insert, ← tallied.found]
    split
    · simp [*]
    · rfl
  size := by
    rw [tallied.ascending.size_insert, tallied.ascending.size_erase present]
    exact tallied.size

theorem make (tallied : Tallied kind table past) (made : exchange.made? kind = some handle)
    (noneDeleted : exchange.deleted? kind = none) (new : table.get? handle = none) (value : ν) :
    Tallied kind (table.insert handle value) (exchange :: past) where
  ascending := tallied.ascending.insert handle value
  found other := by
    rw [Table.get?_insert]
    by_cases same : other = handle
    · simp [lives, made, same]
    · simp [lives, made, noneDeleted, same, Ne.symm same, tallied.found]
  size := by
    have before := tallied.size
    rw [tallied.ascending.size_insert, Table.erase_of_absent new]
    simp only [creations, deletions, made, noneDeleted, List.countP_cons, Option.isSome_some,
      ↓reduceIte] at before ⊢
    omega

theorem delete (tallied : Tallied kind table past) (noneMade : exchange.made? kind = none)
    (deleted : exchange.deleted? kind = some handle) :
    Tallied kind (table.erase handle) (exchange :: past) where
  ascending := tallied.ascending.erase handle
  found other := by
    rw [Table.get?_erase]
    by_cases same : other = handle
    · simp [lives, noneMade, deleted, same]
    · simp [lives, noneMade, deleted, same, Ne.symm same, tallied.found]
  size := by
    have before := tallied.size
    have lived := tallied.found handle
    simp only [creations, deletions, noneMade, deleted, List.countP_cons, Option.isSome_none,
      Bool.false_eq_true, ↓reduceIte, ← lived] at before ⊢
    cases present : table.get? handle with
    | none =>
      rw [Table.erase_of_absent present]
      simpa using before
    | some held =>
      have less := tallied.ascending.size_erase present
      simp only [Option.isSome_some, ↓reduceIte]
      omega

end Tallied

/-! ### Programs among the exchanges -/

section Exchanges
variable {past earlier since : List Exchange} {exchange : Exchange}
  {handle vertex fragment : Handle} {stage : Stage}

theorem CreatedAs.later (created : CreatedAs past handle stage) :
    CreatedAs (exchange :: past) handle stage := by
  obtain ⟨source, member⟩ := created
  exact ⟨source, List.mem_cons_of_mem _ member⟩

theorem Stands.created_past (stands : Stands past handle vertex fragment earlier since)
    {other : Handle} (created : CreatedAs earlier other stage) : CreatedAs past other stage := by
  obtain ⟨source, member⟩ := created
  rw [stands.split]
  exact ⟨source, List.mem_append_right _ (List.mem_cons_of_mem _ member)⟩

/-- A program was made by the latest exchange, or stood before it and was spared by it. -/
theorem stands_cons_iff : Stands (exchange :: past) handle vertex fragment earlier since ↔
    (since = [] ∧ earlier = past ∧ exchange = ⟨.createProgram vertex fragment, .made handle⟩) ∨
    ∃ later, since = exchange :: later ∧ exchange.request ≠ .deleteProgram handle ∧
      Stands past handle vertex fragment earlier later := by
  constructor
  · rintro ⟨split, kept⟩
    cases since with
    | nil =>
      obtain ⟨rfl, rfl⟩ := List.cons.inj split
      exact .inl ⟨rfl, rfl, rfl⟩
    | cons latest later =>
      obtain ⟨rfl, rest⟩ := List.cons.inj split
      obtain ⟨spared, before⟩ := List.forall_mem_cons.mp kept
      exact .inr ⟨later, rfl, spared, rest, before⟩
  · rintro (⟨rfl, rfl, rfl⟩ | ⟨later, rfl, spared, stands⟩)
    · exact ⟨rfl, List.forall_mem_nil _⟩
    · exact ⟨congrArg (exchange :: ·) stands.split, List.forall_mem_cons.mpr ⟨spared, stands.kept⟩⟩

theorem made?_program_eq_some_iff : exchange.made? .program = some handle ↔
    ∃ vertex fragment, exchange = ⟨.createProgram vertex fragment, .made handle⟩ := by
  obtain ⟨request, reply⟩ := exchange
  cases request <;> cases reply <;> simp [Exchange.made?, eq_comm]

theorem deleted?_program_eq_some_iff :
    exchange.deleted? .program = some handle ↔ exchange.request = .deleteProgram handle := by
  obtain ⟨request, reply⟩ := exchange
  cases request <;> simp [Exchange.deleted?]

/-- A program that lives by the exchanges is one that stands. -/
theorem lives_program_iff : lives .program handle past = true ↔
    ∃ vertex fragment earlier since, Stands past handle vertex fragment earlier since := by
  induction past with
  | nil =>
    simp only [lives, Bool.false_eq_true, false_iff]
    rintro ⟨_, _, _, since, split, -⟩
    exact List.append_ne_nil_of_right_ne_nil since (List.cons_ne_nil _ _) split.symm
  | cons exchange past ih =>
    simp only [lives, Bool.or_eq_true, Bool.and_eq_true, decide_eq_true_eq, ih,
      made?_program_eq_some_iff, ne_eq, deleted?_program_eq_some_iff, stands_cons_iff]
    constructor
    · rintro (⟨vertex, fragment, rfl⟩ | ⟨spared, vertex, fragment, earlier, later, stands⟩)
      · exact ⟨vertex, fragment, past, [], .inl ⟨rfl, rfl, rfl⟩⟩
      · exact ⟨vertex, fragment, earlier, _, .inr ⟨later, rfl, spared, stands⟩⟩
    · rintro ⟨vertex, fragment, earlier, since, ⟨-, -, made⟩ | ⟨later, -, spared, stands⟩⟩
      · exact .inl ⟨vertex, fragment, made⟩
      · exact .inr ⟨spared, vertex, fragment, earlier, later, stands⟩

end Exchanges

/-! ### The invariant -/

/-- A device as its exchanges say. -/
structure Recorded (gpu : Gpu) (past : List Exchange) : Prop where
  spent : gpu.issued ≤ past.length
  issued : ∀ exchange ∈ past, ∀ handle, exchange.reply = .made handle → handle ≤ gpu.issued
  stages : Tallied .stage gpu.stages past
  programs : Tallied .program gpu.programs past
  stage (handle : Handle) (stage : Stage) :
    gpu.stages.get? handle = some stage → CreatedAs past handle stage
  oneKind (handle : Handle) (one other : Stage) :
    CreatedAs past handle one → CreatedAs past handle other → one = other
  program {handle vertex fragment : Handle} {program : Program} {earlier since : List Exchange} :
    gpu.programs.get? handle = some program →
    Stands past handle vertex fragment earlier since →
    CreatedAs earlier vertex program.vertex ∧ CreatedAs earlier fragment program.fragment ∧
      (program.linked = true ↔ ⟨.link handle, .done⟩ ∈ since)

theorem recorded_new : Recorded {} [] where
  spent := Nat.le_refl 0
  issued := List.forall_mem_nil _
  stages := .empty .stage
  programs := .empty .program
  stage _ _ found := nomatch found
  oneKind _ _ _ created := nomatch created.choose_spec
  program found := nomatch found

namespace Recorded
variable {gpu after : Gpu} {past : List Exchange} {request : Request} {reply : Reply}

/-- The next handle was given to nothing. -/
theorem fresh (recorded : Recorded gpu past) {exchange : Exchange} (member : exchange ∈ past) :
    exchange.reply ≠ .made (gpu.issued + 1) := by
  intro made
  exact Nat.not_succ_le_self _ (recorded.issued exchange member _ made)

theorem stage_fresh (recorded : Recorded gpu past) : gpu.stages.get? (gpu.issued + 1) = none := by
  cases found : gpu.stages.get? (gpu.issued + 1) with
  | none => rfl
  | some stage =>
    obtain ⟨source, member⟩ := recorded.stage _ stage found
    exact absurd rfl (recorded.fresh member)

theorem not_stands (recorded : Recorded gpu past) {first second : Handle}
    {earlier since : List Exchange} :
    ¬ Stands past (gpu.issued + 1) first second earlier since := by
  intro stands
  have member : ⟨.createProgram first second, .made (gpu.issued + 1)⟩ ∈ past := by
    rw [stands.split]
    exact List.mem_append_right _ List.mem_cons_self
  exact recorded.fresh member rfl

theorem program_fresh (recorded : Recorded gpu past) :
    gpu.programs.get? (gpu.issued + 1) = none := by
  rw [← Option.not_isSome_iff_eq_none, recorded.programs.found, lives_program_iff]
  rintro ⟨_, _, _, _, stands⟩
  exact recorded.not_stands stands

theorem spent_step (recorded : Recorded gpu past) (serves : Serves gpu request reply after) :
    after.issued ≤ (⟨request, reply⟩ :: past : List Exchange).length := by
  cases serves with
  | madeStage | madeProgram => exact Nat.succ_le_succ recorded.spent
  | _ => exact Nat.le_succ_of_le recorded.spent

theorem issued_step (recorded : Recorded gpu past) (serves : Serves gpu request reply after) :
    ∀ exchange ∈ (⟨request, reply⟩ :: past : List Exchange),
      ∀ handle, exchange.reply = .made handle → handle ≤ after.issued := by
  have before : gpu.issued ≤ after.issued := by
    cases serves <;> simp [deleteStage, deleteProgram]
  refine List.forall_mem_cons.mpr ⟨?_, ?_⟩
  · rintro handle rfl
    cases serves <;> exact Nat.le_refl _
  · intro exchange member handle made
    exact Nat.le_trans (recorded.issued exchange member handle made) before

theorem stages_step (recorded : Recorded gpu past) (serves : Serves gpu request reply after) :
    Tallied .stage after.stages (⟨request, reply⟩ :: past) := by
  cases serves with
  | madeStage stage source => exact recorded.stages.make rfl rfl recorded.stage_fresh stage
  | deletedStage handle => exact recorded.stages.delete rfl rfl
  | refused _ fault spares => exact recorded.stages.keep (by cases request <;> rfl) (spares _)
  | _ => exact recorded.stages.keep rfl rfl

theorem programs_step (recorded : Recorded gpu past) (serves : Serves gpu request reply after) :
    Tallied .program after.programs (⟨request, reply⟩ :: past) := by
  cases serves with
  | madeProgram => exact recorded.programs.make rfl rfl recorded.program_fresh _
  | linked found => exact (recorded.programs.renew found _).keep rfl rfl
  | deletedProgram handle => exact recorded.programs.delete rfl rfl
  | refused _ fault spares => exact recorded.programs.keep (by cases request <;> rfl) (spares _)
  | _ => exact recorded.programs.keep rfl rfl

theorem stage_step (recorded : Recorded gpu past) (serves : Serves gpu request reply after)
    (handle : Handle) (stage : Stage) (found : after.stages.get? handle = some stage) :
    CreatedAs (⟨request, reply⟩ :: past) handle stage := by
  cases serves with
  | madeStage made source =>
    rw [Table.get?_insert] at found
    split at found
    · cases found
      subst handle
      exact ⟨source, List.mem_cons_self⟩
    · exact (recorded.stage handle stage found).later
  | deletedStage deleted =>
    exact (recorded.stage handle stage (Table.get?_of_get?_erase found).2).later
  | _ => exact (recorded.stage handle stage found).later

/-- Two exchanges that gave out the same handle made stages of the same kind. -/
theorem oneKind_step (recorded : Recorded gpu past) (serves : Serves gpu request reply after)
    (handle : Handle) (one other : Stage) (created : CreatedAs (⟨request, reply⟩ :: past) handle one)
    (createdToo : CreatedAs (⟨request, reply⟩ :: past) handle other) : one = other := by
  obtain ⟨source, member⟩ := created
  obtain ⟨sourceToo, memberToo⟩ := createdToo
  rcases List.mem_cons.mp member with latest | before <;>
    rcases List.mem_cons.mp memberToo with latestToo | beforeToo
  · rw [← latest] at latestToo
    cases latestToo
    rfl
  · cases latest
    cases serves
    exact absurd rfl (recorded.fresh beforeToo)
  · cases latestToo
    cases serves
    exact absurd rfl (recorded.fresh before)
  · exact recorded.oneKind handle one other ⟨source, before⟩ ⟨sourceToo, beforeToo⟩

/-- A program that stood before the latest exchange says what it said then. -/
theorem program_kept (recorded : Recorded gpu past) {exchange : Exchange}
    {handle vertex fragment : Handle} {program : Program} {earlier since : List Exchange}
    (found : gpu.programs.get? handle = some program)
    (stands : Stands (exchange :: past) handle vertex fragment earlier since)
    (silent : exchange ≠ ⟨.link handle, .done⟩)
    (notMade : exchange ≠ ⟨.createProgram vertex fragment, .made handle⟩) :
    CreatedAs earlier vertex program.vertex ∧ CreatedAs earlier fragment program.fragment ∧
      (program.linked = true ↔ ⟨.link handle, .done⟩ ∈ since) := by
  rcases stands_cons_iff.mp stands with ⟨-, -, made⟩ | ⟨later, rfl, -, before⟩
  · exact absurd made notMade
  · obtain ⟨first, second, linked⟩ := recorded.program found before
    refine ⟨first, second, ?_⟩
    rw [linked, List.mem_cons, or_iff_right (Ne.symm silent)]

theorem program_step (recorded : Recorded gpu past) (serves : Serves gpu request reply after)
    {handle vertex fragment : Handle} {program : Program} {earlier since : List Exchange}
    (found : after.programs.get? handle = some program)
    (stands : Stands (⟨request, reply⟩ :: past) handle vertex fragment earlier since) :
    CreatedAs earlier vertex program.vertex ∧ CreatedAs earlier fragment program.fragment ∧
      (program.linked = true ↔ ⟨.link handle, .done⟩ ∈ since) := by
  cases serves with
  | madeProgram vertexLives fragmentLives =>
    rw [Table.get?_insert] at found
    split at found
    · subst handle
      cases found
      rcases stands_cons_iff.mp stands with ⟨rfl, rfl, made⟩ | ⟨_, -, -, before⟩
      · cases made
        exact ⟨recorded.stage _ _ vertexLives, recorded.stage _ _ fragmentLives, by simp⟩
      · exact absurd before recorded.not_stands
    · rename_i older
      refine recorded.program_kept found stands (by simp) ?_
      intro same
      cases same
      exact older rfl
  | @linked target _ held =>
    rcases stands_cons_iff.mp stands with ⟨-, -, made⟩ | ⟨later, rfl, -, before⟩
    · cases made
    · rw [Table.get?_insert] at found
      split at found
      · subst handle
        cases found
        obtain ⟨first, second, -⟩ := recorded.program held before
        exact ⟨first, second, by simp⟩
      · rename_i different
        refine recorded.program_kept found stands ?_ (by simp)
        intro same
        cases same
        exact different rfl
  | deletedProgram deleted =>
    exact recorded.program_kept (Table.get?_of_get?_erase found).2 stands (by simp) (by simp)
  | refused => exact recorded.program_kept found stands (by simp) (by simp)
  | _ => exact recorded.program_kept found stands (by simp) (by simp)

/-- Every request leaves a device as its exchanges say. -/
theorem step (recorded : Recorded gpu past) (serves : Serves gpu request reply after) :
    Recorded after (⟨request, reply⟩ :: past) where
  spent := recorded.spent_step serves
  issued := recorded.issued_step serves
  stages := recorded.stages_step serves
  programs := recorded.programs_step serves
  stage := recorded.stage_step serves
  oneKind := recorded.oneKind_step serves
  program found stands := recorded.program_step serves found stands

end Recorded

theorem recorded_over (requests : List Request) :
    Recorded (Dialogue.over requests).gpu (Dialogue.over requests).past := by
  suffices asked : ∀ dialogue : Dialogue, Recorded dialogue.gpu dialogue.past →
      Recorded (requests.foldl Dialogue.ask dialogue).gpu
        (requests.foldl Dialogue.ask dialogue).past from
    asked {} recorded_new
  induction requests with
  | nil => exact fun _ recorded => recorded
  | cons request rest ih =>
    exact fun dialogue recorded =>
      ih (dialogue.ask request) (recorded.step (serve_serves dialogue.gpu request))

theorem length_past_over (requests : List Request) :
    (Dialogue.over requests).past.length = requests.length := by
  suffices asked : ∀ dialogue : Dialogue,
      (requests.foldl Dialogue.ask dialogue).past.length = dialogue.past.length + requests.length by
    exact (asked {}).trans (Nat.zero_add _)
  induction requests with
  | nil => exact fun _ => rfl
  | cons request rest ih =>
    intro dialogue
    rw [List.foldl_cons, ih, List.length_cons]
    simp only [Dialogue.ask, List.length_cons]
    omega

/-! ### Answers by the exchanges -/

/-- The answers of a device, by what it was asked and answered before. -/
structure Answers (gpu : Gpu) (past : List Exchange) : Prop where
  new (request : Request) (handle : Handle) :
    (request.serve gpu).1 = .made handle → ∀ exchange ∈ past, exchange.reply ≠ .made handle
  refused (request : Request) (fault : Fault) :
    (request.serve gpu).1 = .refused fault → (request.serve gpu).2 = gpu
  makesStage (stage : Stage) (source : String) :
    (∃ handle, (gpu.createStage stage source).1 = .ok handle) ↔ checkStructure source = .ok ()
  makesProgram (vertex fragment : Handle) :
    (∃ handle, (gpu.createProgram vertex fragment).1 = .ok handle) ↔
      lives .stage vertex past = true ∧ lives .stage fragment past = true
  drawable (handle : Handle) : gpu.isProgram handle = true ↔
    ∃ vertex fragment earlier since, Stands past handle vertex fragment earlier since ∧
      ⟨.link handle, .done⟩ ∈ since
  links (handle : Handle) : (gpu.link handle).1 = .ok () ↔
    ∃ vertex fragment earlier since, Stands past handle vertex fragment earlier since ∧
      CreatedAs earlier vertex .vertex ∧ CreatedAs earlier fragment .fragment
  liveStages : gpu.liveStages + deletions .stage past = creations .stage past
  livePrograms : gpu.livePrograms + deletions .program past = creations .program past

namespace Recorded
variable {gpu : Gpu} {past : List Exchange}

theorem found_iff_stands (recorded : Recorded gpu past) (handle : Handle) :
    (∃ program, gpu.programs.get? handle = some program) ↔
      ∃ vertex fragment earlier since, Stands past handle vertex fragment earlier since := by
  rw [← Option.isSome_iff_exists, recorded.programs.found, lives_program_iff]

theorem new (recorded : Recorded gpu past) {request : Request} {handle : Handle}
    (made : (request.serve gpu).1 = .made handle) :
    ∀ exchange ∈ past, exchange.reply ≠ .made handle := by
  intro exchange member
  have serves := serve_serves gpu request
  rw [made] at serves
  generalize (request.serve gpu).2 = after at serves
  cases serves
  · exact recorded.fresh member
  · exact recorded.fresh member

theorem createProgram_iff (recorded : Recorded gpu past) (vertex fragment : Handle) :
    (∃ handle, (gpu.createProgram vertex fragment).1 = .ok handle) ↔
      lives .stage vertex past = true ∧ lives .stage fragment past = true := by
  rw [createProgram_succeeds_iff, recorded.stages.found, recorded.stages.found]

theorem isProgram_iff (recorded : Recorded gpu past) (handle : Handle) :
    gpu.isProgram handle = true ↔
      ∃ vertex fragment earlier since, Stands past handle vertex fragment earlier since ∧
        ⟨.link handle, .done⟩ ∈ since := by
  have isProgram : gpu.isProgram handle = true ↔
      ∃ program, gpu.programs.get? handle = some program ∧ program.linked = true := by
    unfold Gpu.isProgram
    split <;> simp [*]
  rw [isProgram]
  constructor
  · rintro ⟨program, found, linked⟩
    obtain ⟨vertex, fragment, earlier, since, stands⟩ :=
      (recorded.found_iff_stands handle).mp ⟨program, found⟩
    obtain ⟨-, -, linkedSince⟩ := recorded.program found stands
    exact ⟨vertex, fragment, earlier, since, stands, linkedSince.mp linked⟩
  · rintro ⟨vertex, fragment, earlier, since, stands, linked⟩
    obtain ⟨program, found⟩ := (recorded.found_iff_stands handle).mpr ⟨_, _, _, _, stands⟩
    obtain ⟨-, -, linkedSince⟩ := recorded.program found stands
    exact ⟨program, found, linkedSince.mpr linked⟩

theorem link_iff (recorded : Recorded gpu past) (handle : Handle) :
    (gpu.link handle).1 = .ok () ↔
      ∃ vertex fragment earlier since, Stands past handle vertex fragment earlier since ∧
        CreatedAs earlier vertex .vertex ∧ CreatedAs earlier fragment .fragment := by
  rw [link_eq_ok_iff]
  constructor
  · rintro ⟨linked, found⟩
    obtain ⟨vertex, fragment, earlier, since, stands⟩ :=
      (recorded.found_iff_stands handle).mp ⟨_, found⟩
    obtain ⟨first, second, -⟩ := recorded.program found stands
    exact ⟨vertex, fragment, earlier, since, stands, first, second⟩
  · rintro ⟨vertex, fragment, earlier, since, stands, first, second⟩
    obtain ⟨⟨one, other, linked⟩, found⟩ :=
      (recorded.found_iff_stands handle).mpr ⟨_, _, _, _, stands⟩
    obtain ⟨firstToo, secondToo, -⟩ := recorded.program found stands
    -- A handle is given out once, so each of the two stages was made as one kind only.
    have vertexKind : one = .vertex := recorded.oneKind vertex one .vertex
      (stands.created_past firstToo) (stands.created_past first)
    have fragmentKind : other = .fragment := recorded.oneKind fragment other .fragment
      (stands.created_past secondToo) (stands.created_past second)
    exact ⟨linked, by rw [found, vertexKind, fragmentKind]⟩

end Recorded

theorem serve_refused {gpu : Gpu} {request : Request} {fault : Fault}
    (refused : (request.serve gpu).1 = .refused fault) : (request.serve gpu).2 = gpu := by
  have serves := serve_serves gpu request
  rw [refused] at serves
  generalize (request.serve gpu).2 = after at serves ⊢
  cases serves
  rfl

/-- Whatever a new device is asked, its answers follow from the exchanges: a handle it gives out was
not given out before, to a stage or to a program, and what it refuses changes nothing; a stage is
made when its source passes the check, and a program when both its stages live, of whatever kinds
they are; a program can be drawn with when it was made, linked since and not deleted; it can be
linked when it was made and not deleted, and its first stage was made as a vertex and its second as
a fragment, whatever became of the two; and of the objects made, as many live as were not deleted.
No handle is greater than the number of requests, so 32 bits hold the handles of fewer than `2 ^ 32`
requests. -/
theorem device_answers_by_exchanges (requests : List Request) :
    Answers (Dialogue.over requests).gpu (Dialogue.over requests).past ∧
      (Dialogue.over requests).gpu.issued ≤ requests.length := by
  have recorded := recorded_over requests
  refine ⟨?_, length_past_over requests ▸ recorded.spent⟩
  exact {
    new := fun _ _ made => recorded.new made
    refused := fun _ _ refused => serve_refused refused
    makesStage := createStage_succeeds_iff _
    makesProgram := recorded.createProgram_iff
    drawable := recorded.isProgram_iff
    links := recorded.link_iff
    liveStages := recorded.stages.size
    livePrograms := recorded.programs.size }

/-- A program is linked after one of its stages was deleted, and no other is made of that stage. -/
example : (Dialogue.over
    [.createStage .vertex "main", .createStage .fragment "main", .createProgram 1 2, .isProgram 3,
      .deleteStage 1, .link 3, .isProgram 3, .createProgram 1 2, .createProgram 2 2, .link 4,
      .deleteProgram 3, .isProgram 3]).past.reverse.map (·.reply) =
    [.made 1, .made 2, .made 3, .truth false, .done, .done, .truth true,
      .refused (.unknownHandle 1), .made 4,
      .refused (.link "expected vertex + fragment, got fragment + fragment"), .done,
      .truth false] := by decide +kernel

end Overlay.Gpu
