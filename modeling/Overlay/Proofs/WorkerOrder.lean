import Overlay.Worker
import Overlay.Proofs.ProgramAccounts
import Overlay.Store.Memory

/-! A thread does what its tasks do one after another. The tasks may be submitted at any moments
between the steps of the worker; what every caller gets, and the state that the worker owns in the
end, are what running the tasks in the order of their submission gives, with nobody else around. The
invariant behind this ties four things together: the tasks submitted so far are those that have run
and those that wait, the state is what the first ones made of it, each reply lies under the ticket
of its task, and the queue holds exactly the others. A task that panics ends it all. -/
namespace Overlay

/-! ### One task after another -/

/-- What running tasks one after another comes to. -/
structure Course (σ ρ : Type) where
  /-- What the caller of each task gets. -/
  answers : List (Except WorkerError ρ)
  state : σ
  panicked : Bool

section Sequential
variable {σ ρ : Type}

/-- Runs tasks one after another, each on the state that the one before it left. From the first one
that panics on, nobody gets a reply and nothing runs. -/
def inTurn (state : σ) : List (Task σ ρ) → Course σ ρ
  | [] => ⟨[], state, false⟩
  | task :: rest =>
    match task state with
    | (some reply, state) =>
      let later := inTurn state rest
      { later with answers := .ok reply :: later.answers }
    | (none, state) => ⟨.error .disconnected :: rest.map fun _ => .error .disconnected, state, true⟩

theorem inTurn_cons_replies {state between : σ} {task : Task σ ρ} {reply : ρ}
    (runs : task state = (some reply, between)) (rest : List (Task σ ρ)) :
    inTurn state (task :: rest) =
      { inTurn between rest with answers := .ok reply :: (inTurn between rest).answers } := by
  simp only [inTurn, runs]

theorem inTurn_cons_panics {state between : σ} {task : Task σ ρ}
    (panics : task state = (none, between)) (rest : List (Task σ ρ)) :
    inTurn state (task :: rest) =
      ⟨.error .disconnected :: rest.map fun _ => .error .disconnected, between, true⟩ := by
  simp only [inTurn, panics]

/-- More tasks go on where the first ones ended, unless one of these panicked. -/
theorem inTurn_append (state : σ) (done more : List (Task σ ρ)) :
    inTurn state (done ++ more) =
      let first := inTurn state done
      let later := inTurn first.state more
      if first.panicked then
        { first with answers := first.answers ++ more.map fun _ => .error .disconnected }
      else { later with answers := first.answers ++ later.answers } := by
  induction done generalizing state with
  | nil => rfl
  | cons task rest ih =>
    rw [List.cons_append]
    rcases ran : task state with ⟨_ | reply, between⟩
    · rw [inTurn_cons_panics ran, inTurn_cons_panics ran, List.map_append]
      rfl
    · rw [inTurn_cons_replies ran, inTurn_cons_replies ran, ih]
      dsimp only
      split
      · rfl
      · rfl

theorem length_answers (state : σ) (tasks : List (Task σ ρ)) :
    (inTurn state tasks).answers.length = tasks.length := by
  induction tasks generalizing state with
  | nil => rfl
  | cons task rest ih =>
    rcases ran : task state with ⟨_ | reply, between⟩
    · rw [inTurn_cons_panics ran, List.length_cons, List.length_cons, List.length_map]
    · rw [inTurn_cons_replies ran, List.length_cons, List.length_cons, ih]

/-- Without a panic everybody gets a reply. -/
theorem answers_of_orderly {state : σ} {tasks : List (Task σ ρ)}
    (orderly : (inTurn state tasks).panicked = false) :
    ∃ replies : List ρ, (inTurn state tasks).answers = replies.map .ok := by
  induction tasks generalizing state with
  | nil => exact ⟨[], rfl⟩
  | cons task rest ih =>
    rcases ran : task state with ⟨_ | reply, between⟩
    · rw [inTurn_cons_panics ran] at orderly
      cases orderly
    · rw [inTurn_cons_replies ran] at orderly ⊢
      obtain ⟨replies, all⟩ := ih orderly
      exact ⟨reply :: replies, congrArg (.ok reply :: ·) all⟩

/-- With a panic everybody before it gets a reply, and nobody else. -/
theorem answers_of_broken {state : σ} {tasks : List (Task σ ρ)}
    (broken : (inTurn state tasks).panicked = true) :
    ∃ replies : List ρ, replies.length < tasks.length ∧
      (inTurn state tasks).answers =
        replies.map .ok ++ (tasks.drop replies.length).map fun _ => .error .disconnected := by
  induction tasks generalizing state with
  | nil => cases broken
  | cons task rest ih =>
    rcases ran : task state with ⟨_ | reply, between⟩
    · rw [inTurn_cons_panics ran]
      exact ⟨[], Nat.succ_pos _, rfl⟩
    · rw [inTurn_cons_replies ran] at broken ⊢
      obtain ⟨replies, fewer, all⟩ := ih broken
      exact ⟨reply :: replies, Nat.succ_lt_succ fewer, congrArg (.ok reply :: ·) all⟩

variable {start between state : σ} {done : List (Task σ ρ)} {replies : List ρ} {task : Task σ ρ}

/-- One more task after others that all replied. -/
theorem inTurn_replies {reply : ρ} (ran : inTurn start done = ⟨replies.map .ok, between, false⟩)
    (runs : task between = (some reply, state)) :
    inTurn start (done ++ [task]) = ⟨(replies ++ [reply]).map .ok, state, false⟩ := by
  rw [inTurn_append, ran, List.map_append]
  dsimp only
  rw [inTurn_cons_replies runs]
  rfl

/-- A task that panics after others that all replied, and tasks that come too late. -/
theorem inTurn_panics (ran : inTurn start done = ⟨replies.map .ok, between, false⟩)
    (panics : task between = (none, state)) (late : List (Task σ ρ)) :
    inTurn start (done ++ task :: late) =
      ⟨replies.map .ok ++ (task :: late).map fun _ => .error .disconnected, state, true⟩ := by
  rw [inTurn_append, ran]
  dsimp only
  rw [inTurn_cons_panics panics]
  rfl

end Sequential

/-! ### Runs of a thread -/

/-- What can happen to a thread while somebody holds it. -/
inductive WorkerEvent (σ ρ : Type) where
  | submit (task : Task σ ρ)
  /-- The worker takes the next command. -/
  | work

/-- A worker, and every task submitted so far in order, each with the answer to its submission. -/
structure WorkerRun (σ ρ : Type) where
  worker : Worker σ ρ
  submitted : List (Task σ ρ × Except WorkerError Nat) := []

namespace WorkerRun
variable {σ ρ : Type}

def step (cleanup : σ → σ) (run : WorkerRun σ ρ) : WorkerEvent σ ρ → WorkerRun σ ρ
  | .submit task =>
    let (ticket, worker) := run.worker.submit task
    ⟨worker, run.submitted ++ [(task, ticket)]⟩
  | .work => { run with worker := run.worker.step cleanup }

def tasks (run : WorkerRun σ ρ) : List (Task σ ρ) :=
  run.submitted.map (·.1)

/-- What the callers get who wait for a worker to answer what they submitted. -/
def answers (run : WorkerRun σ ρ) (worker : Worker σ ρ) : List (Except WorkerError ρ) :=
  run.submitted.map fun entry => entry.2 >>= worker.await

/-- A run of a thread: tasks are submitted and the worker works, in any order. -/
def Interleaves (cleanup : σ → σ) (start : σ) (run : WorkerRun σ ρ) : Prop :=
  Reached (step cleanup) (fun _ _ => True) (· = { worker := { state := start } }) run

theorem interleaves_start (cleanup : σ → σ) (start : σ) :
    Interleaves cleanup start ({ worker := { state := start } } : WorkerRun σ ρ) :=
  .start rfl

theorem Interleaves.step {cleanup : σ → σ} {start : σ} {run : WorkerRun σ ρ}
    (interleaves : run.Interleaves cleanup start) (event : WorkerEvent σ ρ) :
    (run.step cleanup event).Interleaves cleanup start :=
  Reached.step event interleaves trivial

end WorkerRun

section Order
variable {σ ρ : Type}

/-- The commands for tasks, with tickets from a number on. -/
def commandsFrom (first : Nat) (tasks : List (Task σ ρ)) : List (Command σ ρ) :=
  (tasks.zipIdx first).map fun entry => .run entry.2 entry.1

/-- Replies under the tickets of the first tasks. -/
def ticketed (replies : List ρ) : List (Nat × ρ) :=
  replies.zipIdx.map Prod.swap

/-- Tasks whose submissions were answered with their numbers. -/
def accepted (tasks : List (Task σ ρ)) : List (Task σ ρ × Except WorkerError Nat) :=
  tasks.zipIdx.map fun entry => (entry.1, .ok entry.2)

/-- Tasks whose submissions were refused. -/
def refusedAll (tasks : List (Task σ ρ)) : List (Task σ ρ × Except WorkerError Nat) :=
  tasks.map fun task => (task, .error .disconnected)

/-- The last command of a queue, once the order to stop was given. -/
def lastOrder (closing : Bool) : List (Command σ ρ) :=
  if closing then [.shutdown] else []

theorem commandsFrom_snoc (first : Nat) (tasks : List (Task σ ρ)) (task : Task σ ρ) :
    commandsFrom first (tasks ++ [task]) =
      commandsFrom first tasks ++ [.run (first + tasks.length) task] := by
  simp [commandsFrom, List.zipIdx_append]

theorem ticketed_snoc (replies : List ρ) (reply : ρ) :
    ticketed (replies ++ [reply]) = ticketed replies ++ [(replies.length, reply)] := by
  simp [ticketed, List.zipIdx_append]

theorem accepted_snoc (tasks : List (Task σ ρ)) (task : Task σ ρ) :
    accepted (tasks ++ [task]) = accepted tasks ++ [(task, .ok tasks.length)] := by
  simp [accepted, List.zipIdx_append]

@[simp] theorem map_fst_accepted (tasks : List (Task σ ρ)) :
    (accepted tasks).map (·.1) = tasks := by
  rw [accepted, List.map_map]
  exact List.zipIdx_map_fst 0 tasks

@[simp] theorem map_fst_refusedAll (tasks : List (Task σ ρ)) :
    (refusedAll tasks).map (·.1) = tasks := by
  rw [refusedAll, List.map_map]
  exact List.map_id tasks

/-- The tasks of a thread of which one panicked. -/
theorem tasks_panicked (worker : Worker σ ρ) (done waiting refused : List (Task σ ρ))
    (task : Task σ ρ) :
    (WorkerRun.mk worker (accepted (done ++ task :: waiting) ++ refusedAll refused)).tasks =
      done ++ task :: (waiting ++ refused) := by
  rw [WorkerRun.tasks, List.map_append, map_fst_accepted, map_fst_refusedAll, List.append_assoc]
  rfl

/-- How far a thread has come that started in some state, and that was ordered to stop or not: which
of its tasks have run, which wait, and which came too late. -/
inductive Progress (start : σ) (cleanup : σ → σ) : Bool → WorkerRun σ ρ → Prop where
  | running {closing : Bool} {done : List (Task σ ρ)} {replies : List ρ} {state : σ}
      (waiting : List (Task σ ρ)) (ran : inTurn start done = ⟨replies.map .ok, state, false⟩) :
      Progress start cleanup closing
        { worker :=
            { state
              queue := commandsFrom done.length waiting ++ lastOrder closing
              issued := (done ++ waiting).length
              replies := ticketed replies }
          submitted := accepted (done ++ waiting) }
  | panicked {closing : Bool} {done : List (Task σ ρ)} {task : Task σ ρ} {replies : List ρ}
      {before state : σ} (waiting refused : List (Task σ ρ))
      (ran : inTurn start done = ⟨replies.map .ok, before, false⟩)
      (panics : task before = (none, state)) :
      Progress start cleanup closing
        { worker :=
            { state
              status := .panicked
              issued := (done ++ task :: waiting).length
              replies := ticketed replies }
          submitted := accepted (done ++ task :: waiting) ++ refusedAll refused }
  | stopped {done : List (Task σ ρ)} {replies : List ρ} {state : σ}
      (ran : inTurn start done = ⟨replies.map .ok, state, false⟩) :
      Progress start cleanup true
        { worker :=
            { state := cleanup state
              status := .stopped
              issued := done.length
              replies := ticketed replies }
          submitted := accepted done }

namespace Progress
variable {start : σ} {cleanup : σ → σ} {closing : Bool} {run : WorkerRun σ ρ}

/-- Each task that ran has one reply. -/
private theorem replies_length {done : List (Task σ ρ)} {replies : List ρ} {state : σ}
    {panicked : Bool} (ran : inTurn start done = ⟨replies.map .ok, state, panicked⟩) :
    replies.length = done.length := by
  have length := length_answers start done
  rwa [ran, List.length_map] at length

/-- A submission is queued behind the others, or it comes too late. -/
theorem submit (progress : Progress start cleanup false run) (task : Task σ ρ) :
    Progress start cleanup false (run.step cleanup (.submit task)) := by
  cases progress with
  | running waiting ran =>
    have after := @Progress.running _ _ _ cleanup false _ _ _ (waiting ++ [task]) ran
    rw [← List.append_assoc, accepted_snoc, commandsFrom_snoc, List.length_append] at after
    simpa [WorkerRun.step, Worker.submit, lastOrder] using after
  | panicked waiting refused ran panics =>
    have after := @Progress.panicked _ _ _ cleanup false _ _ _ _ _ waiting
      (refused ++ [task]) ran panics
    simpa [WorkerRun.step, Worker.submit, refusedAll] using after

/-- The worker takes the first of the waiting tasks, and stops when none is left before the order to
stop. -/
theorem work (progress : Progress start cleanup closing run) :
    Progress start cleanup closing (run.step cleanup .work) := by
  cases progress with
  | @running _ done replies state waiting ran =>
    cases waiting with
    | nil =>
      cases closing with
      | false => exact .running [] ran
      | true =>
        rw [List.append_nil]
        exact .stopped ran
    | cons task rest =>
      have same := replies_length ran
      rcases runs : task state with ⟨_ | reply, after⟩
      · have ended := @Progress.panicked _ _ _ cleanup closing _ _ _ _ _ rest [] ran runs
        simpa [WorkerRun.step, Worker.step, commandsFrom, runs, refusedAll] using ended
      · have goesOn := @Progress.running _ _ _ cleanup closing _ _ _ rest
          (inTurn_replies ran runs)
        rw [ticketed_snoc, same, List.append_assoc, List.length_append] at goesOn
        simpa [WorkerRun.step, Worker.step, commandsFrom, runs] using goesOn
  | panicked waiting refused ran panics => exact .panicked waiting refused ran panics
  | stopped ran => exact .stopped ran

/-- The order to stop waits behind everything else. -/
theorem close (progress : Progress start cleanup false run) :
    Progress start cleanup true { run with worker := run.worker.close } := by
  cases progress with
  | running waiting ran =>
    have after := @Progress.running _ _ _ cleanup true _ _ _ waiting ran
    simpa [Worker.close, lastOrder] using after
  | panicked waiting refused ran panics => exact .panicked waiting refused ran panics

/-- A worker that does not run has nothing to take. -/
theorem queue_of_halted (progress : Progress start cleanup closing run)
    (halted : run.worker.status ≠ .running) : run.worker.queue = [] := by
  cases progress with
  | running waiting ran => exact absurd rfl halted
  | panicked waiting refused ran panics => rfl
  | stopped ran => rfl

/-- Every step makes the queue shorter as long as there is one. -/
theorem work_queue (progress : Progress start cleanup closing run) :
    (run.worker.step cleanup).queue.length ≤ run.worker.queue.length - 1 := by
  have halted := progress.queue_of_halted
  unfold Worker.step
  split
  · rename_i rest running queued
    rw [queued]
    split
    · exact Nat.le_refl _
    · exact Nat.zero_le _
  · exact Nat.zero_le _
  · rename_i noTask noShutdown
    have nothing : run.worker.queue = [] := by
      by_cases runs : run.worker.status = .running
      · rcases queued : run.worker.queue with _ | ⟨⟨ticket, task⟩ | _, rest⟩
        · rfl
        · exact (noTask ticket task rest runs queued).elim
        · exact (noShutdown rest runs queued).elim
      · exact halted runs
    rw [nothing]
    exact Nat.zero_le _

/-- With steps enough the worker leaves nothing in its queue. -/
private theorem go (steps : Nat) (progress : Progress start cleanup closing run)
    (enough : run.worker.queue.length ≤ steps) :
    Progress start cleanup closing
      { run with worker := Worker.drain.go cleanup steps run.worker } ∧
    (Worker.drain.go cleanup steps run.worker).queue = [] := by
  induction steps generalizing run with
  | zero => exact ⟨progress, List.eq_nil_of_length_eq_zero (Nat.le_zero.mp enough)⟩
  | succ steps ih =>
    have shorter := progress.work_queue
    exact ih progress.work (by
      change (run.worker.step cleanup).queue.length ≤ steps
      omega)

/-- A worker that is let run until its queue is empty. -/
theorem drain (progress : Progress start cleanup closing run) :
    Progress start cleanup closing { run with worker := run.worker.drain cleanup } ∧
    (run.worker.drain cleanup).queue = [] :=
  progress.go _ (Nat.le_refl _)

/-! ### What the callers get -/

private theorem find_ticketed (replies : List ρ) (first place : Nat) :
    (((replies.zipIdx first).map Prod.swap).find? fun entry => entry.1 == first + place).map (·.2) =
      replies[place]? := by
  induction replies generalizing first place with
  | nil => rfl
  | cons reply rest ih =>
    rw [List.zipIdx_cons, List.map_cons]
    cases place with
    | zero => simp
    | succ place =>
      have others : first + (place + 1) = first + 1 + place := by omega
      have apart : ¬ first = first + 1 + place := by omega
      rw [others, List.find?_cons_of_neg (by simpa using apart), ih (first + 1) place]
      rfl

/-- A ticket finds the reply to its task. -/
theorem reply?_ticketed {worker : Worker σ ρ} {replies : List ρ}
    (gave : worker.replies = ticketed replies) (ticket : Nat) :
    worker.reply? ticket = replies[ticket]? := by
  rw [Worker.reply?, gave, ticketed]
  simpa using find_ticketed replies 0 ticket

/-- The callers of the first tasks get their replies, and the others hear that none will come. -/
theorem answers_accepted {worker : Worker σ ρ} {replies : List ρ} {tasks : List (Task σ ρ)}
    (gave : worker.replies = ticketed replies) (fewer : replies.length ≤ tasks.length) :
    (accepted tasks).map (fun entry => entry.2 >>= worker.await) =
      replies.map .ok ++ (tasks.drop replies.length).map fun _ => .error .disconnected := by
  apply List.ext_getElem?
  intro place
  have asked : ((accepted tasks).map fun entry => entry.2 >>= worker.await)[place]? =
      tasks[place]?.map fun _ => worker.await place := by
    rw [accepted, List.map_map, List.getElem?_map, List.getElem?_zipIdx, Option.map_map,
      Nat.zero_add]
    rfl
  rw [asked, Worker.await, reply?_ticketed gave]
  by_cases early : place < replies.length
  · have known : place < tasks.length := by omega
    rw [List.getElem?_append_left (by simpa using early)]
    simp [early, known]
  · rw [List.getElem?_append_right (by simpa using early), List.length_map, List.getElem?_map,
      List.getElem?_drop]
    have place_eq : replies.length + (place - replies.length) = place := by omega
    rw [place_eq, List.getElem?_eq_none (by omega : replies.length ≤ place)]

/-- Nobody hears of a task that came too late. -/
theorem answers_refused (worker : Worker σ ρ) (tasks : List (Task σ ρ)) :
    (refusedAll tasks).map (fun entry => entry.2 >>= worker.await) =
      tasks.map fun _ => .error .disconnected := by
  rw [refusedAll, List.map_map]
  rfl

/-- Once nothing waits any more, the callers have what running the tasks one after another gives. -/
theorem answers_eq (progress : Progress start cleanup closing run)
    (nothing : run.worker.queue = []) :
    run.answers run.worker = (inTurn start run.tasks).answers := by
  cases progress with
  | @running _ done replies state waiting ran =>
    have noneLeft : waiting = [] := by
      simpa [commandsFrom] using (List.append_eq_nil_iff.mp nothing).1
    subst noneLeft
    have same := replies_length ran
    rw [List.append_nil, WorkerRun.answers, answers_accepted rfl (Nat.le_of_eq same), same,
      List.drop_length, WorkerRun.tasks, map_fst_accepted, ran]
    exact List.append_nil _
  | @panicked _ done task replies before state waiting refused ran panics =>
    have same := replies_length ran
    rw [tasks_panicked, inTurn_panics ran panics, WorkerRun.answers, List.map_append,
      answers_accepted rfl (by simp [same]), answers_refused, same, List.drop_left]
    simp
  | @stopped done replies state ran =>
    have same := replies_length ran
    rw [WorkerRun.answers, answers_accepted rfl (Nat.le_of_eq same), same, List.drop_length,
      WorkerRun.tasks, map_fst_accepted, ran]
    exact List.append_nil _

end Progress

theorem getElem?_accepted (tasks : List (Task σ ρ)) (place : Nat) :
    (accepted tasks)[place]? = tasks[place]?.map fun task => (task, .ok place) := by
  rw [accepted, List.getElem?_map, List.getElem?_zipIdx, Option.map_map, Nat.zero_add]
  rfl

theorem mem_ticketed {replies : List ρ} {ticket : Nat} {reply : ρ} :
    (ticket, reply) ∈ ticketed replies ↔ replies[ticket]? = some reply := by
  rw [← List.mk_mem_zipIdx_iff_getElem?, ticketed, List.mem_map]
  constructor
  · rintro ⟨entry, member, same⟩
    cases same
    exact member
  · intro member
    exact ⟨_, member, rfl⟩

theorem tickets_ticketed (replies : List ρ) :
    (ticketed replies).map (·.1) = List.range (ticketed replies).length := by
  rw [ticketed, List.length_map, List.length_zipIdx, List.map_map, List.range_eq_range']
  exact List.zipIdx_map_snd 0 replies

/-- What holds of a thread at every moment, by how many of its tasks the worker has taken: these
have run one after another, each has its reply, and the others wait in their order. -/
structure TakesInTurn (start : σ) (run : WorkerRun σ ρ) (taken : Nat) : Prop where
  within : taken ≤ run.tasks.length
  state : run.worker.state = (inTurn start (run.tasks.take taken)).state
  status : run.worker.status =
    if (inTurn start (run.tasks.take taken)).panicked then .panicked else .running
  waiting : run.worker.status = .running →
    run.worker.queue = commandsFrom taken (run.tasks.drop taken)
  tickets {place : Nat} {entry : Task σ ρ × Except WorkerError Nat} :
    run.submitted[place]? = some entry →
      entry.2 = .ok place ∨ entry.2 = .error .disconnected ∧ run.worker.status = .panicked
  replied (ticket : Nat) (reply : ρ) : (ticket, reply) ∈ run.worker.replies ↔
    ticket < taken ∧ (inTurn start run.tasks).answers[ticket]? = some (.ok reply)
  once : run.worker.replies.map (·.1) = List.range run.worker.replies.length

/-- The replies among the answers, as far as nothing behind them is a reply. -/
private theorem reply_among {replies : List ρ} {later : List (Except WorkerError ρ)} {bound : Nat}
    (reaches : replies.length ≤ bound)
    (noMore : ∀ place reply, replies.length + place < bound → later[place]? ≠ some (.ok reply))
    (ticket : Nat) (reply : ρ) :
    replies[ticket]? = some reply ↔
      ticket < bound ∧ (replies.map .ok ++ later)[ticket]? = some (.ok reply) := by
  by_cases early : ticket < replies.length
  · rw [List.getElem?_append_left (by simpa using early)]
    simp [early, Nat.lt_of_lt_of_le early reaches]
  · rw [List.getElem?_append_right (by simpa using early), List.length_map,
      List.getElem?_eq_none (Nat.le_of_not_lt early)]
    constructor
    · nofun
    · rintro ⟨inside, found⟩
      exact (noMore (ticket - replies.length) reply (by omega) found).elim

theorem Progress.takesInTurn {start : σ} {cleanup : σ → σ} {run : WorkerRun σ ρ}
    (progress : Progress start cleanup false run) : ∃ taken, TakesInTurn start run taken := by
  cases progress with
  | @running _ done replies state waiting ran =>
    have same := replies_length ran
    refine ⟨done.length, ?_, ?_, ?_, ?_, ?_, ?_, tickets_ticketed replies⟩
    · simp [WorkerRun.tasks]
    · simp [WorkerRun.tasks, ran]
    · simp [WorkerRun.tasks, ran]
    · simp [WorkerRun.tasks, lastOrder]
    · intro place entry found
      rw [getElem?_accepted, Option.map_eq_some_iff] at found
      obtain ⟨task, -, rfl⟩ := found
      exact .inl rfl
    · intro ticket reply
      rw [mem_ticketed, WorkerRun.tasks, map_fst_accepted, inTurn_append, ran]
      exact reply_among (Nat.le_of_eq same) (fun _ _ inside => by omega) ticket reply
  | @panicked _ done task replies before state waiting refused ran panics =>
    have same := replies_length ran
    have taken : (done ++ task :: (waiting ++ refused)).take (done.length + 1) =
        done ++ [task] := by
      rw [List.append_cons]
      exact List.take_left' (by simp)
    have first := inTurn_panics ran panics []
    refine ⟨done.length + 1, ?_, ?_, ?_, nofun, ?_, ?_, tickets_ticketed replies⟩
    · rw [tasks_panicked]
      simp
    · rw [tasks_panicked, taken, first]
    · rw [tasks_panicked, taken, first]
      rfl
    · intro place entry found
      rw [List.getElem?_append] at found
      split at found
      · rw [getElem?_accepted, Option.map_eq_some_iff] at found
        obtain ⟨earlier, -, rfl⟩ := found
        exact .inl rfl
      · rw [refusedAll, List.getElem?_map, Option.map_eq_some_iff] at found
        obtain ⟨late, -, rfl⟩ := found
        exact .inr ⟨rfl, rfl⟩
    · intro ticket reply
      rw [mem_ticketed, tasks_panicked, inTurn_panics ran panics]
      refine reply_among (by omega) (fun place reply inside => ?_) ticket reply
      rw [List.getElem?_map]
      cases (task :: (waiting ++ refused))[place]? <;> nofun

/-- How a thread ends: with the answers of its tasks run one after another, and cleaned up once
unless one of them panicked. -/
structure EndsInTurn (start : σ) (cleanup : σ → σ) (run : WorkerRun σ ρ)
    (outcome : Except WorkerError Unit × Worker σ ρ) : Prop where
  answers : run.answers outcome.2 = (inTurn start run.tasks).answers
  orderly : (inTurn start run.tasks).panicked = false →
    outcome.1 = .ok () ∧ outcome.2.state = cleanup (inTurn start run.tasks).state ∧
      ∃ replies : List ρ, run.answers outcome.2 = replies.map .ok
  broken : (inTurn start run.tasks).panicked = true →
    outcome.1 = .error .panicked ∧ outcome.2.state = (inTurn start run.tasks).state ∧
      ∃ replies : List ρ, replies.length < run.tasks.length ∧
        run.answers outcome.2 = replies.map .ok ++
          (run.tasks.drop replies.length).map fun _ => .error .disconnected

/-- A thread that was ordered to stop and has nothing left to take panicked or was cleaned up. -/
theorem Progress.ended {start : σ} {cleanup : σ → σ} {run : WorkerRun σ ρ}
    (progress : Progress start cleanup true run) (nothing : run.worker.queue = []) :
    let turns := inTurn start run.tasks
    (turns.panicked = true ∧ run.worker.status = .panicked ∧ run.worker.state = turns.state) ∨
    (turns.panicked = false ∧ run.worker.status = .stopped ∧
      run.worker.state = cleanup turns.state) := by
  cases progress with
  | running waiting ran => simp [lastOrder] at nothing
  | panicked waiting refused ran panics =>
    rw [tasks_panicked, inTurn_panics ran panics]
    exact .inl ⟨rfl, rfl, rfl⟩
  | stopped ran =>
    rw [WorkerRun.tasks, map_fst_accepted, ran]
    exact .inr ⟨rfl, rfl, rfl⟩

theorem Progress.endsInTurn {start : σ} {cleanup : σ → σ} {run : WorkerRun σ ρ}
    (progress : Progress start cleanup true run) (nothing : run.worker.queue = []) :
    EndsInTurn start cleanup run
      (if run.worker.status = .panicked then .error .panicked else .ok (), run.worker) := by
  have answers := progress.answers_eq nothing
  refine ⟨answers, fun orderly => ?_, fun broken => ?_⟩
  · rw [answers]
    rcases progress.ended nothing with ⟨broken, -, -⟩ | ⟨-, status, state⟩
    · rw [orderly] at broken
      cases broken
    · rw [status]
      exact ⟨rfl, state, answers_of_orderly orderly⟩
  · rw [answers]
    rcases progress.ended nothing with ⟨-, status, state⟩ | ⟨orderly, -, -⟩
    · rw [status]
      exact ⟨rfl, state, answers_of_broken broken⟩
    · rw [broken] at orderly
      cases orderly

theorem WorkerRun.Interleaves.progress {start : σ} {cleanup : σ → σ} {run : WorkerRun σ ρ}
    (interleaves : run.Interleaves cleanup start) : Progress start cleanup false run := by
  refine Reached.invariant interleaves ?_ ?_
  · rintro _ rfl
    exact @Progress.running _ _ _ _ _ [] [] _ [] rfl
  · intro run event progress _
    cases event with
    | submit task => exact progress.submit task
    | work => exact progress.work

theorem Progress.joinable {start : σ} {cleanup : σ → σ} {closing : Bool} {run : WorkerRun σ ρ}
    (progress : Progress start cleanup closing run) : run.worker.joinable = true := by
  cases progress <;> rfl

/-- A thread is shut down as its tasks end one after another; to let go of it comes to the same, and
to let go of it again to nothing. -/
theorem WorkerRun.Interleaves.shutdown {start : σ} {cleanup : σ → σ} {run : WorkerRun σ ρ}
    (interleaves : run.Interleaves cleanup start) :
    EndsInTurn start cleanup run (run.worker.shutdown cleanup) ∧
      run.worker.drop cleanup = (run.worker.shutdown cleanup).2 ∧
      (run.worker.shutdown cleanup).2.drop cleanup = (run.worker.shutdown cleanup).2 := by
  have progress := interleaves.progress
  obtain ⟨closed, nothing⟩ := progress.close.drain
  have ends := closed.endsInTurn nothing
  have once : run.worker.stop cleanup =
      (if (run.worker.close.drain cleanup).status = .panicked then .error .panicked else .ok (),
        { run.worker.close.drain cleanup with joinable := false }) := if_pos progress.joinable
  simp only [Worker.shutdown, Worker.drop, once]
  exact ⟨⟨ends.answers, ends.orderly, ends.broken⟩, rfl, rfl⟩

/-- Waiting for a task right after submitting it gives what running it after all others gives. -/
theorem WorkerRun.Interleaves.call {start : σ} {cleanup : σ → σ} {run : WorkerRun σ ρ}
    (interleaves : run.Interleaves cleanup start) (task : Task σ ρ) :
    (inTurn start (run.tasks ++ [task])).answers.getLast? =
      some (run.worker.call cleanup task).1 := by
  obtain ⟨drained, nothing⟩ := (interleaves.progress.submit task).drain
  have answers := drained.answers_eq nothing
  have tasks : (run.step cleanup (.submit task)).tasks = run.tasks ++ [task] := by
    simp [WorkerRun.tasks, WorkerRun.step]
  change _ = (inTurn start (run.step cleanup (.submit task)).tasks).answers at answers
  rw [← tasks, ← answers, WorkerRun.answers, List.getLast?_map]
  change (run.submitted ++ [(task, (run.worker.submit task).1)]).getLast?.map _ = _
  rw [List.getLast?_concat, Worker.call]
  unfold WorkerRun.step
  dsimp only
  rcases run.worker.submit task with ⟨error | ticket, worker⟩
  · rfl
  · rfl

end Order

/-! ### The thread of a manager -/

section Managed
variable {σ ρ : Type} [Store σ]

/-- A task works on a manager through its operations, however it chooses them. -/
def Operates (task : Task (ManagerRun σ) ρ) : Prop :=
  ∀ run, ∃ events : List (ManagerEvent σ), (task run).2 = events.foldl ManagerRun.step run

/-- How the thread leaves its manager. -/
def tidied (run : ManagerRun σ) : ManagerRun σ :=
  run.step .cleanup

theorem reached_events {run : ManagerRun σ} (reached : Reached ManagerRun.step Anything Begins run)
    (events : List (ManagerEvent σ)) :
    Reached ManagerRun.step Anything Begins (events.foldl ManagerRun.step run) := by
  induction events generalizing run with
  | nil => exact reached
  | cons event rest ih => exact ih (reached.step event trivial)

/-- Tasks one after another leave a manager that its operations lead to. -/
theorem reached_inTurn {start : ManagerRun σ} {tasks : List (Task (ManagerRun σ) ρ)}
    (reached : Reached ManagerRun.step Anything Begins start)
    (operate : ∀ task ∈ tasks, Operates task) :
    Reached ManagerRun.step Anything Begins (inTurn start tasks).state := by
  induction tasks generalizing start with
  | nil => exact reached
  | cons task rest ih =>
    obtain ⟨events, leaves⟩ := operate task List.mem_cons_self start
    have after := reached_events reached events
    rw [← leaves] at after
    rcases ran : task start with ⟨_ | reply, between⟩
    · rw [inTurn_cons_panics ran]
      rwa [ran] at after
    · rw [inTurn_cons_replies ran]
      rw [ran] at after
      exact ih after fun later member => operate later (List.mem_cons_of_mem _ member)

/-- However submissions and the work of the thread alternate, the tasks are taken one at a time in
the order of their submission, every caller gets what running the tasks one after another gives, and
at the end the manager is what they leave, cleaned up once; if a task panics, it is what that task
leaves, and neither a later task nor the clean-up touches it. All this holds of any tasks on any
manager; and if they work on one that its operations lead to, and through its operations, then no
program is alive once it has been cleaned up. -/
theorem tasks_run_in_turn {start : ManagerRun σ} {run : WorkerRun (ManagerRun σ) ρ}
    (interleaves : run.Interleaves tidied start) :
    (∃ taken, TakesInTurn start run taken) ∧
    (∀ task, (inTurn start (run.tasks ++ [task])).answers.getLast? =
      some (run.worker.call tidied task).1) ∧
    EndsInTurn start tidied run (run.worker.shutdown tidied) ∧
    run.worker.drop tidied = (run.worker.shutdown tidied).2 ∧
    (run.worker.shutdown tidied).2.drop tidied = (run.worker.shutdown tidied).2 ∧
    (Reached ManagerRun.step Anything Begins start → (∀ task ∈ run.tasks, Operates task) →
      (inTurn start run.tasks).panicked = false →
      (run.worker.shutdown tidied).2.state.scene.manager.bench.gpu.livePrograms = 0) := by
  obtain ⟨ends, dropped, again⟩ := interleaves.shutdown
  refine ⟨interleaves.progress.takesInTurn, interleaves.call, ends, dropped, again, ?_⟩
  intro reached operate orderly
  obtain ⟨-, state, -⟩ := ends.orderly orderly
  rw [state]
  have accounts := accounts_of_reached (reached_inTurn reached operate)
  change (Manager.cleanup _).bench.gpu.livePrograms = 0
  rw [accounts.cleanup_gpu]
  rfl

end Managed

/-- One operation, and a look at what it leaves. -/
def performing {σ ρ : Type} [Store σ] (event : ManagerEvent σ) (look : ManagerRun σ → ρ) :
    Task (ManagerRun σ) ρ :=
  fun run => (some (look (run.step event)), run.step event)

/-- One operation, and a panic after it. -/
def panickingAfter {σ ρ : Type} [Store σ] (event : ManagerEvent σ) : Task (ManagerRun σ) ρ :=
  fun run => (none, run.step event)

theorem operates_performing {σ ρ : Type} [Store σ] (event : ManagerEvent σ)
    (look : ManagerRun σ → ρ) : Operates (performing event look) :=
  fun _ => ⟨[event], rfl⟩

theorem operates_panickingAfter {σ ρ : Type} [Store σ] (event : ManagerEvent σ) :
    Operates (panickingAfter event : Task (ManagerRun σ) ρ) :=
  fun _ => ⟨[event], rfl⟩

/-- A program is built; another task is queued behind one that panics, and one more is submitted
when that has happened. Only the first has its reply, and its program is still alive when the thread
has been shut down. Without the others it is deleted. -/
theorem tasks_run_in_turn_until_panic :
    ∃ (start : ManagerRun MemoryStore) (calm broken : WorkerRun (ManagerRun MemoryStore) Nat),
      Reached ManagerRun.step Anything Begins start ∧
      (calm.Interleaves tidied start ∧ (∀ task ∈ calm.tasks, Operates task) ∧
        (calm.worker.shutdown tidied).1 = .ok () ∧
        calm.answers (calm.worker.shutdown tidied).2 = [.ok 1] ∧
        (calm.worker.shutdown tidied).2.state.scene.manager.bench.gpu.livePrograms = 0) ∧
      (broken.Interleaves tidied start ∧ (∀ task ∈ broken.tasks, Operates task) ∧
        (broken.worker.shutdown tidied).1 = .error .panicked ∧
        broken.answers (broken.worker.shutdown tidied).2 =
          [.ok 1, .error .disconnected, .error .disconnected, .error .disconnected] ∧
        (broken.worker.shutdown tidied).2.state.scene.manager.bench.gpu.livePrograms = 1) := by
  let start := (ManagerRun.opened {} {} ({} : MemoryStore) {} 0).step
    (.register ⟨"plain", .inMemory {} "plain", .direct ["main"]⟩)
  have reached : Reached ManagerRun.step Anything Begins start :=
    (Reached.start ⟨rfl, {}, rfl, rfl⟩).step _ trivial
  let build : Task (ManagerRun MemoryStore) Nat :=
    performing (.create "plain") fun run => run.scene.manager.bench.gpu.livePrograms
  let fail : Task (ManagerRun MemoryStore) Nat := panickingAfter .evict
  have buildOperates : Operates build := operates_performing _ _
  have failOperates : Operates fail := operates_panickingAfter _
  have first := ((WorkerRun.interleaves_start tidied start).step (.submit build)).step .work
  obtain ⟨calm, built, calmTasks⟩ : ∃ calm : WorkerRun (ManagerRun MemoryStore) Nat,
      calm.Interleaves tidied start ∧ calm.tasks = [build] := ⟨_, first, rfl⟩
  obtain ⟨broken, failed, brokenTasks⟩ : ∃ broken : WorkerRun (ManagerRun MemoryStore) Nat,
      broken.Interleaves tidied start ∧ broken.tasks = [build, fail, build, build] :=
    ⟨_, (((first.step (.submit fail)).step (.submit build)).step .work).step (.submit build), rfl⟩
  have calmOperates : ∀ task ∈ calm.tasks, Operates task := by
    simpa [calmTasks] using buildOperates
  have brokenOperates : ∀ task ∈ broken.tasks, Operates task := by
    simp [brokenTasks, buildOperates, failOperates]
  obtain ⟨-, -, calmEnds, -, -, noneAlive⟩ := tasks_run_in_turn built
  obtain ⟨-, -, brokenEnds, -, -, -⟩ := tasks_run_in_turn failed
  have alive : (start.step (.create "plain")).scene.manager.bench.gpu.livePrograms = 1 := by
    decide +kernel
  have builds : build start = (some 1, start.step (.create "plain")) :=
    congrArg (fun count => (some count, start.step (.create "plain"))) alive
  have fails : ∀ run, fail run = (none, run.step .evict) := fun _ => rfl
  have untouched : ∀ run : ManagerRun MemoryStore,
    (run.step .evict).scene.manager = run.scene.manager := fun _ => rfl
  have calmTurns : inTurn start calm.tasks = ⟨[.ok 1], start.step (.create "plain"), false⟩ := by
    rw [calmTasks, inTurn_cons_replies builds]
    rfl
  have brokenTurns : inTurn start broken.tasks =
      ⟨[.ok 1, .error .disconnected, .error .disconnected, .error .disconnected],
        (start.step (.create "plain")).step .evict, true⟩ := by
    rw [brokenTasks, inTurn_cons_replies builds, inTurn_cons_panics (fails _)]
    rfl
  obtain ⟨shutDown, -, -⟩ := calmEnds.orderly (by rw [calmTurns])
  obtain ⟨brokenDown, left, -⟩ := brokenEnds.broken (by rw [brokenTurns])
  refine ⟨start, calm, broken, reached,
    ⟨built, calmOperates, shutDown, ?_, noneAlive reached calmOperates (by rw [calmTurns])⟩,
    ⟨failed, brokenOperates, brokenDown, ?_, ?_⟩⟩
  · rw [calmEnds.answers, calmTurns]
  · rw [brokenEnds.answers, brokenTurns]
  · rw [left, brokenTurns]
    dsimp only
    rw [untouched]
    exact alive

end Overlay
