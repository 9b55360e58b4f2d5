/-! The render thread as a queue and a worker. Whoever holds the thread appends commands; the worker
takes them off one at a time in their order and is the only one to touch the state. A command that
panics stops the worker for good: nothing after it runs, and the state is not cleaned up. The order
to stop lets everything queued before it run first, then the state is cleaned up. The holder waits
for the end of the worker once, by shutting it down or by letting go of it. -/
namespace Overlay

/-- How a worker stands. -/
inductive WorkerStatus where
  | running
  | stopped
  | panicked
  deriving DecidableEq, Repr

/-- A task replies, or it panics; what it changed before it panicked stays changed. -/
abbrev Task (σ ρ : Type) := σ → Option ρ × σ

/-- What can be queued. -/
inductive Command (σ ρ : Type) where
  | run (ticket : Nat) (task : Task σ ρ)
  | shutdown

/-- Why the thread does not answer. -/
inductive WorkerError where
  | disconnected
  | panicked
  deriving DecidableEq, Repr

def WorkerError.message : WorkerError → String
  | .disconnected => "render thread has stopped"
  | .panicked => "render thread panicked"

/-- The state that the worker owns, the commands it has not taken yet, and the replies it has given,
each with its task's ticket. -/
structure Worker (σ ρ : Type) where
  state : σ
  status : WorkerStatus := .running
  queue : List (Command σ ρ) := []
  issued : Nat := 0
  replies : List (Nat × ρ) := []
  /-- Whether the end of the worker has not been waited for. -/
  joinable : Bool := true

namespace Worker
variable {σ ρ : Type}

/-- Queues a task and hands out its ticket. A worker that does not run takes nothing. -/
def submit (worker : Worker σ ρ) (task : Task σ ρ) : Except WorkerError Nat × Worker σ ρ :=
  if worker.status = .running then
    (.ok worker.issued,
      { worker with
        queue := worker.queue ++ [.run worker.issued task]
        issued := worker.issued + 1 })
  else (.error .disconnected, worker)

/-- Queues tasks in their order. -/
def submitAll (worker : Worker σ ρ) :
    List (Task σ ρ) → List (Except WorkerError Nat) × Worker σ ρ
  | [] => ([], worker)
  | task :: rest =>
    let (ticket, worker) := worker.submit task
    let (tickets, worker) := worker.submitAll rest
    (ticket :: tickets, worker)

/-- Takes one command off the queue. -/
def step (cleanup : σ → σ) (worker : Worker σ ρ) : Worker σ ρ :=
  match worker.status, worker.queue with
  | .running, .run ticket task :: rest =>
    match task worker.state with
    | (some reply, state) =>
      { worker with state, queue := rest, replies := worker.replies ++ [(ticket, reply)] }
    | (none, state) => { worker with state, status := .panicked, queue := [] }
  | .running, .shutdown :: _ =>
    { worker with state := cleanup worker.state, status := .stopped, queue := [] }
  | _, _ => worker

/-- Steps until the queue is empty: each step takes a command off, so its length is fuel enough. -/
def drain (cleanup : σ → σ) (worker : Worker σ ρ) : Worker σ ρ :=
  go worker.queue.length worker
where
  go : Nat → Worker σ ρ → Worker σ ρ
    | 0, worker => worker
    | steps + 1, worker => go steps (worker.step cleanup)

/-- The reply to a ticket, once its task has run. -/
def reply? (worker : Worker σ ρ) (ticket : Nat) : Option ρ :=
  (worker.replies.find? fun entry => entry.1 == ticket).map (·.2)

/-- What a caller gets who waits for a ticket: the reply, or the news that none will come. -/
def await (worker : Worker σ ρ) (ticket : Nat) : Except WorkerError ρ :=
  match worker.reply? ticket with
  | some reply => .ok reply
  | none => .error .disconnected

/-- Queues a task, lets the worker run, and waits for the reply. -/
def call (cleanup : σ → σ) (worker : Worker σ ρ) (task : Task σ ρ) :
    Except WorkerError ρ × Worker σ ρ :=
  match worker.submit task with
  | (.error error, worker) => (.error error, worker)
  | (.ok ticket, worker) =>
    let worker := worker.drain cleanup
    (worker.await ticket, worker)

/-- Queues the order to stop. A worker that does not run takes nothing. -/
def close (worker : Worker σ ρ) : Worker σ ρ :=
  if worker.status = .running then { worker with queue := worker.queue ++ [.shutdown] } else worker

/-- Orders the worker to stop and waits for its end; says whether it had panicked. When there is no
end to wait for any more, nothing happens. -/
def stop (cleanup : σ → σ) (worker : Worker σ ρ) : Except WorkerError Unit × Worker σ ρ :=
  if worker.joinable then
    let ended := worker.close.drain cleanup
    (if ended.status = .panicked then .error .panicked else .ok (),
      { ended with joinable := false })
  else (.ok (), worker)

/-- What letting go of the thread does: it is stopped, and nobody hears how that went. -/
def drop (cleanup : σ → σ) (worker : Worker σ ρ) : Worker σ ρ :=
  (worker.stop cleanup).2

/-- Stops the thread, says how that went, and lets go of it. -/
def shutdown (cleanup : σ → σ) (worker : Worker σ ρ) : Except WorkerError Unit × Worker σ ρ :=
  let (result, worker) := worker.stop cleanup
  (result, worker.drop cleanup)

end Worker
end Overlay
