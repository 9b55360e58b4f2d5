/-! Runs of a system that takes one event after another. What may happen next can depend on how the
system stands, so a run is permitted event by event; whatever holds at the beginning and is kept by
every permitted event holds of every state that is reached. -/
namespace Overlay

/-- The states a system gets into from where it starts, through permitted events. -/
inductive Reached {S E : Type} (step : S → E → S) (permitted : S → E → Prop)
    (initial : S → Prop) : S → Prop where
  | start {state : S} (begins : initial state) : Reached step permitted initial state
  | step {state : S} (event : E) (before : Reached step permitted initial state)
      (allowed : permitted state event) : Reached step permitted initial (step state event)

variable {S E : Type} {step : S → E → S} {permitted : S → E → Prop} {initial : S → Prop}

/-- An invariant holds of every state that is reached. -/
theorem Reached.invariant {holds : S → Prop} {state : S}
    (reached : Reached step permitted initial state)
    (begins : ∀ state, initial state → holds state)
    (kept : ∀ state event, holds state → permitted state event → holds (step state event)) :
    holds state := by
  induction reached with
  | start initially => exact begins _ initially
  | step event before allowed ih => exact kept _ event ih allowed

/-- What is reached under more conditions is reached under fewer. -/
theorem Reached.mono {more : S → E → Prop} {wider : S → Prop} {state : S}
    (reached : Reached step permitted initial state)
    (allows : ∀ state event, permitted state event → more state event)
    (begins : ∀ state, initial state → wider state) : Reached step more wider state := by
  induction reached with
  | start initially => exact .start (begins _ initially)
  | step event before allowed ih => exact .step event ih (allows _ event allowed)

/-! ### Runs that remember the states they passed through -/

/-- A state and what has led to it: every event with the state that it met, the latest first. -/
structure Chronicle (S E : Type) where
  state : S
  past : List (S × E) := []

def Chronicle.extend (step : S → E → S) (chronicle : Chronicle S E) (event : E) :
    Chronicle S E where
  state := step chronicle.state event
  past := (chronicle.state, event) :: chronicle.past

/-- The chronicles of the runs of a system. -/
def Chronicled (step : S → E → S) (permitted : S → E → Prop) (initial : S → Prop) :
    Chronicle S E → Prop :=
  Reached (Chronicle.extend step) (fun chronicle => permitted chronicle.state)
    fun chronicle => initial chronicle.state ∧ chronicle.past = []

/-- Every state that is reached has a chronicle, so what is shown of chronicles is shown of runs. -/
theorem Reached.chronicled {state : S} (reached : Reached step permitted initial state) :
    ∃ past, Chronicled step permitted initial ⟨state, past⟩ := by
  induction reached with
  | start begins => exact ⟨[], .start ⟨begins, rfl⟩⟩
  | step event before allowed ih =>
    obtain ⟨past, chronicled⟩ := ih
    exact ⟨_, chronicled.step event allowed⟩

end Overlay
