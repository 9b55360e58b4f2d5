import Overlay.Proofs.ProgramAccounts
import Overlay.Store.Memory

/-! Who owns the programs of a device. After every operation of a manager, whatever fails in it and
whatever is deleted behind its back, no stage lives, the live programs are those in the table of the
manager that were not deleted from outside, each of them is linked, and no two names hold the same
one. -/
namespace Overlay

/-- Who owns what is on the device, seen from the manager. -/
structure Owned (manager : Manager) (lost : List Gpu.Handle) : Prop where
  noStage : manager.bench.gpu.liveStages = 0
  live (handle : Gpu.Handle) : handle ∈ manager.bench.gpu.programs.keys ↔
    (∃ name built, manager.program? name = some built ∧ built.program = handle) ∧ handle ∉ lost
  linked (handle : Gpu.Handle) : handle ∈ manager.bench.gpu.programs.keys →
    manager.bench.isProgram handle = true
  apart (first second : String) (one other : BuiltProgram) :
    manager.program? first = some one → manager.program? second = some other →
    one.program = other.program → first = second

/-- Whatever happened, no stage lives and every live program is linked and has exactly one owner,
except what was deleted behind the manager's back; and a clean-up leaves nothing alive. -/
theorem programs_are_owned {σ : Type} [Store σ] {run : ManagerRun σ}
    (reached : Reached ManagerRun.step Anything Begins run) :
    Owned run.scene.manager (lost run.past) ∧
    run.scene.manager.cleanup.bench.gpu.liveStages = 0 ∧
    run.scene.manager.cleanup.bench.gpu.livePrograms = 0 := by
  have accounts := accounts_of_reached reached
  refine ⟨⟨?_, ?_, ?_, ?_⟩, ?_, ?_⟩
  · unfold Gpu.liveStages
    rw [accounts.stages]
    rfl
  · intro handle
    exact accounts.live
  · intro handle lives
    exact (accounts.linked.isProgram_iff handle).mpr lives
  · intro first second one other holds holdsToo same
    exact accounts.apart holds holdsToo same
  · rw [accounts.cleanup_gpu]
    rfl
  · rw [accounts.cleanup_gpu]
    rfl

/-- A program is lost, the attempt to build it again fails when it is linked, and another attempt
succeeds: only the handle that was lost is not accounted for. -/
theorem programs_are_owned_after_loss :
    ∃ run : ManagerRun MemoryStore,
      Reached ManagerRun.step Anything Begins run ∧ lost run.past = [3] ∧
      Owned run.scene.manager (lost run.past) ∧
      run.scene.manager.cleanup.bench.gpu.livePrograms = 0 := by
  have begins : Reached ManagerRun.step Anything Begins
      (ManagerRun.opened {} {} ({} : MemoryStore) {} 0) := .start ⟨rfl, {}, rfl, rfl⟩
  have imported := begins.step
    (.register ⟨"plain", .inMemory {} "plain", .direct ["void main() \x7b\x7d"]⟩) trivial
  have created := imported.step (.create "plain") trivial
  have bereft := created.step (.loseProgram 3) trivial
  have hindered := bereft.step (.refuse { gpu := some .link }) trivial
  have failed := hindered.step (.create "plain") trivial
  have relieved := failed.step (.refuse {}) trivial
  have rebuilt := relieved.step (.create "plain") trivial
  have owned := programs_are_owned rebuilt
  exact ⟨_, rebuilt, by decide +kernel, owned.1, owned.2.2⟩

end Overlay
