import Mathlib.Algebra.BigOperators.Group.List.Basic
import Mathlib.Algebra.GroupWithZero.Nat
import NewsDay.Network.MainQueueCalls

/-! # A main thread that is left alone

A registration may dispatch a late delivery, and no other block of a request
dispatches anything. So the rank of what is queued falls with every block that
is taken, and between two blocks the number of statements left in the running
one does. Other code counts for what it may dispatch itself.
-/

namespace NewsDay

variable {Callback Result Failure Work : Type}

namespace AsyncRequest

/-- A block and what it may dispatch. -/
def Job.rank : Job Callback Result Failure → Nat
  | .register _ => 3
  | _ => 1

/-- What the rest of a running block may dispatch. -/
def Phase.rank : Phase Callback Result Failure → Nat
  | .checkPending _ => 2
  | _ => 0

/-- The statements left in a running block. -/
def left (request : AsyncRequest Callback Result Failure) : Phase Callback Result Failure → Nat
  | .assignResult _ _ => request.pending.elim 0 List.length + 4
  | .assignError _ => request.pending.elim 0 List.length + 3
  | .guardPending => request.pending.elim 0 List.length + 2
  | .callPending remaining => remaining.length + 1
  | .checkPending _ => 1
  | .callLate _ => 1

theorem Job.rank_start (job : Job Callback Result Failure) : job.start.rank < job.rank := by
  cases job <;> simp [Job.start, Phase.rank, rank]

/-- A statement moves its block towards its end. -/
theorem advance_left (request : AsyncRequest Callback Result Failure)
    (phase : Phase Callback Result Failure) :
    ((request.advance phase).dispatched.map Job.rank).sum +
        (request.advance phase).next.elim 0 Phase.rank ≤ phase.rank ∧
      (request.advance phase).next.elim 0 (request.advance phase).object.left <
        request.left phase := by
  cases phase with
  | assignResult resultValue resultError => simp [advance, Phase.rank, left]
  | assignError resultError => simp [advance, Phase.rank, left]
  | guardPending =>
      cases hpending : request.pending with
      | none => simp [advance, Phase.rank, left, hpending]
      | some validPending => simp [advance, Phase.rank, left, hpending]
  | callPending remaining =>
      cases remaining with
      | nil => simp [advance, Phase.rank, left]
      | cons callback remaining => simp [advance, Phase.rank, left]
  | checkPending callback =>
      cases hpending : request.pending with
      | none => simp [advance, Phase.rank, Job.rank, left, hpending]
      | some pending => simp [advance, Phase.rank, left, hpending]
  | callLate callback => simp [advance, Phase.rank, left]

end AsyncRequest

open AsyncRequest

/-- A block on the queue, where `weight` says what other code may dispatch. -/
def Block.rank (weight : Work → Nat) : Block Callback Result Failure Work → Nat
  | .request _ job => job.rank
  | .other work => weight work + 1

def Running.rank : Running Callback Result Failure Work → Nat
  | .request _ phase => phase.rank
  | .other _ => 0

namespace MainQueue

/-- What is queued or may still be dispatched. -/
def rank (weight : Work → Nat) (main : MainQueue Callback Result Failure Work) : Nat :=
  (main.queue.map (Block.rank weight)).sum + main.running.elim 0 Running.rank

/-- The statements left in the running block. -/
def left (main : MainQueue Callback Result Failure Work) : Nat :=
  match main.running with
  | none => 0
  | some (.request id phase) => (main.requests id).left phase
  | some (.other _) => 1

section Rank

variable {weight : Work → Nat} {main next : MainQueue Callback Result Failure Work}

@[simp] theorem setResult_rank (id : Nat) (result : Option Result) (error : Option Failure) :
    (main.setResult id result error).rank weight = main.rank weight + 1 := by
  simp only [rank, setResult, List.map_append, List.sum_append]
  simp only [List.map_cons, List.map_nil, List.sum_singleton, Block.rank, Job.rank]
  omega

@[simp] theorem withResult_rank (id : Nat) (callback : Callback) :
    (main.withResult id callback).rank weight = main.rank weight + 3 := by
  simp only [rank, withResult, List.map_append, List.sum_append]
  simp only [List.map_cons, List.map_nil, List.sum_singleton, Block.rank, Job.rank]
  omega

/-- Each step of the main thread leaves less to do. -/
theorem mainStep_rank (weight : Work → Nat) (hnext : main.mainStep = some next) :
    next.rank weight + main.starting.elim 0 (fun work => weight work + 1) ≤ main.rank weight ∧
      (next.rank weight < main.rank weight ∨ next.left < main.left) := by
  rcases mainStep_cases hnext with ⟨owner, job, rest, hrunning, hqueue, rfl⟩ |
    ⟨work, rest, hrunning, hqueue, rfl⟩ | ⟨owner, phase, hrunning, rfl⟩ | ⟨work, hrunning, rfl⟩
  · have hstart := job.rank_start
    have hstarting : main.starting = none := by simp [starting, hrunning, hqueue]
    simp only [rank, hrunning, hqueue, hstarting, List.map_cons, List.sum_cons, Block.rank,
      Option.elim_none, Option.elim_some, Running.rank]
    omega
  · have hstarting : main.starting = some work := by simp [starting, hrunning, hqueue]
    simp only [rank, hrunning, hqueue, hstarting, List.map_cons, List.sum_cons, Block.rank,
      Option.elim_none, Option.elim_some, Running.rank]
    omega
  · obtain ⟨hrank, hleft⟩ := advance_left (main.requests owner) phase
    have hstarting : main.starting = none := by simp [starting, hrunning]
    have hdispatched : (((main.requests owner).advance phase).dispatched.map
        (Block.request owner)).map (Block.rank weight) =
          ((main.requests owner).advance phase).dispatched.map Job.rank := by
      rw [List.map_map]
      rfl
    refine ⟨?_, .inr ?_⟩
    · simp only [rank, hrunning, hstarting, List.map_append, List.sum_append, hdispatched,
        Option.elim_none, Option.elim_some, Running.rank]
      cases hphase : ((main.requests owner).advance phase).next with
      | none =>
          rw [hphase] at hrank
          simp only [Option.elim_none, Option.map_none] at hrank ⊢
          omega
      | some phase' =>
          rw [hphase] at hrank
          simp only [Option.elim_some, Option.map_some, Running.rank] at hrank ⊢
          omega
    · simp only [left, hrunning]
      cases hphase : ((main.requests owner).advance phase).next with
      | none =>
          rw [hphase] at hleft
          exact hleft
      | some phase' =>
          rw [hphase] at hleft
          simpa using hleft
  · have hstarting : main.starting = none := by simp [starting, hrunning]
    simp [rank, left, hrunning, hstarting, Running.rank]

theorem drained_of_mainStep (hnone : main.mainStep = none) : main.Drained := by
  unfold mainStep at hnone
  cases hrunning : main.running with
  | none =>
      rw [hrunning] at hnone
      cases hqueue : main.queue with
      | nil => exact ⟨hrunning, hqueue⟩
      | cons block rest =>
          rw [hqueue] at hnone
          cases block with
          | request id job => exact absurd hnone (Option.some_ne_none _)
          | other work => exact absurd hnone (Option.some_ne_none _)
  | some running =>
      rw [hrunning] at hnone
      cases running with
      | request id phase => exact absurd hnone (Option.some_ne_none _)
      | other work => exact absurd hnone (Option.some_ne_none _)

end Rank

end MainQueue

end NewsDay
