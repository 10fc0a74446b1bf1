import NewsDay.Library.Tagged
import NewsDay.Network.AsyncRequest

/-! # One request's view of the main queue

The requests of a process share one queue, but what a request sees of it are
its own object, its own blocks in their order, and the statements of those
blocks. Each step of the main queue is one step of this view or leaves it
unchanged, so a property of one request is proved on the view alone.
-/

namespace NewsDay

open AsyncRequest

variable {Callback Result Failure Work : Type}

/-- The block, if it belongs to the request. -/
def Block.job? (id : Nat) :
    Block Callback Result Failure Work → Option (Job Callback Result Failure)
  | .request owner job => if owner = id then some job else none
  | .other _ => none

/-- Where the main thread stands, if it runs a block of the request. -/
def Running.phase? (id : Nat) :
    Running Callback Result Failure Work → Option (Phase Callback Result Failure)
  | .request owner phase => if owner = id then some phase else none
  | .other _ => none

/-- What one request sees: its object, its queued blocks, the statement of its
own block that is next, and its history. -/
structure RequestView (Callback Result Failure : Type) where
  object : AsyncRequest Callback Result Failure
  jobs : List (Job Callback Result Failure)
  phase : Option (Phase Callback Result Failure)
  events : List (Event Callback Result Failure)

/-- What happened to one request, in order. -/
def eventsOf (id : Nat) (trace : List (Nat × Event Callback Result Failure)) :
    List (Event Callback Result Failure) :=
  Tagged.ownedBy id trace

namespace MainQueue

variable (main : MainQueue Callback Result Failure Work)

/-- The history of one request. -/
def events (id : Nat) : List (Event Callback Result Failure) := eventsOf id main.trace

def view (id : Nat) : RequestView Callback Result Failure where
  object := main.requests id
  jobs := main.queue.filterMap (Block.job? id)
  phase := main.running.bind (Running.phase? id)
  events := main.events id

end MainQueue

/-- The steps of one request's view. -/
inductive RequestView.Step :
    RequestView Callback Result Failure → RequestView Callback Result Failure → Prop
  | setResult (view : RequestView Callback Result Failure) (result : Option Result)
      (error : Option Failure) :
      Step view { view with
        jobs := view.jobs ++ [.setResultMain result error]
        events := view.events ++ [.setResult result error] }
  | withResult (view : RequestView Callback Result Failure) (callback : Callback) :
      Step view { view with
        jobs := view.jobs ++ [.register callback]
        events := view.events ++ [.withResult callback] }
  | start (view : RequestView Callback Result Failure) (job : Job Callback Result Failure)
      (rest : List (Job Callback Result Failure))
      (hphase : view.phase = none) (hjobs : view.jobs = job :: rest) :
      Step view { view with
        jobs := rest
        phase := some job.start
        events := view.events ++ job.startEvents }
  | advance (view : RequestView Callback Result Failure) (phase : Phase Callback Result Failure)
      (hphase : view.phase = some phase) :
      Step view {
        object := (view.object.advance phase).object
        jobs := view.jobs ++ (view.object.advance phase).dispatched
        phase := (view.object.advance phase).next
        events := view.events ++ (view.object.advance phase).events }

@[simp] theorem filterMap_job_cons_other (id : Nat) (work : Work)
    (rest : List (Block Callback Result Failure Work)) :
    (Block.other work :: rest).filterMap (Block.job? id) = rest.filterMap (Block.job? id) := rfl

theorem filterMap_job_map_self (id : Nat) (jobs : List (Job Callback Result Failure)) :
    (jobs.map (Block.request id) : List (Block Callback Result Failure Work)).filterMap
      (Block.job? id) = jobs := by
  induction jobs with
  | nil => rfl
  | cons job rest ih => simpa [Block.job?] using ih

theorem filterMap_job_map_ne {id owner : Nat} (hne : owner ≠ id)
    (jobs : List (Job Callback Result Failure)) :
    (jobs.map (Block.request owner) : List (Block Callback Result Failure Work)).filterMap
      (Block.job? id) = [] := by
  simp [Block.job?, hne]

namespace MainQueue

variable {main next : MainQueue Callback Result Failure Work}

theorem setResult_view (id owner : Nat) (result : Option Result) (error : Option Failure) :
    (main.setResult owner result error).view id = main.view id ∨
      RequestView.Step (main.view id) ((main.setResult owner result error).view id) := by
  by_cases howner : owner = id
  · subst owner
    right
    convert RequestView.Step.setResult (main.view id) result error using 1
    simp [view, setResult, events, eventsOf, Block.job?]
  · left
    simp [view, setResult, events, eventsOf, Block.job?, howner]

theorem withResult_view (id owner : Nat) (callback : Callback) :
    (main.withResult owner callback).view id = main.view id ∨
      RequestView.Step (main.view id) ((main.withResult owner callback).view id) := by
  by_cases howner : owner = id
  · subst owner
    right
    convert RequestView.Step.withResult (main.view id) callback using 1
    simp [view, withResult, events, eventsOf, Block.job?]
  · left
    simp [view, withResult, events, eventsOf, Block.job?, howner]

/-- The four things that the main thread can do: take a block of a request or
of other code, execute a statement, or end other code. -/
theorem mainStep_cases (hnext : main.mainStep = some next) :
    (∃ owner job rest, main.running = none ∧ main.queue = .request owner job :: rest ∧
      next = { main with
        queue := rest
        running := some (.request owner job.start)
        trace := main.trace ++ job.startEvents.map (Prod.mk owner) }) ∨
    (∃ work rest, main.running = none ∧ main.queue = .other work :: rest ∧
      next = { main with queue := rest, running := some (.other work) }) ∨
    (∃ owner phase, main.running = some (.request owner phase) ∧
      next = {
        requests := Function.update main.requests owner
          ((main.requests owner).advance phase).object
        queue := main.queue ++
          ((main.requests owner).advance phase).dispatched.map (.request owner)
        running := ((main.requests owner).advance phase).next.map (.request owner)
        trace := main.trace ++
          ((main.requests owner).advance phase).events.map (Prod.mk owner) }) ∨
    (∃ work, main.running = some (.other work) ∧ next = { main with running := none }) := by
  unfold mainStep at hnext
  cases hrunning : main.running with
  | none =>
      rw [hrunning] at hnext
      cases hqueue : main.queue with
      | nil => simp [hqueue] at hnext
      | cons block rest =>
          rw [hqueue] at hnext
          cases block with
          | request owner job =>
              exact .inl ⟨owner, job, rest, rfl, rfl, (Option.some.inj hnext).symm⟩
          | other work => exact .inr (.inl ⟨work, rest, rfl, rfl, (Option.some.inj hnext).symm⟩)
  | some running =>
      rw [hrunning] at hnext
      cases running with
      | request owner phase =>
          exact .inr (.inr (.inl ⟨owner, phase, rfl, (Option.some.inj hnext).symm⟩))
      | other work => exact .inr (.inr (.inr ⟨work, rfl, (Option.some.inj hnext).symm⟩))

theorem mainStep_view (id : Nat) (hnext : main.mainStep = some next) :
    next.view id = main.view id ∨ RequestView.Step (main.view id) (next.view id) := by
  rcases mainStep_cases hnext with ⟨owner, job, rest, hrunning, hqueue, rfl⟩ |
    ⟨work, rest, hrunning, hqueue, rfl⟩ | ⟨owner, phase, hrunning, rfl⟩ | ⟨work, hrunning, rfl⟩
  · by_cases howner : owner = id
    · subst owner
      right
      convert RequestView.Step.start (main.view id) job
        (rest.filterMap (Block.job? id)) ?_ ?_ using 1
      · simp [view, events, Running.phase?, eventsOf, Tagged.ownedBy_map_self]
      · simp [view, hrunning]
      · simp [view, hqueue, Block.job?]
    · left
      simp [view, events, hrunning, hqueue, Block.job?, Running.phase?, howner, eventsOf,
        Tagged.ownedBy_map_ne howner]
  · left
    simp [view, events, hrunning, hqueue, Running.phase?]
  · by_cases howner : owner = id
    · subst owner
      right
      convert RequestView.Step.advance (main.view id) phase ?_ using 1
      · have hjobs : (((main.requests id).advance phase).dispatched.map (Block.request id) :
            List (Block Callback Result Failure Work)).filterMap (Block.job? id) = _ :=
          filterMap_job_map_self id _
        cases hphase : ((main.requests id).advance phase).next <;>
          simp [view, events, Running.phase?, eventsOf, Tagged.ownedBy_map_self, hjobs, hphase]
      · simp [view, hrunning, Running.phase?]
    · left
      have hjobs : (((main.requests owner).advance phase).dispatched.map
          (Block.request owner) : List (Block Callback Result Failure Work)).filterMap
            (Block.job? id) = [] := filterMap_job_map_ne howner _
      cases ((main.requests owner).advance phase).next <;>
        simp [view, events, hrunning, Running.phase?, howner, Ne.symm howner,
          eventsOf, Tagged.ownedBy_map_ne howner, hjobs]
  · left
    simp [view, events, hrunning, Running.phase?]

/-- Every step of the main queue is at most one step of each request's view. -/
theorem step_view (id : Nat) {action : Action Callback Result Failure Work}
    (hnext : main.step action = some next) :
    next.view id = main.view id ∨ RequestView.Step (main.view id) (next.view id) := by
  cases action with
  | setResult owner result error =>
      obtain rfl := Option.some.inj hnext
      exact setResult_view id owner result error
  | withResult owner callback =>
      obtain rfl := Option.some.inj hnext
      exact withResult_view id owner callback
  | async work =>
      obtain rfl := Option.some.inj hnext
      left
      simp [view, async, events, Block.job?]
  | main => exact mainStep_view id hnext

/-- What every step of a view keeps, every run of the main queue keeps for
each of its requests. -/
theorem execute_view_invariant (invariant : RequestView Callback Result Failure → Prop)
    (hstep : ∀ view view', invariant view → RequestView.Step view view' → invariant view')
    (hinit : invariant ⟨.init, [], none, []⟩) (id : Nat)
    {schedule : List (Action Callback Result Failure Work)}
    (hrun : Execution.execute step start schedule = some main) : invariant (main.view id) := by
  refine Execution.execute_invariant (fun state => invariant (state.view id)) ?_ hinit hrun
  intro state action state' hstate hnext
  rcases step_view id hnext with hview | hview
  · rw [hview]
    exact hstate
  · exact hstep _ _ hstate hview

end MainQueue

end NewsDay
