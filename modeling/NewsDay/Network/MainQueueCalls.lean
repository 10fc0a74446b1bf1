import NewsDay.Network.AsyncRequestFields

/-! # Calls and callbacks of a whole process

The history of a process, read for all of its requests at once: the calls of
`setResult` and of `withResult` and the callbacks that were invoked. A step of
the main thread makes no call by itself; it invokes at most one callback, and
takes at most one block of other code, and both can be told beforehand.
-/

namespace NewsDay

open AsyncRequest

variable {Callback Result Failure Work : Type}

/-- The code that a block of other code runs. -/
def Block.work? : Block Callback Result Failure Work → Option Work
  | .request _ _ => none
  | .other work => some work

/-- The callback that the next statement of a block invokes. -/
def AsyncRequest.Phase.invoking (request : AsyncRequest Callback Result Failure) :
    Phase Callback Result Failure → Option (Callback × Option Result × Option Failure)
  | .callPending (callback :: _) => some (callback, request.result, request.error)
  | .callLate callback => some (callback, request.result, request.error)
  | _ => none

namespace AsyncRequest

/-- No statement of a block is a call of `setResult` or of `withResult`, and
the one that invokes a callback is known beforehand. -/
theorem advance_calls (request : AsyncRequest Callback Result Failure)
    (phase : Phase Callback Result Failure) :
    (request.advance phase).events.filterMap Event.call? = [] ∧
      (request.advance phase).events.filterMap Event.requested? = [] ∧
        (request.advance phase).events.filterMap Event.invocation? =
          (phase.invoking request).toList := by
  cases phase with
  | assignResult resultValue resultError => exact ⟨rfl, rfl, rfl⟩
  | assignError resultError => exact ⟨rfl, rfl, rfl⟩
  | guardPending =>
      cases hpending : request.pending <;> simp [advance, hpending, Phase.invoking]
  | callPending remaining =>
      cases remaining <;> exact ⟨rfl, rfl, rfl⟩
  | checkPending callback =>
      cases hpending : request.pending <;> simp [advance, hpending, Phase.invoking]
  | callLate callback => exact ⟨rfl, rfl, rfl⟩

theorem Job.startEvents_calls (job : Job Callback Result Failure) :
    job.startEvents.filterMap Event.call? = [] ∧
      job.startEvents.filterMap Event.requested? = [] ∧
        job.startEvents.filterMap Event.invocation? = [] := by
  cases job <;> exact ⟨rfl, rfl, rfl⟩

end AsyncRequest

namespace MainQueue

variable (main : MainQueue Callback Result Failure Work)

/-- The calls of `setResult`, each with its request. -/
def setResultCalls : List (Nat × Option Result × Option Failure) :=
  Tagged.select Event.call? main.trace

/-- The calls of `withResult`, each with its request. -/
def withResultCalls : List (Nat × Callback) := Tagged.select Event.requested? main.trace

/-- The callbacks that were invoked, each with its request and its pair. -/
def callbackCalls : List (Nat × Callback × Option Result × Option Failure) :=
  Tagged.select Event.invocation? main.trace

/-- The other code that is queued. -/
def works : List Work := main.queue.filterMap Block.work?

/-- The other code that the next step of the main thread takes. -/
def starting : Option Work :=
  match main.running, main.queue with
  | none, .other work :: _ => some work
  | _, _ => none

/-- The callback that the next step of the main thread invokes. -/
def invoking : Option (Nat × Callback × Option Result × Option Failure) :=
  match main.running with
  | some (.request id phase) => (phase.invoking (main.requests id)).map (Prod.mk id)
  | _ => none

/-- A step that takes a block invokes no callback. -/
theorem starting_invoking {main : MainQueue Callback Result Failure Work} {work : Work}
    (hstarting : main.starting = some work) : main.invoking = none := by
  unfold starting at hstarting
  unfold invoking
  cases hrunning : main.running with
  | none => rfl
  | some running => simp [hrunning] at hstarting

theorem setResults_events (id : Nat) :
    setResults (main.events id) = Tagged.ownedBy id main.setResultCalls :=
  (Tagged.ownedBy_select id _ _).symm

theorem withResults_events (id : Nat) :
    withResults (main.events id) = Tagged.ownedBy id main.withResultCalls :=
  (Tagged.ownedBy_select id _ _).symm

theorem invocations_events (id : Nat) :
    invocations (main.events id) = Tagged.ownedBy id main.callbackCalls :=
  (Tagged.ownedBy_select id _ _).symm

section Operations

variable (id : Nat) (result : Option Result) (error : Option Failure) (callback : Callback)
  (work : Work)

@[simp] theorem setResult_setResultCalls :
    (main.setResult id result error).setResultCalls =
      main.setResultCalls ++ [(id, result, error)] := by
  simp [setResult, setResultCalls, Event.call?]

@[simp] theorem setResult_withResultCalls :
    (main.setResult id result error).withResultCalls = main.withResultCalls := by
  simp [setResult, withResultCalls, Event.requested?]

@[simp] theorem setResult_callbackCalls :
    (main.setResult id result error).callbackCalls = main.callbackCalls := by
  simp [setResult, callbackCalls, Event.invocation?]

@[simp] theorem setResult_works : (main.setResult id result error).works = main.works := by
  simp [setResult, works, Block.work?]

@[simp] theorem withResult_setResultCalls :
    (main.withResult id callback).setResultCalls = main.setResultCalls := by
  simp [withResult, setResultCalls, Event.call?]

@[simp] theorem withResult_withResultCalls :
    (main.withResult id callback).withResultCalls = main.withResultCalls ++ [(id, callback)] := by
  simp [withResult, withResultCalls, Event.requested?]

@[simp] theorem withResult_callbackCalls :
    (main.withResult id callback).callbackCalls = main.callbackCalls := by
  simp [withResult, callbackCalls, Event.invocation?]

@[simp] theorem withResult_works : (main.withResult id callback).works = main.works := by
  simp [withResult, works, Block.work?]

@[simp] theorem async_setResultCalls : (main.async work).setResultCalls = main.setResultCalls :=
  rfl

@[simp] theorem async_withResultCalls : (main.async work).withResultCalls = main.withResultCalls :=
  rfl

@[simp] theorem async_callbackCalls : (main.async work).callbackCalls = main.callbackCalls := rfl

@[simp] theorem async_works : (main.async work).works = main.works ++ [work] := by
  simp [async, works, Block.work?]

end Operations

/-- What a step of the main thread does to the calls and to the queued code. -/
structure Advanced (main next : MainQueue Callback Result Failure Work) : Prop where
  setResultCalls : next.setResultCalls = main.setResultCalls
  withResultCalls : next.withResultCalls = main.withResultCalls
  callbackCalls : next.callbackCalls = main.callbackCalls ++ main.invoking.toList
  works : main.works = main.starting.toList ++ next.works

theorem mainStep_advanced {main next : MainQueue Callback Result Failure Work}
    (hnext : main.mainStep = some next) : Advanced main next := by
  rcases mainStep_cases hnext with ⟨owner, job, rest, hrunning, hqueue, rfl⟩ |
    ⟨work, rest, hrunning, hqueue, rfl⟩ | ⟨owner, phase, hrunning, rfl⟩ | ⟨work, hrunning, rfl⟩
  · have hstarting : main.starting = none := by simp [starting, hrunning, hqueue]
    have hinvoking : main.invoking = none := by simp [invoking, hrunning]
    obtain ⟨hcalls, hrequested, hinvoked⟩ := job.startEvents_calls
    refine ⟨?_, ?_, ?_, ?_⟩
    · simp [MainQueue.setResultCalls, Tagged.select_map, hcalls]
    · simp [MainQueue.withResultCalls, Tagged.select_map, hrequested]
    · simp [MainQueue.callbackCalls, Tagged.select_map, hinvoked, hinvoking]
    · rw [MainQueue.works, hqueue, hstarting]
      rfl
  · have hstarting : main.starting = some work := by simp [starting, hrunning, hqueue]
    have hinvoking : main.invoking = none := by simp [invoking, hrunning]
    refine ⟨rfl, rfl, ?_, ?_⟩
    · simp [MainQueue.callbackCalls, hinvoking]
    · simp [MainQueue.works, hqueue, hstarting, Block.work?]
  · have hstarting : main.starting = none := by simp [starting, hrunning]
    obtain ⟨hcalls, hrequested, hinvoked⟩ := (main.requests owner).advance_calls phase
    refine ⟨?_, ?_, ?_, ?_⟩
    · simp [MainQueue.setResultCalls, Tagged.select_map, hcalls]
    · simp [MainQueue.withResultCalls, Tagged.select_map, hrequested]
    · simp only [MainQueue.callbackCalls, Tagged.select_append, Tagged.select_map, hinvoked,
        invoking, hrunning]
      cases phase.invoking (main.requests owner) <;> rfl
    · simp [MainQueue.works, hstarting, Block.work?]
  · have hstarting : main.starting = none := by simp [starting, hrunning]
    have hinvoking : main.invoking = none := by simp [invoking, hrunning]
    refine ⟨rfl, rfl, ?_, ?_⟩
    · simp [MainQueue.callbackCalls, hinvoking]
    · simp [MainQueue.works, hstarting]

/-! ## Calls and callbacks of a run -/

/-- Every request of the queue keeps its contract. -/
structure Sound (main : MainQueue Callback Result Failure Work) : Prop where
  valid : ∀ id, (main.view id).Valid
  held : ∀ id, (main.view id).Held

theorem sound {final : MainQueue Callback Result Failure Work}
    {schedule : List (Action Callback Result Failure Work)}
    (hrun : Execution.execute step start schedule = some final) : final.Sound :=
  ⟨valid_view hrun, held_view hrun⟩

namespace Sound

variable {main : MainQueue Callback Result Failure Work} {id : Nat} {callback : Callback}
  {result : Option Result} {error : Option Failure}

theorem mem_invocations (hcall : (id, callback, result, error) ∈ main.callbackCalls) :
    (callback, result, error) ∈ invocations (main.events id) := by
  rw [invocations_events]
  exact Tagged.mem_ownedBy.mpr hcall

/-- A callback that is invoked was registered with the request. -/
theorem callback_registered (hsound : main.Sound)
    (hcall : (id, callback, result, error) ∈ main.callbackCalls) :
    (id, callback) ∈ main.withResultCalls := by
  rw [← Tagged.mem_ownedBy, ← withResults_events]
  exact (hsound.valid id).callback_requested (mem_invocations hcall)

/-- What a callback receives was passed to `setResult` of the request. -/
theorem callback_called (hsound : main.Sound)
    (hcall : (id, callback, result, error) ∈ main.callbackCalls) :
    (id, result, error) ∈ main.setResultCalls := by
  rw [← Tagged.mem_ownedBy, ← setResults_events]
  exact (hsound.valid id).pair_called (mem_invocations hcall)

/-- A callback of a request that is set once receives what the request holds. -/
theorem callback_result (hsound : main.Sound) (hsingle : (setResults (main.events id)).length ≤ 1)
    (hcall : (id, callback, result, error) ∈ main.callbackCalls) :
    result = (main.requests id).result :=
  (Prod.mk.inj ((hsound.held id).steady hsingle _ (mem_invocations hcall))).1

/-- A result that a request holds was passed to `setResult` of the request. -/
theorem result_called (hsound : main.Sound) {value : Result}
    (hresult : (main.requests id).result = some value) :
    ∃ error, (id, some value, error) ∈ main.setResultCalls := by
  obtain ⟨error, hcall⟩ := (hsound.held id).called value hresult
  refine ⟨error, ?_⟩
  rw [← Tagged.mem_ownedBy, ← setResults_events]
  exact hcall

end Sound

/-! ## The next callback, and a drained queue -/

variable {main : MainQueue Callback Result Failure Work}
  {schedule : List (Action Callback Result Failure Work)} {id : Nat} {callback : Callback}
  {result : Option Result} {error : Option Failure}

theorem mainStep_isSome_of_invoking
    (hinvoking : main.invoking = some (id, callback, result, error)) : main.mainStep.isSome := by
  unfold invoking at hinvoking
  unfold mainStep
  cases hrunning : main.running with
  | none => simp [hrunning] at hinvoking
  | some running =>
      cases running with
      | request owner phase => rfl
      | other work => rfl

/-- What the next callback is about to receive was passed to `setResult`, and
the callback to `withResult`, of one request. -/
theorem invoking_called (hrun : Execution.execute step start schedule = some main)
    (hinvoking : main.invoking = some (id, callback, result, error)) :
    (id, result, error) ∈ main.setResultCalls ∧ (id, callback) ∈ main.withResultCalls := by
  obtain ⟨next, hnext⟩ := Option.isSome_iff_exists.mp (mainStep_isSome_of_invoking hinvoking)
  have hadvanced := mainStep_advanced hnext
  have hsound : next.Sound :=
    sound (Execution.execute_concat_eq_some.mpr ⟨main, hrun, hnext⟩ :
      Execution.execute step start (schedule ++ [.main]) = some next)
  have hcall : (id, callback, result, error) ∈ next.callbackCalls := by
    rw [hadvanced.callbackCalls, hinvoking]
    exact List.mem_append_right _ (List.mem_singleton_self _)
  rw [← hadvanced.setResultCalls, ← hadvanced.withResultCalls]
  exact ⟨hsound.callback_called hcall, hsound.callback_registered hcall⟩

/-- A drained queue has run the blocks of every call. -/
theorem Sound.drained_settlements (hsound : main.Sound) (hdrained : main.Drained) (id : Nat) :
    settlements (main.events id) = setResults (main.events id) := by
  have hsettled : setResults (main.events id) = settlements (main.events id) ++ _ :=
    (hsound.valid id).ledger.settled
  rw [hsettled, hdrained.view_jobs id]
  simp

/-- A drained queue has called every callback of a request that was set. -/
theorem Sound.drained_invoked (hsound : main.Sound) (hdrained : main.Drained) {id : Nat}
    (hset : setResults (main.events id) ≠ []) :
    invoked (main.events id) = withResults (main.events id) := by
  have hvalid := hsound.valid id
  have hphase := hdrained.view_phase id
  have hjobs := hdrained.view_jobs id
  rw [← hsound.drained_settlements hdrained] at hset
  exact (hvalid.invoked_eq_registrations hphase hjobs hset).trans
    (hvalid.registrations_eq_withResults hphase hjobs)

/-- At rest every callback of a request that was set has been called. -/
theorem Sound.drained_called (hsound : main.Sound) (hdrained : main.Drained) {id : Nat}
    (hset : setResults (main.events id) ≠ []) {callback : Callback}
    (hregistered : (id, callback) ∈ main.withResultCalls) :
    ∃ result error, (id, callback, result, error) ∈ main.callbackCalls := by
  have hinvoked := hsound.drained_invoked hdrained hset
  rw [withResults_events] at hinvoked
  have hmem : callback ∈ invoked (main.events id) :=
    hinvoked ▸ Tagged.mem_ownedBy.mpr hregistered
  obtain ⟨⟨called, result, error⟩, hcalled, rfl⟩ := List.mem_map.mp hmem
  rw [invocations_events] at hcalled
  exact ⟨result, error, Tagged.mem_ownedBy.mp hcalled⟩

/-- In a drained queue a request that was set once holds what it was set to. -/
theorem Sound.drained_fields (hsound : main.Sound) (hdrained : main.Drained) {id : Nat}
    (hsingle : (setResults (main.events id)).length ≤ 1) {result : Option Result}
    {error : Option Failure} (hcall : (id, result, error) ∈ main.setResultCalls) :
    ((main.requests id).result, (main.requests id).error) = (result, error) := by
  have hmem : (result, error) ∈ setResults (main.events id) := by
    rw [setResults_events]
    exact Tagged.mem_ownedBy.mpr hcall
  have hlast := List.getLast?_eq_some_getLast (List.ne_nil_of_mem hmem)
  rw [RequestView.pair_unique hsingle (List.getLast_mem _) hmem,
    ← hsound.drained_settlements hdrained] at hlast
  have hstored := (hsound.valid id).stored _ hlast
  rw [hdrained.view_phase id] at hstored
  exact hstored

/-- Callbacks are called in the order in which they were passed. -/
theorem Sound.invoked_prefix (hsound : main.Sound) (id : Nat) :
    invoked (main.events id) <+: withResults (main.events id) := by
  have hvalid := hsound.valid id
  refine hvalid.invoked_prefix.trans ?_
  have hregistered : withResults (main.events id) = _ := hvalid.ledger.registered
  rw [hregistered, List.append_assoc]
  exact List.prefix_append _ _

end MainQueue

end NewsDay
