import NewsDay.Network.AsyncRequestHistory

/-! # The contract of an asynchronous request

A request is a queue of registrations: the callbacks are invoked in the order
in which their registration blocks ran, each once. An early callback receives
the first pair that was set, a late one the last pair set before its delivery.
Nothing is assumed about how calls from other threads fall between the
statements that the main thread runs.
-/

namespace NewsDay

open AsyncRequest

variable {Callback Result Failure Work : Type}

namespace AsyncRequest

/-- After the history `before`, the callback whose turn it is and the pair that
it has to receive. The pair was passed by one call of `setResult`. -/
structure Due (before : List (Event Callback Result Failure)) (callback : Callback)
    (result : Option Result) (error : Option Failure) : Prop where
  call : (result, error) ∈ setResults before
  turn : (registrations before)[(invoked before).length]? = some callback
  early : (invoked before).length < (earlyRegistrations before).length →
    (settlements before).head? = some (result, error)
  late : (earlyRegistrations before).length ≤ (invoked before).length →
    (settlements before).getLast? = some (result, error)

end AsyncRequest

namespace RequestView

/-- Every invocation in the history was due when it happened. -/
def Faithful (view : RequestView Callback Result Failure) : Prop :=
  ∀ before after callback result error,
    view.events = before ++ .invoked callback result error :: after →
    Due before callback result error

/-- What every reachable view satisfies. -/
structure Valid (view : RequestView Callback Result Failure) : Prop where
  ledger : view.Ledger
  stored : view.Stored
  stage : view.Stage
  faithful : view.Faithful

variable {view next : RequestView Callback Result Failure}

theorem Ledger.settlement_called (hledger : view.Ledger)
    {pair : Option Result × Option Failure} (hpair : pair ∈ settlements view.events) :
    pair ∈ setResults view.events := by
  rw [hledger.settled]
  exact List.mem_append_left _ hpair

theorem getElem?_length_append (first second : List Callback) (callback : Callback) :
    (first ++ callback :: second)[first.length]? = some callback := by
  simp

/-- The pair that the loop passes to the next early callback. -/
theorem due_of_calling (hledger : view.Ledger) (hstored : view.Stored)
    {pair : Option Result × Option Failure} {callback : Callback} {remaining : List Callback}
    (hphase : view.phase = some (.callPending (callback :: remaining)))
    (hpair : settlements view.events = [pair])
    (horder : invoked view.events ++ callback :: remaining = registrations view.events) :
    Due view.events callback view.object.result view.object.error := by
  have hfields := hstored pair (by rw [hpair]; rfl)
  rw [hphase] at hfields
  change (view.object.result, view.object.error) = pair at hfields
  subst hfields
  refine ⟨hledger.settlement_called (by simp [hpair]), ?_, fun _ => by simp [hpair],
    fun _ => by simp [hpair]⟩
  rw [← horder]
  exact getElem?_length_append _ _ _

/-- The pair that a late delivery block passes to its callback. -/
theorem due_of_late (hledger : view.Ledger) (hstored : view.Stored) {callback : Callback}
    (hphase : view.phase = some (.callLate callback)) (hne : settlements view.events ≠ [])
    (horder : invoked view.events ++ callback :: view.jobs.filterMap Job.late? =
      registrations view.events)
    (hearly : (earlyRegistrations view.events).length ≤ (invoked view.events).length) :
    Due view.events callback view.object.result view.object.error := by
  have hlast := List.getLast?_eq_some_getLast hne
  have hfields := hstored _ hlast
  rw [hphase] at hfields
  change (view.object.result, view.object.error) = _ at hfields
  rw [← hfields] at hlast
  refine ⟨hledger.settlement_called (List.mem_of_getLast? hlast), ?_, ?_, fun _ => hlast⟩
  · rw [← horder]
    exact getElem?_length_append _ _ _
  · intro hlt
    omega

/-- A step records at most one event, and an invocation only when it is due. -/
theorem Step.events_due (hledger : view.Ledger) (hstored : view.Stored) (hstage : view.Stage)
    (hstep : Step view next) :
    next.events = view.events ∨ ∃ event, next.events = view.events ++ [event] ∧
      ∀ callback result error, event = .invoked callback result error →
        Due view.events callback result error := by
  cases hstep with
  | setResult result error => exact .inr ⟨_, rfl, by simp⟩
  | withResult callback => exact .inr ⟨_, rfl, by simp⟩
  | start job rest hphase hjobs =>
      cases job with
      | setResultMain resultValue resultError => exact .inr ⟨_, rfl, by simp⟩
      | register callback => exact .inl (List.append_nil _)
      | deliver callback => exact .inl (List.append_nil _)
  | advance phase hphase =>
      cases phase with
      | assignResult resultValue resultError => exact .inl (List.append_nil _)
      | assignError resultError => exact .inl (List.append_nil _)
      | guardPending =>
          left
          cases hpending : view.object.pending <;> simp [AsyncRequest.advance, hpending]
      | checkPending callback =>
          right
          refine ⟨.registered callback, ?_, by simp⟩
          cases hpending : view.object.pending <;> simp [AsyncRequest.advance, hpending]
      | callPending remaining =>
          cases remaining with
          | nil => exact .inl (List.append_nil _)
          | cons callback remaining =>
              refine .inr ⟨_, rfl, ?_⟩
              rintro _ _ _ ⟨⟩
              cases hstage with
              | unsettled hregistering => simp [hphase] at hregistering
              | settling pair hsettling => simp [hphase] at hsettling
              | calling pair rest hcalling hlate hpair horder hearly =>
                  obtain rfl : callback :: remaining = rest := by simpa [hphase] using hcalling
                  exact due_of_calling hledger hstored hphase hpair horder
              | settled hnot => exact absurd hphase (hnot _)
      | callLate callback =>
          refine .inr ⟨_, rfl, ?_⟩
          rintro _ _ _ ⟨⟩
          cases hstage with
          | unsettled hregistering => simp [hphase] at hregistering
          | settling pair hsettling => simp [hphase] at hsettling
          | calling pair rest hcalling => simp [hphase] at hcalling
          | settled hnot hpending hne horder hearly =>
              rw [hphase] at horder
              exact due_of_late hledger hstored hphase hne (by simpa using horder) hearly

theorem Faithful.step (hvalid : view.Valid) (hstep : Step view next) : next.Faithful := by
  intro before after callback result error hsplit
  rcases hstep.events_due hvalid.ledger hvalid.stored hvalid.stage with
    hsame | ⟨event, hevent, hdue⟩
  · exact hvalid.faithful before after callback result error (hsame ▸ hsplit)
  · rw [hevent] at hsplit
    rcases List.eq_nil_or_concat after with rfl | ⟨earlier, last, rfl⟩
    · -- the invocation is the event that this step records
      obtain ⟨rfl, hlast⟩ := List.append_inj' hsplit rfl
      exact hdue callback result error (List.cons.inj hlast).1
    · rw [List.concat_eq_append, ← List.cons_append, ← List.append_assoc] at hsplit
      obtain ⟨hinit, -⟩ := List.append_inj' hsplit rfl
      exact hvalid.faithful before earlier callback result error hinit

theorem Valid.init : Valid (⟨.init, [], none, []⟩ : RequestView Callback Result Failure) where
  ledger := .init
  stored := .init
  stage := .init
  faithful := by
    intro before after callback result error hsplit
    simp at hsplit

theorem Valid.step (hvalid : view.Valid) (hstep : Step view next) : next.Valid where
  ledger := hvalid.ledger.step hstep
  stored := hvalid.stored.step hstep
  stage := hvalid.stage.step hstep
  faithful := .step hvalid hstep

/-! ## Consequences for one request -/

theorem Valid.invoked_prefix (hvalid : view.Valid) :
    invoked view.events <+: registrations view.events := by
  cases hvalid.stage with
  | unsettled hphase hpending hlate hnone hinvoked =>
      rw [hinvoked]
      exact List.nil_prefix
  | settling pair hphase hpending hlate hpair hinvoked hearly =>
      rw [hinvoked]
      exact List.nil_prefix
  | calling pair remaining hphase hlate hpair horder hearly => exact ⟨remaining, horder⟩
  | settled hphase hpending hne horder hearly =>
      rw [List.append_assoc] at horder
      exact ⟨_, horder⟩

theorem Valid.settled_of_invoked (hvalid : view.Valid) (hinvoked : invoked view.events ≠ []) :
    settlements view.events ≠ [] := by
  cases hvalid.stage with
  | unsettled hphase hpending hlate hnone hempty => exact absurd hempty hinvoked
  | settling pair hphase hpending hlate hpair hempty hearly => exact absurd hempty hinvoked
  | calling pair remaining hphase hlate hpair horder hearly => simp [hpair]
  | settled hphase hpending hne horder hearly => exact hne

/-- With nothing left to run, a settled request has called everyone. -/
theorem Valid.invoked_eq_registrations (hvalid : view.Valid) (hphase : view.phase = none)
    (hjobs : view.jobs = []) (hsettled : settlements view.events ≠ []) :
    invoked view.events = registrations view.events := by
  cases hvalid.stage with
  | unsettled hregistering hpending hlate hnone hempty => exact absurd hnone hsettled
  | settling pair hsettling => simp [hphase] at hsettling
  | calling pair remaining hcalling => simp [hphase] at hcalling
  | settled hnot hpending hne horder hearly => simpa [hphase, hjobs] using horder

/-- With nothing left to run, every call of `withResult` has been registered. -/
theorem Valid.registrations_eq_withResults (hvalid : view.Valid) (hphase : view.phase = none)
    (hjobs : view.jobs = []) : registrations view.events = withResults view.events := by
  simpa [hphase, hjobs] using hvalid.ledger.registered.symm

theorem Valid.due_of_mem (hvalid : view.Valid) {callback : Callback} {result : Option Result}
    {error : Option Failure} (hmem : (callback, result, error) ∈ invocations view.events) :
    ∃ before, before <+: view.events ∧ Due before callback result error := by
  obtain ⟨event, hevent, hinvocation⟩ := List.mem_filterMap.mp hmem
  obtain ⟨before, after, hsplit⟩ := List.append_of_mem hevent
  obtain rfl : event = .invoked callback result error := by
    cases event <;> simp_all
  exact ⟨before, ⟨_, hsplit.symm⟩, hvalid.faithful before after callback result error hsplit⟩

/-- A callback receives a pair that one call of `setResult` passed. -/
theorem Valid.pair_called (hvalid : view.Valid) {callback : Callback} {result : Option Result}
    {error : Option Failure} (hmem : (callback, result, error) ∈ invocations view.events) :
    (result, error) ∈ setResults view.events := by
  obtain ⟨before, ⟨after, hsplit⟩, hdue⟩ := hvalid.due_of_mem hmem
  rw [← hsplit, setResults_append]
  exact List.mem_append_left _ hdue.call

/-- A callback that is invoked was passed to `withResult`. -/
theorem Valid.callback_requested (hvalid : view.Valid) {callback : Callback}
    {result : Option Result} {error : Option Failure}
    (hmem : (callback, result, error) ∈ invocations view.events) :
    callback ∈ withResults view.events := by
  have hinvoked : callback ∈ invoked view.events := List.mem_map_of_mem (f := Prod.fst) hmem
  have hregistered := hvalid.invoked_prefix.subset hinvoked
  rw [hvalid.ledger.registered, List.append_assoc]
  exact List.mem_append_left _ hregistered

theorem pair_unique {pairs : List (Option Result × Option Failure)}
    {first second : Option Result × Option Failure} (hsingle : pairs.length ≤ 1)
    (hfirst : first ∈ pairs) (hsecond : second ∈ pairs) : first = second := by
  match pairs with
  | [] => exact absurd hfirst List.not_mem_nil
  | [pair] => exact (List.mem_singleton.mp hfirst).trans (List.mem_singleton.mp hsecond).symm
  | _ :: _ :: _ => simp at hsingle

/-- When `setResult` is called at most once, all callbacks receive one pair. -/
theorem Valid.same_pair (hvalid : view.Valid) (hsingle : (setResults view.events).length ≤ 1)
    {first second : Callback × Option Result × Option Failure}
    (hfirst : first ∈ invocations view.events) (hsecond : second ∈ invocations view.events) :
    first.2 = second.2 :=
  pair_unique hsingle (hvalid.pair_called hfirst) (hvalid.pair_called hsecond)

end RequestView

/-! ## Every run of the main queue -/

namespace MainQueue

variable {final : MainQueue Callback Result Failure Work}
  {schedule : List (Action Callback Result Failure Work)}

theorem valid_view (hrun : Execution.execute step start schedule = some final) (id : Nat) :
    (final.view id).Valid :=
  execute_view_invariant RequestView.Valid (fun _ _ hvalid hstep => hvalid.step hstep)
    .init id hrun

theorem Drained.view_phase (hdrained : final.Drained) (id : Nat) :
    (final.view id).phase = none := by
  simp [view, hdrained.1]

theorem Drained.view_jobs (hdrained : final.Drained) (id : Nat) :
    (final.view id).jobs = [] := by
  simp [view, hdrained.2]

/-- Callbacks are invoked in the order of their registration blocks, none
before the first result, and a settled request on a drained queue has called
all of them. -/
theorem callbacks_invoked_in_registration_order
    (hrun : Execution.execute step start schedule = some final) (id : Nat) :
    invoked (final.events id) <+: registrations (final.events id) ∧
      (invoked (final.events id) ≠ [] → settlements (final.events id) ≠ []) ∧
      (final.Drained → settlements (final.events id) ≠ [] →
        invoked (final.events id) = registrations (final.events id)) := by
  have hvalid := valid_view hrun id
  refine ⟨hvalid.invoked_prefix, hvalid.settled_of_invoked, ?_⟩
  intro hdrained hsettled
  exact hvalid.invoked_eq_registrations (hdrained.view_phase id) (hdrained.view_jobs id) hsettled

/-- A callback registered early, a result, a callback registered late and a
second result that overtakes the late delivery. -/
def overtakingSchedule : List (Action Nat Nat Unit Unit) :=
  [.withResult 0 10, .main, .main, .setResult 0 (some 1) none] ++ List.replicate 6 .main ++
    [.withResult 0 20, .setResult 0 (some 2) none] ++ List.replicate 8 .main

theorem callbacks_invoked_in_registration_order_overtaking :
    ∃ final, Execution.execute step start overtakingSchedule = some final ∧
      invoked (final.events 0) = [10, 20] ∧
      invoked (final.events 0) <+: registrations (final.events 0) :=
  have hrun : Execution.execute step start overtakingSchedule = some _ := rfl
  ⟨_, hrun, rfl, (callbacks_invoked_in_registration_order hrun 0).1⟩

/-- Each invocation passes a pair that one call set: the first block's pair to
a callback registered before it, otherwise the last block's before delivery. -/
theorem callbacks_receive_pair_set_together
    (hrun : Execution.execute step start schedule = some final) (id : Nat) :
    (∀ before after callback result error,
      final.events id = before ++ .invoked callback result error :: after →
        Due before callback result error) ∧
      ((setResults (final.events id)).length ≤ 1 →
        ∀ first ∈ invocations (final.events id), ∀ second ∈ invocations (final.events id),
          first.2 = second.2) := by
  have hvalid := valid_view hrun id
  refine ⟨hvalid.faithful, ?_⟩
  intro hsingle first hfirst second hsecond
  exact hvalid.same_pair hsingle hfirst hsecond

theorem callbacks_receive_pair_set_together_overtaking :
    ∃ final, Execution.execute step start overtakingSchedule = some final ∧
      invocations (final.events 0) = [(10, some 1, none), (20, some 2, none)] ∧
      ∀ before after callback result error,
        final.events 0 = before ++ .invoked callback result error :: after →
          Due before callback result error :=
  have hrun : Execution.execute step start overtakingSchedule = some _ := rfl
  ⟨_, hrun, rfl, (callbacks_receive_pair_set_together hrun 0).1⟩

end MainQueue

end NewsDay
