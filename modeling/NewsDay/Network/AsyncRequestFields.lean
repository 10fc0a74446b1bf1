import NewsDay.Network.AsyncRequestContract

/-! # What the fields of a request hold

The result and the error are assigned one after the other, so between two
statements they need not belong together. Still a result that is there was
passed by some call, and a request that is set once holds what its callbacks
have received from the first of them on.
-/

namespace NewsDay

open AsyncRequest

variable {Callback Result Failure Work : Type}

namespace RequestView

variable {view next : RequestView Callback Result Failure}

/-- The field `result` holds what some call of `setResult` passed; when there
has been one call, the two fields hold what every callback has received. -/
structure Held (view : RequestView Callback Result Failure) : Prop where
  called : ∀ value, view.object.result = some value →
    ∃ error, (some value, error) ∈ setResults view.events
  steady : (setResults view.events).length ≤ 1 →
    ∀ invocation ∈ invocations view.events,
      invocation.2 = (view.object.result, view.object.error)

theorem Held.init : Held (⟨.init, [], none, []⟩ : RequestView Callback Result Failure) where
  called := by
    intro value hresult
    exact absurd hresult.symm (Option.some_ne_none value)
  steady := by simp [invocations]

/-- A block that is still assigning has been recorded as the last settlement. -/
theorem Valid.last_called (hvalid : view.Valid)
    (hphase : (∃ resultValue resultError,
        view.phase = some (.assignResult resultValue resultError)) ∨
      ∃ resultError, view.phase = some (.assignError resultError)) :
    ∃ pair ∈ setResults view.events, (settlements view.events).getLast? = some pair := by
  have hne : settlements view.events ≠ [] := by
    cases hvalid.stage with
    | unsettled hregistering =>
        rcases hphase with ⟨resultValue, resultError, hphase⟩ | ⟨resultError, hphase⟩
        · simp [hphase] at hregistering
        · simp [hphase] at hregistering
    | settling pair _ _ _ hpair => simp [hpair]
    | calling pair _ _ _ hpair => simp [hpair]
    | settled _ _ hsettled => exact hsettled
  exact ⟨_, hvalid.ledger.settlement_called (List.getLast_mem hne),
    List.getLast?_eq_some_getLast hne⟩

/-- What a block is about to store was passed to `setResult`. -/
theorem Valid.assigning_called (hvalid : view.Valid) {resultValue : Option Result}
    {resultError : Option Failure}
    (hphase : view.phase = some (.assignResult resultValue resultError)) :
    (resultValue, resultError) ∈ setResults view.events := by
  obtain ⟨pair, hpair, hlast⟩ := hvalid.last_called (.inl ⟨resultValue, resultError, hphase⟩)
  have hfields := hvalid.stored pair hlast
  rw [hphase] at hfields
  obtain rfl : (resultValue, resultError) = pair := hfields
  exact hpair

/-- The error that a block is about to store was passed with the result that
it has just stored. -/
theorem Valid.assigning_error_called (hvalid : view.Valid) {resultError : Option Failure}
    (hphase : view.phase = some (.assignError resultError)) :
    (view.object.result, resultError) ∈ setResults view.events := by
  obtain ⟨pair, hpair, hlast⟩ := hvalid.last_called (.inr ⟨resultError, hphase⟩)
  have hfields := hvalid.stored pair hlast
  rw [hphase] at hfields
  obtain rfl : (view.object.result, resultError) = pair := hfields
  exact hpair

theorem Held.of_unchanged (hheld : view.Held) (hresult : next.object.result = view.object.result)
    (herror : next.object.error = view.object.error)
    (hcalls : setResults next.events = setResults view.events)
    (hinvocations : invocations next.events = invocations view.events) : next.Held where
  called := by
    rw [hresult, hcalls]
    exact hheld.called
  steady := by
    rw [hresult, herror, hcalls, hinvocations]
    exact hheld.steady

/-- A callback receives the two fields as they are. -/
theorem Held.of_invocation (hheld : view.Held) (callback : Callback)
    (hresult : next.object.result = view.object.result)
    (herror : next.object.error = view.object.error)
    (hcalls : setResults next.events = setResults view.events)
    (hinvocations : invocations next.events = invocations view.events ++
      [(callback, view.object.result, view.object.error)]) : next.Held where
  called := by
    rw [hresult, hcalls]
    exact hheld.called
  steady := by
    rw [hresult, herror, hcalls, hinvocations]
    intro hsingle invocation hinvocation
    rcases List.mem_append.mp hinvocation with hold | hnew
    · exact hheld.steady hsingle invocation hold
    · obtain rfl := List.mem_singleton.mp hnew
      rfl

theorem Held.advance (hheld : view.Held) (hvalid : view.Valid)
    (phase : Phase Callback Result Failure) (hphase : view.phase = some phase) :
    Held {
      object := (view.object.advance phase).object
      jobs := view.jobs ++ (view.object.advance phase).dispatched
      phase := (view.object.advance phase).next
      events := view.events ++ (view.object.advance phase).events } := by
  cases phase with
  | assignResult resultValue resultError =>
      have hpair := hvalid.assigning_called hphase
      simp only [AsyncRequest.advance, List.append_nil]
      constructor
      · intro value hresult
        obtain rfl : resultValue = some value := hresult
        exact ⟨resultError, hpair⟩
      · -- with one call, the block stores what is there already
        rintro hsingle ⟨callback, received⟩ hinvocation
        have hsame : received = (resultValue, resultError) :=
          pair_unique hsingle (hvalid.pair_called hinvocation) hpair
        have hfields : received = _ := hheld.steady hsingle _ hinvocation
        rw [hsame] at hfields ⊢
        exact Prod.ext rfl (Prod.mk.inj hfields).2
  | assignError resultError =>
      have hpair := hvalid.assigning_error_called hphase
      simp only [AsyncRequest.advance, List.append_nil]
      constructor
      · exact hheld.called
      · intro hsingle invocation hinvocation
        exact pair_unique hsingle (hvalid.pair_called hinvocation) hpair
  | guardPending =>
      cases hpending : view.object.pending with
      | none =>
          simp only [AsyncRequest.advance, hpending, List.append_nil]
          exact hheld.of_unchanged rfl rfl rfl rfl
      | some validPending =>
          simp only [AsyncRequest.advance, hpending, List.append_nil]
          exact hheld.of_unchanged rfl rfl rfl rfl
  | checkPending callback =>
      cases hpending : view.object.pending with
      | none =>
          simp only [AsyncRequest.advance, hpending]
          exact hheld.of_unchanged rfl rfl (by simp) (by simp)
      | some pending =>
          simp only [AsyncRequest.advance, hpending]
          exact hheld.of_unchanged rfl rfl (by simp) (by simp)
  | callPending remaining =>
      cases remaining with
      | nil =>
          simp only [AsyncRequest.advance, List.append_nil]
          exact hheld.of_unchanged rfl rfl rfl rfl
      | cons callback remaining =>
          exact hheld.of_invocation callback rfl rfl (by simp [AsyncRequest.advance])
            (by simp [AsyncRequest.advance])
  | callLate callback =>
      exact hheld.of_invocation callback rfl rfl (by simp [AsyncRequest.advance])
        (by simp [AsyncRequest.advance])

theorem Held.step (hheld : view.Held) (hvalid : view.Valid) (hstep : Step view next) :
    next.Held := by
  cases hstep with
  | setResult result error =>
      constructor
      · intro value hresult
        obtain ⟨error', hmem⟩ := hheld.called value hresult
        refine ⟨error', ?_⟩
        rw [setResults_append]
        exact List.mem_append_left _ hmem
      · -- nobody has been called before the first call of `setResult`
        intro hsingle invocation hinvocation
        have hnone : setResults view.events = [] := by simpa using hsingle
        have hpair := hvalid.pair_called (by simpa using hinvocation)
        rw [hnone] at hpair
        exact absurd hpair List.not_mem_nil
  | withResult callback => exact hheld.of_unchanged rfl rfl (by simp) (by simp)
  | start job rest hphase hjobs =>
      cases job with
      | setResultMain resultValue resultError =>
          exact hheld.of_unchanged rfl rfl (by simp [Job.startEvents]) (by simp [Job.startEvents])
      | register callback =>
          exact hheld.of_unchanged rfl rfl (by simp [Job.startEvents]) (by simp [Job.startEvents])
      | deliver callback =>
          exact hheld.of_unchanged rfl rfl (by simp [Job.startEvents]) (by simp [Job.startEvents])
  | advance phase hphase => exact hheld.advance hvalid phase hphase

end RequestView

namespace MainQueue

variable {final : MainQueue Callback Result Failure Work}
  {schedule : List (Action Callback Result Failure Work)}

theorem held_view (hrun : Execution.execute step start schedule = some final) (id : Nat) :
    (final.view id).Held :=
  (execute_view_invariant (fun view => view.Valid ∧ view.Held)
    (fun _ _ hkept hstep => ⟨hkept.1.step hstep, hkept.2.step hkept.1 hstep⟩)
    ⟨.init, .init⟩ id hrun).2

end MainQueue

end NewsDay
