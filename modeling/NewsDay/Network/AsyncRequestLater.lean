import NewsDay.Network.MainQueueCalls

/-! # What a request goes on holding

A request that is set once keeps the result that it was set to: no statement of
its blocks takes the result away, and no other result was passed.
-/

namespace NewsDay

open AsyncRequest

variable {Callback Result Failure Work : Type}

/-- Only one statement assigns the result. -/
theorem AsyncRequest.advance_result (request : AsyncRequest Callback Result Failure)
    {phase : Phase Callback Result Failure}
    (hphase : ∀ resultValue resultError, phase ≠ .assignResult resultValue resultError) :
    (request.advance phase).object.result = request.result := by
  cases phase with
  | assignResult resultValue resultError => exact absurd rfl (hphase resultValue resultError)
  | assignError resultError => rfl
  | guardPending => cases hpending : request.pending <;> simp [advance, hpending]
  | callPending remaining => cases remaining <;> rfl
  | checkPending callback => cases hpending : request.pending <;> simp [advance, hpending]
  | callLate callback => rfl

namespace RequestView

variable {view next : RequestView Callback Result Failure} {value : Result}

theorem Step.setResults_grow (hstep : Step view next) :
    setResults view.events <+: setResults next.events := by
  cases hstep with
  | setResult result error => simp
  | withResult callback => simp
  | start job rest hphase hjobs => simp
  | advance phase hphase => simp

theorem Step.keeps_result (hvalid : view.Valid) (hheld : view.Held) (hstep : Step view next)
    (hsingle : (setResults next.events).length ≤ 1) (hresult : view.object.result = some value) :
    next.object.result = some value := by
  have hgrow := hstep.setResults_grow
  cases hstep with
  | setResult result error => exact hresult
  | withResult callback => exact hresult
  | start job rest hphase hjobs => exact hresult
  | advance phase hphase =>
      by_cases hassign : ∀ resultValue resultError, phase ≠ .assignResult resultValue resultError
      · exact (view.object.advance_result hassign).trans hresult
      · simp only [not_forall, not_not] at hassign
        obtain ⟨resultValue, resultError, rfl⟩ := hassign
        -- what is assigned was passed, and so was the value
        have hpair := hgrow.subset (hvalid.assigning_called hphase)
        obtain ⟨error, hcalled⟩ := hheld.called value hresult
        exact (Prod.mk.inj (pair_unique hsingle hpair (hgrow.subset hcalled))).1

end RequestView

namespace MainQueue

variable {main next final : MainQueue Callback Result Failure Work}
  {schedule later : List (Action Callback Result Failure Work)} {id : Nat} {value : Result}

theorem Sound.keeps_result (hsound : main.Sound) {action : Action Callback Result Failure Work}
    (hnext : main.step action = some next)
    (hsingle : (setResults (next.events id)).length ≤ 1)
    (hresult : (main.requests id).result = some value) :
    (next.requests id).result = some value := by
  rcases step_view id hnext with hsame | hstep
  · exact (congrArg (fun view => view.object.result) hsame).trans hresult
  · exact hstep.keeps_result (hsound.valid id) (hsound.held id) hsingle hresult

theorem setResults_grow (id : Nat) {action : Action Callback Result Failure Work}
    (hnext : main.step action = some next) :
    setResults (main.events id) <+: setResults (next.events id) := by
  rcases step_view id hnext with hsame | hstep
  · exact (congrArg (fun view => setResults view.events) hsame) ▸ List.prefix_refl _
  · exact hstep.setResults_grow

/-- In every continuation of a run a request that is set once holds its result. -/
theorem result_later (hrun : Execution.execute step start schedule = some main)
    (hlater : Execution.execute step main later = some final)
    (hsingle : (setResults (final.events id)).length ≤ 1)
    (hresult : (main.requests id).result = some value) :
    (final.requests id).result = some value := by
  refine Execution.execute_induction (motive := fun _ state =>
    (setResults (state.events id)).length ≤ 1 → (state.requests id).result = some value)
    ?_ ?_ hlater hsingle
  · exact fun _ => hresult
  · intro before state action next hbefore hkept hnext hsingle'
    have hsound := sound (Execution.execute_append_of_eq_some hrun hbefore)
    have hless := (setResults_grow id hnext).length_le
    exact hsound.keeps_result hnext hsingle' (hkept (hless.trans hsingle'))

end MainQueue

end NewsDay
