import NewsDay.Network.AsyncRequestLater
import NewsDay.Process.Provenance

/-! # What the phone holds it holds for good

A place of the cache that holds a value holds it in every continuation of the
run, and an image that has been retrieved stays retrieved. So what the phone
supplies to a request of the watch it goes on supplying.
-/

namespace NewsDay

open Foundation AsyncRequest

variable [Foundation]

namespace Phone

variable {modulePrefix : String} {schedule : List Action} {phone next final : Phone}
  {slot : NewsApi.Slot} {value : AnyValue}

/-- The place of the cache holds the value. -/
def Holds (phone : Phone) (slot : NewsApi.Slot) (value : AnyValue) : Prop :=
  ∃ occupant, phone.news.api.occupant slot = some occupant ∧
    (phone.main.requests occupant).result = some value

theorem Holds.unique {value' : AnyValue} (hholds : phone.Holds slot value)
    (hother : phone.Holds slot value') : value = value' := by
  obtain ⟨occupant, hoccupant, hheld⟩ := hholds
  obtain ⟨occupant', hoccupant', hheld'⟩ := hother
  obtain rfl := Option.some.inj (hoccupant.symm.trans hoccupant')
  exact Option.some.inj (hheld.symm.trans hheld')

theorem main_later {later : List Action}
    (hlater : Execution.execute step phone later = some final) :
    ∃ mainLater, Execution.execute MainQueue.step phone.main mainLater = some final.main :=
  Execution.execute_simulation Phone.main (fun _ _ _ hnext => (step_step hnext).2.simulated) hlater

theorem Holds.later {later : List Action} (hholds : phone.Holds slot value)
    (hrun : Execution.execute step (start modulePrefix) schedule = some phone)
    (hlater : Execution.execute step phone later = some final) : final.Holds slot value := by
  obtain ⟨occupant, hoccupant, hheld⟩ := hholds
  obtain ⟨mainSchedule, hmain⟩ := main_reachable hrun
  obtain ⟨mainLater, hmainLater⟩ := main_later hlater
  have hrun' := Execution.execute_append_of_eq_some hrun hlater
  have hsingle := (newsLedger hrun').setResults_length occupant
  exact ⟨occupant, occupant_later hoccupant hlater,
    MainQueue.result_later hmain hmainLater hsingle hheld⟩

/-! ## Images -/

theorem handle_records (phone : Phone) (message : Message) (replyHandler : Nat) :
    phone.handled <+: (phone.handle message replyHandler).handled ∧
      (phone.handle message replyHandler).retrieved = phone.retrieved := by
  unfold Phone.handle
  split
  all_goals exact ⟨List.prefix_append _ _, rfl⟩

/-- What messages did and what was retrieved stays on record. -/
theorem Step.records_grow (hstep : Step phone next) :
    phone.handled <+: next.handled ∧ phone.retrieved <+: next.retrieved := by
  cases hstep with
  | retrieve before after replyHandler image hretrievals =>
      exact ⟨List.prefix_refl _, List.prefix_append _ _⟩
  | handle main message replyHandler htodo hmain hstarting =>
      obtain ⟨hhandled, hretrieved⟩ := handle_records { phone with main } message replyHandler
      refine ⟨hhandled, ?_⟩
      rw [hretrieved]
  | answer main request replyHandler callback result error htodo hmain hstarting hinvoking =>
      obtain ⟨_, _, _, heq⟩ := answer_frame { phone with main } replyHandler callback result
      rw [heq]
      exact ⟨List.prefix_refl _, List.prefix_refl _⟩
  | _ => exact ⟨List.prefix_refl _, List.prefix_refl _⟩

theorem records_later {later : List Action}
    (hlater : Execution.execute step phone later = some final) :
    phone.handled <+: final.handled ∧ phone.retrieved <+: final.retrieved := by
  refine Execution.execute_invariant
    (fun state => phone.handled <+: state.handled ∧ phone.retrieved <+: state.retrieved)
    ?_ ⟨List.prefix_refl _, List.prefix_refl _⟩ hlater
  rintro state action next ⟨hhandled, hretrieved⟩ hnext
  obtain ⟨hhandled', hretrieved'⟩ := (step_step hnext).2.records_grow
  exact ⟨hhandled.trans hhandled', hretrieved.trans hretrieved'⟩

theorem Supplies.later {later : List Action} {request : WatchRequest}
    (hsupplies : phone.Supplies request value)
    (hrun : Execution.execute step (start modulePrefix) schedule = some phone)
    (hlater : Execution.execute step phone later = some final) :
    final.Supplies request value := by
  cases hsupplies with
  | news slot occupant hslot hoccupant hheld =>
      obtain ⟨occupant', hoccupant', hheld'⟩ :=
        Holds.later ⟨occupant, hoccupant, hheld⟩ hrun hlater
      exact .news slot occupant' hslot hoccupant' hheld'
  | picture url retrieved replyHandler image picture hrequest hvalue hurl hhandled hretrieved
      htransfers =>
      obtain ⟨hhandled', hretrieved'⟩ := records_later hlater
      exact .picture url retrieved replyHandler image picture hrequest hvalue hurl
        (hhandled'.subset hhandled) (hretrieved'.subset hretrieved) htransfers

end Phone

end NewsDay
