import NewsDay.Process.Telling
import NewsDay.Process.WatchCalls

/-! # Pictures at rest

A request of the watch for an image is told a picture exactly if the phone has
retrieved an image for its message and the image survives being made smaller,
encoded and decoded. Images are never cached for the watch: each message is
answered by its own retrieval.
-/

namespace NewsDay

open Foundation AsyncRequest

variable [Foundation]

namespace Phone

variable {modulePrefix : String} {schedule : List Action} {phone : Phone}

/-- One image at most is retrieved for a message. -/
theorem retrieved_unique
    (hrun : Execution.execute step (start modulePrefix) schedule = some phone)
    {replyHandler : Nat} {image image' : Option UIImage}
    (hretrieved : (replyHandler, image) ∈ phone.retrieved)
    (hretrieved' : (replyHandler, image') ∈ phone.retrieved) : image = image' := by
  have hphone := consistent hrun
  have hcount := hphone.retrieved_length replyHandler
  have hentries : (Tagged.ownedBy replyHandler phone.handled).length ≤ 1 :=
    Tagged.length_ownedBy_of_nodup hphone.handled_nodup
  have himages := List.length_filterMap_le Handled.image?
    (Tagged.ownedBy replyHandler phone.handled)
  exact Tagged.item_unique (by omega) hretrieved hretrieved'

end Phone

/-- The watch makes the picture of the reply that the phone makes of the image. -/
theorem WatchServer.Transfers.reply {image picture : UIImage}
    (htransfers : WatchServer.Transfers image picture) :
    ∃ reply, WatchServer.imageReply (some image) = some reply ∧
      WatchClient.imageReplied reply = some (some (.image picture), none) := by
  obtain ⟨resizedImage, data, hresized, hdata, hpicture⟩ := htransfers
  refine ⟨[("image", .data data)], ?_, ?_⟩
  · simp [imageReply, hresized, hdata, AnyValue.ofData?]
  · simp [WatchClient.imageReplied, Message.value, Dictionary.lookup_cons, AnyValue.asData,
      hpicture]

/-- Whoever listens to a request of the watch is told the same. -/
theorem Watch.heard_unique {modulePrefix : String} {schedule : List Action} {watch : Watch}
    (hrun : Execution.execute step (start modulePrefix) schedule = some watch) {index : Nat}
    {response response' : Option AnyValue} (hheard : response ∈ watch.heard index)
    (hheard' : response' ∈ watch.heard index) : response = response' := by
  have hsound := (consistent hrun).main
  obtain ⟨error, hcall⟩ := mem_heard.mp hheard
  obtain ⟨error', hcall'⟩ := mem_heard.mp hheard'
  have hpair := Tagged.item_unique (settlementsOf_length_le hrun index)
    (hsound.callback_called hcall) (hsound.callback_called hcall')
  exact (Prod.mk.inj hpair).1

namespace Connection

variable {watchPrefix phonePrefix : String} {schedule : List Action} {final : Connection}
  {index : Nat} {url : URL} {picture : UIImage}

/-- At rest a request for an image has been told the picture that the phone has
retrieved for its message. -/
theorem told_of_pictured
    (hrun : Execution.execute step (start watchPrefix phonePrefix) schedule = some final)
    (hrest : final.AtRest) (hasked : final.watch.asked[index]? = some (.image url))
    (herror : ∀ error,
      (Watch.requestOf index, none, some error) ∉ final.watch.main.setResultCalls)
    (hpictured : final.Pictured index url picture) :
    final.watch.Told index (.image picture) := by
  obtain ⟨replyHandler, retrieved, image, hdelivered, hurl, hhandled, hretrieved, htransfers⟩ :=
    hpictured
  obtain ⟨watchSchedule, hwatchRun⟩ := watch_reachable hrun
  obtain ⟨phoneSchedule, hphoneRun⟩ := phone_reachable hrun
  have hphone := Phone.consistent hphoneRun
  have hledger := ledger hrun
  have hhandling := Watch.handling hwatchRun
  obtain ⟨sent, hsent, hreceived⟩ := hledger.arrived replyHandler index hdelivered
  obtain ⟨hasked', hrequest⟩ := Watch.sent_call hwatchRun hsent
  obtain hsame : sent.request = .image url := Option.some.inj (hasked'.symm.trans hasked)
  -- the phone has replied when the image was retrieved, so the message is not awaited
  obtain ⟨reply, hmade, hread⟩ := htransfers.reply
  have hreply : (replyHandler, reply) ∈ final.phone.replies := by
    have hmem : (replyHandler, reply) ∈ (final.phone.replies : Multiset (Nat × Message)) := by
      rw [hphone.messages.replied]
      exact Multiset.mem_add.mpr (.inr (Tagged.mem_select.mpr ⟨_, hretrieved, hmade⟩))
    exact hmem
  have hnot := hrest.answered replyHandler reply index hreply hdelivered
  rcases hhandling.handled index sent hsent hnot with ⟨reply', hreplied⟩ | ⟨error, hcall⟩
  · -- the reply is the one that the phone has made of this image
    obtain rfl : reply' = reply := by
      obtain ⟨replyHandler', hreply', hdelivered'⟩ := hledger.answered index reply' hreplied
      obtain rfl : replyHandler = replyHandler' :=
        (List.getElem?_inj (List.getElem?_eq_some_iff.mp hdelivered).1 (delivered_nodup hrun)).mp
          (hdelivered.trans hdelivered'.symm)
      obtain ⟨message, hreceived', hreads⟩ := hphone.message_of hhandled
      obtain rfl := Option.some.inj (hreceived.symm.trans hreceived')
      obtain ⟨image', -, hretrieved', hmade'⟩ := hphone.image_reply hreply' hreceived hreads
      obtain rfl := Phone.retrieved_unique hphoneRun hretrieved hretrieved'
      exact Option.some.inj (hmade'.symm.trans hmade)
    obtain ⟨tables, hpassed⟩ := hhandling.decoded index sent reply' hsent hreplied
    have hcall := hpassed tables (some (.image picture)) none (by
      rw [hsame]
      exact congrArg (fun settlement => Except.ok (tables, settlement)) hread)
    rw [hrequest] at hcall
    exact Watch.told_of_settled hwatchRun hrest.watch hcall
  · rw [hrequest] at hcall
    exact absurd hcall (herror error)

/-- A request of the watch that holds a value has not failed. -/
theorem no_error_of_told
    (hrun : Execution.execute step (start watchPrefix phonePrefix) schedule = some final)
    {value : AnyValue} (htold : final.watch.Told index value) (error : ErrorValue) :
    (Watch.requestOf index, none, some error) ∉ final.watch.main.setResultCalls := by
  obtain ⟨watchSchedule, hwatchRun⟩ := watch_reachable hrun
  obtain ⟨error', hcall⟩ := (Watch.consistent hwatchRun).main.result_called htold.1
  intro hfailed
  have hsame := Tagged.item_unique (Watch.settlementsOf_length_le hwatchRun index) hcall hfailed
  exact Option.some_ne_none value (Prod.mk.inj hsame).1

/-- At rest a request for an image has been told a picture exactly if the phone
has retrieved that picture for its message and the session has reported no
error. -/
theorem pictured_at_rest_iff
    (hrun : Execution.execute step (start watchPrefix phonePrefix) schedule = some final)
    (hrest : final.AtRest) (hasked : final.watch.asked[index]? = some (.image url))
    (picture : UIImage) :
    final.watch.Told index (.image picture) ↔ final.Pictured index url picture ∧
      ∀ error, (Watch.requestOf index, none, some error) ∉ final.watch.main.setResultCalls := by
  constructor
  · intro htold
    obtain ⟨picture', hsame, hpictured⟩ := pictured_of_completed hrun hasked (.inl htold.1)
    obtain rfl := AnyValue.image.inj hsame
    exact ⟨hpictured, no_error_of_told hrun htold⟩
  · rintro ⟨hpictured, herror⟩
    exact told_of_pictured hrun hrest hasked herror hpictured

section Samples

omit [Foundation]

/-- The schedule in which the watch asks for an image, until nothing is left to
be done. -/
def picturedSchedule : letI := picturesSample; List Action :=
  letI := picturesSample
  pictureSchedule ++ List.replicate 3 (.watch .main)

theorem picturedSchedule_rests :
    letI := picturesSample
    ((Execution.execute step (start "Watch" "NewsDay") picturedSchedule).bind fun final =>
      if final.isServed then
        final.watch.asked[0]?.bind fun request =>
          match request with
          | .image url => some url
          | _ => none
      else none) = some "https://a.b/c" := by
  decide +kernel

theorem pictured_at_rest_iff_sample :
    letI := picturesSample
    ∃ final, Execution.execute step (start "Watch" "NewsDay") picturedSchedule = some final ∧
      (final.watch.Told 0 (.image ((1 : ℚ), (1 : ℚ))) ↔
        final.Pictured 0 "https://a.b/c" ((1 : ℚ), (1 : ℚ)) ∧
          ∀ error,
            (Watch.requestOf 0, none, some error) ∉ final.watch.main.setResultCalls) := by
  let _ := picturesSample
  obtain ⟨final, hrun, hrests⟩ := Option.bind_eq_some_iff.mp picturedSchedule_rests
  obtain ⟨hserved, hasks⟩ := Option.ite_none_right_eq_some.mp hrests
  obtain ⟨request, hasked, hurl⟩ := Option.bind_eq_some_iff.mp hasks
  cases request with
  | image url =>
      obtain rfl := Option.some.inj hurl
      exact ⟨final, hrun, pictured_at_rest_iff hrun (served_of_isServed hserved).rest hasked _⟩
  | _ => exact absurd hurl.symm (Option.some_ne_none _)

end Samples

end Connection

end NewsDay
