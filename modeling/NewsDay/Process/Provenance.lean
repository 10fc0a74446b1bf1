import NewsDay.Process.Agreement
import NewsDay.Process.PhoneDownloads
import NewsDay.Process.WatchSending

/-! # Where the values on the watch come from

What a request of the watch comes out with is what the phone supplies for it:
the value in the matching place of the cache, or a picture made of an image
that the phone has retrieved for the same URL. So news on the watch are news
that the phone has downloaded, requests for one place never disagree, and they
never change their mind.
-/

namespace NewsDay

open Foundation

variable [Foundation]

/-- The phone has what the watch asks for. -/
inductive Phone.Supplies (phone : Phone) (request : WatchRequest) (value : AnyValue) : Prop
  | news (slot : NewsApi.Slot) (occupant : Nat) (hslot : request.slot = some slot)
      (hoccupant : phone.news.api.occupant slot = some occupant)
      (hheld : (phone.main.requests occupant).result = some value)
  | picture (url retrieved : URL) (replyHandler : Nat) (image picture : UIImage)
      (hrequest : request = .image url) (hvalue : value = .image picture)
      (hurl : urlFromString (absoluteString url) = some retrieved)
      (hhandled : (replyHandler, .image retrieved) ∈ phone.handled)
      (hretrieved : (replyHandler, some image) ∈ phone.retrieved)
      (htransfers : WatchServer.Transfers image picture)

theorem Phone.Supplies.of_slot {phone : Phone} {request : WatchRequest} {value : AnyValue}
    (hsupplies : phone.Supplies request value) {slot : NewsApi.Slot}
    (hslot : request.slot = some slot) : ∃ occupant, phone.news.api.occupant slot = some occupant ∧
      (phone.main.requests occupant).result = some value := by
  cases hsupplies with
  | news slot' occupant hslot' hoccupant hheld =>
      obtain rfl := Option.some.inj (hslot'.symm.trans hslot)
      exact ⟨occupant, hoccupant, hheld⟩
  | picture url _ _ _ _ hrequest =>
      rw [hrequest] at hslot
      exact absurd hslot.symm (Option.some_ne_none slot)

/-- A reply to a message for an image was made when the image was retrieved. -/
theorem Phone.Consistent.image_reply {modulePrefix : String} {phone : Phone}
    (hphone : phone.Consistent modulePrefix) {replyHandler : Nat} {reply : Message} {url : URL}
    (hreply : (replyHandler, reply) ∈ phone.replies) {message : Message}
    (hreceived : phone.received[replyHandler]? = some message)
    (hreads : WatchServer.Reads modulePrefix message (.retrieveImage url)) :
    ∃ image, (replyHandler, .image url) ∈ phone.handled ∧ (replyHandler, image) ∈ phone.retrieved ∧
      WatchServer.imageReply image = some reply := by
  have hmem : (replyHandler, reply) ∈ (phone.replies : Multiset (Nat × Message)) := hreply
  rw [hphone.messages.replied, Multiset.mem_add, Multiset.mem_add] at hmem
  rcases hmem with (hreplied | hcallback) | himage
  · obtain ⟨entry, hentry, hsame⟩ := Tagged.mem_select.mp hreplied
    obtain ⟨message', hreceived', hexplains⟩ := hphone.message_of hentry
    obtain rfl := Option.some.inj (hreceived.symm.trans hreceived')
    cases entry with
    | replied reply' => exact absurd (hreads.unique hexplains) nofun
    | _ => exact absurd hsame.symm (Option.some_ne_none reply)
  · obtain ⟨request, callback, result, error, hcall, -⟩ := mem_callbackReplies.mp hcallback
    obtain ⟨call, hentry⟩ := hphone.callback_recorded hcall
    obtain ⟨message', hreceived', hexplains⟩ := hphone.message_of hentry
    obtain rfl := Option.some.inj (hreceived.symm.trans hreceived')
    exact absurd (hreads.unique hexplains) nofun
  · obtain ⟨image, hretrieved, hmade⟩ := Tagged.mem_select.mp himage
    obtain ⟨url', hentry⟩ := hphone.retrieved_handled hretrieved
    obtain ⟨message', hreceived', hexplains⟩ := hphone.message_of hentry
    obtain rfl := Option.some.inj (hreceived.symm.trans hreceived')
    obtain rfl := WatchServer.Handling.retrieveImage.inj (hreads.unique hexplains)
    exact ⟨image, hentry, hretrieved, hmade⟩

/-- A reply to a message of the watch that asks for news is the reply of the
callback to what the cache's request holds. -/
theorem Phone.Consistent.news_reply (hfaithful : ArchivesFaithfully) {modulePrefix : String}
    {phone : Phone} (hphone : phone.Consistent modulePrefix) {replyHandler : Nat}
    {reply message : Message} (hreply : (replyHandler, reply) ∈ phone.replies)
    (hreceived : phone.received[replyHandler]? = some message) {request : WatchRequest}
    {slot : NewsApi.Slot} (hslot : request.slot = some slot) {made made' : ModelTables}
    (hmessage : request.message made = .ok (made', message)) :
    ∃ call callback occupant, request.intended = .news call callback ∧
      phone.news.api.occupant slot = some occupant ∧
        callback.replyFor (phone.main.requests occupant).result = some reply := by
  obtain ⟨message', hreceived', horigin⟩ := hphone.reply_origin hreply
  obtain rfl := Option.some.inj (hreceived.symm.trans hreceived')
  obtain ⟨call, callback, hintended, hplace⟩ := WatchRequest.intended_of_slot hslot
  rcases horigin with hreads | ⟨call', callback', occupant, hreads, hoccupant, hmade⟩ |
    ⟨url, image, hreads, -⟩
  · have hother := WatchRequest.reads_intended hfaithful hslot hmessage hreads
    exact absurd (hother.trans hintended) nofun
  · have hsame := WatchRequest.reads_intended hfaithful hslot hmessage hreads
    obtain ⟨rfl, rfl⟩ := WatchServer.Handling.news.inj (hsame.trans hintended)
    exact ⟨call', callback', occupant, hintended, hplace ▸ hoccupant, hmade⟩
  · have hother := WatchRequest.reads_intended hfaithful hslot hmessage hreads
    exact absurd (hother.trans hintended) nofun

namespace Connection

variable {watchPrefix phonePrefix : String} {schedule : List Action} {final : Connection}
  {index : Nat} {request : WatchRequest} {value : AnyValue}

/-- A value on the watch was in a reply that the phone made to the message of
its request. -/
theorem completed_reply
    (hrun : Execution.execute step (start watchPrefix phonePrefix) schedule = some final)
    (hasked : final.watch.asked[index]? = some request)
    (hcompleted : final.watch.CompletedWith index value) :
    ∃ replyHandler message reply made made' tables tables' error,
      final.delivered[replyHandler]? = some index ∧
        request.message made = .ok (made', message) ∧
          final.phone.received[replyHandler]? = some message ∧
            (replyHandler, reply) ∈ final.phone.replies ∧
              request.replied reply tables = .ok (tables', some (some value, error)) := by
  obtain ⟨watchSchedule, hwatchRun⟩ := watch_reachable hrun
  have hwatch := Watch.consistent hwatchRun
  have hledger := ledger hrun
  obtain ⟨error, position, sent, reply, tables, tables', hsent, howner, hreplied, hdecoded⟩ :=
    hwatch.decoded hcompleted
  obtain ⟨hasked', howner'⟩ := Watch.sent_call hwatchRun hsent
  obtain rfl : position = index := Nat.succ.inj (howner'.symm.trans howner)
  obtain rfl : sent.request = request := Option.some.inj (hasked'.symm.trans hasked)
  obtain ⟨made, made', hmessage⟩ := hwatch.messages.made sent (List.mem_of_getElem? hsent)
  obtain ⟨replyHandler, hreply, hdelivered⟩ := hledger.answered position reply hreplied
  obtain ⟨sent', hsent', hreceived⟩ := hledger.arrived replyHandler position hdelivered
  obtain rfl : sent' = sent := Option.some.inj (hsent'.symm.trans hsent)
  exact ⟨replyHandler, sent'.message, reply, made, made', tables, tables', error, hdelivered,
    hmessage, hreceived, hreply, hdecoded⟩

/-- For the message of the call at the position the phone has retrieved an image
that the watch gets as this picture. -/
def Pictured (connection : Connection) (index : Nat) (url : URL) (picture : UIImage) : Prop :=
  ∃ replyHandler retrieved image, connection.delivered[replyHandler]? = some index ∧
    urlFromString (absoluteString url) = some retrieved ∧
      (replyHandler, .image retrieved) ∈ connection.phone.handled ∧
        (replyHandler, some image) ∈ connection.phone.retrieved ∧
          WatchServer.Transfers image picture

/-- What a request for an image comes out with is such a picture. -/
theorem pictured_of_completed {url : URL}
    (hrun : Execution.execute step (start watchPrefix phonePrefix) schedule = some final)
    (hasked : final.watch.asked[index]? = some (.image url))
    (hcompleted : final.watch.CompletedWith index value) :
    ∃ picture, value = .image picture ∧ final.Pictured index url picture := by
  obtain ⟨phoneSchedule, hphoneRun⟩ := phone_reachable hrun
  have hphone := Phone.consistent hphoneRun
  obtain ⟨replyHandler, message, reply, made, made', tables, tables', error, hdelivered, hmessage,
    hreceived, hreply, hdecoded⟩ := completed_reply hrun hasked hcompleted
  obtain ⟨-, rfl⟩ := Prod.mk.inj (Except.ok.inj hmessage)
  obtain ⟨message', hreceived', horigin⟩ := hphone.reply_origin hreply
  obtain rfl := Option.some.inj (hreceived.symm.trans hreceived')
  -- the message was read, so as one for an image
  have himage : ∃ retrieved, urlFromString (absoluteString url) = some retrieved ∧
      WatchServer.Reads phonePrefix (WatchClient.imageMessage url) (.retrieveImage retrieved) := by
    rcases horigin with hreads | ⟨_, _, _, hreads, -⟩ | ⟨_, _, hreads, -⟩
    all_goals
      obtain ⟨retrieved, hhandling, hurl⟩ := WatchClient.imageMessage_reads hreads
      exact ⟨retrieved, hurl, hhandling ▸ hreads⟩
  obtain ⟨retrieved, hurl, hreads⟩ := himage
  obtain ⟨image, hhandled, hretrieved, hmade⟩ := hphone.image_reply hreply hreceived hreads
  obtain ⟨-, hsettled⟩ := Prod.mk.inj (Except.ok.inj hdecoded)
  obtain ⟨image', picture, rfl, htransfers, rfl⟩ :=
    WatchClient.imageReplied_imageReply hmade hsettled
  exact ⟨picture, rfl, replyHandler, retrieved, image', hdelivered, hurl, hhandled, hretrieved,
    htransfers⟩

/-- A picture on the watch is made of an image that the phone has retrieved. -/
theorem picture_supplied {url : URL}
    (hrun : Execution.execute step (start watchPrefix phonePrefix) schedule = some final)
    (hasked : final.watch.asked[index]? = some (.image url))
    (hcompleted : final.watch.CompletedWith index value) :
    final.phone.Supplies (.image url) value := by
  obtain ⟨picture, rfl, replyHandler, retrieved, image, -, hurl, hhandled, hretrieved,
    htransfers⟩ := pictured_of_completed hrun hasked hcompleted
  exact .picture url retrieved replyHandler image picture rfl rfl hurl hhandled hretrieved
    htransfers

/-- Whatever a request of the watch comes out with, the phone supplies. -/
theorem value_supplied (hfaithful : ArchivesFaithfully)
    (hrun : Execution.execute step (start watchPrefix phonePrefix) schedule = some final)
    (hasked : final.watch.asked[index]? = some request)
    (hcompleted : final.watch.CompletedWith index value) :
    final.phone.Supplies request value := by
  cases hslot : request.slot with
  | none =>
      cases request with
      | image url => exact picture_supplied hrun hasked hcompleted
      | _ => exact absurd hslot (Option.some_ne_none _)
  | some slot =>
      obtain ⟨phoneSchedule, hphoneRun⟩ := phone_reachable hrun
      obtain ⟨replyHandler, message, reply, made, made', tables, tables', error, -, hmessage,
        hreceived, hreply, hdecoded⟩ := completed_reply hrun hasked hcompleted
      obtain ⟨call, callback, occupant, hintended, hoccupant, hmade⟩ :=
        (Phone.consistent hphoneRun).news_reply hfaithful hreply hreceived hslot hmessage
      obtain ⟨read, hread⟩ := WatchRequest.replied_replyFor hfaithful hintended hmade tables
      rw [hread] at hdecoded
      obtain ⟨-, hresult⟩ := Prod.mk.inj (Except.ok.inj hdecoded)
      exact .news slot occupant hslot hoccupant (Prod.mk.inj (Option.some.inj hresult)).1

/-! ## News -/

/-- On the phone the step lets the data task end with this outcome. -/
def EndsTask (task : DataTask) (outcome : TaskOutcome) (connection : Connection)
    (action : Action) : Prop :=
  ∃ phoneAction, action = .phone phoneAction ∧
    Phone.EndsTask task outcome connection.phone phoneAction

/-- In the run the data task of the phone has ended with this outcome. -/
def Ended (watchPrefix phonePrefix : String) (schedule : List Action) (task : DataTask)
    (outcome : TaskOutcome) : Prop :=
  Execution.Takes step (start watchPrefix phonePrefix) schedule (EndsTask task outcome)

/-- What a step does to the phone, and which data task it lets end. -/
theorem step_phone {connection next : Connection} {action : Action}
    (hnext : connection.step action = some next) :
    (next.phone = connection.phone ∧
      ∀ task outcome, ¬ EndsTask task outcome connection action) ∨
    ∃ phoneAction, connection.phone.step phoneAction = some next.phone ∧
      ∀ task outcome, EndsTask task outcome connection action ↔
        Phone.EndsTask task outcome connection.phone phoneAction := by
  cases action with
  | watch action =>
      refine .inl ⟨?_, ?_⟩
      · simp only [step] at hnext
        split at hnext
        next => exact absurd hnext.symm (Option.some_ne_none next)
        next =>
          obtain ⟨watch, -, rfl⟩ := Option.map_eq_some_iff.mp hnext
          rfl
      · rintro task outcome ⟨_, hsame, -⟩
        cases hsame
  | phone action =>
      refine .inr ⟨action, ?_, ?_⟩
      · simp only [step] at hnext
        split at hnext
        next => exact absurd hnext.symm (Option.some_ne_none next)
        next =>
          obtain ⟨phone, hphone, rfl⟩ := Option.map_eq_some_iff.mp hnext
          exact hphone
      · intro task outcome
        constructor
        · rintro ⟨_, hsame, hends⟩
          obtain rfl := Action.phone.inj hsame
          exact hends
        · exact fun hends => ⟨action, rfl, hends⟩
  | deliver index =>
      obtain ⟨-, hnext⟩ := Option.ite_none_left_eq_some.mp hnext
      obtain ⟨sent, -, hnext⟩ := Option.bind_eq_some_iff.mp hnext
      obtain ⟨phone, hphone, rfl⟩ := Option.map_eq_some_iff.mp hnext
      refine .inr ⟨.receive sent.message, hphone, ?_⟩
      intro task outcome
      refine iff_of_false ?_ ?_
      · rintro ⟨_, hsame, -⟩
        cases hsame
      · rintro ⟨_, hsame, -⟩
        cases hsame
  | respond index =>
      refine .inl ⟨?_, ?_⟩
      · obtain ⟨answer, -, hnext⟩ := Option.bind_eq_some_iff.mp hnext
        obtain ⟨message, -, hnext⟩ := Option.bind_eq_some_iff.mp hnext
        obtain ⟨watch, -, rfl⟩ := Option.map_eq_some_iff.mp hnext
        rfl
      · rintro task outcome ⟨_, hsame, -⟩
        cases hsame

/-- The phone has run on its own, with the same data tasks. -/
theorem phone_run
    (hrun : Execution.execute step (start watchPrefix phonePrefix) schedule = some final) :
    ∃ phoneSchedule,
      Execution.execute Phone.step (.start phonePrefix) phoneSchedule = some final.phone ∧
        ∀ task outcome, Phone.Ended phonePrefix phoneSchedule task outcome ↔
          Ended watchPrefix phonePrefix schedule task outcome := by
  refine Execution.execute_induction (motive := fun schedule connection => ∃ phoneSchedule,
    Execution.execute Phone.step (.start phonePrefix) phoneSchedule = some connection.phone ∧
      ∀ task outcome, Phone.Ended phonePrefix phoneSchedule task outcome ↔
        Ended watchPrefix phonePrefix schedule task outcome) ?_ ?_ hrun
  · refine ⟨[], rfl, ?_⟩
    intro task outcome
    exact iff_of_false (Execution.not_takes_nil _ _) (Execution.not_takes_nil _ _)
  · rintro schedule connection action next hbefore ⟨phoneSchedule, hphone, hended⟩ hnext
    have hconcat : ∀ task outcome, Ended watchPrefix phonePrefix (schedule ++ [action]) task
        outcome ↔ Ended watchPrefix phonePrefix schedule task outcome ∨
          EndsTask task outcome connection action :=
      fun _ _ => Execution.takes_concat_iff hbefore action
    rcases step_phone hnext with ⟨hsame, hnot⟩ | ⟨phoneAction, hstep, hends⟩
    · refine ⟨phoneSchedule, hsame ▸ hphone, ?_⟩
      intro task outcome
      rw [hended task outcome, hconcat task outcome]
      exact (or_iff_left (hnot task outcome)).symm
    · refine ⟨phoneSchedule ++ [phoneAction],
        Execution.execute_concat_eq_some.mpr ⟨connection.phone, hphone, hstep⟩, ?_⟩
      intro task outcome
      rw [Phone.ended_concat_iff hphone, hended task outcome, hconcat task outcome,
        hends task outcome]

/-- News on the watch were downloaded by the phone: a data task for the place
that the request is about has ended in the run, with an outcome that yields
exactly the value that the watch was given. -/
theorem news_were_downloaded (hfaithful : ArchivesFaithfully)
    (hrun : Execution.execute step (start watchPrefix phonePrefix) schedule = some final)
    (hasked : final.watch.asked[index]? = some request) {slot : NewsApi.Slot}
    (hslot : request.slot = some slot) (hcompleted : final.watch.CompletedWith index value) :
    ∃ (download : Download) (occupant : Nat) (task : DataTask) (outcome : TaskOutcome),
      download.slot.norm = slot.norm ∧ download.start occupant = some task ∧
        Ended watchPrefix phonePrefix schedule task outcome ∧ download.Yields outcome value := by
  obtain ⟨occupant, hoccupant, hheld⟩ :=
    (value_supplied hfaithful hrun hasked hcompleted).of_slot hslot
  obtain ⟨phoneSchedule, hphoneRun, hended⟩ := phone_run hrun
  obtain ⟨download, task, outcome, hplace, hresumed, hends, hyields⟩ :=
    Phone.downloaded_of_held hphoneRun hoccupant hheld
  exact ⟨download, occupant, task, outcome, hplace, hresumed.2, (hended task outcome).mp hends,
    hyields⟩

/-- A picture on the watch is one that the phone has retrieved for the URL that
was asked for, made smaller where it was too large, and encoded and decoded. -/
theorem pictures_were_retrieved {url : URL}
    (hrun : Execution.execute step (start watchPrefix phonePrefix) schedule = some final)
    (hasked : final.watch.asked[index]? = some (.image url))
    (hcompleted : final.watch.CompletedWith index value) :
    ∃ retrieved replyHandler image picture,
      urlFromString (absoluteString url) = some retrieved ∧
        (replyHandler, .image retrieved) ∈ final.phone.handled ∧
          (replyHandler, some image) ∈ final.phone.retrieved ∧
            WatchServer.Transfers image picture ∧ value = .image picture := by
  cases picture_supplied hrun hasked hcompleted with
  | news slot occupant hslot => exact absurd hslot.symm (Option.some_ne_none slot)
  | picture url' retrieved replyHandler image picture hrequest hvalue hurl hhandled hretrieved
      htransfers =>
      obtain rfl := WatchRequest.image.inj hrequest
      exact ⟨retrieved, replyHandler, image, picture, hurl, hhandled, hretrieved, htransfers,
        hvalue⟩

/-! ## Agreement over time -/

theorem phone_later {connection : Connection} {later : List Action}
    (hlater : Execution.execute step connection later = some final) :
    ∃ phoneLater,
      Execution.execute Phone.step connection.phone phoneLater = some final.phone := by
  refine Execution.execute_simulation Connection.phone ?_ hlater
  intro state action next hnext
  rcases step_phone hnext with ⟨hsame, -⟩ | ⟨phoneAction, hstep, -⟩
  · exact ⟨[], by rw [hsame]; rfl⟩
  · exact ⟨[phoneAction], by simp [hstep]⟩

/-- What the watch is told about a place is what it is told about this place
ever after, whichever request it asks with, and what every callback on the
phone is given that was registered by way of the place. -/
theorem answers_agree (hfaithful : ArchivesFaithfully)
    (hrun : Execution.execute step (start watchPrefix phonePrefix) schedule = some final)
    (hasked : final.watch.asked[index]? = some request) {slot : NewsApi.Slot}
    (hslot : request.slot = some slot) (hcompleted : final.watch.CompletedWith index value)
    {later : List Action} {last : Connection}
    (hlater : Execution.execute step final later = some last) :
    (∀ (index' : Nat) (request' : WatchRequest) (slot' : NewsApi.Slot) (value' : AnyValue),
      last.watch.asked[index']? = some request' → request'.slot = some slot' →
        slot'.norm = slot.norm → last.watch.CompletedWith index' value' → value' = value) ∧
      ∀ occupant callback result error, last.phone.news.api.occupant slot = some occupant →
        (occupant, callback, result, error) ∈ last.phone.main.callbackCalls →
          result = some value := by
  obtain ⟨occupant, hoccupant, hheld⟩ :=
    (value_supplied hfaithful hrun hasked hcompleted).of_slot hslot
  obtain ⟨phoneSchedule, hphoneRun⟩ := phone_reachable hrun
  obtain ⟨phoneLater, hphoneLater⟩ := phone_later hlater
  have hrun' := Execution.execute_append_of_eq_some hrun hlater
  have hoccupant' := Phone.occupant_later hoccupant hphoneLater
  obtain ⟨mainSchedule, hmain⟩ :=
    Phone.main_reachable (Execution.execute_append_of_eq_some hphoneRun hphoneLater)
  have hsound := MainQueue.sound hmain
  constructor
  · intro index' request' slot' value' hasked' hslot' hsame hcompleted'
    obtain ⟨other, hother, hheld'⟩ :=
      (value_supplied hfaithful hrun' hasked' hcompleted').of_slot hslot'
    rw [NewsApi.occupant_congr _ hsame, hoccupant'] at hother
    obtain rfl := Option.some.inj hother
    obtain ⟨error, hcall⟩ := hsound.result_called hheld'
    exact Option.some.inj (Phone.held_later hphoneRun hheld hphoneLater hcall)
  · intro other callback result error hother hcalled
    obtain rfl := Option.some.inj (hoccupant'.symm.trans hother)
    exact Phone.held_later hphoneRun hheld hphoneLater (hsound.callback_called hcalled)

section Samples

omit [Foundation]

/-- The watch of the schedule holds the sources that it asked for. -/
theorem sourcesSchedule_holds :
    letI : Foundation := .sample
    ∃ final request, Execution.execute step (start "Watch" "NewsDay") sourcesSchedule =
      some final ∧ final.watch.asked[0]? = some request ∧ request.slot = some .sources ∧
        final.watch.CompletedWith 0 (.categorizedSources sampleSources) := by
  let _ : Foundation := .sample
  obtain ⟨final, hrun, hcompletes⟩ := Option.bind_eq_some_iff.mp sourcesSchedule_completes
  obtain ⟨slot, hslots, hcompletes⟩ := Option.bind_eq_some_iff.mp hcompletes
  obtain ⟨request, hasked, hslot⟩ := Option.bind_eq_some_iff.mp hslots
  obtain ⟨sources, hsources, hsame⟩ := Option.map_eq_some_iff.mp hcompletes
  obtain ⟨rfl, rfl⟩ := Prod.mk.inj hsame
  obtain ⟨value, hresult, hvalue⟩ := Option.bind_eq_some_iff.mp hsources
  obtain rfl := AnyValue.asCategorizedSources_eq_some.mp hvalue
  exact ⟨final, request, hrun, hasked, hslot, .inl hresult⟩

theorem news_were_downloaded_sources :
    letI : Foundation := .sample
    ∃ (download : Download) (occupant : Nat) (task : DataTask) (outcome : TaskOutcome),
      download.slot.norm = NewsApi.Slot.sources.norm ∧ download.start occupant = some task ∧
        Ended "Watch" "NewsDay" sourcesSchedule task outcome ∧
          download.Yields outcome (.categorizedSources sampleSources) := by
  let _ : Foundation := .sample
  obtain ⟨final, request, hrun, hasked, hslot, hcompleted⟩ := sourcesSchedule_holds
  exact news_were_downloaded sample_archivesFaithfully hrun hasked hslot hcompleted

theorem answers_agree_sources :
    letI : Foundation := .sample
    ∃ final request, Execution.execute step (start "Watch" "NewsDay") sourcesSchedule =
      some final ∧ final.watch.asked[0]? = some request ∧
        ∀ occupant callback result error,
          final.phone.news.api.occupant .sources = some occupant →
            (occupant, callback, result, error) ∈ final.phone.main.callbackCalls →
              result = some (.categorizedSources sampleSources) := by
  let _ : Foundation := .sample
  obtain ⟨final, request, hrun, hasked, hslot, hcompleted⟩ := sourcesSchedule_holds
  have hlater : Execution.execute step final [] = some final := rfl
  have hagree := answers_agree sample_archivesFaithfully hrun hasked hslot hcompleted hlater
  exact ⟨final, request, hrun, hasked, hagree.2⟩

/-- A platform on which every byte string is a picture. -/
@[reducible] def picturesSample : Foundation :=
  { Foundation.sample with imageFromData := fun _ => some ((1 : ℚ), (1 : ℚ)) }

/-- The watch asks for an image; the phone retrieves one and replies. -/
def pictureSchedule : letI := picturesSample; List Action :=
  letI := picturesSample
  [.watch (.reach true), .watch .activate, .watch (.get (.image "https://a.b/c"))] ++
    List.replicate 9 (.watch .main) ++ [.deliver 0] ++ List.replicate 2 (.phone .main) ++
    [.phone (.retrieve 0 (some ((4 : ℚ), (2 : ℚ)))), .respond 0] ++
    List.replicate 3 (.watch .main)

theorem pictureSchedule_completes :
    letI := picturesSample
    ((Execution.execute step (start "Watch" "NewsDay") pictureSchedule).bind fun final =>
      final.watch.asked[0]?.bind fun request =>
        (match request with
          | .image url => some url
          | _ => none).bind fun url =>
          (final.watch.main.requests (Watch.requestOf 0)).result.bind fun value =>
            value.asImage.map (Prod.mk url)) = some ("https://a.b/c", ((1 : ℚ), (1 : ℚ))) := by
  decide +kernel

theorem pictures_were_retrieved_sample :
    letI := picturesSample
    ∃ final retrieved replyHandler image picture,
      Execution.execute step (start "Watch" "NewsDay") pictureSchedule = some final ∧
        urlFromString (absoluteString "https://a.b/c") = some retrieved ∧
          (replyHandler, .image retrieved) ∈ final.phone.handled ∧
            (replyHandler, some image) ∈ final.phone.retrieved ∧
              WatchServer.Transfers image picture ∧
                AnyValue.image ((1 : ℚ), (1 : ℚ)) = .image picture := by
  let _ := picturesSample
  obtain ⟨final, hrun, hcompletes⟩ := Option.bind_eq_some_iff.mp pictureSchedule_completes
  obtain ⟨request, hasked, hcompletes⟩ := Option.bind_eq_some_iff.mp hcompletes
  obtain ⟨url, hurl, hcompletes⟩ := Option.bind_eq_some_iff.mp hcompletes
  obtain ⟨value, hresult, hcompletes⟩ := Option.bind_eq_some_iff.mp hcompletes
  obtain ⟨picture, hpicture, hsame⟩ := Option.map_eq_some_iff.mp hcompletes
  obtain ⟨rfl, rfl⟩ := Prod.mk.inj hsame
  cases request with
  | image asked =>
      obtain rfl := Option.some.inj hurl
      cases value with
      | image held =>
          obtain rfl := Option.some.inj hpicture
          obtain ⟨retrieved, replyHandler, image, picture, hread⟩ :=
            pictures_were_retrieved hrun hasked (.inl hresult)
          exact ⟨final, retrieved, replyHandler, image, picture, hrun, hread⟩
      | _ => exact absurd hpicture.symm (Option.some_ne_none _)
  | _ => exact absurd hurl.symm (Option.some_ne_none _)

end Samples

end Connection

end NewsDay
