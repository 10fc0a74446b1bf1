import NewsDay.Process.PhoneMessages

/-! # Which messages are answered

A message receives one reply at most. Once its work is done, whether it has
received one is a condition on the message and on what became of the work: the
guards of the server drop the reply handler without a word wherever a cast, an
archive, a download or an image fails.
-/

namespace NewsDay

open Foundation AsyncRequest

variable [Foundation]

/-- What a callback of the server replies under a reply handler. -/
def PhoneCallback.replyTo (replyHandler : Nat) (result : Option AnyValue)
    (callback : PhoneCallback) : Option Message :=
  callback.server?.bind fun server =>
    if server.1 = replyHandler then server.2.replyFor result else none

namespace Phone

variable {modulePrefix : String} {phone : Phone}

/-- A request has been settled, and no block of it is queued or running or about
to be dispatched. -/
structure Finished (phone : Phone) (request : Nat) : Prop where
  todo : ∀ callback, phone.todo ≠ some (request, callback)
  phase : (phone.main.view request).phase = none
  jobs : (phone.main.view request).jobs = []
  settled : settlements (phone.main.events request) ≠ []

/-- The work that a message has started is over: its block has run, the request
of the news service that it registered with is finished, and no image is on its
way. -/
structure Completed (phone : Phone) (replyHandler : Nat) : Prop where
  handled : replyHandler ∈ phone.handled.map Prod.fst
  finished : ∀ call callback request,
    (replyHandler, .news call callback request) ∈ phone.handled → phone.Finished request
  retrieved : replyHandler ∉ phone.retrievals

/-- The message is of no known kind; or it asks for news whose request holds
what the callback can archive; or for an image that was retrieved and resized. -/
def Answerable (modulePrefix : String) (phone : Phone) (replyHandler : Nat) : Prop :=
  ∃ message, phone.received[replyHandler]? = some message ∧
    (WatchServer.Reads modulePrefix message (.replied WatchServer.unrecognized) ∨
      (∃ call callback request, WatchServer.Reads modulePrefix message (.news call callback) ∧
        phone.news.api.occupant call.slot = some request ∧
          callback.Archivable (phone.main.requests request).result) ∨
      ∃ url image, WatchServer.Reads modulePrefix message (.retrieveImage url) ∧
        (replyHandler, some image) ∈ phone.retrieved ∧
          (WatchServer.resizeImage image (448, 368)).isSome)

/-- What a block waits for in order to reply. -/
def Awaited (phone : Phone) (replyHandler : Nat) : Handled → Prop
  | .trapped | .dropped => False
  | .replied _ => True
  | .news _ callback request => callback.Archivable (phone.main.requests request).result
  | .image _ => ∃ image, (replyHandler, some image) ∈ phone.retrieved ∧
      (WatchServer.resizeImage image (448, 368)).isSome

/-- What every reachable phone satisfies: its ledgers, and the contract of its
requests. -/
structure Consistent (modulePrefix : String) (phone : Phone) : Prop where
  news : phone.NewsLedger
  messages : phone.MessageLedger modulePrefix
  main : phone.main.Sound

theorem consistent {final : Phone} {schedule : List Action}
    (hrun : Execution.execute step (start modulePrefix) schedule = some final) :
    final.Consistent modulePrefix := by
  obtain ⟨mainSchedule, hmain⟩ := main_reachable hrun
  exact ⟨newsLedger hrun, messageLedger hrun, MainQueue.sound hmain⟩

namespace Consistent

theorem handled_nodup (hphone : phone.Consistent modulePrefix) :
    (phone.handled.map Prod.fst).Nodup := by
  have hrange : (List.range phone.received.length).Nodup := List.nodup_range
  rw [← hphone.messages.fifo] at hrange
  exact (List.nodup_append.mp hrange).1

/-- A callback that is invoked receives what its request holds. -/
theorem callback_pair (hphone : phone.Consistent modulePrefix) {request : Nat}
    {callback : PhoneCallback} {result : Option AnyValue} {error : Option ErrorValue}
    (hcall : (request, callback, result, error) ∈ phone.main.callbackCalls) :
    result = (phone.main.requests request).result :=
  hphone.main.callback_result (hphone.news.setResults_length request) hcall

/-- A callback of the server that is invoked is on record. -/
theorem callback_recorded (hphone : phone.Consistent modulePrefix) {request replyHandler : Nat}
    {callback : WatchServer.Callback} {result : Option AnyValue} {error : Option ErrorValue}
    (hcall : (request, .server replyHandler callback, result, error) ∈ phone.main.callbackCalls) :
    ∃ call, (replyHandler, .news call callback request) ∈ phone.handled := by
  have hwith := hphone.main.callback_registered hcall
  have hserver : (replyHandler, callback, request) ∈
      serverCalls (phone.main.withResultCalls ++ phone.todo.toList) :=
    List.mem_filterMap.mpr ⟨_, List.mem_append_left _ hwith, rfl⟩
  rw [hphone.messages.registered, Tagged.mem_select] at hserver
  obtain ⟨entry, hentry, hnews⟩ := hserver
  cases entry with
  | news call callback' request' =>
      obtain ⟨rfl, rfl⟩ := Prod.mk.inj (Option.some.inj hnews)
      exact ⟨call, hentry⟩
  | _ => simp [Handled.news?] at hnews

theorem ownedBy_handled (hphone : phone.Consistent modulePrefix) {replyHandler : Nat}
    {entry : Handled} (hentry : (replyHandler, entry) ∈ phone.handled) :
    Tagged.ownedBy replyHandler phone.handled = [entry] :=
  Tagged.ownedBy_of_nodup hphone.handled_nodup hentry

/-- The replies to a message, by where they come from. -/
theorem replies_length (hphone : phone.Consistent modulePrefix) (replyHandler : Nat) :
    (Tagged.ownedBy replyHandler phone.replies).length =
      ((Tagged.ownedBy replyHandler phone.handled).filterMap Handled.replied?).length +
        (Tagged.ownedBy replyHandler (callbackReplies phone.main.callbackCalls)).length +
          ((Tagged.ownedBy replyHandler phone.retrieved).filterMap WatchServer.imageReply).length := by
  have hperm := hphone.messages.replied
  rw [Multiset.coe_add, Multiset.coe_add, Multiset.coe_eq_coe] at hperm
  have hlength := (hperm.filterMap fun entry =>
    if entry.1 = replyHandler then some entry.2 else none).length_eq
  change (Tagged.ownedBy replyHandler _).length = (Tagged.ownedBy replyHandler _).length at hlength
  rw [hlength, Tagged.ownedBy_append, Tagged.ownedBy_append, List.length_append, List.length_append,
    Tagged.ownedBy_select, Tagged.ownedBy_select]

/-- The images that were retrieved for a message, and those on their way. -/
theorem retrieved_length (hphone : phone.Consistent modulePrefix) (replyHandler : Nat) :
    phone.retrievals.count replyHandler +
      (Tagged.ownedBy replyHandler phone.retrieved).length =
        ((Tagged.ownedBy replyHandler phone.handled).filterMap Handled.image?).length := by
  have hcount := congrArg (Multiset.count replyHandler) hphone.messages.retrieving
  rw [Multiset.count_add, Multiset.coe_count, Multiset.coe_count, Multiset.coe_count,
    ← Tagged.length_ownedBy, ← Tagged.length_ownedBy, Tagged.ownedBy_select] at hcount
  exact hcount

/-- A message is recorded once. -/
theorem entry_unique (hphone : phone.Consistent modulePrefix) {replyHandler : Nat}
    {first second : Handled} (hfirst : (replyHandler, first) ∈ phone.handled)
    (hsecond : (replyHandler, second) ∈ phone.handled) : first = second := by
  have hone := hphone.ownedBy_handled hfirst
  rw [hphone.ownedBy_handled hsecond] at hone
  exact (List.cons.inj hone).1.symm

/-- The replies of callbacks to a message that asked for news are what the
callbacks invoked by its request reply, each to what the request holds. -/
theorem ownedBy_callbackReplies (hphone : phone.Consistent modulePrefix) {replyHandler : Nat}
    {call : NewsApi.Call} {callback : WatchServer.Callback} {request : Nat}
    (hentry : (replyHandler, .news call callback request) ∈ phone.handled) :
    Tagged.ownedBy replyHandler (callbackReplies phone.main.callbackCalls) =
      (invoked (phone.main.events request)).filterMap
        (PhoneCallback.replyTo replyHandler (phone.main.requests request).result) := by
  rw [invoked, MainQueue.invocations_events, Tagged.ownedBy, Tagged.ownedBy, callbackReplies,
    List.filterMap_filterMap, List.map_filterMap, List.filterMap_filterMap]
  refine List.filterMap_congr ?_
  rintro ⟨owner, other, result, error⟩ hcall
  cases other with
  | screen => by_cases howner : owner = request <;>
      simp [PhoneCallback.server?, PhoneCallback.replyTo, howner]
  | server replyHandler' callback' =>
      by_cases hhandler : replyHandler' = replyHandler
      · -- it was registered for this message, so with the request on record
        subst hhandler
        obtain ⟨call', hrecorded⟩ := hphone.callback_recorded hcall
        obtain ⟨-, rfl, rfl⟩ := Handled.news.inj (hphone.entry_unique hentry hrecorded)
        obtain rfl := hphone.callback_pair hcall
        cases hreply : callback.replyFor (phone.main.requests request).result <;>
          simp [PhoneCallback.server?, PhoneCallback.replyTo, hreply]
      · by_cases howner : owner = request <;>
          cases hreply : callback'.replyFor result <;>
            simp [PhoneCallback.server?, PhoneCallback.replyTo, hhandler, howner, hreply]

/-- The callback that the server has registered for a message, read off the
calls of `withResult` on the request. -/
theorem registered_for (hphone : phone.Consistent modulePrefix) {replyHandler : Nat}
    {call : NewsApi.Call} {callback : WatchServer.Callback} {request : Nat}
    (hentry : (replyHandler, .news call callback request) ∈ phone.handled)
    (result : Option AnyValue) :
    ((withResults (phone.main.events request)) ++
      Tagged.ownedBy request phone.todo.toList).filterMap
        (PhoneCallback.replyTo replyHandler result) = (callback.replyFor result).toList := by
  -- picking by request and then by message is picking by message and then by request
  have hselect : ∀ calls : List (Nat × PhoneCallback),
      (Tagged.ownedBy request calls).filterMap (PhoneCallback.replyTo replyHandler result) =
        (Tagged.ownedBy replyHandler (serverCalls calls)).filterMap fun server =>
          if server.2 = request then server.1.replyFor result else none := by
    intro calls
    rw [Tagged.ownedBy, Tagged.ownedBy, serverCalls, List.filterMap_filterMap,
      List.filterMap_filterMap, List.filterMap_filterMap]
    refine List.filterMap_congr ?_
    rintro ⟨owner, other⟩ -
    cases other with
    | screen => by_cases howner : owner = request <;>
        simp [PhoneCallback.server?, PhoneCallback.replyTo, howner]
    | server replyHandler' callback' =>
        by_cases howner : owner = request <;> by_cases hhandler : replyHandler' = replyHandler <;>
          simp [PhoneCallback.server?, PhoneCallback.replyTo, howner, hhandler]
  rw [MainQueue.withResults_events, ← Tagged.ownedBy_append, hselect,
    hphone.messages.registered, Tagged.ownedBy_select, hphone.ownedBy_handled hentry]
  simp [Handled.news?, filterMap_cons_toList]

theorem callbackReplies_eq_nil (hphone : phone.Consistent modulePrefix) {replyHandler : Nat}
    (hnews : ∀ call callback request,
      (replyHandler, .news call callback request) ∉ phone.handled) :
    Tagged.ownedBy replyHandler (callbackReplies phone.main.callbackCalls) = [] := by
  rw [List.eq_nil_iff_forall_not_mem]
  intro reply hreply
  obtain ⟨request, callback, result, error, hcall, -⟩ :=
    mem_callbackReplies.mp (Tagged.mem_ownedBy.mp hreply)
  obtain ⟨call, hrecorded⟩ := hphone.callback_recorded hcall
  exact hnews call callback request hrecorded

/-- A callback replies once at most. -/
theorem callbackReplies_length (hphone : phone.Consistent modulePrefix) {replyHandler : Nat}
    {call : NewsApi.Call} {callback : WatchServer.Callback} {request : Nat}
    (hentry : (replyHandler, .news call callback request) ∈ phone.handled) :
    (Tagged.ownedBy replyHandler (callbackReplies phone.main.callbackCalls)).length ≤ 1 := by
  have hvalid := hphone.main.valid request
  -- those invoked are among those registered, of which one can reply
  have hinvoked : invoked (phone.main.events request) <+:
      withResults (phone.main.events request) ++ Tagged.ownedBy request phone.todo.toList := by
    refine hvalid.invoked_prefix.trans ?_
    rw [show withResults (phone.main.events request) = _ from hvalid.ledger.registered,
      List.append_assoc, List.append_assoc]
    exact List.prefix_append _ _
  have hreplies := (hinvoked.filterMap (PhoneCallback.replyTo replyHandler
    (phone.main.requests request).result)).length_le
  rw [hphone.registered_for hentry] at hreplies
  rw [hphone.ownedBy_callbackReplies hentry]
  refine hreplies.trans ?_
  cases callback.replyFor (phone.main.requests request).result with
  | none => exact Nat.zero_le 1
  | some reply => exact Nat.le_refl 1

/-- When the request is finished, the callback has replied to what it holds. -/
theorem callbackReplies_of_finished (hphone : phone.Consistent modulePrefix) {replyHandler : Nat}
    {call : NewsApi.Call} {callback : WatchServer.Callback} {request : Nat}
    (hentry : (replyHandler, .news call callback request) ∈ phone.handled)
    (hfinished : phone.Finished request) :
    Tagged.ownedBy replyHandler (callbackReplies phone.main.callbackCalls) =
      (callback.replyFor (phone.main.requests request).result).toList := by
  have hvalid := hphone.main.valid request
  have htodo : Tagged.ownedBy request phone.todo.toList = [] := by
    cases htodo : phone.todo with
    | none => rfl
    | some todo =>
        obtain ⟨owner, other⟩ := todo
        rw [Option.toList_some, Tagged.ownedBy_cons, if_neg, Tagged.ownedBy_nil]
        rintro rfl
        exact hfinished.todo other htodo
  have hinvoked := (hvalid.invoked_eq_registrations hfinished.phase hfinished.jobs
    hfinished.settled).trans
      (hvalid.registrations_eq_withResults hfinished.phase hfinished.jobs)
  have hregistered := hphone.registered_for hentry (phone.main.requests request).result
  rw [htodo, List.append_nil] at hregistered
  rw [hphone.ownedBy_callbackReplies hentry, ← hregistered]
  exact congrArg _ hinvoked

theorem retrieved_eq_nil (hphone : phone.Consistent modulePrefix) {replyHandler : Nat}
    (himage : ∀ url, (replyHandler, .image url) ∉ phone.handled) :
    Tagged.ownedBy replyHandler phone.retrieved = [] := by
  have hnone : (Tagged.ownedBy replyHandler phone.handled).filterMap Handled.image? = [] := by
    rw [List.filterMap_eq_nil_iff]
    intro entry hentry
    cases entry with
    | image url => exact absurd (Tagged.mem_ownedBy.mp hentry) (himage url)
    | _ => rfl
  have himages := hphone.retrieved_length replyHandler
  rw [hnone, List.length_nil] at himages
  exact List.eq_nil_of_length_eq_zero (by omega)

theorem retrieved_handled (hphone : phone.Consistent modulePrefix) {replyHandler : Nat}
    {image : Option UIImage} (hretrieved : (replyHandler, image) ∈ phone.retrieved) :
    ∃ url, (replyHandler, .image url) ∈ phone.handled := by
  by_contra hnone
  push Not at hnone
  have hempty := hphone.retrieved_eq_nil hnone
  rw [← Tagged.mem_ownedBy, hempty] at hretrieved
  exact absurd hretrieved List.not_mem_nil

/-- With nothing left to do, a phone is done with every request that was set. -/
theorem finished_of_drained (hphone : phone.Consistent modulePrefix)
    (hdrained : phone.main.Drained) (htodo : phone.todo = none) {request : Nat}
    (hset : request ∈ phone.main.setResultCalls.map Prod.fst) : phone.Finished request := by
  obtain ⟨⟨owner, call⟩, hcall, rfl⟩ := List.mem_map.mp hset
  refine ⟨?_, hdrained.view_phase owner, hdrained.view_jobs owner, ?_⟩
  · rw [htodo]
    exact fun callback => (Option.some_ne_none _).symm
  · rw [hphone.main.drained_settlements hdrained, MainQueue.setResults_events]
    exact List.ne_nil_of_mem (Tagged.mem_ownedBy.mpr hcall)

/-! ## The replies to a message, by what its block did -/

variable {replyHandler : Nat}

theorem replies_of_ignored (hphone : phone.Consistent modulePrefix)
    (hignored : ∀ entry, (replyHandler, entry) ∈ phone.handled →
      entry = .trapped ∨ entry = .dropped) :
    (Tagged.ownedBy replyHandler phone.replies).length = 0 := by
  have hreplied : (Tagged.ownedBy replyHandler phone.handled).filterMap Handled.replied? = [] := by
    rw [List.filterMap_eq_nil_iff]
    intro entry hentry
    rcases hignored entry (Tagged.mem_ownedBy.mp hentry) with rfl | rfl <;> rfl
  rw [hphone.replies_length, hreplied, hphone.callbackReplies_eq_nil, hphone.retrieved_eq_nil]
  · rfl
  · intro url hentry
    exact absurd (hignored _ hentry) (by simp)
  · intro call callback request hentry
    exact absurd (hignored _ hentry) (by simp)

theorem replies_of_replied (hphone : phone.Consistent modulePrefix) {reply : Message}
    (hentry : (replyHandler, .replied reply) ∈ phone.handled) :
    (Tagged.ownedBy replyHandler phone.replies).length = 1 := by
  rw [hphone.replies_length, hphone.ownedBy_handled hentry, hphone.callbackReplies_eq_nil,
    hphone.retrieved_eq_nil]
  · rfl
  · intro url hother
    exact absurd (hphone.entry_unique hentry hother) (by simp)
  · intro call callback request hother
    exact absurd (hphone.entry_unique hentry hother) (by simp)

theorem replies_of_news (hphone : phone.Consistent modulePrefix) {call : NewsApi.Call}
    {callback : WatchServer.Callback} {request : Nat}
    (hentry : (replyHandler, .news call callback request) ∈ phone.handled) :
    (Tagged.ownedBy replyHandler phone.replies).length =
      (Tagged.ownedBy replyHandler (callbackReplies phone.main.callbackCalls)).length := by
  rw [hphone.replies_length, hphone.ownedBy_handled hentry, hphone.retrieved_eq_nil]
  · simp [Handled.replied?]
  · intro url hother
    exact absurd (hphone.entry_unique hentry hother) (by simp)

theorem replies_of_image (hphone : phone.Consistent modulePrefix) {url : URL}
    (hentry : (replyHandler, .image url) ∈ phone.handled) :
    (Tagged.ownedBy replyHandler phone.replies).length =
      ((Tagged.ownedBy replyHandler phone.retrieved).filterMap WatchServer.imageReply).length := by
  rw [hphone.replies_length, hphone.ownedBy_handled hentry, hphone.callbackReplies_eq_nil]
  · simp [Handled.replied?]
  · intro call callback request hother
    exact absurd (hphone.entry_unique hentry hother) (by simp)

/-- An image is retrieved once for each message that asks for one. -/
theorem retrieved_of_image (hphone : phone.Consistent modulePrefix) {url : URL}
    (hentry : (replyHandler, .image url) ∈ phone.handled) :
    phone.retrievals.count replyHandler +
      (Tagged.ownedBy replyHandler phone.retrieved).length = 1 := by
  have himages := hphone.retrieved_length replyHandler
  rw [hphone.ownedBy_handled hentry] at himages
  exact himages

/-- No message is answered twice. -/
theorem replies_length_le (hphone : phone.Consistent modulePrefix) (replyHandler : Nat) :
    (Tagged.ownedBy replyHandler phone.replies).length ≤ 1 := by
  by_cases hignored : ∀ entry, (replyHandler, entry) ∈ phone.handled →
      entry = .trapped ∨ entry = .dropped
  · rw [hphone.replies_of_ignored hignored]
    exact Nat.zero_le 1
  · push Not at hignored
    obtain ⟨entry, hentry, htrapped, hdropped⟩ := hignored
    cases entry with
    | trapped => exact absurd rfl htrapped
    | dropped => exact absurd rfl hdropped
    | replied reply => exact (hphone.replies_of_replied hentry).le
    | news call callback request =>
        rw [hphone.replies_of_news hentry]
        exact hphone.callbackReplies_length hentry
    | image url =>
        have himages := hphone.retrieved_of_image hentry
        have hreplies := List.length_filterMap_le WatchServer.imageReply
          (Tagged.ownedBy replyHandler phone.retrieved)
        rw [hphone.replies_of_image hentry]
        omega

/-- The message on record, of which what the record says holds. -/
theorem message_of (hphone : phone.Consistent modulePrefix) {entry : Handled}
    (hentry : (replyHandler, entry) ∈ phone.handled) :
    ∃ message, phone.received[replyHandler]? = some message ∧
      entry.Explains modulePrefix message :=
  hphone.messages.explained replyHandler entry hentry

/-- What an answerable message asks for, given what its block did. -/
theorem answerable_iff (hphone : phone.Consistent modulePrefix) {entry : Handled}
    (hentry : (replyHandler, entry) ∈ phone.handled) :
    phone.Answerable modulePrefix replyHandler ↔ phone.Awaited replyHandler entry := by
  obtain ⟨message, hreceived, hexplains⟩ := hphone.message_of hentry
  simp only [Answerable, Awaited, hreceived, Option.some.injEq, exists_eq_left']
  cases entry with
  | trapped =>
      simp only [iff_false]
      rintro (hreads | ⟨_, _, _, hreads, -⟩ | ⟨_, _, hreads, -⟩)
      all_goals exact hexplains _ hreads
  | dropped =>
      simp only [iff_false]
      rintro (hreads | ⟨_, _, _, hreads, -⟩ | ⟨_, _, hreads, -⟩)
      all_goals exact hexplains _ hreads
  | replied reply =>
      have hreads : WatchServer.Reads modulePrefix message (.replied reply) := hexplains
      cases hreads with
      | unrecognized hname => exact iff_true_intro (.inl (.unrecognized hname))
  | news call callback request =>
      have hreads : WatchServer.Reads modulePrefix message (.news call callback) := hexplains
      have hslot := hphone.news.coherent.placed call request
        (hphone.messages.returned replyHandler call callback request hentry)
      constructor
      · rintro (hother | ⟨call', callback', request', hother, hslot', harchivable⟩ |
          ⟨url, image, hother, -⟩)
        · exact absurd (hreads.unique hother) nofun
        · obtain ⟨rfl, rfl⟩ := WatchServer.Handling.news.inj (hreads.unique hother)
          obtain rfl := Option.some.inj (hslot.symm.trans hslot')
          exact harchivable
        · exact absurd (hreads.unique hother) nofun
      · intro harchivable
        exact .inr (.inl ⟨call, callback, request, hreads, hslot, harchivable⟩)
  | image url =>
      have hreads : WatchServer.Reads modulePrefix message (.retrieveImage url) := hexplains
      constructor
      · rintro (hother | ⟨call, callback, request, hother, -⟩ |
          ⟨url', image, hother, himage, hresized⟩)
        · exact absurd (hreads.unique hother) nofun
        · exact absurd (hreads.unique hother) nofun
        · exact ⟨image, himage, hresized⟩
      · rintro ⟨image, himage, hresized⟩
        exact .inr (.inr ⟨url, image, hreads, himage, hresized⟩)

/-- A message whose work is done has one reply if it is answerable. -/
theorem replies_eq_one_iff (hphone : phone.Consistent modulePrefix)
    (hcompleted : phone.Completed replyHandler) :
    (Tagged.ownedBy replyHandler phone.replies).length = 1 ↔
      phone.Answerable modulePrefix replyHandler := by
  obtain ⟨⟨_, entry⟩, hentry, rfl⟩ := List.mem_map.mp hcompleted.handled
  rw [hphone.answerable_iff hentry]
  cases entry with
  | trapped =>
      rw [hphone.replies_of_ignored fun other hother => .inl (hphone.entry_unique hother hentry)]
      exact iff_of_false Nat.zero_ne_one id
  | dropped =>
      rw [hphone.replies_of_ignored fun other hother => .inr (hphone.entry_unique hother hentry)]
      exact iff_of_false Nat.zero_ne_one id
  | replied reply => exact iff_of_true (hphone.replies_of_replied hentry) trivial
  | news call callback request =>
      have hfinished := hcompleted.finished call callback request hentry
      rw [hphone.replies_of_news hentry, hphone.callbackReplies_of_finished hentry hfinished,
        Awaited, ← WatchServer.Callback.replyFor_isSome_iff]
      cases callback.replyFor (phone.main.requests request).result <;> simp
  | image url =>
      -- the image is not on its way any more, so it was retrieved
      have hone := hphone.retrieved_of_image hentry
      rw [List.count_eq_zero.mpr hcompleted.retrieved, Nat.zero_add] at hone
      obtain ⟨image, himage⟩ := List.length_eq_one_iff.mp hone
      rw [hphone.replies_of_image hentry, himage, filterMap_cons_toList, List.filterMap_nil,
        List.append_nil]
      simp only [Awaited, ← Tagged.mem_ownedBy, himage, List.mem_singleton]
      cases image with
      | none => simp [WatchServer.imageReply]
      | some image =>
          cases hresized : WatchServer.resizeImage image (448, 368) <;>
            simp [WatchServer.imageReply, hresized]

/-- Where a reply comes from: the message is of no known kind, or it asks for
news and the reply is that of the callback to what the cache's request holds,
or it asks for an image. -/
theorem reply_origin (hphone : phone.Consistent modulePrefix) {reply : Message}
    (hreply : (replyHandler, reply) ∈ phone.replies) :
    ∃ message, phone.received[replyHandler]? = some message ∧
      (WatchServer.Reads modulePrefix message (.replied reply) ∨
        (∃ call callback request, WatchServer.Reads modulePrefix message (.news call callback) ∧
          phone.news.api.occupant call.slot = some request ∧
            callback.replyFor (phone.main.requests request).result = some reply) ∨
        ∃ url image, WatchServer.Reads modulePrefix message (.retrieveImage url) ∧
          WatchServer.imageReply image = some reply) := by
  have hmem : (replyHandler, reply) ∈ (phone.replies : Multiset (Nat × Message)) := hreply
  rw [hphone.messages.replied, Multiset.mem_add, Multiset.mem_add] at hmem
  rcases hmem with (hreplied | hcallback) | himage
  · obtain ⟨entry, hentry, hsame⟩ := Tagged.mem_select.mp hreplied
    obtain ⟨message, hreceived, hexplains⟩ := hphone.message_of hentry
    cases entry with
    | replied reply' =>
        obtain rfl := Option.some.inj hsame
        exact ⟨message, hreceived, .inl hexplains⟩
    | _ => exact absurd hsame.symm (Option.some_ne_none reply)
  · obtain ⟨request, callback, result, error, hcall, hmade⟩ := mem_callbackReplies.mp hcallback
    obtain ⟨call, hentry⟩ := hphone.callback_recorded hcall
    obtain ⟨message, hreceived, hexplains⟩ := hphone.message_of hentry
    have hslot := hphone.news.coherent.placed call request
      (hphone.messages.returned replyHandler call callback request hentry)
    rw [hphone.callback_pair hcall] at hmade
    exact ⟨message, hreceived, .inr (.inl ⟨call, callback, request, hexplains, hslot, hmade⟩)⟩
  · obtain ⟨image, hretrieved, hmade⟩ := Tagged.mem_select.mp himage
    obtain ⟨url, hentry⟩ := hphone.retrieved_handled hretrieved
    obtain ⟨message, hreceived, hexplains⟩ := hphone.message_of hentry
    exact ⟨message, hreceived, .inr (.inr ⟨url, image, hexplains, hmade⟩)⟩

end Consistent

/-! ## Main result -/

/-- In every run a message is answered at most once, and a message whose work
is done is answered exactly if it is answerable. -/
theorem reply_iff {final : Phone} {schedule : List Action}
    (hrun : Execution.execute step (start modulePrefix) schedule = some final)
    (replyHandler : Nat) :
    (Tagged.ownedBy replyHandler final.replies).length ≤ 1 ∧
      (final.Completed replyHandler →
        ((Tagged.ownedBy replyHandler final.replies).length = 1 ↔
          final.Answerable modulePrefix replyHandler)) :=
  ⟨(consistent hrun).replies_length_le replyHandler,
    fun hcompleted => (consistent hrun).replies_eq_one_iff hcompleted⟩

section Samples

omit [Foundation]

/-- A message asks for sources, and the download ends with three. -/
def sourcesAsked : letI : Foundation := .sample; List Action :=
  letI : Foundation := .sample
  .receive [("request", .string "sources")] :: List.replicate 4 .main ++
    .complete 0 ⟨some sampleSourcesBody, some (.http 200), none⟩ :: List.replicate 7 .main

theorem sourcesAsked_replied :
    letI : Foundation := .sample
    (Execution.execute step (start "NewsDay") sourcesAsked).any (fun final =>
      final.main.running.isNone && final.main.queue.isEmpty && final.todo.isNone &&
        final.retrievals.isEmpty && (Tagged.ownedBy 0 final.replies).length == 1 &&
          final.main.setResultCalls.map Prod.fst == [0] &&
            match final.handled with
            | [(0, .news _ _ 0)] => true
            | _ => false) = true := by
  decide +kernel

theorem reply_iff_sources :
    letI : Foundation := .sample
    ∃ final, Execution.execute step (start "NewsDay") sourcesAsked = some final ∧
      (Tagged.ownedBy 0 final.replies).length = 1 ∧ final.Completed 0 ∧
        final.Answerable "NewsDay" 0 := by
  let _ : Foundation := .sample
  obtain ⟨final, hrun, hreplied⟩ := (Option.any_eq_true _ _).mp sourcesAsked_replied
  simp only [Bool.and_eq_true, Option.isNone_iff_eq_none, List.isEmpty_iff, beq_iff_eq]
    at hreplied
  obtain ⟨⟨⟨⟨⟨⟨hrunning, hqueue⟩, htodo⟩, hretrievals⟩, hreplies⟩, hset⟩, hhandled⟩ := hreplied
  split at hhandled
  case h_2 => exact absurd hhandled Bool.false_ne_true
  case h_1 call callback hentries =>
    have hcompleted : final.Completed 0 := by
      refine ⟨?_, ?_, ?_⟩
      · rw [hentries]
        exact List.mem_singleton_self _
      · intro call' callback' request hentry
        rw [hentries, List.mem_singleton] at hentry
        obtain ⟨-, -, rfl⟩ := Handled.news.inj (Prod.mk.inj hentry).2
        refine (consistent hrun).finished_of_drained ⟨hrunning, hqueue⟩ htodo ?_
        rw [hset]
        exact List.mem_singleton_self _
      · rw [hretrievals]
        exact List.not_mem_nil
    exact ⟨final, hrun, hreplies, hcompleted, ((reply_iff hrun 0).2 hcompleted).mp hreplies⟩

/-- A request for an image that names no URL. -/
theorem image_without_url_unanswered :
    letI : Foundation := .sample
    ¬ ∀ (schedule : List Action) (final : Phone) (replyHandler : Nat),
      Execution.execute step (start "NewsDay") schedule = some final →
        final.Completed replyHandler →
          (Tagged.ownedBy replyHandler final.replies).length = 1 := by
  let _ : Foundation := .sample
  intro hanswered
  have hreplies := hanswered [.receive [("request", .string "image")], .main, .main] _ 0 rfl
    ⟨List.mem_singleton_self _, ?_, List.not_mem_nil⟩
  · exact absurd hreplies (by decide)
  · intro call callback request hentry
    exact absurd (List.mem_singleton.mp hentry) (by simp)

end Samples

end Phone

end NewsDay
