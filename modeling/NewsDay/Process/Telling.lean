import NewsDay.Process.Rest
import NewsDay.Process.WatchSettling

/-! # What the watch has been told

Once nothing is left to be done, every request of the watch has been sent and
its message has been handled. If the phone holds something for it, the phone has
replied, and the watch has passed the reply on to all who wait for it. The
exceptions are an error that the session reports, and headlines asked for
without a limit.
-/

namespace NewsDay

open Foundation AsyncRequest

variable [Foundation]

/-! ## The watch -/

namespace Watch

variable {modulePrefix : String} {schedule : List Action} {watch next : Watch}

/-- What has become of the messages that are not awaited any more. -/
structure Handling (watch : Watch) : Prop where
  bounded : ∀ index reply, (index, reply) ∈ watch.replied → index < watch.sent.length
  /-- A handler has run. -/
  handled : ∀ (index : Nat) (sent : SentMessage), watch.sent[index]? = some sent →
    index ∉ watch.awaiting → (∃ reply, (index, reply) ∈ watch.replied) ∨
      ∃ error, (sent.asyncRequest, none, some error) ∈ watch.main.setResultCalls
  /-- What a reply decodes to is passed on. -/
  decoded : ∀ (index : Nat) (sent : SentMessage) (reply : Message),
    watch.sent[index]? = some sent → (index, reply) ∈ watch.replied →
      ∃ tables, ∀ tables' result error,
        sent.request.replied reply tables = .ok (tables', some (result, error)) →
          (sent.asyncRequest, result, error) ∈ watch.main.setResultCalls

theorem Handling.start (modulePrefix : String) : Handling (start modulePrefix) where
  bounded := by
    intro index reply hreplied
    exact absurd hreplied List.not_mem_nil
  handled := by
    intro index sent hsent
    exact absurd hsent.symm (Option.some_ne_none sent)
  decoded := by
    intro index sent reply hsent
    exact absurd hsent.symm (Option.some_ne_none sent)

/-- A step that runs no handler may settle requests. -/
theorem Handling.keep (hhandling : watch.Handling) (hsent : next.sent = watch.sent)
    (hawaiting : next.awaiting = watch.awaiting) (hreplied : next.replied = watch.replied)
    (hcalls : watch.main.setResultCalls ⊆ next.main.setResultCalls) : next.Handling where
  bounded := by
    rw [hsent, hreplied]
    exact hhandling.bounded
  handled := by
    rw [hsent, hawaiting, hreplied]
    intro index sent hindex hnot
    rcases hhandling.handled index sent hindex hnot with hanswered | ⟨error, hcall⟩
    · exact .inl hanswered
    · exact .inr ⟨error, hcalls hcall⟩
  decoded := by
    rw [hsent, hreplied]
    intro index sent reply hindex hanswered
    obtain ⟨tables, hpassed⟩ := hhandling.decoded index sent reply hindex hanswered
    refine ⟨tables, ?_⟩
    intro tables' result error hread
    exact hcalls (hpassed tables' result error hread)

/-- A new message is awaited. -/
theorem Handling.send (hhandling : watch.Handling) (sent : SentMessage)
    (hsent : next.sent = watch.sent ++ [sent])
    (hawaiting : next.awaiting = watch.awaiting ++ [watch.sent.length])
    (hreplied : next.replied = watch.replied)
    (hcalls : next.main.setResultCalls = watch.main.setResultCalls) : next.Handling where
  bounded := by
    rw [hsent, hreplied]
    intro index reply hanswered
    rw [List.length_append]
    exact Nat.lt_add_right _ (hhandling.bounded index reply hanswered)
  handled := by
    rw [hsent, hawaiting, hreplied, hcalls]
    intro index earlier hindex hnot
    rw [List.mem_append, not_or] at hnot
    rcases Execution.getElem?_concat_eq_some.mp hindex with hold | ⟨rfl, -⟩
    · exact hhandling.handled index earlier hold hnot.1
    · exact absurd (List.mem_singleton_self _) hnot.2
  decoded := by
    rw [hsent, hreplied, hcalls]
    intro index earlier reply hindex hanswered
    rcases Execution.getElem?_concat_eq_some.mp hindex with hold | ⟨rfl, -⟩
    · exact hhandling.decoded index earlier reply hold hanswered
    · exact absurd (hhandling.bounded _ reply hanswered) (Nat.lt_irrefl _)

/-- A handler runs, of a reply or of an error. -/
theorem Handling.arrive (hhandling : watch.Handling) {index : Nat} {sent : SentMessage}
    (hawaited : watch.awaited index = some sent) {replied : List (Nat × Message)}
    (hsent : next.sent = watch.sent) (hawaiting : next.awaiting = watch.awaiting.erase index)
    (hreplied : next.replied = watch.replied ++ replied)
    (hindex : ∀ entry ∈ replied, entry.1 = index)
    (hcalls : watch.main.setResultCalls ⊆ next.main.setResultCalls)
    (hhandled : replied ≠ [] ∨
      ∃ error, (sent.asyncRequest, none, some error) ∈ next.main.setResultCalls)
    (hdecoded : ∀ reply, (index, reply) ∈ replied → ∃ tables, ∀ tables' result error,
      sent.request.replied reply tables = .ok (tables', some (result, error)) →
        (sent.asyncRequest, result, error) ∈ next.main.setResultCalls) : next.Handling := by
  have hthere := (awaited_eq_some.mp hawaited).2
  refine { bounded := ?_, handled := ?_, decoded := ?_ }
  · rw [hsent, hreplied]
    intro other reply hanswered
    rcases List.mem_append.mp hanswered with hold | hnew
    · exact hhandling.bounded other reply hold
    · obtain rfl : other = index := hindex _ hnew
      exact (List.getElem?_eq_some_iff.mp hthere).1
  · rw [hsent, hawaiting, hreplied]
    intro other earlier hother hnot
    by_cases hsame : other = index
    · subst hsame
      obtain rfl : sent = earlier := Option.some.inj (hthere.symm.trans hother)
      rcases hhandled with hanswered | herror
      · obtain ⟨⟨owner, reply⟩, hentry⟩ := List.exists_mem_of_ne_nil replied hanswered
        obtain rfl : owner = other := hindex _ hentry
        exact .inl ⟨reply, List.mem_append_right _ hentry⟩
      · exact .inr herror
    · have hstill : other ∉ watch.awaiting := by
        intro hmem
        exact hnot ((List.mem_erase_of_ne hsame).mpr hmem)
      rcases hhandling.handled other earlier hother hstill with ⟨reply, hanswered⟩ | ⟨error, hcall⟩
      · exact .inl ⟨reply, List.mem_append_left _ hanswered⟩
      · exact .inr ⟨error, hcalls hcall⟩
  · rw [hsent, hreplied]
    intro other earlier reply hother hanswered
    rcases List.mem_append.mp hanswered with hold | hnew
    · obtain ⟨tables, hpassed⟩ := hhandling.decoded other earlier reply hother hold
      refine ⟨tables, ?_⟩
      intro tables' result error hread
      exact hcalls (hpassed tables' result error hread)
    · obtain rfl : other = index := hindex _ hnew
      obtain rfl : sent = earlier := Option.some.inj (hthere.symm.trans hother)
      exact hdecoded reply hnew

/-- The handler of a reply passes on what it decodes. -/
theorem handleReply_passes (index : Nat) (sent : SentMessage) (reply : Message)
    {tables : ModelTables} {result : Option AnyValue} {error : Option ErrorValue}
    (hread : sent.request.replied reply watch.tables = .ok (tables, some (result, error))) :
    (sent.asyncRequest, result, error) ∈
      (watch.handleReply index sent reply).main.setResultCalls := by
  unfold handleReply
  simp [hread]

theorem Handling.step
    (hrun : Execution.execute Watch.step (Watch.start modulePrefix) schedule = some watch)
    (hhandling : watch.Handling) {action : Action} (hnext : watch.step action = some next) :
    next.Handling := by
  cases (step_step hnext).2 with
  | get request => exact hhandling.keep rfl rfl rfl (by simp [Watch.get])
  | listen index hindex => exact hhandling.keep rfl rfl rfl (by simp)
  | activate => exact hhandling.keep rfl rfl rfl (by simp)
  | reach isReachable => exact hhandling.keep rfl rfl rfl (List.Subset.refl _)
  | reply index sent reply hawaited =>
      have hpasses : ∀ tables result error,
          sent.request.replied reply watch.tables = .ok (tables, some (result, error)) →
            (sent.asyncRequest, result, error) ∈
              (watch.handleReply index sent reply).main.setResultCalls :=
        fun _ _ _ => watch.handleReply_passes index sent reply
      rcases watch.handleReply_cases index sent reply with
        ⟨tables, halted, heq⟩ | ⟨tables, result, error, -, heq⟩
      · rw [heq] at hpasses ⊢
        refine hhandling.arrive hawaited rfl rfl rfl (by simp) (List.Subset.refl _)
          (.inl (List.cons_ne_nil _ _)) ?_
        intro other hother
        obtain ⟨-, rfl⟩ := Prod.mk.inj (List.mem_singleton.mp hother)
        exact ⟨watch.tables, hpasses⟩
      · rw [heq] at hpasses ⊢
        refine hhandling.arrive hawaited rfl rfl rfl (by simp) (by simp)
          (.inl (List.cons_ne_nil _ _)) ?_
        intro other hother
        obtain ⟨-, rfl⟩ := Prod.mk.inj (List.mem_singleton.mp hother)
        exact ⟨watch.tables, hpasses⟩
  | fail index sent error hawaited =>
      refine hhandling.arrive hawaited rfl rfl (List.append_nil _).symm (by simp) ?_ (.inr ?_) ?_
      · simp [handleError]
      · exact ⟨error, by simp [handleError]⟩
      · intro reply hreply
        exact absurd hreply List.not_mem_nil
  | idle main hmain hstarting hinvoking =>
      have hcalls := (MainQueue.mainStep_advanced hmain).setResultCalls
      exact hhandling.keep rfl rfl rfl (by simp [hcalls])
  | activated main hmain hstarting =>
      have hcalls := (MainQueue.mainStep_advanced hmain).setResultCalls
      rcases activated_cases { watch with main } with ⟨-, heq⟩ | ⟨-, heq⟩
      · rw [heq]
        exact hhandling.keep rfl rfl rfl (by simp [hcalls])
      · rw [heq]
        exact hhandling.keep rfl rfl rfl (by simp [hcalls])
  | send main owner request asyncRequest anySession error hmain hstarting hinvoking =>
      have hcalls := (MainQueue.mainStep_advanced hmain).setResultCalls
      have hthere := invoking_session hrun hinvoking
      rcases send_cases { watch with main } anySession request asyncRequest with
        ⟨hsession, -⟩ | ⟨-, tables, message, -, heq⟩
      · exact absurd (hsession.symm.trans hthere) (Option.some_ne_none _).symm
      · rw [heq]
        exact hhandling.send _ rfl rfl rfl hcalls

theorem handling (hrun : Execution.execute step (start modulePrefix) schedule = some watch) :
    watch.Handling := by
  refine Execution.execute_induction (motive := fun _ watch => watch.Handling)
    (.start modulePrefix) ?_ hrun
  intro schedule state action next hbefore hhandling hnext
  exact hhandling.step hbefore hnext

/-- The request of a call is set at most once. -/
theorem settlementsOf_length_le
    (hrun : Execution.execute step (start modulePrefix) schedule = some watch) (index : Nat) :
    (watch.settlementsOf (requestOf index)).length ≤ 1 := by
  refine Execution.execute_induction (motive := fun _ watch =>
    (settlementsOf watch (requestOf index)).length ≤ 1) ?_ ?_ hrun
  · exact Nat.zero_le 1
  intro schedule state action next hbefore hsingle hnext
  cases step_progress hbefore hnext with
  | quiet added hawaiting hsent hcalls =>
      have hother : asyncSession ≠ requestOf index := (Nat.succ_ne_zero index).symm
      rw [settlementsOf, hcalls, Tagged.ownedBy_append, Tagged.ownedBy_map_ne hother,
        List.append_nil]
      exact hsingle
  | sends sent hawaiting hsent hcalls =>
      rw [settlementsOf, hcalls]
      exact hsingle
  | answers position sent call hawaited hawaiting hsent hcalls =>
      rw [settlementsOf, hcalls, Tagged.ownedBy_append]
      by_cases howner : sent.asyncRequest = requestOf index
      · have hbefore' : Tagged.ownedBy sent.asyncRequest state.main.setResultCalls = [] :=
          settlementsOf_awaited hbefore hawaited
        rw [← howner, hbefore', Tagged.ownedBy_map_self]
        cases call with
        | none => exact Nat.zero_le 1
        | some call => exact Nat.le_refl 1
      · rw [Tagged.ownedBy_map_ne howner, List.append_nil]
        exact hsingle

/-- The request of a call holds the value, and every callback registered with
it has been invoked with it. -/
def Told (watch : Watch) (index : Nat) (value : AnyValue) : Prop :=
  (watch.main.requests (requestOf index)).result = some value ∧
    ∀ callback, (requestOf index, callback) ∈ watch.main.withResultCalls →
      (requestOf index, callback, some value, none) ∈ watch.main.callbackCalls

theorem told_of_settled
    (hrun : Execution.execute step (start modulePrefix) schedule = some watch)
    (hdrained : watch.main.Drained) {index : Nat} {value : AnyValue}
    (hcall : (requestOf index, some value, none) ∈ watch.main.setResultCalls) :
    watch.Told index value := by
  have hsound := (consistent hrun).main
  have hsingle := settlementsOf_length_le hrun index
  rw [settlementsOf, ← MainQueue.setResults_events] at hsingle
  constructor
  · exact (Prod.mk.inj (hsound.drained_fields hdrained hsingle hcall)).1
  · intro callback hregistered
    have hset : setResults (watch.main.events (requestOf index)) ≠ [] := by
      rw [MainQueue.setResults_events]
      exact List.ne_nil_of_mem (Tagged.mem_ownedBy.mpr hcall)
    obtain ⟨result, error, hcalled⟩ := hsound.drained_called hdrained hset hregistered
    -- the request was set once, so with this pair
    have hpair := hsound.callback_called hcalled
    rw [MainQueue.setResults_events] at hsingle
    obtain ⟨rfl, rfl⟩ := Prod.mk.inj (RequestView.pair_unique hsingle
      (Tagged.mem_ownedBy.mpr hpair) (Tagged.mem_ownedBy.mpr hcall))
    exact hcalled

end Watch

/-! ## The phone -/

namespace Phone

variable {modulePrefix : String} {schedule : List Action} {phone next : Phone}

/-- No callback has been invoked with sources in too many groups. -/
def Countable (phone : Phone) : Prop :=
  ∀ request replyHandler sources error,
    (request, .server replyHandler .sources, some (.categorizedSources sources), error) ∈
      phone.main.callbackCalls → sources.details.length < 2 ^ 31

theorem Countable.of_calls (hcountable : phone.Countable)
    (hcalls : next.main.callbackCalls = phone.main.callbackCalls) : next.Countable := by
  intro request replyHandler sources error hcall
  rw [hcalls] at hcall
  exact hcountable request replyHandler sources error hcall

theorem Countable.step (hcountable : phone.Countable) (hstep : Step phone next)
    (hrunning : next.halted = none) : next.Countable := by
  cases hstep with
  | idle main htodo hmain hstarting hinvoking =>
      intro request replyHandler sources error hcall
      rw [(MainQueue.mainStep_advanced hmain).callbackCalls] at hcall
      rcases List.mem_append.mp hcall with hold | hnew
      · exact hcountable request replyHandler sources error hold
      · exact absurd (Option.mem_toList.mp hnew) (hinvoking _ _ _ _ _)
  | answer main owner handler callback result reason htodo hmain hstarting hinvoking =>
      obtain ⟨_, _, _, hframe⟩ := answer_frame { phone with main } handler callback result
      intro request replyHandler sources error hcall
      rw [hframe, (MainQueue.mainStep_advanced hmain).callbackCalls, hinvoking] at hcall
      rcases List.mem_append.mp hcall with hold | hnew
      · exact hcountable request replyHandler sources error hold
      · -- this callback would have stopped the phone
        by_contra hcount
        simp only [Option.toList_some, List.mem_singleton, Prod.mk.injEq,
          PhoneCallback.server.injEq] at hnew
        obtain ⟨rfl, ⟨rfl, rfl⟩, rfl, rfl⟩ := hnew
        have htrap := sources.keyedArchive_overflow phone.tables (Nat.le_of_not_lt hcount)
        simp [Phone.answer, WatchServer.Callback.reply, WatchServer.sourcesReply,
          AnyValue.asCategorizedSources, htrap, bind, Except.bind] at hrunning
  | ask main call htodo hmain hstarting =>
      refine hcountable.of_calls ?_
      simp [getNews, (MainQueue.mainStep_advanced hmain).callbackCalls,
        MainQueue.starting_invoking hstarting]
  | handle main message replyHandler htodo hmain hstarting =>
      have hcalls : main.callbackCalls = phone.main.callbackCalls := by
        simp [(MainQueue.mainStep_advanced hmain).callbackCalls,
          MainQueue.starting_invoking hstarting]
      rcases handle_frame { phone with main } message replyHandler with
        ⟨_, _, _, _, _, heq⟩ | ⟨_, _, _, _, heq⟩
      · rw [heq]
        exact hcountable.of_calls hcalls
      · rw [heq]
        exact hcountable.of_calls hcalls
  | _ => exact hcountable.of_calls (by simp)

theorem countable (hrun : Execution.execute step (start modulePrefix) schedule = some phone)
    (hrunning : phone.halted = none) : phone.Countable := by
  refine Execution.execute_induction
    (motive := fun _ phone => phone.halted = none → phone.Countable) ?_ ?_ hrun hrunning
  · intro _ request replyHandler sources error hcall
    exact absurd hcall List.not_mem_nil
  · intro schedule state action next hbefore hcountable hnext hrunning'
    obtain ⟨hstate, hstep⟩ := step_step hnext
    exact (hcountable hstate).step hstep hrunning'

/-- The place for sources holds sources, and every other place articles. -/
theorem held_kind (hrun : Execution.execute step (Phone.start modulePrefix) schedule = some phone)
    {slot : NewsApi.Slot} {occupant : Nat} {value : AnyValue}
    (hoccupant : phone.news.api.occupant slot = some occupant)
    (hheld : (phone.main.requests occupant).result = some value) :
    (slot = .sources ∧ ∃ sources, value = .categorizedSources sources) ∨
      (slot ≠ .sources ∧ ∃ articles, value = .ofArticles articles) := by
  obtain ⟨download, task, outcome, hslot, -, -, hyields⟩ :=
    downloaded_of_held hrun hoccupant hheld
  cases hyields with
  | sources entries hanswers =>
      cases slot with
      | sources => exact .inl ⟨rfl, _, rfl⟩
      | keyed key => exact absurd hslot nofun
  | articles source articles hlists =>
      cases slot with
      | sources => exact absurd hslot nofun
      | keyed key => exact .inr ⟨nofun, articles, rfl⟩
  | headlines country limit articles hlists =>
      cases slot with
      | sources => exact absurd hslot nofun
      | keyed key => exact .inr ⟨nofun, articles, rfl⟩

/-- A phone that runs and has handled a message for news it holds has replied. -/
theorem replied_of_held (hfaithful : ArchivesFaithfully)
    (hrun : Execution.execute step (start modulePrefix) schedule = some phone)
    (hrunning : phone.halted = none) (htodo : phone.todo = none) (hdrained : phone.main.Drained)
    {replyHandler occupant : Nat} {call : NewsApi.Call} {callback : WatchServer.Callback}
    {value : AnyValue} (hentry : (replyHandler, .news call callback occupant) ∈ phone.handled)
    (hheld : (phone.main.requests occupant).result = some value) :
    ∃ reply, (replyHandler, reply) ∈ phone.replies := by
  have hphone := consistent hrun
  have hset : setResults (phone.main.events occupant) ≠ [] := by
    obtain ⟨error, hcall⟩ := hphone.main.result_called hheld
    rw [MainQueue.setResults_events]
    exact List.ne_nil_of_mem (Tagged.mem_ownedBy.mpr hcall)
  -- the block of the message has registered the callback, which has been called
  have hregistered : (occupant, .server replyHandler callback) ∈ phone.main.withResultCalls := by
    have hmem : (replyHandler, callback, occupant) ∈ Tagged.select Handled.news? phone.handled :=
      Tagged.mem_select.mpr ⟨_, hentry, rfl⟩
    rw [← hphone.messages.registered, htodo, Option.toList_none, List.append_nil] at hmem
    exact mem_serverCalls.mp hmem
  obtain ⟨result, error, hcalled⟩ := hphone.main.drained_called hdrained hset hregistered
  obtain rfl := (hphone.callback_pair hcalled).trans hheld
  have harchivable : callback.Archivable (some value) := by
    obtain ⟨message, -, hreads⟩ := hphone.message_of hentry
    have hplaced := hphone.news.coherent.placed call occupant
      (hphone.messages.returned replyHandler call callback occupant hentry)
    rcases held_kind hrun hplaced hheld with ⟨hslot, sources, rfl⟩ | ⟨hslot, articles, rfl⟩
    · cases hreads with
      | sources hname =>
          obtain ⟨data, hdata, -⟩ := hfaithful (sources.archived "CategorizedSources")
          exact ⟨sources, data, rfl, countable hrun hrunning _ _ _ _ hcalled, hdata⟩
      | articles => exact absurd hslot nofun
      | headlines => exact absurd hslot nofun
    · obtain ⟨data, hdata, -⟩ := hfaithful (.array (articles.map (Article.archived "Article")))
      cases hreads with
      | sources hname => exact absurd rfl hslot
      | articles => exact ⟨articles, data, AnyValue.asArray_ofArticles articles, hdata⟩
      | headlines => exact ⟨articles, data, AnyValue.asArray_ofArticles articles, hdata⟩
  obtain ⟨reply, hreply⟩ := Option.isSome_iff_exists.mp
    ((WatchServer.Callback.replyFor_isSome_iff callback _).mpr harchivable)
  refine ⟨reply, ?_⟩
  have hmade : (replyHandler, reply) ∈ callbackReplies phone.main.callbackCalls :=
    mem_callbackReplies.mpr ⟨occupant, callback, _, error, hcalled, hreply⟩
  have hreplied : (replyHandler, reply) ∈ (phone.replies : Multiset (Nat × Message)) := by
    rw [hphone.messages.replied]
    exact Multiset.mem_add.mpr (.inl (Multiset.mem_add.mpr (.inr hmade)))
  exact hreplied

end Phone

/-! ## The two together -/

/-- The phone reads a message for news as it is meant, if the message does not
ask for headlines without a limit. -/
theorem WatchRequest.reads_of_message (hfaithful : ArchivesFaithfully) {request : WatchRequest}
    {slot : NewsApi.Slot} (hslot : request.slot = some slot)
    (hlimited : ∀ country, request ≠ .headlines country none) {made made' : ModelTables}
    {message : Message} (hmessage : request.message made = .ok (made', message))
    (modulePrefix : String) : WatchServer.Reads modulePrefix message request.intended := by
  have hread : ∀ {tables' handling}, WatchServer.didReceiveMessage message
      (processTables modulePrefix) = .ok (tables', handling) → handling ≠ .dropped →
        WatchServer.Reads modulePrefix message handling := by
    intro tables' handling hhandled hkept
    exact (WatchServer.didReceiveMessage_reads (.start modulePrefix) hhandled).2.resolve_left hkept
  cases request with
  | sources =>
      obtain ⟨-, rfl⟩ := Prod.mk.inj (Except.ok.inj hmessage)
      exact hread (WatchServer.didReceiveMessage_sources _) nofun
  | articles source =>
      obtain ⟨_, data, harticles, hcontents⟩ := WatchClient.articlesMessage_eq hfaithful source made
      obtain ⟨-, rfl⟩ := Prod.mk.inj (Except.ok.inj (harticles.symm.trans hmessage))
      have hsource := source.keyedUnarchive_archived (processTables modulePrefix) hcontents
      exact hread (WatchServer.didReceiveMessage_articles _ hsource) nofun
  | image url => exact absurd hslot.symm (Option.some_ne_none slot)
  | headlines country limit =>
      obtain ⟨-, rfl⟩ := Prod.mk.inj (Except.ok.inj hmessage)
      cases limit with
      | none => exact absurd rfl (hlimited country)
      | some limit => exact hread (WatchServer.didReceiveMessage_headlines _ country limit) nofun

namespace Connection

variable {watchPrefix phonePrefix : String} {schedule : List Action} {final : Connection}
  {index : Nat} {request : WatchRequest} {slot : NewsApi.Slot} {value : AnyValue}

/-- Once the session is there, every call has sent its message. -/
theorem sent_at_rest
    (hrun : Execution.execute step (start watchPrefix phonePrefix) schedule = some final)
    (hdrained : final.watch.main.Drained) (hsession : final.watch.sessionCalls ≠ [])
    (hasked : final.watch.asked[index]? = some request) :
    ∃ sent, final.watch.sent[index]? = some sent ∧ sent.request = request ∧
      sent.asyncRequest = Watch.requestOf index := by
  obtain ⟨watchSchedule, hwatchRun⟩ := watch_reachable hrun
  have hwatch := Watch.consistent hwatchRun
  have hset : setResults (final.watch.main.events Watch.asyncSession) ≠ [] := by
    rw [MainQueue.setResults_events]
    exact hsession
  have hall : final.watch.sendings = final.watch.calls := by
    rw [Watch.sendings_eq_invoked hwatchRun, hwatch.main.drained_invoked hdrained hset,
      hwatch.messages.waiting]
  have hlength : final.watch.sent.length = final.watch.asked.length := by
    simpa [Watch.sendings, Watch.calls] using congrArg List.length hall
  have hbound := (List.getElem?_eq_some_iff.mp hasked).1
  have hsent := List.getElem?_eq_getElem (hlength ▸ hbound)
  obtain ⟨hasked', hrequest⟩ := Watch.sent_call hwatchRun hsent
  exact ⟨_, hsent, Option.some.inj (hasked'.symm.trans hasked), hrequest⟩

/-- A message for news that the phone holds is not awaited at rest. -/
theorem not_awaited_at_rest (hfaithful : ArchivesFaithfully)
    (hrun : Execution.execute step (start watchPrefix phonePrefix) schedule = some final)
    (hrest : final.AtRest) (hrunning : final.phone.halted = none)
    (hslot : request.slot = some slot) (hlimited : ∀ country, request ≠ .headlines country none)
    {sent : SentMessage} (hsent : final.watch.sent[index]? = some sent)
    (hrequest : sent.request = request) {occupant : Nat}
    (hoccupant : final.phone.news.api.occupant slot = some occupant)
    (hheld : (final.phone.main.requests occupant).result = some value) :
    index ∉ final.watch.awaiting := by
  subst hrequest
  obtain ⟨watchSchedule, hwatchRun⟩ := watch_reachable hrun
  obtain ⟨phoneSchedule, hphoneRun⟩ := phone_reachable hrun
  have hphone := Phone.consistent hphoneRun
  obtain ⟨made, made', hmessage⟩ :=
    (Watch.consistent hwatchRun).messages.made sent (List.mem_of_getElem? hsent)
  -- the message has been delivered
  obtain ⟨replyHandler, hdelivered⟩ := List.mem_iff_getElem?.mp
    (hrest.delivered index (List.getElem?_eq_some_iff.mp hsent).1)
  obtain ⟨sent', hsent', hreceived⟩ := (ledger hrun).arrived replyHandler index hdelivered
  obtain rfl : sent' = sent := Option.some.inj (hsent'.symm.trans hsent)
  -- its block has run
  have hmem : replyHandler ∈ final.phone.handled.map Prod.fst := by
    have hfifo := hphone.messages.fifo
    have hqueued : queuedMessages final.phone.main = [] := by
      simp [queuedMessages, MainQueue.works, hrest.phone.2]
    rw [hqueued, List.map_nil, List.append_nil] at hfifo
    rw [hfifo]
    exact List.mem_range.mpr (List.getElem?_eq_some_iff.mp hreceived).1
  obtain ⟨⟨handler, entry⟩, hentry, rfl⟩ := List.mem_map.mp hmem
  obtain ⟨message, hreceived', hexplains⟩ := hphone.message_of hentry
  obtain rfl := Option.some.inj (hreceived.symm.trans hreceived')
  obtain ⟨call, callback, hintended, hplace⟩ := WatchRequest.intended_of_slot hslot
  have hreads := WatchRequest.reads_of_message hfaithful hslot hlimited hmessage phonePrefix
  rw [hintended] at hreads
  -- it has asked for the news, and the phone has replied
  cases entry with
  | trapped => exact absurd hreads (hexplains _)
  | dropped => exact absurd hreads (hexplains _)
  | replied reply => cases hreads.unique hexplains
  | image url => cases hreads.unique hexplains
  | news call' callback' occupant' =>
      obtain ⟨rfl, rfl⟩ := WatchServer.Handling.news.inj (hreads.unique hexplains)
      have hplaced := hphone.news.coherent.placed call occupant'
        (hphone.messages.returned handler call callback occupant' hentry)
      rw [hplace, hoccupant] at hplaced
      obtain rfl := Option.some.inj hplaced
      obtain ⟨reply, hreply⟩ := Phone.replied_of_held hfaithful hphoneRun hrunning hrest.todo
        hrest.phone hentry hheld
      exact hrest.answered handler reply index hreply hdelivered

/-- At rest a request of the watch has been told what the phone holds for it. -/
theorem told_of_held (hfaithful : ArchivesFaithfully)
    (hrun : Execution.execute step (start watchPrefix phonePrefix) schedule = some final)
    (hrest : final.AtRest) (hrunning : final.phone.halted = none)
    (hsession : final.watch.sessionCalls ≠ [])
    (hasked : final.watch.asked[index]? = some request) (hslot : request.slot = some slot)
    (hlimited : ∀ country, request ≠ .headlines country none)
    (herror : ∀ error,
      (Watch.requestOf index, none, some error) ∉ final.watch.main.setResultCalls)
    {occupant : Nat} (hoccupant : final.phone.news.api.occupant slot = some occupant)
    (hheld : (final.phone.main.requests occupant).result = some value) :
    final.watch.Told index value := by
  obtain ⟨watchSchedule, hwatchRun⟩ := watch_reachable hrun
  obtain ⟨phoneSchedule, hphoneRun⟩ := phone_reachable hrun
  obtain ⟨sent, hsent, rfl, hrequest⟩ := sent_at_rest hrun hrest.watch hsession hasked
  have hnot := not_awaited_at_rest hfaithful hrun hrest hrunning hslot hlimited hsent rfl
    hoccupant hheld
  have hhandling := Watch.handling hwatchRun
  rcases hhandling.handled index sent hsent hnot with ⟨reply, hreplied⟩ | ⟨error, hcall⟩
  · -- the reply is that of the callback to the value
    obtain ⟨replyHandler, hreply, hdelivered⟩ := (ledger hrun).answered index reply hreplied
    obtain ⟨sent', hsent', hreceived⟩ := (ledger hrun).arrived replyHandler index hdelivered
    obtain rfl : sent' = sent := Option.some.inj (hsent'.symm.trans hsent)
    obtain ⟨made, made', hmessage⟩ :=
      (Watch.consistent hwatchRun).messages.made sent' (List.mem_of_getElem? hsent)
    obtain ⟨call, callback, occupant', hintended, hoccupant', hmade⟩ :=
      (Phone.consistent hphoneRun).news_reply hfaithful hreply hreceived hslot hmessage
    obtain rfl := Option.some.inj (hoccupant.symm.trans hoccupant')
    rw [hheld] at hmade
    obtain ⟨tables, hpassed⟩ := hhandling.decoded index sent' reply hsent hreplied
    obtain ⟨tables', hread⟩ := WatchRequest.replied_replyFor hfaithful hintended hmade tables
    have hcall := hpassed tables' (some value) none hread
    rw [hrequest] at hcall
    exact Watch.told_of_settled hwatchRun hrest.watch hcall
  · rw [hrequest] at hcall
    exact absurd hcall (herror error)

/-- At rest a request of the watch has been told exactly what the phone holds
for it. -/
theorem told_at_rest_iff (hfaithful : ArchivesFaithfully)
    (hrun : Execution.execute step (start watchPrefix phonePrefix) schedule = some final)
    (hrest : final.AtRest) (hrunning : final.phone.halted = none)
    (hsession : final.watch.sessionCalls ≠ [])
    (hasked : final.watch.asked[index]? = some request) (hslot : request.slot = some slot)
    (hlimited : ∀ country, request ≠ .headlines country none)
    (herror : ∀ error,
      (Watch.requestOf index, none, some error) ∉ final.watch.main.setResultCalls)
    (value : AnyValue) :
    final.watch.Told index value ↔
      ∃ occupant, final.phone.news.api.occupant slot = some occupant ∧
        (final.phone.main.requests occupant).result = some value := by
  constructor
  · rintro ⟨hresult, -⟩
    exact (value_supplied hfaithful hrun hasked (.inl hresult)).of_slot hslot
  · rintro ⟨occupant, hoccupant, hheld⟩
    exact told_of_held hfaithful hrun hrest hrunning hsession hasked hslot hlimited herror
      hoccupant hheld

/-! ### Checking that two processes are at rest -/

/-- The two processes run and are at rest, and every message was answered. -/
structure Served (connection : Connection) : Prop where
  rest : connection.AtRest
  running : connection.phone.halted = none
  session : connection.watch.sessionCalls ≠ []
  errors : ∀ index error,
    (Watch.requestOf index, none, some error) ∉ connection.watch.main.setResultCalls

def isServed (connection : Connection) : Bool :=
  connection.watch.main.running.isNone && connection.watch.main.queue.isEmpty &&
    connection.phone.main.running.isNone && connection.phone.main.queue.isEmpty &&
      connection.phone.todo.isNone && connection.phone.halted.isNone &&
        (List.range connection.watch.sent.length).all (connection.delivered.contains ·) &&
          connection.watch.awaiting.isEmpty && !connection.watch.sessionCalls.isEmpty &&
            connection.watch.main.setResultCalls.all (fun call => call.2.2.isNone)

theorem served_of_isServed {connection : Connection} (hserved : connection.isServed = true) :
    connection.Served := by
  simp only [isServed, Bool.and_eq_true, Option.isNone_iff_eq_none, List.isEmpty_iff,
    Bool.not_eq_true', List.all_eq_true, List.mem_range] at hserved
  obtain ⟨⟨⟨⟨⟨⟨⟨⟨⟨hwatch, hwatchQueue⟩, hphone⟩, hphoneQueue⟩, htodo⟩, hrunning⟩, hdelivered⟩,
    hawaiting⟩, hsession⟩, herrors⟩ := hserved
  refine ⟨⟨⟨hwatch, hwatchQueue⟩, ⟨hphone, hphoneQueue⟩, htodo, ?_, ?_⟩, hrunning, ?_, ?_⟩
  · intro index hindex
    exact List.contains_iff_mem.mp (hdelivered index hindex)
  · intro replyHandler reply index _ _
    rw [hawaiting]
    exact List.not_mem_nil
  · intro hnone
    rw [hnone] at hsession
    cases hsession
  · intro index error hcall
    exact absurd (herrors _ hcall) (Option.some_ne_none error)

section Samples

omit [Foundation]

/-- The schedule in which the watch asks for sources, until nothing is left to
be done. -/
def restedSchedule : letI : Foundation := .sample; List Action :=
  letI : Foundation := .sample
  sourcesSchedule ++ List.replicate 3 (.watch .main) ++ [.phone .main]

theorem restedSchedule_rests :
    letI : Foundation := .sample
    (Execution.execute step (start "Watch" "NewsDay") restedSchedule).any (fun final =>
      final.isServed && final.watch.asked.head?.any fun request =>
        match request with
        | .sources => true
        | _ => false) = true := by
  decide +kernel

theorem told_at_rest_iff_sources :
    letI : Foundation := .sample
    ∃ final, Execution.execute step (start "Watch" "NewsDay") restedSchedule = some final ∧
      (final.watch.Told 0 (.categorizedSources sampleSources) ↔
        ∃ occupant, final.phone.news.api.occupant .sources = some occupant ∧
          (final.phone.main.requests occupant).result =
            some (.categorizedSources sampleSources)) := by
  let _ : Foundation := .sample
  obtain ⟨final, hrun, hrests⟩ := (Option.any_eq_true _ _).mp restedSchedule_rests
  obtain ⟨hserved, hasked⟩ := Bool.and_eq_true_iff.mp hrests
  have hserved := served_of_isServed hserved
  obtain ⟨request, hhead, hsources⟩ := (Option.any_eq_true _ _).mp hasked
  obtain rfl : request = .sources := by
    cases request with
    | sources => rfl
    | _ => exact absurd hsources Bool.false_ne_true
  refine ⟨final, hrun, ?_⟩
  exact told_at_rest_iff sample_archivesFaithfully hrun hserved.rest hserved.running
    hserved.session (List.head?_eq_getElem? ▸ hhead) rfl (by rintro country ⟨⟩)
    (hserved.errors 0) _

end Samples

end Connection

end NewsDay
