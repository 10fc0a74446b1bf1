import NewsDay.Network.MainQueueRest
import NewsDay.Process.Provenance

/-! # What stops the processes

A message may be one that stops the phone, and a reply one that stops the
watch; but the two never send such a thing to each other. What is left is the
count of the groups of sources, which is archived with 32 bits: the phone stops
when it replies with too many of them, and for no other reason.
-/

namespace NewsDay

open Foundation AsyncRequest

variable [Foundation]

/-- A callback stops the process at a count that does not fit. -/
theorem WatchServer.Callback.reply_error {callback : WatchServer.Callback}
    {result : Option AnyValue} {tables : ModelTables} {trap : Trap}
    (hreply : callback.reply result tables = .error trap) :
    trap = .integerOverflow ∧ ∃ sources, callback = .sources ∧
      result = some (.categorizedSources sources) ∧ 2 ^ 31 ≤ sources.details.length := by
  cases callback with
  | sources =>
      simp only [Callback.reply, sourcesReply] at hreply
      cases hsources : result.bind AnyValue.asCategorizedSources with
      | none =>
          rw [hsources] at hreply
          cases hreply
      | some sources =>
          rw [hsources] at hreply
          obtain ⟨value, rfl, hvalue⟩ := Option.bind_eq_some_iff.mp hsources
          obtain rfl := AnyValue.asCategorizedSources_eq_some.mp hvalue
          rcases Nat.lt_or_ge sources.details.length (2 ^ 31) with hcount | hcount
          · simp only [sources.keyedArchive_eq tables hcount, bind, Except.bind] at hreply
            cases hreply
          · simp only [sources.keyedArchive_overflow tables hcount, bind, Except.bind] at hreply
            exact ⟨(Except.error.inj hreply).symm, sources, rfl, rfl, hcount⟩
  | articles =>
      simp only [Callback.reply, articlesReply] at hreply
      cases harticles : result.bind (AnyValue.asArray AnyValue.asArticle) with
      | none =>
          rw [harticles] at hreply
          cases hreply
      | some articles =>
          rw [harticles] at hreply
          simp only [Article.keyedArchivedArray_eq, bind, Except.bind] at hreply
          cases hreply

/-! ## The phone -/

namespace Phone

variable {modulePrefix : String} {phone next : Phone} {trap : Trap}

/-- The step that stops a phone runs the block of a message or a callback of
the server. -/
theorem Step.halted (hstep : Step phone next) (hrunning : phone.halted = none)
    (hhalted : next.halted = some trap) :
    (∃ message replyHandler, phone.main.starting = some (.received message replyHandler) ∧
      WatchServer.didReceiveMessage message phone.tables = .error trap) ∨
    ∃ main request replyHandler callback result error, phone.main.mainStep = some main ∧
      phone.main.invoking = some (request, .server replyHandler callback, result, error) ∧
        callback.reply result phone.tables = .error trap ∧ next.main = main := by
  have hsame : next.halted ≠ phone.halted := by
    rw [hrunning, hhalted]
    exact Option.some_ne_none trap
  cases hstep with
  | answer main request replyHandler callback result error htodo hmain hstarting hinvoking =>
      right
      refine ⟨main, request, replyHandler, callback, result, error, hmain, hinvoking, ?_, ?_⟩
      · unfold Phone.answer at hhalted
        split at hhalted
        next htrap => exact htrap.trans (congrArg _ (Option.some.inj hhalted))
        next => exact absurd (hhalted.symm.trans hrunning) (Option.some_ne_none trap)
      · obtain ⟨_, _, _, heq⟩ := answer_frame { phone with main } replyHandler callback result
        rw [heq]
  | handle main message replyHandler htodo hmain hstarting =>
      refine .inl ⟨message, replyHandler, hstarting, ?_⟩
      unfold Phone.handle at hhalted
      split at hhalted
      next htrap => exact htrap.trans (congrArg _ (Option.some.inj hhalted))
      all_goals exact absurd (hhalted.symm.trans hrunning) (Option.some_ne_none trap)
  | _ => exact absurd rfl hsame

/-- A phone that has stopped was stopped by a message that it received, or by
sources that it replied with. -/
theorem stopped_by {final : Phone} {schedule : List Action}
    (hrun : Execution.execute step (start modulePrefix) schedule = some final)
    (hhalted : final.halted = some trap) :
    (∃ message tables, message ∈ final.received ∧
      WatchServer.didReceiveMessage message tables = .error trap) ∨
    (trap = .integerOverflow ∧ ∃ request replyHandler sources error,
      (request, .server replyHandler .sources, some (.categorizedSources sources), error) ∈
        final.main.callbackCalls ∧ 2 ^ 31 ≤ sources.details.length) := by
  rcases List.eq_nil_or_concat schedule with rfl | ⟨before, action, rfl⟩
  · obtain rfl := Option.some.inj hrun
    exact absurd hhalted.symm (Option.some_ne_none trap)
  rw [List.concat_eq_append] at hrun
  obtain ⟨phone, hbefore, hnext⟩ := Execution.execute_concat_eq_some.mp hrun
  obtain ⟨hrunning, hstep⟩ := step_step hnext
  rcases hstep.halted hrunning hhalted with ⟨message, replyHandler, hstarting, htrap⟩ |
    ⟨main, request, replyHandler, callback, result, error, hmain, hinvoking, htrap, hsame⟩
  · left
    refine ⟨message, phone.tables, ?_, htrap⟩
    -- the block of the message was queued, so the message has been received
    have hwork : .received message replyHandler ∈ phone.main.works := by
      cases hmain : phone.main.mainStep with
      | none =>
          have hdrained := MainQueue.drained_of_mainStep hmain
          simp [MainQueue.starting, hdrained.1, hdrained.2] at hstarting
      | some main =>
          rw [(MainQueue.mainStep_advanced hmain).works, hstarting]
          exact List.mem_append_left _ (Option.mem_toList.mpr rfl)
    have hqueued : (replyHandler, message) ∈ queuedMessages phone.main :=
      List.mem_filterMap.mpr ⟨_, hwork, rfl⟩
    have hreceived := (messageLedger hbefore).arrived _ hqueued
    rw [step_received hnext]
    exact List.mem_append_left _ (List.mem_of_getElem? hreceived)
  · right
    obtain ⟨hoverflow, sources, rfl, rfl, hcount⟩ := WatchServer.Callback.reply_error htrap
    refine ⟨hoverflow, request, replyHandler, sources, error, ?_, hcount⟩
    rw [hsame, (MainQueue.mainStep_advanced hmain).callbackCalls, hinvoking]
    exact List.mem_append_right _ (Option.mem_toList.mpr rfl)

end Phone

/-! ## The watch -/

namespace Watch

variable {modulePrefix : String} {watch next : Watch} {trap : Trap}

/-- The step that stops a watch runs the handler of a reply. -/
theorem Step.halted (hstep : Step watch next) (hrunning : watch.halted = none)
    (hhalted : next.halted = some trap) :
    ∃ index sent reply, watch.awaited index = some sent ∧
      next = watch.handleReply index sent reply ∧
        sent.request.replied reply watch.tables = .error trap := by
  have hsame : next.halted ≠ watch.halted := by
    rw [hrunning, hhalted]
    exact Option.some_ne_none trap
  cases hstep with
  | reply index sent reply hawaited =>
      refine ⟨index, sent, reply, hawaited, rfl, ?_⟩
      unfold Watch.handleReply at hhalted
      dsimp only at hhalted
      split at hhalted
      next htrap => exact htrap.trans (congrArg _ (Option.some.inj hhalted))
      all_goals exact absurd (hhalted.symm.trans hrunning) (Option.some_ne_none trap)
  | activated main hmain hstarting =>
      rcases activated_cases { watch with main } with ⟨-, heq⟩ | ⟨-, heq⟩
      · exact absurd (congrArg Watch.halted heq) hsame
      · exact absurd (congrArg Watch.halted heq) hsame
  | send main owner request asyncRequest anySession error hmain hstarting hinvoking =>
      rcases send_cases { watch with main } anySession request asyncRequest with
        ⟨-, heq⟩ | ⟨-, tables, message, -, heq⟩
      · exact absurd (congrArg Watch.halted heq) hsame
      · exact absurd (congrArg Watch.halted heq) hsame
  | _ => exact absurd rfl hsame

/-- A watch that has stopped was stopped by a reply that it was handed. -/
theorem stopped_by {final : Watch} {schedule : List Action}
    (hrun : Execution.execute step (start modulePrefix) schedule = some final)
    (hhalted : final.halted = some trap) :
    ∃ index sent reply tables, final.sent[index]? = some sent ∧
      (index, reply) ∈ final.replied ∧ sent.request.replied reply tables = .error trap := by
  rcases List.eq_nil_or_concat schedule with rfl | ⟨before, action, rfl⟩
  · obtain rfl := Option.some.inj hrun
    exact absurd hhalted.symm (Option.some_ne_none trap)
  rw [List.concat_eq_append] at hrun
  obtain ⟨watch, hbefore, hnext⟩ := Execution.execute_concat_eq_some.mp hrun
  obtain ⟨hrunning, hstep⟩ := step_step hnext
  obtain ⟨index, sent, reply, hawaited, rfl, htrap⟩ := hstep.halted hrunning hhalted
  have hsent := (awaited_eq_some.mp hawaited).2
  refine ⟨index, sent, reply, watch.tables, ?_, ?_, htrap⟩
  · exact Execution.getElem?_of_prefix hstep.sent_grows hsent
  · rcases watch.handleReply_cases index sent reply with
      ⟨tables, halted, heq⟩ | ⟨tables, result, error, -, heq⟩
    · rw [heq]
      exact List.mem_append_right _ (List.mem_singleton_self _)
    · rw [heq]
      exact List.mem_append_right _ (List.mem_singleton_self _)

end Watch

/-! ## The two together -/

/-- The block for a message of the watch comes to its end. -/
theorem WatchRequest.handled_ok (hfaithful : ArchivesFaithfully) (request : WatchRequest)
    {made made' : ModelTables} {message : Message}
    (hmessage : request.message made = .ok (made', message)) (tables : ModelTables) :
    ∃ tables' handling, WatchServer.didReceiveMessage message tables = .ok (tables', handling) := by
  cases request with
  | sources =>
      obtain ⟨-, rfl⟩ := Prod.mk.inj (Except.ok.inj hmessage)
      exact ⟨_, _, WatchServer.didReceiveMessage_sources tables⟩
  | articles source =>
      obtain ⟨_, data, harticles, hcontents⟩ := WatchClient.articlesMessage_eq hfaithful source made
      obtain ⟨-, rfl⟩ := Prod.mk.inj (Except.ok.inj (harticles.symm.trans hmessage))
      have hread := source.keyedUnarchive_archived tables hcontents
      exact ⟨_, _, WatchServer.didReceiveMessage_articles tables hread⟩
  | image url =>
      obtain ⟨-, rfl⟩ := Prod.mk.inj (Except.ok.inj hmessage)
      exact ⟨_, _, WatchClient.imageMessage_handled url tables⟩
  | headlines country limit =>
      obtain ⟨-, rfl⟩ := Prod.mk.inj (Except.ok.inj hmessage)
      cases limit with
      | none => exact ⟨_, _, WatchServer.didReceiveMessage_headlines_unlimited tables country⟩
      | some limit => exact ⟨_, _, WatchServer.didReceiveMessage_headlines tables country limit⟩

namespace Connection

variable {watchPrefix phonePrefix : String} {schedule : List Action} {final : Connection}

/-- The handler of a reply of the phone comes to its end. -/
theorem replied_ok (hfaithful : ArchivesFaithfully)
    (hrun : Execution.execute step (start watchPrefix phonePrefix) schedule = some final)
    {index : Nat} {sent : SentMessage} (hsent : final.watch.sent[index]? = some sent)
    {reply : Message} (hreplied : (index, reply) ∈ final.watch.replied) (tables : ModelTables) :
    ∃ tables' settlement, sent.request.replied reply tables = .ok (tables', settlement) := by
  cases hslot : sent.request.slot with
  | none =>
      cases hrequest : sent.request with
      | image url => exact ⟨tables, _, rfl⟩
      | _ =>
          rw [hrequest] at hslot
          exact absurd hslot (Option.some_ne_none _)
  | some slot =>
      obtain ⟨watchSchedule, hwatchRun⟩ := watch_reachable hrun
      obtain ⟨phoneSchedule, hphoneRun⟩ := phone_reachable hrun
      obtain ⟨made, made', hmessage⟩ :=
        (Watch.consistent hwatchRun).messages.made sent (List.mem_of_getElem? hsent)
      obtain ⟨replyHandler, hreply, hdelivered⟩ := (ledger hrun).answered index reply hreplied
      obtain ⟨sent', hsent', hreceived⟩ := (ledger hrun).arrived replyHandler index hdelivered
      obtain rfl : sent' = sent := Option.some.inj (hsent'.symm.trans hsent)
      obtain ⟨call, callback, occupant, hintended, -, hmade⟩ :=
        (Phone.consistent hphoneRun).news_reply hfaithful hreply hreceived hslot hmessage
      obtain ⟨tables', hread⟩ := WatchRequest.replied_replyFor hfaithful hintended hmade tables
      exact ⟨tables', _, hread⟩

theorem watch_runs (hfaithful : ArchivesFaithfully)
    (hrun : Execution.execute step (start watchPrefix phonePrefix) schedule = some final) :
    final.watch.halted = none := by
  obtain ⟨watchSchedule, hwatchRun⟩ := watch_reachable hrun
  by_contra hstopped
  obtain ⟨trap, hhalted⟩ := Option.ne_none_iff_exists'.mp hstopped
  obtain ⟨index, sent, reply, tables, hsent, hreplied, htrap⟩ :=
    Watch.stopped_by hwatchRun hhalted
  obtain ⟨tables', settlement, hread⟩ := replied_ok hfaithful hrun hsent hreplied tables
  exact absurd (htrap.symm.trans hread) nofun

/-- Every message that the phone has received was made by the watch. -/
theorem message_handled_ok (hfaithful : ArchivesFaithfully)
    (hrun : Execution.execute step (start watchPrefix phonePrefix) schedule = some final)
    {message : Message} (hmem : message ∈ final.phone.received) (tables : ModelTables) :
    ∃ tables' handling, WatchServer.didReceiveMessage message tables = .ok (tables', handling) := by
  obtain ⟨watchSchedule, hwatchRun⟩ := watch_reachable hrun
  obtain ⟨replyHandler, hreceived⟩ := List.mem_iff_getElem?.mp hmem
  have hdelivered : replyHandler < final.delivered.length :=
    (ledger hrun).received ▸ (List.getElem?_eq_some_iff.mp hreceived).1
  obtain ⟨sent, hsent, hreceived'⟩ :=
    (ledger hrun).arrived replyHandler _ (List.getElem?_eq_getElem hdelivered)
  obtain rfl : message = sent.message := Option.some.inj (hreceived.symm.trans hreceived')
  obtain ⟨made, made', hmessage⟩ :=
    (Watch.consistent hwatchRun).messages.made sent (List.mem_of_getElem? hsent)
  exact sent.request.handled_ok hfaithful hmessage tables

theorem phone_stops (hfaithful : ArchivesFaithfully)
    (hrun : Execution.execute step (start watchPrefix phonePrefix) schedule = some final)
    {trap : Trap} (hhalted : final.phone.halted = some trap) : trap = .integerOverflow ∧
      ∃ occupant sources, final.phone.news.api.occupant .sources = some occupant ∧
        (final.phone.main.requests occupant).result = some (.categorizedSources sources) ∧
          2 ^ 31 ≤ sources.details.length := by
  obtain ⟨phoneSchedule, hphoneRun⟩ := phone_reachable hrun
  have hphone := Phone.consistent hphoneRun
  rcases Phone.stopped_by hphoneRun hhalted with ⟨message, tables, hmem, htrap⟩ |
    ⟨hoverflow, request, replyHandler, sources, error, hcall, hcount⟩
  · obtain ⟨tables', handling, hhandled⟩ := message_handled_ok hfaithful hrun hmem tables
    exact absurd (htrap.symm.trans hhandled) nofun
  · obtain ⟨call, hentry⟩ := hphone.callback_recorded hcall
    obtain ⟨message, -, hreads⟩ := hphone.message_of hentry
    have hplaced := hphone.news.coherent.placed call request
      (hphone.messages.returned replyHandler call .sources request hentry)
    -- only a message for sources has this callback
    cases hreads with
    | sources hname =>
        exact ⟨hoverflow, request, sources, hplaced, (hphone.callback_pair hcall).symm, hcount⟩

/-- The watch is never stopped by what the phone sends. The phone is stopped
only by sources that it holds in its cache, when it replies with them and they
are in more groups than 32 bits count. -/
theorem stops_only_at_count (hfaithful : ArchivesFaithfully)
    (hrun : Execution.execute step (start watchPrefix phonePrefix) schedule = some final) :
    final.watch.halted = none ∧
      ∀ trap, final.phone.halted = some trap → trap = .integerOverflow ∧
        ∃ occupant sources, final.phone.news.api.occupant .sources = some occupant ∧
          (final.phone.main.requests occupant).result = some (.categorizedSources sources) ∧
            2 ^ 31 ≤ sources.details.length :=
  ⟨watch_runs hfaithful hrun, fun _ hhalted => phone_stops hfaithful hrun hhalted⟩

section Samples

omit [Foundation]

theorem stops_only_at_count_sources :
    letI : Foundation := .sample
    ∃ final, Execution.execute step (start "Watch" "NewsDay") sourcesSchedule = some final ∧
      final.watch.halted = none := by
  let _ : Foundation := .sample
  obtain ⟨final, request, hrun, -⟩ := sourcesSchedule_holds
  exact ⟨final, hrun, (stops_only_at_count sample_archivesFaithfully hrun).1⟩

end Samples

end Connection

end NewsDay
