import NewsDay.Network.WatchAnswers
import NewsDay.Process.WatchSending

/-! # Answered requests

The handlers of a message are the only code that settles the request of a
public function, and one of them runs once. So what becomes of the request is
decided by the answer, and nothing that happens later changes it.
-/

namespace NewsDay

open Foundation AsyncRequest

variable [Foundation]

/-- The handler of the message at this position is given the answer. -/
def WatchAnswer.arrive (index : Nat) : WatchAnswer → Watch.Action
  | .reply message => .reply index message
  | .error failure => .fail index failure

namespace Watch

/-- What a request was set to, in order of the calls. -/
def settlementsOf (watch : Watch) (asyncRequest : Nat) :
    List (Option AnyValue × Option ErrorValue) :=
  Tagged.ownedBy asyncRequest watch.main.setResultCalls

/-- One call of `setResult` has been made for the request, and it passes a value
or an error. -/
def Settled (watch : Watch) (asyncRequest : Nat) : Prop :=
  ∃ call, watch.settlementsOf asyncRequest = [call] ∧ WatchClient.Decisive call

variable {modulePrefix : String} {schedule : List Action} {watch next final : Watch}
  {index : Nat} {sent : SentMessage}

/-! ## What a step does to messages and requests -/

/-- Seen from the requests of the public functions, a step sends a message, or
answers one with at most one call of `setResult`, or does neither. -/
inductive Progress (watch next : Watch) : Prop
  | quiet (added : List (Option AnyValue × Option ErrorValue))
      (hawaiting : next.awaiting = watch.awaiting) (hsent : next.sent = watch.sent)
      (hcalls : next.main.setResultCalls =
        watch.main.setResultCalls ++ added.map (Prod.mk asyncSession))
  | sends (sent : SentMessage) (hawaiting : next.awaiting = watch.awaiting ++ [watch.sent.length])
      (hsent : next.sent = watch.sent ++ [sent])
      (hcalls : next.main.setResultCalls = watch.main.setResultCalls)
  | answers (index : Nat) (sent : SentMessage)
      (call : Option (Option AnyValue × Option ErrorValue))
      (hawaited : watch.awaited index = some sent)
      (hawaiting : next.awaiting = watch.awaiting.erase index) (hsent : next.sent = watch.sent)
      (hcalls : next.main.setResultCalls =
        watch.main.setResultCalls ++ call.toList.map (Prod.mk sent.asyncRequest))

theorem step_progress
    (hrun : Execution.execute step (start modulePrefix) schedule = some watch) {action : Action}
    (hnext : watch.step action = some next) : Progress watch next := by
  cases (step_step hnext).2 with
  | get request => exact .quiet [] rfl rfl (by simp [Watch.get])
  | listen index hindex => exact .quiet [] rfl rfl (by simp)
  | activate => exact .quiet [] rfl rfl (by simp)
  | reach isReachable => exact .quiet [] rfl rfl (by simp)
  | reply index sent reply hawaited =>
      rcases watch.handleReply_cases index sent reply with
        ⟨tables, halted, heq⟩ | ⟨tables, result, error, hreplied, heq⟩
      · rw [heq]
        exact .answers index sent none hawaited rfl rfl (by simp)
      · rw [heq]
        exact .answers index sent (some (result, error)) hawaited rfl rfl (by simp)
  | fail index sent error hawaited =>
      exact .answers index sent (some (none, some error)) hawaited rfl rfl (by simp [handleError])
  | idle main hmain hstarting hinvoking =>
      have hcalls := (MainQueue.mainStep_advanced hmain).setResultCalls
      exact .quiet [] rfl rfl (by simp [hcalls])
  | activated main hmain hstarting =>
      have hcalls := (MainQueue.mainStep_advanced hmain).setResultCalls
      rcases activated_cases { watch with main } with ⟨hreachable, heq⟩ | ⟨hreachable, heq⟩
      · rw [heq]
        exact .quiet [(some .session, none)] rfl rfl (by simp [hcalls])
      · rw [heq]
        exact .quiet [] rfl rfl (by simp [hcalls])
  | send main owner request asyncRequest anySession error hmain hstarting hinvoking =>
      have hcalls := (MainQueue.mainStep_advanced hmain).setResultCalls
      have hthere := invoking_session hrun hinvoking
      rcases send_cases { watch with main } anySession request asyncRequest with
        ⟨hsession, heq⟩ | ⟨hsession, tables, message, hmessage, heq⟩
      · exact absurd (hsession.symm.trans hthere) (Option.some_ne_none _).symm
      · rw [heq]
        exact .sends _ rfl rfl hcalls

/-! ## Messages and their requests -/

/-- What is known of the messages: those that are waited for are distinct, and
only a message that is no longer waited for has a request that was set. -/
structure Answering (watch : Watch) : Prop where
  distinct : watch.awaiting.Nodup
  sent : ∀ index ∈ watch.awaiting, index < watch.sent.length
  answered : ∀ call ∈ watch.main.setResultCalls, call.1 = asyncSession ∨
    ∃ index sent, watch.sent[index]? = some sent ∧ index ∉ watch.awaiting ∧
      sent.asyncRequest = call.1

/-- A message that was sent and is not waited for any more. -/
def Answered (watch : Watch) (index : Nat) (sent : SentMessage) : Prop :=
  watch.sent[index]? = some sent ∧ index ∉ watch.awaiting

theorem Answered.progress (hanswered : watch.Answered index sent)
    (hprogress : Progress watch next) : next.Answered index sent := by
  obtain ⟨hindex, hnot⟩ := hanswered
  cases hprogress with
  | quiet added hawaiting hsent hcalls => exact ⟨hsent ▸ hindex, hawaiting ▸ hnot⟩
  | sends other hawaiting hsent hcalls =>
      -- the new message is at a later position
      have hlt := (List.getElem?_eq_some_iff.mp hindex).1
      constructor
      · rw [hsent, List.getElem?_append_left hlt]
        exact hindex
      · rw [hawaiting, List.mem_append, List.mem_singleton]
        rintro (hold | rfl)
        · exact hnot hold
        · exact Nat.lt_irrefl _ hlt
  | answers other message call hawaited hawaiting hsent hcalls =>
      refine ⟨hsent ▸ hindex, ?_⟩
      rw [hawaiting]
      exact fun herase => hnot (List.mem_of_mem_erase herase)

/-- A request that was set stays one of an answered message. -/
theorem Answering.answered_progress (hwatch : watch.Answering) (hprogress : Progress watch next)
    {call : Nat × Option AnyValue × Option ErrorValue} (hcall : call ∈ watch.main.setResultCalls) :
    call.1 = asyncSession ∨ ∃ index sent, next.sent[index]? = some sent ∧
      index ∉ next.awaiting ∧ sent.asyncRequest = call.1 := by
  rcases hwatch.answered call hcall with hsession | ⟨index, sent, hindex, hnot, hsame⟩
  · exact .inl hsession
  · have hanswered : watch.Answered index sent := ⟨hindex, hnot⟩
    obtain ⟨hindex', hnot'⟩ := hanswered.progress hprogress
    exact .inr ⟨index, sent, hindex', hnot', hsame⟩

theorem Answering.step (hwatch : watch.Answering) (hprogress : Progress watch next) :
    next.Answering := by
  have hkept : ∀ call ∈ watch.main.setResultCalls, call.1 = asyncSession ∨
      ∃ index sent, next.sent[index]? = some sent ∧ index ∉ next.awaiting ∧
        sent.asyncRequest = call.1 := fun _ hcall => hwatch.answered_progress hprogress hcall
  cases hprogress with
  | quiet added hawaiting hsent hcalls =>
      refine ⟨hawaiting ▸ hwatch.distinct, by rw [hawaiting, hsent]; exact hwatch.sent, ?_⟩
      rw [hcalls]
      intro call hcall
      rcases List.mem_append.mp hcall with hold | hnew
      · exact hkept call hold
      · obtain ⟨pair, -, rfl⟩ := List.mem_map.mp hnew
        exact .inl rfl
  | sends sent hawaiting hsent hcalls =>
      have hfresh : watch.sent.length ∉ watch.awaiting :=
        fun hmem => Nat.lt_irrefl _ (hwatch.sent _ hmem)
      refine ⟨?_, ?_, ?_⟩
      · rw [hawaiting]
        exact List.nodup_append.mpr ⟨hwatch.distinct, List.nodup_singleton _, by
          rintro index hindex _ hlast rfl
          exact hfresh (List.mem_singleton.mp hlast ▸ hindex)⟩
      · rw [hawaiting, hsent, List.length_append]
        intro index hindex
        rcases List.mem_append.mp hindex with hold | hnew
        · exact Nat.lt_succ_of_lt (hwatch.sent index hold)
        · obtain rfl := List.mem_singleton.mp hnew
          exact Nat.lt_succ_self _
      · rw [hcalls]
        exact hkept
  | answers index sent call hawaited hawaiting hsent hcalls =>
      obtain ⟨hmem, hindex⟩ := awaited_eq_some.mp hawaited
      refine ⟨?_, ?_, ?_⟩
      · rw [hawaiting]
        exact hwatch.distinct.erase index
      · rw [hawaiting, hsent]
        exact fun other hother => hwatch.sent other (List.mem_of_mem_erase hother)
      · rw [hcalls]
        intro other hother
        rcases List.mem_append.mp hother with hold | hnew
        · exact hkept other hold
        · obtain ⟨pair, -, rfl⟩ := List.mem_map.mp hnew
          rw [hawaiting, hsent]
          exact .inr ⟨index, sent, hindex, hwatch.distinct.not_mem_erase, rfl⟩

theorem answering
    (hrun : Execution.execute step (start modulePrefix) schedule = some watch) :
    watch.Answering := by
  refine Execution.execute_induction (motive := fun _ watch => watch.Answering) ?_ ?_ hrun
  · exact ⟨List.nodup_nil, fun _ hindex => absurd hindex List.not_mem_nil,
      fun _ hcall => absurd hcall List.not_mem_nil⟩
  · intro schedule state action next hrun hstate hnext
    exact hstate.step (step_progress hrun hnext)

/-- The request of a message that is waited for has not been set. -/
theorem settlementsOf_awaited
    (hrun : Execution.execute step (start modulePrefix) schedule = some watch)
    (hawaited : watch.awaited index = some sent) :
    watch.settlementsOf sent.asyncRequest = [] := by
  obtain ⟨hmem, hindex⟩ := awaited_eq_some.mp hawaited
  have hrequest := (sent_call hrun hindex).2
  rw [settlementsOf, List.eq_nil_iff_forall_not_mem]
  intro call hcall
  rcases (answering hrun).answered _ (Tagged.mem_ownedBy.mp hcall) with
    hsession | ⟨other, message, hother, hnot, hsame⟩
  · exact absurd (hrequest.symm.trans hsession) (Nat.succ_ne_zero index)
  · have hsucc : requestOf other = requestOf index := by
      rw [← (sent_call hrun hother).2, hsame, hrequest]
    obtain rfl : other = index := Nat.succ.inj hsucc
    exact hnot hmem

/-! ## Nothing later changes the outcome -/

theorem Answered.settlementsOf_step
    (hrun : Execution.execute Watch.step (start modulePrefix) schedule = some watch)
    (hanswered : watch.Answered index sent) {action : Action}
    (hnext : watch.step action = some next) :
    next.settlementsOf sent.asyncRequest = watch.settlementsOf sent.asyncRequest := by
  obtain ⟨hindex, hnot⟩ := hanswered
  have hrequest := (sent_call hrun hindex).2
  cases step_progress hrun hnext with
  | quiet added hawaiting hsent hcalls =>
      have hne : asyncSession ≠ sent.asyncRequest := by
        rw [hrequest]
        exact (Nat.succ_ne_zero index).symm
      rw [settlementsOf, settlementsOf, hcalls, Tagged.ownedBy_append,
        Tagged.ownedBy_map_ne hne, List.append_nil]
  | sends other hawaiting hsent hcalls => rw [settlementsOf, settlementsOf, hcalls]
  | answers other message call hawaited hawaiting hsent hcalls =>
      obtain ⟨hmem, hother⟩ := awaited_eq_some.mp hawaited
      have hne : message.asyncRequest ≠ sent.asyncRequest := by
        rw [(sent_call hrun hother).2, hrequest]
        intro hsame
        obtain rfl : other = index := Nat.succ.inj hsame
        exact hnot hmem
      rw [settlementsOf, settlementsOf, hcalls, Tagged.ownedBy_append,
        Tagged.ownedBy_map_ne hne, List.append_nil]

theorem Answered.later
    (hrun : Execution.execute Watch.step (start modulePrefix) schedule = some watch)
    (hanswered : watch.Answered index sent) {later : List Action}
    (hlater : Execution.execute Watch.step watch later = some final) :
    final.settlementsOf sent.asyncRequest = watch.settlementsOf sent.asyncRequest := by
  induction later generalizing schedule watch with
  | nil =>
      obtain rfl := Option.some.inj hlater
      rfl
  | cons action rest ih =>
      obtain ⟨next, hnext, hrest⟩ := Execution.execute_cons_eq_some.mp hlater
      have hkept := hanswered.progress (step_progress hrun hnext)
      have hrun' := Execution.execute_concat_eq_some.mpr ⟨watch, hrun, hnext⟩
      exact (ih hrun' hkept hrest).trans (hanswered.settlementsOf_step hrun hnext)

/-! ## The outcome -/

theorem awaited_of_arrive {answer : WatchAnswer}
    (hnext : watch.step (answer.arrive index) = some next) :
    ∃ sent, watch.awaited index = some sent := by
  have hhalted := (step_step hnext).1
  unfold step at hnext
  rw [hhalted] at hnext
  cases answer with
  | reply message =>
      obtain ⟨sent, hawaited, -⟩ := Option.map_eq_some_iff.mp hnext
      exact ⟨sent, hawaited⟩
  | error error =>
      obtain ⟨sent, hawaited, -⟩ := Option.map_eq_some_iff.mp hnext
      exact ⟨sent, hawaited⟩

/-- What the handler of a message makes of the answer. -/
theorem arrive_cases {answer : WatchAnswer} (hawaited : watch.awaited index = some sent)
    (hnext : watch.step (answer.arrive index) = some next) :
    next.awaiting = watch.awaiting.erase index ∧ next.sent = watch.sent ∧
      ∃ call, next.main.setResultCalls =
        watch.main.setResultCalls ++ Option.toList (call.map (Prod.mk sent.asyncRequest)) ∧
          ((∃ pair, call = some pair ∧ WatchClient.Decisive pair) ↔
            answer.Settles watch.tables sent.request) := by
  have hhalted := (step_step hnext).1
  unfold step at hnext
  rw [hhalted] at hnext
  cases answer with
  | error error =>
      obtain ⟨found, hfound, rfl⟩ := Option.map_eq_some_iff.mp hnext
      obtain rfl := Option.some.inj (hawaited.symm.trans hfound)
      refine ⟨rfl, rfl, some (none, some error), by simp [handleError], ?_⟩
      exact iff_of_true ⟨_, rfl, .inr (Option.some_ne_none error)⟩ trivial
  | reply message =>
      obtain ⟨found, hfound, rfl⟩ := Option.map_eq_some_iff.mp hnext
      obtain rfl := Option.some.inj (hawaited.symm.trans hfound)
      have hdecodes := sent.request.replied_iff message watch.tables
      rw [WatchAnswer.Settles, ← hdecodes]
      unfold handleReply WatchClient.RepliesWithValue
      dsimp only
      cases sent.request.replied message watch.tables with
      | error trap => exact ⟨rfl, rfl, none, (List.append_nil _).symm, by simp⟩
      | ok read =>
          obtain ⟨tables, call⟩ := read
          cases call with
          | none => exact ⟨rfl, rfl, none, (List.append_nil _).symm, by simp⟩
          | some pair =>
              obtain ⟨result, error⟩ := pair
              exact ⟨rfl, rfl, some (result, error), by simp, by simp⟩

/-- In every run, a message is that of the call at its position, and from the
answer on the request of that call has been set once, and to a value or an
error, exactly if the answer is an error or a reply that holds what was asked
for. -/
theorem answer_settles_iff
    (hrun : Execution.execute step (start modulePrefix) schedule = some watch)
    (hawaited : watch.awaited index = some sent) {answer : WatchAnswer}
    (hnext : watch.step (answer.arrive index) = some next) {later : List Action}
    (hlater : Execution.execute step next later = some final) :
    watch.asked[index]? = some sent.request ∧
      (final.Settled (requestOf index) ↔ answer.Settles watch.tables sent.request) := by
  obtain ⟨hmem, hindex⟩ := awaited_eq_some.mp hawaited
  obtain ⟨hasked, hrequest⟩ := sent_call hrun hindex
  obtain ⟨hawaiting, hsent, call, hcalls, hsettles⟩ := arrive_cases hawaited hnext
  have hanswered : next.Answered index sent := by
    refine ⟨hsent ▸ hindex, ?_⟩
    rw [hawaiting]
    exact (answering hrun).distinct.not_mem_erase
  have hrun' := Execution.execute_concat_eq_some.mpr ⟨watch, hrun, hnext⟩
  have hfinal : final.settlementsOf sent.asyncRequest = call.toList := by
    have hbefore : Tagged.ownedBy sent.asyncRequest watch.main.setResultCalls = [] :=
      settlementsOf_awaited hrun hawaited
    rw [hanswered.later hrun' hlater, settlementsOf, hcalls, Tagged.ownedBy_append, hbefore]
    cases call <;> simp
  refine ⟨hasked, ?_⟩
  rw [← hrequest, Settled, hfinal, ← hsettles]
  cases call <;> simp

section Samples

omit [Foundation]

theorem answer_settles_iff_error :
    letI : Foundation := .sample
    ∃ watch sent next, Execution.execute step (start "Watch") sendingSchedule = some watch ∧
      watch.awaited 0 = some sent ∧ watch.step (.fail 0 (.system "not delivered")) = some next ∧
        next.Settled (requestOf 0) := by
  let _ : Foundation := .sample
  have hfails : ((Execution.execute step (start "Watch")
      (sendingSchedule ++ [.fail 0 (.system "not delivered")])).map fun next => next.sent.length) =
        some 1 := by
    decide +kernel
  obtain ⟨next, hrun, -⟩ := Option.map_eq_some_iff.mp hfails
  obtain ⟨watch, hrun, hnext⟩ := Execution.execute_concat_eq_some.mp hrun
  have harrive : watch.step (WatchAnswer.arrive 0 (.error (.system "not delivered"))) =
      some next := hnext
  obtain ⟨sent, hawaited⟩ := awaited_of_arrive harrive
  refine ⟨watch, sent, next, hrun, hawaited, hnext, ?_⟩
  exact (answer_settles_iff hrun hawaited harrive (Execution.execute_nil next)).2.mpr trivial

/-- The server's reply to a request that it does not recognise. -/
theorem error_reply_settles_nothing :
    letI : Foundation := .sample
    ¬ ∀ schedule watch index sent answer next,
      Execution.execute step (start "Watch") schedule = some watch →
        watch.awaited index = some sent →
          watch.step (WatchAnswer.arrive index answer) = some next →
            next.Settled (requestOf index) := by
  let _ : Foundation := .sample
  intro hall
  have hreplies : ((Execution.execute step (start "Watch")
      (sendingSchedule ++ [.reply 0 WatchServer.unrecognized])).map fun next =>
        (next.settlementsOf (requestOf 0)).length) = some 0 := by
    decide +kernel
  obtain ⟨next, hrun, hnone⟩ := Option.map_eq_some_iff.mp hreplies
  obtain ⟨watch, hrun, hnext⟩ := Execution.execute_concat_eq_some.mp hrun
  have harrive : watch.step (WatchAnswer.arrive 0 (.reply WatchServer.unrecognized)) =
      some next := hnext
  obtain ⟨sent, hawaited⟩ := awaited_of_arrive harrive
  obtain ⟨call, hcall, -⟩ :=
    hall _ watch 0 sent (.reply WatchServer.unrecognized) next hrun hawaited harrive
  rw [hcall] at hnone
  exact absurd hnone (by simp)

end Samples

end Watch

end NewsDay
