import NewsDay.Network.WatchExchange
import NewsDay.Process.Connection

/-! # Watch and phone agree

Every message that the phone has received is one that the watch has sent, and
every reply that the watch was handed is one that the phone made to that
message. So what a request of the watch is settled with is what the phone's
request in the matching place of the cache holds.
-/

namespace NewsDay

open Foundation AsyncRequest

variable [Foundation]

/-- A request of the watch has come out with this value: it holds it, or one of
its callbacks has received it. -/
def Watch.CompletedWith (watch : Watch) (index : Nat) (value : AnyValue) : Prop :=
  (watch.main.requests (requestOf index)).result = some value ∨
    ∃ callback error, (requestOf index, callback, some value, error) ∈ watch.main.callbackCalls

/-- Values come from replies to the message of the request. -/
theorem Watch.Consistent.decoded {watch : Watch} (hwatch : watch.Consistent) {index : Nat}
    {value : AnyValue} (hcompleted : watch.CompletedWith index value) :
    ∃ error, watch.Decoded (requestOf index) (some value) error := by
  have hcalled : ∃ error,
      (requestOf index, some value, error) ∈ watch.main.setResultCalls := by
    rcases hcompleted with hresult | ⟨callback, error, hcall⟩
    · exact hwatch.main.result_called hresult
    · exact ⟨error, hwatch.main.callback_called hcall⟩
  obtain ⟨error, hcall⟩ := hcalled
  rcases hwatch.messages.settled _ _ _ hcall with hsession | hdecoded
  · exact absurd hsession (Nat.succ_ne_zero index)
  · exact ⟨error, hdecoded⟩

namespace Connection

/-- How the messages and replies of the two processes correspond. -/
structure Ledger (connection : Connection) : Prop where
  received : connection.phone.received.length = connection.delivered.length
  arrived : ∀ replyHandler message : Nat, connection.delivered[replyHandler]? = some message →
    ∃ sent, connection.watch.sent[message]? = some sent ∧
      connection.phone.received[replyHandler]? = some sent.message
  answered : ∀ message reply, (message, reply) ∈ connection.watch.replied →
    ∃ replyHandler, (replyHandler, reply) ∈ connection.phone.replies ∧
      connection.delivered[replyHandler]? = some message

variable {connection next : Connection} {watchPrefix phonePrefix : String}

theorem Ledger.start (watchPrefix phonePrefix : String) :
    Ledger (start watchPrefix phonePrefix) where
  received := rfl
  arrived := by
    intro replyHandler message hdelivered
    exact absurd hdelivered.symm (Option.some_ne_none message)
  answered := by
    intro message reply hreplied
    exact absurd hreplied List.not_mem_nil

theorem Ledger.step (hledger : connection.Ledger) (hstep : Step connection next) :
    next.Ledger := by
  cases hstep with
  | watch action watch hlocal hnext =>
      have hreplied := Watch.step_replied hnext
      rw [hlocal, Option.toList_none, List.append_nil] at hreplied
      have hsent := (Watch.step_step hnext).2.sent_grows
      refine { hledger with arrived := ?_, answered := ?_ }
      · intro replyHandler message hdelivered
        obtain ⟨sent, hmessage, hreceived⟩ := hledger.arrived replyHandler message hdelivered
        exact ⟨sent, Execution.getElem?_of_prefix hsent hmessage, hreceived⟩
      · rw [hreplied]
        exact hledger.answered
  | phone action phone hlocal hnext =>
      have hreceived := Phone.step_received hnext
      rw [hlocal, Option.toList_none, List.append_nil] at hreceived
      have hreplies := (Phone.step_step hnext).2.replies_grow
      refine { received := ?_, arrived := ?_, answered := ?_ }
      · rw [hreceived]
        exact hledger.received
      · rw [hreceived]
        exact hledger.arrived
      · intro message reply hreplied
        obtain ⟨replyHandler, hreply, hdelivered⟩ := hledger.answered message reply hreplied
        exact ⟨replyHandler, hreplies.subset hreply, hdelivered⟩
  | deliver index sent phone hfresh hsent hnext =>
      have hreceived := Phone.step_received hnext
      have hreplies := (Phone.step_step hnext).2.replies_grow
      have hreceived' : phone.received = connection.phone.received ++ [sent.message] := hreceived
      refine { received := ?_, arrived := ?_, answered := ?_ }
      · rw [hreceived', List.length_append, List.length_append, hledger.received]
        rfl
      · intro replyHandler message hdelivered
        rw [hreceived']
        rcases Nat.lt_or_ge replyHandler connection.delivered.length with hold | hnew
        · rw [List.getElem?_append_left hold] at hdelivered
          obtain ⟨old, hmessage, hearlier⟩ := hledger.arrived replyHandler message hdelivered
          exact ⟨old, hmessage, Execution.getElem?_of_prefix (List.prefix_append _ _) hearlier⟩
        · -- the message that has just been delivered
          rw [List.getElem?_append_right hnew, List.getElem?_singleton] at hdelivered
          obtain ⟨hlast, hindex⟩ := Option.ite_none_right_eq_some.mp hdelivered
          obtain rfl := Option.some.inj hindex
          refine ⟨sent, hsent, ?_⟩
          rw [List.getElem?_append_right (hledger.received.trans_le hnew), hledger.received, hlast]
          rfl
      · intro message reply hreplied
        obtain ⟨replyHandler, hreply, hdelivered⟩ := hledger.answered message reply hreplied
        exact ⟨replyHandler, hreplies.subset hreply,
          Execution.getElem?_of_prefix (List.prefix_append _ _) hdelivered⟩
  | respond replyHandler message reply watch hreply hmessage hnext =>
      have hreplied := Watch.step_replied hnext
      have hsent := (Watch.step_step hnext).2.sent_grows
      refine { hledger with arrived := ?_, answered := ?_ }
      · intro replyHandler message hdelivered
        obtain ⟨sent, hmessage, hreceived⟩ := hledger.arrived replyHandler message hdelivered
        exact ⟨sent, Execution.getElem?_of_prefix hsent hmessage, hreceived⟩
      · intro message' reply' hmem
        rw [hreplied] at hmem
        rcases List.mem_append.mp hmem with hold | hnew
        · exact hledger.answered message' reply' hold
        · obtain ⟨rfl, rfl⟩ := Prod.mk.inj (List.mem_singleton.mp hnew)
          exact ⟨replyHandler, hreply, hmessage⟩

/-! ## Main result -/

variable {final : Connection} {schedule : List Action}

theorem ledger (hrun : Execution.execute step (start watchPrefix phonePrefix) schedule =
    some final) : final.Ledger :=
  Execution.execute_invariant Ledger (fun _ _ _ hledger hnext => hledger.step (step_step hnext))
    (.start watchPrefix phonePrefix) hrun

theorem watch_reachable (hrun : Execution.execute step (start watchPrefix phonePrefix) schedule =
    some final) :
    ∃ watchSchedule, Execution.execute Watch.step (.start watchPrefix) watchSchedule =
      some final.watch := by
  refine Execution.execute_simulation Connection.watch ?_ hrun
  intro connection action next hnext
  cases step_step hnext with
  | watch action watch hlocal hwatch => exact ⟨[action], by simp [hwatch]⟩
  | phone action phone hlocal hphone => exact ⟨[], rfl⟩
  | deliver index sent phone hfresh hsent hphone => exact ⟨[], rfl⟩
  | respond replyHandler message reply watch hreply hmessage hwatch =>
      exact ⟨[.reply message reply], by simp [hwatch]⟩

theorem phone_reachable (hrun : Execution.execute step (start watchPrefix phonePrefix) schedule =
    some final) :
    ∃ phoneSchedule, Execution.execute Phone.step (.start phonePrefix) phoneSchedule =
      some final.phone := by
  refine Execution.execute_simulation Connection.phone ?_ hrun
  intro connection action next hnext
  cases step_step hnext with
  | watch action watch hlocal hwatch => exact ⟨[], rfl⟩
  | phone action phone hlocal hphone => exact ⟨[action], by simp [hphone]⟩
  | deliver index sent phone hfresh hsent hphone =>
      exact ⟨[.receive sent.message], by simp [hphone]⟩
  | respond replyHandler message reply watch hreply hmessage hwatch => exact ⟨[], rfl⟩

/-- Whatever value a request of the watch for sources, articles or headlines
comes out with, the phone's request in the place for it holds the same. -/
theorem watch_agrees_with_phone (hfaithful : ArchivesFaithfully)
    (hrun : Execution.execute step (start watchPrefix phonePrefix) schedule = some final)
    {index : Nat} {request : WatchRequest} (hasked : final.watch.asked[index]? = some request)
    {slot : NewsApi.Slot} (hslot : request.slot = some slot) {value : AnyValue}
    (hcompleted : final.watch.CompletedWith index value) :
    ∃ occupant, final.phone.news.api.occupant slot = some occupant ∧
      (final.phone.main.requests occupant).result = some value := by
  obtain ⟨watchSchedule, hwatchRun⟩ := watch_reachable hrun
  obtain ⟨phoneSchedule, hphoneRun⟩ := phone_reachable hrun
  have hwatch := Watch.consistent hwatchRun
  have hphone := Phone.consistent hphoneRun
  have hledger := ledger hrun
  -- the value was decoded from a reply to the message of this request
  obtain ⟨error, position, sent, reply, tables, tables', hsent, howner, hreplied, hdecoded⟩ :=
    hwatch.decoded hcompleted
  obtain ⟨index', hasked', howner'⟩ := hwatch.sent_asked (List.mem_of_getElem? hsent)
  obtain rfl : index' = index := Nat.succ.inj (howner'.symm.trans howner)
  obtain rfl : sent.request = request := Option.some.inj (hasked'.symm.trans hasked)
  obtain ⟨made, made', hmessage⟩ := hwatch.messages.made sent (List.mem_of_getElem? hsent)
  -- the phone made that reply to that message
  obtain ⟨replyHandler, hreply, hdelivered⟩ := hledger.answered position reply hreplied
  obtain ⟨sent', hsent', hreceived⟩ := hledger.arrived replyHandler position hdelivered
  obtain rfl : sent' = sent := Option.some.inj (hsent'.symm.trans hsent)
  obtain ⟨message, hreceived', horigin⟩ := hphone.reply_origin hreply
  obtain rfl : message = sent'.message := Option.some.inj (hreceived'.symm.trans hreceived)
  obtain ⟨call, callback, hintended, hplace⟩ := WatchRequest.intended_of_slot hslot
  rcases horigin with hreads | ⟨call', callback', occupant, hreads, hoccupant, hmade⟩ |
    ⟨url, image, hreads, -⟩
  · have hother := WatchRequest.reads_intended hfaithful hslot hmessage hreads
    exact absurd (hother.trans hintended) nofun
  · have hsame := WatchRequest.reads_intended hfaithful hslot hmessage hreads
    obtain ⟨rfl, rfl⟩ := WatchServer.Handling.news.inj (hsame.trans hintended)
    obtain ⟨read, hread⟩ := WatchRequest.replied_replyFor hfaithful hintended hmade tables
    rw [hread] at hdecoded
    obtain ⟨-, hresult⟩ := Prod.mk.inj (Except.ok.inj hdecoded)
    rw [hplace] at hoccupant
    exact ⟨occupant, hoccupant, (Prod.mk.inj (Option.some.inj hresult)).1⟩
  · have hother := WatchRequest.reads_intended hfaithful hslot hmessage hreads
    exact absurd (hother.trans hintended) nofun

section Samples

omit [Foundation]

/-- The watch asks for sources; the phone downloads three and replies. -/
def sourcesSchedule : letI : Foundation := .sample; List Action :=
  letI : Foundation := .sample
  [.watch (.reach true), .watch .activate, .watch (.get .sources)] ++
    List.replicate 9 (.watch .main) ++ [.deliver 0] ++ List.replicate 3 (.phone .main) ++
    [.phone (.complete 0 ⟨some sampleSourcesBody, some (.http 200), none⟩)] ++
    List.replicate 7 (.phone .main) ++ [.respond 0] ++ List.replicate 3 (.watch .main)

theorem sourcesSchedule_completes :
    letI : Foundation := .sample
    ((Execution.execute step (start "Watch" "NewsDay") sourcesSchedule).bind fun final =>
      (final.watch.asked[0]?.bind WatchRequest.slot).bind fun slot =>
        ((final.watch.main.requests (Watch.requestOf 0)).result.bind
          AnyValue.asCategorizedSources).map (Prod.mk slot)) =
            some (.sources, sampleSources) := by
  decide +kernel

theorem watch_agrees_with_phone_sources :
    letI : Foundation := .sample
    ∃ final occupant,
      Execution.execute step (start "Watch" "NewsDay") sourcesSchedule = some final ∧
        final.phone.news.api.occupant .sources = some occupant ∧
          (final.phone.main.requests occupant).result =
            some (.categorizedSources sampleSources) := by
  let _ : Foundation := .sample
  obtain ⟨final, hrun, hcompletes⟩ := Option.bind_eq_some_iff.mp sourcesSchedule_completes
  obtain ⟨slot, hslots, hcompletes⟩ := Option.bind_eq_some_iff.mp hcompletes
  obtain ⟨request, hasked, hslot⟩ := Option.bind_eq_some_iff.mp hslots
  obtain ⟨sources, hsources, hsame⟩ := Option.map_eq_some_iff.mp hcompletes
  obtain ⟨rfl, rfl⟩ := Prod.mk.inj hsame
  obtain ⟨value, hresult, hvalue⟩ := Option.bind_eq_some_iff.mp hsources
  obtain rfl := AnyValue.asCategorizedSources_eq_some.mp hvalue
  obtain ⟨occupant, hoccupant, hheld⟩ :=
    watch_agrees_with_phone sample_archivesFaithfully hrun hasked hslot (.inl hresult)
  exact ⟨final, occupant, hrun, hoccupant, hheld⟩

end Samples

end Connection

end NewsDay
