import NewsDay.Process.WatchMessages

/-! # Every request is sent once, when the session is there

The callbacks of the public functions wait with the session's request, which
only the activation block settles and always with the session. So the messages
follow the calls one by one, and nobody is ever handed a missing session.
-/

namespace NewsDay

open Foundation AsyncRequest

variable [Foundation]

namespace Watch

/-! ## The session's request -/

/-- What the session's request was set to. -/
def sessionCalls (watch : Watch) : List (Option AnyValue × Option ErrorValue) :=
  Tagged.ownedBy asyncSession watch.main.setResultCalls

/-- The action starts an activation block that finds the session reachable. -/
def findsReachable (watch : Watch) : Action → Bool
  | .main => watch.main.starting.isSome && watch.isReachable
  | _ => false

variable {watch next : Watch}

theorem mainStep_sessionCalls (hledger : watch.MessageLedger)
    (hcallback : ∀ owner request asyncRequest anySession error, watch.main.invoking =
      some (owner, .send request asyncRequest, anySession, error) →
        (owner, .send request asyncRequest) ∈ watch.main.withResultCalls)
    (hnext : watch.mainStep = some next) :
    next.sessionCalls = watch.sessionCalls ++
      if watch.findsReachable .main then [(some .session, none)] else [] := by
  obtain ⟨main, hmain, rfl⟩ := Option.map_eq_some_iff.mp hnext
  have hcalls := (MainQueue.mainStep_advanced hmain).setResultCalls
  dsimp only
  split
  next _ hstarting =>
    rcases activated_cases { watch with main } with ⟨hreachable, heq⟩ | ⟨hreachable, heq⟩
    · have hfinds : watch.findsReachable .main = true := by
        simpa [findsReachable, hstarting] using hreachable
      rw [heq, hfinds]
      simp [sessionCalls, hcalls]
    · have hfinds : watch.findsReachable .main = false := by
        simpa [findsReachable, hstarting] using hreachable
      rw [heq, hfinds]
      simp [sessionCalls, hcalls]
  next owner request asyncRequest anySession error hstarting hinvoking =>
    have hfinds : watch.findsReachable .main = false := by simp [findsReachable, hstarting]
    rw [hfinds]
    rcases send_cases { watch with main } anySession request asyncRequest with
      ⟨hsession, heq⟩ | ⟨hsession, tables, message, hmessage, heq⟩
    · -- the request of a public function is not the session's
      obtain ⟨-, index, -, rfl⟩ := hledger.send_registered (hcallback _ _ _ _ _ hinvoking)
      rw [heq]
      simp [sessionCalls, hcalls, requestOf, asyncSession]
    · rw [heq]
      simp [sessionCalls, hcalls]
  next hstarting _ =>
    have hfinds : watch.findsReachable .main = false := by simp [findsReachable, hstarting]
    rw [hfinds]
    simp [sessionCalls, hcalls]

variable {modulePrefix : String} {schedule : List Action}

theorem invoking_registered
    (hrun : Execution.execute step (start modulePrefix) schedule = some watch) {owner : Nat}
    {callback : WatchCallback} {anySession : Option AnyValue} {error : Option ErrorValue}
    (hinvoking : watch.main.invoking = some (owner, callback, anySession, error)) :
    (owner, anySession, error) ∈ watch.main.setResultCalls ∧
      (owner, callback) ∈ watch.main.withResultCalls := by
  obtain ⟨mainSchedule, hmain⟩ := main_reachable hrun
  exact MainQueue.invoking_called hmain hinvoking

/-- Only an activation block that finds the session reachable sets the
session's request, and to the session. -/
theorem step_sessionCalls
    (hrun : Execution.execute step (start modulePrefix) schedule = some watch) {action : Action}
    (hnext : watch.step action = some next) :
    next.sessionCalls = watch.sessionCalls ++
      if watch.findsReachable action then [(some .session, none)] else [] := by
  have hwatch := consistent hrun
  have hsettle : ∀ index sent, watch.awaited index = some sent →
      sent.asyncRequest ≠ asyncSession := by
    intro index sent hawaited
    have hsent := List.mem_of_getElem? (awaited_eq_some.mp hawaited).2
    obtain ⟨index, -, hrequest⟩ := hwatch.sent_asked hsent
    rw [hrequest]
    exact Nat.succ_ne_zero index
  unfold step at hnext
  rw [(step_step hnext).1] at hnext
  cases action with
  | get request =>
      obtain rfl := Option.some.inj hnext
      simp [sessionCalls, findsReachable, Watch.get]
  | listen index =>
      obtain ⟨-, hnext⟩ := Option.ite_none_right_eq_some.mp hnext
      obtain rfl := Option.some.inj hnext
      simp [sessionCalls, findsReachable]
  | activate =>
      obtain rfl := Option.some.inj hnext
      simp [sessionCalls, findsReachable]
  | reach isReachable =>
      obtain rfl := Option.some.inj hnext
      simp [sessionCalls, findsReachable]
  | reply index reply =>
      obtain ⟨sent, hawaited, rfl⟩ := Option.map_eq_some_iff.mp hnext
      rcases watch.handleReply_cases index sent reply with
        ⟨tables, halted, heq⟩ | ⟨tables, result, error, hreplied, heq⟩
      · rw [heq]
        simp [sessionCalls, findsReachable]
      · rw [heq]
        simp [sessionCalls, findsReachable, hsettle index sent hawaited]
  | fail index error =>
      obtain ⟨sent, hawaited, rfl⟩ := Option.map_eq_some_iff.mp hnext
      simp [sessionCalls, findsReachable, handleError, hsettle index sent hawaited]
  | main =>
      refine mainStep_sessionCalls hwatch.messages ?_ hnext
      exact fun _ _ _ _ _ hinvoking => (invoking_registered hrun hinvoking).2

/-! ## Every run -/

/-- An activation block of the run has found the session reachable. -/
def FoundReachable (modulePrefix : String) (schedule : List Action) : Prop :=
  Execution.Takes step (start modulePrefix) schedule fun watch action =>
    watch.findsReachable action = true

/-- The session's request was set to the session each time, and it was set
exactly if an activation block has found the session reachable. -/
structure SessionLedger (modulePrefix : String) (schedule : List Action) (watch : Watch) : Prop where
  session : ∀ call ∈ watch.sessionCalls, call = (some .session, none)
  found : watch.sessionCalls ≠ [] ↔ FoundReachable modulePrefix schedule

theorem sessionLedger
    (hrun : Execution.execute step (start modulePrefix) schedule = some watch) :
    SessionLedger modulePrefix schedule watch := by
  refine Execution.execute_induction ?_ ?_ hrun
  · refine ⟨fun call hcall => absurd hcall List.not_mem_nil, ?_⟩
    exact iff_of_false (fun hne => hne rfl) (Execution.not_takes_nil _ _)
  · intro schedule state action next hrun hledger hnext
    have hcalls := step_sessionCalls hrun hnext
    constructor
    · intro call hcall
      rw [hcalls] at hcall
      rcases List.mem_append.mp hcall with hold | hnew
      · exact hledger.session call hold
      · split at hnew
        · exact List.mem_singleton.mp hnew
        · exact absurd hnew List.not_mem_nil
    · rw [FoundReachable, Execution.takes_concat_iff hrun, ← FoundReachable, ← hledger.found, hcalls]
      cases state.findsReachable action <;> simp

/-- The calls of the public functions, each with the request that it returned. -/
def calls (watch : Watch) : List (WatchRequest × Nat) :=
  watch.asked.mapIdx fun index request => (request, requestOf index)

/-- The callbacks of the public functions, in the order of the calls. -/
theorem MessageLedger.waiting (hledger : watch.MessageLedger) :
    (withResults (watch.main.events asyncSession)).filterMap WatchCallback.send? =
      watch.calls := by
  rw [MainQueue.withResults_events, ← Tagged.ownedBy_select, hledger.registered]
  have howned : (watch.asked.mapIdx fun index request =>
      (asyncSession, request, requestOf index)) = watch.calls.map (Prod.mk asyncSession) := by
    simp [calls, List.mapIdx_eq_zipIdx_map]
  rw [howned, Tagged.ownedBy_map_self]

/-- Every callback of the session's request receives the session. -/
theorem invocations_session
    (hrun : Execution.execute step (start modulePrefix) schedule = some watch) :
    ∀ call ∈ invocations (watch.main.events asyncSession), call.2 = (some .session, none) := by
  intro call hcall
  refine (sessionLedger hrun).session _ ?_
  rw [sessionCalls, ← MainQueue.setResults_events]
  exact ((consistent hrun).main.valid asyncSession).pair_called hcall

/-- No callback of a public function is about to receive a missing session. -/
theorem invoking_session
    (hrun : Execution.execute step (start modulePrefix) schedule = some watch)
    {owner asyncRequest : Nat} {request : WatchRequest} {anySession : Option AnyValue}
    {error : Option ErrorValue}
    (hinvoking : watch.main.invoking =
      some (owner, .send request asyncRequest, anySession, error)) :
    anySession.bind AnyValue.asSession = some () := by
  obtain ⟨hcalled, hregistered⟩ := invoking_registered hrun hinvoking
  obtain ⟨rfl, -⟩ := (consistent hrun).messages.send_registered hregistered
  have hsession := (sessionLedger hrun).session _ (Tagged.mem_ownedBy.mpr hcalled)
  obtain ⟨rfl, -⟩ := Prod.mk.inj hsession
  rfl

/-- The messages are those of the callbacks that were called. -/
theorem sendings_eq_invoked
    (hrun : Execution.execute step (start modulePrefix) schedule = some watch) :
    watch.sendings =
      (invoked (watch.main.events asyncSession)).filterMap WatchCallback.send? := by
  have hwatch := consistent hrun
  have howner : ∀ entry ∈ watch.main.callbackCalls, entry.1 ≠ asyncSession →
      sending? entry.2 = none := by
    rintro ⟨owner, callback, anySession, error⟩ hcall hne
    cases callback with
    | send request asyncRequest => exact absurd (hwatch.send_asked hcall).1 hne
    | screen => simp [sending?, WatchCallback.send?]
  rw [hwatch.messages.sent, Tagged.filterMap_of_owner howner, ← MainQueue.invocations_events,
    invoked, List.filterMap_map]
  refine List.filterMap_congr fun call hcall => ?_
  have hsession := invocations_session hrun call hcall
  simp [sending?, hsession, AnyValue.asSession]

theorem sendings_follow_calls
    (hrun : Execution.execute step (start modulePrefix) schedule = some watch) :
    watch.sendings <+: watch.calls := by
  have hwatch := consistent hrun
  rw [sendings_eq_invoked hrun, ← hwatch.messages.waiting]
  exact (hwatch.main.invoked_prefix asyncSession).filterMap WatchCallback.send?

/-- A message is that of the call at the same position. -/
theorem sent_call
    (hrun : Execution.execute step (start modulePrefix) schedule = some watch) {index : Nat}
    {sent : SentMessage} (hsent : watch.sent[index]? = some sent) :
    watch.asked[index]? = some sent.request ∧ sent.asyncRequest = requestOf index := by
  have hsending : watch.sendings[index]? = some (sent.request, sent.asyncRequest) := by
    rw [sendings, List.getElem?_map, hsent]
    rfl
  have hcall := Execution.getElem?_of_prefix (sendings_follow_calls hrun) hsending
  rw [calls, List.getElem?_mapIdx] at hcall
  obtain ⟨request, hrequest, hsame⟩ := Option.map_eq_some_iff.mp hcall
  obtain ⟨rfl, hasync⟩ := Prod.mk.inj hsame
  exact ⟨hrequest, hasync.symm⟩

/-- In every run, nothing is sent before an activation block has found the
session reachable; the messages are those of the first calls, in their order;
once a block has found it and the main queue is drained, they are those of all
calls; and no callback is about to receive a missing session. -/
theorem sends_once_when_connected
    (hrun : Execution.execute step (start modulePrefix) schedule = some watch) :
    (watch.sent ≠ [] → FoundReachable modulePrefix schedule) ∧
      watch.sendings <+: watch.calls ∧
      (FoundReachable modulePrefix schedule → watch.main.Drained →
        watch.sendings = watch.calls) ∧
      ∀ owner request asyncRequest anySession error, watch.main.invoking =
        some (owner, .send request asyncRequest, anySession, error) →
          anySession.bind AnyValue.asSession ≠ none := by
  have hwatch := consistent hrun
  have hledger := sessionLedger hrun
  have hsendings := sendings_eq_invoked hrun
  refine ⟨?_, ?_, ?_, ?_⟩
  · intro hsent
    rw [← hledger.found, sessionCalls, ← MainQueue.setResults_events]
    intro hnone
    have hinvoked : invoked (watch.main.events asyncSession) = [] := by
      rw [List.eq_nil_iff_forall_not_mem]
      intro callback hcallback
      obtain ⟨call, hcall, -⟩ := List.mem_map.mp hcallback
      have hcalled := (hwatch.main.valid asyncSession).pair_called hcall
      have hnone' : setResults (watch.main.view asyncSession).events = [] := hnone
      rw [hnone'] at hcalled
      exact absurd hcalled List.not_mem_nil
    rw [hinvoked] at hsendings
    exact hsent (List.map_eq_nil_iff.mp hsendings)
  · exact sendings_follow_calls hrun
  · intro hfound hdrained
    rw [hsendings, ← hwatch.messages.waiting, hwatch.main.drained_invoked hdrained]
    rw [MainQueue.setResults_events]
    exact hledger.found.mpr hfound
  · intro owner request asyncRequest anySession error hinvoking
    rw [invoking_session hrun hinvoking]
    exact Option.some_ne_none ()

section Samples

omit [Foundation]

/-- A call before activation, and an activation that finds the phone in reach. -/
def sendingSchedule : letI : Foundation := .sample; List Action :=
  letI : Foundation := .sample
  [.get .sources, .activate, .reach true] ++ List.replicate 10 .main

theorem sendingSchedule_sends :
    letI : Foundation := .sample
    ((Execution.execute step (start "Watch") sendingSchedule).map fun watch =>
      watch.sent.map SentMessage.asyncRequest) = some [requestOf 0] := by
  decide +kernel

theorem sends_once_when_connected_sources :
    letI : Foundation := .sample
    ∃ watch : Watch, Execution.execute step (start "Watch") sendingSchedule = some watch ∧
      watch.sent ≠ [] ∧ FoundReachable "Watch" sendingSchedule := by
  let _ : Foundation := .sample
  obtain ⟨watch, hrun, hsent⟩ := Option.map_eq_some_iff.mp sendingSchedule_sends
  have hne : watch.sent ≠ [] := by
    intro hnone
    rw [hnone] at hsent
    exact absurd hsent (by simp)
  exact ⟨watch, hrun, hne, (sends_once_when_connected hrun).1 hne⟩

end Samples

end Watch

end NewsDay
