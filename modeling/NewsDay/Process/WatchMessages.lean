import NewsDay.Process.WatchSteps

/-! # What the watch sends and what it makes of the replies

Each call of a public function registers one callback. The messages are those
of the callbacks that were invoked with a session, in that order, and a request
other than the session's is settled with a value only by a reply to its message.
-/

namespace NewsDay

open Foundation AsyncRequest

variable [Foundation]

def WatchCallback.send? : WatchCallback → Option (WatchRequest × Nat)
  | .send request asyncRequest => some (request, asyncRequest)
  | .screen => none

/-- What a callback of a public function sends when it is given a session. -/
def sending? (call : WatchCallback × Option AnyValue × Option ErrorValue) :
    Option (WatchRequest × Nat) :=
  (call.2.1.bind AnyValue.asSession).bind fun _ => call.1.send?

namespace Watch

/-- What has been sent for which request. -/
def sendings (watch : Watch) : List (WatchRequest × Nat) :=
  watch.sent.map fun sent => (sent.request, sent.asyncRequest)

/-- The handler of a reply to a message of this request has decoded it to these
arguments of `setResult`. -/
def Decoded (watch : Watch) (asyncRequest : Nat) (result : Option AnyValue)
    (error : Option ErrorValue) : Prop :=
  ∃ index sent reply tables tables', watch.sent[index]? = some sent ∧
    sent.asyncRequest = asyncRequest ∧ (index, reply) ∈ watch.replied ∧
      sent.request.replied reply tables = .ok (tables', some (result, error))

structure MessageLedger (watch : Watch) : Prop where
  /-- Each call registers one callback with the session's request. -/
  registered : Tagged.select WatchCallback.send? watch.main.withResultCalls =
    watch.asked.mapIdx fun index request => (asyncSession, request, requestOf index)
  sent : watch.sendings = (watch.main.callbackCalls.map Prod.snd).filterMap sending?
  made : ∀ sent ∈ watch.sent, ∃ tables tables',
    sent.request.message tables = .ok (tables', sent.message)
  /-- Values come from replies. -/
  settled : ∀ asyncRequest value error,
    (asyncRequest, some value, error) ∈ watch.main.setResultCalls →
      asyncRequest = asyncSession ∨ watch.Decoded asyncRequest (some value) error

variable {watch next : Watch} {asyncRequest : Nat} {result : Option AnyValue}
  {error : Option ErrorValue}

theorem Decoded.of_grown (hdecoded : watch.Decoded asyncRequest result error)
    (hsent : watch.sent <+: next.sent) (hreplied : watch.replied <+: next.replied) :
    next.Decoded asyncRequest result error := by
  obtain ⟨index, sent, reply, tables, tables', hindex, hrequest, hreply, hdecodes⟩ := hdecoded
  exact ⟨index, sent, reply, tables, tables', Execution.getElem?_of_prefix hsent hindex, hrequest,
    hreplied.subset hreply, hdecodes⟩

theorem MessageLedger.start (modulePrefix : String) : MessageLedger (start modulePrefix) where
  registered := rfl
  sent := rfl
  made := by
    intro sent hsent
    exact absurd hsent List.not_mem_nil
  settled := by
    intro asyncRequest value error hcall
    exact absurd hcall List.not_mem_nil

/-- A step of the main queue that invokes nothing with a session. -/
theorem MessageLedger.advance (hledger : watch.MessageLedger) {main : WatchQueue}
    (hmain : watch.main.mainStep = some main)
    (hinvoking : (watch.main.invoking.bind fun call => sending? call.2) = none) :
    MessageLedger { watch with main } := by
  have hadvanced := MainQueue.mainStep_advanced hmain
  refine { hledger with registered := ?_, sent := ?_, settled := ?_ }
  · rw [hadvanced.withResultCalls]
    exact hledger.registered
  · have hsent := hledger.sent
    rw [hadvanced.callbackCalls, List.map_append, List.filterMap_append, ← hsent]
    cases hcall : watch.main.invoking with
    | none => simp [sendings]
    | some call =>
        rw [hcall] at hinvoking
        have hnone : sending? call.2 = none := hinvoking
        simp [sendings, hnone]
  · rw [hadvanced.setResultCalls]
    exact hledger.settled

/-- A call of `setResult` whose value, if there is one, is the session or has
been decoded. -/
theorem MessageLedger.settle (hledger : watch.MessageLedger) (asyncRequest : Nat)
    (result : Option AnyValue) (error : Option ErrorValue)
    (hvalue : result ≠ none → asyncRequest = asyncSession ∨
      watch.Decoded asyncRequest result error) :
    MessageLedger { watch with main := watch.main.setResult asyncRequest result error } := by
  refine { hledger with registered := ?_, sent := ?_, settled := ?_ }
  · simpa using hledger.registered
  · simpa [sendings] using hledger.sent
  · intro other value error' hcall
    rw [MainQueue.setResult_setResultCalls] at hcall
    rcases List.mem_append.mp hcall with hold | hnew
    · exact hledger.settled other value error' hold
    · obtain ⟨rfl, rfl, rfl⟩ := List.mem_singleton.mp hnew
      exact hvalue (Option.some_ne_none value)

theorem MessageLedger.get (hledger : watch.MessageLedger) (request : WatchRequest) :
    (watch.get request).MessageLedger :=
  { hledger with
    registered := by
      simp [Watch.get, WatchCallback.send?, List.mapIdx_concat, hledger.registered]
    sent := by simpa [Watch.get, sendings] using hledger.sent
    settled := by
      intro other value error hcall
      rw [Watch.get, MainQueue.withResult_setResultCalls] at hcall
      exact hledger.settled other value error hcall }

theorem MessageLedger.listen (hledger : watch.MessageLedger) (index : Nat) :
    MessageLedger { watch with main := watch.main.withResult (requestOf index) .screen } :=
  { hledger with
    registered := by simpa [WatchCallback.send?] using hledger.registered
    sent := by simpa [sendings] using hledger.sent
    settled := by
      intro other value error hcall
      rw [MainQueue.withResult_setResultCalls] at hcall
      exact hledger.settled other value error hcall }

/-- The callback of a public function has been given a session. -/
theorem MessageLedger.deliver (hledger : watch.MessageLedger) {main : WatchQueue}
    {owner : Nat} {request : WatchRequest} {anySession : Option AnyValue}
    (hmain : watch.main.mainStep = some main)
    (hinvoking : watch.main.invoking =
      some (owner, .send request asyncRequest, anySession, error))
    (hsession : anySession.bind AnyValue.asSession = some ()) {tables tables' : ModelTables}
    {message : Message} (hmessage : request.message tables = .ok (tables', message)) :
    MessageLedger { watch with
      main
      tables := tables'
      sent := watch.sent ++ [{ request, asyncRequest, message }]
      awaiting := watch.awaiting ++ [watch.sent.length] } := by
  have hadvanced := MainQueue.mainStep_advanced hmain
  refine { registered := ?_, sent := ?_, made := ?_, settled := ?_ }
  · rw [hadvanced.withResultCalls]
    exact hledger.registered
  · have hsent := hledger.sent
    rw [hadvanced.callbackCalls, List.map_append, List.filterMap_append, ← hsent, hinvoking]
    simp [sendings, sending?, hsession, WatchCallback.send?]
  · intro sent hmem
    rcases List.mem_append.mp hmem with hold | hnew
    · exact hledger.made sent hold
    · obtain rfl := List.mem_singleton.mp hnew
      exact ⟨tables, tables', hmessage⟩
  · intro other value error' hcall
    rw [hadvanced.setResultCalls] at hcall
    rcases hledger.settled other value error' hcall with hother | hdecoded
    · exact .inl hother
    · exact .inr (hdecoded.of_grown (List.prefix_append _ _) (List.prefix_refl _))

/-- A reply is put on record before its handler runs. -/
theorem MessageLedger.record (hledger : watch.MessageLedger) (index : Nat) (reply : Message)
    (tables : ModelTables) (halted : Option Trap) :
    MessageLedger { watch with
      awaiting := watch.awaiting.erase index
      replied := watch.replied ++ [(index, reply)]
      tables
      halted } :=
  { hledger with
    settled := by
      intro asyncRequest value error hcall
      rcases hledger.settled asyncRequest value error hcall with hother | hdecoded
      · exact .inl hother
      · exact .inr (hdecoded.of_grown (List.prefix_refl _) (List.prefix_append _ _)) }

theorem MessageLedger.step (hledger : watch.MessageLedger) (hstep : Step watch next) :
    next.MessageLedger := by
  cases hstep with
  | get request => exact hledger.get request
  | listen index hindex => exact hledger.listen index
  | activate =>
      exact { hledger with }
  | reach isReachable => exact { hledger with }
  | reply index sent reply hawaited =>
      obtain ⟨hawaiting, hsent⟩ := awaited_eq_some.mp hawaited
      rcases watch.handleReply_cases index sent reply with
        ⟨tables, halted, heq⟩ | ⟨tables, result, error, hreplied, heq⟩
      · rw [heq]
        exact hledger.record index reply tables halted
      · rw [heq]
        refine (hledger.record index reply tables watch.halted).settle sent.asyncRequest result
          error fun _ => .inr ?_
        exact ⟨index, sent, reply, watch.tables, tables, hsent, rfl,
          List.mem_append_right _ (List.mem_singleton_self _), hreplied⟩
  | fail index sent error hawaited =>
      have hsettled := hledger.settle sent.asyncRequest none (some error)
        fun hvalue => absurd rfl hvalue
      exact { hsettled with }
  | idle main hmain hstarting hinvoking =>
      refine hledger.advance hmain ?_
      cases hcall : watch.main.invoking with
      | none => rfl
      | some call =>
          obtain ⟨owner, callback, anySession, error⟩ := call
          cases callback with
          | send request asyncRequest => exact absurd hcall (hinvoking _ _ _ _ _)
          | screen => simp [sending?, WatchCallback.send?]
  | activated main hmain hstarting =>
      have hmoved : MessageLedger { watch with main } := by
        refine hledger.advance hmain ?_
        rw [MainQueue.starting_invoking hstarting]
        rfl
      rcases activated_cases { watch with main } with ⟨hreachable, heq⟩ | ⟨hreachable, heq⟩
      · rw [heq]
        exact hmoved.settle asyncSession (some .session) none fun _ => .inl rfl
      · rw [heq]
        exact hmoved
  | send main owner request asyncRequest anySession error hmain hstarting hinvoking =>
      rcases send_cases { watch with main } anySession request asyncRequest with
        ⟨hsession, heq⟩ | ⟨hsession, tables, message, hmessage, heq⟩
      · rw [heq]
        have hmoved : MessageLedger { watch with main } := by
          refine hledger.advance hmain ?_
          simp [hinvoking, sending?, hsession]
        exact hmoved.settle asyncRequest none none fun hvalue => absurd rfl hvalue
      · rw [heq]
        exact hledger.deliver hmain hinvoking hsession hmessage

/-! ## Every run -/

/-- What every reachable watch satisfies: its ledger, and the contract of its
requests. -/
structure Consistent (watch : Watch) : Prop where
  messages : watch.MessageLedger
  main : watch.main.Sound

theorem consistent {modulePrefix : String} {final : Watch} {schedule : List Action}
    (hrun : Execution.execute step (start modulePrefix) schedule = some final) :
    final.Consistent := by
  have hmessages : final.MessageLedger :=
    Execution.execute_invariant MessageLedger
      (fun _ _ _ hledger hnext => hledger.step (step_step hnext).2) (.start modulePrefix) hrun
  obtain ⟨mainSchedule, hmain⟩ := main_reachable hrun
  exact ⟨hmessages, MainQueue.sound hmain⟩

/-- What a callback of a public function was registered for. -/
theorem MessageLedger.send_registered (hledger : watch.MessageLedger) {owner : Nat}
    {request : WatchRequest}
    (hcall : (owner, .send request asyncRequest) ∈ watch.main.withResultCalls) :
    owner = asyncSession ∧ ∃ index, watch.asked[index]? = some request ∧
      asyncRequest = requestOf index := by
  have hregistered : (owner, request, asyncRequest) ∈
      Tagged.select WatchCallback.send? watch.main.withResultCalls :=
    Tagged.mem_select.mpr ⟨_, hcall, rfl⟩
  rw [hledger.registered] at hregistered
  obtain ⟨index, hindex, hsame⟩ := List.mem_mapIdx.mp hregistered
  obtain ⟨rfl, rfl, rfl⟩ := hsame
  exact ⟨rfl, index, List.getElem?_eq_getElem hindex, rfl⟩

namespace Consistent

theorem send_asked (hwatch : watch.Consistent) {owner : Nat} {request : WatchRequest}
    (hcall : (owner, .send request asyncRequest, result, error) ∈ watch.main.callbackCalls) :
    owner = asyncSession ∧ ∃ index, watch.asked[index]? = some request ∧
      asyncRequest = requestOf index :=
  hwatch.messages.send_registered (hwatch.main.callback_registered hcall)

/-- A message belongs to a call of a public function. -/
theorem sent_asked (hwatch : watch.Consistent) {sent : SentMessage} (hsent : sent ∈ watch.sent) :
    ∃ index, watch.asked[index]? = some sent.request ∧ sent.asyncRequest = requestOf index := by
  have hsending : (sent.request, sent.asyncRequest) ∈ watch.sendings :=
    List.mem_map.mpr ⟨sent, hsent, rfl⟩
  rw [hwatch.messages.sent] at hsending
  obtain ⟨⟨callback, anySession, error⟩, hcall, hsends⟩ := List.mem_filterMap.mp hsending
  obtain ⟨⟨owner, _⟩, hcall, rfl⟩ := List.mem_map.mp hcall
  obtain ⟨session, hsession, hsends⟩ := Option.bind_eq_some_iff.mp hsends
  cases callback with
  | screen => exact absurd hsends.symm (Option.some_ne_none _)
  | send request asyncRequest =>
      obtain ⟨rfl, rfl⟩ := Prod.mk.inj (Option.some.inj hsends)
      exact (hwatch.send_asked hcall).2

end Consistent

end Watch

end NewsDay
