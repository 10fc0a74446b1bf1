import NewsDay.Models.Transfer
import NewsDay.Process.Watch

/-! # What one step of the watch can do

Every action is inverted once, as for the phone. The code that a step runs is
described by what it adds to the calls and to the messages.
-/

namespace NewsDay

open Foundation

variable [Foundation]

/-- A message can always be made. -/
theorem WatchRequest.message_ok (request : WatchRequest) (tables : ModelTables) :
    ∃ tables' message, request.message tables = .ok (tables', message) := by
  cases request with
  | sources => exact ⟨tables, _, rfl⟩
  | articles source =>
      simp only [message, WatchClient.articlesMessage, source.keyedArchive_eq tables, bind,
        Except.bind]
      exact ⟨_, _, rfl⟩
  | image url => exact ⟨tables, _, rfl⟩
  | headlines country limit => exact ⟨tables, _, rfl⟩

namespace Watch

/-- The steps of a watch. -/
inductive Step : Watch → Watch → Prop
  | get (watch : Watch) (request : WatchRequest) : Step watch (watch.get request)
  | listen (watch : Watch) (index : Nat) (hindex : index < watch.asked.length) :
      Step watch { watch with main := watch.main.withResult (requestOf index) .screen }
  | activate (watch : Watch) : Step watch { watch with main := watch.main.async .activated }
  | reach (watch : Watch) (isReachable : Bool) : Step watch { watch with isReachable }
  | reply (watch : Watch) (index : Nat) (sent : SentMessage) (reply : Message)
      (hawaited : watch.awaited index = some sent) :
      Step watch (watch.handleReply index sent reply)
  | fail (watch : Watch) (index : Nat) (sent : SentMessage) (error : ErrorValue)
      (hawaited : watch.awaited index = some sent) :
      Step watch (watch.handleError index sent error)
  | idle (watch : Watch) (main : WatchQueue) (hmain : watch.main.mainStep = some main)
      (hstarting : watch.main.starting = none)
      (hinvoking : ∀ owner request asyncRequest anySession error, watch.main.invoking ≠
        some (owner, .send request asyncRequest, anySession, error)) :
      Step watch { watch with main }
  | activated (watch : Watch) (main : WatchQueue) (hmain : watch.main.mainStep = some main)
      (hstarting : watch.main.starting = some .activated) :
      Step watch (activated { watch with main })
  | send (watch : Watch) (main : WatchQueue) (owner : Nat) (request : WatchRequest)
      (asyncRequest : Nat) (anySession : Option AnyValue) (error : Option ErrorValue)
      (hmain : watch.main.mainStep = some main) (hstarting : watch.main.starting = none)
      (hinvoking : watch.main.invoking =
        some (owner, .send request asyncRequest, anySession, error)) :
      Step watch (send { watch with main } anySession request asyncRequest)

variable {watch next : Watch}

theorem mainStep_step (hnext : watch.mainStep = some next) : Step watch next := by
  obtain ⟨main, hmain, rfl⟩ := Option.map_eq_some_iff.mp hnext
  dsimp only
  split
  next _ hstarting => exact .activated watch main hmain hstarting
  next owner request asyncRequest anySession error hstarting hinvoking =>
    exact .send watch main owner request asyncRequest anySession error hmain hstarting hinvoking
  next hstarting hother => exact .idle watch main hmain hstarting hother

theorem step_step {action : Action} (hnext : watch.step action = some next) :
    watch.halted = none ∧ Step watch next := by
  unfold step at hnext
  cases hhalted : watch.halted with
  | some trap => simp [hhalted] at hnext
  | none =>
      rw [hhalted] at hnext
      refine ⟨rfl, ?_⟩
      cases action with
      | get request =>
          obtain rfl := Option.some.inj hnext
          exact .get watch request
      | listen index =>
          obtain ⟨hindex, hnext⟩ := Option.ite_none_right_eq_some.mp hnext
          obtain rfl := Option.some.inj hnext
          exact .listen watch index hindex
      | activate =>
          obtain rfl := Option.some.inj hnext
          exact .activate watch
      | reach isReachable =>
          obtain rfl := Option.some.inj hnext
          exact .reach watch isReachable
      | reply index reply =>
          obtain ⟨sent, hawaited, rfl⟩ := Option.map_eq_some_iff.mp hnext
          exact .reply watch index sent reply hawaited
      | fail index error =>
          obtain ⟨sent, hawaited, rfl⟩ := Option.map_eq_some_iff.mp hnext
          exact .fail watch index sent error hawaited
      | main => exact mainStep_step hnext

theorem awaited_eq_some {index : Nat} {sent : SentMessage} :
    watch.awaited index = some sent ↔ index ∈ watch.awaiting ∧ watch.sent[index]? = some sent :=
  Option.ite_none_right_eq_some

/-! ## The code that a step runs -/

/-- The activation block settles the session's request, or does nothing. -/
theorem activated_cases (watch : Watch) :
    (watch.isReachable = true ∧ watch.activated =
      { watch with main := watch.main.setResult asyncSession (some .session) none }) ∨
      (watch.isReachable = false ∧ watch.activated = watch) := by
  unfold activated
  cases hreachable : watch.isReachable with
  | true => exact .inl ⟨rfl, rfl⟩
  | false => exact .inr ⟨rfl, rfl⟩

/-- The callback of a public function sends the message, or settles the
request with nothing when there is no session. -/
theorem send_cases (watch : Watch) (anySession : Option AnyValue) (request : WatchRequest)
    (asyncRequest : Nat) :
    (anySession.bind AnyValue.asSession = none ∧ watch.send anySession request asyncRequest =
      { watch with main := watch.main.setResult asyncRequest none none }) ∨
      (anySession.bind AnyValue.asSession = some () ∧ ∃ tables message,
        request.message watch.tables = .ok (tables, message) ∧
          watch.send anySession request asyncRequest = { watch with
            tables
            sent := watch.sent ++ [{ request, asyncRequest, message }]
            awaiting := watch.awaiting ++ [watch.sent.length] }) := by
  unfold send
  cases hsession : anySession.bind AnyValue.asSession with
  | none => exact .inl ⟨rfl, rfl⟩
  | some session =>
      obtain ⟨tables, message, hmessage⟩ := request.message_ok watch.tables
      refine .inr ⟨rfl, tables, message, hmessage, ?_⟩
      rw [hmessage]

/-- A reply handler settles its request with what it decodes, or does not. -/
theorem handleReply_cases (watch : Watch) (index : Nat) (sent : SentMessage) (reply : Message) :
    (∃ tables halted, watch.handleReply index sent reply = { watch with
      awaiting := watch.awaiting.erase index
      replied := watch.replied ++ [(index, reply)]
      tables
      halted }) ∨
      ∃ tables result error,
        sent.request.replied reply watch.tables = .ok (tables, some (result, error)) ∧
          watch.handleReply index sent reply = { watch with
            awaiting := watch.awaiting.erase index
            replied := watch.replied ++ [(index, reply)]
            tables
            main := watch.main.setResult sent.asyncRequest result error } := by
  unfold handleReply
  dsimp only
  split
  next trap _ => exact .inl ⟨watch.tables, some trap, rfl⟩
  next tables _ => exact .inl ⟨tables, watch.halted, rfl⟩
  next tables result error hreplied => exact .inr ⟨tables, result, error, hreplied, rfl⟩

/-! ## The main queue of a watch -/

theorem Step.simulated (hstep : Step watch next) :
    ∃ schedule, Execution.execute MainQueue.step watch.main schedule = some next.main := by
  cases hstep with
  | get request => exact ⟨[.withResult _ _], rfl⟩
  | listen index hindex => exact ⟨[.withResult _ _], rfl⟩
  | activate => exact ⟨[.async _], rfl⟩
  | reach isReachable => exact ⟨[], rfl⟩
  | reply index sent reply hawaited =>
      rcases watch.handleReply_cases index sent reply with
        ⟨tables, halted, heq⟩ | ⟨tables, result, error, hreplied, heq⟩
      · rw [heq]
        exact ⟨[], rfl⟩
      · rw [heq]
        exact ⟨[.setResult _ _ _], rfl⟩
  | fail index sent error hawaited => exact ⟨[.setResult _ _ _], rfl⟩
  | idle main hmain hstarting hinvoking =>
      refine ⟨[.main], ?_⟩
      simp [MainQueue.step, hmain]
  | activated main hmain hstarting =>
      rcases activated_cases { watch with main } with ⟨hreachable, heq⟩ | ⟨hreachable, heq⟩
      · rw [heq]
        refine ⟨[.main, .setResult asyncSession (some .session) none], ?_⟩
        simp [MainQueue.step, hmain]
      · rw [heq]
        refine ⟨[.main], ?_⟩
        simp [MainQueue.step, hmain]
  | send main owner request asyncRequest anySession error hmain hstarting hinvoking =>
      rcases send_cases { watch with main } anySession request asyncRequest with
        ⟨hsession, heq⟩ | ⟨hsession, tables, message, hmessage, heq⟩
      · rw [heq]
        refine ⟨[.main, .setResult asyncRequest none none], ?_⟩
        simp [MainQueue.step, hmain]
      · rw [heq]
        refine ⟨[.main], ?_⟩
        simp [MainQueue.step, hmain]

/-- The main queue of a watch is one that runs. -/
theorem main_reachable {modulePrefix : String} {final : Watch} {schedule : List Action}
    (hrun : Execution.execute step (start modulePrefix) schedule = some final) :
    ∃ mainSchedule, Execution.execute MainQueue.step .start mainSchedule = some final.main :=
  Execution.execute_simulation Watch.main (fun _ _ _ hnext => (step_step hnext).2.simulated) hrun

end Watch

end NewsDay
