import NewsDay.Models.Values
import NewsDay.Network.MainQueueCalls

/-! # One request between its producer and its consumers

A producer settles a request when it is done, and consumers register callbacks
that work on a common state. Registrations, the end of the producer and blocks
of other code come in any order; a callback that traps stops the process. What
the callbacks keep is shown once here, for every producer and all consumers.
-/

namespace NewsDay

open AsyncRequest

/-- The code around one request: the calls of `setResult` that the producer
ends with, what a consumer does before it calls `withResult`, and the callback
that it registers. -/
structure Delivery (Listener Result Failure State : Type) where
  settle : Except Trap (List (Option Result × Option Failure))
  prepare : Listener → State → State
  receive : Listener → Option Result → Option Failure → State → Except Trap State

namespace Delivery

variable {Listener Result Failure State : Type}

structure Process (Listener Result Failure State : Type) where
  main : MainQueue Listener Result Failure Unit
  /-- The consumers that have called `withResult`, in this order. -/
  listening : List Listener
  /-- Whether the producer is done. -/
  finished : Bool
  state : State
  /-- How the process was stopped, if it was. -/
  halted : Option Trap

/-- The identity of the request. -/
def request : Nat := 0

/-- A process in which the request has just been made. -/
def Process.start (state : State) : Process Listener Result Failure State where
  main := .start
  listening := []
  finished := false
  state
  halted := none

/-- The consumers whose callbacks were invoked. -/
def Process.called (process : Process Listener Result Failure State) : List Listener :=
  invoked (process.main.events request)

inductive Action (Listener : Type)
  /-- The producer is done, on any thread. -/
  | finish
  /-- A consumer registers its callback. -/
  | listen (listener : Listener)
  /-- A block of other code is dispatched. -/
  | other
  | main

/-- A call of `setResult` on the request. -/
def settleRequest (main : MainQueue Listener Result Failure Unit)
    (call : Option Result × Option Failure) : MainQueue Listener Result Failure Unit :=
  main.setResult request call.1 call.2

section Code

variable (delivery : Delivery Listener Result Failure State)
  (process : Process Listener Result Failure State)

def finish : Process Listener Result Failure State :=
  match delivery.settle with
  | .error trap => { process with finished := true, halted := some trap }
  | .ok calls => { process with
      finished := true
      main := calls.foldl settleRequest process.main }

def listen (listener : Listener) : Process Listener Result Failure State :=
  { process with
    main := process.main.withResult request listener
    listening := process.listening ++ [listener]
    state := delivery.prepare listener process.state }

/-- A step of the main thread to this queue, with the callback that it invokes. -/
def advance (main : MainQueue Listener Result Failure Unit) :
    Process Listener Result Failure State :=
  match process.main.invoking with
  | none => { process with main }
  | some (_, listener, result, error) =>
      match delivery.receive listener result error process.state with
      | .error trap => { process with main, halted := some trap }
      | .ok state => { process with main, state }

end Code

section Steps

variable [DecidableEq Listener] (delivery : Delivery Listener Result Failure State)
  (process : Process Listener Result Failure State)

/-- The producer is done once, and a consumer registers one callback. -/
def perform : Action Listener → Option (Process Listener Result Failure State)
  | .finish => if process.finished then none else some (delivery.finish process)
  | .listen listener =>
      if listener ∈ process.listening then none else some (delivery.listen process listener)
  | .other => some { process with main := process.main.async () }
  | .main => process.main.mainStep.map (delivery.advance process)

/-- Nothing happens any more in a process that was stopped. -/
def step (action : Action Listener) : Option (Process Listener Result Failure State) :=
  match process.halted with
  | some _ => none
  | none => delivery.perform process action

end Steps

variable {delivery : Delivery Listener Result Failure State}
  {process next : Process Listener Result Failure State}

/-- What a step does, told by what has happened. -/
theorem step_cases [DecidableEq Listener] {action : Action Listener}
    (hnext : delivery.step process action = some next) :
    process.halted = none ∧
      ((process.finished = false ∧ next = delivery.finish process) ∨
        (∃ listener, listener ∉ process.listening ∧ next = delivery.listen process listener) ∨
        next = { process with main := process.main.async () } ∨
        ∃ main, process.main.mainStep = some main ∧ next = delivery.advance process main) := by
  have hhalted : process.halted = none := by
    cases hhalted : process.halted with
    | none => rfl
    | some trap => simp [step, hhalted] at hnext
  refine ⟨hhalted, ?_⟩
  simp only [step, hhalted] at hnext
  cases action with
  | finish =>
      obtain ⟨hfinished, hnext⟩ := Option.ite_none_left_eq_some.mp hnext
      exact .inl ⟨Bool.eq_false_iff.mpr hfinished, (Option.some.inj hnext).symm⟩
  | listen listener =>
      obtain ⟨hlistener, hnext⟩ := Option.ite_none_left_eq_some.mp hnext
      exact .inr (.inl ⟨listener, hlistener, (Option.some.inj hnext).symm⟩)
  | other => exact .inr (.inr (.inl (Option.some.inj hnext).symm))
  | main =>
      obtain ⟨main, hmain, rfl⟩ := Option.map_eq_some_iff.mp hnext
      exact .inr (.inr (.inr ⟨main, hmain, rfl⟩))

/-- The callback that a step of the main thread invokes changes neither the
queue nor who is listening. -/
theorem advance_frame (delivery : Delivery Listener Result Failure State)
    (process : Process Listener Result Failure State)
    (main : MainQueue Listener Result Failure Unit) :
    (delivery.advance process main).main = main ∧
      (delivery.advance process main).listening = process.listening ∧
        (delivery.advance process main).finished = process.finished := by
  unfold advance
  split
  · exact ⟨rfl, rfl, rfl⟩
  · split <;> exact ⟨rfl, rfl, rfl⟩

/-! ## The queue of a run -/

theorem foldl_settleRequest (calls : List (Option Result × Option Failure))
    (main : MainQueue Listener Result Failure Unit) :
    Execution.execute MainQueue.step main
        (calls.map fun call => .setResult request call.1 call.2) =
      some (calls.foldl settleRequest main) := by
  induction calls generalizing main with
  | nil => rfl
  | cons call rest ih => exact ih (settleRequest main call)

theorem foldl_settleRequest_calls (calls : List (Option Result × Option Failure))
    (main : MainQueue Listener Result Failure Unit) :
    (calls.foldl settleRequest main).setResultCalls =
        main.setResultCalls ++ calls.map (Prod.mk request) ∧
      (calls.foldl settleRequest main).withResultCalls = main.withResultCalls ∧
        (calls.foldl settleRequest main).callbackCalls = main.callbackCalls := by
  induction calls generalizing main with
  | nil => simp
  | cons call rest ih =>
      obtain ⟨hcalls, hrequested, hinvoked⟩ := ih (settleRequest main call)
      rw [List.foldl_cons, hcalls, hrequested, hinvoked]
      simp [settleRequest]

/-- The calls of `setResult` that were made. -/
def calls (delivery : Delivery Listener Result Failure State) (finished : Bool) :
    List (Option Result × Option Failure) :=
  if finished then delivery.settle.toOption.getD [] else []

/-- The queue is a run of the main queue, with the calls of the producer and of
the consumers and no others. -/
structure Wired (delivery : Delivery Listener Result Failure State)
    (process : Process Listener Result Failure State) : Prop where
  reachable : ∃ schedule, Execution.execute MainQueue.step .start schedule = some process.main
  settled : process.main.setResultCalls = (delivery.calls process.finished).map (Prod.mk request)
  registered : process.main.withResultCalls = process.listening.map (Prod.mk request)

theorem Wired.start (state : State) : delivery.Wired (.start state) :=
  ⟨⟨[], rfl⟩, rfl, rfl⟩

theorem Wired.finish (hwired : delivery.Wired process) (hfinished : process.finished = false) :
    delivery.Wired (delivery.finish process) := by
  obtain ⟨⟨schedule, hrun⟩, hsettled, hregistered⟩ := hwired
  have hcalls : process.main.setResultCalls = [] := by
    rw [hsettled, hfinished]
    rfl
  unfold Delivery.finish
  cases hsettle : delivery.settle with
  | error trap =>
      refine ⟨⟨schedule, hrun⟩, ?_, hregistered⟩
      simp [hcalls, calls, hsettle, Except.toOption]
  | ok settled =>
      obtain ⟨hnext, hrequested, -⟩ := foldl_settleRequest_calls settled process.main
      refine ⟨⟨_, Execution.execute_append_of_eq_some hrun (foldl_settleRequest settled _)⟩, ?_,
        hrequested.trans hregistered⟩
      simp [hnext, hcalls, calls, hsettle, Except.toOption]

theorem Wired.step [DecidableEq Listener] (hwired : delivery.Wired process)
    {action : Action Listener} (hnext : delivery.step process action = some next) :
    delivery.Wired next := by
  obtain ⟨schedule, hrun⟩ := hwired.reachable
  rcases (step_cases hnext).2 with ⟨hfinished, rfl⟩ | ⟨listener, -, rfl⟩ | rfl | ⟨main, hmain, rfl⟩
  · exact hwired.finish hfinished
  · refine ⟨⟨schedule ++ [.withResult request listener], ?_⟩, ?_, ?_⟩
    · exact Execution.execute_concat_eq_some.mpr ⟨_, hrun, rfl⟩
    · simp [listen, hwired.settled]
    · simp [listen, hwired.registered]
  · refine ⟨⟨schedule ++ [.async ()], ?_⟩, hwired.settled, hwired.registered⟩
    exact Execution.execute_concat_eq_some.mpr ⟨_, hrun, rfl⟩
  · obtain ⟨hsame, hlistening, hfinished⟩ := delivery.advance_frame process main
    have hadvanced := MainQueue.mainStep_advanced hmain
    refine ⟨⟨schedule ++ [.main], ?_⟩, ?_, ?_⟩
    · rw [hsame]
      exact Execution.execute_concat_eq_some.mpr ⟨_, hrun, hmain⟩
    · rw [hsame, hfinished, hadvanced.setResultCalls, hwired.settled]
    · rw [hsame, hlistening, hadvanced.withResultCalls, hwired.registered]

theorem called_eq (process : Process Listener Result Failure State) :
    process.called = (Tagged.ownedBy request process.main.callbackCalls).map Prod.fst := by
  rw [Process.called, invoked, MainQueue.invocations_events]

/-- Which consumers were called is told by the callbacks of the queue. -/
theorem called_congr (hcalls : next.main.callbackCalls = process.main.callbackCalls) :
    next.called = process.called := by
  rw [called_eq, called_eq, hcalls]

/-- The callback that the next step of the main thread invokes is that of a
consumer that is listening, and receives a pair of the producer. -/
theorem Wired.invoking (hwired : delivery.Wired process) {id : Nat} {listener : Listener}
    {result : Option Result} {error : Option Failure}
    (hinvoking : process.main.invoking = some (id, listener, result, error)) :
    id = request ∧ listener ∈ process.listening ∧
      (result, error) ∈ delivery.calls process.finished := by
  obtain ⟨schedule, hrun⟩ := hwired.reachable
  obtain ⟨hcalled, hrequested⟩ := MainQueue.invoking_called hrun hinvoking
  rw [hwired.settled] at hcalled
  rw [hwired.registered] at hrequested
  obtain ⟨call, hcall, hpair⟩ := List.mem_map.mp hcalled
  obtain ⟨other, hother, hlistener⟩ := List.mem_map.mp hrequested
  obtain ⟨rfl, rfl⟩ := Prod.mk.inj hpair
  obtain ⟨-, rfl⟩ := Prod.mk.inj hlistener
  exact ⟨rfl, hother, hcall⟩

/-! ## What the callbacks keep -/

/-- A property of the consumers that are listening, of those that were called
and of the state, kept by each registration and by each callback that receives
one of these pairs. -/
structure Kept (delivery : Delivery Listener Result Failure State)
    (pairs : List (Option Result × Option Failure))
    (property : List Listener → List Listener → State → Prop) : Prop where
  prepare : ∀ listening called state listener, property listening called state →
    listener ∉ listening →
      property (listening ++ [listener]) called (delivery.prepare listener state)
  receive : ∀ listening called state listener pair, property listening called state →
    listener ∈ listening → pair ∈ pairs →
      ∃ next, delivery.receive listener pair.1 pair.2 state = .ok next ∧
        property listening (called ++ [listener]) next

variable {pairs : List (Option Result × Option Failure)}
  {property : List Listener → List Listener → State → Prop} {state : State}

/-- The state is as it was before the first callback, and in its final form
after it. -/
def Final (before after : State) (_ : List Listener) (called : List Listener) (state : State) :
    Prop :=
  (called = [] → state = before) ∧ (called ≠ [] → state = after)

/-- A callback that puts the state into its final form, whether it is there or
not, does so at its first call. -/
theorem kept_of_final {result : Option Result} {error : Option Failure} {before after : State}
    (hprepare : ∀ listener state, delivery.prepare listener state = state)
    (hbefore : ∀ listener, delivery.receive listener result error before = .ok after)
    (hafter : ∀ listener, delivery.receive listener result error after = .ok after) :
    delivery.Kept [(result, error)] (Final before after) where
  prepare _ _ state listener hstate _ := by
    rw [hprepare]
    exact hstate
  receive _ called state listener pair hstate _ hpair := by
    obtain rfl := List.mem_singleton.mp hpair
    refine ⟨after, ?_, by simp, fun _ => rfl⟩
    by_cases hcalled : called = []
    · rw [hstate.1 hcalled]
      exact hbefore listener
    · rw [hstate.2 hcalled]
      exact hafter listener

theorem final_start (before after : State) :
    Final before after ([] : List Listener) [] before :=
  ⟨fun _ => rfl, fun hne => absurd rfl hne⟩

/-- While no callback has trapped, the property holds. -/
def Process.Meets (process : Process Listener Result Failure State)
    (property : List Listener → List Listener → State → Prop) : Prop :=
  process.halted = none ∧ property process.listening process.called process.state

theorem Process.Meets.finish (hsettle : delivery.settle = .ok pairs)
    (hmeets : process.Meets property) :
    (delivery.finish process).Meets property := by
  obtain ⟨-, -, hinvoked⟩ := foldl_settleRequest_calls pairs process.main
  simp only [Delivery.finish, hsettle]
  refine ⟨hmeets.1, ?_⟩
  rw [called_congr hinvoked]
  exact hmeets.2

theorem Kept.advance (hkept : delivery.Kept pairs property) (hsettle : delivery.settle = .ok pairs)
    (hwired : delivery.Wired process) (hmeets : process.Meets property)
    {main : MainQueue Listener Result Failure Unit} (hmain : process.main.mainStep = some main) :
    (delivery.advance process main).Meets property := by
  have hinvoked := (MainQueue.mainStep_advanced hmain).callbackCalls
  obtain ⟨hhalted, hproperty⟩ := hmeets
  unfold Delivery.advance
  cases hinvoking : process.main.invoking with
  | none =>
      refine ⟨hhalted, ?_⟩
      rw [hinvoking, Option.toList_none, List.append_nil] at hinvoked
      rw [called_congr hinvoked]
      exact hproperty
  | some invocation =>
      obtain ⟨id, listener, result, error⟩ := invocation
      obtain ⟨rfl, hlistener, hpair⟩ := hwired.invoking hinvoking
      have hpairs : (result, error) ∈ pairs := by
        unfold calls at hpair
        rw [hsettle] at hpair
        split at hpair
        · exact hpair
        · exact absurd hpair List.not_mem_nil
      obtain ⟨state, hreceive, hnext⟩ :=
        hkept.receive _ _ _ listener (result, error) hproperty hlistener hpairs
      simp only [hreceive]
      refine ⟨hhalted, ?_⟩
      rw [hinvoking, Option.toList_some] at hinvoked
      simp only [called_eq, hinvoked, Tagged.ownedBy_append, List.map_append]
      rw [← called_eq]
      exact hnext

theorem Kept.step [DecidableEq Listener] (hkept : delivery.Kept pairs property)
    (hsettle : delivery.settle = .ok pairs) (hwired : delivery.Wired process)
    (hmeets : process.Meets property) {action : Action Listener}
    (hnext : delivery.step process action = some next) : next.Meets property := by
  rcases (step_cases hnext).2 with ⟨-, rfl⟩ | ⟨listener, hlistener, rfl⟩ | rfl | ⟨main, hmain, rfl⟩
  · exact hmeets.finish hsettle
  · refine ⟨hmeets.1, ?_⟩
    rw [called_congr (MainQueue.withResult_callbackCalls ..)]
    exact hkept.prepare _ _ _ listener hmeets.2 hlistener
  · exact hmeets
  · exact hkept.advance hsettle hwired hmeets hmain

/-- What every registration and every callback keeps holds in every run, and
the process goes on. -/
theorem Kept.run [DecidableEq Listener] (hkept : delivery.Kept pairs property)
    (hsettle : delivery.settle = .ok pairs) (hinit : property [] [] state)
    {schedule : List (Action Listener)}
    (hrun : Execution.execute delivery.step (.start state) schedule = some process) :
    delivery.Wired process ∧ process.Meets property := by
  refine Execution.execute_invariant (fun process => delivery.Wired process ∧
    process.Meets property) ?_ ⟨.start state, rfl, hinit⟩ hrun
  rintro process action next ⟨hwired, hmeets⟩ hnext
  exact ⟨hwired.step hnext, hkept.step hsettle hwired hmeets hnext⟩

/-- Once the producer has settled the request and the queue is drained, every
consumer that is listening was called. -/
theorem Wired.drained (hwired : delivery.Wired process) (hdrained : process.main.Drained)
    (hfinished : process.finished = true) (hsettle : delivery.settle = .ok pairs)
    (hpairs : pairs ≠ []) : process.called = process.listening := by
  obtain ⟨schedule, hrun⟩ := hwired.reachable
  have hset : setResults (process.main.events request) = pairs := by
    rw [MainQueue.setResults_events, hwired.settled, Tagged.ownedBy_map_self, hfinished, calls,
      hsettle]
    rfl
  have hne : setResults (process.main.events request) ≠ [] := hset ▸ hpairs
  have hcalled := (MainQueue.sound hrun).drained_invoked hdrained hne
  rw [Process.called, hcalled, MainQueue.withResults_events, hwired.registered,
    Tagged.ownedBy_map_self]

section Stopping

variable [DecidableEq Listener] {main : MainQueue Listener Result Failure Unit}
  (hhalted : process.halted = none) (hmain : process.main.mainStep = some main)
include hhalted hmain

/-- A step that invokes no callback. -/
theorem step_main_quiet (hinvoking : process.main.invoking = none) :
    delivery.step process .main = some { process with main } := by
  simp [step, perform, hhalted, hmain, advance, hinvoking]

/-- A step that invokes a callback which traps. -/
theorem step_main_trapped {id : Nat} {listener : Listener} {result : Option Result}
    {error : Option Failure} {trap : Trap}
    (hinvoking : process.main.invoking = some (id, listener, result, error))
    (hreceive : delivery.receive listener result error process.state = .error trap) :
    delivery.step process .main = some { process with main, halted := some trap } := by
  simp [step, perform, hhalted, hmain, advance, hinvoking, hreceive]

end Stopping

/-- A consumer whose callback does not take the pair of the producer stops the
process in some run. -/
theorem exists_halted [DecidableEq Listener] (listener : Listener) (state : State)
    {result : Option Result} {error : Option Failure} {trap : Trap}
    (hsettle : delivery.settle = .ok [(result, error)])
    (hreceive : delivery.receive listener result error (delivery.prepare listener state) =
      .error trap) :
    ∃ schedule process, Execution.execute delivery.step (.start state) schedule = some process ∧
      process.halted = some trap := by
  have hfinish : ∀ process : Process Listener Result Failure State,
      process.halted = none → process.finished = false → delivery.step process .finish =
        some { process with
          finished := true
          main := process.main.setResult request result error } := by
    intro process hhalted hfinished
    simp [step, perform, hhalted, hfinished, finish, hsettle, settleRequest]
  -- the registration block runs, then that of the producer up to the callback
  refine ⟨[.listen listener, .main, .main, .finish, .main, .main, .main, .main, .main], ?_⟩
  simp only [Execution.execute_cons_eq_some, Execution.execute_nil]
  exact ⟨_, ⟨_, rfl, _, step_main_quiet rfl rfl rfl, _, step_main_quiet rfl rfl rfl,
    _, hfinish _ rfl rfl, _, step_main_quiet rfl rfl rfl, _, step_main_quiet rfl rfl rfl,
    _, step_main_quiet rfl rfl rfl, _, step_main_quiet rfl rfl rfl,
    _, step_main_trapped rfl rfl rfl hreceive, rfl⟩, rfl⟩

/-- So not every run goes on. -/
theorem not_always_running [DecidableEq Listener] (listener : Listener) (state : State)
    {result : Option Result} {error : Option Failure} {trap : Trap}
    (hsettle : delivery.settle = .ok [(result, error)])
    (hreceive : delivery.receive listener result error (delivery.prepare listener state) =
      .error trap) :
    ¬ ∀ schedule process, Execution.execute delivery.step (.start state) schedule = some process →
      process.halted = none := by
  intro hrunning
  obtain ⟨schedule, process, hrun, hhalted⟩ := exists_halted listener state hsettle hreceive
  exact Option.some_ne_none trap (hhalted.symm.trans (hrunning schedule process hrun))

end Delivery

end NewsDay
