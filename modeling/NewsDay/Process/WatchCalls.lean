import NewsDay.Process.Rest

/-! # The callbacks of the watch

What a step leaves behind on the watch: the requests that are made, the
callbacks that screens register, and the one that the step invokes.
-/

namespace NewsDay

open Foundation

variable [Foundation]

/-- A callback is invoked: the request, the callback, and what it is given. -/
abbrev WatchCall := Nat × WatchCallback × Option AnyValue × Option ErrorValue

/-- The callback that a step invokes. -/
def Watch.invoking (watch : Watch) : Watch.Action → Option WatchCall
  | .main => watch.main.invoking
  | _ => none

/-- The callback that a step invokes on the watch. -/
def Connection.invoking (connection : Connection) : Connection.Action → Option WatchCall
  | .watch action => connection.watch.invoking action
  | _ => none

/-- The call with whose request a step registers the callback of a screen. -/
def Watch.Action.listening : Watch.Action → Option Nat
  | .listen index => some index
  | _ => none

/-- The call with whose request a step registers the callback of a screen. -/
def Connection.listening : Connection.Action → Option Nat
  | .watch action => action.listening
  | _ => none

/-- A step of the two processes is a step of the watch, or leaves it as it is. -/
theorem Connection.step_watch {connection next : Connection} {action : Connection.Action}
    (hnext : connection.step action = some next) :
    (next.watch = connection.watch ∧ connection.invoking action = none ∧
      listening action = none) ∨
    ∃ watchAction, connection.watch.step watchAction = some next.watch ∧
      connection.invoking action = connection.watch.invoking watchAction ∧
        listening action = watchAction.listening := by
  cases action with
  | watch action =>
      simp only [step] at hnext
      split at hnext
      next => exact absurd hnext.symm (Option.some_ne_none next)
      next =>
        obtain ⟨watch, hwatch, rfl⟩ := Option.map_eq_some_iff.mp hnext
        exact .inr ⟨action, hwatch, rfl, rfl⟩
  | phone action =>
      simp only [step] at hnext
      split at hnext
      next => exact absurd hnext.symm (Option.some_ne_none next)
      next =>
        obtain ⟨phone, -, rfl⟩ := Option.map_eq_some_iff.mp hnext
        exact .inl ⟨rfl, rfl, rfl⟩
  | deliver index =>
      obtain ⟨-, hnext⟩ := Option.ite_none_left_eq_some.mp hnext
      obtain ⟨sent, -, hnext⟩ := Option.bind_eq_some_iff.mp hnext
      obtain ⟨phone, -, rfl⟩ := Option.map_eq_some_iff.mp hnext
      exact .inl ⟨rfl, rfl, rfl⟩
  | respond index =>
      obtain ⟨answer, -, hnext⟩ := Option.bind_eq_some_iff.mp hnext
      obtain ⟨message, -, hnext⟩ := Option.bind_eq_some_iff.mp hnext
      obtain ⟨watch, hwatch, rfl⟩ := Option.map_eq_some_iff.mp hnext
      exact .inr ⟨_, hwatch, rfl, rfl⟩

theorem Watch.mainStep_grows {watch next : Watch} (hnext : watch.mainStep = some next) :
    next.asked = watch.asked ∧
      next.main.withResultCalls = watch.main.withResultCalls ∧
        next.main.callbackCalls = watch.main.callbackCalls ++ watch.main.invoking.toList := by
  refine ⟨mainStep_asked hnext, ?_⟩
  obtain ⟨main, hmain, rfl⟩ := Option.map_eq_some_iff.mp hnext
  have hadvanced := MainQueue.mainStep_advanced hmain
  dsimp only
  split
  next hstarting =>
    rcases activated_cases { watch with main } with ⟨-, heq⟩ | ⟨-, heq⟩
    · rw [heq, MainQueue.setResult_withResultCalls, MainQueue.setResult_callbackCalls]
      exact ⟨hadvanced.withResultCalls, hadvanced.callbackCalls⟩
    · rw [heq]
      exact ⟨hadvanced.withResultCalls, hadvanced.callbackCalls⟩
  next owner request asyncRequest anySession error _ _ =>
    rcases send_cases { watch with main } anySession request asyncRequest with
      ⟨-, heq⟩ | ⟨-, tables, message, -, heq⟩
    · rw [heq, MainQueue.setResult_withResultCalls, MainQueue.setResult_callbackCalls]
      exact ⟨hadvanced.withResultCalls, hadvanced.callbackCalls⟩
    · rw [heq]
      exact ⟨hadvanced.withResultCalls, hadvanced.callbackCalls⟩
  next => exact ⟨hadvanced.withResultCalls, hadvanced.callbackCalls⟩

/-- What a step leaves behind on the watch. -/
structure Watch.Grows (watch : Watch) (called : Option WatchCall) (next : Watch) : Prop where
  asked : watch.asked <+: next.asked
  /-- Screens register with requests that were made. -/
  registered : ∃ added, next.main.withResultCalls = watch.main.withResultCalls ++ added ∧
    ∀ owner, (owner, .screen) ∈ added → ∃ index < watch.asked.length, owner = requestOf index
  calls : next.main.callbackCalls = watch.main.callbackCalls ++ called.toList

theorem Watch.Grows.still_registered {watch next : Watch} {called : Option WatchCall}
    (hgrows : watch.Grows called next) {entry : Nat × WatchCallback}
    (hentry : entry ∈ watch.main.withResultCalls) : entry ∈ next.main.withResultCalls := by
  obtain ⟨added, hregistered, -⟩ := hgrows.registered
  rw [hregistered]
  exact List.mem_append_left added hentry

/-- Nobody registers, and no callback is invoked. -/
theorem Watch.Grows.quiet {watch next : Watch} (hasked : watch.asked <+: next.asked)
    (hregistered : next.main.withResultCalls = watch.main.withResultCalls)
    (hcalls : next.main.callbackCalls = watch.main.callbackCalls) : watch.Grows none next where
  asked := hasked
  registered := by
    refine ⟨[], by rw [hregistered, List.append_nil], ?_⟩
    intro owner hmem
    exact absurd hmem List.not_mem_nil
  calls := by rw [hcalls, Option.toList_none, List.append_nil]

theorem Watch.step_grows {watch next : Watch} {action : Watch.Action}
    (hnext : watch.step action = some next) : watch.Grows (watch.invoking action) next := by
  unfold Watch.step at hnext
  split at hnext
  next => exact absurd hnext.symm (Option.some_ne_none next)
  next =>
    cases action with
    | main =>
        obtain ⟨hasked, hregistered, hcalls⟩ := Watch.mainStep_grows hnext
        refine ⟨hasked ▸ List.prefix_refl _, ⟨[], ?_, ?_⟩, hcalls⟩
        · rw [hregistered, List.append_nil]
        · intro owner hmem
          exact absurd hmem List.not_mem_nil
    | get request =>
        obtain rfl := Option.some.inj hnext
        refine ⟨List.prefix_append _ _, ⟨_, MainQueue.withResult_withResultCalls .., ?_⟩, ?_⟩
        · intro owner hmem
          cases List.mem_singleton.mp hmem
        · simp [Watch.get, invoking]
    | listen index =>
        obtain ⟨hindex, hnext⟩ := Option.ite_none_right_eq_some.mp hnext
        obtain rfl := Option.some.inj hnext
        refine ⟨List.prefix_refl _, ⟨_, MainQueue.withResult_withResultCalls .., ?_⟩, ?_⟩
        · intro owner hmem
          exact ⟨index, hindex, (Prod.mk.inj (List.mem_singleton.mp hmem)).1⟩
        · simp [invoking]
    | activate =>
        obtain rfl := Option.some.inj hnext
        exact .quiet (List.prefix_refl _) (by simp) (by simp)
    | reach isReachable =>
        obtain rfl := Option.some.inj hnext
        exact .quiet (List.prefix_refl _) rfl rfl
    | reply index reply =>
        obtain ⟨sent, -, rfl⟩ := Option.map_eq_some_iff.mp hnext
        rcases watch.handleReply_cases index sent reply with
          ⟨tables, halted, heq⟩ | ⟨tables, result, error, -, heq⟩
        · rw [heq]
          exact .quiet (List.prefix_refl _) rfl rfl
        · rw [heq]
          exact .quiet (List.prefix_refl _) (by simp) (by simp)
    | fail index error =>
        obtain ⟨sent, -, rfl⟩ := Option.map_eq_some_iff.mp hnext
        exact .quiet (List.prefix_refl _) (by simp [handleError]) (by simp [handleError])

theorem Connection.step_grows {connection next : Connection} {action : Connection.Action}
    (hnext : connection.step action = some next) :
    connection.watch.Grows (connection.invoking action) next.watch := by
  rcases step_watch hnext with ⟨hsame, hinvoking, -⟩ | ⟨watchAction, hwatch, hinvoking, -⟩
  · rw [hsame, hinvoking]
    exact .quiet (List.prefix_refl _) rfl rfl
  · rw [hinvoking]
    exact Watch.step_grows hwatch

/-- A callback of a screen is registered with a request that was made. -/
theorem Watch.screen_asked {modulePrefix : String} {schedule : List Watch.Action} {watch : Watch}
    (hrun : Execution.execute Watch.step (.start modulePrefix) schedule = some watch)
    {owner : Nat} (hregistered : (owner, .screen) ∈ watch.main.withResultCalls) :
    ∃ index < watch.asked.length, owner = requestOf index := by
  refine Execution.execute_invariant (fun watch : Watch => ∀ owner,
    (owner, .screen) ∈ watch.main.withResultCalls →
      ∃ index < watch.asked.length, owner = requestOf index) ?_ ?_ hrun owner hregistered
  · intro watch action next hasked hnext owner hmem
    have hgrows := Watch.step_grows hnext
    have hlength := hgrows.asked.length_le
    obtain ⟨added, hcalls, hadded⟩ := hgrows.registered
    rw [hcalls] at hmem
    rcases List.mem_append.mp hmem with hold | hnew
    · obtain ⟨index, hindex, rfl⟩ := hasked owner hold
      exact ⟨index, Nat.lt_of_lt_of_le hindex hlength, rfl⟩
    · obtain ⟨index, hindex, rfl⟩ := hadded owner hnew
      exact ⟨index, Nat.lt_of_lt_of_le hindex hlength, rfl⟩
  · intro owner hmem
    exact absurd hmem List.not_mem_nil

/-! ## What a step asks -/

/-- A step makes one request and invokes no callback, or makes none. -/
theorem Watch.step_asks {watch next : Watch} {action : Watch.Action}
    (hnext : watch.step action = some next) :
    (∃ request, next.asked = watch.asked ++ [request] ∧ watch.invoking action = none) ∨
      next.asked = watch.asked := by
  unfold Watch.step at hnext
  split at hnext
  next => exact absurd hnext.symm (Option.some_ne_none next)
  next =>
    cases action with
    | get request =>
        obtain rfl := Option.some.inj hnext
        exact .inl ⟨request, rfl, rfl⟩
    | main => exact .inr (Watch.mainStep_asked hnext)
    | listen index =>
        obtain ⟨-, hnext⟩ := Option.ite_none_right_eq_some.mp hnext
        obtain rfl := Option.some.inj hnext
        exact .inr rfl
    | reply index reply =>
        obtain ⟨sent, -, rfl⟩ := Option.map_eq_some_iff.mp hnext
        rcases watch.handleReply_cases index sent reply with
          ⟨tables, halted, heq⟩ | ⟨tables, result, error, -, heq⟩
        · rw [heq]
          exact .inr rfl
        · rw [heq]
          exact .inr rfl
    | fail index error =>
        obtain ⟨sent, -, rfl⟩ := Option.map_eq_some_iff.mp hnext
        exact .inr rfl
    | _ =>
        obtain rfl := Option.some.inj hnext
        exact .inr rfl

theorem Connection.step_asks {connection next : Connection} {action : Connection.Action}
    (hnext : connection.step action = some next) :
    (∃ request, next.watch.asked = connection.watch.asked ++ [request] ∧
      connection.invoking action = none) ∨ next.watch.asked = connection.watch.asked := by
  rcases step_watch hnext with ⟨hsame, -, -⟩ | ⟨watchAction, hwatch, hinvoking, -⟩
  · exact .inr (congrArg Watch.asked hsame)
  · rw [hinvoking]
    exact Watch.step_asks hwatch

/-! ## The screens that listen to one request -/

def WatchCallback.isScreen : WatchCallback → Bool
  | .screen => true
  | .send _ _ => false

/-- What an invocation tells the screens that listen to the request of the call at
the position. -/
def screenResponse? (index : Nat) : WatchCall → Option (Option AnyValue)
  | (owner, callback, response, _) =>
      if owner = Watch.requestOf index ∧ callback.isScreen then some response else none

namespace Watch

/-- What these screens were told, in order. -/
def heard (watch : Watch) (index : Nat) : List (Option AnyValue) :=
  watch.main.callbackCalls.filterMap (screenResponse? index)

/-- How many times screens have registered with the request. -/
def listeners (watch : Watch) (index : Nat) : Nat :=
  watch.main.withResultCalls.countP fun entry =>
    decide (entry.1 = requestOf index) && entry.2.isScreen

variable {watch next : Watch} {index : Nat}

theorem screenResponse?_eq_some {call : WatchCall} {response : Option AnyValue} :
    screenResponse? index call = some response ↔
      ∃ error, call = (requestOf index, .screen, response, error) := by
  obtain ⟨owner, callback, given, error⟩ := call
  cases callback with
  | send request asyncRequest => simp [screenResponse?, WatchCallback.isScreen]
  | screen =>
      simp only [screenResponse?, WatchCallback.isScreen, and_true, Option.ite_none_right_eq_some,
        Option.some.injEq, Prod.mk.injEq]
      constructor
      · rintro ⟨rfl, rfl⟩
        exact ⟨error, rfl, trivial, rfl, rfl⟩
      · rintro ⟨_, rfl, -, rfl, -⟩
        exact ⟨rfl, rfl⟩

/-- An invocation is with one request. -/
theorem screenResponse?_index {index' : Nat} {call : WatchCall} {response response' : Option AnyValue}
    (hresponse : screenResponse? index call = some response)
    (hresponse' : screenResponse? index' call = some response') : index' = index := by
  obtain ⟨error, rfl⟩ := screenResponse?_eq_some.mp hresponse
  obtain ⟨error', hsame⟩ := screenResponse?_eq_some.mp hresponse'
  exact (Nat.succ.inj (Prod.mk.inj hsame).1).symm

/-- An invocation with one request tells nobody with another. -/
theorem bind_screenResponse?_of_ne {index' : Nat} {called : Option WatchCall}
    {response : Option AnyValue} (hresponse : called.bind (screenResponse? index) = some response)
    (hne : index' ≠ index) : called.bind (screenResponse? index') = none := by
  obtain ⟨call, rfl, hcall⟩ := Option.bind_eq_some_iff.mp hresponse
  by_contra hother
  obtain ⟨response', hcall'⟩ := Option.ne_none_iff_exists'.mp hother
  exact hne (screenResponse?_index hcall hcall')

theorem mem_heard {response : Option AnyValue} : response ∈ watch.heard index ↔
    ∃ error, (requestOf index, .screen, response, error) ∈ watch.main.callbackCalls := by
  simp only [heard, List.mem_filterMap, screenResponse?_eq_some]
  constructor
  · rintro ⟨call, hcall, error, rfl⟩
    exact ⟨error, hcall⟩
  · rintro ⟨error, hcall⟩
    exact ⟨_, hcall, error, rfl⟩

theorem heard_length : (watch.heard index).length =
    (AsyncRequest.invoked (watch.main.events (requestOf index))).countP WatchCallback.isScreen := by
  rw [AsyncRequest.invoked, MainQueue.invocations_events, List.countP_map, heard]
  induction watch.main.callbackCalls with
  | nil => rfl
  | cons call rest ih =>
      obtain ⟨owner, callback, response, error⟩ := call
      by_cases howner : owner = requestOf index
      · cases callback with
        | send request asyncRequest =>
            simpa [screenResponse?, howner, WatchCallback.isScreen, List.countP_cons] using ih
        | screen =>
            simpa [screenResponse?, howner, WatchCallback.isScreen, List.countP_cons] using ih
      · simp [screenResponse?, howner, ih]

theorem listeners_eq : watch.listeners index =
    (AsyncRequest.withResults (watch.main.events (requestOf index))).countP
      WatchCallback.isScreen := by
  rw [MainQueue.withResults_events, listeners]
  induction watch.main.withResultCalls with
  | nil => rfl
  | cons entry rest ih =>
      obtain ⟨owner, callback⟩ := entry
      by_cases howner : owner = requestOf index
      · simp [howner, List.countP_cons, ih]
      · simp [howner, ih]

/-- No screen is told that has not registered. -/
theorem heard_le {modulePrefix : String} {schedule : List Action}
    (hrun : Execution.execute step (start modulePrefix) schedule = some watch) (index : Nat) :
    (watch.heard index).length ≤ watch.listeners index := by
  obtain ⟨mainSchedule, hmain⟩ := main_reachable hrun
  rw [heard_length, listeners_eq]
  have hinvoked := MainQueue.Sound.invoked_prefix (MainQueue.sound hmain) (requestOf index)
  exact hinvoked.sublist.countP_le

/-- Nobody listens to a request that was not made. -/
theorem listeners_fresh {modulePrefix : String} {schedule : List Action}
    (hrun : Execution.execute step (start modulePrefix) schedule = some watch)
    (hindex : watch.asked.length ≤ index) : watch.listeners index = 0 := by
  rw [listeners, List.countP_eq_zero]
  rintro ⟨owner, callback⟩ hentry hlistens
  obtain ⟨howner, hscreen⟩ := Bool.and_eq_true_iff.mp hlistens
  cases callback with
  | send request asyncRequest => exact Bool.false_ne_true hscreen
  | screen =>
      obtain ⟨made, hmade, hsame⟩ := screen_asked hrun hentry
      obtain rfl : index = made := Nat.succ.inj ((of_decide_eq_true howner).symm.trans hsame)
      exact Nat.not_lt.mpr hindex hmade

theorem heard_fresh {modulePrefix : String} {schedule : List Action}
    (hrun : Execution.execute step (start modulePrefix) schedule = some watch)
    (hindex : watch.asked.length ≤ index) : watch.heard index = [] := by
  have hle := heard_le hrun index
  rw [listeners_fresh hrun hindex] at hle
  exact List.eq_nil_of_length_eq_zero (Nat.le_zero.mp hle)

/-- At rest every screen was told, if the request is settled. -/
theorem heard_at_rest {modulePrefix : String} {schedule : List Action}
    (hrun : Execution.execute step (start modulePrefix) schedule = some watch)
    (hdrained : watch.main.Drained)
    (hset : AsyncRequest.setResults (watch.main.events (requestOf index)) ≠ []) :
    (watch.heard index).length = watch.listeners index := by
  obtain ⟨mainSchedule, hmain⟩ := main_reachable hrun
  rw [heard_length, listeners_eq, (MainQueue.sound hmain).drained_invoked hdrained hset]

theorem Grows.heard_eq {called : Option WatchCall} (hgrows : watch.Grows called next)
    (index : Nat) :
    next.heard index = watch.heard index ++ (called.bind (screenResponse? index)).toList := by
  rw [heard, hgrows.calls, List.filterMap_append]
  cases called with
  | none => rfl
  | some call => cases hresponse : screenResponse? index call <;> simp [hresponse, heard]

end Watch

/-- A step registers the callback of one screen, or of none. -/
theorem Watch.step_listeners {watch next : Watch} {action : Watch.Action}
    (hnext : watch.step action = some next) (index : Nat) : next.listeners index =
      watch.listeners index + if action.listening = some index then 1 else 0 := by
  have hsame (hcalls : next.main.withResultCalls = watch.main.withResultCalls) :
      next.listeners index = watch.listeners index + 0 := by
    rw [listeners, listeners, hcalls, Nat.add_zero]
  unfold Watch.step at hnext
  split at hnext
  next => exact absurd hnext.symm (Option.some_ne_none next)
  next =>
    cases action with
    | get request =>
        obtain rfl := Option.some.inj hnext
        simp [listeners, Watch.get, WatchCallback.isScreen, Action.listening]
    | listen position =>
        obtain ⟨-, hnext⟩ := Option.ite_none_right_eq_some.mp hnext
        obtain rfl := Option.some.inj hnext
        simp [listeners, WatchCallback.isScreen, Action.listening, requestOf, List.countP_cons]
    | main => exact hsame (mainStep_grows hnext).2.1
    | reply position reply =>
        obtain ⟨sent, -, rfl⟩ := Option.map_eq_some_iff.mp hnext
        rcases watch.handleReply_cases position sent reply with
          ⟨tables, halted, heq⟩ | ⟨tables, result, error, -, heq⟩
        · exact hsame (by rw [heq])
        · exact hsame (by rw [heq, MainQueue.setResult_withResultCalls])
    | fail position error =>
        obtain ⟨sent, -, rfl⟩ := Option.map_eq_some_iff.mp hnext
        exact hsame (MainQueue.setResult_withResultCalls ..)
    | activate =>
        obtain rfl := Option.some.inj hnext
        exact hsame (MainQueue.async_withResultCalls ..)
    | reach isReachable =>
        obtain rfl := Option.some.inj hnext
        exact hsame rfl

theorem Connection.step_listeners {connection next : Connection} {action : Connection.Action}
    (hnext : connection.step action = some next) (index : Nat) : next.watch.listeners index =
      connection.watch.listeners index + if listening action = some index then 1 else 0 := by
  rcases step_watch hnext with ⟨hsame, -, hlistening⟩ | ⟨watchAction, hwatch, -, hlistening⟩
  · rw [hsame, hlistening]
    rfl
  · rw [hlistening]
    exact Watch.step_listeners hwatch index

end NewsDay
