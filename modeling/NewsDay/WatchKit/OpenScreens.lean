import NewsDay.WatchKit.Browsing

/-! # What callbacks make of the screens

The screens run on top of the two processes and never hold them up. A screen
that is open registers once it has asked, and it is what its callback has made
of what the callback was given, response by response.
-/

namespace NewsDay

open Foundation

variable [Foundation]

/-! ## The two processes under the screens -/

namespace Browsing

variable {imageNamed : String → Option UIImage} {watchPrefix phonePrefix : String}
  {schedule : List Action} {browsing next final : Browsing}

theorem Step.connected (hstep : Step imageNamed browsing next) :
    next.connection = browsing.connection ∨
      ∃ action, browsing.connection.step action = some next.connection := by
  cases hstep with
  | quiet action connection hpermits hnext => exact .inr ⟨action, hnext⟩
  | receives action connection call screens hrunning hnext => exact .inr ⟨action, hnext⟩
  | stops action connection call trap hrunning hnext => exact .inr ⟨action, hnext⟩
  | asks presentation presented screen request connection hidle hpresentation hpresented hawake
      hnext => exact .inr ⟨_, hnext⟩
  | register index connection hrunning htodo hnext => exact .inr ⟨_, hnext⟩
  | _ => exact .inl rfl

/-- The two processes have run on their own. -/
theorem connection_run {first : Browsing}
    (hrun : Execution.execute (step · imageNamed) first schedule = some final) :
    ∃ connectionSchedule, Execution.execute Connection.step first.connection connectionSchedule =
      some final.connection := by
  refine Execution.execute_simulation Browsing.connection ?_ hrun
  intro browsing action next hnext
  rcases (step_step hnext).connected with hsame | ⟨action, hconnection⟩
  · exact ⟨[], hsame ▸ rfl⟩
  · refine ⟨[action], ?_⟩
    rw [Execution.execute_cons, hconnection]
    rfl

end Browsing

/-! ## What callbacks make of the screens -/

namespace OpenScreen

variable {imageNamed : String → Option UIImage} {opened : OpenScreen} {browsing next : Browsing}

/-- What the callback of the screen was given, in order. -/
def responses (opened : OpenScreen) (watch : Watch) : List (Option AnyValue) :=
  watch.main.callbackCalls.filterMap opened.response?

theorem response?_eq_some {call : WatchCall} {response : Option AnyValue} :
    opened.response? call = some response ↔ ∃ index error,
      opened.request = some index ∧ call = (Watch.requestOf index, .screen, response, error) := by
  obtain ⟨asyncRequest, callback, given, error⟩ := call
  cases callback with
  | send request settled => simp [response?]
  | screen =>
      simp only [response?, Option.ite_none_right_eq_some, Option.some.injEq,
        Option.map_eq_some_iff, Prod.mk.injEq]
      constructor
      · rintro ⟨⟨index, hrequest, rfl⟩, rfl⟩
        exact ⟨index, error, hrequest, rfl, trivial, rfl, rfl⟩
      · rintro ⟨index, _, hrequest, rfl, -, rfl, -⟩
        exact ⟨⟨index, hrequest, rfl⟩, rfl⟩

theorem mem_responses {watch : Watch} {response : Option AnyValue} :
    response ∈ opened.responses watch ↔ ∃ index error, opened.request = some index ∧
      (Watch.requestOf index, .screen, response, error) ∈ watch.main.callbackCalls := by
  simp only [responses, List.mem_filterMap, response?_eq_some]
  constructor
  · rintro ⟨call, hcall, index, error, hrequest, rfl⟩
    exact ⟨index, error, hrequest, hcall⟩
  · rintro ⟨index, error, hrequest, hcall⟩
    exact ⟨_, hcall, index, error, hrequest, rfl⟩

theorem received_of_none {call : WatchCall} (hresponse : opened.response? call = none) :
    opened.received call = .ok opened := by
  rw [received, hresponse]

theorem received_of_some {call : WatchCall} {response : Option AnyValue}
    (hresponse : opened.response? call = some response) : opened.received call =
      (opened.screen.received response).map fun screen => { opened with screen } := by
  rw [received, hresponse]
  cases hscreen : opened.screen.received response with
  | error trap => simp [bind, Except.bind, hscreen, Except.map]
  | ok screen => simp [bind, Except.bind, hscreen, Except.map, pure, Except.pure]

/-- A screen asked when it awoke, registers, and is what its callback has made
of what it was given. -/
structure Kept (imageNamed : String → Option UIImage) (opened : OpenScreen)
    (browsing : Browsing) : Prop where
  asked : ∀ index, opened.request = some index → ∃ request,
    browsing.connection.watch.asked[index]? = some request ∧
      (Screen.awake imageNamed opened.presentation).2 = some request
  registered : ∀ index, opened.request = some index → browsing.todo = some index ∨
    (Watch.requestOf index, .screen) ∈ browsing.connection.watch.main.withResultCalls
  replayed : ∃ handed, handed <+: opened.responses browsing.connection.watch ∧
    (browsing.halted = none → handed = opened.responses browsing.connection.watch) ∧
      handed.foldlM (fun screen response => screen.received response)
        (Screen.awake imageNamed opened.presentation).1 = .ok opened.screen

/-- The screen stays as it is when no response is lost on it. -/
theorem Kept.keep {called : Option WatchCall} (hkept : opened.Kept imageNamed browsing)
    (hgrows : browsing.connection.watch.Grows called next.connection.watch)
    (htodo : ∀ index, browsing.todo = some index → next.todo = some index ∨
      (Watch.requestOf index, .screen) ∈ next.connection.watch.main.withResultCalls)
    (hcalled : next.halted = none →
      browsing.halted = none ∧ ∀ call ∈ called, opened.response? call = none) :
    opened.Kept imageNamed next where
  asked := by
    intro index hrequest
    obtain ⟨request, hasked, hawake⟩ := hkept.asked index hrequest
    exact ⟨request, Execution.getElem?_of_prefix hgrows.asked hasked, hawake⟩
  registered := by
    intro index hrequest
    rcases hkept.registered index hrequest with hdue | hthere
    · exact htodo index hdue
    · exact .inr (hgrows.still_registered hthere)
  replayed := by
    obtain ⟨handed, hgiven, hall, hreplayed⟩ := hkept.replayed
    have hresponses : opened.responses next.connection.watch =
        opened.responses browsing.connection.watch ++ called.toList.filterMap opened.response? := by
      rw [responses, hgrows.calls, List.filterMap_append]
      rfl
    refine ⟨handed, ?_, ?_, hreplayed⟩
    · rw [hresponses]
      exact hgiven.trans (List.prefix_append _ _)
    · intro hrunning
      obtain ⟨hbefore, hnone⟩ := hcalled hrunning
      have hnothing : called.toList.filterMap opened.response? = [] := by
        rw [List.filterMap_eq_nil_iff]
        intro call hcall
        exact hnone call (Option.mem_toList.mp hcall)
      rw [hresponses, hnothing, List.append_nil]
      exact hall hbefore

/-- The callback of a screen is invoked. -/
theorem Kept.receive {call : WatchCall} {opened' : OpenScreen}
    (hkept : opened.Kept imageNamed browsing)
    (hgrows : browsing.connection.watch.Grows (some call) next.connection.watch)
    (htodo : next.todo = browsing.todo) (hrunning : browsing.halted = none)
    (hreceived : opened.received call = .ok opened') : opened'.Kept imageNamed next := by
  have htodo' : ∀ index, browsing.todo = some index → next.todo = some index ∨
      (Watch.requestOf index, .screen) ∈ next.connection.watch.main.withResultCalls :=
    fun index hdue => .inl (htodo.trans hdue)
  cases hresponse : opened.response? call with
  | none =>
      obtain rfl := Except.ok.inj ((received_of_none hresponse).symm.trans hreceived)
      refine hkept.keep hgrows htodo' ?_
      intro _
      refine ⟨hrunning, ?_⟩
      intro call' hcall'
      obtain rfl := Option.some.inj hcall'
      exact hresponse
  | some response =>
      rw [received_of_some hresponse] at hreceived
      cases hscreen : opened.screen.received response with
      | error trap =>
          rw [hscreen] at hreceived
          cases hreceived
      | ok screen =>
          rw [hscreen] at hreceived
          obtain rfl := Except.ok.inj hreceived
          obtain ⟨handed, -, hall, hreplayed⟩ := hkept.replayed
          obtain rfl := hall hrunning
          have hresponses : OpenScreen.responses { opened with screen } next.connection.watch =
              opened.responses browsing.connection.watch ++ [response] := by
            have hone : [call].filterMap opened.response? = [response] := by
              rw [List.filterMap_cons_some hresponse, List.filterMap_nil]
            rw [responses, hgrows.calls, List.filterMap_append]
            exact congrArg _ hone
          refine ⟨?_, ?_, _, List.prefix_refl _, fun _ => rfl, ?_⟩
          · intro index hrequest
            obtain ⟨request, hasked, hawake⟩ := hkept.asked index hrequest
            exact ⟨request, Execution.getElem?_of_prefix hgrows.asked hasked, hawake⟩
          · intro index hrequest
            rcases hkept.registered index hrequest with hdue | hthere
            · exact htodo' index hdue
            · exact .inr (hgrows.still_registered hthere)
          · rw [hresponses, List.foldlM_append, hreplayed]
            simp [bind, Except.bind, hscreen, pure, Except.pure]

/-- A screen that has just awoken. -/
theorem Kept.new {presentation : Presentation} {screen : Screen} {request : Option WatchRequest}
    {index : Option Nat} (hawake : Screen.awake imageNamed presentation = (screen, request))
    (hasked : ∀ position, index = some position → ∃ asked, request = some asked ∧
      browsing.connection.watch.asked[position]? = some asked)
    (htodo : ∀ position, index = some position → browsing.todo = some position)
    (hfresh : ∀ position response error, index = some position →
      (Watch.requestOf position, .screen, response, error) ∉
        browsing.connection.watch.main.callbackCalls) :
    Kept imageNamed { presentation, request := index, screen } browsing where
  asked := by
    intro position hposition
    obtain ⟨asked, hrequest, hthere⟩ := hasked position hposition
    exact ⟨asked, hthere, by rw [hawake, hrequest]⟩
  registered position hposition := .inl (htodo position hposition)
  replayed := by
    have hnone : OpenScreen.responses { presentation, request := index, screen }
        browsing.connection.watch = [] := by
      rw [List.eq_nil_iff_forall_not_mem]
      intro response hresponse
      obtain ⟨position, error, hposition, hcall⟩ := mem_responses.mp hresponse
      exact hfresh position response error hposition hcall
    refine ⟨[], List.nil_prefix, fun _ => hnone.symm, ?_⟩
    rw [List.foldlM_nil, hawake]
    rfl

end OpenScreen

namespace Connection

variable {connection next : Connection}

theorem step_get {request : WatchRequest}
    (hnext : connection.step (.watch (.get request)) = some next) :
    next = { connection with watch := connection.watch.get request } := by
  obtain ⟨watch, hwatch, rfl⟩ := Option.map_eq_some_iff.mp hnext
  unfold Watch.step at hwatch
  split at hwatch
  next => exact absurd hwatch.symm (Option.some_ne_none watch)
  next =>
    obtain rfl := Option.some.inj hwatch
    rfl

theorem step_listen {index : Nat} (hnext : connection.step (.watch (.listen index)) = some next) :
    (Watch.requestOf index, .screen) ∈ next.watch.main.withResultCalls := by
  obtain ⟨watch, hwatch, rfl⟩ := Option.map_eq_some_iff.mp hnext
  unfold Watch.step at hwatch
  split at hwatch
  next => exact absurd hwatch.symm (Option.some_ne_none watch)
  next =>
    obtain ⟨hindex, hwatch⟩ := Option.ite_none_right_eq_some.mp hwatch
    obtain rfl := Option.some.inj hwatch
    simp

end Connection

namespace Browsing

variable {imageNamed : String → Option UIImage} {watchPrefix phonePrefix : String}
  {schedule : List Action} {browsing next final : Browsing}

theorem todo_of_idle (hidle : browsing.idle = true) : browsing.todo = none :=
  Option.isNone_iff_eq_none.mp (Bool.and_eq_true_iff.mp hidle).2

theorem halted_of_idle (hidle : browsing.idle = true) : browsing.halted = none :=
  Option.isNone_iff_eq_none.mp (Bool.and_eq_true_iff.mp (Bool.and_eq_true_iff.mp hidle).1).1

/-- A request that was not made before has called nobody. -/
theorem fresh_calls {connectionSchedule : List Connection.Action} {connection : Connection}
    (hrun : Execution.execute Connection.step (.start watchPrefix phonePrefix) connectionSchedule =
      some connection) (response : Option AnyValue) (error : Option ErrorValue) :
    (Watch.requestOf connection.watch.asked.length, .screen, response, error) ∉
      connection.watch.main.callbackCalls := by
  intro hcall
  obtain ⟨watchSchedule, hwatchRun⟩ := Connection.watch_reachable hrun
  have hheard := Watch.mem_heard.mpr ⟨error, hcall⟩
  rw [Watch.heard_fresh hwatchRun (Nat.le_refl _)] at hheard
  cases hheard

theorem Step.kept
    (hrun : Execution.execute (step · imageNamed) (start watchPrefix phonePrefix) schedule =
      some browsing) (hstep : Step imageNamed browsing next)
    (hkept : ∀ opened ∈ browsing.screens, opened.Kept imageNamed browsing) :
    ∀ opened ∈ next.screens, opened.Kept imageNamed next := by
  have hsame : browsing.connection.watch.Grows none browsing.connection.watch :=
    .quiet (List.prefix_refl _) rfl rfl
  cases hstep with
  | quiet action connection hpermits hnext hinvoking =>
      intro opened hopened
      have hgrows := Connection.step_grows hnext
      rw [hinvoking] at hgrows
      exact (hkept opened hopened).keep hgrows (fun _ => .inl) (fun hrunning => ⟨hrunning, by simp⟩)
  | receives action connection call screens hrunning hnext hinvoking hreceived =>
      intro opened' hopened'
      have hgrows := Connection.step_grows hnext
      rw [hinvoking] at hgrows
      obtain ⟨opened, hopened, hone⟩ := FirstFault.exists_of_mem_mapM hreceived hopened'
      exact (hkept opened hopened).receive hgrows rfl hrunning hone
  | stops action connection call trap hrunning hnext hinvoking hreceived =>
      intro opened hopened
      exact (hkept opened hopened).keep (Connection.step_grows hnext) (fun _ => .inl)
        (fun hnone => absurd hnone (Option.some_ne_none trap))
  | sourcesTapped hidle =>
      intro opened hopened
      exact (hkept opened hopened).keep hsame (fun _ => .inl) (fun hrunning => ⟨hrunning, by simp⟩)
  | selects from' rowIndex presentation hidle hfrom hrow hselected =>
      intro opened hopened
      exact (hkept opened hopened).keep hsame (fun _ => .inl) (fun hrunning => ⟨hrunning, by simp⟩)
  | fails from' rowIndex trap hidle hfrom hrow hselected =>
      intro opened hopened
      exact (hkept opened hopened).keep hsame (fun _ => .inl)
        (fun hnone => absurd hnone (Option.some_ne_none trap))
  | shows presentation presented screen hidle hpresentation hpresented hawake =>
      intro opened hopened
      rcases List.mem_append.mp hopened with hold | hnew
      · exact (hkept opened hold).keep hsame (fun _ => .inl) (fun hrunning => ⟨hrunning, by simp⟩)
      · obtain rfl := List.mem_singleton.mp hnew
        exact .new hawake (by simp) (by simp) (by simp)
  | asks presentation presented screen request connection hidle hpresentation hpresented hawake
      hnext =>
      have hgrows := Connection.step_grows hnext
      intro opened hopened
      rcases List.mem_append.mp hopened with hold | hnew
      · refine (hkept opened hold).keep hgrows ?_ (fun hrunning => ⟨hrunning, ?_⟩)
        · intro index hdue
          exact absurd ((todo_of_idle hidle).symm.trans hdue) (Option.some_ne_none index).symm
        · intro call hcall
          cases hcall
      · obtain rfl := List.mem_singleton.mp hnew
        obtain ⟨connectionSchedule, hconnection⟩ := connection_run hrun
        refine .new hawake ?_ (fun _ => id) ?_
        · rintro position ⟨⟩
          refine ⟨request, rfl, ?_⟩
          simp [Connection.step_get hnext, Watch.get]
        · rintro position response error ⟨⟩ hcall
          rw [hgrows.calls] at hcall
          rcases List.mem_append.mp hcall with hbefore | hcalled
          · exact fresh_calls hconnection response error hbefore
          · cases Option.mem_toList.mp hcalled
  | register index connection hrunning htodo hnext =>
      intro opened hopened
      refine (hkept opened hopened).keep (Connection.step_grows hnext) ?_
        (fun hrunning' => ⟨hrunning', ?_⟩)
      · intro index' hdue
        obtain rfl := Option.some.inj (htodo.symm.trans hdue)
        exact .inr (Connection.step_listen hnext)
      · intro call hcall
        cases hcall

theorem kept
    (hrun : Execution.execute (step · imageNamed) (start watchPrefix phonePrefix) schedule =
      some final) : ∀ opened ∈ final.screens, opened.Kept imageNamed final := by
  refine Execution.execute_induction
    (motive := fun _ browsing => ∀ opened ∈ browsing.screens, opened.Kept imageNamed browsing)
    ?_ ?_ hrun
  · intro opened hopened
    exact absurd hopened List.not_mem_nil
  · intro schedule state action next hbefore hkept hnext
    exact (step_step hnext).kept hbefore hkept

end Browsing

end NewsDay
