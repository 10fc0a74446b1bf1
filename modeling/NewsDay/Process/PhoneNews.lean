import NewsDay.Process.PhoneSteps

/-! # Single flight

Whatever the screens and the watch ask for and in whatever order things happen,
the cache stays coherent and a request is handed to one download, whose data
task makes one call of `setResult`. So nobody sets the result of a request of
the news service twice.
-/

namespace NewsDay

open Foundation AsyncRequest

variable [Foundation]

/-- The data tasks that will set the result of a request. -/
def tasksFor (request : Nat) (tasks : List DataTask) : List DataTask :=
  tasks.filter fun task => task.resultWrapper = request

theorem tasksFor_append (request : Nat) (first second : List DataTask) :
    tasksFor request (first ++ second) = tasksFor request first ++ tasksFor request second :=
  List.filter_append first second

theorem tasksFor_cons (request : Nat) (task : DataTask) (rest : List DataTask) :
    tasksFor request (task :: rest) =
      if task.resultWrapper = request then task :: tasksFor request rest
      else tasksFor request rest := by
  by_cases htask : task.resultWrapper = request
  · simp [tasksFor, htask]
  · simp [tasksFor, htask]

namespace Phone

/-- The cache is coherent, and the calls of `setResult` on a request and the
data tasks that will make one are no more than the downloads of the request. -/
structure NewsLedger (phone : Phone) : Prop where
  coherent : phone.news.Coherent
  single : ∀ request, (Tagged.ownedBy request phone.main.setResultCalls).length +
    (tasksFor request phone.tasks).length ≤ (phone.news.downloadsOf request).length

variable {phone next : Phone}

theorem NewsLedger.start (modulePrefix : String) : NewsLedger (start modulePrefix) where
  coherent := .start
  single _ := Nat.zero_le _

/-- A request is set at most once. -/
theorem NewsLedger.setResults_length (hledger : phone.NewsLedger) (request : Nat) :
    (setResults (phone.main.events request)).length ≤ 1 := by
  rw [MainQueue.setResults_events]
  have hsingle := hledger.single request
  have hdownloads := hledger.coherent.downloadsOf_length request
  omega

theorem NewsLedger.of_calls (hledger : phone.NewsLedger) (hnews : next.news = phone.news)
    (htasks : next.tasks = phone.tasks)
    (hcalls : next.main.setResultCalls = phone.main.setResultCalls) : next.NewsLedger where
  coherent := by
    rw [hnews]
    exact hledger.coherent
  single := by
    rw [hnews, htasks, hcalls]
    exact hledger.single

theorem NewsLedger.settle (hledger : phone.NewsLedger) {before after : List DataTask}
    {task : DataTask} (result : Option AnyValue) (error : Option ErrorValue)
    (htasks : phone.tasks = before ++ task :: after) :
    NewsLedger { phone with
      tasks := before ++ after
      main := phone.main.setResult task.resultWrapper result error } where
  coherent := hledger.coherent
  single := by
    intro request
    have hsingle := hledger.single request
    rw [htasks, tasksFor_append, tasksFor_cons] at hsingle
    rw [MainQueue.setResult_setResultCalls, Tagged.ownedBy_append, Tagged.ownedBy_cons,
      tasksFor_append]
    by_cases htask : task.resultWrapper = request
    · rw [if_pos htask] at hsingle ⊢
      simp only [List.length_append, List.length_cons, Tagged.ownedBy_nil, List.length_nil]
        at hsingle ⊢
      omega
    · rw [if_neg htask] at hsingle ⊢
      simpa using hsingle

/-- A call adds a download and at most one data task for it, or neither. -/
theorem NewsLedger.getNews (hledger : phone.NewsLedger) (call : NewsApi.Call)
    (callback : PhoneCallback) : (phone.getNews call callback).NewsLedger where
  coherent := hledger.coherent.perform call
  single := by
    intro request
    have hsingle := hledger.single request
    rcases phone.news.perform_cases call with ⟨cached, hslot, heq⟩ | ⟨hslot, heq⟩
    · rw [getNews_of_occupied callback hslot, heq]
      exact hsingle
    · rw [getNews_of_empty callback hslot, heq]
      have htasks : (tasksFor request (call.download.start phone.news.created).toList).length ≤
          (Tagged.ownedBy request [(phone.news.created, call.download)]).length := by
        cases hstart : call.download.start phone.news.created with
        | none => exact Nat.zero_le _
        | some task =>
            have hwrapper := Download.start_resultWrapper hstart
            rw [Option.toList_some, tasksFor_cons, Tagged.ownedBy_cons, hwrapper]
            split <;> exact Nat.le_refl _
      unfold NewsApi.History.downloadsOf at hsingle ⊢
      dsimp only
      rw [tasksFor_append, Tagged.ownedBy_append, List.length_append, List.length_append]
      omega

theorem NewsLedger.step (hledger : phone.NewsLedger) (hstep : Step phone next) :
    next.NewsLedger := by
  cases hstep with
  | receive message => exact hledger.of_calls rfl rfl rfl
  | browse call => exact hledger.of_calls rfl rfl rfl
  | listen request hrequest => exact hledger.of_calls rfl rfl (by simp)
  | settle before after task result error htasks => exact hledger.settle result error htasks
  | retrieve before after replyHandler image hretrievals => exact hledger.of_calls rfl rfl rfl
  | register request callback htodo => exact hledger.of_calls rfl rfl (by simp)
  | idle main htodo hmain hstarting hinvoking =>
      exact hledger.of_calls rfl rfl (MainQueue.mainStep_advanced hmain).setResultCalls
  | answer main request replyHandler callback result error htodo hmain hstarting hinvoking =>
      obtain ⟨halted, tables, replies, heq⟩ := answer_frame { phone with main } replyHandler
        callback result
      rw [heq]
      exact hledger.of_calls rfl rfl (MainQueue.mainStep_advanced hmain).setResultCalls
  | ask main call htodo hmain hstarting =>
      have hmoved : NewsLedger { phone with main } :=
        hledger.of_calls rfl rfl (MainQueue.mainStep_advanced hmain).setResultCalls
      exact hmoved.getNews call .screen
  | handle main message replyHandler htodo hmain hstarting =>
      have hmoved : NewsLedger { phone with main } :=
        hledger.of_calls rfl rfl (MainQueue.mainStep_advanced hmain).setResultCalls
      rcases handle_frame { phone with main } message replyHandler with
        ⟨halted, tables, handled, replies, retrievals, heq⟩ | ⟨call, callback, tables, handled, heq⟩
      · rw [heq]
        exact hmoved.of_calls rfl rfl rfl
      · rw [heq]
        exact (hmoved.getNews call callback).of_calls rfl rfl rfl

theorem newsLedger {modulePrefix : String} {schedule : List Action}
    (hrun : Execution.execute step (start modulePrefix) schedule = some phone) :
    phone.NewsLedger :=
  Execution.execute_invariant NewsLedger
    (fun _ _ _ hledger hnext => hledger.step (step_step hnext).2) (.start modulePrefix) hrun

end Phone

end NewsDay
