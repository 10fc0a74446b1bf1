import NewsDay.Network.NewsApiResponses
import NewsDay.Process.PhoneReplies
import NewsDay.Process.SingleFlight

/-! # What the cache of the phone holds was downloaded

A request in the cache is set by one data task only, the one that was resumed
for the download that the request was handed to. So each value that the cache
holds is what the completion handler of that download made of the outcome of
that data task.
-/

namespace NewsDay

open Foundation AsyncRequest

variable [Foundation]

/-- The value that a download passes on for this outcome. -/
inductive Download.Yields (outcome : TaskOutcome) : Download → AnyValue → Prop
  | sources (entries : List (String × Json)) (hanswers : outcome.Answers 200 (.object entries)) :
      Yields outcome .sources
        (.categorizedSources (.ofSources ((Json.objectsAt entries "sources").map .ofJson)))
  | articles (source : Source) (articles : List Article) (hlists : outcome.Lists articles) :
      Yields outcome (.articles source) (.ofArticles articles)
  | headlines (country : String) (limit : Option Int64) (articles : List Article)
      (hlists : outcome.Lists articles) :
      Yields outcome (.headlines country limit) (.ofArticles articles)

namespace NewsApi

variable {outcome : TaskOutcome}

/-- The groups that the handler of `downloadSources` passes on are those of the
sources that the body lists. -/
theorem sourcesCompletion_of_answers {entries : List (String × Json)}
    (hanswers : outcome.Answers 200 (.object entries)) (resultWrapper : Nat) :
    sourcesCompletion resultWrapper outcome.data outcome.response outcome.error =
      [⟨resultWrapper, some (.categorizedSources
        (.ofSources ((Json.objectsAt entries "sources").map .ofJson))), none⟩] := by
  obtain ⟨herror, hresponse, validData, hdata, hjson⟩ := hanswers
  simp only [sourcesCompletion, herror, hresponse, hdata, parseSources, hjson, Json.asObject]
  rfl

end NewsApi

namespace Download

variable {outcome : TaskOutcome} {request : Nat} {task : DataTask} {value : AnyValue}

theorem yields_sources_iff :
    Yields outcome .sources value ↔ ∃ entries, outcome.Answers 200 (.object entries) ∧
      value =
        .categorizedSources (.ofSources ((Json.objectsAt entries "sources").map .ofJson)) := by
  constructor
  · rintro ⟨entries, hanswers⟩
    exact ⟨entries, hanswers, rfl⟩
  · rintro ⟨entries, hanswers, rfl⟩
    exact .sources entries hanswers

/-- The downloads other than that of the sources pass on a list of articles. -/
theorem yields_articles_iff {download : Download} (hdownload : download ≠ .sources) :
    download.Yields outcome value ↔
      ∃ articles, outcome.Lists articles ∧ value = .ofArticles articles := by
  constructor
  · intro hyields
    cases hyields with
    | sources => exact absurd rfl hdownload
    | articles source articles hlists => exact ⟨articles, hlists, rfl⟩
    | headlines country limit articles hlists => exact ⟨articles, hlists, rfl⟩
  · rintro ⟨articles, hlists, rfl⟩
    cases download with
    | sources => exact absurd rfl hdownload
    | articles source => exact .articles source articles hlists
    | headlines country limit => exact .headlines country limit articles hlists

/-- The completion handler of a download settles its request once, with the
value that the download yields, if it yields one. -/
theorem complete_eq {download : Download} (hstart : download.start request = some task)
    (outcome : TaskOutcome) : ∃ result error, task.complete outcome = [⟨request, result, error⟩] ∧
      ∀ value, result = some value ↔ download.Yields outcome value := by
  have hwrapper := start_resultWrapper hstart
  by_cases hsources : download = .sources
  · subst hsources
    have hhandler := start_sources hstart
    rw [DataTask.complete, hhandler, hwrapper]
    simp only [yields_sources_iff]
    rcases NewsApi.sourcesCompletion_cases request outcome with
      ⟨entries, -, hanswers, -⟩ | ⟨hnone, reason, hcalls⟩
    · refine ⟨_, _, NewsApi.sourcesCompletion_of_answers hanswers request, ?_⟩
      intro value
      constructor
      · rintro ⟨⟩
        exact ⟨entries, hanswers, rfl⟩
      · rintro ⟨entries', hanswers', rfl⟩
        rw [Json.object.inj (hanswers.unique hanswers').2]
    · refine ⟨none, reason, hcalls, ?_⟩
      intro value
      refine iff_of_false (Option.some_ne_none value).symm ?_
      rintro ⟨entries, hanswers, -⟩
      exact hnone entries hanswers
  · rw [DataTask.complete_article (start_article hstart hsources), hwrapper]
    simp only [yields_articles_iff hsources]
    rcases NewsApi.articleCompletion_cases request outcome with
      ⟨articles, hlists, hcalls⟩ | ⟨hnone, reason, hcalls⟩
    · refine ⟨_, _, hcalls, ?_⟩
      intro value
      constructor
      · rintro ⟨⟩
        exact ⟨articles, hlists, rfl⟩
      · rintro ⟨articles', hlists', rfl⟩
        rw [hlists.unique hlists']
    · refine ⟨none, some reason, hcalls, ?_⟩
      intro value
      refine iff_of_false (Option.some_ne_none value).symm ?_
      rintro ⟨articles, hlists, -⟩
      exact hnone articles hlists

end Download

namespace Phone

variable {modulePrefix : String} {schedule : List Action} {phone next : Phone}
  {slot : NewsApi.Slot} {request : Nat} {task : DataTask} {outcome : TaskOutcome} {value : AnyValue}

/-! ## The data tasks of a run -/

/-- Seen from the data tasks, a step lets one of them end, or asks the news
service for something, or does neither. -/
inductive Traffic (phone : Phone) (action : Action) (next : Phone) : Prop
  | ends (index : Nat) (outcome : TaskOutcome) (task : DataTask)
      (haction : action = .complete index outcome) (htask : phone.tasks[index]? = some task)
      (hnews : next.news = phone.news) (htasks : next.tasks = phone.tasks.eraseIdx index)
      (hmain : next.main = (task.complete outcome).foldl settle phone.main)
  | asks (call : NewsApi.Call) (haction : ∀ index outcome, action ≠ .complete index outcome)
      (hnews : next.news = phone.news.perform call)
      (htasks : next.tasks = phone.tasks ++ phone.resumedFor call)
      (hcalls : next.main.setResultCalls = phone.main.setResultCalls)
  | quiet (haction : ∀ index outcome, action ≠ .complete index outcome)
      (hnews : next.news = phone.news) (htasks : next.tasks = phone.tasks)
      (hcalls : next.main.setResultCalls = phone.main.setResultCalls)

theorem mainStep_traffic (hnext : phone.mainStep = some next) : Traffic phone .main next := by
  unfold mainStep at hnext
  split at hnext
  next request callback htodo =>
    obtain rfl := Option.some.inj hnext
    exact .quiet nofun rfl rfl (by simp)
  next htodo =>
    obtain ⟨main, hmain, rfl⟩ := Option.map_eq_some_iff.mp hnext
    have hcalls := (MainQueue.mainStep_advanced hmain).setResultCalls
    dsimp only
    split
    next message replyHandler _ =>
      rcases handle_frame { phone with main } message replyHandler with
        ⟨halted, tables, handled, replies, retrievals, heq⟩ | ⟨call, callback, tables, handled, heq⟩
      · rw [heq]
        exact .quiet nofun rfl rfl hcalls
      · rw [heq]
        exact .asks call nofun rfl rfl hcalls
    next call _ => exact .asks call nofun rfl rfl hcalls
    next replyHandler callback result _ _ _ =>
      obtain ⟨halted, tables, replies, heq⟩ := answer_frame { phone with main } replyHandler
        callback result
      rw [heq]
      exact .quiet nofun rfl rfl hcalls
    next => exact .quiet nofun rfl rfl hcalls

theorem step_traffic {action : Action} (hnext : phone.step action = some next) :
    Traffic phone action next := by
  have hhalted := (step_step hnext).1
  simp only [step, hhalted] at hnext
  cases action with
  | receive message =>
      obtain rfl := Option.some.inj hnext
      exact .quiet nofun rfl rfl rfl
  | browse call =>
      obtain rfl := Option.some.inj hnext
      exact .quiet nofun rfl rfl rfl
  | listen request =>
      obtain ⟨-, hnext⟩ := Option.ite_none_right_eq_some.mp hnext
      obtain rfl := Option.some.inj hnext
      exact .quiet nofun rfl rfl (by simp)
  | complete index outcome =>
      obtain ⟨task, htask, rfl⟩ := Option.map_eq_some_iff.mp hnext
      exact .ends index outcome task rfl htask rfl rfl rfl
  | retrieve index image =>
      obtain ⟨replyHandler, -, rfl⟩ := Option.map_eq_some_iff.mp hnext
      exact .quiet nofun rfl rfl rfl
  | main => exact mainStep_traffic hnext

/-- The data task was resumed for the download that the request was handed to. -/
def Resumed (phone : Phone) (request : Nat) (download : Download) (task : DataTask) : Prop :=
  (request, download) ∈ phone.news.handed ∧ download.start request = some task

/-- The step lets the data task end with this outcome. -/
def EndsTask (task : DataTask) (outcome : TaskOutcome) (phone : Phone) (action : Action) : Prop :=
  ∃ index, action = .complete index outcome ∧ phone.tasks[index]? = some task

/-- In the run the data task has ended with this outcome. -/
def Ended (modulePrefix : String) (schedule : List Action) (task : DataTask)
    (outcome : TaskOutcome) : Prop :=
  Execution.Takes step (start modulePrefix) schedule (EndsTask task outcome)

/-- How the data tasks of a run correspond to the settlements of requests. -/
structure DownloadLedger (modulePrefix : String) (schedule : List Action) (phone : Phone) :
    Prop where
  resumed : ∀ task ∈ phone.tasks, ∃ download, phone.Resumed task.resultWrapper download task
  settled : ∀ request result error, (request, result, error) ∈ phone.main.setResultCalls →
    ∃ download task outcome, phone.Resumed request download task ∧
      Ended modulePrefix schedule task outcome ∧ ⟨request, result, error⟩ ∈ task.complete outcome
  reported : ∀ task outcome, Ended modulePrefix schedule task outcome →
    ∀ call ∈ task.complete outcome,
      (call.request, call.result, call.error) ∈ phone.main.setResultCalls

theorem DownloadLedger.start (modulePrefix : String) :
    DownloadLedger modulePrefix [] (start modulePrefix) where
  resumed := by
    intro task htask
    exact absurd htask List.not_mem_nil
  settled := by
    intro request result error hcall
    exact absurd hcall List.not_mem_nil
  reported := by
    intro task outcome hended
    exact absurd hended (Execution.not_takes_nil _ _)

theorem settle_setResultCalls (calls : List SetResult) (main : PhoneQueue) :
    (calls.foldl settle main).setResultCalls =
      main.setResultCalls ++ calls.map fun call => (call.request, call.result, call.error) := by
  induction calls generalizing main with
  | nil => simp
  | cons call rest ih => simp [ih, settle]

/-- Calls of `setResult` stay on record. -/
theorem setResultCalls_later {later : List Action} {final : Phone}
    (hlater : Execution.execute step phone later = some final) :
    phone.main.setResultCalls <+: final.main.setResultCalls := by
  refine Execution.execute_invariant
    (fun state => phone.main.setResultCalls <+: state.main.setResultCalls) ?_
    (List.prefix_refl _) hlater
  intro state action next hkept hnext
  cases step_traffic hnext with
  | quiet haction hnews htasks hcalls => exact hcalls ▸ hkept
  | asks call haction hnews htasks hcalls => exact hcalls ▸ hkept
  | ends index outcome task haction htask hnews htasks hmain =>
      rw [hmain, settle_setResultCalls]
      exact hkept.trans (List.prefix_append _ _)

theorem handed_grows {later : List Action} {final : Phone}
    (hlater : Execution.execute step phone later = some final) :
    phone.news.handed <+: final.news.handed := by
  refine Execution.execute_invariant
    (fun state => phone.news.handed <+: state.news.handed) ?_ (List.prefix_refl _) hlater
  intro state action next hkept hnext
  rcases (step_step hnext).2.news with hsame | ⟨call, hcall⟩
  · rw [hsame]
    exact hkept
  · rw [hcall]
    exact hkept.trans (List.prefix_append _ _)

theorem Resumed.mono {download : Download} (hresumed : phone.Resumed request download task)
    (hhanded : phone.news.handed ⊆ next.news.handed) : next.Resumed request download task :=
  ⟨hhanded hresumed.1, hresumed.2⟩

/-- A data task that a call resumes is one of the download that it starts. -/
theorem resumed_of_resumedFor {call : NewsApi.Call} (hnews : next.news = phone.news.perform call)
    (htask : task ∈ phone.resumedFor call) :
    ∃ download, next.Resumed task.resultWrapper download task := by
  obtain ⟨download, hstarted, hstart⟩ := Option.bind_eq_some_iff.mp (Option.mem_toList.mp htask)
  have hwrapper := Download.start_resultWrapper hstart
  rw [hwrapper]
  refine ⟨download, ?_, hstart⟩
  rw [hnews]
  exact List.mem_append_right _ (List.mem_map.mpr ⟨download, by simp [hstarted], rfl⟩)

theorem ended_concat_iff
    (hrun : Execution.execute step (Phone.start modulePrefix) schedule = some phone)
    (action : Action) :
    Ended modulePrefix (schedule ++ [action]) task outcome ↔
      Ended modulePrefix schedule task outcome ∨ EndsTask task outcome phone action :=
  Execution.takes_concat_iff hrun action

/-- A step in which no data task ends. -/
theorem DownloadLedger.keep
    (hrun : Execution.execute step (Phone.start modulePrefix) schedule = some phone)
    (hledger : DownloadLedger modulePrefix schedule phone) {action : Action}
    (haction : ∀ index outcome, action ≠ .complete index outcome)
    (hhanded : phone.news.handed ⊆ next.news.handed)
    (hresumed : ∀ task ∈ next.tasks, ∃ download, next.Resumed task.resultWrapper download task)
    (hcalls : next.main.setResultCalls = phone.main.setResultCalls) :
    DownloadLedger modulePrefix (schedule ++ [action]) next where
  resumed := hresumed
  settled := by
    intro request result error hcall
    rw [hcalls] at hcall
    obtain ⟨download, task, outcome, hresumed, hended, hreports⟩ :=
      hledger.settled request result error hcall
    exact ⟨download, task, outcome, hresumed.mono hhanded,
      (ended_concat_iff hrun action).mpr (.inl hended), hreports⟩
  reported := by
    intro task outcome hended call hreports
    rw [hcalls]
    rcases (ended_concat_iff hrun action).mp hended with hbefore | ⟨index, hends, -⟩
    · exact hledger.reported task outcome hbefore call hreports
    · exact absurd hends (haction index outcome)

/-- A data task ends, and its request is set. -/
theorem DownloadLedger.complete
    (hrun : Execution.execute step (Phone.start modulePrefix) schedule = some phone)
    (hledger : DownloadLedger modulePrefix schedule phone) {index : Nat}
    (htask : phone.tasks[index]? = some task) (hnews : next.news = phone.news)
    (htasks : next.tasks = phone.tasks.eraseIdx index)
    (hmain : next.main = (task.complete outcome).foldl settle phone.main) :
    DownloadLedger modulePrefix (schedule ++ [.complete index outcome]) next := by
  have hends : ∀ other outcome', Ended modulePrefix (schedule ++ [.complete index outcome]) other
      outcome' ↔ Ended modulePrefix schedule other outcome' ∨
        EndsTask other outcome' phone (.complete index outcome) :=
    fun _ _ => ended_concat_iff hrun _
  have hhanded : phone.news.handed ⊆ next.news.handed := by
    rw [hnews]
    exact List.Subset.refl _
  obtain ⟨result, error, hsingle⟩ := task.complete_single outcome
  have hcalls : next.main.setResultCalls =
      phone.main.setResultCalls ++ [(task.resultWrapper, result, error)] := by
    rw [hmain, settle_setResultCalls, hsingle]
    rfl
  refine ⟨?_, ?_, ?_⟩
  · intro other hother
    rw [htasks] at hother
    obtain ⟨download, hresumed⟩ := hledger.resumed other (List.mem_of_mem_eraseIdx hother)
    exact ⟨download, hresumed.mono hhanded⟩
  · intro request result' error' hcall
    rw [hcalls] at hcall
    rcases List.mem_append.mp hcall with hold | hnew
    · obtain ⟨download, earlier, outcome', hresumed, hended, hreports⟩ :=
        hledger.settled request result' error' hold
      exact ⟨download, earlier, outcome', hresumed.mono hhanded, (hends _ _).mpr (.inl hended),
        hreports⟩
    · obtain ⟨rfl, hpair⟩ := Prod.mk.inj (List.mem_singleton.mp hnew)
      obtain ⟨rfl, rfl⟩ := Prod.mk.inj hpair
      obtain ⟨download, hresumed⟩ := hledger.resumed task (List.mem_of_getElem? htask)
      refine ⟨download, task, outcome, hresumed.mono hhanded, ?_, by simp [hsingle]⟩
      exact (hends _ _).mpr (.inr ⟨index, rfl, htask⟩)
  · intro other outcome' hended call hreports
    rw [hcalls]
    rcases (hends _ _).mp hended with hbefore | ⟨index', haction, htask'⟩
    · exact List.mem_append_left _ (hledger.reported other outcome' hbefore call hreports)
    · obtain ⟨rfl, rfl⟩ := Action.complete.inj haction
      obtain rfl := Option.some.inj (htask.symm.trans htask')
      rw [hsingle] at hreports
      obtain rfl := List.mem_singleton.mp hreports
      exact List.mem_append_right _ (List.mem_singleton.mpr rfl)

theorem DownloadLedger.step
    (hrun : Execution.execute step (Phone.start modulePrefix) schedule = some phone)
    (hledger : DownloadLedger modulePrefix schedule phone) {action : Action}
    (hnext : phone.step action = some next) :
    DownloadLedger modulePrefix (schedule ++ [action]) next := by
  cases step_traffic hnext with
  | quiet haction hnews htasks hcalls =>
      have hhanded : phone.news.handed ⊆ next.news.handed := by
        rw [hnews]
        exact List.Subset.refl _
      refine hledger.keep hrun haction hhanded ?_ hcalls
      intro task htask
      rw [htasks] at htask
      obtain ⟨download, hresumed⟩ := hledger.resumed task htask
      exact ⟨download, hresumed.mono hhanded⟩
  | asks call haction hnews htasks hcalls =>
      have hhanded : phone.news.handed ⊆ next.news.handed := by
        rw [hnews]
        exact List.subset_append_left _ _
      refine hledger.keep hrun haction hhanded ?_ hcalls
      intro task htask
      rw [htasks] at htask
      rcases List.mem_append.mp htask with hold | hnew
      · obtain ⟨download, hresumed⟩ := hledger.resumed task hold
        exact ⟨download, hresumed.mono hhanded⟩
      · exact resumed_of_resumedFor hnews hnew
  | ends index outcome task haction htask hnews htasks hmain =>
      subst haction
      exact hledger.complete hrun htask hnews htasks hmain

theorem downloadLedger
    (hrun : Execution.execute step (Phone.start modulePrefix) schedule = some phone) :
    DownloadLedger modulePrefix schedule phone := by
  refine Execution.execute_induction
    (motive := fun schedule phone => DownloadLedger modulePrefix schedule phone)
    (.start modulePrefix) ?_ hrun
  intro schedule state action next hbefore hledger hnext
  exact hledger.step hbefore hnext

/-! ## What the cache holds -/

/-- The value was downloaded for the place of the cache whose request this is. -/
def Downloaded (modulePrefix : String) (schedule : List Action) (phone : Phone)
    (slot : NewsApi.Slot) (request : Nat) (value : AnyValue) : Prop :=
  ∃ download task outcome, download.slot.norm = slot.norm ∧
    phone.Resumed request download task ∧ Ended modulePrefix schedule task outcome ∧
      download.Yields outcome value

/-- A request in the cache is handed to a download for its place. -/
theorem slot_of_handed
    (hrun : Execution.execute step (Phone.start modulePrefix) schedule = some phone)
    (hoccupant : phone.news.api.occupant slot = some request) {download : Download}
    (hhanded : (request, download) ∈ phone.news.handed) : download.slot.norm = slot.norm := by
  have hcoherent := (newsLedger hrun).coherent
  obtain ⟨call, -, hslot, hcall⟩ := hcoherent.filled slot request hoccupant
  have hsame := (hcoherent.downloadsOf_eq hhanded).symm.trans (hcoherent.downloadsOf_eq hcall)
  obtain rfl := (List.cons.inj hsame).1
  rw [call.slot_download]
  exact hslot

theorem Ended.settles
    (hrun : Execution.execute step (Phone.start modulePrefix) schedule = some phone)
    (hended : Ended modulePrefix schedule task outcome) {download : Download}
    (hstart : download.start request = some task) :
    ∃ result error, (request, result, error) ∈ phone.main.setResultCalls ∧
      ∀ value, result = some value ↔ download.Yields outcome value := by
  obtain ⟨result, error, hcalls, hvalue⟩ := Download.complete_eq hstart outcome
  refine ⟨result, error, ?_, hvalue⟩
  exact (downloadLedger hrun).reported task outcome hended ⟨request, result, error⟩
    (by simp [hcalls])

/-- A request of the cache is set once. -/
theorem setResultCalls_unique
    (hrun : Execution.execute step (Phone.start modulePrefix) schedule = some phone)
    {first second : Option AnyValue × Option ErrorValue}
    (hfirst : (request, first) ∈ phone.main.setResultCalls)
    (hsecond : (request, second) ∈ phone.main.setResultCalls) : first = second := by
  have hsingle := (newsLedger hrun).setResults_length request
  rw [MainQueue.setResults_events] at hsingle
  exact RequestView.pair_unique hsingle (Tagged.mem_ownedBy.mpr hfirst)
    (Tagged.mem_ownedBy.mpr hsecond)

/-- A request of the cache that holds a value is set to nothing else for the
rest of the run. -/
theorem held_later
    (hrun : Execution.execute step (Phone.start modulePrefix) schedule = some phone)
    (hheld : (phone.main.requests request).result = some value) {later : List Action}
    {final : Phone} (hlater : Execution.execute step phone later = some final)
    {result : Option AnyValue} {error : Option ErrorValue}
    (hcall : (request, result, error) ∈ final.main.setResultCalls) : result = some value := by
  obtain ⟨mainSchedule, hmain⟩ := main_reachable hrun
  obtain ⟨reason, hearlier⟩ := (MainQueue.sound hmain).result_called hheld
  have hkept := (setResultCalls_later hlater).subset hearlier
  have hpair := setResultCalls_unique (Execution.execute_append_of_eq_some hrun hlater) hcall hkept
  exact (Prod.mk.inj hpair).1

/-- Every value that the cache holds was downloaded for its place. -/
theorem downloaded_of_held
    (hrun : Execution.execute step (Phone.start modulePrefix) schedule = some phone)
    (hoccupant : phone.news.api.occupant slot = some request)
    (hheld : (phone.main.requests request).result = some value) :
    Downloaded modulePrefix schedule phone slot request value := by
  obtain ⟨mainSchedule, hmain⟩ := main_reachable hrun
  obtain ⟨error, hcall⟩ := (MainQueue.sound hmain).result_called hheld
  obtain ⟨download, task, outcome, hresumed, hended, hreports⟩ :=
    (downloadLedger hrun).settled request (some value) error hcall
  obtain ⟨result, reason, hcalls, hvalue⟩ := Download.complete_eq hresumed.2 outcome
  rw [hcalls] at hreports
  have hresult : some value = result := congrArg SetResult.result (List.mem_singleton.mp hreports)
  exact ⟨download, task, outcome, slot_of_handed hrun hoccupant hresumed.1, hresumed, hended,
    (hvalue value).mp hresult.symm⟩

/-- The cache holds what was downloaded for its places and nothing else, once
nothing is left to be done on the main thread. -/
theorem cache_holds_downloads
    (hrun : Execution.execute step (Phone.start modulePrefix) schedule = some phone)
    (hoccupant : phone.news.api.occupant slot = some request) (value : AnyValue) :
    ((phone.main.requests request).result = some value →
        Downloaded modulePrefix schedule phone slot request value) ∧
      (phone.main.Drained → Downloaded modulePrefix schedule phone slot request value →
        (phone.main.requests request).result = some value) := by
  obtain ⟨mainSchedule, hmain⟩ := main_reachable hrun
  refine ⟨downloaded_of_held hrun hoccupant, ?_⟩
  rintro hdrained ⟨download, task, outcome, -, hresumed, hended, hyields⟩
  obtain ⟨result, error, hcall, hvalue⟩ := hended.settles hrun hresumed.2
  obtain rfl := (hvalue value).mpr hyields
  have hfields := (MainQueue.sound hmain).drained_fields hdrained
    ((newsLedger hrun).setResults_length request) hcall
  exact (Prod.mk.inj hfields).1

section Samples

omit [Foundation]

theorem sourcesDownloaded_held :
    letI : Foundation := .sample
    ((Execution.execute step (Phone.start "NewsDay") sourcesDownloaded).bind fun phone =>
      (phone.main.requests 0).result.bind fun value =>
        value.asCategorizedSources.map (Prod.mk (phone.news.api.occupant .sources))) =
      some (some 0, sampleSources) := by
  decide +kernel

theorem cache_holds_downloads_sources :
    letI : Foundation := .sample
    ∃ phone, Execution.execute step (Phone.start "NewsDay") sourcesDownloaded = some phone ∧
      Downloaded "NewsDay" sourcesDownloaded phone .sources 0
        (.categorizedSources sampleSources) := by
  let _ : Foundation := .sample
  obtain ⟨phone, hrun, hheld⟩ := Option.bind_eq_some_iff.mp sourcesDownloaded_held
  obtain ⟨value, hvalue, hheld⟩ := Option.bind_eq_some_iff.mp hheld
  obtain ⟨sources, hsources, hsame⟩ := Option.map_eq_some_iff.mp hheld
  obtain ⟨hoccupant, rfl⟩ := Prod.mk.inj hsame
  obtain rfl := AnyValue.asCategorizedSources_eq_some.mp hsources
  exact ⟨phone, hrun, (cache_holds_downloads hrun hoccupant _).1 hvalue⟩

end Samples

/-! ## Downloads that bring nothing -/

/-- The download that the request was handed to has not been started, or its
data task has ended with an outcome that yields nothing. -/
def Lost (modulePrefix : String) (schedule : List Action) (phone : Phone) (request : Nat) : Prop :=
  ∃ download, (request, download) ∈ phone.news.handed ∧
    ∀ task, download.start request = some task →
      ∃ outcome, Ended modulePrefix schedule task outcome ∧ ∀ value, ¬ download.Yields outcome value

theorem Lost.result
    (hrun : Execution.execute step (Phone.start modulePrefix) schedule = some phone)
    (hlost : Lost modulePrefix schedule phone request) :
    (phone.main.requests request).result = none := by
  obtain ⟨mainSchedule, hmain⟩ := main_reachable hrun
  cases hheld : (phone.main.requests request).result with
  | none => rfl
  | some value =>
      obtain ⟨download, hhanded, hends⟩ := hlost
      obtain ⟨error, hcall⟩ := (MainQueue.sound hmain).result_called hheld
      obtain ⟨download', task, outcome, hresumed, -, -⟩ :=
        (downloadLedger hrun).settled request (some value) error hcall
      -- the task is one of this download, which has ended without a value
      have hcoherent := (newsLedger hrun).coherent
      have hsame := (hcoherent.downloadsOf_eq hhanded).symm.trans
        (hcoherent.downloadsOf_eq hresumed.1)
      obtain rfl := (List.cons.inj hsame).1
      obtain ⟨outcome', hended, hnothing⟩ := hends task hresumed.2
      obtain ⟨result, reason, hcall', hvalue⟩ := hended.settles hrun hresumed.2
      have hpair := setResultCalls_unique hrun hcall hcall'
      exact absurd ((hvalue value).mp (Prod.mk.inj hpair).1.symm) (hnothing value)

theorem Lost.later
    (hlost : Lost modulePrefix schedule phone request) {later : List Action} {final : Phone}
    (hlater : Execution.execute step phone later = some final) :
    Lost modulePrefix (schedule ++ later) final request := by
  obtain ⟨download, hhanded, hends⟩ := hlost
  refine ⟨download, (handed_grows hlater).subset hhanded, ?_⟩
  intro task hstart
  obtain ⟨outcome, hended, hnothing⟩ := hends task hstart
  exact ⟨outcome, hended.append later, hnothing⟩

/-- A place of the cache that is taken gets no second download. -/
theorem startedFor_later
    (hrun : Execution.execute step (Phone.start modulePrefix) schedule = some phone)
    (hoccupant : phone.news.api.occupant slot = some request) {later : List Action} {final : Phone}
    (hlater : Execution.execute step phone later = some final) :
    final.news.startedFor slot = phone.news.startedFor slot := by
  have hrun' := Execution.execute_append_of_eq_some hrun hlater
  obtain ⟨call, -, hslot, hhanded⟩ :=
    (newsLedger hrun).coherent.filled slot request hoccupant
  have hbefore : (request, call.download) ∈ phone.news.startedFor slot :=
    List.mem_filter.mpr ⟨hhanded, decide_eq_true (by rw [call.slot_download]; exact hslot)⟩
  have hgrown : phone.news.startedFor slot <+: final.news.startedFor slot :=
    (handed_grows hlater).filter _
  have hsingle := (stocked hrun').startedFor_length (newsLedger hrun').coherent slot
  have hpos := List.length_pos_of_mem hbefore
  exact (hgrown.eq_of_length (Nat.le_antisymm hgrown.length_le (by omega))).symm

/-- A download that has brought nothing is final: in every continuation of the
run its place keeps the same empty request, no other download is made for it,
and no message that asks for the place is answered. -/
theorem lost_for_good
    (hrun : Execution.execute step (Phone.start modulePrefix) schedule = some phone)
    (hoccupant : phone.news.api.occupant slot = some request)
    (hlost : Lost modulePrefix schedule phone request) {later : List Action} {final : Phone}
    (hlater : Execution.execute step phone later = some final) :
    final.news.api.occupant slot = some request ∧
      (final.main.requests request).result = none ∧
      final.news.startedFor slot = phone.news.startedFor slot ∧
      ∀ replyHandler message call callback, final.received[replyHandler]? = some message →
        WatchServer.Reads modulePrefix message (.news call callback) →
          call.slot.norm = slot.norm → ∀ reply, (replyHandler, reply) ∉ final.replies := by
  have hrun' := Execution.execute_append_of_eq_some hrun hlater
  have hoccupant' := occupant_later hoccupant hlater
  have hresult := (hlost.later hlater).result hrun'
  refine ⟨hoccupant', hresult, startedFor_later hrun hoccupant hlater, ?_⟩
  intro replyHandler message call callback hreceived hreads hslot reply hreply
  obtain ⟨message', hreceived', horigin⟩ := (consistent hrun').reply_origin hreply
  obtain rfl := Option.some.inj (hreceived.symm.trans hreceived')
  rcases horigin with hother | ⟨call', callback', request', hsame, hplace, hmade⟩ |
    ⟨url, image, hother, -⟩
  · exact absurd (hreads.unique hother) nofun
  · obtain ⟨rfl, rfl⟩ := WatchServer.Handling.news.inj (hreads.unique hsame)
    rw [NewsApi.occupant_congr _ hslot, hoccupant'] at hplace
    obtain rfl := Option.some.inj hplace
    rw [hresult] at hmade
    cases callback <;> exact absurd hmade.symm (Option.some_ne_none reply)
  · exact absurd (hreads.unique hother) nofun

section Samples

omit [Foundation]

/-- A screen asks for the articles of a source without an identifier. -/
def namelessAsked : letI : Foundation := .sample; List Action :=
  letI : Foundation := .sample
  .browse (.getArticles namelessSource) :: List.replicate 4 .main

theorem namelessAsked_handed :
    letI : Foundation := .sample
    ((Execution.execute step (Phone.start "NewsDay") namelessAsked).map fun phone =>
      (phone.news.handed, phone.news.api.occupant (.keyed ""))) =
        some ([(0, .articles namelessSource)], some 0) := by
  decide +kernel

/-- Nothing is downloaded for the nameless source later on. -/
theorem lost_for_good_nameless :
    letI : Foundation := .sample
    ∃ phone, Execution.execute step (Phone.start "NewsDay") namelessAsked = some phone ∧
      ∀ later final, Execution.execute step phone later = some final →
        (final.main.requests 0).result = none := by
  let _ : Foundation := .sample
  obtain ⟨phone, hrun, hsame⟩ := Option.map_eq_some_iff.mp namelessAsked_handed
  obtain ⟨hhanded, hoccupant⟩ := Prod.mk.inj hsame
  have hlost : Lost "NewsDay" namelessAsked phone 0 := by
    refine ⟨.articles namelessSource, by simp [hhanded], ?_⟩
    intro task hstart
    exact absurd hstart.symm (Option.some_ne_none task)
  refine ⟨phone, hrun, ?_⟩
  intro later final hlater
  exact (lost_for_good hrun hoccupant hlost hlater).2.1

end Samples

end Phone

end NewsDay
