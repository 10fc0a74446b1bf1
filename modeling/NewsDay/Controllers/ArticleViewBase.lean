import NewsDay.Network.Delivery
import NewsDay.Network.NewsApiResponses

/-! # The article lists of the phone

Two screens show a list of articles. Each makes a request of its own, starts a
download for it, and registers a callback that puts the downloaded articles
into the list.
-/

namespace NewsDay

open Foundation

variable [Foundation]

/-- `class ArticleViewBase`. -/
structure ArticleViewBase where
  articles : List Article := []
  selectedArticleIndex : Int := -1

namespace ArticleViewBase

variable (controller : ArticleViewBase)

/-- The callback of `processArticles(resultWrapper:)`. -/
def processArticles (anyArticles : Option AnyValue) : Except Trap ArticleViewBase :=
  match anyArticles.bind (AnyValue.asArray AnyValue.asArticle) with
  | some articles => .ok { controller with articles }
  -- `as!` of nil, or of another type
  | none => .error .forcedCast

/-- `tableView(_:numberOfRowsInSection:)`. -/
def numberOfRows : Nat := controller.articles.length

end ArticleViewBase

/-- The screens that show a list of articles. -/
inductive ArticleScreen
  | articleViewController (source : Source)
  | headlineViewController

namespace ArticleScreen

/-- The download that `viewDidLoad` starts. -/
def download : ArticleScreen → Download
  | .articleViewController source => .articles source
  | .headlineViewController => .headlines "us" none

variable {screen : ArticleScreen} {task : DataTask} {outcome : TaskOutcome}
  {controller : ArticleViewBase}

/-- The request of a screen: settled by the data task, and read by the callback
of `processArticles`. -/
def delivery (task : DataTask) (outcome : TaskOutcome) :
    Delivery Unit AnyValue ErrorValue ArticleViewBase where
  settle := .ok ((task.complete outcome).map fun call => (call.result, call.error))
  prepare _ controller := controller
  receive _ result _ controller := controller.processArticles result

/-- What becomes of the list of a screen whose data task has this outcome. -/
structure KeepsList (task : DataTask) (outcome : TaskOutcome) (controller : ArticleViewBase)
    (process : Delivery.Process Unit AnyValue ErrorValue ArticleViewBase) : Prop where
  running : process.halted = none
  waiting : process.called = [] → process.state.articles = controller.articles
  downloaded : process.called ≠ [] →
    ∀ articles, outcome.Lists articles → process.state.articles = articles
  failed : process.called ≠ [] → NewsApi.SettlesWithNil (task.complete outcome) →
    process.state.articles = controller.articles
  called : process.main.Drained → process.finished = true → process.called = process.listening

/-- In every order of the end of the data task, the registration and the blocks
of other code, the list is kept. -/
def Survives (task : DataTask) (outcome : TaskOutcome) (controller : ArticleViewBase) : Prop :=
  ∀ schedule process,
    Execution.execute (delivery task outcome).step (.start controller) schedule = some process →
      KeepsList task outcome controller process

omit [Foundation] in
/-- Neither screen downloads the sources. -/
theorem download_ne_sources (screen : ArticleScreen) : screen.download ≠ .sources := by
  intro hsame
  cases screen with
  | headlineViewController => cases hsame
  | articleViewController source => cases hsame

theorem settle_of_lists (hhandler : task.handler = .downloadArticle) {articles : List Article}
    (hlists : outcome.Lists articles) :
    (delivery task outcome).settle = .ok [(some (.ofArticles articles), none)] := by
  simp only [delivery, DataTask.complete_article hhandler]
  rcases NewsApi.articleCompletion_cases task.resultWrapper outcome with
    ⟨articles', hlists', hcalls⟩ | ⟨hnone, -⟩
  · obtain rfl := hlists.unique hlists'
    rw [hcalls]
    rfl
  · exact absurd hlists (hnone articles)

theorem settle_of_failed (hhandler : task.handler = .downloadArticle)
    (hnone : ∀ articles, ¬ outcome.Lists articles) :
    ∃ reason, (delivery task outcome).settle = .ok [(none, some reason)] := by
  simp only [delivery, DataTask.complete_article hhandler]
  rcases NewsApi.articleCompletion_cases task.resultWrapper outcome with
    ⟨articles, hlists, -⟩ | ⟨-, reason, hcalls⟩
  · exact absurd hlists (hnone articles)
  · rw [hcalls]
    exact ⟨reason, rfl⟩

/-- The callback puts the downloaded articles into the list, however often it
is invoked. -/
theorem kept_of_lists (controller : ArticleViewBase) (articles : List Article) :
    (delivery task outcome).Kept [(some (.ofArticles articles), none)]
      (Delivery.Final controller { controller with articles }) := by
  apply Delivery.kept_of_final
  · exact fun _ _ => rfl
  · simp [delivery, ArticleViewBase.processArticles]
  · simp [delivery, ArticleViewBase.processArticles]

theorem survives_of_lists (hhandler : task.handler = .downloadArticle) {articles : List Article}
    (hlists : outcome.Lists articles) : Survives task outcome controller := by
  intro schedule process hrun
  have hsettle := settle_of_lists hhandler hlists
  obtain ⟨hwired, hhalted, hstate⟩ :=
    (kept_of_lists controller articles).run hsettle (Delivery.final_start _ _) hrun
  refine ⟨hhalted, ?_, ?_, ?_, ?_⟩
  · intro hcalled
    rw [hstate.1 hcalled]
  · intro hcalled articles' hlists'
    obtain rfl := hlists.unique hlists'
    rw [hstate.2 hcalled]
  · intro hcalled hnil
    rw [DataTask.complete_article hhandler, NewsApi.articleCompletion_nil_iff] at hnil
    exact absurd hlists (hnil articles)
  · intro hdrained hfinished
    exact hwired.drained hdrained hfinished hsettle (List.cons_ne_nil _ _)

theorem lists_of_survives (hhandler : task.handler = .downloadArticle)
    (hsurvives : Survives task outcome controller) : ∃ articles, outcome.Lists articles := by
  by_contra hnone
  obtain ⟨reason, hsettle⟩ := settle_of_failed hhandler (not_exists.mp hnone)
  apply Delivery.not_always_running () controller hsettle rfl
  exact fun schedule process hrun => (hsurvives schedule process hrun).running

/-- A list survives the download of its screen, whenever and in whatever order
things happen, exactly if the service answers with a list. -/
theorem list_survives_iff {request : Nat} (hstart : screen.download.start request = some task)
    (outcome : TaskOutcome) (controller : ArticleViewBase) :
    Survives task outcome controller ↔ ∃ articles, outcome.Lists articles := by
  have hhandler := Download.start_article hstart screen.download_ne_sources
  constructor
  · exact lists_of_survives hhandler
  · rintro ⟨articles, hlists⟩
    exact survives_of_lists hhandler hlists

section Samples

omit [Foundation]

/-- The small platform accepts the URL of the headlines. -/
theorem sample_start (request : Nat) :
    letI : Foundation := .sample
    ArticleScreen.headlineViewController.download.start request =
      some ⟨NewsApi.headlinesURL "us" none, .downloadArticle, request⟩ :=
  rfl

/-- The headlines of the small platform. -/
theorem list_survives_iff_sample :
    letI : Foundation := .sample
    Survives ⟨NewsApi.headlinesURL "us" none, .downloadArticle, 0⟩
        ⟨some (.text "\x7b\x7d"), some (.http 200), none⟩ {} ↔
      ∃ articles, TaskOutcome.Lists ⟨some (.text "\x7b\x7d"), some (.http 200), none⟩ articles := by
  let _ : Foundation := .sample
  exact list_survives_iff (sample_start 0) _ _

/-- The network is down when the headlines are downloaded. -/
theorem lost_connection_stops_phone :
    letI : Foundation := .sample
    ¬ ∀ (screen : ArticleScreen) (request : Nat) (task : DataTask) (outcome : TaskOutcome)
      (controller : ArticleViewBase), screen.download.start request = some task →
        Survives task outcome controller := by
  let _ : Foundation := .sample
  intro hsurvives
  have hoffline := hsurvives .headlineViewController 0 _
    ⟨none, none, some (.system "The Internet connection appears to be offline.")⟩ {}
    (sample_start 0)
  obtain ⟨articles, statusCode, json, ⟨hnone, -⟩, -⟩ := lists_of_survives rfl hoffline
  exact Option.some_ne_none _ hnone

end Samples

end ArticleScreen

end NewsDay
