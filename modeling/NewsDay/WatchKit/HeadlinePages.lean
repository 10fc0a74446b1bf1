import NewsDay.Network.Delivery
import NewsDay.Network.NewsApiResponses
import NewsDay.Network.WatchExchange

/-! # The headline pages of the watch

Three pages share one request for headlines. The phone downloads a list,
archives it and replies; the reply handler restores the list, and each page
shows the article at its own index.
-/

namespace NewsDay

open Foundation

variable [Foundation]

/-! ## Where the headlines come from -/

/-- How a call of `WatchClient.getHeadlines(country:limit:)` can end. -/
inductive HeadlinesOutcome
  | noSession
  /-- The session reports an error to the handler of the message. -/
  | failed (error : ErrorValue)
  /-- The phone was asked, and its download has this outcome. -/
  | downloaded (download : TaskOutcome)

/-- The reply of the phone, if it replies. -/
def WatchServer.headlinesReply (download : TaskOutcome) (tables : ModelTables) : Option Message :=
  (NewsApi.articleCompletion 0 download.data download.response download.error).head?.bind
    fun call => (Callback.articles.reply call.result tables).toOption.bind Prod.snd

/-- The call of `setResult` that `getHeadlines(session:country:limit:asyncRequest:)`
leads to, given the class tables of the phone and of the watch. -/
def WatchClient.getHeadlines (phone watch : ModelTables) :
    HeadlinesOutcome → Except Trap Settlement
  | .noSession => .ok (some (none, none))
  | .failed error => .ok (some (none, some error))
  | .downloaded download =>
      match WatchServer.headlinesReply download phone with
      | none => .ok none
      | some reply => (headlinesReplied reply watch).map Prod.snd

/-- The service has listed articles, and the phone was asked for them. -/
def HeadlinesOutcome.Delivers (outcome : HeadlinesOutcome) (articles : List Article) : Prop :=
  ∃ download, outcome = .downloaded download ∧ download.Lists articles

theorem HeadlinesOutcome.Delivers.unique {outcome : HeadlinesOutcome}
    {articles articles' : List Article} (hdelivers : outcome.Delivers articles)
    (hdelivers' : outcome.Delivers articles') : articles = articles' := by
  obtain ⟨download, rfl, hlists⟩ := hdelivers
  obtain ⟨download', hsame, hlists'⟩ := hdelivers'
  obtain rfl := HeadlinesOutcome.downloaded.inj hsame
  exact hlists.unique hlists'

namespace WatchClient

variable {outcome : HeadlinesOutcome} {articles : List Article} (phone watch : ModelTables)

/-- Whatever list the service answers with reaches the request. -/
theorem getHeadlines_of_delivers (hfaithful : ArchivesFaithfully)
    (hdelivers : outcome.Delivers articles) :
    getHeadlines phone watch outcome = .ok (some (some (.ofArticles articles), none)) := by
  obtain ⟨download, rfl, hlists⟩ := hdelivers
  obtain ⟨data, hdata, hcontents⟩ := hfaithful (.array (articles.map (Article.archived "Article")))
  have hreply : WatchServer.headlinesReply download phone = some [("articles", .data data)] := by
    rcases NewsApi.articleCompletion_cases 0 download with
      ⟨articles', hlists', hcalls⟩ | ⟨hnone, -⟩
    · obtain rfl := hlists.unique hlists'
      simp [WatchServer.headlinesReply, hcalls, WatchServer.Callback.reply,
        WatchServer.articlesReply, Article.keyedArchivedArray_eq, hdata, Except.toOption, bind,
        Except.bind, pure, Except.pure]
    · exact absurd hlists (hnone articles)
  obtain ⟨tables, hreplied⟩ := headlinesReplied_archived watch hcontents
  simp only [getHeadlines, hreply, hreplied]
  rfl

/-- Otherwise it is settled with nil or not at all. -/
theorem getHeadlines_of_failed (hnone : ∀ articles, ¬ outcome.Delivers articles) :
    ∃ settlement : Settlement, getHeadlines phone watch outcome = .ok settlement ∧
      ∀ call ∈ settlement, call.1 = none := by
  cases outcome with
  | noSession => exact ⟨_, rfl, by simp⟩
  | failed error => exact ⟨_, rfl, by simp⟩
  | downloaded download =>
      refine ⟨none, ?_, by simp⟩
      rcases NewsApi.articleCompletion_cases 0 download with
        ⟨articles, hlists, -⟩ | ⟨-, reason, hcalls⟩
      · exact absurd ⟨download, rfl, hlists⟩ (hnone articles)
      · simp only [getHeadlines, WatchServer.headlinesReply, hcalls]
        rfl

end WatchClient

/-! ## The pages -/

/-- The pages, `Headline0Controller` to `Headline2Controller`. -/
inductive HeadlinePage
  | headline0
  | headline1
  | headline2
deriving DecidableEq

/-- The index that the initialiser of a page passes on. -/
def HeadlinePage.headlineIndex : HeadlinePage → Nat
  | .headline0 => 0
  | .headline1 => 1
  | .headline2 => 2

/-- What `populateUI` was called with. -/
structure HeadlineContents where
  title : String
  description : String
  urlImage : Option URL

namespace HeadlineContents

def blank : HeadlineContents := ⟨"", "", none⟩

def ofArticle (article : Article) : HeadlineContents :=
  ⟨article.title, article.desc, article.urlImage⟩

end HeadlineContents

/-- `class HeadlineBaseController`. A page that is not awake has no contents. -/
structure HeadlineBaseController where
  headlineIndex : Int
  articles : List Article := []
  contents : Option HeadlineContents := none

namespace HeadlineBaseController

variable (controller : HeadlineBaseController)

def populateUI (contents : HeadlineContents) : HeadlineBaseController :=
  { controller with contents := some contents }

/-- The callback that `awake(withContext:)` registers. -/
def headlinesReceived (result : Option AnyValue) : Except Trap HeadlineBaseController :=
  match result.bind (AnyValue.asArray AnyValue.asArticle) with
  | none => .ok controller
  | some articles => do
      let article ← subscript articles controller.headlineIndex
      return { controller with articles }.populateUI (.ofArticle article)

variable {controller} {articles : List Article} {index : Nat}

theorem headlinesReceived_of_getElem? (hindex : controller.headlineIndex = index)
    {article : Article} (harticle : articles[index]? = some article) :
    controller.headlinesReceived (some (.ofArticles articles)) =
      .ok ({ controller with articles }.populateUI (.ofArticle article)) := by
  simp only [headlinesReceived, Option.bind_some, AnyValue.asArray_ofArticles, hindex,
    subscript_of_getElem? harticle]
  rfl

theorem headlinesReceived_of_length_le (hindex : controller.headlineIndex = index)
    (hlength : articles.length ≤ index) :
    controller.headlinesReceived (some (.ofArticles articles)) = .error .indexOutOfRange := by
  simp only [headlinesReceived, Option.bind_some, AnyValue.asArray_ofArticles, hindex,
    subscript_of_length_le hlength]
  rfl

end HeadlineBaseController

/-- The three pages. -/
abbrev HeadlinePages := HeadlinePage → HeadlineBaseController

namespace HeadlinePages

/-- The pages before they awake. -/
def initial : HeadlinePages := fun page => { headlineIndex := page.headlineIndex }

/-- The request that `contextsForSegue(withIdentifier:)` hands to all pages. -/
def delivery (phone watch : ModelTables) (outcome : HeadlinesOutcome) :
    Delivery HeadlinePage AnyValue ErrorValue HeadlinePages where
  settle := (WatchClient.getHeadlines phone watch outcome).map Option.toList
  prepare page pages := Function.update pages page ((pages page).populateUI .blank)
  receive page result _ pages :=
    ((pages page).headlinesReceived result).map (Function.update pages page)

/-- What the pages show when the request has this outcome. -/
structure ShowsHeadlines (outcome : HeadlinesOutcome)
    (process : Delivery.Process HeadlinePage AnyValue ErrorValue HeadlinePages) : Prop where
  running : process.halted = none
  waiting : ∀ page ∈ process.listening, page ∉ process.called →
    (process.state page).contents = some .blank
  failed : (∀ articles, ¬ outcome.Delivers articles) →
    ∀ page ∈ process.listening, (process.state page).contents = some .blank
  shown : ∀ articles, outcome.Delivers articles → ∀ page ∈ process.called,
    (process.state page).contents =
      some ((articles[page.headlineIndex]?.map .ofArticle).getD .blank)
  called : process.main.Drained → process.finished = true →
    ∀ articles, outcome.Delivers articles → process.called = process.listening

/-- In every order in which the pages awake, the request is settled and other
code runs, the pages show what was delivered. -/
def Accept (phone watch : ModelTables) (outcome : HeadlinesOutcome) : Prop :=
  ∀ schedule process,
    Execution.execute (delivery phone watch outcome).step (.start initial) schedule =
      some process → ShowsHeadlines outcome process

variable {phone watch : ModelTables} {outcome : HeadlinesOutcome} {articles : List Article}

/-- What the pages show while a list is being delivered. -/
structure Showing (articles : List Article) (listening called : List HeadlinePage)
    (pages : HeadlinePages) : Prop where
  awake : called ⊆ listening
  index : ∀ page, (pages page).headlineIndex = page.headlineIndex
  waiting : ∀ page ∈ listening, page ∉ called → (pages page).contents = some .blank
  shown : ∀ page ∈ called, (pages page).contents =
    some ((articles[page.headlineIndex]?.map .ofArticle).getD .blank)

/-- A page awakes, and its contents are blank. -/
theorem Showing.prepare {listening called : List HeadlinePage} {pages : HeadlinePages}
    (hshowing : Showing articles listening called pages) {listener : HeadlinePage}
    (hlistener : listener ∉ listening) :
    Showing articles (listening ++ [listener]) called
      (Function.update pages listener ((pages listener).populateUI .blank)) where
  awake := List.Subset.trans hshowing.awake (List.subset_append_left _ _)
  index page := by
    by_cases hpage : page = listener
    · subst hpage
      simp [HeadlineBaseController.populateUI, hshowing.index]
    · simp [hpage, hshowing.index]
  waiting := by
    intro page hmem hnot
    by_cases hpage : page = listener
    · subst hpage
      simp [HeadlineBaseController.populateUI]
    · have hearlier : page ∈ listening := by simpa [hpage] using hmem
      simp [hpage, hshowing.waiting page hearlier hnot]
  shown := by
    intro page hmem
    -- a page that was called has been listening before
    have hpage : page ≠ listener := fun hsame => hlistener (hshowing.awake (hsame ▸ hmem))
    simp [hpage, hshowing.shown page hmem]

/-- The callback of a page is invoked with the list, and the page shows the
article at its index. -/
theorem Showing.receive {listening called : List HeadlinePage} {pages : HeadlinePages}
    (hshowing : Showing articles listening called pages) {listener : HeadlinePage}
    (hlistener : listener ∈ listening) {article : Article}
    (harticle : articles[listener.headlineIndex]? = some article) :
    Showing articles listening (called ++ [listener]) (Function.update pages listener
      ({ pages listener with articles }.populateUI (.ofArticle article))) where
  awake := List.append_subset.mpr ⟨hshowing.awake, by simpa using hlistener⟩
  index page := by
    by_cases hpage : page = listener
    · subst hpage
      simp [HeadlineBaseController.populateUI, hshowing.index]
    · simp [hpage, hshowing.index]
  waiting := by
    intro page hmem hnot
    simp only [List.mem_append, List.mem_singleton, not_or] at hnot
    simp [hnot.2, hshowing.waiting page hmem hnot.1]
  shown := by
    intro page hmem
    by_cases hpage : page = listener
    · subst hpage
      simp [HeadlineBaseController.populateUI, harticle]
    · have hearlier : page ∈ called := by simpa [hpage] using hmem
      simp [hpage, hshowing.shown page hearlier]

theorem kept_showing (hlength : 3 ≤ articles.length) :
    (delivery phone watch outcome).Kept [(some (.ofArticles articles), none)]
      (Showing articles) where
  prepare listening called pages listener hshowing hlistener := hshowing.prepare hlistener
  receive listening called pages listener pair hshowing hlistener hpair := by
    obtain rfl := List.mem_singleton.mp hpair
    have hindex : listener.headlineIndex < articles.length := by
      cases listener <;> simp [HeadlinePage.headlineIndex] <;> omega
    have harticle := List.getElem?_eq_getElem hindex
    have hreceived :=
      HeadlineBaseController.headlinesReceived_of_getElem? (hshowing.index listener) harticle
    refine ⟨_, ?_, hshowing.receive hlistener harticle⟩
    simp only [delivery, hreceived]
    rfl

theorem kept_blank {pairs : List (Option AnyValue × Option ErrorValue)}
    (hnil : ∀ pair ∈ pairs, pair.1 = none) :
    (delivery phone watch outcome).Kept pairs fun listening _ pages =>
      ∀ page ∈ listening, (pages page).contents = some .blank where
  prepare listening _ pages listener hblank _ := by
    intro page hmem
    by_cases hpage : page = listener
    · subst hpage
      simp [delivery, HeadlineBaseController.populateUI]
    · have hearlier : page ∈ listening := by simpa [hpage] using hmem
      simp [delivery, hpage, hblank page hearlier]
  receive _ _ pages listener pair hblank _ hpair := by
    refine ⟨pages, ?_, hblank⟩
    rw [hnil pair hpair]
    exact congrArg Except.ok (Function.update_eq_self listener pages)

theorem settle_of_delivers (phone watch : ModelTables) (hfaithful : ArchivesFaithfully)
    (hdelivers : outcome.Delivers articles) :
    (delivery phone watch outcome).settle = .ok [(some (.ofArticles articles), none)] := by
  rw [delivery, WatchClient.getHeadlines_of_delivers phone watch hfaithful hdelivers]
  rfl

theorem accept_of_delivers (hfaithful : ArchivesFaithfully) (hdelivers : outcome.Delivers articles)
    (hlength : 3 ≤ articles.length) : Accept phone watch outcome := by
  intro schedule process hrun
  have hsettle := settle_of_delivers phone watch hfaithful hdelivers
  have hinit : Showing articles [] [] initial :=
    ⟨List.Subset.refl [], fun _ => rfl, by simp, by simp⟩
  obtain ⟨hwired, hhalted, hshowing⟩ := (kept_showing hlength).run hsettle hinit hrun
  refine ⟨hhalted, hshowing.waiting, ?_, ?_, ?_⟩
  · intro hnone
    exact absurd hdelivers (hnone articles)
  · intro articles' hdelivers'
    obtain rfl := hdelivers.unique hdelivers'
    exact hshowing.shown
  · intro hdrained hfinished _ _
    exact hwired.drained hdrained hfinished hsettle (List.cons_ne_nil _ _)

theorem accept_of_failed (hnone : ∀ articles, ¬ outcome.Delivers articles) :
    Accept phone watch outcome := by
  intro schedule process hrun
  obtain ⟨settlement, hsettlement, hnil⟩ := WatchClient.getHeadlines_of_failed phone watch hnone
  have hsettle : (delivery phone watch outcome).settle = .ok settlement.toList := by
    rw [delivery, hsettlement]
    rfl
  have hpairs : ∀ pair ∈ settlement.toList, pair.1 = none :=
    fun pair hpair => hnil pair (Option.mem_toList.mp hpair)
  obtain ⟨-, hhalted, hblank⟩ := (kept_blank hpairs).run hsettle (by simp) hrun
  exact ⟨hhalted, fun page hmem _ => hblank page hmem, fun _ => hblank,
    fun articles hdelivers => absurd hdelivers (hnone articles),
    fun _ _ articles hdelivers => absurd hdelivers (hnone articles)⟩

/-- The last page traps at a list that is too short for it. -/
theorem not_accept_of_short (hfaithful : ArchivesFaithfully) (hdelivers : outcome.Delivers articles)
    (hlength : articles.length < 3) : ¬ Accept phone watch outcome := by
  intro haccept
  have hsettle := settle_of_delivers phone watch hfaithful hdelivers
  have hreceive : (delivery phone watch outcome).receive .headline2 (some (.ofArticles articles))
      none ((delivery phone watch outcome).prepare .headline2 initial) =
        .error .indexOutOfRange := by
    have hindex : ((initial .headline2).populateUI .blank).headlineIndex = (2 : Nat) := rfl
    have htrap := HeadlineBaseController.headlinesReceived_of_length_le hindex
      (Nat.le_of_lt_succ hlength)
    simp only [delivery, Function.update_self, htrap]
    rfl
  apply Delivery.not_always_running .headline2 initial hsettle hreceive
  exact fun schedule process hrun => (haccept schedule process hrun).running

/-- The pages accept what becomes of their request exactly if a list that the
service answers with has an article for each of them. -/
theorem accept_iff (hfaithful : ArchivesFaithfully) (phone watch : ModelTables)
    (outcome : HeadlinesOutcome) :
    Accept phone watch outcome ↔ ∀ articles, outcome.Delivers articles → 3 ≤ articles.length := by
  constructor
  · intro haccept articles hdelivers
    by_contra hshort
    exact not_accept_of_short hfaithful hdelivers (by omega) haccept
  · intro hlong
    by_cases hdelivered : ∃ articles, outcome.Delivers articles
    · obtain ⟨articles, hdelivers⟩ := hdelivered
      exact accept_of_delivers hfaithful hdelivers (hlong articles hdelivers)
    · exact accept_of_failed (not_exists.mp hdelivered)

section Samples

omit [Foundation]

/-- The service answers with three articles. -/
def threeHeadlines : letI : Foundation := .sample; TaskOutcome :=
  letI : Foundation := .sample
  let article (title : String) : Json := .object [("title", .string title)]
  { data := some (.json (.object
      [("articles", .array [article "A", article "B", article "C"])]))
    response := some (.http 200)
    error := none }

theorem threeHeadlines_lists :
    letI : Foundation := .sample
    ∃ articles, threeHeadlines.Lists articles ∧ articles.length = 3 := by
  let _ : Foundation := .sample
  exact ⟨_, ⟨200, _, ⟨rfl, rfl, _, rfl, rfl⟩, by decide, by decide, rfl⟩, by decide⟩

theorem accept_iff_sample :
    letI : Foundation := .sample
    Accept (processTables "NewsDay") (processTables "Watch") (.downloaded threeHeadlines) := by
  let _ : Foundation := .sample
  obtain ⟨articles, hlists, hlength⟩ := threeHeadlines_lists
  refine (accept_iff sample_archivesFaithfully _ _ _).mpr ?_
  intro delivered hdelivers
  obtain rfl := hdelivers.unique ⟨_, rfl, hlists⟩
  exact hlength.ge

/-- The service answers with an object without articles. -/
theorem empty_list_stops_watch :
    letI : Foundation := .sample
    ArchivesFaithfully ∧ ¬ ∀ (phone watch : ModelTables) (outcome : HeadlinesOutcome),
      Accept phone watch outcome := by
  let _ : Foundation := .sample
  refine ⟨sample_archivesFaithfully, ?_⟩
  intro haccept
  have hempty : HeadlinesOutcome.Delivers
      (.downloaded ⟨some (.text "\x7b\x7d"), some (.http 200), none⟩) [] :=
    ⟨_, rfl, 200, .object [], ⟨rfl, rfl, _, rfl, rfl⟩, by decide, by decide, rfl⟩
  exact not_accept_of_short sample_archivesFaithfully hempty (by decide)
    (haccept (processTables "NewsDay") (processTables "Watch") _)

end Samples

end HeadlinePages

end NewsDay
