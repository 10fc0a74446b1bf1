import NewsDay.Controllers.ArticleViewBase
import NewsDay.Models.Categories

/-! # From the list of sources to the web page

A row of the sources opens a list of articles, a row of that list opens an
article, and a button there opens the web page. The selection is passed on by
`prepare(for:sender:)`, which each screen runs, within `performSegue`, on the
screen that it is about to open. A table delivers taps on rows below the counts
that it has asked for last.
-/

namespace NewsDay

open Foundation

variable [Foundation]

/-- `Source()`. -/
def Source.empty : Source := .ofJson []

/-- `Article()`. -/
def Article.empty : Article := .ofJson []

/-! ## The screens -/

/-- `class ArticleWebViewController`. -/
structure ArticleWebViewController where
  article : Option Article := none
  source : Source := .empty

/-- `class ArticleDetailViewController`. -/
structure ArticleDetailViewController where
  article : Article := .empty
  source : Source := .empty

/-- `prepare(for:sender:)`. -/
def ArticleDetailViewController.prepare (controller : ArticleDetailViewController)
    (destination : ArticleWebViewController) : ArticleWebViewController :=
  { destination with article := some controller.article, source := controller.source }

namespace ArticleViewBase

variable (controller : ArticleViewBase)

/-- `tableView(_:didSelectRowAt:)`, up to `performSegue`. -/
def didSelectRow (row : Nat) : ArticleViewBase := { controller with selectedArticleIndex := row }

/-- `prepare(for:sender:)`. -/
def prepare (destination : ArticleDetailViewController) :
    Except Trap (ArticleViewBase × ArticleDetailViewController) := do
  let article ← subscript controller.articles controller.selectedArticleIndex
  return ({ controller with selectedArticleIndex := -1 }, { destination with article })

end ArticleViewBase

/-- `class ArticleViewController`. -/
structure ArticleViewController extends ArticleViewBase where
  source : Source := .empty

/-- `class SourcesViewController`. -/
structure SourcesViewController where
  sources : CategorizedSources := {}
  selectedSource : Source := .empty

namespace SourcesViewController

variable (controller : SourcesViewController)

/-- `tableView(_:didSelectRowAt:)`, up to `performSegue`. -/
def didSelectRow (section' row : Nat) : Except Trap SourcesViewController := do
  let group ← subscript controller.sources.details section'
  let source ← subscript group row
  return { controller with selectedSource := source }

/-- `prepare(for:sender:)`. -/
def prepare (destination : ArticleViewController) : ArticleViewController :=
  { destination with source := controller.selectedSource }

/-- The rows of each section, as the table asks for them. -/
def rowCounts (sources : CategorizedSources) : List Nat :=
  (List.range (numberOfSections sources)).map fun section' =>
    (numberOfRows sources section').getD 0

end SourcesViewController

/-! ## What is open -/

/-- An article that is open, with the row that has opened it. -/
structure DetailScreen where
  controller : ArticleDetailViewController
  row : Nat
  opened : Option ArticleWebViewController := none

/-- A list of articles that is open, with the row that has opened it. -/
structure ArticlesScreen where
  controller : ArticleViewController
  inSection : Nat
  row : Nat
  /-- Whether the callback of `processArticles` has been invoked. -/
  delivered : Bool := false
  /-- The number of rows that the table has asked for last. -/
  reported : Nat := 0
  opened : Option DetailScreen := none

structure Navigation where
  controller : SourcesViewController := {}
  delivered : Bool := false
  reported : List Nat := []
  opened : Option ArticlesScreen := none
  /-- How the process was stopped, if it was. -/
  halted : Option Trap := none

namespace DetailScreen

variable (screen : DetailScreen)

/-- `readMore(_:)`. -/
def readMore : DetailScreen := { screen with opened := some (screen.controller.prepare {}) }

/-- The screen without the last one that was opened. -/
def back : Option DetailScreen := screen.opened.map fun _ => { screen with opened := none }

end DetailScreen

namespace ArticlesScreen

variable (screen : ArticlesScreen)

/-- A row of articles is tapped. -/
def tap (row : Nat) : Except Trap ArticlesScreen := do
  let (list, destination) ← (screen.controller.didSelectRow row).prepare {}
  return { screen with
    controller := { screen.controller with toArticleViewBase := list }
    opened := some { controller := destination, row } }

/-- The callback of `processArticles` is invoked with a list. -/
def deliver (articles : List Article) : ArticlesScreen :=
  { screen with
    controller := { screen.controller with articles }
    delivered := true }

def report : ArticlesScreen := { screen with reported := screen.controller.numberOfRows }

/-- The screen without the last one that was opened. -/
def back : Option ArticlesScreen :=
  screen.opened.map fun detail => { screen with opened := detail.back }

end ArticlesScreen

namespace Navigation

inductive Action
  /-- `processSources(newSources:)` is called. -/
  | deliverSources (sources : CategorizedSources)
  /-- The table of sources asks for its counts. -/
  | reportSources
  | tapSource (section' row : Nat)
  | deliverArticles (articles : List Article)
  | reportArticles
  | tapArticle (row : Nat)
  | readMore
  /-- The last screen is closed. -/
  | back
  /-- `backToArticles(segue:)`, from the web page. -/
  | backToArticles

variable (navigation : Navigation)

/-- A row of sources is tapped. -/
def tapSource (section' row : Nat) : Navigation :=
  match navigation.controller.didSelectRow section' row with
  | .error trap => { navigation with halted := some trap }
  | .ok controller => { navigation with
      controller
      opened := some { controller := controller.prepare {}, inSection := section', row } }

def tapArticle (screen : ArticlesScreen) (row : Nat) : Navigation :=
  match screen.tap row with
  | .error trap => { navigation with halted := some trap }
  | .ok screen => { navigation with opened := some screen }

/-- Each list is delivered once, and the last screen that was opened is the one
that can be tapped. -/
def perform : Action → Option Navigation
  | .deliverSources sources =>
      if navigation.delivered then none
      else some { navigation with
        controller := { navigation.controller with sources }
        delivered := true }
  | .reportSources => some { navigation with
      reported := SourcesViewController.rowCounts navigation.controller.sources }
  | .tapSource section' row =>
      match navigation.opened, navigation.reported[section']? with
      | none, some rows => if row < rows then some (navigation.tapSource section' row) else none
      | _, _ => none
  | .deliverArticles articles =>
      match navigation.opened with
      | none => none
      | some screen =>
          if screen.delivered then none
          else some { navigation with opened := some (screen.deliver articles) }
  | .reportArticles => navigation.opened.map fun screen =>
      { navigation with opened := some screen.report }
  | .tapArticle row =>
      match navigation.opened with
      | some screen =>
          if screen.opened.isNone ∧ row < screen.reported then
            some (navigation.tapArticle screen row)
          else none
      | none => none
  | .readMore => navigation.opened.bind fun screen => screen.opened.bind fun detail =>
      if detail.opened.isNone then
        some { navigation with opened := some { screen with opened := some detail.readMore } }
      else none
  | .back => navigation.opened.map fun screen => { navigation with opened := screen.back }
  | .backToArticles => navigation.opened.bind fun screen => screen.opened.bind fun detail =>
      detail.opened.map fun _ => { navigation with opened := some { screen with opened := none } }

/-- Nothing happens any more in a process that was stopped. -/
def step (action : Action) : Option Navigation :=
  match navigation.halted with
  | some _ => none
  | none => navigation.perform action

/-- What can happen, with what makes it possible. -/
inductive Step (navigation : Navigation) : Action → Navigation → Prop
  | deliverSources (sources : CategorizedSources) (hwaiting : navigation.delivered = false) :
      Step navigation (.deliverSources sources) { navigation with
        controller := { navigation.controller with sources }
        delivered := true }
  | reportSources :
      Step navigation .reportSources { navigation with
        reported := SourcesViewController.rowCounts navigation.controller.sources }
  | tapSource (section' row rows : Nat) (hopened : navigation.opened = none)
      (hrows : navigation.reported[section']? = some rows) (hrow : row < rows) :
      Step navigation (.tapSource section' row) (navigation.tapSource section' row)
  | deliverArticles (articles : List Article) (screen : ArticlesScreen)
      (hopened : navigation.opened = some screen) (hwaiting : screen.delivered = false) :
      Step navigation (.deliverArticles articles)
        { navigation with opened := some (screen.deliver articles) }
  | reportArticles (screen : ArticlesScreen) (hopened : navigation.opened = some screen) :
      Step navigation .reportArticles { navigation with opened := some screen.report }
  | tapArticle (row : Nat) (screen : ArticlesScreen) (hopened : navigation.opened = some screen)
      (hdetail : screen.opened = none) (hrow : row < screen.reported) :
      Step navigation (.tapArticle row) (navigation.tapArticle screen row)
  | readMore (screen : ArticlesScreen) (detail : DetailScreen)
      (hopened : navigation.opened = some screen) (hdetail : screen.opened = some detail)
      (hweb : detail.opened = none) :
      Step navigation .readMore
        { navigation with opened := some { screen with opened := some detail.readMore } }
  | back (screen : ArticlesScreen) (hopened : navigation.opened = some screen) :
      Step navigation .back { navigation with opened := screen.back }
  | backToArticles (screen : ArticlesScreen) (hopened : navigation.opened = some screen) :
      Step navigation .backToArticles
        { navigation with opened := some { screen with opened := none } }

variable {navigation} {next : Navigation}

theorem step_step {action : Action} (hnext : navigation.step action = some next) :
    Step navigation action next := by
  have hhalted : navigation.halted = none := by
    cases hhalted : navigation.halted with
    | none => rfl
    | some trap => simp [step, hhalted] at hnext
  simp only [step, hhalted] at hnext
  cases action with
  | deliverSources sources =>
      obtain ⟨hwaiting, hnext⟩ := Option.ite_none_left_eq_some.mp hnext
      obtain rfl := Option.some.inj hnext
      exact .deliverSources sources (Bool.eq_false_iff.mpr hwaiting)
  | reportSources =>
      obtain rfl := Option.some.inj hnext
      exact .reportSources
  | tapSource section' row =>
      simp only [perform] at hnext
      split at hnext
      next rows hopened hrows =>
        obtain ⟨hrow, hnext⟩ := Option.ite_none_right_eq_some.mp hnext
        obtain rfl := Option.some.inj hnext
        exact .tapSource section' row rows hopened hrows hrow
      next => exact absurd hnext.symm (Option.some_ne_none next)
  | deliverArticles articles =>
      simp only [perform] at hnext
      split at hnext
      next => exact absurd hnext.symm (Option.some_ne_none next)
      next screen hopened =>
        obtain ⟨hwaiting, hnext⟩ := Option.ite_none_left_eq_some.mp hnext
        obtain rfl := Option.some.inj hnext
        exact .deliverArticles articles screen hopened (Bool.eq_false_iff.mpr hwaiting)
  | reportArticles =>
      obtain ⟨screen, hopened, rfl⟩ := Option.map_eq_some_iff.mp hnext
      exact .reportArticles screen hopened
  | tapArticle row =>
      simp only [perform] at hnext
      split at hnext
      next screen hopened =>
        obtain ⟨⟨hdetail, hrow⟩, hnext⟩ := Option.ite_none_right_eq_some.mp hnext
        obtain rfl := Option.some.inj hnext
        exact .tapArticle row screen hopened (Option.isNone_iff_eq_none.mp hdetail) hrow
      next => exact absurd hnext.symm (Option.some_ne_none next)
  | readMore =>
      obtain ⟨screen, hopened, hnext⟩ := Option.bind_eq_some_iff.mp hnext
      obtain ⟨detail, hdetail, hnext⟩ := Option.bind_eq_some_iff.mp hnext
      obtain ⟨hweb, hnext⟩ := Option.ite_none_right_eq_some.mp hnext
      obtain rfl := Option.some.inj hnext
      exact .readMore screen detail hopened hdetail (Option.isNone_iff_eq_none.mp hweb)
  | back =>
      obtain ⟨screen, hopened, rfl⟩ := Option.map_eq_some_iff.mp hnext
      exact .back screen hopened
  | backToArticles =>
      obtain ⟨screen, hopened, hnext⟩ := Option.bind_eq_some_iff.mp hnext
      obtain ⟨detail, -, hnext⟩ := Option.bind_eq_some_iff.mp hnext
      obtain ⟨web, -, rfl⟩ := Option.map_eq_some_iff.mp hnext
      exact .backToArticles screen hopened

end Navigation

/-! ## What each screen holds -/

/-- The article is the one of the row that was tapped, and there is no source. -/
structure DetailScreen.Kept (articles : List Article) (screen : DetailScreen) : Prop where
  article : articles[screen.row]? = some screen.controller.article
  source : screen.controller.source = .empty
  web : ∀ web, screen.opened = some web →
    web.article = some screen.controller.article ∧ web.source = .empty

/-- The source is the one of the row that was tapped, and the table has not
asked for more rows than there are. -/
structure ArticlesScreen.Kept (sources : CategorizedSources) (screen : ArticlesScreen) :
    Prop where
  source : SourcesViewController.sourceAt sources screen.inSection screen.row =
    some screen.controller.source
  waiting : screen.delivered = false → screen.controller.articles = [] ∧ screen.reported = 0
  counted : screen.reported ≤ screen.controller.articles.length
  detail : ∀ detail, screen.opened = some detail → detail.Kept screen.controller.articles

/-- What holds of every run. -/
structure Navigation.Kept (navigation : Navigation) : Prop where
  running : navigation.halted = none
  waiting : navigation.delivered = false →
    navigation.controller.sources = {} ∧ navigation.reported = []
  counted : ∀ (section' rows row : Nat), navigation.reported[section']? = some rows → row < rows →
    ∃ source, SourcesViewController.sourceAt navigation.controller.sources section' row =
      some source
  list : ∀ screen, navigation.opened = some screen → screen.Kept navigation.controller.sources

namespace SourcesViewController

variable {controller : SourcesViewController} {section' row : Nat}

theorem didSelectRow_of_sourceAt {source : Source}
    (hsource : sourceAt controller.sources section' row = some source) :
    controller.didSelectRow section' row = .ok { controller with selectedSource := source } := by
  obtain ⟨group, hgroup, hrow⟩ := Option.bind_eq_some_iff.mp hsource
  simp only [didSelectRow, subscript_of_getElem? hgroup, subscript_of_getElem? hrow, bind,
    Except.bind]
  rfl

omit [Foundation] in
/-- A row below the count of its section is there. -/
theorem sourceAt_of_rowCounts {sources : CategorizedSources} {rows : Nat}
    (hrows : (rowCounts sources)[section']? = some rows) (hrow : row < rows) :
    ∃ source, sourceAt sources section' row = some source := by
  rw [rowCounts, List.getElem?_map] at hrows
  obtain ⟨index, hindex, hrows⟩ := Option.map_eq_some_iff.mp hrows
  obtain ⟨hlt, hsame⟩ := List.getElem?_eq_some_iff.mp hindex
  rw [List.getElem_range] at hsame
  subst hsame
  rw [List.length_range] at hlt
  have hgroup := List.getElem?_eq_getElem hlt
  have hne : sources.details ≠ [] := List.ne_nil_of_length_pos (Nat.zero_lt_of_lt hlt)
  rw [numberOfRows, if_neg (by simpa using hne), hgroup] at hrows
  subst hrows
  exact ⟨_, by rw [sourceAt, hgroup, Option.bind_some, List.getElem?_eq_getElem hrow]⟩

end SourcesViewController

namespace ArticlesScreen

variable {screen : ArticlesScreen} {sources : CategorizedSources}

/-- A tap on a row that is there opens the article of the row. -/
theorem tap_of_getElem? {row : Nat} {article : Article}
    (harticle : screen.controller.articles[row]? = some article) :
    screen.tap row = .ok { screen with
      controller := { screen.controller with selectedArticleIndex := -1 }
      opened := some { controller := { article }, row } } := by
  simp only [tap, ArticleViewBase.prepare, ArticleViewBase.didSelectRow,
    subscript_of_getElem? harticle, bind, Except.bind]
  rfl

/-- A row that the table has asked for is there. -/
theorem Kept.row_of_lt (hkept : screen.Kept sources) {row : Nat} (hrow : row < screen.reported) :
    ∃ article, screen.controller.articles[row]? = some article :=
  ⟨_, List.getElem?_eq_getElem (Nat.lt_of_lt_of_le hrow hkept.counted)⟩

theorem Kept.opened_tap (hkept : screen.Kept sources) {row : Nat} {article : Article}
    (harticle : screen.controller.articles[row]? = some article) :
    ArticlesScreen.Kept sources { screen with
      controller := { screen.controller with selectedArticleIndex := -1 }
      opened := some { controller := { article }, row } } where
  source := hkept.source
  waiting := hkept.waiting
  counted := hkept.counted
  detail := by
    rintro _ ⟨⟩
    exact ⟨harticle, rfl, fun web hweb => absurd hweb.symm (Option.some_ne_none web)⟩

/-- Before the articles are delivered there is no row to be tapped. -/
theorem Kept.deliver (hkept : screen.Kept sources) (hwaiting : screen.delivered = false)
    (articles : List Article) : (screen.deliver articles).Kept sources where
  source := hkept.source
  waiting := nofun
  counted := by
    obtain ⟨-, hreported⟩ := hkept.waiting hwaiting
    simp [ArticlesScreen.deliver, hreported]
  detail := by
    intro detail hdetail
    obtain ⟨hnone, -⟩ := hkept.waiting hwaiting
    have harticle := (hkept.detail detail hdetail).article
    rw [hnone] at harticle
    exact absurd harticle.symm (Option.some_ne_none _)

theorem Kept.report (hkept : screen.Kept sources) : screen.report.Kept sources where
  source := hkept.source
  waiting := by
    intro hwaiting
    obtain ⟨hnone, -⟩ := hkept.waiting hwaiting
    exact ⟨hnone, by simp [ArticlesScreen.report, ArticleViewBase.numberOfRows, hnone]⟩
  counted := Nat.le_refl _
  detail := hkept.detail

theorem Kept.close (hkept : screen.Kept sources) :
    ArticlesScreen.Kept sources { screen with opened := none } :=
  { hkept with
    detail := fun detail hdetail => absurd hdetail.symm (Option.some_ne_none detail) }

theorem Kept.readMore (hkept : screen.Kept sources) {detail : DetailScreen}
    (hdetail : screen.opened = some detail) :
    ArticlesScreen.Kept sources { screen with opened := some detail.readMore } where
  source := hkept.source
  waiting := hkept.waiting
  counted := hkept.counted
  detail := by
    rintro _ ⟨⟩
    obtain ⟨harticle, hsource, -⟩ := hkept.detail detail hdetail
    refine ⟨harticle, hsource, ?_⟩
    rintro _ ⟨⟩
    exact ⟨rfl, hsource⟩

theorem Kept.back (hkept : screen.Kept sources) {lower : ArticlesScreen}
    (hback : screen.back = some lower) : lower.Kept sources := by
  obtain ⟨detail, hdetail, rfl⟩ := Option.map_eq_some_iff.mp hback
  refine { hkept with detail := ?_ }
  intro lower hlower
  obtain ⟨web, -, rfl⟩ := Option.map_eq_some_iff.mp hlower
  exact { hkept.detail detail hdetail with
    web := fun web hweb => absurd hweb.symm (Option.some_ne_none web) }

end ArticlesScreen

namespace Navigation

variable {navigation next : Navigation}

theorem Kept.start : Kept {} where
  running := rfl
  waiting := fun _ => ⟨rfl, rfl⟩
  counted := by
    intro section' rows row hrows
    exact absurd hrows (by simp)
  list := by simp

/-- A screen that takes the place of the one that is open. -/
theorem Kept.replace (hkept : navigation.Kept) {opened : Option ArticlesScreen}
    (hopened : ∀ screen, opened = some screen → screen.Kept navigation.controller.sources) :
    Kept { navigation with opened } :=
  { hkept with list := hopened }

theorem Kept.tapSource (hkept : navigation.Kept) {section' row : Nat} {source : Source}
    (hsource : SourcesViewController.sourceAt navigation.controller.sources section' row =
      some source) : (navigation.tapSource section' row).Kept := by
  rw [Navigation.tapSource, SourcesViewController.didSelectRow_of_sourceAt hsource]
  refine { hkept with list := ?_ }
  rintro _ ⟨⟩
  exact ⟨hsource, fun _ => ⟨rfl, rfl⟩, Nat.le_refl 0,
    fun detail hdetail => absurd hdetail.symm (Option.some_ne_none detail)⟩

theorem Kept.step (hkept : navigation.Kept) {action : Action} (hstep : Step navigation action next) :
    next.Kept := by
  cases hstep with
  | deliverSources sources hwaiting =>
      obtain ⟨hnone, hreported⟩ := hkept.waiting hwaiting
      refine ⟨hkept.running, nofun, ?_, ?_⟩
      · intro section' rows row hrows
        rw [hreported] at hrows
        exact absurd hrows.symm (Option.some_ne_none rows)
      · -- without sources no row was tapped
        intro screen hopened
        have hsource := (hkept.list screen hopened).source
        rw [hnone] at hsource
        exact absurd hsource.symm (Option.some_ne_none _)
  | reportSources =>
      refine { hkept with waiting := ?_, counted := ?_ }
      · intro hwaiting
        obtain ⟨hnone, -⟩ := hkept.waiting hwaiting
        refine ⟨hnone, ?_⟩
        rw [hnone]
        rfl
      · exact fun section' rows row hrows hrow =>
          SourcesViewController.sourceAt_of_rowCounts hrows hrow
  | tapSource section' row rows hopened hrows hrow =>
      obtain ⟨source, hsource⟩ := hkept.counted section' rows row hrows hrow
      exact hkept.tapSource hsource
  | deliverArticles articles screen hopened hwaiting =>
      apply hkept.replace
      rintro _ ⟨⟩
      exact (hkept.list screen hopened).deliver hwaiting articles
  | reportArticles screen hopened =>
      apply hkept.replace
      rintro _ ⟨⟩
      exact (hkept.list screen hopened).report
  | tapArticle row screen hopened hdetail hrow =>
      obtain ⟨article, harticle⟩ := (hkept.list screen hopened).row_of_lt hrow
      rw [Navigation.tapArticle, ArticlesScreen.tap_of_getElem? harticle]
      apply hkept.replace
      rintro _ ⟨⟩
      exact (hkept.list screen hopened).opened_tap harticle
  | readMore screen detail hopened hdetail hweb =>
      apply hkept.replace
      rintro _ ⟨⟩
      exact (hkept.list screen hopened).readMore hdetail
  | back screen hopened =>
      apply hkept.replace
      exact fun lower hlower => (hkept.list screen hopened).back hlower
  | backToArticles screen hopened =>
      apply hkept.replace
      rintro _ ⟨⟩
      exact (hkept.list screen hopened).close

/-! ## What is carried through -/

/-- The source of the row that was tapped to open a list. -/
def tappedSource (navigation : Navigation) (screen : ArticlesScreen) : Option Source :=
  SourcesViewController.sourceAt navigation.controller.sources screen.inSection screen.row

/-- The selection has been carried through to the screens that are open. -/
structure Carries (navigation : Navigation) : Prop where
  running : navigation.halted = none
  detail : ∀ screen detail, navigation.opened = some screen → screen.opened = some detail →
    screen.controller.articles[detail.row]? = some detail.controller.article
  webArticle : ∀ screen detail web, navigation.opened = some screen →
    screen.opened = some detail → detail.opened = some web →
      screen.controller.articles[detail.row]? = web.article
  webSource : ∀ screen detail web, navigation.opened = some screen →
    screen.opened = some detail → detail.opened = some web →
      navigation.tappedSource screen = some web.source

/-- If the step opens the web page, the source that was tapped is `Source()`. -/
def Forwards (navigation : Navigation) (action : Action) : Prop :=
  action = .readMore → ∀ screen, navigation.opened = some screen →
    navigation.tappedSource screen = some .empty

/-- A web page is open over this list. -/
def ShowsWeb (navigation : Navigation) (screen : ArticlesScreen) : Prop :=
  ∃ detail web, navigation.opened = some screen ∧ screen.opened = some detail ∧
    detail.opened = some web

/-- A web page is open over the list of this source only. -/
def Plain (navigation : Navigation) : Prop :=
  ∀ screen, navigation.ShowsWeb screen → navigation.tappedSource screen = some .empty

/-- Only the source of the web page can be wrong. -/
theorem Kept.carries_iff_plain (hkept : navigation.Kept) : navigation.Carries ↔ navigation.Plain := by
  constructor
  · rintro hcarries screen ⟨detail, web, hopened, hdetail, hweb⟩
    rw [hcarries.webSource screen detail web hopened hdetail hweb]
    have hscreen := (hkept.list screen hopened).detail detail hdetail
    rw [(hscreen.web web hweb).2]
  · intro hplain
    refine ⟨hkept.running, ?_, ?_, ?_⟩
    · intro screen detail hopened hdetail
      exact ((hkept.list screen hopened).detail detail hdetail).article
    · intro screen detail web hopened hdetail hweb
      have hscreen := (hkept.list screen hopened).detail detail hdetail
      rw [(hscreen.web web hweb).1]
      exact hscreen.article
    · intro screen detail web hopened hdetail hweb
      have hscreen := (hkept.list screen hopened).detail detail hdetail
      rw [(hscreen.web web hweb).2]
      exact hplain screen ⟨detail, web, hopened, hdetail, hweb⟩

/-- A step other than `readMore` opens no web page. -/
theorem Kept.showsWeb (hkept : navigation.Kept) {action : Action}
    (hstep : Step navigation action next) (haction : action ≠ .readMore)
    {screen : ArticlesScreen} (hshows : next.ShowsWeb screen) :
    ∃ earlier, navigation.ShowsWeb earlier ∧
      next.tappedSource screen = navigation.tappedSource earlier := by
  obtain ⟨detail, web, hopened, hdetail, hweb⟩ := hshows
  cases hstep with
  | deliverSources sources hwaiting =>
      have hsource := (hkept.list screen hopened).source
      rw [(hkept.waiting hwaiting).1] at hsource
      exact absurd hsource.symm (Option.some_ne_none _)
  | reportSources => exact ⟨screen, ⟨detail, web, hopened, hdetail, hweb⟩, rfl⟩
  | tapSource section' row rows hnone hrows hrow =>
      obtain ⟨source, hsource⟩ := hkept.counted section' rows row hrows hrow
      rw [Navigation.tapSource, SourcesViewController.didSelectRow_of_sourceAt hsource] at hopened
      obtain rfl := Option.some.inj hopened
      exact absurd hdetail.symm (Option.some_ne_none detail)
  | deliverArticles articles list hlist hwaiting =>
      obtain rfl := Option.some.inj hopened
      exact ⟨list, ⟨detail, web, hlist, hdetail, hweb⟩, rfl⟩
  | reportArticles list hlist =>
      obtain rfl := Option.some.inj hopened
      exact ⟨list, ⟨detail, web, hlist, hdetail, hweb⟩, rfl⟩
  | tapArticle row list hlist hnone hrow =>
      obtain ⟨article, harticle⟩ := (hkept.list list hlist).row_of_lt hrow
      rw [Navigation.tapArticle, ArticlesScreen.tap_of_getElem? harticle] at hopened
      obtain rfl := Option.some.inj hopened
      obtain rfl := Option.some.inj hdetail
      exact absurd hweb.symm (Option.some_ne_none web)
  | readMore list detail hlist hdetail hweb => exact absurd rfl haction
  | back list hlist =>
      obtain ⟨upper, -, rfl⟩ := Option.map_eq_some_iff.mp hopened
      obtain ⟨closed, -, rfl⟩ := Option.map_eq_some_iff.mp hdetail
      exact absurd hweb.symm (Option.some_ne_none web)
  | backToArticles list hlist =>
      obtain rfl := Option.some.inj hopened
      exact absurd hdetail.symm (Option.some_ne_none detail)

theorem Kept.plain_step_iff (hkept : navigation.Kept) (hplain : navigation.Plain)
    {action : Action} (hstep : Step navigation action next) :
    next.Plain ↔ navigation.Forwards action := by
  by_cases haction : action = .readMore
  · subst haction
    cases hstep with
    | readMore list detail hlist hdetail hweb =>
        constructor
        · rintro hnext - screen hopened
          obtain rfl := Option.some.inj (hlist.symm.trans hopened)
          exact hnext { list with opened := some detail.readMore }
            ⟨detail.readMore, _, rfl, rfl, rfl⟩
        · rintro hforwards screen ⟨upper, web, hopened, -⟩
          obtain rfl := Option.some.inj hopened
          exact hforwards rfl list hlist
  · refine iff_of_true ?_ fun hsame => absurd hsame haction
    intro screen hshows
    obtain ⟨earlier, hearlier, hsource⟩ := hkept.showsWeb hstep haction hshows
    exact hsource.trans (hplain earlier hearlier)

/-- The selection is carried through a whole run exactly if the web page is
only opened for sources all of whose fields are empty: no source is passed on
to the screen of an article. -/
theorem carries_selection_iff (schedule : List Action) :
    Execution.StatesMeet step Carries {} schedule ↔
      Execution.StepsMeet step Forwards {} schedule := by
  apply Execution.statesMeet_iff_stepsMeet Kept
  · exact fun _ _ _ hkept hnext => hkept.step (step_step hnext)
  · intro navigation action next hkept hcarries hnext
    have hstep := step_step hnext
    rw [(hkept.step hstep).carries_iff_plain]
    exact hkept.plain_step_iff (hkept.carries_iff_plain.mp hcarries) hstep
  · exact .start
  · apply Kept.start.carries_iff_plain.mpr
    rintro screen ⟨detail, web, hopened, -⟩
    exact absurd hopened.symm (Option.some_ne_none screen)

omit [Foundation] in
/-- A source is tapped, then an article of it, and then its web page is opened. -/
theorem source_left_behind :
    letI : Foundation := .sample
    ¬ ∀ schedule : List Action, Execution.StatesMeet step Carries {} schedule := by
  let _ : Foundation := .sample
  intro hall
  let source : Source := ⟨"bbc", "BBC", "", "general", "en", "gb"⟩
  have hrun := hall [.deliverSources ⟨["general"], [[source]]⟩, .reportSources, .tapSource 0 0,
    .deliverArticles [.empty], .reportArticles, .tapArticle 0, .readMore]
  have htapped := ((hrun.2 _ rfl).2 _ rfl).2 _ rfl
  have hopened := ((htapped.2 _ rfl).2 _ rfl).2 _ rfl
  have hweb := (hopened.2 _ rfl).webSource _ _ _ rfl rfl rfl
  exact absurd hweb (by decide)

end Navigation

end NewsDay
