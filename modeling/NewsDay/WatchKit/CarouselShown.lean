import NewsDay.WatchKit.CarouselPages

/-! # What the pages show

A page is blank until it is told, and then shows the headline at its place among
those that the phone holds, with no other picture than that of the headline. A
list that is too short for a page stops the watch, and so does a picture that
does not arrive; nothing else does.
-/

namespace NewsDay

open Foundation

variable [Foundation]

/-! ## One page -/

namespace OpenPage

/-- The page is as it was when it awoke. -/
def IsBlank (opened : OpenPage) : Prop :=
  opened.controller = (HeadlinePages.initial opened.page).populateUI .blank ∧
    opened.headlineImage = ⟨none⟩

/-- The page was told a list that has nothing at its place. -/
def IsShort (opened : OpenPage) : Prop :=
  ∃ articles, opened.response = some (some (.ofArticles articles)) ∧
    articles.length ≤ opened.page.headlineIndex

/-- The page was given no picture when it asked for one. -/
def LacksPicture (opened : OpenPage) (watch : Watch) : Prop :=
  ∃ index, opened.imageRequest = some index ∧ none ∈ watch.heard index

/-- The page is not given none in between when it waits for a picture. -/
theorem lacksPicture_iff {opened : OpenPage} {watch next : Watch} {called : Option WatchCall}
    (hgrows : watch.Grows called next) (hother : ∀ index, opened.imageRequest = some index →
      called.bind (screenResponse? index) ≠ some none) :
    opened.LacksPicture next ↔ opened.LacksPicture watch := by
  constructor
  · rintro ⟨index, hrequest, hnone⟩
    rw [hgrows.heard_eq] at hnone
    rcases List.mem_append.mp hnone with hold | hnew
    · exact ⟨index, hrequest, hold⟩
    · exact absurd (Option.mem_toList.mp hnew) (hother index hrequest)
  · rintro ⟨index, hrequest, hnone⟩
    refine ⟨index, hrequest, ?_⟩
    rw [hgrows.heard_eq]
    exact List.mem_append_left _ hnone

theorem IsBlank.urlImage {opened : OpenPage} (hblank : opened.IsBlank) : opened.urlImage = none := by
  rw [OpenPage.urlImage, hblank.1]
  rfl

end OpenPage

/-- What a page shows the phone has. -/
inductive Phone.Presents (phone : Phone) (opened : OpenPage) : Prop
  | waiting (hblank : opened.IsBlank)
      (hresponse : opened.response = none ∨ opened.response = some none)
  | short (articles : List Article) (hblank : opened.IsBlank)
      (hresponse : opened.response = some (some (.ofArticles articles)))
      (hholds : phone.Holds (.keyed "us") (.ofArticles articles))
      (hlength : articles.length ≤ opened.page.headlineIndex)
  | headline (articles : List Article) (article : Article)
      (hresponse : opened.response = some (some (.ofArticles articles)))
      (hholds : phone.Holds (.keyed "us") (.ofArticles articles))
      (harticle : articles[opened.page.headlineIndex]? = some article)
      (hcontroller : opened.controller =
        { HeadlinePages.initial opened.page with articles }.populateUI (.ofArticle article))
      (hillustrates : ∀ picture, opened.headlineImage.image = some picture →
        ∃ url, article.urlImage = some url ∧ phone.Supplies (.image url) (.image picture))

namespace Phone

variable {modulePrefix : String} {schedule : List Action} {phone final : Phone}
  {opened changed : OpenPage}

theorem Presents.later {later : List Action} (hpresents : phone.Presents opened)
    (hrun : Execution.execute step (start modulePrefix) schedule = some phone)
    (hlater : Execution.execute step phone later = some final) : final.Presents opened := by
  cases hpresents with
  | waiting hblank hresponse => exact .waiting hblank hresponse
  | short articles hblank hresponse hholds hlength =>
      exact .short articles hblank hresponse (hholds.later hrun hlater) hlength
  | headline articles article hresponse hholds harticle hcontroller hillustrates =>
      refine .headline articles article hresponse (hholds.later hrun hlater) harticle hcontroller ?_
      intro picture hpicture
      obtain ⟨url, hurl, hsupplies⟩ := hillustrates picture hpicture
      exact ⟨url, hurl, hsupplies.later hrun hlater⟩

/-- A page that has not been told is blank. -/
theorem Presents.blank (hpresents : phone.Presents opened) (hwaits : opened.response = none) :
    opened.IsBlank := by
  cases hpresents with
  | waiting hblank hresponse => exact hblank
  | short articles hblank hresponse hholds hlength => exact hblank
  | headline articles article hresponse hholds harticle hcontroller hillustrates =>
      exact absurd (hwaits.symm.trans hresponse) (Option.some_ne_none _).symm

/-- A page is told what the phone supplies, and stops the watch exactly if it is
told a list that has nothing at its place. -/
theorem Presents.hears {response : Option AnyValue} {halted halted' : Option Trap}
    (hrun : Execution.execute step (start modulePrefix) schedule = some phone)
    (hblank : opened.IsBlank)
    (hhears : Carousel.Hears opened response changed halted halted')
    (hsupplied : ∀ value, response = some value → phone.Supplies .topHeadlines value) :
    phone.Presents changed ∧ (halted' = halted ∧ ¬ changed.IsShort ∨
      halted' = some .indexOutOfRange ∧ changed.IsShort) := by
  have himage : changed.headlineImage = ⟨none⟩ := by
    rcases hhears.image with hsame | hnone
    · rw [hsame, hblank.2]
    · exact hnone
  have hindex : opened.controller.headlineIndex = opened.page.headlineIndex := by
    rw [hblank.1]
    rfl
  cases response with
  | none =>
      obtain ⟨hok, hhalted⟩ := hhears.controller.resolve_right (by
        rintro ⟨trap, herror, -⟩
        cases herror)
      have hcontroller : changed.controller = opened.controller := (Except.ok.inj hok).symm
      refine ⟨.waiting ⟨?_, himage⟩ (.inr hhears.response), .inl ⟨hhalted, ?_⟩⟩
      · rw [hcontroller, hblank.1, hhears.page]
      · rintro ⟨articles, hresponse, -⟩
        cases hhears.response.symm.trans hresponse
  | some value =>
      obtain ⟨articles, rfl, hholds⟩ := (hsupplied value rfl).articles hrun rfl
      cases harticle : articles[opened.page.headlineIndex]? with
      | none =>
          have hlength := List.getElem?_eq_none_iff.mp harticle
          have htrap := HeadlineBaseController.headlinesReceived_of_length_le hindex hlength
          obtain ⟨trap, herror, hcontroller, hhalted⟩ := hhears.controller.resolve_left (by
            rintro ⟨hok, -⟩
            cases htrap.symm.trans hok)
          obtain rfl := Except.error.inj (htrap.symm.trans herror)
          have hlength' : articles.length ≤ changed.page.headlineIndex := hhears.page ▸ hlength
          refine ⟨.short articles ⟨?_, himage⟩ hhears.response hholds hlength',
            .inr ⟨hhalted, articles, hhears.response, hlength'⟩⟩
          rw [hcontroller, hblank.1, hhears.page]
      | some article =>
          have hshows := HeadlineBaseController.headlinesReceived_of_getElem? hindex harticle
          obtain ⟨hok, hhalted⟩ := hhears.controller.resolve_right (by
            rintro ⟨trap, herror, -⟩
            cases hshows.symm.trans herror)
          have hcontroller := (Except.ok.inj (hshows.symm.trans hok)).symm
          refine ⟨.headline articles article hhears.response hholds (hhears.page ▸ harticle) ?_ ?_,
            .inl ⟨hhalted, ?_⟩⟩
          · rw [hcontroller, hblank.1, hhears.page]
            rfl
          · intro picture hpicture
            rw [himage] at hpicture
            cases hpicture
          · rintro ⟨articles', hresponse, hlength⟩
            have hsame := Option.some.inj (hhears.response.symm.trans hresponse)
            obtain rfl := AnyValue.ofArticles_inj (Option.some.inj hsame)
            rw [hhears.page, ← List.getElem?_eq_none_iff, harticle] at hlength
            cases hlength

/-- The picture of a page changes. -/
theorem Presents.pictured (hpresents : phone.Presents opened) {url : URL}
    (hurl : opened.urlImage = some url) {picture : UIImage}
    (hsupplies : phone.Supplies (.image url) (.image picture)) :
    phone.Presents { opened with headlineImage := ⟨some picture⟩ } := by
  cases hpresents with
  | waiting hblank hresponse =>
      exact absurd (hblank.urlImage.symm.trans hurl) (Option.some_ne_none url).symm
  | short articles hblank hresponse hholds hlength =>
      exact absurd (hblank.urlImage.symm.trans hurl) (Option.some_ne_none url).symm
  | headline articles article hresponse hholds harticle hcontroller hillustrates =>
      refine .headline articles article hresponse hholds harticle hcontroller ?_
      rintro other ⟨⟩
      refine ⟨url, ?_, hsupplies⟩
      rw [OpenPage.urlImage, hcontroller] at hurl
      exact hurl

/-- A page asks for its picture. -/
theorem Presents.asks (hpresents : phone.Presents opened) (imageRequest : Option Nat) :
    phone.Presents { opened with imageRequest } := by
  cases hpresents with
  | waiting hblank hresponse => exact .waiting hblank hresponse
  | short articles hblank hresponse hholds hlength =>
      exact .short articles hblank hresponse hholds hlength
  | headline articles article hresponse hholds harticle hcontroller hillustrates =>
      exact .headline articles article hresponse hholds harticle hcontroller hillustrates

end Phone

/-! ## Whole runs -/

namespace Carousel

variable {watchPrefix phonePrefix : String} {schedule : List Action}
  {carousel next final : Carousel} {opened : OpenPage} {index : Nat}

/-- What a callback is given that is invoked with a request the phone supplies. -/
theorem heard_supplied (hfaithful : ArchivesFaithfully)
    (hrun : Execution.execute step (start watchPrefix phonePrefix) schedule = some final)
    {request : WatchRequest} (hasked : final.connection.watch.asked[index]? = some request)
    {value : AnyValue} (hheard : some value ∈ final.connection.watch.heard index) :
    final.connection.phone.Supplies request value := by
  obtain ⟨connectionSchedule, hconnection⟩ := connection_run hrun
  obtain ⟨error, hcall⟩ := Watch.mem_heard.mp hheard
  exact Connection.value_supplied hfaithful hconnection hasked (.inr ⟨_, error, hcall⟩)

/-- The pages show what the phone has, and account for what has stopped the watch. -/
structure Accounted (carousel : Carousel) : Prop where
  presents : ∀ opened ∈ carousel.pages, carousel.connection.phone.Presents opened
  short : (∃ opened ∈ carousel.pages, opened.IsShort) ↔ carousel.halted = some .indexOutOfRange
  lacks : (∃ opened ∈ carousel.pages, opened.LacksPicture carousel.connection.watch) ↔
    carousel.halted = some .forcedCast
  halted : ∀ trap, carousel.halted = some trap → trap = .indexOutOfRange ∨ trap = .forcedCast

namespace Accounted

/-- Nothing has stopped the watch. -/
theorem of_running (hrunning : carousel.halted = none)
    (hpresents : ∀ opened ∈ carousel.pages, carousel.connection.phone.Presents opened)
    (hlong : ∀ opened ∈ carousel.pages, ¬ opened.IsShort)
    (hpictured : ∀ opened ∈ carousel.pages,
      ¬ opened.LacksPicture carousel.connection.watch) : carousel.Accounted where
  presents := hpresents
  short := by
    rw [hrunning]
    refine iff_of_false ?_ (Option.some_ne_none _).symm
    rintro ⟨opened, hopened, hshort⟩
    exact hlong opened hopened hshort
  lacks := by
    rw [hrunning]
    refine iff_of_false ?_ (Option.some_ne_none _).symm
    rintro ⟨opened, hopened, hlacks⟩
    exact hpictured opened hopened hlacks
  halted trap htrap := absurd (hrunning.symm.trans htrap) (Option.some_ne_none trap).symm

theorem not_short (haccounted : carousel.Accounted) (hrunning : carousel.halted = none) :
    ∀ opened ∈ carousel.pages, ¬ opened.IsShort := by
  intro opened hopened hshort
  exact Option.some_ne_none _ ((haccounted.short.mp ⟨opened, hopened, hshort⟩).symm.trans hrunning)

theorem not_lacks (haccounted : carousel.Accounted) (hrunning : carousel.halted = none) :
    ∀ opened ∈ carousel.pages, ¬ opened.LacksPicture carousel.connection.watch := by
  intro opened hopened hlacks
  exact Option.some_ne_none _ ((haccounted.lacks.mp ⟨opened, hopened, hlacks⟩).symm.trans hrunning)

/-- A step that changes neither the pages nor what they were given. -/
theorem keep {called : Option WatchCall} (haccounted : carousel.Accounted)
    (hpages : next.pages = carousel.pages) (hhalted : next.halted = carousel.halted)
    (hlater : ∀ opened, carousel.connection.phone.Presents opened →
      next.connection.phone.Presents opened)
    (hgrows : carousel.connection.watch.Grows called next.connection.watch)
    (hother : ∀ opened ∈ carousel.pages, ∀ index, opened.imageRequest = some index →
      called.bind (screenResponse? index) ≠ some none) : next.Accounted where
  presents := by
    rw [hpages]
    exact fun opened hopened => hlater opened (haccounted.presents opened hopened)
  short := by
    rw [hpages, hhalted]
    exact haccounted.short
  lacks := by
    rw [hpages, hhalted, ← haccounted.lacks]
    apply exists_congr
    intro opened
    apply and_congr_right
    intro hopened
    exact OpenPage.lacksPicture_iff hgrows (hother opened hopened)
  halted := by
    rw [hhalted]
    exact haccounted.halted

/-- The pages are given no picture, or none, in between. -/
theorem still_pictured {called : Option WatchCall} {watch : Watch}
    (haccounted : carousel.Accounted) (hrunning : carousel.halted = none)
    (hgrows : carousel.connection.watch.Grows called watch)
    (hother : ∀ opened ∈ carousel.pages, ∀ index, opened.imageRequest = some index →
      called.bind (screenResponse? index) ≠ some none) :
    ∀ opened ∈ carousel.pages, ¬ opened.LacksPicture watch := by
  intro opened hopened
  rw [OpenPage.lacksPicture_iff hgrows (hother opened hopened)]
  exact haccounted.not_lacks hrunning opened hopened

/-- The page that is next with the request is told. -/
theorem hears {changed : OpenPage} {todo : Option PageTodo} {halted : Option Trap}
    {connection : Connection} {position : Nat} {response : Option AnyValue}
    (haccounted : carousel.Accounted) (hkept : carousel.Kept) (hrunning : carousel.halted = none)
    {phoneSchedule : List Phone.Action}
    (hphone : Execution.execute Phone.step (.start phonePrefix) phoneSchedule =
      some connection.phone)
    (hlater : ∀ opened, carousel.connection.phone.Presents opened →
      connection.phone.Presents opened)
    (hnext : carousel.connection.step (.watch .main) = some connection)
    (hresponse : (carousel.connection.invoking (.watch .main)).bind (screenResponse? index) =
      some response) (hlistener : carousel.listener? index = some (position, opened))
    (hsupplied : ∀ value, response = some value →
      connection.phone.Supplies .topHeadlines value)
    (hhears : Hears opened response changed carousel.halted halted) :
    Accounted { carousel with
      connection, pages := carousel.pages.set position changed, todo, halted } := by
  obtain ⟨hopened, hheadlines, hwaits⟩ := listener?_eq_some hlistener
  have hmem := List.mem_of_getElem? hopened
  have hblank := (haccounted.presents opened hmem).blank hwaits
  obtain ⟨hpresents, houtcome⟩ := Phone.Presents.hears hphone hblank hhears hsupplied
  have hall : ∀ page ∈ carousel.pages.set position changed, connection.phone.Presents page :=
    Audience.forall_mem_set (fun page hpage => hlater page (haccounted.presents page hpage))
      hpresents
  have hpictured : ∀ page ∈ carousel.pages.set position changed,
      ¬ page.LacksPicture connection.watch := by
    apply Audience.forall_mem_set
    · apply haccounted.still_pictured hrunning (Connection.step_grows hnext)
      intro page hpage index' hindex' hnone
      -- the invocation is with a request for headlines, not for a picture
      by_cases hsame : index' = index
      · have hindex := hheadlines ▸ hkept.headlines opened hmem
        exact absurd hindex' (hsame ▸ hkept.imageRequest_ne hindex hpage)
      · rw [Watch.bind_screenResponse?_of_ne hresponse hsame] at hnone
        cases hnone
    · rintro ⟨index', hindex', -⟩
      rw [hhears.imageRequest, hkept.waiting opened hmem hwaits] at hindex'
      cases hindex'
  rcases houtcome with ⟨hsame, hlong⟩ | ⟨htrap, hshort⟩
  · exact .of_running (hsame.trans hrunning) hall
      (Audience.forall_mem_set (haccounted.not_short hrunning) hlong) hpictured
  · refine ⟨hall, iff_of_true ?_ htrap, iff_of_false ?_ ?_, ?_⟩
    · exact ⟨changed, List.mem_set (List.getElem?_eq_some_iff.mp hopened).1 changed, hshort⟩
    · rintro ⟨page, hpage, hlacks⟩
      exact hpictured page hpage hlacks
    · rw [htrap]
      rintro ⟨⟩
    · intro trap hhalted
      exact .inl (Option.some.inj (hhalted.symm.trans htrap))

/-- The callback of a picture is invoked. -/
theorem sees {connection : Connection} {position : Nat} {response : Option AnyValue}
    (haccounted : carousel.Accounted) (hkept : carousel.Kept) (hrunning : carousel.halted = none)
    (hlater : ∀ opened, carousel.connection.phone.Presents opened →
      connection.phone.Presents opened)
    (hnext : carousel.connection.step (.watch .main) = some connection)
    (hresponse : (carousel.connection.invoking (.watch .main)).bind (screenResponse? index) =
      some response) (hviewer : carousel.viewer? index = some (position, opened))
    (hsupplied : ∀ url value, connection.watch.asked[index]? = some (.image url) →
      response = some value → connection.phone.Supplies (.image url) value) :
    ({ carousel with connection }.imageReceived position opened response).Accounted := by
  obtain ⟨hopened, hviews⟩ := viewer?_eq_some hviewer
  have hmem := List.mem_of_getElem? hopened
  have hgrows := Connection.step_grows hnext
  obtain ⟨url, hurl, hasked⟩ := hkept.pictures opened hmem index hviews
  have hasked' := Execution.getElem?_of_prefix hgrows.asked hasked
  rcases imageReceived_cases { carousel with connection } position opened response with
    ⟨picture, rfl, heq⟩ | ⟨hnone, heq⟩
  · rw [heq]
    have hpictured : ∀ page ∈ carousel.pages, ¬ page.LacksPicture connection.watch := by
      apply haccounted.still_pictured hrunning hgrows
      intro page _ index' _ hnone
      by_cases hsame : index' = index
      · rw [hsame, hresponse] at hnone
        cases hnone
      · rw [Watch.bind_screenResponse?_of_ne hresponse hsame] at hnone
        cases hnone
    have hpresents : ∀ page ∈ carousel.pages, connection.phone.Presents page :=
      fun page hpage => hlater page (haccounted.presents page hpage)
    refine of_running hrunning ?_ ?_ ?_
    · exact Audience.forall_mem_set hpresents
        ((hpresents opened hmem).pictured hurl (hsupplied url _ hasked' rfl))
    · exact Audience.forall_mem_set (haccounted.not_short hrunning)
        (haccounted.not_short hrunning opened hmem)
    · exact Audience.forall_mem_set hpictured (hpictured opened hmem)
  · rw [heq]
    have hnil : response = none := by
      cases response with
      | none => rfl
      | some value =>
          obtain ⟨picture, rfl⟩ := (hsupplied url value hasked' rfl).image
          cases hnone
    refine ⟨fun page hpage => hlater page (haccounted.presents page hpage), iff_of_false ?_ ?_,
      iff_of_true ⟨opened, hmem, index, hviews, ?_⟩ rfl, ?_⟩
    · rintro ⟨page, hpage, hshort⟩
      exact haccounted.not_short hrunning page hpage hshort
    · rintro ⟨⟩
    · dsimp only
      rw [hgrows.heard_eq, hresponse, hnil]
      exact List.mem_append_right _ (List.mem_singleton.mpr rfl)
    · rintro trap ⟨⟩
      exact .inr rfl

/-- A page awakes. -/
theorem awake (haccounted : carousel.Accounted) (hrunning : carousel.halted = none)
    (contexts : List (HeadlinePage × Nat)) (context : HeadlinePage × Nat) :
    ({ carousel with contexts }.awake context).Accounted := by
  refine of_running hrunning ?_ ?_ ?_
  · exact Audience.forall_mem_append_singleton haccounted.presents
      (.waiting ⟨rfl, rfl⟩ (.inl rfl))
  · apply Audience.forall_mem_append_singleton (haccounted.not_short hrunning)
    rintro ⟨articles, ⟨⟩, -⟩
  · apply Audience.forall_mem_append_singleton (haccounted.not_lacks hrunning)
    rintro ⟨index, ⟨⟩, -⟩

/-- A page asks for its picture. -/
theorem getImage {connection : Connection} {url : URL} {position : Nat}
    {watchSchedule : List Watch.Action} (haccounted : carousel.Accounted)
    (hrunning : carousel.halted = none)
    (hlater : ∀ opened, carousel.connection.phone.Presents opened →
      connection.phone.Presents opened)
    (hrun : Execution.execute Watch.step (.start watchPrefix) watchSchedule =
      some carousel.connection.watch)
    (hnext : carousel.connection.step (.watch (.get (.image url))) = some connection)
    (hopened : carousel.pages[position]? = some opened) (todo : Option PageTodo) :
    Accounted { carousel with
      connection
      pages := carousel.pages.set position
        { opened with imageRequest := some carousel.connection.watch.asked.length }
      todo } := by
  have hmem := List.mem_of_getElem? hopened
  have hgrows := Connection.step_grows hnext
  have hpresents : ∀ page ∈ carousel.pages, connection.phone.Presents page :=
    fun page hpage => hlater page (haccounted.presents page hpage)
  refine of_running hrunning ?_ ?_ ?_
  · exact Audience.forall_mem_set hpresents ((hpresents opened hmem).asks _)
  · exact Audience.forall_mem_set (haccounted.not_short hrunning)
      (haccounted.not_short hrunning opened hmem)
  · apply Audience.forall_mem_set
    · exact haccounted.still_pictured hrunning hgrows fun _ _ _ _ hnone => by cases hnone
    · -- nobody has called with the request that is made
      rintro ⟨index, ⟨⟩, hnone⟩
      rw [hgrows.heard_eq, Watch.heard_fresh hrun (Nat.le_refl _)] at hnone
      cases hnone

end Accounted

theorem Step.accounted (hfaithful : ArchivesFaithfully)
    (hrun : Execution.execute step (start watchPrefix phonePrefix) schedule = some carousel)
    {action : Action} (hnext : carousel.step action = some next)
    (haccounted : carousel.Accounted) : next.Accounted := by
  have hrun' := Execution.execute_concat_eq_some.mpr ⟨carousel, hrun, hnext⟩
  have hkept := Carousel.kept hrun
  obtain ⟨connectionSchedule, hconnection⟩ := connection_run hrun
  obtain ⟨phoneSchedule, hphone⟩ := Connection.phone_reachable hconnection
  obtain ⟨connectionSchedule', hconnection'⟩ := connection_run hrun'
  obtain ⟨phoneSchedule', hphone'⟩ := Connection.phone_reachable hconnection'
  have hlater : ∀ opened, carousel.connection.phone.Presents opened →
      next.connection.phone.Presents opened := by
    intro opened hpresents
    have hone : Execution.execute step carousel [action] = some next := by
      rw [Execution.execute_cons, hnext]
      rfl
    obtain ⟨connectionLater, hconnectionLater⟩ := connection_run hone
    obtain ⟨phoneLater, hphoneLater⟩ := Connection.phone_later hconnectionLater
    exact hpresents.later hphone hphoneLater
  have hsupplied : ∀ {index : Nat} {request : WatchRequest} {value : AnyValue},
      next.connection.watch.asked[index]? = some request →
        some value ∈ next.connection.watch.heard index →
          next.connection.phone.Supplies request value :=
    fun hasked hheard => heard_supplied hfaithful hrun' hasked hheard
  cases step_step hnext with
  | quiet connectionAction connection hstep hlistening hnobody =>
      refine haccounted.keep rfl rfl hlater (Connection.step_grows hstep) ?_
      intro opened hopened index hindex hnone
      exact viewer?_ne_none hopened hindex (hnobody index none hnone).2
  | hears connection index position opened response hrunning htodo hstep hresponse hlistener =>
      obtain ⟨changed, todo, halted, heq, hhears, -⟩ := headlinesReceived_hears
        { carousel with connection } htodo position opened response
      rw [heq] at hphone' hlater hsupplied ⊢
      refine haccounted.hears hkept hrunning hphone' hlater hstep hresponse hlistener ?_ hhears
      rintro value rfl
      obtain ⟨hopened, hheadlines, -⟩ := listener?_eq_some hlistener
      have hgrows := Connection.step_grows hstep
      have hasked := hkept.asked index
        (hheadlines ▸ hkept.headlines opened (List.mem_of_getElem? hopened))
      refine hsupplied (Execution.getElem?_of_prefix hgrows.asked hasked) ?_
      dsimp only
      rw [hgrows.heard_eq, hresponse]
      exact List.mem_append_right _ (List.mem_singleton.mpr rfl)
  | sees connection index position opened response hrunning htodo hstep hresponse hlistener
      hviewer =>
      rw [imageReceived_connection] at hlater hsupplied
      have hgrows := Connection.step_grows hstep
      refine haccounted.sees hkept hrunning hlater hstep hresponse hviewer ?_
      rintro url value hasked rfl
      refine hsupplied hasked ?_
      dsimp only
      rw [hgrows.heard_eq, hresponse]
      exact List.mem_append_right _ (List.mem_singleton.mpr rfl)
  | contextsForSegue connection hidle hstep =>
      exact haccounted.keep rfl rfl hlater (Connection.step_grows hstep) fun _ _ _ _ hnone => by
        cases hnone
  | awake context contexts hidle hcontext hcontexts =>
      exact haccounted.awake (halted_of_idle hidle) contexts context
  | getImage position url connection hrunning htodo hstep =>
      obtain ⟨opened, hopened, hurl, htold⟩ := hkept.picturing position url htodo
      obtain ⟨watchSchedule, hwatchRun⟩ := Connection.watch_reachable hconnection
      rw [Audience.modify_eq_set hopened]
      exact haccounted.getImage hrunning hlater hwatchRun hstep hopened _
  | withResult index connection hrunning htodo hstep =>
      exact haccounted.keep rfl rfl hlater (Connection.step_grows hstep) fun _ _ _ _ hnone => by
        cases hnone

theorem accounted (hfaithful : ArchivesFaithfully)
    (hrun : Execution.execute step (start watchPrefix phonePrefix) schedule = some final) :
    final.Accounted := by
  refine Execution.execute_induction
    (motive := fun _ (carousel : Carousel) => carousel.Accounted) ?_ ?_ hrun
  · refine .of_running rfl ?_ ?_ ?_
    all_goals
      intro opened hopened
      exact absurd hopened List.not_mem_nil
  · intro schedule carousel action next hbefore haccounted hnext
    exact Step.accounted hfaithful hbefore hnext haccounted

/-- Every page is blank, or shows the headline at its place among those that the
phone holds, with no other picture than that of the headline; and the pages with
one request were told exactly what its callbacks were given. -/
theorem pages_show_phone (hfaithful : ArchivesFaithfully)
    (hrun : Execution.execute step (start watchPrefix phonePrefix) schedule = some final) :
    (∀ opened ∈ final.pages, final.connection.phone.Presents opened) ∧
      ∀ index ∈ final.requests, (final.told index).Perm (final.connection.watch.heard index) :=
  ⟨(accounted hfaithful hrun).presents, (kept hrun).answered⟩

/-- The pages stop the watch exactly when one of them is told a list that has
nothing at its place, or is given no picture. -/
theorem halted_iff (hfaithful : ArchivesFaithfully)
    (hrun : Execution.execute step (start watchPrefix phonePrefix) schedule = some final)
    (trap : Trap) : final.halted = some trap ↔
      (trap = .indexOutOfRange ∧ ∃ opened ∈ final.pages, opened.IsShort) ∨
      (trap = .forcedCast ∧
        ∃ opened ∈ final.pages, opened.LacksPicture final.connection.watch) := by
  have haccounted := accounted hfaithful hrun
  constructor
  · intro hhalted
    rcases haccounted.halted trap hhalted with rfl | rfl
    · exact .inl ⟨rfl, haccounted.short.mpr hhalted⟩
    · exact .inr ⟨rfl, haccounted.lacks.mpr hhalted⟩
  · rintro (⟨rfl, hshort⟩ | ⟨rfl, hlacks⟩)
    · exact haccounted.short.mp hshort
    · exact haccounted.lacks.mp hlacks

/-- At rest every page was told what the phone holds. -/
theorem response_at_rest (hfaithful : ArchivesFaithfully)
    (hrun : Execution.execute step (start watchPrefix phonePrefix) schedule = some final)
    (hrest : final.connection.AtRest) (hrunning : final.connection.phone.halted = none)
    (hsession : final.connection.watch.sessionCalls ≠ []) (htodo : final.todo = none)
    (hopened : opened ∈ final.pages)
    (herror : ∀ error, (Watch.requestOf opened.headlines, none, some error) ∉
      final.connection.watch.main.setResultCalls)
    {value : AnyValue}
    (hholds : final.connection.phone.Holds (.keyed "us") value) :
    opened.response = some (some value) := by
  have hkept := kept hrun
  obtain ⟨connectionSchedule, hconnection⟩ := connection_run hrun
  obtain ⟨watchSchedule, hwatchRun⟩ := Connection.watch_reachable hconnection
  have hsound := (Watch.consistent hwatchRun).main
  have hindex := hkept.headlines opened hopened
  obtain ⟨occupant, hoccupant, hheld⟩ := hholds
  obtain ⟨hresult, -⟩ := Connection.told_of_held hfaithful hconnection hrest hrunning
    hsession (hkept.asked _ hindex) rfl (by rintro country ⟨⟩) herror hoccupant hheld
  obtain ⟨error, hcall⟩ := hsound.result_called hresult
  have hset : AsyncRequest.setResults
      (final.connection.watch.main.events (Watch.requestOf opened.headlines)) ≠ [] := by
    rw [MainQueue.setResults_events]
    exact List.ne_nil_of_mem (Tagged.mem_ownedBy.mpr hcall)
  -- as many were told as have registered, so all of them
  have hheard := Watch.heard_at_rest hwatchRun hrest.watch hset
  have hanswered := hkept.answered _ hindex
  have hregistered := hkept.registered _ hindex
  have hfull : final.audience opened.headlines ≤ (final.told opened.headlines).length := by
    rw [registering, htodo] at hregistered
    rw [hanswered.length_eq, hheard, ← hregistered]
    exact Nat.le_refl _
  obtain ⟨response, hresponse⟩ := Audience.value_of_full hfull hopened rfl
  obtain ⟨error', hgiven⟩ :=
    Watch.mem_heard.mp (hanswered.subset (Audience.mem_told hopened hresponse))
  have hsingle := Watch.settlementsOf_length_le hwatchRun opened.headlines
  rw [Watch.settlementsOf, ← MainQueue.setResults_events] at hsingle
  rw [hresponse, hsound.callback_result hsingle hgiven, hresult]

/-- At rest every page shows the headline at its place, if the phone holds
headlines and nothing has stopped the watch. -/
theorem headlines_at_rest (hfaithful : ArchivesFaithfully)
    (hrun : Execution.execute step (start watchPrefix phonePrefix) schedule = some final)
    (hrest : final.connection.AtRest) (hrunning : final.connection.phone.halted = none)
    (hsession : final.connection.watch.sessionCalls ≠ []) (htodo : final.todo = none)
    (hhalted : final.halted = none) (hopened : opened ∈ final.pages)
    (herror : ∀ error, (Watch.requestOf opened.headlines, none, some error) ∉
      final.connection.watch.main.setResultCalls)
    {articles : List Article}
    (hholds : final.connection.phone.Holds (.keyed "us") (.ofArticles articles)) :
    ∃ article, articles[opened.page.headlineIndex]? = some article ∧
      opened.controller.contents = some (.ofArticle article) := by
  have hresponse := response_at_rest hfaithful hrun hrest hrunning hsession htodo hopened herror
    hholds
  have haccounted := accounted hfaithful hrun
  cases haccounted.presents opened hopened with
  | waiting hblank hnone =>
      rw [hresponse] at hnone
      rcases hnone with hnone | hnone
      all_goals cases hnone
  | short articles' hblank hresponse' hholds' hlength =>
      exact absurd ⟨articles', hresponse', hlength⟩ (haccounted.not_short hhalted opened hopened)
  | headline articles' article hresponse' hholds' harticle hcontroller hillustrates =>
      have hsame := Option.some.inj (Option.some.inj (hresponse.symm.trans hresponse'))
      obtain rfl := AnyValue.ofArticles_inj hsame
      exact ⟨article, harticle, congrArg HeadlineBaseController.contents hcontroller⟩

section Samples

omit [Foundation]

/-- A platform on which every answer of the service has one headline, with a
picture. -/
@[reducible] def headlinesSample : Foundation :=
  { Foundation.sample with
    jsonObject := fun _ => .ok (.object [("articles", .array
      [.object [("title", .string "T"), ("urlToImage", .string "https://a.b/c")]])])
    imageFromData := fun _ => some ((1 : ℚ), (1 : ℚ)) }

theorem headlinesSample_archivesFaithfully : @ArchivesFaithfully headlinesSample :=
  fun archive => ⟨.archive archive, rfl, rfl⟩

/-- The session is activated, and the phone answers with headlines. -/
def headlinesAnswer : letI := headlinesSample; List Connection.Action :=
  letI := headlinesSample
  List.replicate 12 (.watch .main) ++ [.deliver 0] ++ List.replicate 5 (.phone .main) ++
    [.phone (.complete 0 ⟨some (.text "\x7b\x7d"), some (.http 200), none⟩)] ++
    List.replicate 6 (.phone .main) ++ [.respond 0] ++ List.replicate 5 (.watch .main)

/-- The phone answers with a picture. -/
def pictureAnswer : letI := headlinesSample; List Connection.Action :=
  letI := headlinesSample
  List.replicate 7 (.watch .main) ++ [.deliver 1] ++ List.replicate 2 (.phone .main) ++
    [.phone (.retrieve 0 (some ((4 : ℚ), (2 : ℚ)))), .respond 1] ++
    List.replicate 6 (.watch .main)

/-- The first page awakes, is told, and is given its picture. -/
def firstPageSchedule : letI := headlinesSample; List Action :=
  letI := headlinesSample
  [.connection (.watch (.reach true)), .connection (.watch .activate), .contextsForSegue, .awake 0,
    .withResult] ++ headlinesAnswer.map .connection ++ [.getImage, .withResult] ++
    pictureAnswer.map .connection

theorem firstPageSchedule_shows :
    letI := headlinesSample
    (Execution.execute step (start "Watch" "NewsDay") firstPageSchedule).map (fun final =>
      final.pages.map fun opened =>
        (opened.controller.contents.map HeadlineContents.title,
          opened.headlineImage.image.isSome)) = some [(some "T", true)] := by
  decide +kernel

theorem pages_show_phone_sample :
    letI := headlinesSample
    ∃ final, Execution.execute step (start "Watch" "NewsDay") firstPageSchedule = some final ∧
      final.pages.map (fun opened => (opened.controller.contents.map HeadlineContents.title,
        opened.headlineImage.image.isSome)) = [(some "T", true)] ∧
      (∀ opened ∈ final.pages, final.connection.phone.Presents opened) ∧
        ∀ index ∈ final.requests, (final.told index).Perm (final.connection.watch.heard index) := by
  let _ := headlinesSample
  obtain ⟨final, hrun, hshows⟩ := Option.map_eq_some_iff.mp firstPageSchedule_shows
  exact ⟨final, hrun, hshows, pages_show_phone headlinesSample_archivesFaithfully hrun⟩

/-- The second page awakes, and there is no second headline. -/
def secondPageSchedule : letI := headlinesSample; List Action :=
  letI := headlinesSample
  firstPageSchedule ++ [.awake 0, .withResult] ++ List.replicate 4 (.connection (.watch .main))

theorem secondPageSchedule_halts :
    letI := headlinesSample
    (Execution.execute step (start "Watch" "NewsDay") secondPageSchedule).map Carousel.halted =
      some (some .indexOutOfRange) := by
  decide +kernel

theorem halted_iff_sample :
    letI := headlinesSample
    ∃ final, Execution.execute step (start "Watch" "NewsDay") secondPageSchedule = some final ∧
      ∃ opened ∈ final.pages, opened.IsShort := by
  let _ := headlinesSample
  obtain ⟨final, hrun, hhalted⟩ := Option.map_eq_some_iff.mp secondPageSchedule_halts
  rcases (halted_iff headlinesSample_archivesFaithfully hrun _).mp hhalted with
    ⟨-, hshort⟩ | ⟨hother, -⟩
  · exact ⟨final, hrun, hshort⟩
  · cases hother

theorem firstPageSchedule_rests :
    letI := headlinesSample
    (Execution.execute step (start "Watch" "NewsDay") firstPageSchedule).any (fun final =>
      final.connection.isServed && final.todo.isNone && final.halted.isNone &&
        !final.pages.isEmpty &&
          ((final.connection.phone.news.api.occupant (.keyed "us")).bind fun occupant =>
            (final.connection.phone.main.requests occupant).result).isSome) = true := by
  decide +kernel

theorem headlines_at_rest_sample :
    letI := headlinesSample
    ∃ final opened articles article,
      Execution.execute step (start "Watch" "NewsDay") firstPageSchedule = some final ∧
        opened ∈ final.pages ∧ final.connection.phone.Holds (.keyed "us") (.ofArticles articles) ∧
          articles[opened.page.headlineIndex]? = some article ∧
            opened.controller.contents = some (.ofArticle article) := by
  let _ := headlinesSample
  obtain ⟨final, hrun, hrests⟩ := (Option.any_eq_true _ _).mp firstPageSchedule_rests
  simp only [Bool.and_eq_true, Option.isNone_iff_eq_none, Bool.not_eq_true'] at hrests
  obtain ⟨⟨⟨⟨hserved, htodo⟩, hhalted⟩, hpages⟩, hheld⟩ := hrests
  have hserved := Connection.served_of_isServed hserved
  obtain ⟨opened, hopened⟩ := List.exists_mem_of_ne_nil final.pages (by
    intro hnil
    rw [hnil] at hpages
    cases hpages)
  obtain ⟨value, hvalue⟩ := Option.isSome_iff_exists.mp hheld
  obtain ⟨occupant, hoccupant, hresult⟩ := Option.bind_eq_some_iff.mp hvalue
  obtain ⟨connectionSchedule, hconnection⟩ := connection_run hrun
  obtain ⟨phoneSchedule, hphone⟩ := Connection.phone_reachable hconnection
  rcases Phone.held_kind hphone hoccupant hresult with ⟨hother, -⟩ | ⟨-, articles, rfl⟩
  · cases hother
  · obtain ⟨article, harticle, hcontents⟩ := headlines_at_rest headlinesSample_archivesFaithfully
      hrun hserved.rest hserved.running hserved.session htodo hhalted hopened (hserved.errors _)
      ⟨occupant, hoccupant, hresult⟩
    exact ⟨final, opened, articles, article, hrun, hopened, ⟨occupant, hoccupant, hresult⟩,
      harticle, hcontents⟩

end Samples

end Carousel

end NewsDay
