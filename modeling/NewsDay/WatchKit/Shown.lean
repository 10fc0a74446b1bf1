import NewsDay.WatchKit.OpenScreens

/-! # What the screens of the watch show

Somebody browsing is shown what the phone holds, at every moment of every run:
the sources, the articles of one of these sources, one of these articles, and a
picture that was retrieved for it. So rows are never out of range, and a
picture that does not arrive is the only thing that stops the screens.
-/

namespace NewsDay

open Foundation

variable [Foundation]

/-! ## What the phone offers -/

/-- What can be opened, given what the phone holds. -/
inductive Phone.Offers (phone : Phone) : Presentation → Prop
  | sources : Phone.Offers phone ⟨.sourcesView, none⟩
  | articles (groups : CategorizedSources) (source : Source)
      (hholds : phone.Holds .sources (.categorizedSources groups))
      (hsource : source ∈ groups.flatten) :
      Phone.Offers phone ⟨.articlesView, some (.source source)⟩
  | article (source : Source) (articles : List Article) (article : Article)
      (hoffers : Phone.Offers phone ⟨.articlesView, some (.source source)⟩)
      (hholds : phone.Holds (.keyed source.id) (.ofArticles articles))
      (harticle : article ∈ articles) :
      Phone.Offers phone ⟨.articleDetailView, some (.article article)⟩

theorem Phone.Offers.later {modulePrefix : String} {schedule : List Phone.Action}
    {phone final : Phone} {later : List Phone.Action} {presentation : Presentation}
    (hoffers : phone.Offers presentation)
    (hrun : Execution.execute Phone.step (.start modulePrefix) schedule = some phone)
    (hlater : Execution.execute Phone.step phone later = some final) :
    final.Offers presentation := by
  induction hoffers with
  | sources => exact .sources
  | articles groups source hholds hsource =>
      exact .articles groups source (hholds.later hrun hlater) hsource
  | article source articles article hoffers hholds harticle ih =>
      exact .article source articles article ih (hholds.later hrun hlater) harticle

/-- The picture of an article that has none is the default, and that of any
other article is blank or was supplied by the phone. -/
def Phone.Illustrates (imageNamed : String → Option UIImage) (phone : Phone) (article : Article)
    (image : Option UIImage) : Prop :=
  match article.urlImage with
  | none => image = imageNamed "news_white_default"
  | some url => ∀ picture, image = some picture → phone.Supplies (.image url) (.image picture)

/-- What a screen shows the phone has. -/
inductive Phone.Fills (imageNamed : String → Option UIImage) (phone : Phone) :
    Presentation → Screen → Prop
  | noSources : Phone.Fills imageNamed phone ⟨.sourcesView, none⟩ (.sources {})
  | sources (groups : CategorizedSources)
      (hholds : phone.Holds .sources (.categorizedSources groups)) :
      Phone.Fills imageNamed phone ⟨.sourcesView, none⟩ (.sources (.showing groups.flatten))
  | noArticles (source : Source) :
      Phone.Fills imageNamed phone ⟨.articlesView, some (.source source)⟩
        (.articles (.showing source []))
  | articles (source : Source) (articles : List Article)
      (hholds : phone.Holds (.keyed source.id) (.ofArticles articles)) :
      Phone.Fills imageNamed phone ⟨.articlesView, some (.source source)⟩
        (.articles (.showing source articles))
  | article (article : Article) (image : Option UIImage)
      (hillustrates : phone.Illustrates imageNamed article image) :
      Phone.Fills imageNamed phone ⟨.articleDetailView, some (.article article)⟩
        (.articleDetail (.showing article image))

/-- The screen of an article with a picture awakes without it. -/
theorem Screen.awake_picture (imageNamed : String → Option UIImage) {article : Article} {url : URL}
    (hurl : article.urlImage = some url) :
    (awake imageNamed ⟨.articleDetailView, some (.article article)⟩).1 =
      .articleDetail (.showing article none) := by
  simp [awake, ArticleDetailInterfaceController.awake, AnyValue.asArticle, hurl,
    ArticleDetailInterfaceController.showing]

namespace Phone

variable {imageNamed : String → Option UIImage} {modulePrefix : String} {schedule : List Action}
  {phone : Phone} {presentation : Presentation} {screen : Screen}

/-- A screen that has just awoken shows nothing that the phone has not. -/
theorem Offers.awake (hoffers : phone.Offers presentation) :
    phone.Fills imageNamed presentation (Screen.awake imageNamed presentation).1 := by
  cases hoffers with
  | sources => exact .noSources
  | articles groups source hholds hsource => exact .noArticles source
  | article source articles article hoffers hholds harticle =>
      cases hurl : article.urlImage with
      | none =>
          have hawake : (Screen.awake imageNamed ⟨.articleDetailView, some (.article article)⟩).1 =
              .articleDetail (.showing article (imageNamed "news_white_default")) := by
            simp [Screen.awake, ArticleDetailInterfaceController.awake, AnyValue.asArticle, hurl,
              ArticleDetailInterfaceController.showing]
          rw [hawake]
          exact .article article _ (by simp [Illustrates, hurl])
      | some url =>
          rw [Screen.awake_picture imageNamed hurl]
          exact .article article _ (by simp [Illustrates, hurl])

/-- A row that can be selected opens what the phone offers. -/
theorem Fills.select (hfills : phone.Fills imageNamed presentation screen)
    (hoffers : phone.Offers presentation) {rowIndex : Nat} (hrow : rowIndex < screen.rowCount) :
    ∃ selected, screen.didSelectRow rowIndex = .ok (some selected) ∧ phone.Offers selected := by
  cases hfills with
  | noSources => exact absurd hrow (Nat.not_lt_zero _)
  | sources groups hholds =>
      have hlt : rowIndex < groups.flatten.length := by
        simpa [Screen.rowCount, SourceInterfaceController.showing] using hrow
      refine ⟨⟨.articlesView, some (.source groups.flatten[rowIndex])⟩, ?_, ?_⟩
      · simp [Screen.didSelectRow, SourceInterfaceController.didSelectRow,
          SourceInterfaceController.showing, bind, Except.bind, pure, Except.pure,
          subscript_of_getElem? (List.getElem?_eq_getElem hlt)]
      · exact .articles groups _ hholds (List.getElem_mem hlt)
  | noArticles source => exact absurd hrow (Nat.not_lt_zero _)
  | articles source articles hholds =>
      have hlt : rowIndex < articles.length := by
        simpa [Screen.rowCount, ArticleInterfaceController.showing] using hrow
      refine ⟨⟨.articleDetailView, some (.article articles[rowIndex])⟩, ?_, ?_⟩
      · simp [Screen.didSelectRow, ArticleInterfaceController.didSelectRow,
          ArticleInterfaceController.showing, bind, Except.bind, pure, Except.pure,
          subscript_of_getElem? (List.getElem?_eq_getElem hlt)]
      · exact .article source articles _ hoffers hholds (List.getElem_mem hlt)
  | article article image hillustrates => exact absurd hrow (Nat.not_lt_zero _)

/-- What the watch is given for sources are sources. -/
theorem Supplies.sources (hrun : Execution.execute step (start modulePrefix) schedule = some phone)
    {value : AnyValue} (hsupplies : phone.Supplies .sources value) :
    ∃ groups, value = .categorizedSources groups ∧
      phone.Holds .sources (.categorizedSources groups) := by
  obtain ⟨occupant, hoccupant, hheld⟩ := hsupplies.of_slot rfl
  rcases held_kind hrun hoccupant hheld with ⟨-, groups, rfl⟩ | ⟨hother, -⟩
  · exact ⟨groups, rfl, occupant, hoccupant, hheld⟩
  · exact absurd rfl hother

/-- What the watch is given for articles or headlines are articles. -/
theorem Supplies.articles
    (hrun : Execution.execute step (start modulePrefix) schedule = some phone)
    {request : WatchRequest} {key : String} (hslot : request.slot = some (.keyed key))
    {value : AnyValue} (hsupplies : phone.Supplies request value) :
    ∃ articles, value = .ofArticles articles ∧ phone.Holds (.keyed key) (.ofArticles articles) := by
  obtain ⟨occupant, hoccupant, hheld⟩ := hsupplies.of_slot hslot
  rcases held_kind hrun hoccupant hheld with ⟨hother, -⟩ | ⟨-, articles, rfl⟩
  · cases hother
  · exact ⟨articles, rfl, occupant, hoccupant, hheld⟩

/-- What the watch is given for an image is a picture. -/
theorem Supplies.image {url : URL} {value : AnyValue}
    (hsupplies : phone.Supplies (.image url) value) : ∃ picture, value = .image picture := by
  cases hsupplies with
  | news slot occupant hslot => exact absurd hslot.symm (Option.some_ne_none slot)
  | picture url' retrieved replyHandler image picture hrequest hvalue => exact ⟨picture, hvalue⟩

/-- An article asks for its picture. -/
theorem awake_article {article : Article} {request : WatchRequest}
    (hasks : (Screen.awake imageNamed ⟨.articleDetailView, some (.article article)⟩).2 =
      some request) : ∃ url, article.urlImage = some url ∧ request = .image url := by
  cases hurl : article.urlImage with
  | none => simp [Screen.awake, ArticleDetailInterfaceController.awake, AnyValue.asArticle, hurl]
      at hasks
  | some url =>
      simp [Screen.awake, ArticleDetailInterfaceController.awake, AnyValue.asArticle, hurl] at hasks
      exact ⟨url, rfl, hasks.symm⟩

/-- No screen asks for headlines. -/
theorem Offers.ne_headlines (hoffers : phone.Offers presentation) {request : WatchRequest}
    (hasks : (Screen.awake imageNamed presentation).2 = some request) (country : String)
    (limit : Option Int64) : request ≠ .headlines country limit := by
  rintro rfl
  cases hoffers with
  | sources => cases hasks
  | articles groups source hholds hsource => cases hasks
  | article source articles article hoffers hholds harticle =>
      obtain ⟨url, -, himage⟩ := awake_article hasks
      cases himage

/-- A callback that is given what the phone supplies fills the screen with what
the phone has, unless it waits for a picture and is given none. -/
theorem Fills.received
    (hrun : Execution.execute step (start modulePrefix) schedule = some phone)
    (hfills : phone.Fills imageNamed presentation screen) {request : WatchRequest}
    (hasks : (Screen.awake imageNamed presentation).2 = some request)
    {response : Option AnyValue}
    (hsupplied : ∀ value, response = some value → phone.Supplies request value) :
    (∃ screen', screen.received response = .ok screen' ∧
      phone.Fills imageNamed presentation screen') ∨
    (screen.received response = .error .forcedCast ∧ response = none ∧
      ∃ url, request = .image url) := by
  cases response with
  | none =>
      cases hfills with
      | noSources => exact .inl ⟨_, rfl, .noSources⟩
      | sources groups hholds => exact .inl ⟨_, rfl, .sources groups hholds⟩
      | noArticles source => exact .inl ⟨_, rfl, .noArticles source⟩
      | articles source articles hholds => exact .inl ⟨_, rfl, .articles source articles hholds⟩
      | article article image hillustrates =>
          obtain ⟨url, -, hrequest⟩ := awake_article hasks
          exact .inr ⟨rfl, rfl, url, hrequest⟩
  | some value =>
      left
      have hvalue := hsupplied value rfl
      have hsources : ∀ controller : SourceInterfaceController,
          presentation = ⟨.sourcesView, none⟩ →
            ∃ screen', (Screen.sources controller).received (some value) = .ok screen' ∧
              phone.Fills imageNamed presentation screen' := by
        rintro controller rfl
        obtain rfl := Option.some.inj hasks
        obtain ⟨groups, rfl, hholds⟩ := hvalue.sources hrun
        refine ⟨_, ?_, .sources groups hholds⟩
        rw [Screen.received, controller.sourcesReceived_eq]
        rfl
      have harticles : ∀ (controller : ArticleInterfaceController) (source : Source),
          controller.source = some source →
            presentation = ⟨.articlesView, some (.source source)⟩ →
              ∃ screen', (Screen.articles controller).received (some value) = .ok screen' ∧
                phone.Fills imageNamed presentation screen' := by
        rintro controller source hsource rfl
        obtain rfl := Option.some.inj hasks
        obtain ⟨articles, rfl, hholds⟩ := hvalue.articles hrun rfl
        refine ⟨_, ?_, .articles source articles hholds⟩
        rw [Screen.received, controller.articlesReceived_eq hsource]
        rfl
      cases hfills with
      | noSources => exact hsources _ rfl
      | sources groups hholds => exact hsources _ rfl
      | noArticles source => exact harticles _ source rfl rfl
      | articles source articles hholds => exact harticles _ source rfl rfl
      | article article image hillustrates =>
          obtain ⟨url, hurl, rfl⟩ := awake_article hasks
          obtain ⟨picture, rfl⟩ := hvalue.image
          refine ⟨_, rfl, .article article (some picture) ?_⟩
          rw [Illustrates, hurl]
          rintro other ⟨⟩
          exact hvalue

/-- Neither do several responses show anything that the phone has not. -/
theorem Fills.replayed
    (hrun : Execution.execute step (start modulePrefix) schedule = some phone)
    {request : WatchRequest} (hasks : (Screen.awake imageNamed presentation).2 = some request)
    {handed : List (Option AnyValue)} {final : Screen}
    (hsupplied : ∀ value, some value ∈ handed → phone.Supplies request value)
    (hfills : phone.Fills imageNamed presentation screen)
    (hreplayed : handed.foldlM (fun screen response => screen.received response) screen =
      .ok final) : phone.Fills imageNamed presentation final := by
  induction handed generalizing screen with
  | nil =>
      obtain rfl := Except.ok.inj hreplayed
      exact hfills
  | cons response rest ih =>
      rw [List.foldlM_cons] at hreplayed
      have hfirst : ∀ value, response = some value → phone.Supplies request value := by
        rintro value rfl
        exact hsupplied value List.mem_cons_self
      have hrest : ∀ value, some value ∈ rest → phone.Supplies request value :=
        fun value hmem => hsupplied value (List.mem_cons_of_mem _ hmem)
      rcases hfills.received hrun hasks hfirst with ⟨screen', hok, hfills'⟩ | ⟨htrap, -⟩
      · rw [hok] at hreplayed
        exact ih hrest hfills' hreplayed
      · rw [htrap] at hreplayed
        cases hreplayed

/-- A screen that waits for a picture does not outlast a response without one. -/
theorem Fills.not_replayed
    (hrun : Execution.execute step (start modulePrefix) schedule = some phone) {url : URL}
    (hasks : (Screen.awake imageNamed presentation).2 = some (.image url))
    {handed : List (Option AnyValue)} {final : Screen}
    (hsupplied : ∀ value, some value ∈ handed → phone.Supplies (.image url) value)
    (hfills : phone.Fills imageNamed presentation screen) (hnil : none ∈ handed) :
    handed.foldlM (fun screen response => screen.received response) screen ≠ .ok final := by
  intro hreplayed
  obtain ⟨before, after, rfl⟩ := List.append_of_mem hnil
  rw [List.foldlM_append] at hreplayed
  cases hbefore : before.foldlM (fun screen response => screen.received response) screen with
  | error trap =>
      rw [hbefore] at hreplayed
      cases hreplayed
  | ok screen' =>
      have hfills' := hfills.replayed hrun hasks
        (fun value hmem => hsupplied value (List.mem_append_left _ hmem)) hbefore
      rw [hbefore] at hreplayed
      -- only the screen of an article asks for a picture
      cases hfills' with
      | article article image hillustrates => cases hreplayed
      | _ => cases hasks

/-! ### Responses with news -/

/-- The screen is what its callback makes of the value at first. -/
def Filled (imageNamed : String → Option UIImage) (presentation : Presentation)
    (value : AnyValue) (screen : Screen) : Prop :=
  (Screen.awake imageNamed presentation).1.received (some value) = .ok screen

/-- What a callback makes of news does not depend on what the screen shows. -/
theorem Fills.received_news
    (hrun : Execution.execute step (start modulePrefix) schedule = some phone)
    (hfills : phone.Fills imageNamed presentation screen) {request : WatchRequest}
    (hasks : (Screen.awake imageNamed presentation).2 = some request)
    {slot : NewsApi.Slot} (hslot : request.slot = some slot) {value : AnyValue}
    (hsupplies : phone.Supplies request value) :
    screen.received none = .ok screen ∧
      screen.received (some value) =
        (Screen.awake imageNamed presentation).1.received (some value) := by
  cases hfills with
  | noSources => exact ⟨rfl, rfl⟩
  | sources groups hholds =>
      obtain rfl := Option.some.inj hasks
      obtain ⟨groups', rfl, -⟩ := hsupplies.sources hrun
      refine ⟨rfl, ?_⟩
      rw [Screen.received, SourceInterfaceController.sourcesReceived_eq]
      exact (congrArg _ (SourceInterfaceController.sourcesReceived_eq {} groups')).symm
  | noArticles source => exact ⟨rfl, rfl⟩
  | articles source articles hholds =>
      obtain rfl := Option.some.inj hasks
      obtain ⟨articles', rfl, -⟩ := hsupplies.articles hrun rfl
      refine ⟨rfl, ?_⟩
      rw [Screen.received, ArticleInterfaceController.articlesReceived_eq _ rfl]
      exact (congrArg _ (ArticleInterfaceController.articlesReceived_eq
        { source := some source } rfl articles')).symm
  | article article image hillustrates =>
      obtain ⟨url, -, rfl⟩ := awake_article hasks
      exact absurd hslot.symm (Option.some_ne_none slot)

/-- A screen that was given the news that the phone holds shows these news. -/
theorem Fills.filled
    (hrun : Execution.execute step (start modulePrefix) schedule = some phone)
    {request : WatchRequest} (hasks : (Screen.awake imageNamed presentation).2 = some request)
    {slot : NewsApi.Slot} (hslot : request.slot = some slot) {value : AnyValue}
    (hholds : phone.Holds slot value) {handed : List (Option AnyValue)} {final : Screen}
    (hsupplied : ∀ value, some value ∈ handed → phone.Supplies request value)
    (hfills : phone.Fills imageNamed presentation screen)
    (hgiven : Filled imageNamed presentation value screen ∨ some value ∈ handed)
    (hreplayed : handed.foldlM (fun screen response => screen.received response) screen =
      .ok final) : Filled imageNamed presentation value final := by
  induction handed generalizing screen with
  | nil =>
      obtain rfl := Except.ok.inj hreplayed
      exact hgiven.resolve_right List.not_mem_nil
  | cons response rest ih =>
      obtain ⟨occupant, hoccupant, hheld⟩ := hholds
      have hthis : phone.Supplies request value := .news slot occupant hslot hoccupant hheld
      obtain ⟨hnone, hsome⟩ := hfills.received_news hrun hasks hslot hthis
      have hrest : ∀ value, some value ∈ rest → phone.Supplies request value :=
        fun value hmem => hsupplied value (List.mem_cons_of_mem _ hmem)
      rw [List.foldlM_cons] at hreplayed
      cases response with
      | none =>
          rw [hnone] at hreplayed
          refine ih hrest hfills (hgiven.imp_right ?_) hreplayed
          intro hmem
          exact (List.mem_cons.mp hmem).resolve_left (Option.some_ne_none value)
      | some value' =>
          -- the phone holds nothing else for the request
          have hholds' : phone.Holds slot value' :=
            (hsupplied value' List.mem_cons_self).of_slot hslot
          obtain rfl : value' = value := hholds'.unique ⟨occupant, hoccupant, hheld⟩
          have hone : ∀ given, some value' = some given → phone.Supplies request given := by
            rintro given ⟨⟩
            exact hthis
          rcases hfills.received hrun hasks hone with ⟨screen', hok, hfills'⟩ | ⟨-, hother, -⟩
          · rw [hok] at hreplayed
            exact ih hrest hfills' (.inl (hsome.symm.trans hok)) hreplayed
          · cases hother

end Phone

/-! ## Whole runs -/

theorem OpenScreen.received_presentation {opened opened' : OpenScreen} {call : WatchCall}
    (hreceived : opened.received call = .ok opened') :
    opened'.presentation = opened.presentation := by
  cases hresponse : opened.response? call with
  | none =>
      obtain rfl := Except.ok.inj ((received_of_none hresponse).symm.trans hreceived)
      rfl
  | some response =>
      rw [received_of_some hresponse] at hreceived
      cases hscreen : opened.screen.received response with
      | error trap =>
          rw [hscreen] at hreceived
          cases hreceived
      | ok screen =>
          rw [hscreen] at hreceived
          obtain rfl := Except.ok.inj hreceived
          rfl

namespace Browsing

variable {imageNamed : String → Option UIImage} {watchPrefix phonePrefix : String}
  {schedule : List Action} {browsing next final : Browsing} {opened : OpenScreen} {index : Nat}

/-- What the callback of a screen is given the phone supplies. -/
theorem response_supplied (hfaithful : ArchivesFaithfully)
    (hrun : Execution.execute (step · imageNamed) (start watchPrefix phonePrefix) schedule =
      some final) (hrequest : opened.request = some index) {request : WatchRequest}
    (hasked : final.connection.watch.asked[index]? = some request) {value : AnyValue}
    (hresponse : some value ∈ opened.responses final.connection.watch) :
    final.connection.phone.Supplies request value := by
  obtain ⟨connectionSchedule, hconnection⟩ := connection_run hrun
  obtain ⟨index', error, hrequest', hcall⟩ := OpenScreen.mem_responses.mp hresponse
  obtain rfl := Option.some.inj (hrequest.symm.trans hrequest')
  exact Connection.value_supplied hfaithful hconnection hasked (.inr ⟨_, error, hcall⟩)

theorem fills (hfaithful : ArchivesFaithfully)
    (hrun : Execution.execute (step · imageNamed) (start watchPrefix phonePrefix) schedule =
      some final) (hopened : opened ∈ final.screens)
    (hoffers : final.connection.phone.Offers opened.presentation) :
    final.connection.phone.Fills imageNamed opened.presentation opened.screen := by
  obtain ⟨connectionSchedule, hconnection⟩ := connection_run hrun
  obtain ⟨phoneSchedule, hphone⟩ := Connection.phone_reachable hconnection
  have hkept := kept hrun opened hopened
  obtain ⟨handed, hgiven, -, hreplayed⟩ := hkept.replayed
  cases hrequest : opened.request with
  | none =>
      -- nobody calls a screen that has not asked
      have hnone : handed = [] := by
        refine List.eq_nil_iff_forall_not_mem.mpr ?_
        intro response hresponse
        obtain ⟨index, error, hindex, -⟩ :=
          OpenScreen.mem_responses.mp (hgiven.subset hresponse)
        exact absurd (hrequest.symm.trans hindex) (Option.some_ne_none index).symm
      rw [hnone] at hreplayed
      obtain hscreen := Except.ok.inj hreplayed
      exact hscreen ▸ hoffers.awake
  | some index =>
      obtain ⟨request, hasked, hasks⟩ := hkept.asked index hrequest
      refine hoffers.awake.replayed hphone hasks ?_ hreplayed
      intro value hmem
      exact response_supplied hfaithful hrun hrequest hasked (hgiven.subset hmem)

theorem Step.offers
    (hfills : ∀ opened ∈ browsing.screens, browsing.connection.phone.Fills imageNamed
      opened.presentation opened.screen)
    (hlater : ∀ presentation, browsing.connection.phone.Offers presentation →
      next.connection.phone.Offers presentation)
    (hpresented : ∀ presentation ∈ browsing.presented,
      browsing.connection.phone.Offers presentation)
    (hscreens : ∀ opened ∈ browsing.screens,
      browsing.connection.phone.Offers opened.presentation)
    (hstep : Step imageNamed browsing next) :
    (∀ presentation ∈ next.presented, next.connection.phone.Offers presentation) ∧
      ∀ opened ∈ next.screens, next.connection.phone.Offers opened.presentation := by
  have hpresented' := fun presentation hmem => hlater presentation (hpresented presentation hmem)
  have hscreens' := fun opened hmem => hlater _ (hscreens opened hmem)
  cases hstep with
  | quiet action connection hpermits hnext hinvoking => exact ⟨hpresented', hscreens'⟩
  | receives action connection call screens hrunning hnext hinvoking hreceived =>
      refine ⟨hpresented', ?_⟩
      intro opened' hopened'
      obtain ⟨opened, hopened, hone⟩ := FirstFault.exists_of_mem_mapM hreceived hopened'
      rw [OpenScreen.received_presentation hone]
      exact hscreens' opened hopened
  | stops action connection call trap hrunning hnext hinvoking hreceived =>
      exact ⟨hpresented', hscreens'⟩
  | sourcesTapped hidle =>
      refine ⟨?_, hscreens'⟩
      intro presentation hmem
      rcases List.mem_append.mp hmem with hold | hnew
      · exact hpresented' presentation hold
      · obtain rfl := List.mem_singleton.mp hnew
        exact .sources
  | shows presentation presented screen hidle hpresentation hsubset hawake =>
      refine ⟨fun other hmem => hpresented' other (hsubset hmem), ?_⟩
      intro opened hopened
      rcases List.mem_append.mp hopened with hold | hnew
      · exact hscreens' opened hold
      · obtain rfl := List.mem_singleton.mp hnew
        exact hpresented' presentation hpresentation
  | asks presentation presented screen request connection hidle hpresentation hsubset hawake
      hnext =>
      refine ⟨fun other hmem => hpresented' other (hsubset hmem), ?_⟩
      intro opened hopened
      rcases List.mem_append.mp hopened with hold | hnew
      · exact hscreens' opened hold
      · obtain rfl := List.mem_singleton.mp hnew
        exact hpresented' presentation hpresentation
  | register index connection hrunning htodo hnext => exact ⟨hpresented', hscreens'⟩
  | selects opened rowIndex presentation hidle hopened hrow hselected =>
      refine ⟨?_, hscreens'⟩
      obtain ⟨selected, hok, hoffers⟩ :=
        (hfills opened hopened).select (hscreens opened hopened) hrow
      obtain rfl := Except.ok.inj (hselected.symm.trans hok)
      intro other hmem
      rcases List.mem_append.mp hmem with hold | hnew
      · exact hpresented' other hold
      · obtain rfl := List.mem_singleton.mp hnew
        exact hlater _ hoffers
  | fails opened rowIndex trap hidle hopened hrow hselected => exact ⟨hpresented', hscreens'⟩

theorem offers (hfaithful : ArchivesFaithfully)
    (hrun : Execution.execute (step · imageNamed) (start watchPrefix phonePrefix) schedule =
      some final) :
    (∀ presentation ∈ final.presented, final.connection.phone.Offers presentation) ∧
      ∀ opened ∈ final.screens, final.connection.phone.Offers opened.presentation := by
  refine Execution.execute_induction (motive := fun _ (browsing : Browsing) =>
    (∀ presentation ∈ browsing.presented, browsing.connection.phone.Offers presentation) ∧
      ∀ opened ∈ browsing.screens, browsing.connection.phone.Offers opened.presentation)
    ?_ ?_ hrun
  · constructor
    · intro presentation hmem
      exact absurd hmem List.not_mem_nil
    · intro opened hmem
      exact absurd hmem List.not_mem_nil
  · rintro schedule browsing action next hbefore ⟨hpresented, hscreens⟩ hnext
    obtain ⟨connectionSchedule, hconnection⟩ := connection_run hbefore
    obtain ⟨phoneSchedule, hphone⟩ := Connection.phone_reachable hconnection
    have hlater : ∀ presentation, browsing.connection.phone.Offers presentation →
        next.connection.phone.Offers presentation := by
      intro presentation hoffers
      have hone : Execution.execute (step · imageNamed) browsing [action] = some next := by
        rw [Execution.execute_cons, hnext]
        rfl
      obtain ⟨connectionLater, hconnectionLater⟩ := connection_run hone
      obtain ⟨phoneLater, hphoneLater⟩ := Connection.phone_later hconnectionLater
      exact hoffers.later hphone hphoneLater
    exact (step_step hnext).offers
      (fun opened hopened => fills hfaithful hbefore hopened (hscreens opened hopened)) hlater
      hpresented hscreens

/-- Every screen was opened for something that the phone holds, and shows
nothing but what the phone holds or has supplied for it. -/
theorem screens_show_phone (hfaithful : ArchivesFaithfully)
    (hrun : Execution.execute (step · imageNamed) (start watchPrefix phonePrefix) schedule =
      some final) (hopened : opened ∈ final.screens) :
    final.connection.phone.Offers opened.presentation ∧
      final.connection.phone.Fills imageNamed opened.presentation opened.screen := by
  have hoffers := (offers hfaithful hrun).2 opened hopened
  exact ⟨hoffers, fills hfaithful hrun hopened hoffers⟩

/-! ### What stops the screens -/

/-- A screen that waits for a picture was given none. -/
def LacksPicture (browsing : Browsing) : Prop :=
  ∃ opened ∈ browsing.screens, ∃ index url error, opened.request = some index ∧
    browsing.connection.watch.asked[index]? = some (.image url) ∧
      (Watch.requestOf index, .screen, none, error) ∈
        browsing.connection.watch.main.callbackCalls

/-- The step in which the screens stop the watch. -/
theorem Step.lacksPicture (hfaithful : ArchivesFaithfully)
    (hrun : Execution.execute (step · imageNamed) (start watchPrefix phonePrefix) schedule =
      some browsing) {action : Action} (hnext : browsing.step imageNamed action = some next)
    (hrunning : browsing.halted = none) {trap : Trap} (hhalted : next.halted = some trap) :
    trap = .forcedCast ∧ next.LacksPicture := by
  have hrun' := Execution.execute_concat_eq_some.mpr ⟨browsing, hrun, hnext⟩
  have hsame : next.halted ≠ browsing.halted := by
    rw [hrunning, hhalted]
    exact Option.some_ne_none trap
  cases step_step hnext with
  | stops action connection call trap' hrunning' hconnection hinvoking hreceived =>
      obtain rfl := Option.some.inj hhalted
      obtain ⟨opened, hopened, htrap⟩ := FirstFault.exists_of_mapM_error hreceived
      cases hresponse : opened.response? call with
      | none =>
          rw [OpenScreen.received_of_none hresponse] at htrap
          cases htrap
      | some response =>
          obtain ⟨index, error, hrequest, rfl⟩ := OpenScreen.response?_eq_some.mp hresponse
          have hcalls := (Connection.step_grows hconnection).calls
          rw [hinvoking] at hcalls
          have hcall : (Watch.requestOf index, .screen, response, error) ∈
              connection.watch.main.callbackCalls := by
            rw [hcalls]
            exact List.mem_append_right _ (Option.mem_toList.mpr rfl)
          obtain ⟨request, hasked, hasks⟩ :=
            (Browsing.kept hrun' opened hopened).asked index hrequest
          obtain ⟨connectionSchedule, hconnectionRun⟩ := connection_run hrun'
          obtain ⟨phoneSchedule, hphone⟩ := Connection.phone_reachable hconnectionRun
          have hoffers := (Browsing.offers hfaithful hrun').2 opened hopened
          have hfills := Browsing.fills hfaithful hrun' hopened hoffers
          have hsupplied : ∀ value, response = some value →
              connection.phone.Supplies request value := by
            rintro value rfl
            exact Connection.value_supplied hfaithful hconnectionRun hasked (.inr ⟨_, error, hcall⟩)
          rw [OpenScreen.received_of_some hresponse] at htrap
          rcases hfills.received hphone hasks hsupplied with
            ⟨screen', hok, -⟩ | ⟨hcast, rfl, url, rfl⟩
          · rw [hok] at htrap
            cases htrap
          · rw [hcast] at htrap
            obtain rfl := Except.error.inj htrap
            exact ⟨rfl, opened, hopened, index, url, error, hrequest, hasked, hcall⟩
  | fails opened rowIndex trap' hidle hopened hrow hselected =>
      have hoffers := (Browsing.offers hfaithful hrun).2 opened hopened
      obtain ⟨selected, hok, -⟩ :=
        (Browsing.fills hfaithful hrun hopened hoffers).select hoffers hrow
      cases hok.symm.trans hselected
  | _ => exact absurd rfl hsame

/-- In a watch that was stopped the screens and their responses stay. -/
theorem Step.stopped_keeps (hstep : Step imageNamed browsing next) {trap : Trap}
    (hhalted : browsing.halted = some trap) :
    next.halted = some trap ∧ (browsing.LacksPicture → next.LacksPicture) := by
  have hnot : browsing.halted ≠ none := by
    rw [hhalted]
    exact Option.some_ne_none trap
  cases hstep with
  | quiet action connection hpermits hnext hinvoking =>
      refine ⟨hhalted, ?_⟩
      rintro ⟨opened, hopened, index, url, error, hrequest, hasked, hcall⟩
      have hgrows := Connection.step_grows hnext
      refine ⟨opened, hopened, index, url, error, hrequest,
        Execution.getElem?_of_prefix hgrows.asked hasked, ?_⟩
      rw [hgrows.calls]
      exact List.mem_append_left _ hcall
  | receives action connection call screens hrunning => exact absurd hrunning hnot
  | stops action connection call trap hrunning => exact absurd hrunning hnot
  | sourcesTapped hidle => exact absurd (halted_of_idle hidle) hnot
  | shows presentation presented screen hidle => exact absurd (halted_of_idle hidle) hnot
  | asks presentation presented screen request connection hidle =>
      exact absurd (halted_of_idle hidle) hnot
  | register index connection hrunning => exact absurd hrunning hnot
  | selects opened rowIndex presentation hidle => exact absurd (halted_of_idle hidle) hnot
  | fails opened rowIndex trap hidle => exact absurd (halted_of_idle hidle) hnot

theorem lacksPicture_of_halted (hfaithful : ArchivesFaithfully)
    (hrun : Execution.execute (step · imageNamed) (start watchPrefix phonePrefix) schedule =
      some final) {trap : Trap} (hhalted : final.halted = some trap) :
    trap = .forcedCast ∧ final.LacksPicture := by
  refine Execution.execute_induction (motive := fun _ (browsing : Browsing) =>
    ∀ trap, browsing.halted = some trap → trap = .forcedCast ∧ browsing.LacksPicture)
    ?_ ?_ hrun trap hhalted
  · intro trap hhalted
    exact absurd hhalted.symm (Option.some_ne_none trap)
  · intro schedule browsing action next hbefore hstopped hnext trap hhalted
    cases hrunning : browsing.halted with
    | none => exact Step.lacksPicture hfaithful hbefore hnext hrunning hhalted
    | some earlier =>
        obtain ⟨hkeeps, hlacks⟩ := (step_step hnext).stopped_keeps hrunning
        obtain rfl := Option.some.inj (hkeeps.symm.trans hhalted)
        exact (hstopped earlier hrunning).imp id hlacks

theorem halted_of_lacksPicture (hfaithful : ArchivesFaithfully)
    (hrun : Execution.execute (step · imageNamed) (start watchPrefix phonePrefix) schedule =
      some final) (hlacks : final.LacksPicture) : final.halted = some .forcedCast := by
  obtain ⟨opened, hopened, index, url, error, hrequest, hasked, hcall⟩ := hlacks
  cases hhalted : final.halted with
  | some earlier => rw [(lacksPicture_of_halted hfaithful hrun hhalted).1]
  | none =>
      have hkept := kept hrun opened hopened
      obtain ⟨handed, -, hall, hreplayed⟩ := hkept.replayed
      obtain ⟨request, hasked', hasks⟩ := hkept.asked index hrequest
      obtain rfl := Option.some.inj (hasked.symm.trans hasked')
      obtain ⟨connectionSchedule, hconnection⟩ := connection_run hrun
      obtain ⟨phoneSchedule, hphone⟩ := Connection.phone_reachable hconnection
      have hoffers := (offers hfaithful hrun).2 opened hopened
      have hnil : none ∈ handed := by
        rw [hall hhalted]
        exact OpenScreen.mem_responses.mpr ⟨index, error, hrequest, hcall⟩
      refine absurd hreplayed (hoffers.awake.not_replayed hphone hasks ?_ hnil)
      rw [hall hhalted]
      intro value hmem
      exact response_supplied hfaithful hrun hrequest hasked hmem

/-- The screens stop the watch exactly when a screen that waits for a picture
is given none: never by a row that is out of range, and never by news. -/
theorem stopped_iff (hfaithful : ArchivesFaithfully)
    (hrun : Execution.execute (step · imageNamed) (start watchPrefix phonePrefix) schedule =
      some final) (trap : Trap) :
    final.halted = some trap ↔ trap = .forcedCast ∧ final.LacksPicture := by
  constructor
  · exact lacksPicture_of_halted hfaithful hrun
  · rintro ⟨rfl, hlacks⟩
    exact halted_of_lacksPicture hfaithful hrun hlacks

/-! ### When nothing is left to be done -/

/-- At rest a screen whose news the phone holds shows these news. -/
theorem filled_at_rest (hfaithful : ArchivesFaithfully)
    (hrun : Execution.execute (step · imageNamed) (start watchPrefix phonePrefix) schedule =
      some final) (hrest : final.connection.AtRest) (htodo : final.todo = none)
    (hrunning : final.connection.phone.halted = none) (hhalted : final.halted = none)
    (hsession : final.connection.watch.sessionCalls ≠ []) (hopened : opened ∈ final.screens)
    (hrequest : opened.request = some index) {request : WatchRequest}
    (hasked : final.connection.watch.asked[index]? = some request) {slot : NewsApi.Slot}
    (hslot : request.slot = some slot)
    (herror : ∀ error, (Watch.requestOf index, none, some error) ∉
      final.connection.watch.main.setResultCalls)
    {value : AnyValue} (hholds : final.connection.phone.Holds slot value) :
    Phone.Filled imageNamed opened.presentation value opened.screen := by
  obtain ⟨connectionSchedule, hconnection⟩ := connection_run hrun
  obtain ⟨phoneSchedule, hphone⟩ := Connection.phone_reachable hconnection
  have hoffers := (offers hfaithful hrun).2 opened hopened
  have hkept := kept hrun opened hopened
  obtain ⟨request', hasked', hasks⟩ := hkept.asked index hrequest
  obtain rfl := Option.some.inj (hasked.symm.trans hasked')
  have hlimited : ∀ country, request ≠ .headlines country none :=
    fun country => hoffers.ne_headlines hasks country none
  obtain ⟨occupant, hoccupant, hheld⟩ := hholds
  obtain ⟨-, htold⟩ := Connection.told_of_held hfaithful hconnection hrest hrunning hsession hasked
    hslot hlimited herror hoccupant hheld
  have hregistered := (hkept.registered index hrequest).resolve_left (by
    rw [htodo]
    exact (Option.some_ne_none index).symm)
  have hcall := htold .screen hregistered
  obtain ⟨handed, -, hall, hreplayed⟩ := hkept.replayed
  rw [hall hhalted] at hreplayed
  refine hoffers.awake.filled hphone hasks hslot ⟨occupant, hoccupant, hheld⟩ ?_ (.inr ?_)
    hreplayed
  · intro value hmem
    exact response_supplied hfaithful hrun hrequest hasked hmem
  · exact OpenScreen.mem_responses.mpr ⟨index, none, hrequest, hcall⟩

section Samples

omit [Foundation]

/-- A platform on which every answer of the service has one source and one
article with a picture. -/
@[reducible] def newsSample : Foundation :=
  { Foundation.sample with
    jsonObject := fun _ => .ok (.object
      [("sources", .array [.object [("id", .string "a"), ("name", .string "A")]]),
        ("articles", .array [.object [("title", .string "T"), ("urlToImage", .string "U")]])])
    imageFromData := fun _ => some ((1 : ℚ), (1 : ℚ)) }

theorem newsSample_archivesFaithfully : @ArchivesFaithfully newsSample :=
  fun archive => ⟨.archive archive, rfl, rfl⟩

/-- A message is delivered, and the phone downloads and replies. -/
def answerSchedule (index : Nat) : letI := newsSample; List Connection.Action :=
  letI := newsSample
  [.deliver index] ++ List.replicate 5 (.phone .main) ++
    [.phone (.complete 0 ⟨some (.text "\x7b\x7d"), some (.http 200), none⟩)] ++
    List.replicate 6 (.phone .main) ++ [.respond index] ++ List.replicate 6 (.watch .main)

/-- Somebody opens the source screen, and it is filled. -/
def sourcesTappedSchedule : letI := newsSample; List Action :=
  letI := newsSample
  [.connection (.watch (.reach true)), .connection (.watch .activate), .sourcesTapped, .awake 0,
    .register] ++
    (List.replicate 12 (Connection.Action.watch .main) ++ answerSchedule 0).map Action.connection

/-- Then somebody selects a source, and then an article. -/
def selectSchedule : letI := newsSample; List Action :=
  letI := newsSample
  sourcesTappedSchedule ++ [.select 0 0, .awake 0, .register] ++
    (List.replicate 6 (Connection.Action.watch .main) ++ answerSchedule 1).map Action.connection ++
    [.select 1 0, .awake 0, .register]

theorem selectSchedule_opens :
    letI := newsSample
    (Execution.execute (step · fun _ => none) (start "Watch" "NewsDay") selectSchedule).map
      (fun final => final.screens.map fun opened => opened.screen.rowCount) = some [1, 1, 0] := by
  decide +kernel

theorem screens_show_phone_sample :
    letI := newsSample
    ∃ final, Execution.execute (step · fun _ => none) (start "Watch" "NewsDay") selectSchedule =
        some final ∧ final.screens.map (fun opened => opened.screen.rowCount) = [1, 1, 0] ∧
      ∀ opened ∈ final.screens, final.connection.phone.Offers opened.presentation ∧
        final.connection.phone.Fills (fun _ => none) opened.presentation opened.screen := by
  let _ := newsSample
  obtain ⟨final, hrun, hrows⟩ := Option.map_eq_some_iff.mp selectSchedule_opens
  refine ⟨final, hrun, hrows, ?_⟩
  intro opened hopened
  exact screens_show_phone newsSample_archivesFaithfully hrun hopened

/-- The phone goes out of reach while the article waits for its picture. -/
def pictureLostSchedule : letI := newsSample; List Action :=
  letI := newsSample
  selectSchedule ++ (List.replicate 6 (Connection.Action.watch .main) ++
    [Connection.Action.watch (.fail 2 (.system "not reachable"))] ++
    List.replicate 5 (Connection.Action.watch .main)).map Action.connection

theorem pictureLostSchedule_stops :
    letI := newsSample
    (Execution.execute (step · fun _ => none) (start "Watch" "NewsDay") pictureLostSchedule).map
      (fun final => final.halted) = some (some .forcedCast) := by
  decide +kernel

theorem stopped_iff_sample :
    letI := newsSample
    ∃ final, Execution.execute (step · fun _ => none) (start "Watch" "NewsDay")
      pictureLostSchedule = some final ∧ final.LacksPicture := by
  let _ := newsSample
  obtain ⟨final, hrun, hhalted⟩ := Option.map_eq_some_iff.mp pictureLostSchedule_stops
  exact ⟨final, hrun, ((stopped_iff newsSample_archivesFaithfully hrun _).mp hhalted).2⟩

theorem sourcesTappedSchedule_rests :
    letI := newsSample
    (Execution.execute (step · fun _ => none) (start "Watch" "NewsDay") sourcesTappedSchedule).any
      (fun final =>
        final.connection.isServed && final.todo.isNone && final.halted.isNone &&
          final.screens.any (fun opened => opened.request == some 0) &&
            (final.connection.watch.asked.head?.bind WatchRequest.slot).any (fun slot =>
              ((final.connection.phone.news.api.occupant slot).bind fun occupant =>
                (final.connection.phone.main.requests occupant).result).isSome)) = true := by
  decide +kernel

theorem filled_at_rest_sample :
    letI := newsSample
    ∃ final opened value,
      Execution.execute (step · fun _ => none) (start "Watch" "NewsDay") sourcesTappedSchedule =
        some final ∧ opened ∈ final.screens ∧
          Phone.Filled (fun _ => none) opened.presentation value opened.screen := by
  let _ := newsSample
  obtain ⟨final, hrun, hrests⟩ := (Option.any_eq_true _ _).mp sourcesTappedSchedule_rests
  simp only [Bool.and_eq_true, Option.isNone_iff_eq_none] at hrests
  obtain ⟨⟨⟨⟨hserved, htodo⟩, hhalted⟩, hscreens⟩, hasked⟩ := hrests
  have hserved := Connection.served_of_isServed hserved
  obtain ⟨opened, hopened, hrequest⟩ := List.any_eq_true.mp hscreens
  obtain ⟨slot, hslots, hheld⟩ := (Option.any_eq_true _ _).mp hasked
  obtain ⟨request, hhead, hslot⟩ := Option.bind_eq_some_iff.mp hslots
  obtain ⟨value, hvalue⟩ := Option.isSome_iff_exists.mp hheld
  obtain ⟨occupant, hoccupant, hresult⟩ := Option.bind_eq_some_iff.mp hvalue
  refine ⟨final, opened, value, hrun, hopened, ?_⟩
  exact filled_at_rest newsSample_archivesFaithfully hrun hserved.rest htodo hserved.running hhalted
    hserved.session hopened (beq_iff_eq.mp hrequest) (List.head?_eq_getElem? ▸ hhead) hslot
    (hserved.errors 0) ⟨occupant, hoccupant, hresult⟩

end Samples

end Browsing

end NewsDay
