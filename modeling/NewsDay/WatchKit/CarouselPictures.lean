import NewsDay.Process.Pictures
import NewsDay.WatchKit.CarouselShown

/-! # The pictures on the pages of headlines

A page that shows a headline with a picture asks for it with a request of its own,
registers with that request, and shows what its callback is given. Once nothing is
left to be done, this is the picture that the phone has retrieved for the message
of the page.
-/

namespace NewsDay

open Foundation

variable [Foundation]

/-! ## One page -/

namespace OpenPage

variable {opened : OpenPage} {watch next : Watch} {called : Option WatchCall}

/-- The page shows the picture that it was given, and none before it has asked. -/
structure Views (opened : OpenPage) (watch : Watch) : Prop where
  blank : opened.imageRequest = none → opened.headlineImage = ⟨none⟩
  given : ∀ index, opened.imageRequest = some index → ∀ picture,
    opened.headlineImage.image = some picture ↔ some (.image picture) ∈ watch.heard index

/-- The page is given no picture with its request. -/
def Missed (opened : OpenPage) (called : Option WatchCall) : Prop :=
  ∀ index, opened.imageRequest = some index → ∀ picture,
    called.bind (screenResponse? index) ≠ some (some (.image picture))

theorem missed_none : opened.Missed none := by
  intro index _ picture
  exact (Option.some_ne_none _).symm

/-- An invocation with another request gives the page no picture. -/
theorem missed_of_ne {index : Nat} {response : Option AnyValue}
    (hresponse : called.bind (screenResponse? index) = some response)
    (hne : opened.imageRequest ≠ some index) : opened.Missed called := by
  intro index' hindex' picture
  have hother : index' ≠ index := by
    rintro rfl
    exact hne hindex'
  rw [Watch.bind_screenResponse?_of_ne hresponse hother]
  exact (Option.some_ne_none _).symm

theorem Views.later (hviews : opened.Views watch) (hgrows : watch.Grows called next)
    (hmissed : opened.Missed called) : opened.Views next where
  blank := hviews.blank
  given := by
    intro index hindex picture
    rw [hviews.given index hindex picture, hgrows.heard_eq, List.mem_append]
    constructor
    · exact .inl
    · rintro (hold | hnew)
      · exact hold
      · exact absurd (Option.mem_toList.mp hnew) (hmissed index hindex picture)

end OpenPage

/-! ## All pages -/

namespace Carousel

variable {pages : List OpenPage} {todo todo' : Option PageTodo} {watch next : Watch}
  {called : Option WatchCall} {position : Nat} {opened changed : OpenPage}

/-- Each page with a picture asks for it with a request of its own and registers
with it, and shows what it is given. -/
structure Viewed (pages : List OpenPage) (todo : Option PageTodo) (watch : Watch) : Prop where
  views : ∀ (position : Nat) (opened : OpenPage), pages[position]? = some opened →
    opened.Views watch
  asks : ∀ (position : Nat) (opened : OpenPage) (url : URL), pages[position]? = some opened →
    opened.urlImage = some url →
      opened.imageRequest ≠ none ∨ todo = some (.getImage position url)
  asking : ∀ (position : Nat) (opened : OpenPage) (url : URL),
    todo = some (.getImage position url) → pages[position]? = some opened →
      opened.imageRequest = none
  distinct : ∀ (position position' : Nat) (opened opened' : OpenPage) (index : Nat),
    pages[position]? = some opened → pages[position']? = some opened' →
      opened.imageRequest = some index → opened'.imageRequest = some index → position = position'
  registered : ∀ (position : Nat) (opened : OpenPage) (index : Nat),
    pages[position]? = some opened → opened.imageRequest = some index →
      todo = some (.withResult index) ∨
        (Watch.requestOf index, .screen) ∈ watch.main.withResultCalls

namespace Viewed

theorem nil (watch : Watch) : Viewed [] none watch where
  views _ _ hopened := by cases hopened
  asks _ _ _ hopened := by cases hopened
  asking _ _ _ htodo := by cases htodo
  distinct _ _ _ _ _ hopened := by cases hopened
  registered _ _ _ hopened := by cases hopened

/-- No page changes. -/
theorem later (hviewed : Viewed pages todo watch) (hgrows : watch.Grows called next)
    (hmissed : ∀ opened ∈ pages, opened.Missed called) : Viewed pages todo next where
  views position opened hopened :=
    (hviewed.views position opened hopened).later hgrows
      (hmissed opened (List.mem_of_getElem? hopened))
  asks := hviewed.asks
  asking := hviewed.asking
  distinct := hviewed.distinct
  registered := by
    intro position opened index hopened hindex
    exact (hviewed.registered position opened index hopened hindex).imp_right
      hgrows.still_registered

/-- What one page may become while no other is given a picture. -/
structure Changes (pages : List OpenPage) (position : Nat) (opened changed : OpenPage)
    (todo' : Option PageTodo) (next : Watch) : Prop where
  views : changed.Views next
  asks : ∀ url, changed.urlImage = some url →
    changed.imageRequest ≠ none ∨ todo' = some (.getImage position url)
  asking : ∀ position' url, todo' = some (.getImage position' url) →
    position' = position ∧ changed.imageRequest = none
  request : ∀ index, changed.imageRequest = some index → opened.imageRequest = some index ∨
    ∀ other ∈ pages, other.imageRequest ≠ some index
  registered : ∀ index, changed.imageRequest = some index → todo' = some (.withResult index) ∨
    (Watch.requestOf index, .screen) ∈ next.main.withResultCalls

/-- One page changes: that which the main thread is busy with, if it is with any. -/
theorem set (hviewed : Viewed pages todo watch) (hgrows : watch.Grows called next)
    (hopened : pages[position]? = some opened)
    (hbusy : todo = none ∨ ∃ url, todo = some (.getImage position url))
    (hmissed : ∀ (position' : Nat) (other : OpenPage), position' ≠ position →
      pages[position']? = some other → other.Missed called)
    (hchanges : Changes pages position opened changed todo' next) :
    Viewed (pages.set position changed) todo' next where
  views := by
    intro position' page hpage
    rcases Audience.getElem?_set_cases hpage with ⟨-, rfl⟩ | ⟨hother, hold⟩
    · exact hchanges.views
    · exact (hviewed.views position' page hold).later hgrows (hmissed position' page hother hold)
  asks := by
    intro position' page url hpage hurl
    rcases Audience.getElem?_set_cases hpage with ⟨rfl, rfl⟩ | ⟨hother, hold⟩
    · exact hchanges.asks url hurl
    · refine .inl ((hviewed.asks position' page url hold hurl).resolve_right ?_)
      intro hdue
      rcases hbusy with hnone | ⟨url', hsome⟩
      · cases hdue.symm.trans hnone
      · cases hdue.symm.trans hsome
        exact hother rfl
  asking := by
    intro position' page url hdue hpage
    obtain ⟨rfl, hnone⟩ := hchanges.asking position' url hdue
    rcases Audience.getElem?_set_cases hpage with ⟨-, rfl⟩ | ⟨hother, -⟩
    · exact hnone
    · exact absurd rfl hother
  distinct := by
    have hothers : ∀ (position' : Nat) (page : OpenPage) (index : Nat), position' ≠ position →
        pages[position']? = some page → page.imageRequest = some index →
          changed.imageRequest ≠ some index := by
      intro position' page index hother hpage hindex hsame
      rcases hchanges.request index hsame with hbefore | hfresh
      · exact hother (hviewed.distinct _ _ page opened index hpage hopened hindex hbefore)
      · exact hfresh page (List.mem_of_getElem? hpage) hindex
    intro first second page page' index hpage hpage' hindex hindex'
    rcases Audience.getElem?_set_cases hpage with ⟨rfl, rfl⟩ | ⟨hother, hold⟩
    · rcases Audience.getElem?_set_cases hpage' with ⟨rfl, -⟩ | ⟨hother', hold'⟩
      · rfl
      · exact absurd hindex (hothers second page' index hother' hold' hindex')
    · rcases Audience.getElem?_set_cases hpage' with ⟨rfl, rfl⟩ | ⟨-, hold'⟩
      · exact absurd hindex' (hothers first page index hother hold hindex)
      · exact hviewed.distinct first second page page' index hold hold' hindex hindex'
  registered := by
    intro position' page index hpage hindex
    rcases Audience.getElem?_set_cases hpage with ⟨rfl, rfl⟩ | ⟨-, hold⟩
    · exact hchanges.registered index hindex
    · rcases hviewed.registered position' page index hold hindex with hdue | hthere
      · rcases hbusy with hnone | ⟨url, hsome⟩
        · cases hdue.symm.trans hnone
        · cases hdue.symm.trans hsome
      · exact .inr (hgrows.still_registered hthere)

/-! ### What a step does to the pages -/

variable {carousel : Carousel} {connection : Connection} {index : Nat}
  {response : Option AnyValue} {watchPrefix : String} {watchSchedule : List Watch.Action}

/-- A page is told of headlines. -/
theorem hears {halted : Option Trap}
    (hviewed : Viewed carousel.pages carousel.todo carousel.connection.watch)
    (hkept : carousel.Kept) (hnothing : carousel.todo = none)
    (hgrows : carousel.connection.watch.Grows called connection.watch)
    (hresponse : called.bind (screenResponse? index) = some response)
    (hlistener : carousel.listener? index = some (position, opened))
    (hblank : opened.urlImage = none)
    (hhears : Hears opened response changed carousel.halted halted)
    (hafter : todo' = none ∧ (opened.urlImage = none → changed.urlImage = none) ∨
      ∃ url, todo' = some (.getImage position url) ∧ changed.urlImage = some url) :
    Viewed (carousel.pages.set position changed) todo' connection.watch := by
  obtain ⟨hopened, hheadlines, hwaits⟩ := listener?_eq_some hlistener
  have hmem := List.mem_of_getElem? hopened
  have hindex : index ∈ carousel.requests := hheadlines ▸ hkept.headlines opened hmem
  have hnone : changed.imageRequest = none :=
    hhears.imageRequest.trans (hkept.waiting opened hmem hwaits)
  refine hviewed.set hgrows hopened (.inl hnothing) ?_ ⟨⟨?_, ?_⟩, ?_, ?_, ?_, ?_⟩
  · intro position' other _ hother
    exact OpenPage.missed_of_ne hresponse
      (hkept.imageRequest_ne hindex (List.mem_of_getElem? hother))
  · intro _
    rcases hhears.image with hsame | hempty
    · exact hsame.trans ((hviewed.views position opened hopened).blank
        (hkept.waiting opened hmem hwaits))
    · exact hempty
  · intro index' hindex'
    cases hnone.symm.trans hindex'
  · intro url hurl
    rcases hafter with ⟨-, hstays⟩ | ⟨url', htodo, hurl'⟩
    · cases (hstays hblank).symm.trans hurl
    · obtain rfl := Option.some.inj (hurl'.symm.trans hurl)
      exact .inr htodo
  · rintro position' url rfl
    rcases hafter with ⟨hdone, -⟩ | ⟨url', htodo, -⟩
    · cases hdone
    · obtain ⟨rfl, rfl⟩ := PageTodo.getImage.inj (Option.some.inj htodo)
      exact ⟨rfl, hnone⟩
  · intro index' hindex'
    cases hnone.symm.trans hindex'
  · intro index' hindex'
    cases hnone.symm.trans hindex'

/-- A page is given its picture. -/
theorem sees {picture : UIImage}
    (hviewed : Viewed carousel.pages carousel.todo carousel.connection.watch)
    (hnothing : carousel.todo = none)
    (hrun : Execution.execute Watch.step (.start watchPrefix) watchSchedule =
      some connection.watch)
    (hgrows : carousel.connection.watch.Grows called connection.watch)
    (hresponse : called.bind (screenResponse? index) = some (some (.image picture)))
    (hviewer : carousel.viewer? index = some (position, opened)) :
    Viewed (carousel.pages.set position { opened with headlineImage := ⟨some picture⟩ })
      carousel.todo connection.watch := by
  obtain ⟨hopened, hviews⟩ := viewer?_eq_some hviewer
  refine hviewed.set hgrows hopened (.inl hnothing) ?_ ⟨⟨?_, ?_⟩, ?_, ?_, ?_, ?_⟩
  · intro position' other hposition hother
    refine OpenPage.missed_of_ne hresponse ?_
    intro hsame
    exact hposition (hviewed.distinct _ _ other opened index hother hopened hsame hviews)
  · intro hnone
    cases hviews.symm.trans hnone
  · intro index' hindex' picture'
    obtain rfl := Option.some.inj (hviews.symm.trans hindex')
    have hheard : some (.image picture) ∈ connection.watch.heard index := by
      rw [hgrows.heard_eq, hresponse]
      exact List.mem_append_right _ (List.mem_singleton_self _)
    constructor
    · rintro ⟨⟩
      exact hheard
    · intro hheard'
      have hsame := Watch.heard_unique hrun hheard hheard'
      exact congrArg some (AnyValue.image.inj (Option.some.inj hsame))
  · intro url _
    refine .inl ?_
    intro hnone
    cases hviews.symm.trans hnone
  · intro position' url hdue
    cases hnothing.symm.trans hdue
  · exact fun index' hindex' => .inl hindex'
  · intro index' hindex'
    exact (hviewed.registered position opened index' hopened hindex').imp_right
      hgrows.still_registered

/-- A page awakes. -/
theorem awake (hviewed : Viewed pages none watch) (context : HeadlinePage × Nat) :
    Viewed (pages ++ [.awake context.1 context.2]) (some (.withResult context.2)) watch where
  views := by
    intro position page hpage
    rcases Audience.getElem?_concat_cases hpage with hold | rfl
    · exact hviewed.views position page hold
    · exact ⟨fun _ => rfl, fun _ hindex => by cases hindex⟩
  asks := by
    intro position page url hpage hurl
    rcases Audience.getElem?_concat_cases hpage with hold | rfl
    · exact .inl ((hviewed.asks position page url hold hurl).resolve_right
        (Option.some_ne_none _).symm)
    · cases hurl
  asking := by
    intro position page url hdue
    cases hdue
  distinct := by
    intro first second page page' index hpage hpage' hindex hindex'
    rcases Audience.getElem?_concat_cases hpage with hold | rfl
    · rcases Audience.getElem?_concat_cases hpage' with hold' | rfl
      · exact hviewed.distinct first second page page' index hold hold' hindex hindex'
      · cases hindex'
    · cases hindex
  registered := by
    intro position page index hpage hindex
    rcases Audience.getElem?_concat_cases hpage with hold | rfl
    · exact .inr ((hviewed.registered position page index hold hindex).resolve_left
        (Option.some_ne_none _).symm)
    · cases hindex

/-- A page asks for its picture. -/
theorem getImage {url : URL}
    (hviewed : Viewed carousel.pages carousel.todo carousel.connection.watch)
    (hkept : carousel.Kept) (htodo : carousel.todo = some (.getImage position url))
    (hopened : carousel.pages[position]? = some opened)
    (hrun : Execution.execute Watch.step (.start watchPrefix) watchSchedule =
      some carousel.connection.watch)
    (hgrows : carousel.connection.watch.Grows none connection.watch) :
    Viewed (carousel.pages.set position
        { opened with imageRequest := some carousel.connection.watch.asked.length })
      (some (.withResult carousel.connection.watch.asked.length)) connection.watch := by
  have hnone := hviewed.asking position opened url htodo hopened
  refine hviewed.set hgrows hopened (.inr ⟨url, htodo⟩) ?_ ⟨⟨?_, ?_⟩, ?_, ?_, ?_, ?_⟩
  · exact fun _ _ _ _ => OpenPage.missed_none
  · intro hasked
    cases hasked
  · -- nobody has called with the request that is made
    rintro index ⟨⟩ picture
    have hheard : connection.watch.heard carousel.connection.watch.asked.length = [] := by
      rw [hgrows.heard_eq, Watch.heard_fresh hrun (Nat.le_refl _)]
      rfl
    rw [hheard, (hviewed.views position opened hopened).blank hnone]
    exact iff_of_false (Option.some_ne_none picture).symm List.not_mem_nil
  · exact fun _ _ => .inl (Option.some_ne_none _)
  · intro position' url' hdue
    cases hdue
  · rintro index ⟨⟩
    refine .inr ?_
    intro other hother hindex
    obtain ⟨url', -, hasked⟩ := hkept.pictures other hother _ hindex
    exact Nat.lt_irrefl _ (List.getElem?_eq_some_iff.mp hasked).1
  · rintro index ⟨⟩
    exact .inl rfl

/-- A callback is registered. -/
theorem withResult (hviewed : Viewed pages (some (.withResult index)) watch)
    (hgrows : watch.Grows none next)
    (hregistered : (Watch.requestOf index, .screen) ∈ next.main.withResultCalls) :
    Viewed pages none next := by
  have hlater : Viewed pages (some (.withResult index)) next :=
    hviewed.later hgrows fun _ _ => OpenPage.missed_none
  refine ⟨hlater.views, ?_, ?_, hlater.distinct, ?_⟩
  · intro position page url hpage hurl
    refine (hlater.asks position page url hpage hurl).imp_right ?_
    intro hdue
    cases hdue
  · intro position page url hdue
    cases hdue
  · intro position page index' hpage hindex'
    rcases hlater.registered position page index' hpage hindex' with hdue | hthere
    · obtain rfl := PageTodo.withResult.inj (Option.some.inj hdue)
      exact .inr hregistered
    · exact .inr hthere

end Viewed

/-! ## Whole runs -/

variable {phonePrefix : String} {schedule : List Action} {carousel final : Carousel}

section Samples

omit [Foundation]

end Samples

end Carousel

end NewsDay
