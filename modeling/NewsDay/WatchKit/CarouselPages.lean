import NewsDay.Library.Audience
import NewsDay.WatchKit.Carousel
import NewsDay.WatchKit.Shown

/-! # What the pages of headlines show

The pages run on top of the two processes and never hold them up. What their
callbacks were given, page by page, is what the invocations with their request
have passed on, so that at rest every page was told. A page is blank until then,
and shows afterwards the headline at its place among those that the phone holds.
-/

namespace NewsDay

open Foundation

variable [Foundation]

namespace Carousel

variable {carousel next : Carousel} {watchPrefix phonePrefix : String}
  {schedule : List Action} {index position : Nat} {opened : OpenPage}

theorem page?_eq_some {satisfies : OpenPage → Bool}
    (hpage : carousel.page? satisfies = some (position, opened)) :
    carousel.pages[position]? = some opened ∧ satisfies opened = true := by
  obtain ⟨position', hfind, hpage⟩ := Option.bind_eq_some_iff.mp hpage
  obtain ⟨opened', hopened, hsame⟩ := Option.map_eq_some_iff.mp hpage
  obtain ⟨rfl, rfl⟩ := Prod.mk.inj hsame
  obtain ⟨hlt, hsatisfies, -⟩ := List.findIdx?_eq_some_iff_getElem.mp hfind
  obtain rfl := Option.some.inj (hopened.symm.trans (List.getElem?_eq_getElem hlt))
  exact ⟨hopened, hsatisfies⟩

/-- A page that satisfies the predicate is found. -/
theorem page?_ne_none {satisfies : OpenPage → Bool} (hopened : opened ∈ carousel.pages)
    (hsatisfies : satisfies opened = true) : carousel.page? satisfies ≠ none := by
  intro hnone
  have hfound : carousel.pages.findIdx? satisfies ≠ none := by
    intro hnobody
    have hfails := List.findIdx?_eq_none_iff.mp hnobody opened hopened
    exact Bool.false_ne_true (hfails.symm.trans hsatisfies)
  obtain ⟨position, hfind⟩ := Option.ne_none_iff_exists'.mp hfound
  obtain ⟨hlt, -⟩ := List.findIdx?_eq_some_iff_getElem.mp hfind
  rw [page?, hfind, Option.bind_some, List.getElem?_eq_getElem hlt] at hnone
  cases hnone

theorem listener?_eq_some (hlistener : carousel.listener? index = some (position, opened)) :
    carousel.pages[position]? = some opened ∧ opened.headlines = index ∧
      opened.response = none := by
  obtain ⟨hopened, hwaits⟩ := page?_eq_some hlistener
  simp only [OpenPage.waits, Bool.and_eq_true, beq_iff_eq, Option.isNone_iff_eq_none] at hwaits
  exact ⟨hopened, hwaits⟩

theorem viewer?_eq_some (hviewer : carousel.viewer? index = some (position, opened)) :
    carousel.pages[position]? = some opened ∧ opened.imageRequest = some index := by
  obtain ⟨hopened, hviews⟩ := page?_eq_some hviewer
  exact ⟨hopened, beq_iff_eq.mp hviews⟩

theorem viewer?_ne_none (hopened : opened ∈ carousel.pages)
    (hindex : opened.imageRequest = some index) : carousel.viewer? index ≠ none :=
  page?_ne_none hopened (beq_iff_eq.mpr hindex)

/-! ## What callbacks change -/

/-- A page is told with its request, and stays the page that it is; its controller
makes of it what it can, or stops the watch. -/
structure Hears (opened : OpenPage) (response : Option AnyValue) (changed : OpenPage)
    (halted halted' : Option Trap) : Prop where
  page : changed.page = opened.page
  headlines : changed.headlines = opened.headlines
  controller : (opened.controller.headlinesReceived response = .ok changed.controller ∧
      halted' = halted) ∨
    ∃ trap, opened.controller.headlinesReceived response = .error trap ∧
      changed.controller = opened.controller ∧ halted' = some trap
  response : changed.response = some response
  imageRequest : changed.imageRequest = opened.imageRequest
  image : changed.headlineImage = opened.headlineImage ∨ changed.headlineImage = ⟨none⟩

/-- What the callback of `awake(withContext:)` does: its page is told, and has to
ask for its picture if it shows a headline with one. -/
theorem headlinesReceived_hears (carousel : Carousel) (htodo : carousel.todo = none)
    (position : Nat) (opened : OpenPage) (response : Option AnyValue) : ∃ changed todo halted,
      carousel.headlinesReceived position opened response =
        { carousel with pages := carousel.pages.set position changed, todo, halted } ∧
      Hears opened response changed carousel.halted halted ∧
      (todo = none ∧ (opened.urlImage = none → changed.urlImage = none) ∨
        ∃ url, todo = some (.getImage position url) ∧ changed.urlImage = some url) := by
  unfold headlinesReceived
  dsimp only
  cases hreceived : opened.controller.headlinesReceived response with
  | error trap =>
      exact ⟨_, _, _, rfl, ⟨rfl, rfl, .inr ⟨trap, hreceived, rfl, rfl⟩, rfl, rfl, .inl rfl⟩,
        .inl ⟨htodo, id⟩⟩
  | ok controller =>
      dsimp only
      split
      next hnone =>
        have hsame : opened.controller.headlinesReceived response = .ok opened.controller := by
          rw [HeadlineBaseController.headlinesReceived, hnone]
        exact ⟨_, _, _, rfl, ⟨rfl, rfl, .inl ⟨hsame, rfl⟩, rfl, rfl, .inl rfl⟩,
          .inl ⟨htodo, id⟩⟩
      next =>
        split
        next url hurl =>
          exact ⟨_, _, _, rfl, ⟨rfl, rfl, .inl ⟨hreceived, rfl⟩, rfl, rfl, .inl rfl⟩,
            .inr ⟨url, rfl, hurl⟩⟩
        next hnone =>
          exact ⟨_, _, _, rfl, ⟨rfl, rfl, .inl ⟨hreceived, rfl⟩, rfl, rfl, .inr rfl⟩,
            .inl ⟨htodo, fun _ => hnone⟩⟩

/-- The callback of a picture changes the image of its page, or stops the watch. -/
theorem imageReceived_cases (carousel : Carousel) (position : Nat) (opened : OpenPage)
    (response : Option AnyValue) :
    (∃ picture, response = some (.image picture) ∧
      carousel.imageReceived position opened response = { carousel with
        pages := carousel.pages.set position { opened with headlineImage := ⟨some picture⟩ } }) ∨
    (response.bind AnyValue.asImage = none ∧
      carousel.imageReceived position opened response =
        { carousel with halted := some .forcedCast }) := by
  unfold imageReceived WKInterfaceImage.imageFromPhone
  cases himage : response.bind AnyValue.asImage with
  | none => exact .inr ⟨rfl, rfl⟩
  | some picture =>
      obtain ⟨value, rfl, hvalue⟩ := Option.bind_eq_some_iff.mp himage
      obtain rfl := AnyValue.asImage_eq_some.mp hvalue
      exact .inl ⟨picture, rfl, rfl⟩

theorem imageReceived_connection (position : Nat) (opened : OpenPage)
    (response : Option AnyValue) :
    (carousel.imageReceived position opened response).connection = carousel.connection := by
  rcases imageReceived_cases carousel position opened response with ⟨picture, -, heq⟩ | ⟨-, heq⟩
  all_goals rw [heq]

/-! ## The two processes under the pages -/

theorem Step.connected (hstep : Step carousel next) :
    next.connection = carousel.connection ∨
      ∃ action, carousel.connection.step action = some next.connection := by
  cases hstep with
  | quiet action connection hnext => exact .inr ⟨action, hnext⟩
  | hears connection index position opened response hrunning htodo hnext =>
      obtain ⟨changed, todo, halted, heq, -⟩ := headlinesReceived_hears
        { carousel with connection } htodo position opened response
      rw [heq]
      exact .inr ⟨_, hnext⟩
  | sees connection index position opened response hrunning htodo hnext =>
      rw [imageReceived_connection]
      exact .inr ⟨_, hnext⟩
  | contextsForSegue connection hidle hnext => exact .inr ⟨_, hnext⟩
  | awake context contexts hidle => exact .inl rfl
  | getImage position url connection hrunning htodo hnext => exact .inr ⟨_, hnext⟩
  | withResult index connection hrunning htodo hnext => exact .inr ⟨_, hnext⟩

/-- The two processes have run on their own. -/
theorem connection_run {first final : Carousel}
    (hrun : Execution.execute step first schedule = some final) :
    ∃ connectionSchedule, Execution.execute Connection.step first.connection connectionSchedule =
      some final.connection := by
  refine Execution.execute_simulation Carousel.connection ?_ hrun
  intro carousel action next hnext
  rcases (step_step hnext).connected with hsame | ⟨action, hconnection⟩
  · exact ⟨[], hsame ▸ rfl⟩
  · refine ⟨[action], ?_⟩
    rw [Execution.execute_cons, hconnection]
    rfl

/-! ## What the pages keep -/

/-- The request with which a callback has still to be registered. -/
def registering (carousel : Carousel) : Option Nat :=
  match carousel.todo with
  | some (.withResult index) => some index
  | _ => none

/-- What the pages with this request were told. -/
def told (carousel : Carousel) (index : Nat) : List (Option AnyValue) :=
  Audience.told OpenPage.headlines OpenPage.response carousel.pages index

/-- How many pages have this request. -/
def audience (carousel : Carousel) (index : Nat) : Nat :=
  Audience.size OpenPage.headlines carousel.pages index

/-- The pages hold the requests of the segues and of their pictures, and are told
what the callbacks with their request are given. -/
structure Kept (carousel : Carousel) : Prop where
  asked : ∀ index ∈ carousel.requests,
    carousel.connection.watch.asked[index]? = some .topHeadlines
  contexts : ∀ context ∈ carousel.contexts, context.2 ∈ carousel.requests
  headlines : ∀ opened ∈ carousel.pages, opened.headlines ∈ carousel.requests
  waiting : ∀ opened ∈ carousel.pages, opened.response = none → opened.imageRequest = none
  pictures : ∀ opened ∈ carousel.pages, ∀ index, opened.imageRequest = some index →
    ∃ url, opened.urlImage = some url ∧
      carousel.connection.watch.asked[index]? = some (.image url)
  picturing : ∀ position url, carousel.todo = some (.getImage position url) →
    ∃ opened, carousel.pages[position]? = some opened ∧ opened.urlImage = some url ∧
      opened.response ≠ none
  answered : ∀ index ∈ carousel.requests,
    (carousel.told index).Perm (carousel.connection.watch.heard index)
  registered : ∀ index ∈ carousel.requests, carousel.connection.watch.listeners index +
    (if carousel.registering = some index then 1 else 0) = carousel.audience index

theorem kept_start (watchPrefix phonePrefix : String) : (start watchPrefix phonePrefix).Kept where
  asked _ hindex := absurd hindex List.not_mem_nil
  contexts _ hcontext := absurd hcontext List.not_mem_nil
  headlines _ hopened := absurd hopened List.not_mem_nil
  waiting _ hopened := absurd hopened List.not_mem_nil
  pictures _ hopened := absurd hopened List.not_mem_nil
  picturing _ _ htodo := absurd htodo.symm (Option.some_ne_none _)
  answered _ hindex := absurd hindex List.not_mem_nil
  registered _ hindex := absurd hindex List.not_mem_nil

namespace Kept

variable {connection : Connection} {response : Option AnyValue}

theorem index_lt (hkept : carousel.Kept) (hindex : index ∈ carousel.requests) :
    index < carousel.connection.watch.asked.length :=
  (List.getElem?_eq_some_iff.mp (hkept.asked index hindex)).1

/-- What was asked for stays asked for. -/
theorem asked_later (hkept : carousel.Kept)
    (hasked : carousel.connection.watch.asked <+: connection.watch.asked) :
    ∀ index ∈ carousel.requests, connection.watch.asked[index]? = some .topHeadlines := by
  intro index hindex
  exact Execution.getElem?_of_prefix hasked (hkept.asked index hindex)

theorem pictures_later (hkept : carousel.Kept)
    (hasked : carousel.connection.watch.asked <+: connection.watch.asked) :
    ∀ opened ∈ carousel.pages, ∀ index, opened.imageRequest = some index →
      ∃ url, opened.urlImage = some url ∧ connection.watch.asked[index]? = some (.image url) := by
  intro opened hopened index hindex
  obtain ⟨url, hurl, himage⟩ := hkept.pictures opened hopened index hindex
  exact ⟨url, hurl, Execution.getElem?_of_prefix hasked himage⟩

/-- A request for headlines is not one for a picture. -/
theorem imageRequest_ne (hkept : carousel.Kept) (hindex : index ∈ carousel.requests)
    (hopened : opened ∈ carousel.pages) : opened.imageRequest ≠ some index := by
  intro hrequest
  obtain ⟨url, -, hasked⟩ := hkept.pictures opened hopened index hrequest
  cases hasked.symm.trans (hkept.asked index hindex)

/-- An invocation with a request of the pages finds a page that waits. -/
theorem listened {connectionSchedule : List Connection.Action} {action : Connection.Action}
    (hkept : carousel.Kept)
    (hrun : Execution.execute Connection.step (.start watchPrefix phonePrefix)
      connectionSchedule = some carousel.connection)
    (hnext : carousel.connection.step action = some connection)
    (hindex : index ∈ carousel.requests)
    (hlistening : Connection.listening action ≠ some index)
    (hresponse : (carousel.connection.invoking action).bind (screenResponse? index) =
      some response) : carousel.listener? index ≠ none := by
  obtain ⟨watchSchedule, hwatchRun⟩ := Connection.watch_reachable
    (Execution.execute_concat_eq_some.mpr ⟨_, hrun, hnext⟩)
  have hheard := (Connection.step_grows hnext).heard_eq index
  have hlisteners := Connection.step_listeners hnext index
  have hle := Watch.heard_le hwatchRun index
  rw [hheard, hresponse, hlisteners, if_neg hlistening, List.length_append] at hle
  have hanswered := (hkept.answered index hindex).length_eq
  have hregistered := hkept.registered index hindex
  have hless : (carousel.told index).length < carousel.audience index := by
    simp only [Option.toList_some, List.length_singleton] at hle
    omega
  obtain ⟨opened, hopened, hheadlines, hwaits⟩ := Audience.exists_untold hless
  exact page?_ne_none hopened (by simp [OpenPage.waits, hheadlines, hwaits])

/-- An invocation that finds no page that waits is with no request of the segues. -/
theorem quiet {connectionSchedule : List Connection.Action} {action : Connection.Action}
    (hkept : carousel.Kept)
    (hrun : Execution.execute Connection.step (.start watchPrefix phonePrefix)
      connectionSchedule = some carousel.connection)
    (hnext : carousel.connection.step action = some connection)
    (hlistening : ∀ index, Connection.listening action = some index → index ∉ carousel.requests)
    (hnobody : ∀ index response, (carousel.connection.invoking action).bind
      (screenResponse? index) = some response → carousel.listener? index = none) :
    Kept { carousel with connection } := by
  have hgrows := Connection.step_grows hnext
  have hunheard : ∀ index ∈ carousel.requests,
      (carousel.connection.invoking action).bind (screenResponse? index) = none := by
    intro index hindex
    by_contra hheard
    obtain ⟨response, hresponse⟩ := Option.ne_none_iff_exists'.mp hheard
    exact hkept.listened hrun hnext hindex (fun hsome => hlistening index hsome hindex) hresponse
      (hnobody index response hresponse)
  refine ⟨hkept.asked_later hgrows.asked, hkept.contexts, hkept.headlines, hkept.waiting,
    hkept.pictures_later hgrows.asked, hkept.picturing, ?_, ?_⟩
  · intro index hindex
    dsimp only
    rw [hgrows.heard_eq, hunheard index hindex, Option.toList_none, List.append_nil]
    exact hkept.answered index hindex
  · intro index hindex
    dsimp only
    rw [Connection.step_listeners hnext, if_neg fun hsome => hlistening index hsome hindex]
    exact hkept.registered index hindex

/-- A page is told. -/
theorem hears {changed : OpenPage} {todo : Option PageTodo} (hkept : carousel.Kept)
    (hnext : carousel.connection.step (.watch .main) = some connection)
    (hresponse : (carousel.connection.invoking (.watch .main)).bind (screenResponse? index) =
      some response) (hnothing : carousel.todo = none)
    (hlistener : carousel.listener? index = some (position, opened))
    {halted : Option Trap} (hhears : Hears opened response changed carousel.halted halted)
    (htodo : todo = none ∨ ∃ url, todo = some (.getImage position url) ∧
      changed.urlImage = some url) :
    Kept { carousel with
      connection, pages := carousel.pages.set position changed, todo, halted } := by
  obtain ⟨hopened, hheadlines, hwaits⟩ := listener?_eq_some hlistener
  have hmem := List.mem_of_getElem? hopened
  have hgrows := Connection.step_grows hnext
  refine ⟨hkept.asked_later hgrows.asked, hkept.contexts, ?_, ?_, ?_, ?_, ?_, ?_⟩
  · exact Audience.forall_mem_set hkept.headlines
      (hhears.headlines ▸ hkept.headlines opened hmem)
  · apply Audience.forall_mem_set hkept.waiting
    intro hnone
    exact absurd (hnone.symm.trans hhears.response) (Option.some_ne_none response).symm
  · apply Audience.forall_mem_set (hkept.pictures_later hgrows.asked)
    -- a page that waits has not asked for a picture
    intro index hindex
    rw [hhears.imageRequest, hkept.waiting opened hmem hwaits] at hindex
    cases hindex
  · rintro position' url rfl
    obtain ⟨url', hsome, hurl⟩ := htodo.resolve_left (Option.some_ne_none _)
    obtain ⟨rfl, rfl⟩ := PageTodo.getImage.inj (Option.some.inj hsome)
    refine ⟨changed, List.getElem?_set_self (List.getElem?_eq_some_iff.mp hopened).1, hurl, ?_⟩
    rw [hhears.response]
    exact Option.some_ne_none response
  · intro index' hindex'
    dsimp only
    rw [hgrows.heard_eq]
    refine (Audience.told_set_perm hopened hhears.headlines hwaits hhears.response).trans ?_
    by_cases hsame : index' = index
    · rw [hsame, if_pos hheadlines, hresponse]
      exact (hkept.answered index (hsame ▸ hindex')).append_right _
    · have hother : (carousel.connection.invoking (.watch .main)).bind
          (screenResponse? index') = none := Watch.bind_screenResponse?_of_ne hresponse hsame
      rw [if_neg fun hkey => hsame (hkey.symm.trans hheadlines), hother]
      exact (hkept.answered index' hindex').append_right _
  · intro index' hindex'
    have hregistering : registering { carousel with
        connection, pages := carousel.pages.set position changed, todo, halted } =
          carousel.registering := by
      rcases htodo with rfl | ⟨url, rfl, -⟩
      all_goals simp only [registering, hnothing]
    rw [hregistering, audience, Audience.size_set hopened hhears.headlines]
    dsimp only
    rw [Connection.step_listeners hnext]
    exact hkept.registered index' hindex'

/-- The watch is stopped. -/
theorem halt (hkept : carousel.Kept) (halted : Option Trap) :
    Kept { carousel with halted } :=
  ⟨hkept.asked, hkept.contexts, hkept.headlines, hkept.waiting, hkept.pictures, hkept.picturing,
    hkept.answered, hkept.registered⟩

/-- A page changes that was told, for its picture. -/
theorem change {changed : OpenPage} {todo : Option PageTodo} (hkept : carousel.Kept)
    (hopened : carousel.pages[position]? = some opened)
    (hheadlines : changed.headlines = opened.headlines)
    (hresponse : changed.response = opened.response)
    (hurlImage : changed.urlImage = opened.urlImage)
    (himageRequest : changed.imageRequest = opened.imageRequest ∨
      opened.response ≠ none ∧ ∀ index, changed.imageRequest = some index →
        ∃ url, opened.urlImage = some url ∧
          carousel.connection.watch.asked[index]? = some (.image url))
    (htodo : todo = carousel.todo ∨
      carousel.registering = none ∧ ∃ index ∉ carousel.requests, todo = some (.withResult index)) :
    Kept { carousel with pages := carousel.pages.set position changed, todo } := by
  have hmem := List.mem_of_getElem? hopened
  refine ⟨hkept.asked, hkept.contexts, ?_, ?_, ?_, ?_, ?_, ?_⟩
  · exact Audience.forall_mem_set hkept.headlines (hheadlines ▸ hkept.headlines opened hmem)
  · apply Audience.forall_mem_set hkept.waiting
    intro hnone
    have hwaits := hresponse.symm.trans hnone
    rcases himageRequest with hsame | ⟨htold, -⟩
    · exact hsame.trans (hkept.waiting opened hmem hwaits)
    · exact absurd hwaits htold
  · apply Audience.forall_mem_set hkept.pictures
    intro index hindex
    rw [hurlImage]
    rcases himageRequest with hsame | ⟨-, hpicture⟩
    · exact hkept.pictures opened hmem index (hsame ▸ hindex)
    · exact hpicture index hindex
  · rintro position' url rfl
    rcases htodo with hsame | ⟨-, index, -, hother⟩
    · obtain ⟨page, hpage, hurl, htold⟩ := hkept.picturing position' url hsame.symm
      by_cases hposition : position' = position
      · subst hposition
        obtain rfl := Option.some.inj (hpage.symm.trans hopened)
        exact ⟨changed, List.getElem?_set_self (List.getElem?_eq_some_iff.mp hopened).1,
          hurlImage.trans hurl, fun hnone => htold (hresponse.symm.trans hnone)⟩
      · exact ⟨page, (List.getElem?_set_ne (Ne.symm hposition)).trans hpage, hurl, htold⟩
    · cases hother
  · intro index hindex
    rw [told, Audience.told_set hopened hheadlines hresponse]
    exact hkept.answered index hindex
  · intro index hindex
    rw [audience, Audience.size_set hopened hheadlines]
    refine Eq.trans (congrArg _ ?_) (hkept.registered index hindex)
    rcases htodo with rfl | ⟨hnone, other, hother, rfl⟩
    · rfl
    · rw [hnone, if_neg (Option.some_ne_none index).symm]
      refine if_neg ?_
      rintro ⟨⟩
      exact hother hindex

/-- The pages are given a request. -/
theorem contextsForSegue {connectionSchedule : List Connection.Action} (hkept : carousel.Kept)
    (hrun : Execution.execute Connection.step (.start watchPrefix phonePrefix)
      connectionSchedule = some carousel.connection) (htodo : carousel.todo = none)
    (hnext : carousel.connection.step (.watch (.get .topHeadlines)) = some connection) :
    Kept { carousel with
      connection
      requests := carousel.requests ++ [carousel.connection.watch.asked.length]
      contexts := carousel.contexts ++ [(.headline0, carousel.connection.watch.asked.length),
        (.headline1, carousel.connection.watch.asked.length),
        (.headline2, carousel.connection.watch.asked.length)] } := by
  obtain rfl := Connection.step_get hnext
  obtain ⟨watchSchedule, hwatchRun⟩ := Connection.watch_reachable hrun
  have hgrows := Connection.step_grows hnext
  have hnobody : ∀ opened ∈ carousel.pages,
      opened.headlines ≠ carousel.connection.watch.asked.length := by
    intro opened hopened
    exact Nat.ne_of_lt (hkept.index_lt (hkept.headlines opened hopened))
  refine ⟨?_, ?_, ?_, hkept.waiting, hkept.pictures_later hgrows.asked, hkept.picturing, ?_, ?_⟩
  · exact Audience.forall_mem_append_singleton (hkept.asked_later hgrows.asked)
      List.getElem?_concat_length
  · intro context hcontext
    rcases List.mem_append.mp hcontext with hold | hnew
    · exact List.mem_append_left _ (hkept.contexts context hold)
    · simp only [List.mem_cons, List.not_mem_nil, or_false] at hnew
      refine List.mem_append_right _ (List.mem_singleton.mpr ?_)
      rcases hnew with rfl | rfl | rfl
      all_goals rfl
  · intro opened hopened
    exact List.mem_append_left _ (hkept.headlines opened hopened)
  · intro index hindex
    rcases List.mem_append.mp hindex with hold | hnew
    · dsimp only
      rw [hgrows.heard_eq]
      exact (List.append_nil _).symm ▸ hkept.answered index hold
    · obtain rfl := List.mem_singleton.mp hnew
      dsimp only
      rw [hgrows.heard_eq, Watch.heard_fresh hwatchRun (Nat.le_refl _), told,
        Audience.told_eq_nil hnobody]
      exact List.Perm.refl []
  · intro index hindex
    dsimp only
    rw [Connection.step_listeners hnext]
    rcases List.mem_append.mp hindex with hold | hnew
    · exact hkept.registered index hold
    · obtain rfl := List.mem_singleton.mp hnew
      rw [Watch.listeners_fresh hwatchRun (Nat.le_refl _), audience, Audience.size_eq_zero hnobody]
      simp [registering, htodo, Connection.listening, Watch.Action.listening]

/-- A page awakes. -/
theorem awake (hkept : carousel.Kept) (htodo : carousel.todo = none)
    {context : HeadlinePage × Nat} (hcontext : context ∈ carousel.contexts)
    {contexts : List (HeadlinePage × Nat)} (hcontexts : contexts ⊆ carousel.contexts) :
    Kept ({ carousel with contexts }.awake context) := by
  refine ⟨hkept.asked, fun other hother => hkept.contexts other (hcontexts hother), ?_, ?_, ?_, ?_,
    ?_, ?_⟩
  · exact Audience.forall_mem_append_singleton hkept.headlines (hkept.contexts context hcontext)
  · exact Audience.forall_mem_append_singleton hkept.waiting fun _ => rfl
  · apply Audience.forall_mem_append_singleton hkept.pictures
    intro index hindex
    cases hindex
  · intro position url hpicturing
    cases hpicturing
  · intro index hindex
    have htold : told ({ carousel with contexts }.awake context) index = carousel.told index :=
      Audience.told_append_untold rfl
    exact htold ▸ hkept.answered index hindex
  · intro index hindex
    have haudience : audience ({ carousel with contexts }.awake context) index =
        carousel.audience index + if context.2 = index then 1 else 0 :=
      Audience.size_append_cons
    have hbefore := hkept.registered index hindex
    have hnone : carousel.registering = none := by rw [registering, htodo]
    rw [hnone, if_neg (Option.some_ne_none index).symm, Nat.add_zero] at hbefore
    have hregistering : registering ({ carousel with contexts }.awake context) =
        some context.2 := rfl
    rw [haudience, hregistering, ← hbefore]
    simp only [Option.some.injEq]
    rfl

/-- A callback is registered. -/
theorem withResult (hkept : carousel.Kept) (htodo : carousel.todo = some (.withResult index))
    (hnext : carousel.connection.step (.watch (.listen index)) = some connection) :
    Kept { carousel with connection, todo := none } := by
  have hgrows := Connection.step_grows hnext
  refine ⟨hkept.asked_later hgrows.asked, hkept.contexts, hkept.headlines, hkept.waiting,
    hkept.pictures_later hgrows.asked, ?_, ?_, ?_⟩
  · intro position url hpicturing
    cases hpicturing
  · intro index hindex
    dsimp only
    rw [hgrows.heard_eq]
    exact (List.append_nil _).symm ▸ hkept.answered index hindex
  · intro index' hindex'
    have hbefore := hkept.registered index' hindex'
    have hregistering : carousel.registering = some index := by rw [registering, htodo]
    rw [hregistering] at hbefore
    dsimp only
    rw [Connection.step_listeners hnext]
    exact hbefore

end Kept

theorem todo_of_idle (hidle : carousel.idle = true) : carousel.todo = none :=
  Option.isNone_iff_eq_none.mp (Bool.and_eq_true_iff.mp hidle).2

theorem halted_of_idle (hidle : carousel.idle = true) : carousel.halted = none :=
  Option.isNone_iff_eq_none.mp (Bool.and_eq_true_iff.mp (Bool.and_eq_true_iff.mp hidle).1).1

theorem Step.kept
    (hrun : Execution.execute step (start watchPrefix phonePrefix) schedule = some carousel)
    (hstep : Step carousel next) (hkept : carousel.Kept) : next.Kept := by
  obtain ⟨connectionSchedule, hconnection⟩ := connection_run hrun
  cases hstep with
  | quiet action connection hnext hlistening hnobody =>
      refine hkept.quiet hconnection hnext hlistening ?_
      intro index response hresponse
      exact (hnobody index response hresponse).1
  | hears connection index position opened response hrunning htodo hnext hresponse hlistener =>
      obtain ⟨changed, todo, halted, heq, hhears, hafter⟩ := headlinesReceived_hears
        { carousel with connection } htodo position opened response
      rw [heq]
      exact hkept.hears hnext hresponse htodo hlistener hhears (hafter.imp_left And.left)
  | sees connection index position opened response hrunning htodo hnext hresponse hlistener
      hviewer =>
      have hconnected : Kept { carousel with connection } := by
        refine hkept.quiet hconnection hnext (fun _ hsome => by cases hsome) ?_
        intro index' response' hresponse'
        by_cases hsame : index' = index
        · exact hsame ▸ hlistener
        · rw [Watch.bind_screenResponse?_of_ne hresponse hsame] at hresponse'
          cases hresponse'
      rcases imageReceived_cases { carousel with connection } position opened response with
        ⟨picture, -, heq⟩ | ⟨-, heq⟩
      · rw [heq]
        exact hconnected.change (viewer?_eq_some hviewer).1 rfl rfl rfl (.inl rfl) (.inl rfl)
      · rw [heq]
        exact hconnected.halt _
  | contextsForSegue connection hidle hnext =>
      exact hkept.contextsForSegue hconnection (todo_of_idle hidle) hnext
  | awake context contexts hidle hcontext hcontexts =>
      exact hkept.awake (todo_of_idle hidle) hcontext hcontexts
  | getImage position url connection hrunning htodo hnext =>
      have hconnected : Kept { carousel with connection } :=
        hkept.quiet hconnection hnext (fun _ hsome => by cases hsome)
          (fun _ _ hresponse => by cases hresponse)
      obtain ⟨opened, hopened, hurl, htold⟩ := hkept.picturing position url htodo
      have hasked : connection.watch.asked[carousel.connection.watch.asked.length]? =
          some (.image url) := by
        obtain rfl := Connection.step_get hnext
        exact List.getElem?_concat_length
      have hnone : carousel.registering = none := by rw [registering, htodo]
      rw [Audience.modify_eq_set hopened]
      refine hconnected.change hopened rfl rfl rfl (.inr ⟨htold, ?_⟩) (.inr ⟨hnone, _, ?_, rfl⟩)
      · rintro index ⟨⟩
        exact ⟨url, hurl, hasked⟩
      · intro hindex
        cases hasked.symm.trans (hconnected.asked _ hindex)
  | withResult index connection hrunning htodo hnext => exact hkept.withResult htodo hnext

theorem kept
    (hrun : Execution.execute step (start watchPrefix phonePrefix) schedule = some carousel) :
    carousel.Kept := by
  refine Execution.execute_induction (motive := fun _ (carousel : Carousel) => carousel.Kept)
    (kept_start _ _) ?_ hrun
  intro schedule carousel action next hbefore hkept hnext
  exact (step_step hnext).kept hbefore hkept

end Carousel

end NewsDay
