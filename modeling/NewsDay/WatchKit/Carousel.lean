import NewsDay.Network.ImageFromPhone
import NewsDay.Process.Holding
import NewsDay.Process.WatchCalls
import NewsDay.WatchKit.HeadlinePages

/-! # The pages of headlines

The primary screen of the watch asks for headlines once and hands the request
to three pages. A page awakes blank and registers with the request; its callback
shows the headline at the place of the page, and then asks for the image of the
headline and registers with that request in turn. The callbacks of a request are
invoked in the order of registration.
-/

namespace NewsDay

open Foundation

variable [Foundation]

/-- What `contextsForSegue(withIdentifier:)` asks for. -/
def WatchRequest.topHeadlines : WatchRequest := .headlines "us" (some 3)

/-- A page that is awake. -/
structure OpenPage where
  page : HeadlinePage
  /-- The position of the request that is its context, among the calls of the
  client's functions. -/
  headlines : Nat
  controller : HeadlineBaseController
  headlineImage : WKInterfaceImage := ⟨none⟩
  /-- What the callback of `awake(withContext:)` was given, once it is invoked. -/
  response : Option (Option AnyValue) := none
  /-- The position of its request for an image. -/
  imageRequest : Option Nat := none

namespace OpenPage

/-- `awake(withContext:)`, up to the registration. -/
def awake (page : HeadlinePage) (headlines : Nat) : OpenPage where
  page
  headlines
  controller := (HeadlinePages.initial page).populateUI .blank

variable (opened : OpenPage)

/-- The URL that `populateControls` was given last. -/
def urlImage : Option URL := opened.controller.contents.bind HeadlineContents.urlImage

/-- Its callback is registered with the request and has not been invoked. -/
def waits (headlines : Nat) : Bool := opened.headlines == headlines && opened.response.isNone

end OpenPage

/-- What the main thread has still to do for a page. -/
inductive PageTodo
  /-- `imageFromPhone(url:)`, for the page at the position. -/
  | getImage (position : Nat) (url : URL)
  /-- `withResult`, of the request that a call has returned. -/
  | withResult (index : Nat)

structure Carousel where
  connection : Connection
  /-- The positions of the calls of `contextsForSegue(withIdentifier:)`. -/
  requests : List Nat
  /-- The pages that have not awoken, with their contexts. -/
  contexts : List (HeadlinePage × Nat)
  /-- The pages in the order in which they have awoken. -/
  pages : List OpenPage
  todo : Option PageTodo
  /-- How a page has stopped the watch, if one has. -/
  halted : Option Trap

namespace Carousel

def start (watchPrefix phonePrefix : String) : Carousel where
  connection := .start watchPrefix phonePrefix
  requests := []
  contexts := []
  pages := []
  todo := none
  halted := none

variable (carousel : Carousel)

/-- The callback of the page at the position, that `awake(withContext:)` has
registered. -/
def headlinesReceived (position : Nat) (opened : OpenPage) (response : Option AnyValue) :
    Carousel :=
  let opened := { opened with response := some response }
  match opened.controller.headlinesReceived response with
  | .error trap => { carousel with
      pages := carousel.pages.set position opened
      halted := some trap }
  | .ok controller =>
      match response.bind (AnyValue.asArray AnyValue.asArticle) with
      -- the guard has failed
      | none => { carousel with pages := carousel.pages.set position opened }
      | some _ =>
          let opened := { opened with controller }
          match opened.urlImage with
          | some url => { carousel with
              pages := carousel.pages.set position opened
              todo := some (.getImage position url) }
          | none => { carousel with
              pages := carousel.pages.set position { opened with headlineImage := ⟨none⟩ } }

/-- The callback of the page at the position, that `imageFromPhone(url:)` has
registered. -/
def imageReceived (position : Nat) (opened : OpenPage) (response : Option AnyValue) : Carousel :=
  match opened.headlineImage.imageFromPhone response with
  | .error trap => { carousel with halted := some trap }
  | .ok headlineImage =>
      { carousel with pages := carousel.pages.set position { opened with headlineImage } }

/-- The first page that satisfies the predicate, with its position. -/
def page? (satisfies : OpenPage → Bool) : Option (Nat × OpenPage) :=
  (carousel.pages.findIdx? satisfies).bind fun position =>
    carousel.pages[position]?.map (Prod.mk position)

/-- The page whose callback is next with the request. -/
def listener? (index : Nat) : Option (Nat × OpenPage) := carousel.page? (·.waits index)

/-- The page that has asked for an image with the request. -/
def viewer? (index : Nat) : Option (Nat × OpenPage) :=
  carousel.page? (·.imageRequest == some index)

/-- A callback is invoked on the watch. -/
def received : WatchCall → Carousel
  | (index + 1, .screen, response, _) =>
      match carousel.listener? index with
      | some (position, opened) => carousel.headlinesReceived position opened response
      | none =>
          match carousel.viewer? index with
          | some (position, opened) => carousel.imageReceived position opened response
          | none => carousel
  | _ => carousel

/-- What can happen while the pages are shown. -/
inductive Action
  /-- A step of the two processes, as far as it is not one of a page. -/
  | connection (action : Connection.Action)
  | contextsForSegue
  /-- A page awakes with its context. -/
  | awake (index : Nat)
  /-- `imageFromPhone(url:)` asks for the image. -/
  | getImage
  /-- A callback is registered. -/
  | withResult

/-- The main thread of the watch does nothing else in between, only pages
register with their own requests, and nothing happens in a process that was
stopped. -/
def permits : Connection.Action → Bool
  | .watch .main => carousel.halted.isNone && carousel.todo.isNone
  | .watch (.listen index) =>
      carousel.halted.isNone && !carousel.requests.contains index &&
        carousel.pages.all fun opened => opened.imageRequest != some index
  | .watch _ => carousel.halted.isNone
  | .respond _ => carousel.halted.isNone
  | .phone _ => true
  | .deliver _ => true

def idle : Bool :=
  carousel.halted.isNone && carousel.connection.watch.halted.isNone && carousel.todo.isNone

/-- A step of the two processes, with the code of the pages that it runs. -/
def connect (action : Connection.Action) : Option Carousel :=
  (carousel.connection.step action).map fun connection =>
    match carousel.connection.invoking action with
    | none => { carousel with connection }
    | some call => { carousel with connection }.received call

/-- `contextsForSegue(withIdentifier:)`. -/
def contextsForSegue : Option Carousel :=
  let index := carousel.connection.watch.asked.length
  (carousel.connection.step (.watch (.get .topHeadlines))).map fun connection => { carousel with
    connection
    requests := carousel.requests ++ [index]
    contexts := carousel.contexts ++
      [(.headline0, index), (.headline1, index), (.headline2, index)] }

def awake (context : HeadlinePage × Nat) : Carousel :=
  { carousel with
    pages := carousel.pages ++ [.awake context.1 context.2]
    todo := some (.withResult context.2) }

def getImage : Option Carousel :=
  match carousel.todo with
  | some (.getImage position url) =>
      let index := carousel.connection.watch.asked.length
      (carousel.connection.step (.watch (.get (.image url)))).map fun connection => { carousel with
        connection
        pages := carousel.pages.modify position fun opened =>
          { opened with imageRequest := some index }
        todo := some (.withResult index) }
  | _ => none

def withResult : Option Carousel :=
  match carousel.todo with
  | some (.withResult index) =>
      (carousel.connection.step (.watch (.listen index))).map fun connection =>
        { carousel with connection, todo := none }
  | _ => none

def step : Action → Option Carousel
  | .connection action => if carousel.permits action then carousel.connect action else none
  | .contextsForSegue => if carousel.idle then carousel.contextsForSegue else none
  | .awake index =>
      if carousel.idle then
        carousel.contexts[index]?.map
          { carousel with contexts := carousel.contexts.eraseIdx index }.awake
      else none
  | .getImage => if carousel.halted.isNone then carousel.getImage else none
  | .withResult => if carousel.halted.isNone then carousel.withResult else none

/-! ## What one step can do -/

/-- The steps of the pages. -/
inductive Step (carousel : Carousel) : Carousel → Prop
  | quiet (action : Connection.Action) (connection : Connection)
      (hnext : carousel.connection.step action = some connection)
      (hlistening : ∀ index, Connection.listening action = some index →
        index ∉ carousel.requests)
      (hnobody : ∀ index response,
        (carousel.connection.invoking action).bind (screenResponse? index) = some response →
          carousel.listener? index = none ∧ carousel.viewer? index = none) :
      Step carousel { carousel with connection }
  | hears (connection : Connection) (index position : Nat) (opened : OpenPage)
      (response : Option AnyValue) (hrunning : carousel.halted = none)
      (htodo : carousel.todo = none)
      (hnext : carousel.connection.step (.watch .main) = some connection)
      (hresponse : (carousel.connection.invoking (.watch .main)).bind (screenResponse? index) =
        some response)
      (hlistener : carousel.listener? index = some (position, opened)) :
      Step carousel ({ carousel with connection }.headlinesReceived position opened response)
  | sees (connection : Connection) (index position : Nat) (opened : OpenPage)
      (response : Option AnyValue) (hrunning : carousel.halted = none)
      (htodo : carousel.todo = none)
      (hnext : carousel.connection.step (.watch .main) = some connection)
      (hresponse : (carousel.connection.invoking (.watch .main)).bind (screenResponse? index) =
        some response)
      (hlistener : carousel.listener? index = none)
      (hviewer : carousel.viewer? index = some (position, opened)) :
      Step carousel ({ carousel with connection }.imageReceived position opened response)
  | contextsForSegue (connection : Connection) (hidle : carousel.idle = true)
      (hnext : carousel.connection.step (.watch (.get .topHeadlines)) = some connection) :
      Step carousel { carousel with
        connection
        requests := carousel.requests ++ [carousel.connection.watch.asked.length]
        contexts := carousel.contexts ++ [(.headline0, carousel.connection.watch.asked.length),
          (.headline1, carousel.connection.watch.asked.length),
          (.headline2, carousel.connection.watch.asked.length)] }
  | awake (context : HeadlinePage × Nat) (contexts : List (HeadlinePage × Nat))
      (hidle : carousel.idle = true) (hcontext : context ∈ carousel.contexts)
      (hcontexts : contexts ⊆ carousel.contexts) :
      Step carousel ({ carousel with contexts }.awake context)
  | getImage (position : Nat) (url : URL) (connection : Connection)
      (hrunning : carousel.halted = none) (htodo : carousel.todo = some (.getImage position url))
      (hnext : carousel.connection.step (.watch (.get (.image url))) = some connection) :
      Step carousel { carousel with
        connection
        pages := carousel.pages.modify position fun opened =>
          { opened with imageRequest := some carousel.connection.watch.asked.length }
        todo := some (.withResult carousel.connection.watch.asked.length) }
  | withResult (index : Nat) (connection : Connection) (hrunning : carousel.halted = none)
      (htodo : carousel.todo = some (.withResult index))
      (hnext : carousel.connection.step (.watch (.listen index)) = some connection) :
      Step carousel { carousel with connection, todo := none }

variable {carousel} {next : Carousel}

/-- A callback of a screen is invoked, or something else is. -/
theorem received_cases (carousel : Carousel) (call : WatchCall) :
    (∃ index response, screenResponse? index call = some response ∧ carousel.received call =
      match carousel.listener? index with
      | some (position, opened) => carousel.headlinesReceived position opened response
      | none =>
          match carousel.viewer? index with
          | some (position, opened) => carousel.imageReceived position opened response
          | none => carousel) ∨
    ((∀ index, screenResponse? index call = none) ∧ carousel.received call = carousel) := by
  obtain ⟨owner, callback, response, error⟩ := call
  cases owner with
  | zero => exact .inr ⟨fun index => by simp [screenResponse?, Watch.requestOf], rfl⟩
  | succ index =>
      cases callback with
      | send request asyncRequest =>
          exact .inr ⟨fun index => by simp [screenResponse?, WatchCallback.isScreen], rfl⟩
      | screen => exact .inl ⟨index, response, by simp [screenResponse?, Watch.requestOf,
          WatchCallback.isScreen], rfl⟩

/-- No other screen registers with a request of the pages. -/
theorem fresh_of_listening {action : Connection.Action} (hpermits : carousel.permits action = true)
    {index : Nat} (hlistening : Connection.listening action = some index) :
    index ∉ carousel.requests := by
  cases action with
  | watch action =>
      cases action with
      | listen position =>
          obtain rfl := Option.some.inj hlistening
          intro hmem
          simp [permits, hmem] at hpermits
      | _ => cases hlistening
  | _ => cases hlistening

/-- Only the main thread of the watch invokes callbacks. -/
theorem main_of_invoking {connection : Connection} {action : Connection.Action} {call : WatchCall}
    (hinvoking : connection.invoking action = some call) : action = .watch .main := by
  cases action with
  | watch action =>
      cases action with
      | main => rfl
      | _ => cases hinvoking
  | _ => cases hinvoking

theorem connect_step {action : Connection.Action} (hpermits : carousel.permits action = true)
    (hnext : carousel.connect action = some next) : Step carousel next := by
  have hlistening : ∀ index, Connection.listening action = some index →
      index ∉ carousel.requests := fun index => fresh_of_listening hpermits
  obtain ⟨connection, hconnection, rfl⟩ := Option.map_eq_some_iff.mp hnext
  split
  next hinvoking =>
    refine .quiet action connection hconnection hlistening ?_
    intro index response hresponse
    rw [hinvoking] at hresponse
    cases hresponse
  next call hinvoking =>
    obtain rfl := main_of_invoking hinvoking
    obtain ⟨hrunning, htodo⟩ := Bool.and_eq_true_iff.mp hpermits
    rw [Option.isNone_iff_eq_none] at hrunning htodo
    rcases received_cases { carousel with connection } call with
      ⟨index, response, hresponse, heq⟩ | ⟨hnone, heq⟩
    · have hheard : (carousel.connection.invoking (.watch .main)).bind (screenResponse? index) =
          some response := by rw [hinvoking, Option.bind_some, hresponse]
      rw [heq]
      split
      next position opened hlistener =>
        exact .hears connection index position opened response hrunning htodo hconnection hheard
          hlistener
      next hlistener =>
        split
        next position opened hviewer =>
          exact .sees connection index position opened response hrunning htodo hconnection hheard
            hlistener hviewer
        next hviewer =>
          refine .quiet (.watch .main) connection hconnection hlistening ?_
          intro index' response' hresponse'
          rw [hinvoking, Option.bind_some] at hresponse'
          obtain rfl := Watch.screenResponse?_index hresponse hresponse'
          exact ⟨hlistener, hviewer⟩
    · rw [heq]
      refine .quiet (.watch .main) connection hconnection hlistening ?_
      intro index' response' hresponse'
      rw [hinvoking, Option.bind_some, hnone] at hresponse'
      cases hresponse'

theorem step_step {action : Action} (hnext : carousel.step action = some next) :
    Step carousel next := by
  cases action with
  | connection action =>
      obtain ⟨hpermits, hnext⟩ := Option.ite_none_right_eq_some.mp hnext
      exact connect_step hpermits hnext
  | contextsForSegue =>
      obtain ⟨hidle, hnext⟩ := Option.ite_none_right_eq_some.mp hnext
      obtain ⟨connection, hconnection, rfl⟩ := Option.map_eq_some_iff.mp hnext
      exact .contextsForSegue connection hidle hconnection
  | awake index =>
      obtain ⟨hidle, hnext⟩ := Option.ite_none_right_eq_some.mp hnext
      obtain ⟨context, hcontext, rfl⟩ := Option.map_eq_some_iff.mp hnext
      exact .awake context _ hidle (List.mem_of_getElem? hcontext) List.eraseIdx_subset
  | getImage =>
      obtain ⟨hrunning, hnext⟩ := Option.ite_none_right_eq_some.mp hnext
      unfold getImage at hnext
      split at hnext
      next position url htodo =>
        obtain ⟨connection, hconnection, rfl⟩ := Option.map_eq_some_iff.mp hnext
        exact .getImage position url connection (Option.isNone_iff_eq_none.mp hrunning) htodo
          hconnection
      next => exact absurd hnext.symm (Option.some_ne_none next)
  | withResult =>
      obtain ⟨hrunning, hnext⟩ := Option.ite_none_right_eq_some.mp hnext
      unfold withResult at hnext
      split at hnext
      next index htodo =>
        obtain ⟨connection, hconnection, rfl⟩ := Option.map_eq_some_iff.mp hnext
        exact .withResult index connection (Option.isNone_iff_eq_none.mp hrunning) htodo
          hconnection
      next => exact absurd hnext.symm (Option.some_ne_none next)

end Carousel

end NewsDay
