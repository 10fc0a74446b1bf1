import NewsDay.Network.NewsApiDownloads
import NewsDay.Network.WatchReplies
import NewsDay.Process.Phone

/-! # What one step of the phone can do

Every action is inverted once: into the change of the main queue that it makes
and the code that it runs. The main queue of a phone runs as a main queue does
by itself, so the contract of asynchronous requests holds for it.
-/

namespace NewsDay

open Foundation

variable [Foundation]

namespace Phone

/-- The steps of a phone. -/
inductive Step : Phone → Phone → Prop
  | receive (phone : Phone) (message : Message) :
      Step phone { phone with
        main := phone.main.async (.received message phone.received.length)
        received := phone.received ++ [message] }
  | browse (phone : Phone) (call : NewsApi.Call) :
      Step phone { phone with main := phone.main.async (.screen call) }
  | listen (phone : Phone) (request : Nat) (hrequest : request < phone.news.created) :
      Step phone { phone with main := phone.main.withResult request .screen }
  | settle (phone : Phone) (before after : List DataTask) (task : DataTask)
      (result : Option AnyValue) (error : Option ErrorValue)
      (htasks : phone.tasks = before ++ task :: after) :
      Step phone { phone with
        tasks := before ++ after
        main := phone.main.setResult task.resultWrapper result error }
  | retrieve (phone : Phone) (before after : List Nat) (replyHandler : Nat)
      (image : Option UIImage) (hretrievals : phone.retrievals = before ++ replyHandler :: after) :
      Step phone { phone with
        retrievals := before ++ after
        retrieved := phone.retrieved ++ [(replyHandler, image)]
        replies := phone.replies ++ (WatchServer.imageReply image).toList.map
          (Prod.mk replyHandler) }
  | register (phone : Phone) (request : Nat) (callback : PhoneCallback)
      (htodo : phone.todo = some (request, callback)) :
      Step phone { phone with main := phone.main.withResult request callback, todo := none }
  | idle (phone : Phone) (main : PhoneQueue) (htodo : phone.todo = none)
      (hmain : phone.main.mainStep = some main) (hstarting : phone.main.starting = none)
      (hinvoking : ∀ request replyHandler callback result error,
        phone.main.invoking ≠ some (request, .server replyHandler callback, result, error)) :
      Step phone { phone with main }
  | answer (phone : Phone) (main : PhoneQueue) (request replyHandler : Nat)
      (callback : WatchServer.Callback) (result : Option AnyValue) (error : Option ErrorValue)
      (htodo : phone.todo = none) (hmain : phone.main.mainStep = some main)
      (hstarting : phone.main.starting = none)
      (hinvoking : phone.main.invoking =
        some (request, .server replyHandler callback, result, error)) :
      Step phone (answer { phone with main } replyHandler callback result)
  | ask (phone : Phone) (main : PhoneQueue) (call : NewsApi.Call) (htodo : phone.todo = none)
      (hmain : phone.main.mainStep = some main)
      (hstarting : phone.main.starting = some (.screen call)) :
      Step phone (getNews { phone with main } call .screen)
  | handle (phone : Phone) (main : PhoneQueue) (message : Message) (replyHandler : Nat)
      (htodo : phone.todo = none) (hmain : phone.main.mainStep = some main)
      (hstarting : phone.main.starting = some (.received message replyHandler)) :
      Step phone (handle { phone with main } message replyHandler)

omit [Foundation] in
theorem split_at_index {Item : Type} {items : List Item} {index : Nat} {item : Item}
    (hitem : items[index]? = some item) :
    ∃ before after, items = before ++ item :: after ∧ items.eraseIdx index = before ++ after := by
  obtain ⟨hindex, rfl⟩ := List.getElem?_eq_some_iff.mp hitem
  refine ⟨items.take index, items.drop (index + 1), ?_, List.eraseIdx_eq_take_drop_succ items index⟩
  rw [List.getElem_cons_drop, List.take_append_drop]

variable {phone next : Phone}

theorem mainStep_step (hnext : phone.mainStep = some next) : Step phone next := by
  unfold mainStep at hnext
  split at hnext
  next request callback htodo =>
    obtain rfl := Option.some.inj hnext
    exact .register phone request callback htodo
  next htodo =>
    obtain ⟨main, hmain, rfl⟩ := Option.map_eq_some_iff.mp hnext
    dsimp only
    split
    next _ message replyHandler hstarting =>
      exact .handle phone main message replyHandler htodo hmain hstarting
    next _ call hstarting => exact .ask phone main call htodo hmain hstarting
    next request replyHandler callback result error hstarting hinvoking =>
      exact .answer phone main request replyHandler callback result error htodo hmain hstarting
        hinvoking
    next hstarting hother => exact .idle phone main htodo hmain hstarting hother

theorem step_step {action : Action} (hnext : phone.step action = some next) :
    phone.halted = none ∧ Step phone next := by
  unfold step at hnext
  cases hhalted : phone.halted with
  | some trap => simp [hhalted] at hnext
  | none =>
      rw [hhalted] at hnext
      refine ⟨rfl, ?_⟩
      cases action with
      | receive message =>
          obtain rfl := Option.some.inj hnext
          exact .receive phone message
      | browse call =>
          obtain rfl := Option.some.inj hnext
          exact .browse phone call
      | listen request =>
          obtain ⟨hrequest, hnext⟩ := Option.ite_none_right_eq_some.mp hnext
          obtain rfl := Option.some.inj hnext
          exact .listen phone request hrequest
      | complete index outcome =>
          obtain ⟨task, htask, rfl⟩ := Option.map_eq_some_iff.mp hnext
          obtain ⟨before, after, htasks, herase⟩ := split_at_index htask
          obtain ⟨result, error, hcalls⟩ := task.complete_single outcome
          rw [herase, hcalls]
          exact .settle phone before after task result error htasks
      | retrieve index image =>
          obtain ⟨replyHandler, hhandler, rfl⟩ := Option.map_eq_some_iff.mp hnext
          obtain ⟨before, after, hretrievals, herase⟩ := split_at_index hhandler
          rw [herase]
          exact .retrieve phone before after replyHandler image hretrievals
      | main => exact mainStep_step hnext

/-! ## The code that a step runs -/

/-- A call whose place is taken resumes nothing. -/
theorem getNews_of_occupied {call : NewsApi.Call} {request : Nat} (callback : PhoneCallback)
    (hslot : phone.news.api.occupant call.slot = some request) :
    phone.getNews call callback = { phone with
      news := phone.news.perform call
      todo := some (request, callback) } := by
  have hanswer := NewsApi.call_of_occupied phone.news.created hslot
  simp [getNews, requestFor, resumedFor, hanswer]

/-- A call whose place is empty starts the download for a new request. -/
theorem getNews_of_empty {call : NewsApi.Call} (callback : PhoneCallback)
    (hslot : phone.news.api.occupant call.slot = none) :
    phone.getNews call callback = { phone with
      news := phone.news.perform call
      tasks := phone.tasks ++ (call.download.start phone.news.created).toList
      todo := some (phone.news.created, callback) } := by
  have hanswer := NewsApi.call_of_empty phone.news.created hslot
  simp [getNews, requestFor, resumedFor, hanswer]

theorem answer_frame (phone : Phone) (replyHandler : Nat) (callback : WatchServer.Callback)
    (result : Option AnyValue) : ∃ halted tables replies,
      phone.answer replyHandler callback result = { phone with halted, tables, replies } := by
  unfold answer
  split
  · exact ⟨_, _, phone.replies, rfl⟩
  · exact ⟨phone.halted, _, _, rfl⟩

theorem handle_frame (phone : Phone) (message : Message) (replyHandler : Nat) :
    (∃ halted tables handled replies retrievals, phone.handle message replyHandler =
      { phone with halted, tables, handled, replies, retrievals }) ∨
      ∃ call callback tables handled, phone.handle message replyHandler =
        { phone.getNews call callback with tables, handled } := by
  unfold handle
  split
  · exact .inl ⟨_, phone.tables, _, phone.replies, phone.retrievals, rfl⟩
  · exact .inl ⟨phone.halted, _, _, phone.replies, phone.retrievals, rfl⟩
  · exact .inl ⟨phone.halted, _, _, _, phone.retrievals, rfl⟩
  · exact .inr ⟨_, _, _, _, rfl⟩
  · exact .inl ⟨phone.halted, _, _, phone.replies, _, rfl⟩

variable {modulePrefix : String}

/-- What handling a message does, as a function of what the message reads. -/
theorem handle_cases (htables : RegisteredTables modulePrefix phone.tables) (message : Message)
    (replyHandler : Nat) : ∃ tables, RegisteredTables modulePrefix tables ∧
      ((∃ halted entry, (entry = .trapped ∨ entry = .dropped) ∧
          (∀ handling, ¬ WatchServer.Reads modulePrefix message handling) ∧
          phone.handle message replyHandler =
            { phone with tables, halted, handled := phone.handled ++ [(replyHandler, entry)] }) ∨
        (∃ reply, WatchServer.Reads modulePrefix message (.replied reply) ∧
          phone.handle message replyHandler = { phone with
            tables
            handled := phone.handled ++ [(replyHandler, .replied reply)]
            replies := phone.replies ++ [(replyHandler, reply)] }) ∨
        (∃ call callback, WatchServer.Reads modulePrefix message (.news call callback) ∧
          phone.handle message replyHandler =
            { phone.getNews call (.server replyHandler callback) with
              tables
              handled := phone.handled ++
                [(replyHandler, .news call callback (phone.requestFor call))] }) ∨
        (∃ url, WatchServer.Reads modulePrefix message (.retrieveImage url) ∧
          phone.handle message replyHandler = { phone with
            tables
            handled := phone.handled ++ [(replyHandler, .image url)]
            retrievals := phone.retrievals ++ [replyHandler] })) := by
  unfold handle
  cases hmessage : WatchServer.didReceiveMessage message phone.tables with
  | error trap =>
      refine ⟨phone.tables, htables, .inl ⟨some trap, .trapped, .inl rfl, ?_, rfl⟩⟩
      intro handling hreads
      obtain ⟨tables', hhandled⟩ := hreads.didReceiveMessage htables
      simp [hmessage] at hhandled
  | ok outcome =>
      obtain ⟨tables, handling⟩ := outcome
      obtain ⟨htables', hreads⟩ := WatchServer.didReceiveMessage_reads htables hmessage
      refine ⟨tables, htables', ?_⟩
      cases handling with
      | dropped =>
          refine .inl ⟨phone.halted, .dropped, .inr rfl, ?_, rfl⟩
          intro handling hreads
          obtain ⟨tables', hhandled⟩ := hreads.didReceiveMessage htables
          obtain ⟨-, rfl⟩ := Prod.mk.inj (Except.ok.inj (hmessage.symm.trans hhandled))
          exact nomatch hreads
      | replied reply => exact .inr (.inl ⟨reply, hreads.resolve_left nofun, rfl⟩)
      | news call callback =>
          exact .inr (.inr (.inl ⟨call, callback, hreads.resolve_left nofun, rfl⟩))
      | retrieveImage url => exact .inr (.inr (.inr ⟨url, hreads.resolve_left nofun, rfl⟩))

/-- What a callback of the server does: it replies as a function of the result. -/
theorem answer_cases (htables : RegisteredTables modulePrefix phone.tables) (replyHandler : Nat)
    (callback : WatchServer.Callback) (result : Option AnyValue) :
    ∃ tables halted, RegisteredTables modulePrefix tables ∧
      phone.answer replyHandler callback result = { phone with
        tables
        halted
        replies := phone.replies ++
          (callback.replyFor result).toList.map (Prod.mk replyHandler) } := by
  unfold answer
  rcases callback.reply_spec htables result with ⟨tables, hreply, htables'⟩ | ⟨trap, hreply, hnone⟩
  · refine ⟨tables, phone.halted, htables', ?_⟩
    rw [hreply]
  · refine ⟨phone.tables, some trap, htables, ?_⟩
    rw [hreply, hnone]
    simp

/-! ## The main queue of a phone -/

theorem Step.simulated (hstep : Step phone next) :
    ∃ schedule, Execution.execute MainQueue.step phone.main schedule = some next.main := by
  have hmainStep : ∀ {main : PhoneQueue}, phone.main.mainStep = some main →
      Execution.execute MainQueue.step phone.main [.main] = some main := by
    intro main hmain
    simp [MainQueue.step, hmain]
  cases hstep with
  | receive message => exact ⟨[.async _], rfl⟩
  | browse call => exact ⟨[.async _], rfl⟩
  | listen request hrequest => exact ⟨[.withResult _ _], rfl⟩
  | settle before after task result error htasks => exact ⟨[.setResult _ _ _], rfl⟩
  | retrieve before after replyHandler image hretrievals => exact ⟨[], rfl⟩
  | register request callback htodo => exact ⟨[.withResult _ _], rfl⟩
  | idle main htodo hmain hstarting hinvoking => exact ⟨[.main], hmainStep hmain⟩
  | answer main request replyHandler callback result error htodo hmain hstarting hinvoking =>
      obtain ⟨halted, tables, replies, heq⟩ := answer_frame { phone with main } replyHandler
        callback result
      rw [heq]
      exact ⟨[.main], hmainStep hmain⟩
  | ask main call htodo hmain hstarting => exact ⟨[.main], hmainStep hmain⟩
  | handle main message replyHandler htodo hmain hstarting =>
      rcases handle_frame { phone with main } message replyHandler with
        ⟨halted, tables, handled, replies, retrievals, heq⟩ | ⟨call, callback, tables, handled, heq⟩
      · rw [heq]
        exact ⟨[.main], hmainStep hmain⟩
      · rw [heq]
        exact ⟨[.main], hmainStep hmain⟩

/-- The main queue of a phone is one that runs. -/
theorem main_reachable {final : Phone} {schedule : List Action}
    (hrun : Execution.execute step (start modulePrefix) schedule = some final) :
    ∃ mainSchedule, Execution.execute MainQueue.step .start mainSchedule = some final.main :=
  Execution.execute_simulation Phone.main (fun _ _ _ hnext => (step_step hnext).2.simulated) hrun

end Phone

end NewsDay
