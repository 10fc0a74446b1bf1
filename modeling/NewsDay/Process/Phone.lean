import NewsDay.Network.MainQueueCalls
import NewsDay.Network.NewsApiCache
import NewsDay.Network.WatchServer

/-! # The phone as a process

The main thread of the phone handles messages from the watch and runs the code
of its screens; both ask the news service for requests and register callbacks
with them. Data tasks and image retrievals end at any moment, on other threads.
A message is named by its position in the list of those received, and so is the
reply handler that came with it. A screen that starts a download for a request
of its own shares only the queue with all this, and is left out.
-/

namespace NewsDay

open Foundation

variable [Foundation]

/-- The closures that the phone registers with requests of the news service. -/
inductive PhoneCallback
  | server (replyHandler : Nat) (callback : WatchServer.Callback)
  | screen

/-- The blocks that the phone dispatches besides those of its requests. -/
inductive PhoneWork
  | received (message : Message) (replyHandler : Nat)
  | screen (call : NewsApi.Call)

/-- What the block for a message did. -/
inductive Handled
  | trapped
  | dropped
  | replied (reply : Message)
  | news (call : NewsApi.Call) (callback : WatchServer.Callback) (request : Nat)
  | image (url : URL)

abbrev PhoneQueue := MainQueue PhoneCallback AnyValue ErrorValue PhoneWork

structure Phone where
  main : PhoneQueue
  news : NewsApi.History
  /-- The data tasks that have been resumed and have not ended. -/
  tasks : List DataTask
  tables : ModelTables
  /-- A call of `withResult` that the running block has still to make. -/
  todo : Option (Nat × PhoneCallback)
  /-- The reply handlers that wait for an image. -/
  retrievals : List Nat
  /-- How the process was stopped, if it was. -/
  halted : Option Trap
  received : List Message
  /-- What the blocks for messages did, each with its reply handler. -/
  handled : List (Nat × Handled)
  retrieved : List (Nat × Option UIImage)
  replies : List (Nat × Message)

namespace Phone

/-- A phone that has just been started. -/
def start (modulePrefix : String) : Phone where
  main := .start
  news := {}
  tasks := []
  tables := processTables modulePrefix
  todo := none
  retrievals := []
  halted := none
  received := []
  handled := []
  retrieved := []
  replies := []

variable (phone : Phone)

/-- The request that the news service returns for a call. -/
def requestFor (call : NewsApi.Call) : Nat :=
  (phone.news.api.call phone.news.created call).request

/-- The data tasks that a call resumes. -/
def resumedFor (call : NewsApi.Call) : List DataTask :=
  ((phone.news.api.call phone.news.created call).started.bind
    (Download.start (phone.requestFor call))).toList

/-- `NewsApi.getX(…).withResult`, up to the call of `withResult`. -/
def getNews (call : NewsApi.Call) (callback : PhoneCallback) : Phone :=
  { phone with
    news := phone.news.perform call
    tasks := phone.tasks ++ phone.resumedFor call
    todo := some (phone.requestFor call, callback) }

/-- The block of `session(_:didReceiveMessage:replyHandler:)`. -/
def handle (message : Message) (replyHandler : Nat) : Phone :=
  match WatchServer.didReceiveMessage message phone.tables with
  | .error trap => { phone with
      halted := some trap
      handled := phone.handled ++ [(replyHandler, .trapped)] }
  | .ok (tables, .dropped) => { phone with
      tables
      handled := phone.handled ++ [(replyHandler, .dropped)] }
  | .ok (tables, .replied reply) => { phone with
      tables
      handled := phone.handled ++ [(replyHandler, .replied reply)]
      replies := phone.replies ++ [(replyHandler, reply)] }
  | .ok (tables, .news call callback) =>
      { phone.getNews call (.server replyHandler callback) with
        tables
        handled := phone.handled ++ [(replyHandler, .news call callback (phone.requestFor call))] }
  | .ok (tables, .retrieveImage url) => { phone with
      tables
      handled := phone.handled ++ [(replyHandler, .image url)]
      retrievals := phone.retrievals ++ [replyHandler] }

/-- A callback of the server is invoked with a result. -/
def answer (replyHandler : Nat) (callback : WatchServer.Callback) (result : Option AnyValue) :
    Phone :=
  match callback.reply result phone.tables with
  | .error trap => { phone with halted := some trap }
  | .ok (tables, reply) => { phone with
      tables
      replies := phone.replies ++ reply.toList.map (Prod.mk replyHandler) }

/-- A step of the main thread, with the code that it runs in it. -/
def mainStep : Option Phone :=
  match phone.todo with
  | some (request, callback) =>
      -- the block that asked for news is still running
      some { phone with main := phone.main.withResult request callback, todo := none }
  | none => phone.main.mainStep.map fun main =>
      let next := { phone with main }
      match phone.main.starting, phone.main.invoking with
      | some (.received message replyHandler), _ => next.handle message replyHandler
      | some (.screen call), _ => next.getNews call .screen
      | none, some (_, .server replyHandler callback, result, _) =>
          next.answer replyHandler callback result
      | none, _ => next

/-- What can happen to a phone. -/
inductive Action
  /-- The session delivers a message. -/
  | receive (message : Message)
  /-- A screen dispatches a block that asks for news. -/
  | browse (call : NewsApi.Call)
  /-- A screen registers a callback with a request that it was given. -/
  | listen (request : Nat)
  /-- A data task ends. -/
  | complete (index : Nat) (outcome : TaskOutcome)
  /-- The retrieval of an image ends. -/
  | retrieve (index : Nat) (image : Option UIImage)
  | main

def settle (main : PhoneQueue) (call : SetResult) : PhoneQueue :=
  main.setResult call.request call.result call.error

def perform : Action → Option Phone
  | .receive message => some { phone with
      main := phone.main.async (.received message phone.received.length)
      received := phone.received ++ [message] }
  | .browse call => some { phone with main := phone.main.async (.screen call) }
  | .listen request =>
      if request < phone.news.created then
        some { phone with main := phone.main.withResult request .screen }
      else none
  | .complete index outcome => phone.tasks[index]?.map fun task => { phone with
      tasks := phone.tasks.eraseIdx index
      main := (task.complete outcome).foldl settle phone.main }
  | .retrieve index image => phone.retrievals[index]?.map fun replyHandler => { phone with
      retrievals := phone.retrievals.eraseIdx index
      retrieved := phone.retrieved ++ [(replyHandler, image)]
      replies := phone.replies ++ (WatchServer.imageReply image).toList.map
        (Prod.mk replyHandler) }
  | .main => phone.mainStep

/-- Nothing happens any more in a process that was stopped. -/
def step (action : Action) : Option Phone :=
  match phone.halted with
  | some _ => none
  | none => phone.perform action

end Phone

end NewsDay
