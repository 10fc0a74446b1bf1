import NewsDay.Network.MainQueueCalls
import NewsDay.Network.NewsApi
import NewsDay.Network.WatchClient

/-! # The watch as a process

The client of the watch keeps one request for the session, which activation
settles. A public function makes a new request and registers with the session's
request a callback that sends the message. The handlers of a message run on
other threads, at any moment and at most once for each message.
-/

namespace NewsDay

open Foundation

variable [Foundation]

/-- The closures that the watch registers. -/
inductive WatchCallback
  /-- Of a public function of the client: sends its message. -/
  | send (request : WatchRequest) (asyncRequest : Nat)
  | screen

/-- The block that the activation callback dispatches. -/
inductive WatchWork
  | activated

abbrev WatchQueue := MainQueue WatchCallback AnyValue ErrorValue WatchWork

/-- A message that was sent, and what its handlers have captured. -/
structure SentMessage where
  request : WatchRequest
  asyncRequest : Nat
  message : Message

structure Watch where
  main : WatchQueue
  /-- `WCSession.isReachable`. -/
  isReachable : Bool
  /-- The calls of the client's public functions. -/
  asked : List WatchRequest
  sent : List SentMessage
  /-- The positions of the messages neither of whose handlers has run. -/
  awaiting : List Nat
  tables : ModelTables
  /-- How the process was stopped, if it was. -/
  halted : Option Trap
  /-- The replies that reply handlers were given, with the positions of their
  messages. -/
  replied : List (Nat × Message)

namespace Watch

/-- `WatchClient.asyncSession`. -/
def asyncSession : Nat := 0

/-- The request that a call of a public function returns, by its position. -/
def requestOf (index : Nat) : Nat := index + 1

/-- A watch that has just been started. -/
def start (modulePrefix : String) : Watch where
  main := .start
  isReachable := false
  asked := []
  sent := []
  awaiting := []
  tables := processTables modulePrefix
  halted := none
  replied := []

variable (watch : Watch)

/-- A public function of the client. -/
def get (request : WatchRequest) : Watch :=
  { watch with
    main := watch.main.withResult asyncSession (.send request (requestOf watch.asked.length))
    asked := watch.asked ++ [request] }

/-- The block of `session(_:activationDidCompleteWith:error:)`. -/
def activated : Watch :=
  if watch.isReachable then
    { watch with main := watch.main.setResult asyncSession (some .session) none }
  -- the session's request stays unsettled
  else watch

/-- The callback of a public function, up to the end of `sendMessage`. -/
def send (anySession : Option AnyValue) (request : WatchRequest) (asyncRequest : Nat) : Watch :=
  match anySession.bind AnyValue.asSession with
  | none => { watch with main := watch.main.setResult asyncRequest none none }
  | some _ =>
      match request.message watch.tables with
      | .error trap => { watch with halted := some trap }
      | .ok (tables, message) => { watch with
          tables
          sent := watch.sent ++ [{ request, asyncRequest, message }]
          awaiting := watch.awaiting ++ [watch.sent.length] }

/-- The reply handler of a message. -/
def handleReply (index : Nat) (sent : SentMessage) (reply : Message) : Watch :=
  let watch := { watch with
    awaiting := watch.awaiting.erase index
    replied := watch.replied ++ [(index, reply)] }
  match sent.request.replied reply watch.tables with
  | .error trap => { watch with halted := some trap }
  -- a guard of the reply handler has failed, and the request waits on
  | .ok (tables, none) => { watch with tables }
  | .ok (tables, some (result, error)) => { watch with
      tables
      main := watch.main.setResult sent.asyncRequest result error }

/-- The error handler of a message. -/
def handleError (index : Nat) (sent : SentMessage) (error : ErrorValue) : Watch :=
  { watch with
    awaiting := watch.awaiting.erase index
    main := watch.main.setResult sent.asyncRequest none (some error) }

/-- A step of the main thread, with the code that it runs in it. -/
def mainStep : Option Watch :=
  watch.main.mainStep.map fun main =>
    let next := { watch with main }
    match watch.main.starting, watch.main.invoking with
    | some .activated, _ => next.activated
    | none, some (_, .send request asyncRequest, anySession, _) =>
        next.send anySession request asyncRequest
    | none, _ => next

/-- The message at a position, while its handlers have not run. -/
def awaited (index : Nat) : Option SentMessage :=
  if index ∈ watch.awaiting then watch.sent[index]? else none

/-- What can happen to a watch. -/
inductive Action
  /-- A screen calls a public function of the client. -/
  | get (request : WatchRequest)
  /-- A screen registers a callback with the request that a call has returned. -/
  | listen (index : Nat)
  /-- The session reports that its activation has ended. -/
  | activate
  /-- The phone comes into reach or leaves it. -/
  | reach (isReachable : Bool)
  /-- The session hands a reply to the handler of a message. -/
  | reply (index : Nat) (reply : Message)
  /-- The session reports an error to the handler of a message. -/
  | fail (index : Nat) (error : ErrorValue)
  | main

def perform : Action → Option Watch
  | .get request => some (watch.get request)
  | .listen index =>
      if index < watch.asked.length then
        some { watch with main := watch.main.withResult (requestOf index) .screen }
      else none
  | .activate => some { watch with main := watch.main.async .activated }
  | .reach isReachable => some { watch with isReachable }
  | .reply index reply => (watch.awaited index).map fun sent => watch.handleReply index sent reply
  | .fail index error => (watch.awaited index).map fun sent => watch.handleError index sent error
  | .main => watch.mainStep

/-- Nothing happens any more in a process that was stopped. -/
def step (action : Action) : Option Watch :=
  match watch.halted with
  | some _ => none
  | none => watch.perform action

end Watch

end NewsDay
