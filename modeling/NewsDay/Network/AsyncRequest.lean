import Mathlib.Logic.Function.Basic
import NewsDay.Library.Execution

/-! # Asynchronous requests on the main dispatch queue

An `AsyncRequest` is a future: `setResult` and `withResult` may be called from
any thread and only dispatch blocks onto the main queue, where the object's
fields are read and written. The queue is serial and first in, first out, and
each block runs to completion. Between any two statements of a running block,
and between any two callbacks, other code may dispatch further blocks.
-/

namespace NewsDay

variable {Callback Result Failure Work : Type}

/-- `class AsyncRequest`. The pending list is reset to `nil` once the first
result has been handed to the callbacks on it. -/
structure AsyncRequest (Callback Result Failure : Type) where
  result : Option Result
  error : Option Failure
  pending : Option (List Callback)

namespace AsyncRequest

/-- `AsyncRequest.init()`. -/
def init : AsyncRequest Callback Result Failure where
  result := none
  error := none
  pending := some []

/-- The three blocks that an `AsyncRequest` dispatches onto the main queue. -/
inductive Job (Callback Result Failure : Type)
  /-- Dispatched by `setResult`. -/
  | setResultMain (resultValue : Option Result) (resultError : Option Failure)
  /-- Dispatched by `withResult`: registers the callback. -/
  | register (callback : Callback)
  /-- Dispatched by a registration that finds the result already there. -/
  | deliver (callback : Callback)

/-- Where the main thread stands inside one of the blocks. -/
inductive Phase (Callback Result Failure : Type)
  /-- Before `result = resultValue`. -/
  | assignResult (resultValue : Option Result) (resultError : Option Failure)
  /-- Before `error = resultError`. -/
  | assignError (resultError : Option Failure)
  /-- Before `guard let validPending = self.pending`. -/
  | guardPending
  /-- In the loop over `validPending`, with these callbacks left. -/
  | callPending (remaining : List Callback)
  /-- Before `if self.pending != nil`. -/
  | checkPending (callback : Callback)
  /-- Before `callback(self.result, self.error)` in the late delivery. -/
  | callLate (callback : Callback)

/-- What an observer of one request sees, in order of occurrence. -/
inductive Event (Callback Result Failure : Type)
  /-- A call of `setResult`, on any thread. -/
  | setResult (result : Option Result) (error : Option Failure)
  /-- A call of `withResult`, on any thread. -/
  | withResult (callback : Callback)
  /-- A `setResultMain` block starts on the main queue. -/
  | settling (resultValue : Option Result) (resultError : Option Failure)
  /-- A registration block runs on the main queue. -/
  | registered (callback : Callback)
  /-- A callback is invoked with this pair. -/
  | invoked (callback : Callback) (result : Option Result) (error : Option Failure)

def Job.start : Job Callback Result Failure → Phase Callback Result Failure
  | .setResultMain resultValue resultError => .assignResult resultValue resultError
  | .register callback => .checkPending callback
  | .deliver callback => .callLate callback

def Job.startEvents : Job Callback Result Failure → List (Event Callback Result Failure)
  | .setResultMain resultValue resultError => [.settling resultValue resultError]
  | .register _ => []
  | .deliver _ => []

/-- Outcome of one statement of a block. -/
structure Effect (Callback Result Failure : Type) where
  object : AsyncRequest Callback Result Failure
  next : Option (Phase Callback Result Failure)
  dispatched : List (Job Callback Result Failure) := []
  events : List (Event Callback Result Failure) := []

/-- One statement of `setResultMain`, of `withResult`'s registration block, or
of its late delivery block. -/
def advance (request : AsyncRequest Callback Result Failure) :
    Phase Callback Result Failure → Effect Callback Result Failure
  | .assignResult resultValue resultError =>
      { object := { request with result := resultValue }
        next := some (.assignError resultError) }
  | .assignError resultError =>
      { object := { request with error := resultError }
        next := some .guardPending }
  | .guardPending =>
      match request.pending with
      -- `setResult` was called again, to update the data
      | none => { object := request, next := none }
      | some validPending => { object := request, next := some (.callPending validPending) }
  | .callPending (callback :: remaining) =>
      -- the two fields are read anew for each callback
      { object := request
        next := some (.callPending remaining)
        events := [.invoked callback request.result request.error] }
  | .callPending [] =>
      { object := { request with pending := none }, next := none }
  | .checkPending callback =>
      match request.pending with
      | some pending =>
          { object := { request with pending := some (pending ++ [callback]) }
            next := none
            events := [.registered callback] }
      | none =>
          -- a late callback waits for a block of its own
          { object := request
            next := none
            dispatched := [.deliver callback]
            events := [.registered callback] }
  | .callLate callback =>
      { object := request
        next := none
        events := [.invoked callback request.result request.error] }

/-! ## Reading a history -/

def Event.call? : Event Callback Result Failure → Option (Option Result × Option Failure)
  | .setResult result error => some (result, error)
  | _ => none

def Event.requested? : Event Callback Result Failure → Option Callback
  | .withResult callback => some callback
  | _ => none

def Event.settlement? : Event Callback Result Failure → Option (Option Result × Option Failure)
  | .settling resultValue resultError => some (resultValue, resultError)
  | _ => none

def Event.registration? : Event Callback Result Failure → Option Callback
  | .registered callback => some callback
  | _ => none

def Event.invocation? :
    Event Callback Result Failure → Option (Callback × Option Result × Option Failure)
  | .invoked callback result error => some (callback, result, error)
  | _ => none

variable (events : List (Event Callback Result Failure))

/-- The pairs passed to `setResult`, in order of the calls. -/
def setResults : List (Option Result × Option Failure) := events.filterMap Event.call?

/-- The callbacks passed to `withResult`, in order of the calls. -/
def withResults : List Callback := events.filterMap Event.requested?

/-- The pairs of the `setResultMain` blocks that have started. -/
def settlements : List (Option Result × Option Failure) := events.filterMap Event.settlement?

/-- The callbacks whose registration block has run. -/
def registrations : List Callback := events.filterMap Event.registration?

/-- The invocations made so far, each with the pair it received. -/
def invocations : List (Callback × Option Result × Option Failure) :=
  events.filterMap Event.invocation?

/-- The callbacks invoked so far. -/
def invoked : List Callback := (invocations events).map Prod.fst

/-- The callbacks whose registration block ran before the first
`setResultMain` block started. -/
def earlyRegistrations : List Callback :=
  registrations (events.takeWhile fun event => event.settlement?.isNone)

end AsyncRequest

open AsyncRequest

/-! ## The main queue -/

/-- A block on the main queue: one of an `AsyncRequest`, named by its
identity, or code of any other part of the program. -/
inductive Block (Callback Result Failure Work : Type)
  | request (id : Nat) (job : Job Callback Result Failure)
  | other (work : Work)

/-- The block that the main thread is running. -/
inductive Running (Callback Result Failure Work : Type)
  | request (id : Nat) (phase : Phase Callback Result Failure)
  | other (work : Work)

/-- Every `AsyncRequest` of a process, its main queue, what its main thread is
doing and the history of what happened to the requests. -/
structure MainQueue (Callback Result Failure Work : Type) where
  requests : Nat → AsyncRequest Callback Result Failure
  queue : List (Block Callback Result Failure Work)
  running : Option (Running Callback Result Failure Work)
  trace : List (Nat × Event Callback Result Failure)

namespace MainQueue

/-- A process in which nothing has happened: requests are in the state that
`AsyncRequest.init` leaves, and the main thread is idle. -/
def start : MainQueue Callback Result Failure Work where
  requests := fun _ => .init
  queue := []
  running := none
  trace := []

variable (main : MainQueue Callback Result Failure Work)

/-- `AsyncRequest.setResult`. -/
def setResult (id : Nat) (result : Option Result) (error : Option Failure) :
    MainQueue Callback Result Failure Work :=
  { main with
    queue := main.queue ++ [.request id (.setResultMain result error)]
    trace := main.trace ++ [(id, .setResult result error)] }

/-- `AsyncRequest.withResult`. -/
def withResult (id : Nat) (callback : Callback) : MainQueue Callback Result Failure Work :=
  { main with
    queue := main.queue ++ [.request id (.register callback)]
    trace := main.trace ++ [(id, .withResult callback)] }

/-- `DispatchQueue.main.async` of other code. -/
def async (work : Work) : MainQueue Callback Result Failure Work :=
  { main with queue := main.queue ++ [.other work] }

/-- The main thread executes one statement, or takes the next block. Foreign
code is over when the main thread is given its next step. -/
def mainStep : Option (MainQueue Callback Result Failure Work) :=
  match main.running with
  | none =>
      match main.queue with
      | [] => none
      | .request id job :: rest =>
          some { main with
            queue := rest
            running := some (.request id job.start)
            trace := main.trace ++ job.startEvents.map (Prod.mk id) }
      | .other work :: rest => some { main with queue := rest, running := some (.other work) }
  | some (.request id phase) =>
      let effect := (main.requests id).advance phase
      some {
        requests := Function.update main.requests id effect.object
        queue := main.queue ++ effect.dispatched.map (.request id)
        running := effect.next.map (.request id)
        trace := main.trace ++ effect.events.map (Prod.mk id) }
  | some (.other _) => some { main with running := none }

inductive Action (Callback Result Failure Work : Type)
  | setResult (id : Nat) (result : Option Result) (error : Option Failure)
  | withResult (id : Nat) (callback : Callback)
  | async (work : Work)
  | main

/-- Calls may come from any thread at any moment, also while a block or a
callback is running. -/
def step : Action Callback Result Failure Work → Option (MainQueue Callback Result Failure Work)
  | .setResult id result error => some (main.setResult id result error)
  | .withResult id callback => some (main.withResult id callback)
  | .async work => some (main.async work)
  | .main => main.mainStep

/-- Nothing is queued and nothing is running. -/
def Drained : Prop := main.running = none ∧ main.queue = []

end MainQueue

end NewsDay
