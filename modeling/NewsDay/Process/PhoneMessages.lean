import Mathlib.Algebra.Order.Group.Multiset
import NewsDay.Process.PhoneNews

/-! # Where every message and every reply is

Messages are handled in the order in which they arrive, each once. What the
block for a message did is on record, and from the record follows which
callbacks the server has registered, which images it waits for, and where each
of its replies comes from.
-/

namespace NewsDay

open Foundation AsyncRequest

variable [Foundation]

def PhoneWork.message? : PhoneWork → Option (Nat × Message)
  | .received message replyHandler => some (replyHandler, message)
  | .screen _ => none

def PhoneCallback.server? : PhoneCallback → Option (Nat × WatchServer.Callback)
  | .server replyHandler callback => some (replyHandler, callback)
  | .screen => none

namespace Handled

def replied? : Handled → Option Message
  | .replied reply => some reply
  | _ => none

def news? : Handled → Option (WatchServer.Callback × Nat)
  | .news _ callback request => some (callback, request)
  | _ => none

def image? : Handled → Option URL
  | .image url => some url
  | _ => none

/-- The record is what handling this message leads to. -/
def Explains (modulePrefix : String) (message : Message) : Handled → Prop
  | .trapped | .dropped => ∀ handling, ¬ WatchServer.Reads modulePrefix message handling
  | .replied reply => WatchServer.Reads modulePrefix message (.replied reply)
  | .news call callback _ => WatchServer.Reads modulePrefix message (.news call callback)
  | .image url => WatchServer.Reads modulePrefix message (.retrieveImage url)

end Handled

/-- The server's part of the calls of `withResult`, by reply handler. -/
def serverCalls (calls : List (Nat × PhoneCallback)) : List (Nat × WatchServer.Callback × Nat) :=
  calls.filterMap fun call => call.2.server?.map fun server => (server.1, server.2, call.1)

/-- The replies of the server's callbacks. -/
def callbackReplies (calls : List (Nat × PhoneCallback × Option AnyValue × Option ErrorValue)) :
    List (Nat × Message) :=
  calls.filterMap fun call => call.2.1.server?.bind fun server =>
    (server.2.replyFor call.2.2.1).map (Prod.mk server.1)

/-- The messages whose blocks are still queued. -/
def queuedMessages (main : PhoneQueue) : List (Nat × Message) :=
  main.works.filterMap PhoneWork.message?

section Queues

variable (main : PhoneQueue) (request : Nat)

@[simp] theorem queuedMessages_async (work : PhoneWork) :
    queuedMessages (main.async work) = queuedMessages main ++ work.message?.toList := by
  rw [queuedMessages, MainQueue.async_works, List.filterMap_append, filterMap_cons_toList]
  simp [queuedMessages]

@[simp] theorem queuedMessages_setResult (result : Option AnyValue) (error : Option ErrorValue) :
    queuedMessages (main.setResult request result error) = queuedMessages main := by
  simp [queuedMessages]

@[simp] theorem queuedMessages_withResult (callback : PhoneCallback) :
    queuedMessages (main.withResult request callback) = queuedMessages main := by
  simp [queuedMessages]

/-- The main thread takes the message at the head of the queue. -/
theorem queuedMessages_mainStep {next : PhoneQueue} (hnext : main.mainStep = some next) :
    queuedMessages main = (main.starting.bind PhoneWork.message?).toList ++ queuedMessages next := by
  rw [queuedMessages, (MainQueue.mainStep_advanced hnext).works]
  cases hstarting : main.starting with
  | none => rfl
  | some work =>
      rw [Option.toList_some, List.singleton_append, filterMap_cons_toList]
      rfl

end Queues

omit [Foundation] in
@[simp] theorem serverCalls_append (first second : List (Nat × PhoneCallback)) :
    serverCalls (first ++ second) = serverCalls first ++ serverCalls second :=
  List.filterMap_append

@[simp] theorem callbackReplies_append
    (first second : List (Nat × PhoneCallback × Option AnyValue × Option ErrorValue)) :
    callbackReplies (first ++ second) = callbackReplies first ++ callbackReplies second :=
  List.filterMap_append

omit [Foundation] in
theorem mem_serverCalls {replyHandler request : Nat} {callback : WatchServer.Callback}
    {calls : List (Nat × PhoneCallback)} :
    (replyHandler, callback, request) ∈ serverCalls calls ↔
      (request, .server replyHandler callback) ∈ calls := by
  constructor
  · intro hmem
    obtain ⟨⟨owner, registered⟩, hcall, hserver⟩ := List.mem_filterMap.mp hmem
    obtain ⟨server, hregistered, hsame⟩ := Option.map_eq_some_iff.mp hserver
    cases registered with
    | server handler callback' =>
        obtain rfl := Option.some.inj hregistered
        simp only [Prod.mk.injEq] at hsame
        obtain ⟨rfl, rfl, rfl⟩ := hsame
        exact hcall
    | screen => exact absurd hregistered.symm (Option.some_ne_none server)
  · intro hcall
    exact List.mem_filterMap.mpr ⟨_, hcall, rfl⟩

theorem mem_callbackReplies {replyHandler : Nat} {reply : Message}
    {calls : List (Nat × PhoneCallback × Option AnyValue × Option ErrorValue)} :
    (replyHandler, reply) ∈ callbackReplies calls ↔
      ∃ request callback result error,
        (request, .server replyHandler callback, result, error) ∈ calls ∧
          callback.replyFor result = some reply := by
  constructor
  · intro hreply
    obtain ⟨⟨request, callback, result, error⟩, hcall, hserver⟩ := List.mem_filterMap.mp hreply
    cases callback with
    | screen => exact absurd hserver.symm (Option.some_ne_none _)
    | server owner callback =>
        obtain ⟨message, hmade, hsame⟩ := Option.map_eq_some_iff.mp hserver
        obtain ⟨rfl, rfl⟩ := Prod.mk.inj hsame
        exact ⟨request, callback, result, error, hcall, hmade⟩
  · rintro ⟨request, callback, result, error, hcall, hmade⟩
    refine List.mem_filterMap.mpr ⟨_, hcall, ?_⟩
    simp [PhoneCallback.server?, hmade]

namespace Phone

structure MessageLedger (modulePrefix : String) (phone : Phone) : Prop where
  tables : RegisteredTables modulePrefix phone.tables
  /-- Messages are handled in order. -/
  fifo : phone.handled.map Prod.fst ++ (queuedMessages phone.main).map Prod.fst =
    List.range phone.received.length
  arrived : ∀ entry ∈ queuedMessages phone.main, phone.received[entry.1]? = some entry.2
  explained : ∀ replyHandler entry, (replyHandler, entry) ∈ phone.handled →
    ∃ message, phone.received[replyHandler]? = some message ∧ entry.Explains modulePrefix message
  returned : ∀ replyHandler call callback request,
    (replyHandler, .news call callback request) ∈ phone.handled →
      (call, request) ∈ phone.news.returned
  /-- The server registers one callback for each message that asks for news. -/
  registered : serverCalls (phone.main.withResultCalls ++ phone.todo.toList) =
    Tagged.select Handled.news? phone.handled
  /-- Every reply was made by a block, by a callback or with an image. -/
  replied : (phone.replies : Multiset (Nat × Message)) =
    ↑(Tagged.select Handled.replied? phone.handled) + ↑(callbackReplies phone.main.callbackCalls) +
      ↑(Tagged.select WatchServer.imageReply phone.retrieved)
  /-- An image that was asked for is on its way or has been retrieved. -/
  retrieving : (phone.retrievals : Multiset Nat) + ↑(phone.retrieved.map Prod.fst) =
    ↑((Tagged.select Handled.image? phone.handled).map Prod.fst)

variable {modulePrefix : String} {phone next : Phone}

theorem MessageLedger.start (modulePrefix : String) :
    MessageLedger modulePrefix (start modulePrefix) where
  tables := .start modulePrefix
  fifo := rfl
  arrived := by
    intro entry hentry
    exact absurd hentry List.not_mem_nil
  explained := by
    intro replyHandler entry hentry
    exact absurd hentry List.not_mem_nil
  returned := by
    intro replyHandler call callback request hentry
    exact absurd hentry List.not_mem_nil
  registered := rfl
  replied := rfl
  retrieving := rfl

theorem MessageLedger.receive (hledger : phone.MessageLedger modulePrefix) (message : Message) :
    MessageLedger modulePrefix { phone with
      main := phone.main.async (.received message phone.received.length)
      received := phone.received ++ [message] } :=
  { hledger with
    fifo := by
      rw [queuedMessages_async, List.map_append, ← List.append_assoc, hledger.fifo,
        List.length_append, List.length_singleton, List.range_succ]
      rfl
    arrived := by
      intro entry hentry
      rw [queuedMessages_async, List.mem_append] at hentry
      rcases hentry with hold | hnew
      · exact Execution.getElem?_of_prefix (List.prefix_append _ _) (hledger.arrived entry hold)
      · obtain rfl := List.mem_singleton.mp hnew
        exact List.getElem?_concat_length
    explained := by
      intro replyHandler entry hentry
      obtain ⟨found, hfound, hexplains⟩ := hledger.explained replyHandler entry hentry
      exact ⟨found, Execution.getElem?_of_prefix (List.prefix_append _ _) hfound, hexplains⟩ }

theorem MessageLedger.browse (hledger : phone.MessageLedger modulePrefix) (call : NewsApi.Call) :
    MessageLedger modulePrefix { phone with main := phone.main.async (.screen call) } :=
  { hledger with
    fifo := by simpa [PhoneWork.message?] using hledger.fifo
    arrived := by simpa [PhoneWork.message?] using hledger.arrived }

theorem MessageLedger.listen (hledger : phone.MessageLedger modulePrefix) (request : Nat) :
    MessageLedger modulePrefix { phone with main := phone.main.withResult request .screen } :=
  { hledger with
    fifo := by simpa using hledger.fifo
    arrived := by simpa using hledger.arrived
    registered := by
      have hregistered := hledger.registered
      simpa [serverCalls, PhoneCallback.server?] using hregistered
    replied := by simpa using hledger.replied }

theorem MessageLedger.settle (hledger : phone.MessageLedger modulePrefix) (tasks : List DataTask)
    (request : Nat) (result : Option AnyValue) (error : Option ErrorValue) :
    MessageLedger modulePrefix { phone with
      tasks, main := phone.main.setResult request result error } :=
  { hledger with
    fifo := by simpa using hledger.fifo
    arrived := by simpa using hledger.arrived
    registered := by simpa using hledger.registered
    replied := by simpa using hledger.replied }

theorem MessageLedger.retrieve (hledger : phone.MessageLedger modulePrefix)
    {before after : List Nat} {replyHandler : Nat} (image : Option UIImage)
    (hretrievals : phone.retrievals = before ++ replyHandler :: after) :
    MessageLedger modulePrefix { phone with
      retrievals := before ++ after
      retrieved := phone.retrieved ++ [(replyHandler, image)]
      replies := phone.replies ++ (WatchServer.imageReply image).toList.map
        (Prod.mk replyHandler) } :=
  { hledger with
    replied := by
      rw [Tagged.select_append, Tagged.select_singleton, ← Multiset.coe_add, ← Multiset.coe_add,
        hledger.replied, add_assoc]
    retrieving := by
      have hretrieving := hledger.retrieving
      have hmiddle : (↑(before ++ replyHandler :: after) : Multiset Nat) =
          ↑(before ++ after) + ↑[replyHandler] := by
        rw [Multiset.coe_add, Multiset.coe_eq_coe]
        exact List.perm_middle.trans (List.perm_append_singleton _ _).symm
      rw [hretrievals, hmiddle] at hretrieving
      rw [List.map_append, ← Multiset.coe_add (phone.retrieved.map Prod.fst), ← hretrieving,
        add_assoc, add_comm (phone.retrieved.map Prod.fst : Multiset Nat)]
      rfl }

theorem MessageLedger.register (hledger : phone.MessageLedger modulePrefix) {request : Nat}
    {callback : PhoneCallback} (htodo : phone.todo = some (request, callback)) :
    MessageLedger modulePrefix { phone with
      main := phone.main.withResult request callback, todo := none } :=
  { hledger with
    fifo := by simpa using hledger.fifo
    arrived := by simpa using hledger.arrived
    registered := by
      have hregistered := hledger.registered
      rw [htodo] at hregistered
      simpa using hregistered
    replied := by simpa using hledger.replied }

/-! ## Steps of the main thread -/

/-- A step of the main thread that takes no message: the replies that it adds
are those of the callback that it invokes. -/
theorem MessageLedger.advance (hledger : phone.MessageLedger modulePrefix) {main : PhoneQueue}
    (hmain : phone.main.mainStep = some main)
    (hmessage : phone.main.starting.bind PhoneWork.message? = none) {tables : ModelTables}
    (htables : RegisteredTables modulePrefix tables) (halted : Option Trap) :
    MessageLedger modulePrefix { phone with
      main
      tables
      halted
      replies := phone.replies ++ callbackReplies phone.main.invoking.toList } := by
  have hadvanced := MainQueue.mainStep_advanced hmain
  have hqueued := queuedMessages_mainStep phone.main hmain
  rw [hmessage, Option.toList_none, List.nil_append] at hqueued
  refine { hledger with
    tables := htables, fifo := ?_, arrived := ?_, registered := ?_, replied := ?_ }
  · rw [← hqueued]
    exact hledger.fifo
  · rw [← hqueued]
    exact hledger.arrived
  · rw [hadvanced.withResultCalls]
    exact hledger.registered
  · rw [hadvanced.callbackCalls, callbackReplies_append, ← Multiset.coe_add, ← Multiset.coe_add,
      hledger.replied, add_right_comm,
      add_assoc (Tagged.select Handled.replied? phone.handled : Multiset (Nat × Message))]

/-- Code of a screen registers no callback of the server. -/
theorem MessageLedger.getNews (hledger : phone.MessageLedger modulePrefix)
    (htodo : phone.todo = none) (call : NewsApi.Call) :
    (phone.getNews call .screen).MessageLedger modulePrefix :=
  { hledger with
    returned := by
      intro replyHandler other callback request hentry
      exact List.mem_append_left _ (hledger.returned replyHandler other callback request hentry)
    registered := by
      have hregistered := hledger.registered
      rw [htodo] at hregistered
      simpa [Phone.getNews, serverCalls, PhoneCallback.server?] using hregistered }

/-- The block for a message puts on record what it does with it. -/
theorem MessageLedger.record (hledger : phone.MessageLedger modulePrefix) {main : PhoneQueue}
    {message : Message} {replyHandler : Nat} (htodo : phone.todo = none)
    (hmain : phone.main.mainStep = some main)
    (hstarting : phone.main.starting = some (.received message replyHandler)) (entry : Handled)
    (hexplains : entry.Explains modulePrefix message) {tables : ModelTables}
    (htables : RegisteredTables modulePrefix tables) (halted : Option Trap)
    (news : NewsApi.History) (tasks : List DataTask) (todo : Option (Nat × PhoneCallback))
    (hnews : ∀ returned ∈ phone.news.returned, returned ∈ news.returned)
    (hreturned : ∀ call callback request, entry = .news call callback request →
      (call, request) ∈ news.returned)
    (hregistered : serverCalls todo.toList = entry.news?.toList.map (Prod.mk replyHandler)) :
    MessageLedger modulePrefix { phone with
      main
      news
      tasks
      tables
      todo
      halted
      retrievals := phone.retrievals ++ entry.image?.toList.map fun _ => replyHandler
      handled := phone.handled ++ [(replyHandler, entry)]
      replies := phone.replies ++ entry.replied?.toList.map (Prod.mk replyHandler) } := by
  have hadvanced := MainQueue.mainStep_advanced hmain
  have hqueued := queuedMessages_mainStep phone.main hmain
  rw [hstarting, Option.bind_some, PhoneWork.message?, Option.toList_some, List.singleton_append]
    at hqueued
  have hinvoking := MainQueue.starting_invoking hstarting
  refine {
    tables := htables
    fifo := ?_, arrived := ?_, explained := ?_, returned := ?_, registered := ?_, replied := ?_,
    retrieving := ?_ }
  · have hfifo := hledger.fifo
    rw [hqueued] at hfifo
    simpa using hfifo
  · intro waiting hwaiting
    refine hledger.arrived waiting ?_
    rw [hqueued]
    exact List.mem_cons_of_mem _ hwaiting
  · intro owner found hfound
    rcases List.mem_append.mp hfound with hold | hnew
    · exact hledger.explained owner found hold
    · obtain ⟨rfl, rfl⟩ := Prod.mk.inj (List.mem_singleton.mp hnew)
      refine ⟨message, hledger.arrived (owner, message) ?_, hexplains⟩
      rw [hqueued]
      exact List.mem_cons_self
  · intro owner call callback request hfound
    rcases List.mem_append.mp hfound with hold | hnew
    · exact hnews _ (hledger.returned owner call callback request hold)
    · exact hreturned call callback request (Prod.mk.inj (List.mem_singleton.mp hnew)).2.symm
  · have hbefore := hledger.registered
    rw [htodo, Option.toList_none, List.append_nil] at hbefore
    rw [hadvanced.withResultCalls, serverCalls_append, hbefore, hregistered, Tagged.select_append,
      Tagged.select_singleton]
  · rw [hadvanced.callbackCalls, hinvoking, Option.toList_none, List.append_nil,
      Tagged.select_append, Tagged.select_singleton, ← Multiset.coe_add, ← Multiset.coe_add,
      hledger.replied, add_right_comm,
      add_right_comm (Tagged.select Handled.replied? phone.handled : Multiset (Nat × Message))]
  · rw [Tagged.select_append, Tagged.select_singleton, List.map_append, ← Multiset.coe_add,
      ← Multiset.coe_add, ← hledger.retrieving, add_right_comm]
    simp

theorem MessageLedger.handle (hledger : phone.MessageLedger modulePrefix) {main : PhoneQueue}
    {message : Message} {replyHandler : Nat} (htodo : phone.todo = none)
    (hmain : phone.main.mainStep = some main)
    (hstarting : phone.main.starting = some (.received message replyHandler)) :
    (Phone.handle { phone with main } message replyHandler).MessageLedger modulePrefix := by
  have hnone : serverCalls phone.todo.toList = [] := by
    rw [htodo]
    rfl
  have hbefore : RegisteredTables modulePrefix (Phone.tables { phone with main }) := hledger.tables
  obtain ⟨tables, htables, hcases⟩ := handle_cases hbefore message replyHandler
  rcases hcases with ⟨halted, entry, hentry, hreads, heq⟩ | ⟨reply, hreads, heq⟩ |
    ⟨call, callback, hreads, heq⟩ | ⟨url, hreads, heq⟩
  · rw [heq]
    rcases hentry with rfl | rfl
    · simpa [Handled.image?, Handled.replied?] using hledger.record htodo hmain hstarting
        .trapped hreads htables halted phone.news phone.tasks phone.todo (fun _ => id) nofun hnone
    · simpa [Handled.image?, Handled.replied?] using hledger.record htodo hmain hstarting
        .dropped hreads htables halted phone.news phone.tasks phone.todo (fun _ => id) nofun hnone
  · rw [heq]
    simpa [Handled.image?, Handled.replied?] using hledger.record htodo hmain hstarting
      (.replied reply) hreads htables phone.halted phone.news phone.tasks phone.todo (fun _ => id)
      nofun hnone
  · rw [heq]
    -- the call of `withResult` is still to come, so it is owed in `todo`
    have hrecord := hledger.record htodo hmain hstarting
      (.news call callback (phone.requestFor call)) hreads htables phone.halted
      (phone.news.perform call) (phone.tasks ++ phone.resumedFor call)
      (some (phone.requestFor call, .server replyHandler callback))
      (fun _ hold => List.mem_append_left _ hold) ?_ rfl
    · simp only [Handled.image?, Handled.replied?, Option.toList_none, List.map_nil,
        List.append_nil] at hrecord
      exact hrecord
    · rintro _ _ _ ⟨⟩
      exact List.mem_append_right _ (List.mem_singleton_self _)
  · rw [heq]
    simpa [Handled.image?, Handled.replied?] using hledger.record htodo hmain hstarting
      (.image url) hreads htables phone.halted phone.news phone.tasks phone.todo (fun _ => id)
      nofun hnone

theorem MessageLedger.step (hledger : phone.MessageLedger modulePrefix) (hstep : Step phone next) :
    next.MessageLedger modulePrefix := by
  cases hstep with
  | receive message => exact hledger.receive message
  | browse call => exact hledger.browse call
  | listen request hrequest => exact hledger.listen request
  | settle before after task result error htasks => exact hledger.settle _ _ result error
  | retrieve before after replyHandler image hretrievals =>
      exact hledger.retrieve image hretrievals
  | register request callback htodo => exact hledger.register htodo
  | idle main htodo hmain hstarting hinvoking =>
      -- the callback that is invoked, if any, is of a screen
      have hreplies : callbackReplies phone.main.invoking.toList = [] := by
        cases hcallback : phone.main.invoking with
        | none => rfl
        | some call =>
            obtain ⟨request, callback, result, error⟩ := call
            cases callback with
            | screen => rfl
            | server replyHandler callback => exact absurd hcallback (hinvoking _ _ _ _ _)
      have hmoved := hledger.advance hmain (by rw [hstarting]; rfl) hledger.tables
        phone.halted
      simpa [hreplies] using hmoved
  | answer main request replyHandler callback result error htodo hmain hstarting hinvoking =>
      have hbefore : RegisteredTables modulePrefix (Phone.tables { phone with main }) :=
        hledger.tables
      obtain ⟨tables, halted, htables, heq⟩ := answer_cases hbefore replyHandler callback result
      have hreplies : callbackReplies phone.main.invoking.toList =
          (callback.replyFor result).toList.map (Prod.mk replyHandler) := by
        rw [hinvoking, Option.toList_some, callbackReplies, filterMap_cons_toList]
        cases hreply : callback.replyFor result <;> simp [PhoneCallback.server?, hreply]
      have hmoved := hledger.advance hmain (by rw [hstarting]; rfl) htables halted
      rw [heq]
      rw [hreplies] at hmoved
      exact hmoved
  | ask main call htodo hmain hstarting =>
      have hmoved := hledger.advance hmain (by rw [hstarting]; rfl) hledger.tables
        phone.halted
      have hreplies : callbackReplies phone.main.invoking.toList = [] := by
        rw [MainQueue.starting_invoking hstarting]
        rfl
      have hmoved' : MessageLedger modulePrefix { phone with main } := by
        simpa [hreplies] using hmoved
      exact hmoved'.getNews htodo call
  | handle main message replyHandler htodo hmain hstarting =>
      exact hledger.handle htodo hmain hstarting

/-! ## Every run -/

variable {final : Phone} {schedule : List Action}

theorem messageLedger (hrun : Execution.execute step (start modulePrefix) schedule = some final) :
    final.MessageLedger modulePrefix :=
  Execution.execute_invariant (MessageLedger modulePrefix)
    (fun _ _ _ hledger hnext => hledger.step (step_step hnext).2) (.start modulePrefix) hrun

end Phone

end NewsDay
