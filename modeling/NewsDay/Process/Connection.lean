import Mathlib.Data.List.Infix
import NewsDay.Process.PhoneReplies
import NewsDay.Process.WatchMessages

/-! # The watch, the phone and the session between them

The session delivers a message once at most, and hands a reply of the phone to
the handler of the message that it answers; it may do neither, and in any
order. Everything else happens to one of the two processes alone.
-/

namespace NewsDay

variable [Foundation]

/-- The reply that an action hands to the watch. -/
def Watch.Action.reply? : Watch.Action → Option (Nat × Message)
  | .reply index answer => some (index, answer)
  | _ => none

/-- The message that an action delivers to the phone. -/
def Phone.Action.message? : Phone.Action → Option Message
  | .receive message => some message
  | _ => none

structure Connection where
  watch : Watch
  phone : Phone
  /-- For each message that the phone has received, its position among those
  that the watch has sent. -/
  delivered : List Nat

namespace Connection

/-- Two processes that have just been started. -/
def start (watchPrefix phonePrefix : String) : Connection where
  watch := .start watchPrefix
  phone := .start phonePrefix
  delivered := []

/-- What can happen to the two. -/
inductive Action
  | watch (action : Watch.Action)
  | phone (action : Phone.Action)
  /-- The session delivers a message of the watch to the phone. -/
  | deliver (index : Nat)
  /-- The session hands a reply of the phone to the watch. -/
  | respond (index : Nat)

variable (connection : Connection)

def step : Action → Option Connection
  | .watch action =>
      match action.reply? with
      | some _ => none
      | none => (connection.watch.step action).map fun watch => { connection with watch }
  | .phone action =>
      match action.message? with
      | some _ => none
      | none => (connection.phone.step action).map fun phone => { connection with phone }
  | .deliver index =>
      if index ∈ connection.delivered then none
      else
        connection.watch.sent[index]?.bind fun sent =>
          (connection.phone.step (.receive sent.message)).map fun phone =>
            { connection with phone, delivered := connection.delivered ++ [index] }
  | .respond index =>
      connection.phone.replies[index]?.bind fun answer =>
        connection.delivered[answer.1]?.bind fun message =>
          (connection.watch.step (.reply message answer.2)).map fun watch =>
            { connection with watch }

/-- The steps of the two processes. -/
inductive Step : Connection → Connection → Prop
  | watch (connection : Connection) (action : Watch.Action) (watch : Watch)
      (hlocal : action.reply? = none) (hnext : connection.watch.step action = some watch) :
      Step connection { connection with watch }
  | phone (connection : Connection) (action : Phone.Action) (phone : Phone)
      (hlocal : action.message? = none) (hnext : connection.phone.step action = some phone) :
      Step connection { connection with phone }
  | deliver (connection : Connection) (index : Nat) (sent : SentMessage) (phone : Phone)
      (hfresh : index ∉ connection.delivered) (hsent : connection.watch.sent[index]? = some sent)
      (hnext : connection.phone.step (.receive sent.message) = some phone) :
      Step connection { connection with phone, delivered := connection.delivered ++ [index] }
  | respond (connection : Connection) (replyHandler message : Nat) (reply : Message)
      (watch : Watch) (hreply : (replyHandler, reply) ∈ connection.phone.replies)
      (hmessage : connection.delivered[replyHandler]? = some message)
      (hnext : connection.watch.step (.reply message reply) = some watch) :
      Step connection { connection with watch }

variable {connection} {next : Connection}

theorem step_step {action : Action} (hnext : connection.step action = some next) :
    Step connection next := by
  cases action with
  | watch action =>
      simp only [step] at hnext
      split at hnext
      next => exact absurd hnext.symm (Option.some_ne_none next)
      next hlocal =>
        obtain ⟨watch, hwatch, rfl⟩ := Option.map_eq_some_iff.mp hnext
        exact .watch connection action watch hlocal hwatch
  | phone action =>
      simp only [step] at hnext
      split at hnext
      next => exact absurd hnext.symm (Option.some_ne_none next)
      next hlocal =>
        obtain ⟨phone, hphone, rfl⟩ := Option.map_eq_some_iff.mp hnext
        exact .phone connection action phone hlocal hphone
  | deliver index =>
      simp only [step] at hnext
      split at hnext
      next => exact absurd hnext.symm (Option.some_ne_none next)
      next hfresh =>
        obtain ⟨sent, hsent, hnext⟩ := Option.bind_eq_some_iff.mp hnext
        obtain ⟨phone, hphone, rfl⟩ := Option.map_eq_some_iff.mp hnext
        exact .deliver connection index sent phone hfresh hsent hphone
  | respond index =>
      obtain ⟨⟨replyHandler, reply⟩, hreply, hnext⟩ := Option.bind_eq_some_iff.mp hnext
      obtain ⟨message, hmessage, hnext⟩ := Option.bind_eq_some_iff.mp hnext
      obtain ⟨watch, hwatch, rfl⟩ := Option.map_eq_some_iff.mp hnext
      exact .respond connection replyHandler message reply watch (List.mem_of_getElem? hreply)
        hmessage hwatch

end Connection

/-! ## What one process shows to the other -/

theorem Watch.Step.sent_grows {watch next : Watch} (hstep : Watch.Step watch next) :
    watch.sent <+: next.sent := by
  cases hstep with
  | reply index sent reply hawaited =>
      rcases watch.handleReply_cases index sent reply with
        ⟨tables, halted, heq⟩ | ⟨tables, result, error, -, heq⟩
      · rw [heq]
      · rw [heq]
  | activated main hmain hstarting =>
      rcases Watch.activated_cases { watch with main } with ⟨-, heq⟩ | ⟨-, heq⟩
      · rw [heq]
      · rw [heq]
  | send main owner request asyncRequest anySession error hmain hstarting hinvoking =>
      rcases Watch.send_cases { watch with main } anySession request asyncRequest with
        ⟨-, heq⟩ | ⟨-, tables, message, -, heq⟩
      · rw [heq]
      · rw [heq]
        exact List.prefix_append _ _
  | _ => exact List.prefix_refl _

theorem Watch.mainStep_replied {watch next : Watch} (hnext : watch.mainStep = some next) :
    next.replied = watch.replied := by
  obtain ⟨main, -, rfl⟩ := Option.map_eq_some_iff.mp hnext
  dsimp only
  split
  · rcases Watch.activated_cases { watch with main } with ⟨-, heq⟩ | ⟨-, heq⟩
    · rw [heq]
    · rw [heq]
  next owner request asyncRequest anySession error _ _ =>
    rcases Watch.send_cases { watch with main } anySession request asyncRequest with
      ⟨-, heq⟩ | ⟨-, tables, message, -, heq⟩
    · rw [heq]
    · rw [heq]
  · rfl

/-- A watch records the replies that it is handed, and no others. -/
theorem Watch.step_replied {watch next : Watch} {action : Watch.Action}
    (hnext : watch.step action = some next) :
    next.replied = watch.replied ++ action.reply?.toList := by
  unfold Watch.step at hnext
  split at hnext
  next => exact absurd hnext.symm (Option.some_ne_none next)
  next =>
    cases action with
    | reply index reply =>
        obtain ⟨sent, -, rfl⟩ := Option.map_eq_some_iff.mp hnext
        rcases watch.handleReply_cases index sent reply with
          ⟨tables, halted, heq⟩ | ⟨tables, result, error, -, heq⟩
        · rw [heq]
          rfl
        · rw [heq]
          rfl
    | main =>
        rw [Watch.mainStep_replied hnext]
        exact (List.append_nil _).symm
    | listen index =>
        obtain ⟨-, hnext⟩ := Option.ite_none_right_eq_some.mp hnext
        obtain rfl := Option.some.inj hnext
        exact (List.append_nil _).symm
    | fail index error =>
        obtain ⟨sent, -, rfl⟩ := Option.map_eq_some_iff.mp hnext
        exact (List.append_nil _).symm
    | _ =>
        obtain rfl := Option.some.inj hnext
        exact (List.append_nil _).symm

theorem Phone.mainStep_received {phone next : Phone} (hnext : phone.mainStep = some next) :
    next.received = phone.received := by
  unfold Phone.mainStep at hnext
  split at hnext
  next =>
    obtain rfl := Option.some.inj hnext
    rfl
  next =>
    obtain ⟨main, -, rfl⟩ := Option.map_eq_some_iff.mp hnext
    dsimp only
    split
    next message replyHandler _ =>
      rcases Phone.handle_frame { phone with main } message replyHandler with
        ⟨_, _, _, _, _, heq⟩ | ⟨_, _, _, _, heq⟩
      · rw [heq]
      · rw [heq]
        rfl
    next => rfl
    next replyHandler callback result _ _ _ =>
      obtain ⟨_, _, _, heq⟩ := Phone.answer_frame { phone with main } replyHandler callback result
      rw [heq]
    next => rfl

/-- A phone receives the messages that are delivered to it, and no others. -/
theorem Phone.step_received {phone next : Phone} {action : Phone.Action}
    (hnext : phone.step action = some next) :
    next.received = phone.received ++ action.message?.toList := by
  unfold Phone.step at hnext
  split at hnext
  next => exact absurd hnext.symm (Option.some_ne_none next)
  next =>
    cases action with
    | receive message =>
        obtain rfl := Option.some.inj hnext
        rfl
    | browse call =>
        obtain rfl := Option.some.inj hnext
        exact (List.append_nil _).symm
    | listen request =>
        obtain ⟨-, hnext⟩ := Option.ite_none_right_eq_some.mp hnext
        obtain rfl := Option.some.inj hnext
        exact (List.append_nil _).symm
    | complete index outcome =>
        obtain ⟨task, -, rfl⟩ := Option.map_eq_some_iff.mp hnext
        exact (List.append_nil _).symm
    | retrieve index image =>
        obtain ⟨replyHandler, -, rfl⟩ := Option.map_eq_some_iff.mp hnext
        exact (List.append_nil _).symm
    | main =>
        rw [Phone.mainStep_received hnext]
        exact (List.append_nil _).symm

theorem Phone.handle_replies (phone : Phone) (message : Message) (replyHandler : Nat) :
    phone.replies <+: (phone.handle message replyHandler).replies := by
  unfold Phone.handle
  split
  next => exact List.prefix_refl _
  next => exact List.prefix_refl _
  next => exact List.prefix_append _ _
  next => exact List.prefix_refl _
  next => exact List.prefix_refl _

theorem Phone.answer_replies (phone : Phone) (replyHandler : Nat)
    (callback : WatchServer.Callback) (result : Option AnyValue) :
    phone.replies <+: (phone.answer replyHandler callback result).replies := by
  unfold Phone.answer
  split
  next => exact List.prefix_refl _
  next => exact List.prefix_append _ _

theorem Phone.Step.replies_grow {phone next : Phone} (hstep : Phone.Step phone next) :
    phone.replies <+: next.replies := by
  cases hstep with
  | retrieve before after replyHandler image hretrievals => exact List.prefix_append _ _
  | answer main request replyHandler callback result error htodo hmain hstarting hinvoking =>
      exact Phone.answer_replies { phone with main } replyHandler callback result
  | handle main message replyHandler htodo hmain hstarting =>
      exact Phone.handle_replies { phone with main } message replyHandler
  | _ => exact List.prefix_refl _

end NewsDay
