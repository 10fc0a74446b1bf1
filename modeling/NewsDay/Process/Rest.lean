import NewsDay.Network.MainQueueRest
import NewsDay.Process.Stopping

/-! # The two processes come to rest

When the screens ask for nothing more and nothing arrives from the network, the
two main threads, the messages and the replies come to an end, in whatever order
their steps are taken. What still has to be exchanged never grows; and as long
as it stays the same, the main threads have less and less to do.
-/

namespace NewsDay

open Foundation AsyncRequest

variable [Foundation]

/-! ## The watch -/

namespace Watch

variable {modulePrefix : String} {schedule : List Action} {watch next : Watch}

/-- The activation block may settle the session's request. -/
def weight : WatchWork → Nat
  | .activated => 1

theorem mainStep_asked (hnext : watch.mainStep = some next) : next.asked = watch.asked := by
  obtain ⟨main, -, rfl⟩ := Option.map_eq_some_iff.mp hnext
  dsimp only
  split
  next =>
    rcases activated_cases { watch with main } with ⟨-, heq⟩ | ⟨-, heq⟩
    · rw [heq]
    · rw [heq]
  next owner request asyncRequest anySession error _ _ =>
    rcases send_cases { watch with main } anySession request asyncRequest with
      ⟨-, heq⟩ | ⟨-, tables, message, -, heq⟩
    · rw [heq]
    · rw [heq]
  next => rfl

/-- A step of the main thread sends a message, or leaves less to do. -/
theorem mainStep_descends
    (hrun : Execution.execute step (start modulePrefix) schedule = some watch)
    (hnext : watch.mainStep = some next) :
    (∃ sent, next.sent = watch.sent ++ [sent] ∧
      next.awaiting.length = watch.awaiting.length + 1) ∨
    (next.sent = watch.sent ∧ next.awaiting = watch.awaiting ∧
      next.main.rank weight ≤ watch.main.rank weight ∧
        (next.main.rank weight < watch.main.rank weight ∨ next.main.left < watch.main.left)) := by
  obtain ⟨main, hmain, rfl⟩ := Option.map_eq_some_iff.mp hnext
  have hrank := MainQueue.mainStep_rank weight hmain
  dsimp only
  split
  next hstarting =>
    right
    simp only [hstarting, Option.elim_some, weight] at hrank
    rcases activated_cases { watch with main } with ⟨-, heq⟩ | ⟨-, heq⟩
    · simp only [heq, MainQueue.setResult_rank, true_and]
      omega
    · simp only [heq, true_and]
      omega
  next owner request asyncRequest anySession error hstarting hinvoking =>
    have hsession := invoking_session hrun hinvoking
    rcases send_cases { watch with main } anySession request asyncRequest with
      ⟨hnone, -⟩ | ⟨-, tables, message, -, heq⟩
    · exact absurd (hnone.symm.trans hsession) nofun
    · left
      simp [heq]
  next hstarting _ =>
    right
    simp only [hstarting, Option.elim_none] at hrank
    simp only [true_and]
    omega

/-- There are never more messages than calls. -/
theorem sent_length_le
    (hrun : Execution.execute step (start modulePrefix) schedule = some watch) :
    watch.sent.length ≤ watch.asked.length := by
  simpa [sendings, calls] using (sendings_follow_calls hrun).length_le

end Watch

/-! ## The phone -/

namespace Phone

variable {phone next : Phone}

/-- A block that asks for news registers a callback. -/
def weight : PhoneWork → Nat := fun _ => 4

/-- What the main thread has still to do, a registration included that the
running block is about to make. -/
def rank (phone : Phone) : Nat := phone.main.rank weight + phone.todo.elim 0 fun _ => 4

theorem mainStep_descends (hnext : phone.mainStep = some next) :
    next.rank ≤ phone.rank ∧ (next.rank < phone.rank ∨ next.main.left < phone.main.left) := by
  unfold mainStep at hnext
  split at hnext
  next request callback htodo =>
    obtain rfl := Option.some.inj hnext
    simp only [rank, htodo, MainQueue.withResult_rank, Option.elim_none, Option.elim_some]
    omega
  next htodo =>
    obtain ⟨main, hmain, rfl⟩ := Option.map_eq_some_iff.mp hnext
    have hrank := MainQueue.mainStep_rank weight hmain
    dsimp only
    split
    next message replyHandler hstarting =>
      simp only [hstarting, Option.elim_some, weight] at hrank
      rcases handle_frame { phone with main } message replyHandler with
        ⟨_, _, _, _, _, heq⟩ | ⟨_, _, _, _, heq⟩
      · rw [heq]
        simp only [rank, htodo, Option.elim_none]
        omega
      · rw [heq]
        simp only [rank, getNews, htodo, Option.elim_none, Option.elim_some]
        omega
    next call hstarting =>
      simp only [hstarting, Option.elim_some, weight] at hrank
      simp only [rank, getNews, htodo, Option.elim_none, Option.elim_some]
      omega
    next request replyHandler callback result error hstarting hinvoking =>
      simp only [hstarting, Option.elim_none] at hrank
      obtain ⟨_, _, _, heq⟩ := answer_frame { phone with main } replyHandler callback result
      rw [heq]
      simp only [rank, htodo, Option.elim_none]
      omega
    next hstarting _ =>
      simp only [hstarting, Option.elim_none] at hrank
      simp only [rank, htodo, Option.elim_none]
      omega

theorem at_rest_of_mainStep (hnone : phone.mainStep = none) :
    phone.todo = none ∧ phone.main.Drained := by
  unfold mainStep at hnone
  cases htodo : phone.todo with
  | some call =>
      rw [htodo] at hnone
      exact absurd hnone (Option.some_ne_none _)
  | none =>
      rw [htodo] at hnone
      exact ⟨rfl, MainQueue.drained_of_mainStep (Option.map_eq_none_iff.mp hnone)⟩

end Phone

/-! ## The two together -/

theorem Watch.mainStep_of_step {watch next : Watch} (hnext : watch.step .main = some next) :
    watch.mainStep = some next := by
  unfold Watch.step at hnext
  split at hnext
  next => exact absurd hnext.symm (Option.some_ne_none next)
  next => exact hnext

theorem Phone.mainStep_of_step {phone next : Phone} (hnext : phone.step .main = some next) :
    phone.mainStep = some next := by
  unfold Phone.step at hnext
  split at hnext
  next => exact absurd hnext.symm (Option.some_ne_none next)
  next => exact hnext

/-- A handed reply is no longer awaited. -/
theorem Watch.step_reply {watch next : Watch} {index : Nat} {reply : Message}
    (hnext : watch.step (.reply index reply) = some next) :
    next.asked = watch.asked ∧ next.sent = watch.sent ∧
      next.awaiting.length + 1 = watch.awaiting.length := by
  unfold Watch.step at hnext
  split at hnext
  next => exact absurd hnext.symm (Option.some_ne_none next)
  next =>
    obtain ⟨sent, hawaited, rfl⟩ := Option.map_eq_some_iff.mp hnext
    have hmem := (Watch.awaited_eq_some.mp hawaited).1
    have hlength := List.length_erase_add_one hmem
    rcases watch.handleReply_cases index sent reply with
      ⟨tables, halted, heq⟩ | ⟨tables, result, error, -, heq⟩
    · rw [heq]
      exact ⟨rfl, rfl, hlength⟩
    · rw [heq]
      exact ⟨rfl, rfl, hlength⟩

namespace Connection

variable {watchPrefix phonePrefix : String} {schedule : List Action}
  {connection next final : Connection}

/-- A step of one of the main threads or of the session, not of a screen and
not of the network. -/
def Action.Internal : Action → Prop
  | .watch .main | .phone .main | .deliver _ | .respond _ => True
  | _ => False

/-- What has still to be sent, delivered and answered. -/
def exchange (connection : Connection) : Nat :=
  3 * (connection.watch.asked.length - connection.watch.sent.length) +
    (connection.watch.sent.length - connection.delivered.length) +
      connection.watch.awaiting.length

/-- What has still to be exchanged, then what is queued, then what is running. -/
def measure (connection : Connection) : Nat × Nat × Nat :=
  (connection.exchange, connection.watch.main.rank Watch.weight + connection.phone.rank,
    connection.watch.main.left + connection.phone.main.left)

theorem delivered_nodup
    (hrun : Execution.execute step (start watchPrefix phonePrefix) schedule = some final) :
    final.delivered.Nodup := by
  refine Execution.execute_invariant (fun connection => connection.delivered.Nodup) ?_
    List.nodup_nil hrun
  intro connection action next hnodup hnext
  cases step_step hnext with
  | deliver index sent phone hfresh hsent hphone =>
      exact List.nodup_append.mpr ⟨hnodup, List.nodup_singleton index,
        fun _ hold _ hnew => fun heq => hfresh (List.mem_singleton.mp hnew ▸ heq ▸ hold)⟩
  | _ => exact hnodup

/-- There are never more deliveries than messages. -/
theorem delivered_length_le
    (hrun : Execution.execute step (start watchPrefix phonePrefix) schedule = some final) :
    final.delivered.length ≤ final.watch.sent.length := by
  have hbound : final.delivered ⊆ List.range final.watch.sent.length := by
    intro index hindex
    obtain ⟨replyHandler, hdelivered⟩ := List.mem_iff_getElem?.mp hindex
    obtain ⟨sent, hsent, -⟩ := (ledger hrun).arrived replyHandler index hdelivered
    exact List.mem_range.mpr (List.getElem?_eq_some_iff.mp hsent).1
  simpa using (List.subperm_of_subset (delivered_nodup hrun) hbound).length_le

theorem measure_lt_of_exchange (hexchange : next.exchange < connection.exchange) :
    WellFoundedRelation.rel next.measure connection.measure :=
  Prod.Lex.left _ _ hexchange

theorem measure_lt_of_main (hexchange : next.exchange = connection.exchange)
    (hrank : next.watch.main.rank Watch.weight + next.phone.rank ≤
      connection.watch.main.rank Watch.weight + connection.phone.rank)
    (hless : next.watch.main.rank Watch.weight + next.phone.rank <
        connection.watch.main.rank Watch.weight + connection.phone.rank ∨
      next.watch.main.left + next.phone.main.left <
        connection.watch.main.left + connection.phone.main.left) :
    WellFoundedRelation.rel next.measure connection.measure := by
  unfold measure
  rw [hexchange]
  refine Prod.Lex.right _ ?_
  rcases Nat.lt_or_eq_of_le hrank with hlower | hsame
  · exact Prod.Lex.left _ _ hlower
  · rw [hsame]
    exact Prod.Lex.right _ (hless.resolve_left (Nat.not_lt_of_le (Nat.le_of_eq hsame.symm)))

/-- Every step that is not made from outside makes the measure smaller. -/
theorem step_measure
    (hrun : Execution.execute step (start watchPrefix phonePrefix) schedule = some connection)
    {action : Action} (hinternal : action.Internal) (hnext : connection.step action = some next) :
    WellFoundedRelation.rel next.measure connection.measure := by
  have hrun' := Execution.execute_concat_eq_some.mpr ⟨connection, hrun, hnext⟩
  cases action with
  | watch action =>
      cases action with
      | main =>
          obtain ⟨watch, hwatch, rfl⟩ := Option.map_eq_some_iff.mp hnext
          obtain ⟨watchSchedule, hwatchRun⟩ := watch_reachable hrun
          obtain ⟨watchSchedule', hwatchRun'⟩ := watch_reachable hrun'
          have hmain := Watch.mainStep_of_step hwatch
          have hasked := Watch.mainStep_asked hmain
          have hbound := Watch.sent_length_le hwatchRun'
          have hdelivered := delivered_length_le hrun
          rcases Watch.mainStep_descends hwatchRun hmain with
            ⟨sent, hsent, hawaiting⟩ | ⟨hsent, hawaiting, hrank, hless⟩
          · refine measure_lt_of_exchange ?_
            simp only [exchange, hasked, hsent, hawaiting, List.length_append,
              List.length_singleton] at hbound ⊢
            omega
          · refine measure_lt_of_main ?_ ?_ ?_
            · simp only [exchange, hasked, hsent, hawaiting]
            · dsimp only
              omega
            · dsimp only
              omega
      | _ => exact absurd hinternal not_false
  | phone action =>
      cases action with
      | main =>
          obtain ⟨phone, hphone, rfl⟩ := Option.map_eq_some_iff.mp hnext
          obtain ⟨hrank, hless⟩ := Phone.mainStep_descends (Phone.mainStep_of_step hphone)
          refine measure_lt_of_main rfl ?_ ?_
          · dsimp only
            omega
          · dsimp only
            omega
      | _ => exact absurd hinternal not_false
  | deliver index =>
      obtain ⟨-, hnext⟩ := Option.ite_none_left_eq_some.mp hnext
      obtain ⟨sent, -, hnext⟩ := Option.bind_eq_some_iff.mp hnext
      obtain ⟨phone, -, rfl⟩ := Option.map_eq_some_iff.mp hnext
      have hbound := delivered_length_le hrun'
      refine measure_lt_of_exchange ?_
      simp only [exchange, List.length_append, List.length_singleton] at hbound ⊢
      omega
  | respond index =>
      obtain ⟨answer, -, hnext⟩ := Option.bind_eq_some_iff.mp hnext
      obtain ⟨message, -, hnext⟩ := Option.bind_eq_some_iff.mp hnext
      obtain ⟨watch, hwatch, rfl⟩ := Option.map_eq_some_iff.mp hnext
      obtain ⟨hasked, hsent, hawaiting⟩ := Watch.step_reply hwatch
      refine measure_lt_of_exchange ?_
      simp only [exchange, hasked, hsent]
      omega

/-- A state that a run has reached. -/
def Reachable (watchPrefix phonePrefix : String) (connection : Connection) : Prop :=
  ∃ schedule, Execution.execute step (start watchPrefix phonePrefix) schedule = some connection

theorem descends (watchPrefix phonePrefix : String) :
    Execution.Descends step (Reachable watchPrefix phonePrefix) Action.Internal measure where
  keeps := by
    rintro connection action next ⟨schedule, hrun⟩ - hnext
    exact ⟨schedule ++ [action], Execution.execute_concat_eq_some.mpr ⟨connection, hrun, hnext⟩⟩
  smaller := by
    rintro connection action next ⟨schedule, hrun⟩ hinternal hnext
    exact step_measure hrun hinternal hnext

/-- Nothing is left to be done by the two processes and the session. -/
structure AtRest (connection : Connection) : Prop where
  watch : connection.watch.main.Drained
  phone : connection.phone.main.Drained
  todo : connection.phone.todo = none
  delivered : ∀ index < connection.watch.sent.length, index ∈ connection.delivered
  /-- A message that the phone has replied to is not awaited any more. -/
  answered : ∀ replyHandler reply index, (replyHandler, reply) ∈ connection.phone.replies →
    connection.delivered[replyHandler]? = some index → index ∉ connection.watch.awaiting

/-- Two running processes that can take no more steps of their own are at rest. -/
theorem atRest_of_exhausted
    (hrun : Execution.execute step (start watchPrefix phonePrefix) schedule = some final)
    (hwatch : final.watch.halted = none) (hphone : final.phone.halted = none)
    (hexhausted : ∀ action : Action, action.Internal → final.step action = none) :
    final.AtRest := by
  have hphoneStep : ∀ action, final.phone.step action = final.phone.perform action := by
    intro action
    rw [Phone.step, hphone]
  have hwatchStep : ∀ action, final.watch.step action = final.watch.perform action := by
    intro action
    rw [Watch.step, hwatch]
  have hmain : final.watch.step .main = none :=
    Option.map_eq_none_iff.mp (hexhausted (.watch .main) trivial)
  have hmain' : final.phone.step .main = none :=
    Option.map_eq_none_iff.mp (hexhausted (.phone .main) trivial)
  rw [hwatchStep] at hmain
  rw [hphoneStep] at hmain'
  refine {
    watch := MainQueue.drained_of_mainStep (Option.map_eq_none_iff.mp hmain)
    phone := (Phone.at_rest_of_mainStep hmain').2
    todo := (Phone.at_rest_of_mainStep hmain').1
    delivered := ?_, answered := ?_ }
  · intro index hindex
    by_contra hfresh
    have hdeliver : final.step (.deliver index) = none := hexhausted (.deliver index) trivial
    rw [step, if_neg hfresh, List.getElem?_eq_getElem hindex, Option.bind_some,
      hphoneStep] at hdeliver
    exact absurd hdeliver (Option.some_ne_none _)
  · intro replyHandler reply index hreply hdelivered hawaiting
    obtain ⟨position, hposition⟩ := List.mem_iff_getElem?.mp hreply
    obtain ⟨sent, hsent, -⟩ := (ledger hrun).arrived replyHandler index hdelivered
    have hrespond : final.step (.respond position) = none := hexhausted (.respond position) trivial
    rw [step, hposition, Option.bind_some, hdelivered, Option.bind_some, hwatchStep] at hrespond
    have hawaited := Watch.awaited_eq_some.mpr ⟨hawaiting, hsent⟩
    rw [Watch.perform, hawaited] at hrespond
    exact absurd hrespond (Option.some_ne_none _)

theorem ends_at_rest (hfaithful : ArchivesFaithfully)
    (hrun : Execution.execute step (start watchPrefix phonePrefix) schedule = some final)
    (hexhausted : ∀ action : Action, action.Internal → final.step action = none) :
    final.AtRest ∨ final.phone.halted = some .integerOverflow := by
  cases hhalted : final.phone.halted with
  | none => exact .inl (atRest_of_exhausted hrun (watch_runs hfaithful hrun) hhalted hexhausted)
  | some trap => exact .inr (congrArg some (phone_stops hfaithful hrun hhalted).1)

/-- From whatever state a run has reached, the main threads and the session
cannot go on forever on their own, in whatever order they take their steps. They
can go on until no step is left, and then nothing is left to be done, unless the
phone has been stopped. -/
theorem comes_to_rest (hfaithful : ArchivesFaithfully)
    (hrun : Execution.execute step (start watchPrefix phonePrefix) schedule = some final) :
    (∀ (states : Nat → Connection) (actions : Nat → Action), states 0 = final →
      (∀ time, (actions time).Internal) →
        ¬ ∀ time, step (states time) (actions time) = some (states (time + 1))) ∧
      (∃ later last, (∀ action ∈ later, action.Internal) ∧
        Execution.execute step final later = some last ∧
          (∀ action : Action, action.Internal → last.step action = none) ∧
            (last.AtRest ∨ last.phone.halted = some .integerOverflow)) ∧
        ((∀ action : Action, action.Internal → final.step action = none) →
          final.AtRest ∨ final.phone.halted = some .integerOverflow) := by
  have hdescends := descends watchPrefix phonePrefix
  refine ⟨?_, ?_, ends_at_rest hfaithful hrun⟩
  · intro states actions hinit hinternal
    exact hdescends.not_forever states actions (hinit ▸ ⟨schedule, hrun⟩) hinternal
  · obtain ⟨later, last, hinternal, hlater, -, hexhausted⟩ :=
      hdescends.exists_exhausted final ⟨schedule, hrun⟩
    exact ⟨later, last, hinternal, hlater, hexhausted,
      ends_at_rest hfaithful (Execution.execute_append_of_eq_some hrun hlater) hexhausted⟩

section Samples

omit [Foundation]

theorem comes_to_rest_sources :
    letI : Foundation := .sample
    ∃ final later last, Execution.execute step (start "Watch" "NewsDay") sourcesSchedule =
      some final ∧ (∀ action ∈ later, action.Internal) ∧
        Execution.execute step final later = some last ∧
          (∀ action : Action, action.Internal → last.step action = none) ∧
            (last.AtRest ∨ last.phone.halted = some .integerOverflow) := by
  let _ : Foundation := .sample
  obtain ⟨final, request, hrun, -⟩ := sourcesSchedule_holds
  obtain ⟨later, last, hlater⟩ := (comes_to_rest sample_archivesFaithfully hrun).2.1
  exact ⟨final, later, last, hrun, hlater⟩

end Samples

end Connection

end NewsDay
