import Mathlib.Data.List.TakeWhile
import NewsDay.Network.AsyncRequestView

/-! # What callbacks receive, and in which order

The life of a request has four stages: nobody has settled it, its first
`setResultMain` block is on its way to the loop, the loop is calling the early
callbacks, and the request is settled. The stage determines where every
registered callback that has not been invoked is waiting. Order and values are
read off the stage.
-/

namespace NewsDay

open AsyncRequest

variable {Callback Result Failure Work : Type}

theorem filterMap_cons_toList {α β : Type} (f : α → Option β) (head : α) (tail : List α) :
    (head :: tail).filterMap f = (f head).toList ++ tail.filterMap f := by
  cases hhead : f head <;> simp [hhead]

namespace AsyncRequest

attribute [simp] Event.call? Event.requested? Event.settlement? Event.registration?
  Event.invocation?

@[simp] def Job.late? : Job Callback Result Failure → Option Callback
  | .deliver callback => some callback
  | _ => none

@[simp] def Job.settlement? : Job Callback Result Failure → Option (Option Result × Option Failure)
  | .setResultMain resultValue resultError => some (resultValue, resultError)
  | _ => none

@[simp] def Job.registration? : Job Callback Result Failure → Option Callback
  | .register callback => some callback
  | _ => none

/-- The callback that the running late delivery block is about to invoke. -/
@[simp] def Phase.late : Phase Callback Result Failure → List Callback
  | .callLate callback => [callback]
  | _ => []

/-- The callback that the running registration block is about to register. -/
@[simp] def Phase.registering : Phase Callback Result Failure → List Callback
  | .checkPending callback => [callback]
  | _ => []

section Histories

variable (first second : List (Event Callback Result Failure)) (event : Event Callback Result Failure)

@[simp] theorem setResults_singleton : setResults [event] = event.call?.toList := by
  rw [setResults, filterMap_cons_toList, List.filterMap_nil, List.append_nil]

@[simp] theorem withResults_singleton : withResults [event] = event.requested?.toList := by
  rw [withResults, filterMap_cons_toList, List.filterMap_nil, List.append_nil]

@[simp] theorem settlements_singleton : settlements [event] = event.settlement?.toList := by
  rw [settlements, filterMap_cons_toList, List.filterMap_nil, List.append_nil]

@[simp] theorem registrations_singleton : registrations [event] = event.registration?.toList := by
  rw [registrations, filterMap_cons_toList, List.filterMap_nil, List.append_nil]

@[simp] theorem invocations_singleton : invocations [event] = event.invocation?.toList := by
  rw [invocations, filterMap_cons_toList, List.filterMap_nil, List.append_nil]

@[simp] theorem setResults_append :
    setResults (first ++ second) = setResults first ++ setResults second :=
  List.filterMap_append

@[simp] theorem withResults_append :
    withResults (first ++ second) = withResults first ++ withResults second :=
  List.filterMap_append

@[simp] theorem settlements_append :
    settlements (first ++ second) = settlements first ++ settlements second :=
  List.filterMap_append

@[simp] theorem registrations_append :
    registrations (first ++ second) = registrations first ++ registrations second :=
  List.filterMap_append

@[simp] theorem invocations_append :
    invocations (first ++ second) = invocations first ++ invocations second :=
  List.filterMap_append

@[simp] theorem invoked_append : invoked (first ++ second) = invoked first ++ invoked second := by
  simp [invoked]

variable {first}

theorem settlement?_isNone_of_mem (hnone : settlements first = []) :
    ∀ event ∈ first, event.settlement?.isNone = true := by
  intro event hevent
  rw [List.filterMap_eq_nil_iff.mp hnone event hevent]
  rfl

/-- The first settlement closes the list of early registrations. -/
theorem earlyRegistrations_append_settling (hnone : settlements first = [])
    (resultValue : Option Result) (resultError : Option Failure) :
    earlyRegistrations (first ++ [.settling resultValue resultError]) = registrations first := by
  have hall := settlement?_isNone_of_mem hnone
  rw [earlyRegistrations, List.takeWhile_append_of_pos hall]
  simp [Event.settlement?]

/-- Nothing that happens after the first settlement changes it. -/
theorem earlyRegistrations_append_of_settled (hsettled : settlements first ≠ []) :
    earlyRegistrations (first ++ second) = earlyRegistrations first := by
  have hlength : (first.takeWhile fun event => event.settlement?.isNone).length ≠
      first.length := by
    intro hlength
    apply hsettled
    have htake := (List.takeWhile_prefix _).eq_of_length hlength
    rw [settlements, List.filterMap_eq_nil_iff]
    intro event hevent
    simpa using List.takeWhile_eq_self_iff.mp htake event hevent
  rw [earlyRegistrations, List.takeWhile_append, if_neg hlength, earlyRegistrations]

end Histories

end AsyncRequest

namespace RequestView

/-- Every settlement comes from a call that named both of its components, and
every registration from a call with that callback, in the order of the calls. -/
structure Ledger (view : RequestView Callback Result Failure) : Prop where
  settled : setResults view.events =
    settlements view.events ++ view.jobs.filterMap Job.settlement?
  registered : withResults view.events =
    registrations view.events ++ view.phase.elim [] Phase.registering ++
      view.jobs.filterMap Job.registration?

theorem Ledger.init : Ledger (⟨.init, [], none, []⟩ : RequestView Callback Result Failure) :=
  ⟨rfl, rfl⟩

/-- The two fields hold the pair of the last block that started, up to the
assignments which that block has still to execute. -/
def Stored (view : RequestView Callback Result Failure) : Prop :=
  ∀ pair, (settlements view.events).getLast? = some pair →
    match view.phase with
    | some (.assignResult resultValue resultError) => (resultValue, resultError) = pair
    | some (.assignError resultError) => (view.object.result, resultError) = pair
    | _ => (view.object.result, view.object.error) = pair

/-- The four stages in the life of a request. -/
inductive Stage (view : RequestView Callback Result Failure) : Prop
  | unsettled
      (hphase : view.phase = none ∨ ∃ callback, view.phase = some (.checkPending callback))
      (hpending : view.object.pending = some (registrations view.events))
      (hlate : view.jobs.filterMap Job.late? = [])
      (hsettlements : settlements view.events = [])
      (hinvoked : invoked view.events = [])
  | settling (pair : Option Result × Option Failure)
      (hphase : (∃ resultValue resultError,
          view.phase = some (.assignResult resultValue resultError)) ∨
        (∃ resultError, view.phase = some (.assignError resultError)) ∨
        view.phase = some .guardPending)
      (hpending : view.object.pending = some (registrations view.events))
      (hlate : view.jobs.filterMap Job.late? = [])
      (hsettlements : settlements view.events = [pair])
      (hinvoked : invoked view.events = [])
      (hearly : earlyRegistrations view.events = registrations view.events)
  | calling (pair : Option Result × Option Failure) (remaining : List Callback)
      (hphase : view.phase = some (.callPending remaining))
      (hlate : view.jobs.filterMap Job.late? = [])
      (hsettlements : settlements view.events = [pair])
      (horder : invoked view.events ++ remaining = registrations view.events)
      (hearly : earlyRegistrations view.events = registrations view.events)
  | settled
      (hphase : ∀ remaining, view.phase ≠ some (.callPending remaining))
      (hpending : view.object.pending = none)
      (hsettlements : settlements view.events ≠ [])
      (horder : invoked view.events ++ view.phase.elim [] Phase.late ++
        view.jobs.filterMap Job.late? = registrations view.events)
      (hearly : (earlyRegistrations view.events).length ≤ (invoked view.events).length)

theorem Stage.init : Stage (⟨.init, [], none, []⟩ : RequestView Callback Result Failure) :=
  .unsettled (.inl rfl) rfl rfl rfl rfl

variable {view next : RequestView Callback Result Failure}

theorem Ledger.step (hledger : view.Ledger) (hstep : Step view next) : next.Ledger := by
  obtain ⟨hsettled, hregistered⟩ := hledger
  cases hstep with
  | setResult result error =>
      constructor
      · simp [hsettled]
      · simp [hregistered]
  | withResult callback =>
      constructor
      · simp [hsettled]
      · simp [hregistered]
  | start job rest hphase hjobs =>
      rw [hjobs, filterMap_cons_toList] at hsettled hregistered
      rw [hphase] at hregistered
      cases job <;> constructor <;> simp [Job.start, Job.startEvents, hsettled, hregistered]
  | advance phase hphase =>
      rw [hphase] at hregistered
      cases phase with
      | assignResult resultValue resultError =>
          constructor <;> simp [advance, hsettled, hregistered]
      | assignError resultError =>
          constructor <;> simp [advance, hsettled, hregistered]
      | guardPending =>
          cases hpending : view.object.pending <;> constructor <;>
            simp [advance, hpending, hsettled, hregistered]
      | callPending remaining =>
          cases remaining <;> constructor <;> simp [advance, hsettled, hregistered]
      | checkPending callback =>
          cases hpending : view.object.pending <;> constructor <;>
            simp [advance, hpending, hsettled, hregistered]
      | callLate callback =>
          constructor <;> simp [advance, hsettled, hregistered]

/-- No statement of a running block is the start of a block. -/
theorem settlements_advance (object : AsyncRequest Callback Result Failure)
    (phase : Phase Callback Result Failure) : settlements (object.advance phase).events = [] := by
  cases phase with
  | assignResult resultValue resultError => rfl
  | assignError resultError => rfl
  | guardPending => cases hpending : object.pending <;> simp [advance, hpending, settlements]
  | callPending remaining => cases remaining <;> rfl
  | checkPending callback =>
      cases hpending : object.pending <;> simp [advance, hpending]
  | callLate callback => rfl

theorem Stored.init : Stored (⟨.init, [], none, []⟩ : RequestView Callback Result Failure) := by
  intro pair hpair
  simp [settlements] at hpair

theorem Stored.step (hstored : view.Stored) (hstep : Step view next) : next.Stored := by
  intro pair hpair
  cases hstep with
  | setResult result error => exact hstored pair (by simpa using hpair)
  | withResult callback => exact hstored pair (by simpa using hpair)
  | start job rest hphase hjobs =>
      cases job with
      | setResultMain resultValue resultError =>
          simpa [Job.start, Job.startEvents] using hpair
      | register callback =>
          have hfields := hstored pair (by simpa [Job.startEvents] using hpair)
          rw [hphase] at hfields
          exact hfields
      | deliver callback =>
          have hfields := hstored pair (by simpa [Job.startEvents] using hpair)
          rw [hphase] at hfields
          exact hfields
  | advance phase hphase =>
      have hbefore : (settlements view.events).getLast? = some pair := by
        simpa [settlements_advance] using hpair
      have hfields := hstored pair hbefore
      rw [hphase] at hfields
      cases phase with
      | assignResult resultValue resultError => exact hfields
      | assignError resultError => exact hfields
      | guardPending => cases hp : view.object.pending <;> simpa [advance, hp] using hfields
      | callPending remaining => cases remaining <;> exact hfields
      | checkPending callback =>
          cases hp : view.object.pending <;> simpa [advance, hp] using hfields
      | callLate callback => exact hfields

/-- A call only adds to the history and to the queue. -/
theorem Stage.append_call (hstage : view.Stage) (job : Job Callback Result Failure)
    (event : Event Callback Result Failure) (hjob : job.late? = none)
    (hsettlement : event.settlement? = none) (hregistration : event.registration? = none)
    (hinvocation : event.invocation? = none) :
    Stage { view with jobs := view.jobs ++ [job], events := view.events ++ [event] } := by
  have hjobs : (view.jobs ++ [job]).filterMap Job.late? = view.jobs.filterMap Job.late? := by
    rw [List.filterMap_append, filterMap_cons_toList, hjob]
    simp
  have hsettlements : settlements (view.events ++ [event]) = settlements view.events := by
    simp only [settlements_append, settlements_singleton, hsettlement, Option.toList_none,
      List.append_nil]
  have hregistrations : registrations (view.events ++ [event]) = registrations view.events := by
    simp only [registrations_append, registrations_singleton, hregistration, Option.toList_none,
      List.append_nil]
  have hinvoked' : invoked (view.events ++ [event]) = invoked view.events := by
    simp only [invoked, invocations_append, invocations_singleton, hinvocation,
      Option.toList_none, List.append_nil]
  cases hstage with
  | unsettled hphase hpending hlate hnone hinvoked =>
      exact .unsettled hphase (by rw [hregistrations]; exact hpending) (hjobs.trans hlate)
        (hsettlements.trans hnone) (hinvoked'.trans hinvoked)
  | settling pair hphase hpending hlate hpair hinvoked hearly =>
      have hne : settlements view.events ≠ [] := by simp [hpair]
      refine .settling pair hphase ?_ (hjobs.trans hlate) (hsettlements.trans hpair)
        (hinvoked'.trans hinvoked) ?_
      · rw [hregistrations]
        exact hpending
      · rw [earlyRegistrations_append_of_settled _ hne, hregistrations]
        exact hearly
  | calling pair remaining hphase hlate hpair horder hearly =>
      have hne : settlements view.events ≠ [] := by simp [hpair]
      refine .calling pair remaining hphase (hjobs.trans hlate) (hsettlements.trans hpair) ?_ ?_
      · rw [hinvoked', hregistrations]
        exact horder
      · rw [earlyRegistrations_append_of_settled _ hne, hregistrations]
        exact hearly
  | settled hphase hpending hne horder hearly =>
      refine .settled hphase hpending (hsettlements ▸ hne) ?_ ?_
      · rw [hinvoked', hregistrations, hjobs]
        exact horder
      · rw [earlyRegistrations_append_of_settled _ hne, hinvoked']
        exact hearly

theorem Stage.start (hstage : view.Stage) (job : Job Callback Result Failure)
    (rest : List (Job Callback Result Failure)) (hphase : view.phase = none)
    (hjobs : view.jobs = job :: rest) :
    Stage { view with
      jobs := rest, phase := some job.start, events := view.events ++ job.startEvents } := by
  cases hstage with
  | unsettled _ hpending hlate hnone hinvoked =>
      rw [hjobs, filterMap_cons_toList] at hlate
      cases job with
      | setResultMain resultValue resultError =>
          refine .settling (resultValue, resultError) (.inl ⟨resultValue, resultError, rfl⟩)
            ?_ (by simpa using hlate) ?_ ?_ ?_
          · simpa [Job.startEvents] using hpending
          · simp [Job.startEvents, hnone]
          · simpa [Job.startEvents, invoked] using hinvoked
          · rw [Job.startEvents, earlyRegistrations_append_settling hnone]
            simp
      | register callback =>
          refine .unsettled (.inr ⟨callback, rfl⟩) ?_ (by simpa using hlate) ?_ ?_
          · simpa [Job.startEvents] using hpending
          · simpa [Job.startEvents] using hnone
          · simpa [Job.startEvents] using hinvoked
      | deliver callback =>
          -- deliveries are dispatched once `pending` is gone
          simp at hlate
  | settling pair hsettling =>
      rw [hphase] at hsettling
      simp at hsettling
  | calling pair remaining hcalling =>
      rw [hphase] at hcalling
      simp at hcalling
  | settled _ hpending hne horder hearly =>
      rw [hjobs, filterMap_cons_toList, hphase] at horder
      refine .settled (by cases job <;> simp [Job.start]) hpending ?_ ?_ ?_
      · simp [hne]
      · cases job <;> simpa [Job.start, Job.startEvents, invoked] using horder
      · rw [earlyRegistrations_append_of_settled _ hne]
        cases job <;> simpa [Job.startEvents, invoked] using hearly

/-- One statement of a request's own block. -/
theorem Stage.advance (hstage : view.Stage) (phase : Phase Callback Result Failure)
    (hphase : view.phase = some phase) :
    Stage {
      object := (view.object.advance phase).object
      jobs := view.jobs ++ (view.object.advance phase).dispatched
      phase := (view.object.advance phase).next
      events := view.events ++ (view.object.advance phase).events } := by
  cases hstage with
  | unsettled hregistering hpending hlate hnone hinvoked =>
      obtain ⟨callback, rfl⟩ : ∃ callback, phase = .checkPending callback := by
        simpa [hphase] using hregistering
      simp only [AsyncRequest.advance, hpending]
      refine .unsettled (.inl rfl) ?_ (by simpa using hlate) ?_ ?_
      · simp
      · simpa using hnone
      · simpa [invoked] using hinvoked
  | settling pair hsettling hpending hlate hpair hinvoked hearly =>
      rw [hphase] at hsettling
      rcases hsettling with ⟨resultValue, resultError, hassign⟩ | ⟨resultError, hassign⟩ | hguard
      · obtain rfl := Option.some.inj hassign
        simp only [AsyncRequest.advance, List.append_nil]
        exact .settling pair (.inr (.inl ⟨resultError, rfl⟩)) hpending hlate hpair hinvoked hearly
      · obtain rfl := Option.some.inj hassign
        simp only [AsyncRequest.advance, List.append_nil]
        exact .settling pair (.inr (.inr rfl)) hpending hlate hpair hinvoked hearly
      · obtain rfl := Option.some.inj hguard
        simp only [AsyncRequest.advance, hpending, List.append_nil]
        refine .calling pair _ rfl hlate hpair ?_ hearly
        rw [hinvoked, List.nil_append]
  | calling pair remaining hcalling hlate hpair horder hearly =>
      obtain rfl : phase = .callPending remaining := by simpa [hphase] using hcalling
      have hne : settlements view.events ≠ [] := by simp [hpair]
      cases remaining with
      | cons callback remaining =>
          simp only [AsyncRequest.advance, List.append_nil]
          refine .calling pair remaining rfl hlate (by simpa using hpair) ?_ ?_
          · simpa [invoked] using horder
          · rw [earlyRegistrations_append_of_settled _ hne, hearly]
            simp
      | nil =>
          -- the loop is over, so every early callback has been invoked
          simp only [AsyncRequest.advance, List.append_nil] at horder ⊢
          refine .settled (by simp) rfl hne ?_ ?_
          · simpa [hlate] using horder
          · rw [hearly, horder]
  | settled hnot hpending hne horder hearly =>
      rw [hphase] at horder
      cases phase with
      | assignResult resultValue resultError =>
          simp only [AsyncRequest.advance, List.append_nil]
          exact .settled (by simp) hpending hne (by simpa using horder) hearly
      | assignError resultError =>
          simp only [AsyncRequest.advance, List.append_nil]
          exact .settled (by simp) hpending hne (by simpa using horder) hearly
      | guardPending =>
          simp only [AsyncRequest.advance, hpending, List.append_nil]
          exact .settled (by simp) hpending hne (by simpa using horder) hearly
      | callPending remaining => exact absurd hphase (hnot remaining)
      | checkPending callback =>
          simp only [AsyncRequest.advance, hpending]
          refine .settled (by simp) hpending (by simpa using hne) ?_ ?_
          · have hregistered := congrArg (· ++ [callback]) horder
            simpa [invoked, filterMap_cons_toList] using hregistered
          · rw [earlyRegistrations_append_of_settled _ hne]
            simpa [invoked] using hearly
      | callLate callback =>
          simp only [AsyncRequest.advance, List.append_nil]
          refine .settled (by simp) hpending (by simpa using hne) ?_ ?_
          · simpa [invoked] using horder
          · rw [earlyRegistrations_append_of_settled _ hne, invoked_append, List.length_append]
            omega

/-- The stages follow one another in order, each as far as its own statements. -/
theorem Stage.step (hstage : view.Stage) (hstep : Step view next) : next.Stage := by
  cases hstep with
  | setResult result error =>
      exact hstage.append_call (.setResultMain result error) (.setResult result error)
        rfl rfl rfl rfl
  | withResult callback =>
      exact hstage.append_call (.register callback) (.withResult callback) rfl rfl rfl rfl
  | start job rest hphase hjobs => exact hstage.start job rest hphase hjobs
  | advance phase hphase => exact hstage.advance phase hphase

end RequestView

end NewsDay
