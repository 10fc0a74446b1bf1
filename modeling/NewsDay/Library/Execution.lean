import Mathlib.Data.List.Basic
import Mathlib.Data.List.Induction
import Mathlib.Order.WellFounded

/-! # Executions of guarded step functions

A system is a step function that answers `none` when an action is not enabled.
One definition serves both replay of a concrete schedule and proofs about every
schedule: invariants and simulations are established for one step here and
extended to whole runs once.
-/

namespace Execution

variable {State Action : Type*}

/-- Run a schedule; `none` when some action along the way is not enabled. -/
def execute (step : State → Action → Option State) : State → List Action → Option State
  | state, [] => some state
  | state, action :: rest => (step state action).bind fun next => execute step next rest

variable {step : State → Action → Option State}

@[simp] theorem execute_nil (state : State) : execute step state [] = some state := rfl

@[simp] theorem execute_cons (state : State) (action : Action) (rest : List Action) :
    execute step state (action :: rest) =
      (step state action).bind fun next => execute step next rest := rfl

theorem execute_cons_eq_some {state final : State} {action : Action} {rest : List Action} :
    execute step state (action :: rest) = some final ↔
      ∃ next, step state action = some next ∧ execute step next rest = some final := by
  simp [Option.bind_eq_some_iff]

theorem execute_append (state : State) (first second : List Action) :
    execute step state (first ++ second) =
      (execute step state first).bind fun middle => execute step middle second := by
  induction first generalizing state with
  | nil => rfl
  | cons action rest ih => simp only [List.cons_append, execute_cons, ih, Option.bind_assoc]

theorem execute_append_of_eq_some {state middle final : State} {first second : List Action}
    (hfirst : execute step state first = some middle)
    (hsecond : execute step middle second = some final) :
    execute step state (first ++ second) = some final := by
  rw [execute_append, hfirst]
  exact hsecond

theorem execute_concat_eq_some {state final : State} {schedule : List Action} {action : Action} :
    execute step state (schedule ++ [action]) = some final ↔
      ∃ middle, execute step state schedule = some middle ∧ step middle action = some final := by
  simp [execute_append, Option.bind_eq_some_iff]

/-- What holds at the start of a run and is kept when the run goes on holds of
every run and the state that it ends in. -/
theorem execute_induction {start : State} {motive : List Action → State → Prop}
    (hinit : motive [] start)
    (hstep : ∀ schedule state action next, execute step start schedule = some state →
      motive schedule state → step state action = some next → motive (schedule ++ [action]) next)
    {final : State} {schedule : List Action}
    (hrun : execute step start schedule = some final) : motive schedule final := by
  induction schedule using List.reverseRecOn generalizing final with
  | nil =>
      obtain rfl := Option.some.inj hrun
      exact hinit
  | append_singleton schedule action ih =>
      obtain ⟨middle, hmiddle, hnext⟩ := execute_concat_eq_some.mp hrun
      exact hstep schedule middle action final hmiddle (ih hmiddle) hnext

/-- A predicate kept by every enabled step is kept by every run. -/
theorem execute_invariant (invariant : State → Prop)
    (hstep : ∀ state action next, invariant state → step state action = some next →
      invariant next)
    {state final : State} {schedule : List Action} (hinit : invariant state)
    (hrun : execute step state schedule = some final) : invariant final := by
  induction schedule generalizing state with
  | nil =>
      obtain rfl := Option.some.inj hrun
      exact hinit
  | cons action rest ih =>
      obtain ⟨next, hnext, hrest⟩ := execute_cons_eq_some.mp hrun
      exact ih (hstep state action next hinit hnext) hrest

/-! ## Runs whose steps meet a condition -/

/-- The predicate holds of every state that the schedule reaches. -/
def StatesMeet (step : State → Action → Option State) (good : State → Prop) :
    State → List Action → Prop
  | state, [] => good state
  | state, action :: rest =>
      good state ∧ ∀ next, step state action = some next → StatesMeet step good next rest

/-- The condition holds of every step that the schedule takes, in the state
before the step. -/
def StepsMeet (step : State → Action → Option State) (condition : State → Action → Prop) :
    State → List Action → Prop
  | _, [] => True
  | state, action :: rest => ∀ next, step state action = some next →
      condition state action ∧ StepsMeet step condition next rest

theorem StatesMeet.head {good : State → Prop} {state : State} {schedule : List Action}
    (hmeet : StatesMeet step good state schedule) : good state := by
  cases schedule with
  | nil => exact hmeet
  | cons action rest => exact hmeet.1

/-- When a step from a good state leads to a good state exactly if it meets the
condition, the states of a run are good exactly if its steps meet it. -/
theorem statesMeet_iff_stepsMeet {good : State → Prop} {condition : State → Action → Prop}
    (invariant : State → Prop)
    (hinvariant : ∀ state action next, invariant state → step state action = some next →
      invariant next)
    (hstep : ∀ state action next, invariant state → good state → step state action = some next →
      (good next ↔ condition state action))
    {state : State} (hinit : invariant state) (hgood : good state) (schedule : List Action) :
    StatesMeet step good state schedule ↔ StepsMeet step condition state schedule := by
  induction schedule generalizing state with
  | nil => exact iff_of_true hgood trivial
  | cons action rest ih =>
      have hnext : ∀ next, step state action = some next → good next →
          (StatesMeet step good next rest ↔ StepsMeet step condition next rest) :=
        fun next hnext hgood' => ih (hinvariant state action next hinit hnext) hgood'
      constructor
      · rintro ⟨-, hrest⟩ next hstepped
        have hgood' := (hrest next hstepped).head
        exact ⟨(hstep state action next hinit hgood hstepped).mp hgood',
          (hnext next hstepped hgood').mp (hrest next hstepped)⟩
      · intro hsteps
        refine ⟨hgood, ?_⟩
        intro next hstepped
        obtain ⟨hcondition, hrest⟩ := hsteps next hstepped
        have hgood' := (hstep state action next hinit hgood hstepped).mpr hcondition
        exact (hnext next hstepped hgood').mpr hrest

/-! ## Runs that contain a step -/

/-- Some step of the run meets the condition, in the state before the step. -/
def Takes (step : State → Action → Option State) (start : State) (schedule : List Action)
    (condition : State → Action → Prop) : Prop :=
  ∃ before action after state, schedule = before ++ action :: after ∧
    execute step start before = some state ∧ condition state action

theorem not_takes_nil (start : State) (condition : State → Action → Prop) :
    ¬ Takes step start [] condition := by
  rintro ⟨before, action, after, -, hschedule, -⟩
  simp at hschedule

theorem Takes.append {start : State} {schedule : List Action} {condition : State → Action → Prop}
    (htakes : Takes step start schedule condition) (rest : List Action) :
    Takes step start (schedule ++ rest) condition := by
  obtain ⟨before, action, after, state, rfl, hbefore, hcondition⟩ := htakes
  exact ⟨before, action, after ++ rest, state, by simp, hbefore, hcondition⟩

theorem takes_concat_iff {start state : State} {schedule : List Action}
    {condition : State → Action → Prop} (hrun : execute step start schedule = some state)
    (action : Action) :
    Takes step start (schedule ++ [action]) condition ↔
      Takes step start schedule condition ∨ condition state action := by
  constructor
  · rintro ⟨before, taken, after, earlier, hschedule, hbefore, hcondition⟩
    rcases List.eq_nil_or_concat after with rfl | ⟨rest, last, rfl⟩
    · obtain ⟨rfl, hlast⟩ := List.append_inj' hschedule rfl
      obtain rfl := List.singleton_inj.mp hlast
      obtain rfl := Option.some.inj (hbefore.symm.trans hrun)
      exact .inr hcondition
    · have hsplit : schedule ++ [action] = (before ++ taken :: rest) ++ [last] := by
        simpa using hschedule
      obtain ⟨rfl, -⟩ := List.append_inj' hsplit rfl
      exact .inl ⟨before, taken, rest, earlier, rfl, hbefore, hcondition⟩
  · rintro (htakes | hcondition)
    · exact htakes.append [action]
    · exact ⟨schedule, action, [], state, rfl, hrun, hcondition⟩

/-- An entry of a log keeps its place when the log grows. -/
theorem getElem?_of_prefix {Entry : Type*} {log grown : List Entry} {index : Nat} {entry : Entry}
    (hgrown : log <+: grown) (hentry : log[index]? = some entry) : grown[index]? = some entry := by
  obtain ⟨rest, rfl⟩ := hgrown
  rw [List.getElem?_append_left (List.getElem?_eq_some_iff.mp hentry).1]
  exact hentry

/-- The entries of a log that has grown by one. -/
theorem getElem?_concat_eq_some {Entry : Type*} {log : List Entry} {last entry : Entry}
    {index : Nat} : (log ++ [last])[index]? = some entry ↔
      log[index]? = some entry ∨ index = log.length ∧ last = entry := by
  rcases Nat.lt_trichotomy index log.length with hold | hlast | hbeyond
  · rw [List.getElem?_append_left hold]
    exact (or_iff_left fun hlast => Nat.ne_of_lt hold hlast.1).symm
  · subst hlast
    simp
  · have hlength : (log ++ [last]).length ≤ index := by
      rw [List.length_append]
      exact hbeyond
    rw [List.getElem?_eq_none hlength, List.getElem?_eq_none (Nat.le_of_lt hbeyond)]
    simp [Nat.ne_of_gt hbeyond]

/-- When every step of one system is a finite run of another one, seen through
a projection of its states, every run is. -/
theorem execute_simulation {Abstract AbstractAction : Type*}
    {abstractStep : Abstract → AbstractAction → Option Abstract} (project : State → Abstract)
    (hstep : ∀ state action next, step state action = some next →
      ∃ schedule, execute abstractStep (project state) schedule = some (project next))
    {state final : State} {schedule : List Action}
    (hrun : execute step state schedule = some final) :
    ∃ abstractSchedule,
      execute abstractStep (project state) abstractSchedule = some (project final) := by
  induction schedule generalizing state with
  | nil =>
      obtain rfl := Option.some.inj hrun
      exact ⟨[], rfl⟩
  | cons action rest ih =>
      obtain ⟨next, hnext, hrest⟩ := execute_cons_eq_some.mp hrun
      obtain ⟨first, hfirst⟩ := hstep state action next hnext
      obtain ⟨second, hsecond⟩ := ih hrest
      exact ⟨first ++ second, execute_append_of_eq_some hfirst hsecond⟩

/-! ## Runs that come to an end -/

/-- Steps of the kind keep the invariant and make the measure smaller. -/
structure Descends {Measure : Type*} [WellFoundedRelation Measure]
    (step : State → Action → Option State) (invariant : State → Prop) (kind : Action → Prop)
    (measure : State → Measure) : Prop where
  keeps : ∀ state action next, invariant state → kind action → step state action = some next →
    invariant next
  smaller : ∀ state action next, invariant state → kind action → step state action = some next →
    WellFoundedRelation.rel (measure next) (measure state)

section Descends

variable {Measure : Type*} [WellFoundedRelation Measure] {invariant : State → Prop}
  {kind : Action → Prop} {measure : State → Measure}

/-- No run takes steps of the kind forever. -/
theorem Descends.not_forever (hdescends : Descends step invariant kind measure)
    (states : Nat → State) (actions : Nat → Action) (hinit : invariant (states 0))
    (hkind : ∀ time, kind (actions time)) :
    ¬ ∀ time, step (states time) (actions time) = some (states (time + 1)) := by
  intro hsteps
  have hinvariant : ∀ time, invariant (states time) := by
    intro time
    induction time with
    | zero => exact hinit
    | succ time ih => exact hdescends.keeps _ _ _ ih (hkind time) (hsteps time)
  have hwf : WellFounded (InvImage WellFoundedRelation.rel measure) :=
    InvImage.wf measure WellFoundedRelation.wf
  obtain ⟨-, ⟨time, rfl⟩, hleast⟩ := hwf.has_min (Set.range states) (Set.range_nonempty states)
  exact hleast _ ⟨time + 1, rfl⟩
    (hdescends.smaller _ _ _ (hinvariant time) (hkind time) (hsteps time))

/-- Steps of the kind can be taken until none is left to take. -/
theorem Descends.exists_exhausted (hdescends : Descends step invariant kind measure)
    (state : State) (hinvariant : invariant state) :
    ∃ schedule final, (∀ action ∈ schedule, kind action) ∧
      execute step state schedule = some final ∧ invariant final ∧
        ∀ action, kind action → step final action = none := by
  have hwf : WellFounded (InvImage WellFoundedRelation.rel measure) :=
    InvImage.wf measure WellFoundedRelation.wf
  induction state using hwf.induction with
  | _ state ih =>
      by_cases hexhausted : ∀ action, kind action → step state action = none
      · exact ⟨[], state, by simp, rfl, hinvariant, hexhausted⟩
      · simp only [not_forall] at hexhausted
        obtain ⟨action, hkind, henabled⟩ := hexhausted
        obtain ⟨next, hnext⟩ := Option.ne_none_iff_exists'.mp henabled
        obtain ⟨schedule, final, hkinds, hrun, hfinal, hnone⟩ := ih next
          (hdescends.smaller _ _ _ hinvariant hkind hnext)
          (hdescends.keeps _ _ _ hinvariant hkind hnext)
        refine ⟨action :: schedule, final, ?_, ?_, hfinal, hnone⟩
        · exact List.forall_mem_cons.mpr ⟨hkind, hkinds⟩
        · exact execute_cons_eq_some.mpr ⟨next, hnext, hrun⟩

end Descends

end Execution
