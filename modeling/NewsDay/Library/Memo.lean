import Mathlib.Logic.Function.Basic
import NewsDay.Library.Execution

/-! # Memoised lookup

A service is asked questions about keys, and seeks an answer for a key at most
once. What was found for a key stays, and so does a failure. The questions
about a key may be answered at any time after something was found for it, any
number of times and in any order, and always with what was found.
-/

namespace Memo

/-- What has become of the search for one key. -/
inductive Entry (Value : Type*)
  | idle
  | sought
  | found (value : Value)
  | failed

variable {Key Value : Type*}

/-- The value that was found. -/
def Entry.value? : Entry Value → Option Value
  | .found value => some value
  | _ => none

theorem Entry.value?_eq_some {entry : Entry Value} {value : Value} :
    entry.value? = some value ↔ entry = .found value := by
  cases entry <;> simp [Entry.value?]

/-- How a search ends. -/
def Entry.settled : Option Value → Entry Value
  | some value => .found value
  | none => .failed

/-- A question need not be about a key, and is then never answered. -/
@[ext] structure Service (Key Value : Type*) where
  entry : Key → Entry Value
  asked : List (Option Key)
  /-- The answers that were given, each with the position of its question. -/
  told : List (Nat × Value)

namespace Service

/-- Nothing was asked or sought. -/
def start : Service Key Value where
  entry _ := .idle
  asked := []
  told := []

inductive Action (Key Value : Type*)
  | ask (key : Option Key)
  | seek (key : Key)
  | settle (key : Key) (answer : Option Value)
  | tell (index : Nat)

variable [DecidableEq Key] (service : Service Key Value)

def step : Action Key Value → Option (Service Key Value)
  | .ask key => some { service with asked := service.asked ++ [key] }
  | .seek key =>
      match service.entry key with
      | .idle => some { service with entry := Function.update service.entry key .sought }
      | _ => none
  | .settle key answer =>
      match service.entry key with
      | .sought =>
          some { service with entry := Function.update service.entry key (.settled answer) }
      | _ => none
  | .tell index =>
      service.asked[index]?.join.bind fun key => (service.entry key).value?.map fun value =>
        { service with told := service.told ++ [(index, value)] }

/-- What can happen, with what makes it possible. -/
inductive Step (service : Service Key Value) : Action Key Value → Service Key Value → Prop
  | ask (key : Option Key) :
      Step service (.ask key) { service with asked := service.asked ++ [key] }
  | seek (key : Key) (hidle : service.entry key = .idle) :
      Step service (.seek key)
        { service with entry := Function.update service.entry key .sought }
  | settle (key : Key) (answer : Option Value) (hsought : service.entry key = .sought) :
      Step service (.settle key answer)
        { service with entry := Function.update service.entry key (.settled answer) }
  | tell (index : Nat) (key : Key) (value : Value)
      (hasked : service.asked[index]? = some (some key))
      (hfound : service.entry key = .found value) :
      Step service (.tell index) { service with told := service.told ++ [(index, value)] }

variable {service} {next final : Service Key Value} {key : Key}

theorem step_of_step {action : Action Key Value} (hstep : Step service action next) :
    service.step action = some next := by
  cases hstep with
  | ask key => rfl
  | seek key hidle => simp only [step, hidle]
  | settle key answer hsought => simp only [step, hsought]
  | tell index key value hasked hfound =>
      simp only [step, hasked, Option.join_some, Option.bind_some, hfound, Entry.value?,
        Option.map_some]

theorem step_step {action : Action Key Value} (hnext : service.step action = some next) :
    Step service action next := by
  cases action with
  | ask key =>
      obtain rfl := Option.some.inj hnext
      exact .ask key
  | seek key =>
      simp only [step] at hnext
      split at hnext
      next hidle =>
        obtain rfl := Option.some.inj hnext
        exact .seek key hidle
      next => cases hnext
  | settle key answer =>
      simp only [step] at hnext
      split at hnext
      next hsought =>
        obtain rfl := Option.some.inj hnext
        exact .settle key answer hsought
      next => cases hnext
  | tell index =>
      obtain ⟨key, hasked, hnext⟩ := Option.bind_eq_some_iff.mp hnext
      obtain ⟨value, hvalue, rfl⟩ := Option.map_eq_some_iff.mp hnext
      exact .tell index key value (Option.join_eq_some_iff.mp hasked)
        (Entry.value?_eq_some.mp hvalue)

/-! ## What stays -/

theorem Step.asked_grows {action : Action Key Value} (hstep : Step service action next) :
    service.asked <+: next.asked := by
  cases hstep with
  | ask key => exact List.prefix_append _ _
  | _ => exact List.prefix_refl _

/-- A search that has ended stays as it ended. -/
theorem Step.keeps {action : Action Key Value} (hstep : Step service action next)
    {answer : Option Value} (hsettled : service.entry key = .settled answer) :
    next.entry key = .settled answer := by
  have hended : service.entry key ≠ .idle ∧ service.entry key ≠ .sought := by
    rw [hsettled]
    cases answer <;> simp [Entry.settled]
  cases hstep with
  | ask key' => exact hsettled
  | seek key' hidle =>
      have hother : key ≠ key' := by
        rintro rfl
        exact hended.1 hidle
      exact (Function.update_of_ne hother _ _).trans hsettled
  | settle key' answer' hsought =>
      have hother : key ≠ key' := by
        rintro rfl
        exact hended.2 hsought
      exact (Function.update_of_ne hother _ _).trans hsettled
  | tell index key' value hasked hfound => exact hsettled

/-- An answer is what was found for the key of its question. -/
def Sound (service : Service Key Value) : Prop :=
  ∀ index value, (index, value) ∈ service.told →
    ∃ key, service.asked[index]? = some (some key) ∧ service.entry key = .found value

theorem Sound.step (hsound : service.Sound) {action : Action Key Value}
    (hstep : Step service action next) : next.Sound := by
  have hkept : ∀ index value, (index, value) ∈ service.told →
      ∃ key, next.asked[index]? = some (some key) ∧ next.entry key = .found value := by
    intro index value htold
    obtain ⟨key, hasked, hfound⟩ := hsound index value htold
    have hsettled : service.entry key = .settled (some value) := hfound
    exact ⟨key, Execution.getElem?_of_prefix hstep.asked_grows hasked, hstep.keeps hsettled⟩
  intro index value htold
  cases hstep with
  | tell index' key value' hasked hfound =>
      rcases List.mem_append.mp htold with hold | hnew
      · exact hkept index value hold
      · obtain ⟨rfl, rfl⟩ := Prod.mk.inj (List.mem_singleton.mp hnew)
        exact ⟨key, hasked, hfound⟩
  | _ => exact hkept index value htold

theorem sound {schedule : List (Action Key Value)}
    (hrun : Execution.execute step start schedule = some final) : final.Sound := by
  apply Execution.execute_invariant Sound (fun _ _ _ hsound hnext => hsound.step (step_step hnext))
    ?_ hrun
  intro index value htold
  exact absurd htold List.not_mem_nil

end Service

end Memo
