import Mathlib.Data.List.Basic

/-! # First faults

A computation that stops at the first thing wrong with its input. All that is
wrong is listed in the order in which the computation comes by it, without
regard to whether it gets that far; what the computation does is then a matter
of the head of the list. Lists are put together as the computation is.
-/

namespace FirstFault

universe u

variable {Fault Failure : Type*} {Value Next : Type u} (fault : Failure → Fault)

/-- The computation fails with the first of the faults; without one it ends
with a good value. -/
def Meets (faults : List Fault) (good : Value → Prop) : Except Failure Value → Prop
  | .error failure => faults.head? = some (fault failure)
  | .ok value => faults = [] ∧ good value

variable {fault} {faults more : List Fault} {good : Value → Prop} {better : Next → Prop}

theorem Meets.pure {value : Value} (hgood : good value) : Meets fault [] good (.ok value) :=
  ⟨rfl, hgood⟩

theorem Meets.fail (failure : Failure) (more : List Fault) :
    Meets fault (fault failure :: more) good (.error failure) := rfl

theorem Meets.imp {good' : Value → Prop} {outcome : Except Failure Value}
    (hmeets : Meets fault faults good outcome) (himp : ∀ value, good value → good' value) :
    Meets fault faults good' outcome := by
  cases outcome with
  | error failure => exact hmeets
  | ok value => exact ⟨hmeets.1, himp value hmeets.2⟩

/-- One computation after the other meets the faults of the one, then those of
the other. -/
theorem Meets.bind {outcome : Except Failure Value} {next : Value → Except Failure Next}
    (hmeets : Meets fault faults good outcome)
    (hnext : ∀ value, good value → Meets fault more better (next value)) :
    Meets fault (faults ++ more) better (outcome >>= next) := by
  cases outcome with
  | error failure =>
      have hhead : faults.head? = some (fault failure) := hmeets
      change (faults ++ more).head? = some (fault failure)
      rw [List.head?_append, hhead, Option.some_or]
  | ok value =>
      obtain ⟨rfl, hgood⟩ := hmeets
      exact hnext value hgood

theorem Meets.map {outcome : Except Failure Value} {make : Value → Next}
    (hmeets : Meets fault faults good outcome) (hmake : ∀ value, good value → better (make value)) :
    Meets fault faults better (outcome.map make) := by
  cases outcome with
  | error failure => exact hmeets
  | ok value => exact ⟨hmeets.1, hmake value hmeets.2⟩

/-! ## Lists -/

section Lists

variable {Element Result : Type} {compute : Element → Except Failure Result}
  {elements : List Element}

/-- A list whose elements cannot all be computed fails at one of them. -/
theorem exists_of_mapM_error {failure : Failure}
    (hfailed : elements.mapM compute = .error failure) :
    ∃ element ∈ elements, compute element = .error failure := by
  induction elements with
  | nil => cases hfailed
  | cons element rest ih =>
      rw [List.mapM_cons] at hfailed
      cases hfirst : compute element with
      | error failure' =>
          rw [hfirst] at hfailed
          obtain rfl := Except.error.inj hfailed
          exact ⟨element, List.mem_cons_self, hfirst⟩
      | ok result =>
          rw [hfirst] at hfailed
          cases hrest : rest.mapM compute with
          | error failure' =>
              rw [hrest] at hfailed
              obtain rfl := Except.error.inj hfailed
              obtain ⟨found, hfound, hcompute⟩ := ih hrest
              exact ⟨found, List.mem_cons_of_mem _ hfound, hcompute⟩
          | ok results =>
              rw [hrest] at hfailed
              cases hfailed

/-- What is computed of a list is computed of its elements. -/
theorem exists_of_mem_mapM {results : List Result} (hcomputed : elements.mapM compute = .ok results)
    {result : Result} (hresult : result ∈ results) :
    ∃ element ∈ elements, compute element = .ok result := by
  induction elements generalizing results with
  | nil =>
      obtain rfl := Except.ok.inj hcomputed
      exact absurd hresult List.not_mem_nil
  | cons element rest ih =>
      rw [List.mapM_cons] at hcomputed
      cases hfirst : compute element with
      | error failure =>
          rw [hfirst] at hcomputed
          cases hcomputed
      | ok first =>
          rw [hfirst] at hcomputed
          cases hrest : rest.mapM compute with
          | error failure =>
              rw [hrest] at hcomputed
              cases hcomputed
          | ok others =>
              rw [hrest] at hcomputed
              obtain rfl := Except.ok.inj hcomputed
              rcases List.mem_cons.mp hresult with rfl | hothers
              · exact ⟨element, List.mem_cons_self, hfirst⟩
              · obtain ⟨found, hfound, hcompute⟩ := ih hrest hothers
                exact ⟨found, List.mem_cons_of_mem _ hfound, hcompute⟩

end Lists

end FirstFault
