import Mathlib.Data.Setoid.Basic
import NewsDay.Library.Memo
import NewsDay.Process.Holding
import NewsDay.Process.Stopping
import NewsDay.Process.WatchCalls

/-! # The two processes are a memoised lookup

Seen from the watch, the phone, the session and the news service together are a
service that seeks the news for each place of the cache once and answers from
what it has found. Every run of the two processes is a run of that service:
filling a place starts its search, the end of a data task ends it, and a
callback of the watch that is given news is an answer.
-/

namespace NewsDay

open Foundation AsyncRequest

variable [Foundation]

/-! ## The places of the cache -/

/-- Keys that differ only in how their characters are encoded name one place. -/
instance NewsApi.Slot.places : Setoid NewsApi.Slot := Setoid.ker NewsApi.Slot.norm

theorem NewsApi.Slot.equiv_iff {first second : NewsApi.Slot} :
    first ≈ second ↔ first.norm = second.norm := Iff.rfl

instance (first second : NewsApi.Slot) : Decidable (first ≈ second) :=
  decidable_of_iff _ NewsApi.Slot.equiv_iff.symm

/-- A place of the cache. -/
abbrev Place := Quotient NewsApi.Slot.places

/-- The place that a key names. -/
def NewsApi.Slot.place (slot : NewsApi.Slot) : Place := Quotient.mk _ slot

theorem NewsApi.Slot.place_eq {first second : NewsApi.Slot} :
    first.place = second.place ↔ first ≈ second := Quotient.eq

/-- What has become of a request of the news service. -/
def Phone.entryOf (phone : Phone) (request : Nat) : Memo.Entry AnyValue :=
  match Tagged.ownedBy request phone.main.setResultCalls with
  | [] => .sought
  | (result, _) :: _ => .settled result

/-- What has become of the search for the news in a place of the cache. -/
def Phone.entry (phone : Phone) (slot : NewsApi.Slot) : Memo.Entry AnyValue :=
  match phone.news.api.occupant slot with
  | none => .idle
  | some request => phone.entryOf request

/-- The answer that an invocation of a callback is, if it is one. -/
def WatchRequest.told? (asked : List WatchRequest) : WatchCall → Option (Nat × AnyValue)
  | (index + 1, .screen, some value, _) =>
      (asked[index]?.bind WatchRequest.slot).map fun _ => (index, value)
  | _ => none

/-- The service that watch and phone are. -/
def Connection.service (connection : Connection) : Memo.Service Place AnyValue where
  entry := Quotient.lift connection.phone.entry fun first second hsame => by
    unfold Phone.entry
    rw [NewsApi.occupant_congr _ (NewsApi.Slot.equiv_iff.mp hsame)]
  asked := connection.watch.asked.map fun request => request.slot.map NewsApi.Slot.place
  told := connection.watch.main.callbackCalls.filterMap
    (WatchRequest.told? connection.watch.asked)

/-! ## The phone -/

namespace Phone

variable {modulePrefix : String} {schedule : List Action} {phone next : Phone}

/-- Seen from the places of the cache, a step begins the search for one, or ends
it, or does neither. -/
inductive Searches (phone next : Phone) : Prop
  | quiet (hentry : ∀ slot, next.entry slot = phone.entry slot)
  | seeks (slot : NewsApi.Slot) (hidle : phone.entry slot = .idle)
      (hentry : ∀ slot', next.entry slot' = if slot ≈ slot' then .sought else phone.entry slot')
  | settles (slot : NewsApi.Slot) (answer : Option AnyValue) (hsought : phone.entry slot = .sought)
      (hentry : ∀ slot', next.entry slot' =
        if slot ≈ slot' then .settled answer else phone.entry slot')

theorem entry_congr (hnews : next.news.api = phone.news.api)
    (hcalls : next.main.setResultCalls = phone.main.setResultCalls) (slot : NewsApi.Slot) :
    next.entry slot = phone.entry slot := by
  simp only [entry, entryOf, hnews, hcalls]

/-- A request that has not been made has not been set. -/
theorem ownedBy_created
    (hrun : Execution.execute step (start modulePrefix) schedule = some phone) :
    Tagged.ownedBy phone.news.created phone.main.setResultCalls = [] := by
  have hledger := newsLedger hrun
  have hsingle := hledger.single phone.news.created
  have hfresh : phone.news.downloadsOf phone.news.created = [] := by
    apply Tagged.ownedBy_eq_nil
    rw [hledger.coherent.numbered]
    exact List.not_mem_range_self
  rw [hfresh, List.length_nil] at hsingle
  exact List.length_eq_zero_iff.mp (by omega)

/-- A request is in one place only. -/
theorem place_unique
    (hrun : Execution.execute step (start modulePrefix) schedule = some phone)
    {first second : NewsApi.Slot} {request : Nat}
    (hfirst : phone.news.api.occupant first = some request)
    (hsecond : phone.news.api.occupant second = some request) : first.norm = second.norm := by
  have hcoherent := (newsLedger hrun).coherent
  obtain ⟨call, -, hplace, hhanded⟩ := hcoherent.filled first request hfirst
  obtain ⟨call', -, hplace', hhanded'⟩ := hcoherent.filled second request hsecond
  have hsame := (hcoherent.downloadsOf_eq hhanded).symm.trans (hcoherent.downloadsOf_eq hhanded')
  have hslot : call.slot = call'.slot := by
    rw [← call.slot_download, ← call'.slot_download, List.singleton_inj.mp hsame]
  rw [← hplace, ← hplace', hslot]

theorem step_searches
    (hrun : Execution.execute step (start modulePrefix) schedule = some phone) {action : Action}
    (hnext : phone.step action = some next) : Searches phone next := by
  cases step_traffic hnext with
  | quiet haction hnews htasks hcalls => exact .quiet (entry_congr (by rw [hnews]) hcalls)
  | asks call haction hnews htasks hcalls =>
      rcases phone.news.perform_cases call with ⟨request, hslot, heq⟩ | ⟨hslot, heq⟩
      · exact .quiet (entry_congr (by rw [hnews, heq]) hcalls)
      · refine .seeks call.slot (by simp [entry, hslot]) ?_
        intro slot'
        have hoccupant : next.news.api.occupant slot' =
            if call.slot.norm = slot'.norm then some phone.news.created
            else phone.news.api.occupant slot' := by
          rw [hnews, heq, NewsApi.occupant_fill]
        by_cases hsame : call.slot ≈ slot'
        · rw [if_pos (NewsApi.Slot.equiv_iff.mp hsame)] at hoccupant
          simp only [entry, entryOf, hoccupant, hcalls, ownedBy_created hrun, if_pos hsame]
        · rw [if_neg (mt NewsApi.Slot.equiv_iff.mpr hsame)] at hoccupant
          simp only [entry, entryOf, hoccupant, hcalls, if_neg hsame]
  | ends index outcome task haction htask hnews htasks hmain =>
      obtain ⟨download, hresumed⟩ :=
        (downloadLedger hrun).resumed task (List.mem_of_getElem? htask)
      have hoccupant := stocked hrun task.resultWrapper download hresumed.1
      obtain ⟨result, error, hcomplete⟩ := task.complete_single outcome
      have hcalls : next.main.setResultCalls =
          phone.main.setResultCalls ++ [(task.resultWrapper, result, error)] := by
        rw [hmain, settle_setResultCalls, hcomplete]
        rfl
      have hunset : Tagged.ownedBy task.resultWrapper phone.main.setResultCalls = [] := by
        have hsingle := (newsLedger hrun).single task.resultWrapper
        have hdownloads := (newsLedger hrun).coherent.downloadsOf_length task.resultWrapper
        have htasks : 0 < (tasksFor task.resultWrapper phone.tasks).length :=
          List.length_pos_of_mem (List.mem_filter.mpr ⟨List.mem_of_getElem? htask, by simp⟩)
        exact List.length_eq_zero_iff.mp (by omega)
      refine .settles download.slot result ?_ ?_
      · simp only [entry, entryOf, hoccupant, hunset]
      · intro slot'
        by_cases hsame : download.slot ≈ slot'
        · have hoccupant' : phone.news.api.occupant slot' = some task.resultWrapper := by
            rw [← NewsApi.occupant_congr _ (NewsApi.Slot.equiv_iff.mp hsame), hoccupant]
          simp only [entry, entryOf, hnews, hoccupant', hcalls, Tagged.ownedBy_append, hunset,
            Tagged.ownedBy_cons, if_pos hsame]
          rfl
        · rw [if_neg hsame]
          unfold entry
          rw [hnews]
          cases hother : phone.news.api.occupant slot' with
          | none => rfl
          | some request =>
              have hne : task.resultWrapper ≠ request := by
                rintro rfl
                exact hsame (NewsApi.Slot.equiv_iff.mpr (place_unique hrun hoccupant hother))
              simp [entryOf, hcalls, hne]

/-- A value that a place holds was found for it. -/
theorem entry_found
    (hrun : Execution.execute step (start modulePrefix) schedule = some phone)
    {slot : NewsApi.Slot} {value : AnyValue} (hholds : phone.Holds slot value) :
    phone.entry slot = .found value := by
  obtain ⟨occupant, hoccupant, hheld⟩ := hholds
  have hledger := newsLedger hrun
  obtain ⟨mainSchedule, hmain⟩ := main_reachable hrun
  obtain ⟨error, hcall⟩ := (MainQueue.sound hmain).result_called hheld
  have hlength := hledger.setResults_length occupant
  rw [MainQueue.setResults_events] at hlength
  have hmem := Tagged.mem_ownedBy.mpr hcall
  obtain ⟨call, howned⟩ :=
    List.length_eq_one_iff.mp (Nat.le_antisymm hlength (List.length_pos_of_mem hmem))
  rw [howned, List.mem_singleton] at hmem
  simp only [entry, hoccupant, entryOf, howned, ← hmem]
  rfl

end Phone

/-! ## The two together -/

theorem WatchRequest.told?_eq_some {asked : List WatchRequest} {call : WatchCall}
    {index : Nat} {value : AnyValue} :
    WatchRequest.told? asked call = some (index, value) ↔
      ∃ request slot error, asked[index]? = some request ∧ request.slot = some slot ∧
        call = (Watch.requestOf index, .screen, some value, error) := by
  unfold WatchRequest.told?
  split
  next index' value' error' =>
    simp only [Option.map_eq_some_iff, Option.bind_eq_some_iff, Prod.mk.injEq, Watch.requestOf,
      Nat.succ_eq_add_one, Nat.add_right_cancel_iff, Option.some.injEq]
    constructor
    · rintro ⟨slot, ⟨request, hasked, hslot⟩, rfl, rfl⟩
      exact ⟨request, slot, error', hasked, hslot, rfl, trivial, rfl, rfl⟩
    · rintro ⟨request, slot, error, hasked, hslot, rfl, -, rfl, -⟩
      exact ⟨slot, ⟨request, hasked, hslot⟩, rfl, rfl⟩
  next hother =>
    constructor
    · rintro ⟨⟩
    · rintro ⟨request, slot, error, -, -, rfl⟩
      exact (hother _ _ _ rfl).elim

/-- Screens are answered for requests that were made, so later requests make no
difference to what the answers were. -/
theorem Watch.told_append {modulePrefix : String} {schedule : List Watch.Action} {watch : Watch}
    (hrun : Execution.execute Watch.step (.start modulePrefix) schedule = some watch)
    (request : WatchRequest) :
    watch.main.callbackCalls.filterMap (WatchRequest.told? (watch.asked ++ [request])) =
      watch.main.callbackCalls.filterMap (WatchRequest.told? watch.asked) := by
  obtain ⟨mainSchedule, hmain⟩ := main_reachable hrun
  have hsound := MainQueue.sound hmain
  apply List.filterMap_congr
  rintro ⟨owner, callback, result, error⟩ hcall
  cases callback with
  | send request' asyncRequest => cases owner <;> rfl
  | screen =>
      obtain ⟨index, hindex, rfl⟩ :=
        screen_asked hrun (hsound.callback_registered hcall)
      cases result with
      | none => rfl
      | some value =>
          simp only [WatchRequest.told?, requestOf, List.getElem?_append_left hindex]

namespace Connection

variable {watchPrefix phonePrefix : String} {schedule : List Action} {connection next : Connection}

theorem step_phone_searches
    (hrun : Execution.execute step (start watchPrefix phonePrefix) schedule = some connection)
    {action : Action} (hnext : connection.step action = some next) :
    connection.phone.Searches next.phone := by
  obtain ⟨phoneSchedule, hphoneRun⟩ := phone_reachable hrun
  rcases step_phone hnext with ⟨hsame, -⟩ | ⟨phoneAction, hphone, -⟩
  · rw [hsame]
    exact .quiet fun _ => rfl
  · exact Phone.step_searches hphoneRun hphone

theorem service_entry_update {slot : NewsApi.Slot} {entry : Memo.Entry AnyValue}
    (hentry : ∀ slot', next.phone.entry slot' =
      if slot ≈ slot' then entry else connection.phone.entry slot') :
    next.service.entry =
      Function.update connection.service.entry slot.place entry := by
  funext place
  induction place using Quotient.ind with
  | _ slot' =>
      change next.phone.entry slot' = Function.update connection.service.entry slot.place entry
        slot'.place
      rw [hentry]
      by_cases hsame : slot ≈ slot'
      · rw [if_pos hsame, NewsApi.Slot.place_eq.mpr hsame, Function.update_self]
      · rw [if_neg hsame, Function.update_of_ne]
        · rfl
        · intro heq
          exact hsame (NewsApi.Slot.place_eq.mp heq.symm)

/-- What a step does to the places is a step of the service, or nothing. -/
theorem searches_service
    (hrun : Execution.execute step (start watchPrefix phonePrefix) schedule = some connection)
    {action : Action} (hnext : connection.step action = some next) :
    ∃ actions, Execution.execute Memo.Service.step connection.service actions =
      some { connection.service with entry := next.service.entry } := by
  cases step_phone_searches hrun hnext with
  | quiet hentry =>
      refine ⟨[], congrArg some ?_⟩
      ext place
      · induction place using Quotient.ind with
        | _ slot => exact (hentry slot).symm
      · rfl
      · rfl
  | seeks slot hidle hentry =>
      refine ⟨[.seek slot.place], ?_⟩
      rw [service_entry_update hentry, Execution.execute_cons,
        Memo.Service.step_of_step (.seek _ hidle)]
      rfl
  | settles slot answer hsought hentry =>
      refine ⟨[.settle slot.place answer], ?_⟩
      rw [service_entry_update hentry, Execution.execute_cons,
        Memo.Service.step_of_step (.settle _ answer hsought)]
      rfl

/-- A request is a question, and a callback that is given news an answer. -/
theorem serves_service (hfaithful : ArchivesFaithfully)
    (hrun : Execution.execute step (start watchPrefix phonePrefix) schedule = some connection)
    {action : Action} (hnext : connection.step action = some next) :
    ∃ actions, Execution.execute Memo.Service.step
      { connection.service with entry := next.service.entry } actions = some next.service := by
  obtain ⟨watchSchedule, hwatchRun⟩ := watch_reachable hrun
  have hrun' := Execution.execute_concat_eq_some.mpr ⟨connection, hrun, hnext⟩
  have hcalls := (step_grows hnext).calls
  rcases step_asks hnext with ⟨request, hasked, hinvoking⟩ | hasked
  · refine ⟨[.ask (request.slot.map NewsApi.Slot.place)], congrArg some ?_⟩
    rw [hinvoking, Option.toList_none, List.append_nil] at hcalls
    simp only [service, hasked, hcalls, Watch.told_append hwatchRun, List.map_append,
      List.map_cons, List.map_nil]
  · have htold : next.service.told = connection.service.told ++
        ((connection.invoking action).bind (WatchRequest.told? next.watch.asked)).toList := by
      simp only [service, hasked, hcalls, List.filterMap_append]
      cases connection.invoking action with
      | none => rfl
      | some call => cases hcall : WatchRequest.told? connection.watch.asked call <;> simp [hcall]
    have hsame : next.service.asked = connection.service.asked := by
      simp only [service, hasked]
    cases hanswer : (connection.invoking action).bind (WatchRequest.told? next.watch.asked) with
    | none =>
        rw [hanswer, Option.toList_none, List.append_nil] at htold
        exact ⟨[], congrArg some (Memo.Service.ext rfl hsame.symm htold.symm)⟩
    | some answer =>
        obtain ⟨call, hinvoking, hcall⟩ := Option.bind_eq_some_iff.mp hanswer
        obtain ⟨index, value⟩ := answer
        obtain ⟨request, slot, error, hrequest, hslot, rfl⟩ :=
          WatchRequest.told?_eq_some.mp hcall
        have hmem : (Watch.requestOf index, .screen, some value, error) ∈
            next.watch.main.callbackCalls := by
          rw [hcalls, hinvoking]
          exact List.mem_append_right _ (List.mem_singleton_self _)
        obtain ⟨phoneSchedule, hphoneRun⟩ := phone_reachable hrun'
        have hholds : next.phone.Holds slot value :=
          (value_supplied hfaithful hrun' hrequest (.inr ⟨_, error, hmem⟩)).of_slot hslot
        have hplace : connection.service.asked[index]? = some (some slot.place) := by
          rw [← hsame, service, List.getElem?_map, hrequest, Option.map_some, hslot,
            Option.map_some]
        have hfound : next.service.entry slot.place = .found value :=
          Phone.entry_found hphoneRun hholds
        refine ⟨[.tell index], ?_⟩
        have htells : Memo.Service.Step { connection.service with entry := next.service.entry }
            (.tell index) _ := .tell index slot.place value hplace hfound
        rw [Execution.execute_cons, Memo.Service.step_of_step htells]
        rw [hanswer, Option.toList_some] at htold
        exact congrArg some (Memo.Service.ext rfl hsame.symm htold.symm)

theorem service_start (watchPrefix phonePrefix : String) :
    (start watchPrefix phonePrefix).service = .start := by
  ext place
  · induction place using Quotient.ind with
    | _ slot => cases slot <;> rfl
  · rfl
  · rfl

theorem step_service (hfaithful : ArchivesFaithfully)
    (hrun : Execution.execute step (start watchPrefix phonePrefix) schedule = some connection)
    {action : Action} (hnext : connection.step action = some next) :
    ∃ actions, Execution.execute Memo.Service.step connection.service actions =
      some next.service := by
  obtain ⟨searches, hsearches⟩ := searches_service hrun hnext
  obtain ⟨serves, hserves⟩ := serves_service hfaithful hrun hnext
  exact ⟨searches ++ serves, Execution.execute_append_of_eq_some hsearches hserves⟩

/-- Every run of watch, phone and session is a run of the memoised lookup. -/
theorem refines_memo (hfaithful : ArchivesFaithfully) {final : Connection}
    (hrun : Execution.execute step (start watchPrefix phonePrefix) schedule = some final) :
    (∃ memoSchedule, Execution.execute Memo.Service.step .start memoSchedule =
      some final.service) ∧ final.service.Sound := by
  have hmemo : ∃ memoSchedule, Execution.execute Memo.Service.step .start memoSchedule =
      some final.service := by
    refine Execution.execute_induction (motive := fun _ connection => ∃ memoSchedule,
      Execution.execute Memo.Service.step .start memoSchedule = some connection.service)
      ⟨[], congrArg some (service_start watchPrefix phonePrefix).symm⟩ ?_ hrun
    rintro schedule connection action next hrun ⟨memoSchedule, hmemo⟩ hnext
    obtain ⟨actions, hactions⟩ := step_service hfaithful hrun hnext
    exact ⟨memoSchedule ++ actions, Execution.execute_append_of_eq_some hmemo hactions⟩
  obtain ⟨memoSchedule, hmemoRun⟩ := hmemo
  exact ⟨⟨memoSchedule, hmemoRun⟩, Memo.Service.sound hmemoRun⟩

section Samples

omit [Foundation]

/-- A screen listens to the request for sources, and is told. -/
def toldSchedule : letI : Foundation := .sample; List Action :=
  letI : Foundation := .sample
  sourcesSchedule ++ [.watch (.listen 0)] ++ List.replicate 7 (.watch .main)

theorem toldSchedule_tells :
    letI : Foundation := .sample
    (Execution.execute step (start "Watch" "NewsDay") toldSchedule).any (fun final =>
      final.service.told.map Prod.fst == [0]) = true := by
  decide +kernel

theorem refines_memo_sources :
    letI : Foundation := .sample
    ∃ final, Execution.execute step (start "Watch" "NewsDay") toldSchedule = some final ∧
      final.service.told.map Prod.fst = [0] ∧
        (∃ memoSchedule, Execution.execute Memo.Service.step .start memoSchedule =
          some final.service) ∧ final.service.Sound := by
  let _ : Foundation := .sample
  obtain ⟨final, hrun, htold⟩ := (Option.any_eq_true _ _).mp toldSchedule_tells
  exact ⟨final, hrun, beq_iff_eq.mp htold, refines_memo sample_archivesFaithfully hrun⟩

end Samples

end Connection

end NewsDay
