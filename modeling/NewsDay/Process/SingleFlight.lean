import NewsDay.Process.PhoneNews

/-! # One download for each place of the cache

A place of the cache, once taken, stays with its request, every call for the
place returns that request, and no other request or download is ever made for
it. Since the download sets its request once, everybody who has registered a
callback by way of the place is told the same.
-/

namespace NewsDay

open Foundation AsyncRequest

variable [Foundation]

/-- The place of the cache that the download was started for. -/
def Download.slot : Download → NewsApi.Slot
  | .sources => .sources
  | .articles source => .keyed source.id
  | .headlines country _ => .keyed country

namespace NewsApi

omit [Foundation] in
theorem Call.slot_download (call : Call) : call.download.slot = call.slot := by
  cases call <;> rfl

namespace History

variable {history : History} {slot : Slot} {request : Nat}

/-- A place that is taken keeps its request. -/
theorem occupant_perform (call : Call) (hoccupant : history.api.occupant slot = some request) :
    (history.perform call).api.occupant slot = some request := by
  rcases history.perform_cases call with ⟨cached, hslot, heq⟩ | ⟨hslot, heq⟩
  · rw [heq]
    exact hoccupant
  · rw [heq, occupant_fill, if_neg, hoccupant]
    -- the place that is filled was empty
    intro hsame
    rw [occupant_congr _ hsame, hoccupant] at hslot
    exact Option.some_ne_none request hslot

/-- What was handed to a download is in the place of the download. -/
def Stocked (history : History) : Prop :=
  ∀ request download, (request, download) ∈ history.handed →
    history.api.occupant download.slot = some request

theorem Stocked.start : ({} : History).Stocked := by
  intro request download hhanded
  exact absurd hhanded List.not_mem_nil

theorem Stocked.perform (hstocked : history.Stocked) (call : Call) :
    (history.perform call).Stocked := by
  intro request download hhanded
  rcases history.perform_cases call with ⟨cached, hslot, heq⟩ | ⟨hslot, heq⟩
  · rw [heq] at hhanded ⊢
    exact hstocked request download hhanded
  · have hnew : (history.perform call).handed =
        history.handed ++ [(history.created, call.download)] := by rw [heq]
    rw [hnew] at hhanded
    rcases List.mem_append.mp hhanded with hold | hlast
    · exact occupant_perform call (hstocked request download hold)
    · obtain ⟨rfl, rfl⟩ := Prod.mk.inj (List.mem_singleton.mp hlast)
      rw [heq, occupant_fill, call.slot_download, if_pos rfl]

/-- The downloads that were invoked for a place, each with the new request that
it was handed. -/
def startedFor (history : History) (slot : Slot) : List (Nat × Download) :=
  history.handed.filter fun entry => entry.2.slot.norm = slot.norm

/-- For one place one request is made and one download is invoked. -/
theorem Stocked.startedFor_length (hstocked : history.Stocked) (hcoherent : history.Coherent)
    (slot : Slot) : (history.startedFor slot).length ≤ 1 := by
  have hrequest : ∀ entry ∈ history.startedFor slot,
      history.api.occupant slot = some entry.1 := by
    rintro ⟨request, download⟩ hentry
    obtain ⟨hhanded, hslot⟩ := List.mem_filter.mp hentry
    rw [← occupant_congr _ (of_decide_eq_true hslot)]
    exact hstocked request download hhanded
  have hnodup : ((history.startedFor slot).map Prod.fst).Nodup :=
    hcoherent.handed_nodup.sublist (List.filter_sublist.map Prod.fst)
  match hstarted : history.startedFor slot with
  | [] => exact Nat.zero_le 1
  | [_] => exact Nat.le_refl 1
  | first :: second :: rest =>
      rw [hstarted] at hrequest hnodup
      have hfirst := hrequest first List.mem_cons_self
      have hsecond := hrequest second (List.mem_cons_of_mem _ List.mem_cons_self)
      have hsame : first.1 = second.1 := Option.some.inj (hfirst.symm.trans hsecond)
      simp [hsame] at hnodup

end History

end NewsApi

namespace Phone

variable {modulePrefix : String} {schedule later : List Action} {phone next final : Phone}

/-- Between the phone's steps, only calls of the news service touch its cache. -/
theorem Step.news (hstep : Step phone next) :
    next.news = phone.news ∨ ∃ call, next.news = phone.news.perform call := by
  cases hstep with
  | receive message => exact .inl rfl
  | browse call => exact .inl rfl
  | listen request hrequest => exact .inl rfl
  | settle before after task result error htasks => exact .inl rfl
  | retrieve before after replyHandler image hretrievals => exact .inl rfl
  | register request callback htodo => exact .inl rfl
  | idle main htodo hmain hstarting hinvoking => exact .inl rfl
  | answer main request replyHandler callback result error htodo hmain hstarting hinvoking =>
      obtain ⟨halted, tables, replies, heq⟩ := answer_frame { phone with main } replyHandler
        callback result
      rw [heq]
      exact .inl rfl
  | ask main call htodo hmain hstarting => exact .inr ⟨call, rfl⟩
  | handle main message replyHandler htodo hmain hstarting =>
      rcases handle_frame { phone with main } message replyHandler with
        ⟨halted, tables, handled, replies, retrievals, heq⟩ | ⟨call, callback, tables, handled, heq⟩
      · rw [heq]
        exact .inl rfl
      · rw [heq]
        exact .inr ⟨call, rfl⟩

theorem stocked (hrun : Execution.execute step (start modulePrefix) schedule = some phone) :
    phone.news.Stocked := by
  refine Execution.execute_invariant (fun phone => phone.news.Stocked) ?_ .start hrun
  intro state action next hstocked hnext
  rcases (step_step hnext).2.news with hsame | ⟨call, hcall⟩
  · rw [hsame]
    exact hstocked
  · rw [hcall]
    exact hstocked.perform call

/-- A place that is taken keeps its request for the rest of the run. -/
theorem occupant_later {slot : NewsApi.Slot} {request : Nat}
    (hoccupant : phone.news.api.occupant slot = some request)
    (hlater : Execution.execute step phone later = some final) :
    final.news.api.occupant slot = some request := by
  refine Execution.execute_invariant
    (fun phone => phone.news.api.occupant slot = some request) ?_ hoccupant hlater
  intro state action next hkept hnext
  rcases (step_step hnext).2.news with hsame | ⟨call, hcall⟩
  · rw [hsame]
    exact hkept
  · rw [hcall]
    exact NewsApi.History.occupant_perform call hkept

/-- Everybody whose callback was registered with one request of the news service
is told the same. -/
theorem callbacks_same (hrun : Execution.execute step (start modulePrefix) schedule = some phone)
    {request : Nat} {first second : PhoneCallback × Option AnyValue × Option ErrorValue}
    (hfirst : (request, first) ∈ phone.main.callbackCalls)
    (hsecond : (request, second) ∈ phone.main.callbackCalls) : first.2 = second.2 := by
  obtain ⟨mainSchedule, hmain⟩ := main_reachable hrun
  have hsound := MainQueue.sound hmain
  have hsingle := (newsLedger hrun).setResults_length request
  exact (hsound.valid request).same_pair hsingle (MainQueue.Sound.mem_invocations hfirst)
    (MainQueue.Sound.mem_invocations hsecond)

/-- In every run and for every place of the cache: one request is made and one
download is invoked for it at most; once taken, the place keeps its request
however the run goes on; every call for the place returns that request; and all
callbacks of that request receive one result and one error. -/
theorem single_flight
    (hrun : Execution.execute step (start modulePrefix) schedule = some phone)
    (slot : NewsApi.Slot) :
    (phone.news.startedFor slot).length ≤ 1 ∧
      (∀ request later final, phone.news.api.occupant slot = some request →
        Execution.execute step phone later = some final →
          final.news.api.occupant slot = some request) ∧
      (∀ call request, (call, request) ∈ phone.news.returned → call.slot.norm = slot.norm →
        phone.news.api.occupant slot = some request) ∧
      ∀ request, phone.news.api.occupant slot = some request →
        ∀ first second, (request, first) ∈ phone.main.callbackCalls →
          (request, second) ∈ phone.main.callbackCalls → first.2 = second.2 := by
  have hcoherent := (newsLedger hrun).coherent
  refine ⟨(stocked hrun).startedFor_length hcoherent slot, ?_, ?_, ?_⟩
  · intro request later final hoccupant hlater
    exact occupant_later hoccupant hlater
  · intro call request hreturned hslot
    rw [← NewsApi.occupant_congr _ hslot]
    exact hcoherent.placed call request hreturned
  · intro request _ first second hfirst hsecond
    exact callbacks_same hrun hfirst hsecond

section Samples

omit [Foundation]

/-- A screen asks for sources, and the download ends with three. -/
def sourcesDownloaded : letI : Foundation := .sample; List Action :=
  letI : Foundation := .sample
  .browse .getSources :: List.replicate 4 .main ++
    .complete 0 ⟨some sampleSourcesBody, some (.http 200), none⟩ :: List.replicate 6 .main

/-- A second screen asks for them later, and is told as well. -/
def twiceSources : letI : Foundation := .sample; List Action :=
  letI : Foundation := .sample
  sourcesDownloaded ++ .browse .getSources :: List.replicate 8 .main

theorem twiceSources_called :
    letI : Foundation := .sample
    ((Execution.execute step (start "NewsDay") twiceSources).map fun phone =>
      (phone.news.api.occupant .sources, phone.main.callbackCalls.map fun call =>
        (call.1, call.2.2.1.bind AnyValue.asCategorizedSources))) =
      some (some 0, [(0, some sampleSources), (0, some sampleSources)]) := by
  decide +kernel

theorem single_flight_sources :
    letI : Foundation := .sample
    ∃ phone : Phone, Execution.execute step (start "NewsDay") twiceSources = some phone ∧
      (phone.main.callbackCalls.map fun call =>
        (call.1, call.2.2.1.bind AnyValue.asCategorizedSources)) =
          [(0, some sampleSources), (0, some sampleSources)] ∧
        (phone.news.startedFor .sources).length ≤ 1 ∧
          ∀ first second, (0, first) ∈ phone.main.callbackCalls →
            (0, second) ∈ phone.main.callbackCalls → first.2 = second.2 := by
  let _ : Foundation := .sample
  obtain ⟨phone, hrun, hcalled⟩ := Option.map_eq_some_iff.mp twiceSources_called
  obtain ⟨hoccupant, hcalls⟩ := Prod.mk.inj hcalled
  obtain ⟨hstarted, -, -, hsame⟩ := single_flight hrun .sources
  exact ⟨phone, hrun, hcalls, hstarted, hsame 0 hoccupant⟩

end Samples

end Phone

end NewsDay
