import NewsDay.Library.Tagged
import NewsDay.Network.NewsApi

/-! # What the cache of the news service hands out

A place of the cache is the one for the sources or one of those keyed by a
string. Articles and headlines share the keyed places, and the limit of
headlines is not part of the key. The history of a cache records which request
each call returned and which download each request was handed to.
-/

namespace NewsDay

open Foundation

variable [Foundation]

/-- What is asked for: the kind of request and its arguments. -/
inductive Query
  | sources
  | articles (id : String)
  | headlines (country : String) (limit : Option Int64)
deriving DecidableEq

/-- What a download fetches. -/
def Download.query : Download → Query
  | .sources => .sources
  | .articles source => .articles (canonical source.id)
  | .headlines country limit => .headlines (canonical country) limit

namespace NewsApi

/-- What the caller of a public function asks for. -/
def Call.query : Call → Query
  | .getSources => .sources
  | .getArticles source => .articles (canonical source.id)
  | .getHeadlines country limit => .headlines (canonical country) limit

/-- A place of the cache. -/
inductive Slot
  | sources
  | keyed (key : String)
deriving DecidableEq

def Slot.norm : Slot → Slot
  | .sources => .sources
  | .keyed key => .keyed (canonical key)

def Call.slot : Call → Slot
  | .getSources => .sources
  | .getArticles source => .keyed source.id
  | .getHeadlines country _ => .keyed country

/-- The download that a call starts when its place is empty. -/
def Call.download : Call → Download
  | .getSources => .sources
  | .getArticles source => .articles source
  | .getHeadlines country limit => .headlines country limit

theorem Call.query_download (call : Call) : call.download.query = call.query := by
  cases call <;> rfl

variable (api : NewsApi)

/-- The request in a place of the cache. -/
def occupant : Slot → Option Nat
  | .sources => api.sourcesResult
  | .keyed key => Dictionary.lookup canonical api.articlesResult key

def fill (request : Nat) : Slot → NewsApi
  | .sources => { api with sourcesResult := some request }
  | .keyed key => { api with
      articlesResult := Dictionary.insert canonical api.articlesResult key request }

theorem occupant_congr {first second : Slot} (hslot : first.norm = second.norm) :
    api.occupant first = api.occupant second := by
  cases first with
  | sources =>
      cases second with
      | sources => rfl
      | keyed key => exact Slot.noConfusion hslot
  | keyed key =>
      cases second with
      | sources => exact Slot.noConfusion hslot
      | keyed key' => exact Dictionary.lookup_congr _ (Slot.keyed.inj hslot)

theorem occupant_fill (slot slot' : Slot) (request : Nat) :
    (api.fill request slot).occupant slot' =
      if slot.norm = slot'.norm then some request else api.occupant slot' := by
  cases slot with
  | sources => cases slot' <;> simp [fill, occupant, Slot.norm]
  | keyed key =>
      cases slot' with
      | sources => simp [fill, occupant, Slot.norm]
      | keyed key' => simp [fill, occupant, Slot.norm, Dictionary.lookup_insert]

variable {api}

/-- A call whose place is taken returns what is there. -/
theorem call_of_occupied {call : Call} {request : Nat} (fresh : Nat)
    (hslot : api.occupant call.slot = some request) :
    api.call fresh call = { api, request, started := none } := by
  cases call with
  | getSources =>
      have hcached : api.sourcesResult = some request := hslot
      simp only [NewsApi.call, getSources, hcached]
  | getArticles source =>
      have hcached : Dictionary.lookup canonical api.articlesResult source.id = some request :=
        hslot
      simp only [NewsApi.call, getArticles, hcached]
  | getHeadlines country limit =>
      have hcached : Dictionary.lookup canonical api.articlesResult country = some request := hslot
      simp only [NewsApi.call, getHeadlines, hcached]

/-- A call whose place is empty fills it with a new request and starts the
download for that request. -/
theorem call_of_empty {call : Call} (fresh : Nat) (hslot : api.occupant call.slot = none) :
    api.call fresh call =
      { api := api.fill fresh call.slot, request := fresh, started := some call.download } := by
  cases call with
  | getSources =>
      have hcached : api.sourcesResult = none := hslot
      simp only [NewsApi.call, getSources, hcached]
      rfl
  | getArticles source =>
      have hcached : Dictionary.lookup canonical api.articlesResult source.id = none := hslot
      simp only [NewsApi.call, getArticles, hcached]
      rfl
  | getHeadlines country limit =>
      have hcached : Dictionary.lookup canonical api.articlesResult country = none := hslot
      simp only [NewsApi.call, getHeadlines, hcached]
      rfl

/-- The cache of a process and what has gone through it. -/
structure History where
  api : NewsApi := {}
  /-- The number of requests that the cache has made. -/
  created : Nat := 0
  /-- The downloads that were invoked, each with the request it was handed. -/
  handed : List (Nat × Download) := []
  /-- The calls that were made, each with the request it returned. -/
  returned : List (Call × Nat) := []

namespace History

/-- One call, with a request that is new to the cache. -/
def perform (history : History) (call : Call) : History :=
  let answer := history.api.call history.created call
  { api := answer.api
    created := history.created + answer.started.toList.length
    handed := history.handed ++ answer.started.toList.map (Prod.mk answer.request)
    returned := history.returned ++ [(call, answer.request)] }

/-- A sequence of calls in a process that has made none before. -/
def after (calls : List Call) : History := calls.foldl perform {}

/-- The two shapes of a call: a place that is taken answers, and an empty one
is filled with the next request, which is handed to the download of the call. -/
theorem perform_cases (history : History) (call : Call) :
    (∃ request, history.api.occupant call.slot = some request ∧
      history.perform call = { history with
        returned := history.returned ++ [(call, request)] }) ∨
      (history.api.occupant call.slot = none ∧
        history.perform call = {
          api := history.api.fill history.created call.slot
          created := history.created + 1
          handed := history.handed ++ [(history.created, call.download)]
          returned := history.returned ++ [(call, history.created)] }) := by
  cases hslot : history.api.occupant call.slot with
  | some request =>
      refine .inl ⟨request, rfl, ?_⟩
      simp [perform, call_of_occupied _ hslot]
  | none =>
      refine .inr ⟨rfl, ?_⟩
      simp [perform, call_of_empty _ hslot]

/-- The downloads that a request was handed to. -/
def downloadsOf (history : History) (request : Nat) : List Download :=
  Tagged.ownedBy request history.handed

/-- Each call returned the request that was handed to a download of what it
asks for, and to no other download. -/
def Transparent (history : History) : Prop :=
  ∀ call request, (call, request) ∈ history.returned →
    ∃ download, history.downloadsOf request = [download] ∧ download.query = call.query

/-- How the places of the cache, the calls and the downloads hang together. -/
structure Coherent (history : History) : Prop where
  /-- Requests are handed out in the order in which they are made, once each. -/
  numbered : history.handed.map Prod.fst = List.range history.created
  /-- What a call returned is in its place. -/
  placed : ∀ call request, (call, request) ∈ history.returned →
    history.api.occupant call.slot = some request
  /-- A place was filled by a call, which started the download. -/
  filled : ∀ slot request, history.api.occupant slot = some request →
    ∃ call, (call, request) ∈ history.returned ∧ call.slot.norm = slot.norm ∧
      (request, call.download) ∈ history.handed

variable {history : History}

theorem Coherent.start : ({} : History).Coherent where
  numbered := rfl
  placed := by
    intro call request hreturned
    exact absurd hreturned List.not_mem_nil
  filled := by
    intro slot request hoccupant
    cases slot <;> simp [occupant] at hoccupant

theorem Coherent.perform (hcoherent : history.Coherent) (call : Call) :
    (history.perform call).Coherent := by
  rcases history.perform_cases call with ⟨request, hslot, heq⟩ | ⟨hslot, heq⟩
  · rw [heq]
    refine ⟨hcoherent.numbered, ?_, ?_⟩
    · intro call' request' hreturned
      rcases List.mem_append.mp hreturned with hold | hnew
      · exact hcoherent.placed call' request' hold
      · obtain ⟨rfl, rfl⟩ := Prod.mk.inj (List.mem_singleton.mp hnew)
        exact hslot
    · intro slot request' hoccupant
      obtain ⟨first, hreturned, hsame, hhanded⟩ := hcoherent.filled slot request' hoccupant
      exact ⟨first, List.mem_append_left _ hreturned, hsame, hhanded⟩
  · rw [heq]
    refine ⟨?_, ?_, ?_⟩
    · simp [hcoherent.numbered, List.range_succ]
    · intro call' request' hreturned
      rw [occupant_fill]
      rcases List.mem_append.mp hreturned with hold | hnew
      · have hplaced := hcoherent.placed call' request' hold
        rw [if_neg, hplaced]
        -- its place is taken, and the one being filled was empty
        intro hsame
        rw [occupant_congr _ hsame, hplaced] at hslot
        exact Option.some_ne_none _ hslot
      · obtain ⟨rfl, rfl⟩ := Prod.mk.inj (List.mem_singleton.mp hnew)
        rw [if_pos rfl]
    · intro slot request' hoccupant
      rw [occupant_fill] at hoccupant
      split at hoccupant
      next hsame =>
        obtain rfl := Option.some.inj hoccupant
        exact ⟨call, by simp, hsame, by simp⟩
      next =>
        obtain ⟨first, hreturned, hsame, hhanded⟩ := hcoherent.filled slot request' hoccupant
        exact ⟨first, List.mem_append_left _ hreturned, hsame, List.mem_append_left _ hhanded⟩

theorem coherent_foldl (hcoherent : history.Coherent) (calls : List Call) :
    (calls.foldl History.perform history).Coherent := by
  induction calls generalizing history with
  | nil => exact hcoherent
  | cons call rest ih => exact ih (hcoherent.perform call)

theorem coherent_after (calls : List Call) : (after calls).Coherent := coherent_foldl .start calls

theorem returned_foldl (calls : List Call) :
    (calls.foldl History.perform history).returned.map Prod.fst =
      history.returned.map Prod.fst ++ calls := by
  induction calls generalizing history with
  | nil => simp
  | cons call rest ih =>
      rw [List.foldl_cons, ih]
      simp [History.perform]

theorem returned_after (calls : List Call) : (after calls).returned.map Prod.fst = calls := by
  simp [after, returned_foldl]

theorem Coherent.handed_nodup (hcoherent : history.Coherent) :
    (history.handed.map Prod.fst).Nodup := by
  rw [hcoherent.numbered]
  exact List.nodup_range

/-- A request is handed to one download only. -/
theorem Coherent.downloadsOf_eq (hcoherent : history.Coherent) {request : Nat}
    {download : Download} (hhanded : (request, download) ∈ history.handed) :
    history.downloadsOf request = [download] :=
  Tagged.ownedBy_of_nodup hcoherent.handed_nodup hhanded

theorem Coherent.downloadsOf_length (hcoherent : history.Coherent) (request : Nat) :
    (history.downloadsOf request).length ≤ 1 :=
  Tagged.length_ownedBy_of_nodup hcoherent.handed_nodup

/-- Two calls for one place return one request. -/
theorem Coherent.same_request (hcoherent : history.Coherent) {first second : Call}
    {request request' : Nat} (hslot : first.slot.norm = second.slot.norm)
    (hfirst : (first, request) ∈ history.returned)
    (hsecond : (second, request') ∈ history.returned) : request = request' := by
  have hplaced := hcoherent.placed first request hfirst
  rw [occupant_congr _ hslot, hcoherent.placed second request' hsecond] at hplaced
  exact (Option.some.inj hplaced).symm

/-- The cache is transparent exactly when calls that share a place ask for the
same thing. -/
theorem Coherent.transparent_iff (hcoherent : history.Coherent) :
    history.Transparent ↔
      ∀ first ∈ history.returned.map Prod.fst, ∀ second ∈ history.returned.map Prod.fst,
        first.slot.norm = second.slot.norm → first.query = second.query := by
  constructor
  · intro htransparent first hfirst second hsecond hslot
    obtain ⟨⟨_, request⟩, hreturned, rfl⟩ := List.mem_map.mp hfirst
    obtain ⟨⟨_, request'⟩, hreturned', rfl⟩ := List.mem_map.mp hsecond
    obtain rfl := hcoherent.same_request hslot hreturned hreturned'
    obtain ⟨download, hdownload, hquery⟩ := htransparent _ _ hreturned
    obtain ⟨download', hdownload', hquery'⟩ := htransparent _ _ hreturned'
    rw [hdownload] at hdownload'
    obtain rfl := (List.cons.inj hdownload').1
    exact hquery.symm.trans hquery'
  · intro hcompatible call request hreturned
    -- the download is that of the call that filled the place
    have hplaced := hcoherent.placed call request hreturned
    obtain ⟨first, hfirst, hslot, hhanded⟩ := hcoherent.filled call.slot request hplaced
    refine ⟨first.download, hcoherent.downloadsOf_eq hhanded, ?_⟩
    rw [first.query_download]
    exact hcompatible first (List.mem_map_of_mem hfirst) call (List.mem_map_of_mem hreturned) hslot

/-- After any sequence of calls from an empty cache, each caller has received
the request of its own download if and only if no two calls with the same key
are of different kinds or have different limits. -/
theorem transparent_after_iff (calls : List Call) :
    (after calls).Transparent ↔
      ∀ first ∈ calls, ∀ second ∈ calls,
        first.slot.norm = second.slot.norm → first.query = second.query := by
  have hiff := (coherent_after calls).transparent_iff
  rw [returned_after] at hiff
  exact hiff

omit [Foundation] in
/-- Headlines for one country under two limits: the second caller receives the
request that was handed to the first download. -/
theorem headlines_limit_ignored :
    letI : Foundation := .sample
    ¬ ∀ calls : List Call, (after calls).Transparent := by
  let _ : Foundation := .sample
  intro htransparent
  obtain ⟨download, hdownload, hquery⟩ :=
    htransparent [.getHeadlines "us" (some 10), .getHeadlines "us" (some 3)]
      (.getHeadlines "us" (some 3)) 0 (by decide)
  obtain rfl : Download.headlines "us" (some 10) = download :=
    (List.cons.inj (show [_] = [download] from hdownload)).1
  exact absurd hquery (by decide)

end History

end NewsApi

end NewsDay
