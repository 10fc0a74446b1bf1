import NewsDay.Network.NewsApi

/-! # What a download reports

A download function starts one data task or none, and the completion handler of
a task calls `setResult` on the request that the download was given. It is
shown when a download settles its request, and when what it reports is either
a result or an error.
-/

namespace NewsDay

open Foundation

variable [Foundation]

/-- The calls of `setResult` that a download leads to, when the data task that
it may have resumed ends with this outcome. -/
def Download.reports (resultWrapper : Nat) (download : Download) (outcome : TaskOutcome) :
    List SetResult :=
  ((download.start resultWrapper).map fun task => task.complete outcome).getD []

namespace NewsApi

def endpoints : List String :=
  ["https://newsapi.org/v2/sources", "https://newsapi.org/v2/everything",
    "https://newsapi.org/v2/top-headlines"]

/-- `URL(string:)` accepts an endpoint of the service with percent-encoded text
after it. -/
def AcceptsEncodedQueries : Prop :=
  ∀ endpoint ∈ endpoints, ∀ query : String,
    PercentEncoding.isEncoded urlQueryAllowed query.toList = true →
      (urlFromString (endpoint ++ query)).isSome

/-! ## Every URL that is built is accepted -/

section Queries

omit [Foundation]

def EncodedQuery (text : String) : Prop :=
  PercentEncoding.isEncoded urlQueryAllowed text.toList = true

theorem percent_not_allowed : urlQueryAllowed '%' = false := by decide

theorem EncodedQuery.append {first second : String} (hfirst : EncodedQuery first)
    (hsecond : EncodedQuery second) : EncodedQuery (first ++ second) := by
  unfold EncodedQuery
  rw [String.toList_append]
  exact PercentEncoding.isEncoded_append percent_not_allowed hfirst hsecond

theorem EncodedQuery.of_allowed {text : String}
    (hallowed : text.toList.all urlQueryAllowed = true) : EncodedQuery text :=
  PercentEncoding.isEncoded_of_allowed percent_not_allowed (List.all_eq_true.mp hallowed)

theorem encodedQuery_addingPercentEncoding (text : String) :
    EncodedQuery (addingPercentEncoding text) :=
  PercentEncoding.isEncoded_encode percent_not_allowed text

theorem urlQueryAllowed_of_isDigit {char : Char} (hdigit : char.isDigit = true) :
    urlQueryAllowed char = true := by
  simp only [Char.isDigit, Bool.and_eq_true, decide_eq_true_eq] at hdigit
  have hrange : ('0' ≤ char && char ≤ '9') = true := by
    simp only [Bool.and_eq_true, decide_eq_true_eq]
    exact hdigit
  simp [urlQueryAllowed, hrange]

theorem isDigit_of_mem_toString {value : Nat} {char : Char}
    (hchar : char ∈ (toString value).toList) : char.isDigit = true := by
  rw [Nat.toString_eq_repr, Nat.toList_repr] at hchar
  exact Nat.isDigit_of_mem_toDigits (by decide) (by decide) hchar

theorem encodedQuery_nat (value : Nat) : EncodedQuery (toString value) := by
  apply EncodedQuery.of_allowed
  rw [List.all_eq_true]
  intro char hchar
  exact urlQueryAllowed_of_isDigit (isDigit_of_mem_toString hchar)

/-- A decimal number consists of digits and perhaps a minus sign. -/
theorem encodedQuery_int64 (value : Int64) : EncodedQuery (toString value) := by
  change EncodedQuery (toString value.toInt)
  cases value.toInt with
  | ofNat magnitude => exact encodedQuery_nat magnitude
  | negSucc magnitude =>
      change EncodedQuery ("-" ++ toString (magnitude + 1))
      exact .append (.of_allowed (by decide)) (encodedQuery_nat _)

end Queries

theorem sourcesURL_accepted (haccepts : AcceptsEncodedQueries) :
    (urlFromString sourcesURL).isSome := by
  have hencoded : EncodedQuery ("?language=en&apiKey=" ++ apiKey) := .of_allowed (by decide)
  exact haccepts "https://newsapi.org/v2/sources" (by simp [endpoints]) _ hencoded

theorem articlesURL_accepted (haccepts : AcceptsEncodedQueries) (source : Source) :
    (urlFromString (articlesURL source)).isSome := by
  unfold articlesURL
  simp only [String.append_assoc]
  apply haccepts "https://newsapi.org/v2/everything" (by simp [endpoints])
  apply EncodedQuery.append (.of_allowed (by decide))
  apply EncodedQuery.append (encodedQuery_addingPercentEncoding _)
  apply EncodedQuery.append (.of_allowed (by decide))
  apply EncodedQuery.append (encodedQuery_addingPercentEncoding _)
  exact .of_allowed (by decide)

theorem headlinesURL_accepted (haccepts : AcceptsEncodedQueries) (country : String)
    (limit : Option Int64) : (urlFromString (headlinesURL country limit)).isSome := by
  unfold headlinesURL
  simp only [String.append_assoc]
  apply haccepts "https://newsapi.org/v2/top-headlines" (by simp [endpoints])
  apply EncodedQuery.append (.of_allowed (by decide))
  apply EncodedQuery.append (encodedQuery_addingPercentEncoding _)
  apply EncodedQuery.append (.of_allowed (by decide))
  apply EncodedQuery.append (encodedQuery_addingPercentEncoding _)
  cases limit with
  | none => exact .of_allowed (by decide)
  | some limit => exact .append (.of_allowed (by decide)) (encodedQuery_int64 limit)

end NewsApi

/-! ## What a completion handler calls -/

namespace NewsApi

variable (resultWrapper : Nat) (data : Option Data) (response : Option URLResponse)
  (error : Option ErrorValue)

/-- Every path through the handler ends in one call. -/
theorem sourcesCompletion_single : ∃ result reason,
    sourcesCompletion resultWrapper data response error = [⟨resultWrapper, result, reason⟩] := by
  unfold sourcesCompletion
  split
  · exact ⟨_, _, rfl⟩
  · split
    · split
      · exact ⟨_, _, rfl⟩
      · exact ⟨_, _, rfl⟩
      · exact ⟨_, _, rfl⟩
    · exact ⟨_, _, rfl⟩

theorem articleCompletion_single : ∃ result reason,
    articleCompletion resultWrapper data response error = [⟨resultWrapper, result, reason⟩] := by
  unfold articleCompletion
  split
  · exact ⟨_, _, rfl⟩
  · split
    · split
      · split
        · exact ⟨_, _, rfl⟩
        · exact ⟨_, _, rfl⟩
      · exact ⟨_, _, rfl⟩
    · exact ⟨_, _, rfl⟩

end NewsApi

/-- A completion handler makes one call, on the request it has captured. -/
theorem DataTask.complete_single (task : DataTask) (outcome : TaskOutcome) :
    ∃ result error, task.complete outcome = [⟨task.resultWrapper, result, error⟩] := by
  unfold DataTask.complete
  cases task.handler with
  | downloadSources => exact NewsApi.sourcesCompletion_single _ _ _ _
  | downloadArticle => exact NewsApi.articleCompletion_single _ _ _ _

/-- A data task is resumed unless the download is for articles of a source
without a name. -/
theorem Download.start_isSome_iff (haccepts : NewsApi.AcceptsEncodedQueries)
    (resultWrapper : Nat) (download : Download) :
    (download.start resultWrapper).isSome ↔
      ∀ source, download = .articles source → source.id ≠ "" := by
  cases download with
  | sources => simp [start, NewsApi.downloadSources, NewsApi.sourcesURL_accepted haccepts]
  | headlines country limit =>
      simp [start, NewsApi.downloadHeadlines, NewsApi.headlinesURL_accepted haccepts]
  | articles source =>
      by_cases hempty : source.id = ""
      · simp [start, NewsApi.downloadArticles, hempty]
      · simp [start, NewsApi.downloadArticles, hempty, NewsApi.articlesURL_accepted haccepts]

theorem Download.start_sources {resultWrapper : Nat} {task : DataTask}
    (hstart : sources.start resultWrapper = some task) : task.handler = .downloadSources := by
  obtain ⟨validURL, -, rfl⟩ := Option.map_eq_some_iff.mp hstart
  rfl

/-- The downloads other than that of the sources go through `downloadArticle`. -/
theorem Download.start_article {resultWrapper : Nat} {download : Download} {task : DataTask}
    (hstart : download.start resultWrapper = some task) (hdownload : download ≠ .sources) :
    task.handler = .downloadArticle := by
  cases download with
  | sources => exact absurd rfl hdownload
  | articles source =>
      obtain ⟨-, hstart⟩ := Option.ite_none_left_eq_some.mp hstart
      obtain ⟨validURL, -, rfl⟩ := Option.map_eq_some_iff.mp hstart
      rfl
  | headlines country limit =>
      obtain ⟨validURL, -, rfl⟩ := Option.map_eq_some_iff.mp hstart
      rfl

theorem DataTask.complete_article {task : DataTask} (hhandler : task.handler = .downloadArticle)
    (outcome : TaskOutcome) : task.complete outcome =
      NewsApi.articleCompletion task.resultWrapper outcome.data outcome.response outcome.error := by
  rw [complete, hhandler]

theorem Download.start_resultWrapper {resultWrapper : Nat} {download : Download} {task : DataTask}
    (hstart : download.start resultWrapper = some task) : task.resultWrapper = resultWrapper := by
  cases download with
  | sources =>
      obtain ⟨url, -, rfl⟩ := Option.map_eq_some_iff.mp hstart
      rfl
  | headlines country limit =>
      obtain ⟨url, -, rfl⟩ := Option.map_eq_some_iff.mp hstart
      rfl
  | articles source =>
      simp only [start, NewsApi.downloadArticles] at hstart
      split at hstart
      · exact absurd hstart.symm (Option.some_ne_none task)
      · obtain ⟨url, -, rfl⟩ := Option.map_eq_some_iff.mp hstart
        rfl

/-- A download settles the request that it was given exactly once, whatever
becomes of its data task, unless it is for articles of a source without a
name: such a request is never settled. -/
theorem Download.settles_request_iff (haccepts : NewsApi.AcceptsEncodedQueries)
    (resultWrapper : Nat) (download : Download) (outcome : TaskOutcome) :
    (download.reports resultWrapper outcome).map SetResult.request = [resultWrapper] ↔
      ∀ source, download = .articles source → source.id ≠ "" := by
  rw [← download.start_isSome_iff haccepts resultWrapper, reports]
  cases hstart : download.start resultWrapper with
  | none => simp
  | some task =>
      obtain ⟨result, error, hcalls⟩ := task.complete_single outcome
      simp [hcalls, start_resultWrapper hstart]

section Samples

omit [Foundation]

theorem NewsApi.sample_acceptsEncodedQueries : @AcceptsEncodedQueries .sample := by
  intro endpoint hendpoint query hquery
  have hblank : ' ' ∉ endpoint.toList := by
    revert endpoint
    decide
  have hblank' : ' ' ∉ query.toList := by
    intro hmem
    rcases PercentEncoding.mem_of_isEncoded hquery _ hmem with hallowed | hpercent | hdigit
    · exact absurd hallowed (by decide)
    · exact absurd hpercent (by decide)
    · exact absurd hdigit (by decide)
  have hne : endpoint ≠ "" := by
    revert endpoint
    decide
  simp [Foundation.urlFromString, hblank, hblank', hne]

theorem Download.settles_request_iff_sample :
    letI : Foundation := .sample
    (Download.reports 7 (.headlines "us" (some 3)) ⟨none, none, none⟩).map SetResult.request =
      [7] := by
  let _ : Foundation := .sample
  refine (Download.settles_request_iff NewsApi.sample_acceptsEncodedQueries 7
    (.headlines "us" (some 3)) ⟨none, none, none⟩).mpr ?_
  rintro source ⟨⟩

/-- A source that the service lists without an identifier. -/
def namelessSource : Source :=
  { id := "", name := "Gazette", desc := "", category := "general", language := "en",
    country := "us" }

theorem Download.nameless_source_unsettled :
    letI : Foundation := .sample
    NewsApi.AcceptsEncodedQueries ∧ ¬ ∀ (resultWrapper : Nat) (download : Download)
      (outcome : TaskOutcome),
        (download.reports resultWrapper outcome).map SetResult.request = [resultWrapper] := by
  let _ : Foundation := .sample
  refine ⟨NewsApi.sample_acceptsEncodedQueries, ?_⟩
  intro hsettles
  have hsettled := hsettles 0 (.articles namelessSource) ⟨none, none, none⟩
  have hnone : Download.reports 0 (.articles namelessSource) ⟨none, none, none⟩ = [] := rfl
  rw [hnone] at hsettled
  exact List.cons_ne_nil _ _ hsettled.symm

end Samples

/-! ## A result or an error -/

/-- The call passes a result or an error, and not both. -/
def SetResult.Decisive (call : SetResult) : Prop :=
  (call.result.isSome ∧ call.error = none) ∨ (call.result = none ∧ call.error.isSome)

/-- The service answered with a body that `JSONSerialization` accepts, and that is
no object. -/
def TaskOutcome.NotAnObject (outcome : TaskOutcome) : Prop :=
  outcome.error = none ∧ outcome.response = some (.http 200) ∧
    ∃ data json, outcome.data = some data ∧ jsonObject data = .ok json ∧ json.asObject = none

namespace NewsApi

theorem parseSources_invalidJSON_iff (validData : Data) :
    parseSources validData = .error (.news .invalidJSON) ↔
      TaskOutcome.NotAnObject ⟨some validData, some (.http 200), none⟩ := by
  unfold parseSources TaskOutcome.NotAnObject
  cases hjson : jsonObject validData with
  | error error => simp [hjson]
  | ok json => cases hobject : json.asObject <;> simp [hjson, hobject]

/-- The handler of `downloadSources` passes a result or a reason, except from
the clause that catches `invalidJSON`. -/
theorem sourcesCompletion_decisive_iff (resultWrapper : Nat) (outcome : TaskOutcome) :
    (∀ call ∈ sourcesCompletion resultWrapper outcome.data outcome.response outcome.error,
      call.Decisive) ↔ ¬ outcome.NotAnObject := by
  obtain ⟨data, response, error⟩ := outcome
  unfold sourcesCompletion
  cases error with
  | some error => simp [SetResult.Decisive, TaskOutcome.NotAnObject]
  | none =>
      dsimp only
      split
      next validData =>
        rw [← parseSources_invalidJSON_iff]
        split
        next hparse => simp [SetResult.Decisive, hparse]
        next hparse => simp [SetResult.Decisive, hparse]
        next error hother hparse =>
          have hne : error ≠ .news .invalidJSON := fun hsame => hother hsame
          simp [SetResult.Decisive, hparse, hne]
      next hguard =>
        have hobject : ¬ TaskOutcome.NotAnObject ⟨data, response, none⟩ := by
          rintro ⟨-, hresponse, validData, json, hdata, -⟩
          exact hguard validData hresponse hdata
        simp [SetResult.Decisive, hobject]

theorem articleCompletion_decisive (resultWrapper : Nat) (data : Option Data)
    (response : Option URLResponse) (error : Option ErrorValue) :
    ∀ call ∈ articleCompletion resultWrapper data response error, call.Decisive := by
  unfold articleCompletion
  split
  · simp [SetResult.Decisive]
  · split
    · split
      · split
        · simp [SetResult.Decisive]
        · simp [SetResult.Decisive]
      · simp [SetResult.Decisive]
    · simp [SetResult.Decisive]

end NewsApi

/-- Every call of `setResult` that a completion handler makes passes a result
or an error and not both, unless it is the handler of `downloadSources` and
`JSONSerialization` accepts a body that is no object: then it passes neither. -/
theorem DataTask.calls_decisive_iff (task : DataTask) (outcome : TaskOutcome) :
    (∀ call ∈ task.complete outcome, call.Decisive) ↔
      ¬ (task.handler = .downloadSources ∧ outcome.NotAnObject) := by
  unfold complete
  cases task.handler with
  | downloadSources => simp [NewsApi.sourcesCompletion_decisive_iff]
  | downloadArticle =>
      have hdecisive := NewsApi.articleCompletion_decisive task.resultWrapper outcome.data
        outcome.response outcome.error
      simpa using hdecisive

omit [Foundation] in
/-- The service answers the request for sources with an empty JSON array. -/
theorem DataTask.array_body_without_reason :
    letI : Foundation := .sample
    ¬ ∀ (task : DataTask) (outcome : TaskOutcome), ∀ call ∈ task.complete outcome,
      call.Decisive := by
  let _ : Foundation := .sample
  intro hdecisive
  have hcall := hdecisive ⟨NewsApi.sourcesURL, .downloadSources, 0⟩
    ⟨some (.text "[]"), some (.http 200), none⟩ ⟨0, none, none⟩ (List.mem_singleton_self _)
  rcases hcall with ⟨hresult, -⟩ | ⟨-, herror⟩
  · exact Bool.noConfusion hresult
  · exact Bool.noConfusion herror

end NewsDay
