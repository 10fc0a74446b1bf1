import NewsDay.Network.NewsApiDownloads

/-! # What counts as an answer of the service

The two completion handlers decide from the same triple of data, response and
error whether a request comes out with a value. What each of them accepts is
stated here on the triple alone; they agree exactly on the triples that are not
accepted by the handler for articles only.
-/

namespace NewsDay

open Foundation

variable [Foundation]

/-- The articles that the handler of `downloadArticle` finds in a JSON value. -/
def Article.listed (json : Json) : List Article :=
  ((json.asObject.map (Json.objectsAt · "articles")).getD []).map .ofJson

namespace TaskOutcome

/-- The service answered with this status and a body that `JSONSerialization`
accepts and reads as this value. -/
def Answers (outcome : TaskOutcome) (statusCode : Int) (json : Json) : Prop :=
  outcome.error = none ∧ outcome.response = some (.http statusCode) ∧
    ∃ data, outcome.data = some data ∧ jsonObject data = .ok json

/-- The service answered with a list of articles, or with another body that
`JSONSerialization` accepts, which passes for an empty list. -/
def Lists (outcome : TaskOutcome) (articles : List Article) : Prop :=
  ∃ statusCode json, outcome.Answers statusCode json ∧ 200 ≤ statusCode ∧ statusCode ≤ 299 ∧
    articles = Article.listed json

variable {outcome : TaskOutcome} {statusCode statusCode' : Int} {json json' : Json}

theorem Answers.unique (hanswers : outcome.Answers statusCode json)
    (hanswers' : outcome.Answers statusCode' json') : statusCode = statusCode' ∧ json = json' := by
  obtain ⟨-, hresponse, data, hdata, hjson⟩ := hanswers
  obtain ⟨-, hresponse', data', hdata', hjson'⟩ := hanswers'
  obtain rfl := Option.some.inj (hdata.symm.trans hdata')
  exact ⟨URLResponse.http.inj (Option.some.inj (hresponse.symm.trans hresponse')),
    Except.ok.inj (hjson.symm.trans hjson')⟩

theorem Lists.unique {articles articles' : List Article} (hlists : outcome.Lists articles)
    (hlists' : outcome.Lists articles') : articles = articles' := by
  obtain ⟨_, json, hanswers, -, -, rfl⟩ := hlists
  obtain ⟨_, json', hanswers', -, -, rfl⟩ := hlists'
  rw [(hanswers.unique hanswers').2]

end TaskOutcome

/-! ## What the handlers make of a triple -/

namespace NewsApi

/-- The handler of `downloadArticle` passes on the articles that the service
has listed, and otherwise an error. -/
theorem articleCompletion_cases (resultWrapper : Nat) (outcome : TaskOutcome) :
    (∃ articles, outcome.Lists articles ∧
      articleCompletion resultWrapper outcome.data outcome.response outcome.error =
        [⟨resultWrapper, some (.ofArticles articles), none⟩]) ∨
    ((∀ articles, ¬ outcome.Lists articles) ∧ ∃ reason,
      articleCompletion resultWrapper outcome.data outcome.response outcome.error =
        [⟨resultWrapper, none, some reason⟩]) := by
  obtain ⟨data, response, error⟩ := outcome
  unfold articleCompletion
  dsimp only
  split
  next reason =>
    refine .inr ⟨?_, reason, rfl⟩
    rintro articles ⟨statusCode, json, ⟨hnone, -⟩, -⟩
    exact Option.some_ne_none reason hnone
  next =>
    split
    next statusCode validData =>
      split
      next hstatus =>
        cases hjson : jsonObject validData with
        | error reason =>
            refine .inr ⟨?_, .system reason, by rw [parseArticles, hjson]⟩
            rintro articles ⟨_, json, ⟨-, -, data, hdata, hread⟩, -⟩
            obtain rfl := Option.some.inj hdata
            exact absurd (hjson.symm.trans hread) (by simp)
        | ok json =>
            refine .inl ⟨Article.listed json, ?_, by rw [parseArticles, hjson]; rfl⟩
            exact ⟨statusCode, json, ⟨rfl, rfl, validData, rfl, hjson⟩, hstatus.1, hstatus.2, rfl⟩
      next hstatus =>
        refine .inr ⟨?_, .news .downloadFailed, rfl⟩
        rintro articles ⟨_, json, ⟨-, hresponse, -⟩, hlow, hhigh, -⟩
        obtain rfl := URLResponse.http.inj (Option.some.inj hresponse)
        exact hstatus ⟨hlow, hhigh⟩
    next hguard =>
      refine .inr ⟨?_, .news .invalidJSON, rfl⟩
      rintro articles ⟨statusCode, json, ⟨-, hresponse, validData, hdata, -⟩, -⟩
      exact hguard statusCode validData hresponse hdata

/-- The handler of `downloadSources` passes on groups of sources for a JSON
object with status 200 only. -/
theorem sourcesCompletion_cases (resultWrapper : Nat) (outcome : TaskOutcome) :
    (∃ entries categorizedSources, outcome.Answers 200 (.object entries) ∧
      sourcesCompletion resultWrapper outcome.data outcome.response outcome.error =
        [⟨resultWrapper, some (.categorizedSources categorizedSources), none⟩]) ∨
    ((∀ entries, ¬ outcome.Answers 200 (.object entries)) ∧ ∃ reason,
      sourcesCompletion resultWrapper outcome.data outcome.response outcome.error =
        [⟨resultWrapper, none, reason⟩]) := by
  obtain ⟨data, response, error⟩ := outcome
  unfold sourcesCompletion
  dsimp only
  split
  next reason =>
    refine .inr ⟨?_, some reason, rfl⟩
    rintro entries ⟨hnone, -⟩
    exact Option.some_ne_none reason hnone
  next =>
    split
    next validData =>
      have hdata : ∀ entries, TaskOutcome.Answers ⟨some validData, some (.http 200), none⟩ 200
          (.object entries) ↔ jsonObject validData = .ok (.object entries) := by
        simp [TaskOutcome.Answers]
      simp only [hdata]
      cases hjson : jsonObject validData with
      | error reason => exact .inr ⟨by simp, some (.system reason), by rw [parseSources, hjson]⟩
      | ok json =>
          cases json with
          | object entries => exact .inl ⟨entries, _, rfl, by rw [parseSources, hjson]; rfl⟩
          | _ => exact .inr ⟨by simp, none, by rw [parseSources, hjson]; rfl⟩
    next hguard =>
      refine .inr ⟨?_, some (.news .downloadFailed), rfl⟩
      rintro entries ⟨-, hresponse, validData, hdata, -⟩
      exact hguard validData hresponse hdata

/-! ## Agreement -/

/-- One call of `setResult` is made, and it passes no result. -/
def SettlesWithNil (calls : List SetResult) : Prop :=
  ∃ request reason, calls = [⟨request, none, reason⟩]

variable {outcome : TaskOutcome}

theorem sourcesCompletion_nil_iff (resultWrapper : Nat) :
    SettlesWithNil (sourcesCompletion resultWrapper outcome.data outcome.response outcome.error) ↔
      ∀ entries, ¬ outcome.Answers 200 (.object entries) := by
  rcases sourcesCompletion_cases resultWrapper outcome with
    ⟨entries, categorizedSources, hanswers, hcalls⟩ | ⟨hnone, reason, hcalls⟩
  · rw [hcalls]
    exact iff_of_false (by simp [SettlesWithNil]) fun hnone => hnone entries hanswers
  · rw [hcalls]
    exact iff_of_true ⟨resultWrapper, reason, rfl⟩ hnone

theorem articleCompletion_nil_iff (resultWrapper : Nat) :
    SettlesWithNil (articleCompletion resultWrapper outcome.data outcome.response outcome.error) ↔
      ∀ articles, ¬ outcome.Lists articles := by
  rcases articleCompletion_cases resultWrapper outcome with
    ⟨articles, hlists, hcalls⟩ | ⟨hnone, reason, hcalls⟩
  · rw [hcalls]
    exact iff_of_false (by simp [SettlesWithNil]) fun hnone => hnone articles hlists
  · rw [hcalls]
    exact iff_of_true ⟨resultWrapper, some reason, rfl⟩ hnone

/-- The two handlers, given the same triple, fail alike; in particular they
both fail where the body is no JSON object. -/
structure ClassifyAlike (outcome : TaskOutcome) (sourcesRequest articlesRequest : Nat) : Prop where
  alike :
    SettlesWithNil (sourcesCompletion sourcesRequest outcome.data outcome.response outcome.error) ↔
      SettlesWithNil (articleCompletion articlesRequest outcome.data outcome.response outcome.error)
  noObject : (∀ data entries, outcome.data = some data → jsonObject data ≠ .ok (.object entries)) →
    SettlesWithNil (sourcesCompletion sourcesRequest outcome.data outcome.response outcome.error) ∧
      SettlesWithNil (articleCompletion articlesRequest outcome.data outcome.response outcome.error)

/-- The handlers classify a triple alike exactly if an answer with a body that
`JSONSerialization` accepts and a status of success has the status 200 and an
object. -/
theorem classifyAlike_iff (outcome : TaskOutcome) (sourcesRequest articlesRequest : Nat) :
    ClassifyAlike outcome sourcesRequest articlesRequest ↔
      ∀ statusCode json, outcome.Answers statusCode json → 200 ≤ statusCode → statusCode ≤ 299 →
        statusCode = 200 ∧ ∃ entries, json = .object entries := by
  constructor
  · intro hclassify statusCode json hanswers hlow hhigh
    have hlists : outcome.Lists (Article.listed json) :=
      ⟨statusCode, json, hanswers, hlow, hhigh, rfl⟩
    have hsources : ¬ ∀ entries, ¬ outcome.Answers 200 (.object entries) := by
      rw [← sourcesCompletion_nil_iff sourcesRequest, hclassify.alike, articleCompletion_nil_iff]
      exact fun hnone => hnone _ hlists
    obtain ⟨entries, hobject⟩ := not_forall_not.mp hsources
    obtain ⟨rfl, rfl⟩ := hanswers.unique hobject
    exact ⟨rfl, entries, rfl⟩
  · intro hanswer
    have halike : (∀ entries, ¬ outcome.Answers 200 (.object entries)) ↔
        ∀ articles, ¬ outcome.Lists articles := by
      constructor
      · rintro hnone articles ⟨statusCode, json, hanswers, hlow, hhigh, -⟩
        obtain ⟨rfl, entries, rfl⟩ := hanswer statusCode json hanswers hlow hhigh
        exact hnone entries hanswers
      · intro hnone entries hanswers
        exact hnone _ ⟨200, .object entries, hanswers, by decide, by decide, rfl⟩
    refine ⟨?_, ?_⟩
    · rw [sourcesCompletion_nil_iff, articleCompletion_nil_iff]
      exact halike
    · intro hbody
      rw [sourcesCompletion_nil_iff, articleCompletion_nil_iff, ← halike, and_self]
      rintro entries ⟨-, -, data, hdata, hjson⟩
      exact hbody data entries hdata hjson

omit [Foundation] in
/-- The service answers with an empty JSON array: no sources, but a list of no
articles. -/
theorem array_body_lists_no_articles :
    letI : Foundation := .sample
    ¬ ∀ outcome sourcesRequest articlesRequest,
      ClassifyAlike outcome sourcesRequest articlesRequest := by
  let _ : Foundation := .sample
  intro hall
  obtain ⟨-, hnoObject⟩ := hall ⟨some (.text "[]"), some (.http 200), none⟩ 0 1
  obtain ⟨-, request, reason, hcalls⟩ := hnoObject (by
    rintro data entries ⟨⟩ hjson
    exact absurd hjson nofun)
  have hresult : [false] = [true] :=
    congrArg (List.map fun call : SetResult => call.result.isNone) hcalls
  exact absurd hresult (by decide)

end NewsApi

end NewsDay
