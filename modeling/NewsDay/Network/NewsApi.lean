import NewsDay.Library.PercentEncoding
import NewsDay.Models.Parsing

/-! # The news service

`NewsApi` keeps the requests that it has handed out and starts a download only
for a request it does not have. A download builds a URL and runs a data task,
whose completion handler sets the result of the request.
-/

namespace NewsDay

open Foundation

variable [Foundation]

/-- `enum NewsError`. -/
inductive NewsError
  | invalidJSON
  | downloadFailed
deriving DecidableEq

/-- An error value: one of the program's own or one of the platform's. -/
inductive ErrorValue
  | news (error : NewsError)
  | system (error : NSError)

/-- What a data task passes as its response. -/
inductive URLResponse
  | http (statusCode : Int)
  | other
deriving DecidableEq

/-- A call of `setResult` on a request. -/
structure SetResult where
  request : Nat
  result : Option AnyValue
  error : Option ErrorValue

/-- A download, named by the function that starts it and its arguments. -/
inductive Download
  | sources
  | articles (source : Source)
  | headlines (country : String) (limit : Option Int64)
deriving DecidableEq

/-- The two completion handlers. -/
inductive Handler
  | downloadSources
  | downloadArticle
deriving DecidableEq

/-- A data task that has been resumed, with what its completion handler has
captured. -/
structure DataTask where
  url : URL
  handler : Handler
  resultWrapper : Nat

namespace NewsApi

def apiKey : String := "e57307362d89480a8dc57479c75935ba"

/-- `CharacterSet.urlQueryAllowed`: unreserved characters, sub-delimiters, and
`: @ / ?`. -/
def urlQueryAllowed (char : Char) : Bool :=
  ('a' ≤ char && char ≤ 'z') || ('A' ≤ char && char ≤ 'Z') || ('0' ≤ char && char ≤ '9') ||
    "-._~!$&'()*+,;=:@/?".toList.contains char

/-- `addingPercentEncoding(withAllowedCharacters: .urlQueryAllowed)`. Only text
that is not well-formed Unicode would have no encoding. -/
def addingPercentEncoding (text : String) : String := PercentEncoding.encode urlQueryAllowed text

/-! ## Building URLs -/

def sourcesURL : String :=
  "https://newsapi.org/v2/sources?language=en&apiKey=" ++ apiKey

def articlesURL (source : Source) : String :=
  let encodedSource := addingPercentEncoding source.id
  let encodedApiKey := addingPercentEncoding apiKey
  "https://newsapi.org/v2/everything" ++ ("?sources=" ++ encodedSource) ++
    ("&apiKey=" ++ encodedApiKey) ++ "&sortBy=publishedAt"

def headlinesURL (country : String) (limit : Option Int64) : String :=
  let encodedApiKey := addingPercentEncoding apiKey
  let encodedCountry := addingPercentEncoding country
  "https://newsapi.org/v2/top-headlines" ++ ("?country=" ++ encodedCountry) ++
    ("&apiKey=" ++ encodedApiKey) ++
      (match limit with
        | some limit => "&pageSize=" ++ toString limit
        | none => "")

/-! ## Starting a download -/

variable (resultWrapper : Nat)

/-- `downloadSources(resultWrapper:)` up to `task.resume()`. -/
def downloadSources : Option DataTask :=
  (urlFromString sourcesURL).map fun validURL =>
    { url := validURL, handler := .downloadSources, resultWrapper }

/-- `downloadArticle(fromUrl:resultWrapper:)` up to `task.resume()`. -/
def downloadArticle (validURL : URL) : DataTask :=
  { url := validURL, handler := .downloadArticle, resultWrapper }

/-- `downloadArticles(source:resultWrapper:)`. -/
def downloadArticles (source : Source) : Option DataTask :=
  -- "Invalid news source name"
  if source.id.isEmpty then none
  else (urlFromString (articlesURL source)).map (downloadArticle resultWrapper)

/-- `downloadHeadlines(country:limit:resultWrapper:)`. -/
def downloadHeadlines (country : String) (limit : Option Int64) : Option DataTask :=
  (urlFromString (headlinesURL country limit)).map (downloadArticle resultWrapper)

end NewsApi

/-- The data task that a download function resumes, if it resumes one. -/
def Download.start (resultWrapper : Nat) : Download → Option DataTask
  | .sources => NewsApi.downloadSources resultWrapper
  | .articles source => NewsApi.downloadArticles resultWrapper source
  | .headlines country limit => NewsApi.downloadHeadlines resultWrapper country limit

/-! ## Completion handlers -/

namespace NewsApi

variable (resultWrapper : Nat)

/-- The `do` block in the handler of `downloadSources`. -/
def parseSources (validData : Data) : Except ErrorValue CategorizedSources :=
  match jsonObject validData with
  | .error error => .error (.system error)
  | .ok json =>
      match json.asObject with
      | none => .error (.news .invalidJSON)
      | some jsonTopLevel =>
          .ok (Source.categorize ((Json.objectsAt jsonTopLevel "sources").map .ofJson))

/-- The completion handler of `downloadSources`: its calls of `setResult`. -/
def sourcesCompletion (data : Option Data) (response : Option URLResponse)
    (error : Option ErrorValue) : List SetResult :=
  match error with
  | some error => [⟨resultWrapper, none, some error⟩]
  | none =>
      match response, data with
      | some (.http 200), some validData =>
          match parseSources validData with
          | .ok categorizedSources =>
              [⟨resultWrapper, some (.categorizedSources categorizedSources), none⟩]
          -- a clause with a pattern binds no error: `error` is the handler's parameter
          | .error (.news .invalidJSON) => [⟨resultWrapper, none, error⟩]
          | .error error => [⟨resultWrapper, none, some error⟩]
      | _, _ => [⟨resultWrapper, none, some (.news .downloadFailed)⟩]

/-- The `do` block in the handler of `downloadArticle`. -/
def parseArticles (validData : Data) : Except ErrorValue (List Article) :=
  match jsonObject validData with
  | .error error => .error (.system error)
  | .ok json =>
      -- a top level that is no object has no articles, which is no error here
      let jsonArticles := (json.asObject.map (Json.objectsAt · "articles")).getD []
      .ok (jsonArticles.map .ofJson)

/-- The completion handler of `downloadArticle`: its calls of `setResult`. -/
def articleCompletion (data : Option Data) (response : Option URLResponse)
    (error : Option ErrorValue) : List SetResult :=
  match error with
  | some validError => [⟨resultWrapper, none, some validError⟩]
  | none =>
      match response, data with
      | some (.http statusCode), some validData =>
          if 200 ≤ statusCode ∧ statusCode ≤ 299 then
            match parseArticles validData with
            | .ok articles => [⟨resultWrapper, some (.ofArticles articles), none⟩]
            | .error error => [⟨resultWrapper, none, some error⟩]
          else [⟨resultWrapper, none, some (.news .downloadFailed)⟩]
      | _, _ => [⟨resultWrapper, none, some (.news .invalidJSON)⟩]

end NewsApi

/-- The outcome of a data task. -/
structure TaskOutcome where
  data : Option Data
  response : Option URLResponse
  error : Option ErrorValue

/-- Run the completion handler of a data task. -/
def DataTask.complete (task : DataTask) (outcome : TaskOutcome) : List SetResult :=
  match task.handler with
  | .downloadSources => NewsApi.sourcesCompletion task.resultWrapper outcome.data
      outcome.response outcome.error
  | .downloadArticle => NewsApi.articleCompletion task.resultWrapper outcome.data
      outcome.response outcome.error

/-! ## The cache -/

/-- `NewsApi.instance`. The requests are named by their identities. -/
structure NewsApi where
  sourcesResult : Option Nat := none
  headlinesResult : List (String × Nat) := []
  articlesResult : List (String × Nat) := []

/-- What one of the public functions does: the new cache, the request that it
returns, and the download that it starts for that request. -/
structure NewsApi.Answer where
  api : NewsApi
  request : Nat
  started : Option Download

namespace NewsApi

variable (api : NewsApi)

/-- `NewsApi.getSources()`; `fresh` is the request that `AsyncRequest()` makes. -/
def getSources (fresh : Nat) : Answer :=
  match api.sourcesResult with
  | some sourcesResult => { api, request := sourcesResult, started := none }
  | none =>
      { api := { api with sourcesResult := some fresh }
        request := fresh
        started := some .sources }

/-- `NewsApi.getHeadlines(country:limit:)`. -/
def getHeadlines (country : String) (limit : Option Int64) (fresh : Nat) : Answer :=
  -- in `articlesResult`; nothing reads `headlinesResult`
  match Dictionary.lookup canonical api.articlesResult country with
  | some articlesResult => { api, request := articlesResult, started := none }
  | none =>
      { api := { api with
          articlesResult := Dictionary.insert canonical api.articlesResult country fresh }
        request := fresh
        started := some (.headlines country limit) }

/-- `NewsApi.getArticles(source:)`. -/
def getArticles (source : Source) (fresh : Nat) : Answer :=
  match Dictionary.lookup canonical api.articlesResult source.id with
  | some articlesResult => { api, request := articlesResult, started := none }
  | none =>
      { api := { api with
          articlesResult := Dictionary.insert canonical api.articlesResult source.id fresh }
        request := fresh
        started := some (.articles source) }

/-- A call of one of the three public functions. -/
inductive Call
  | getSources
  | getArticles (source : Source)
  | getHeadlines (country : String) (limit : Option Int64)
deriving DecidableEq

def call (fresh : Nat) : Call → Answer
  | .getSources => api.getSources fresh
  | .getArticles source => api.getArticles source fresh
  | .getHeadlines country limit => api.getHeadlines country limit fresh

end NewsApi

end NewsDay
