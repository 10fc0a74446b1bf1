import NewsDay.Models.Transfer
import NewsDay.Network.WatchClient

/-! # The phone understands the watch

The keys and the request texts are ASCII literals on both sides, so they are
compared as they stand. Every message of the client passes the guards of the
server and leads to the call that was asked for, with one exception: headlines
without a limit, whose limit is boxed as nil and does not cast to an integer.
-/

namespace NewsDay

open Foundation

variable [Foundation]

/-- What a request of the watch is supposed to lead to on the phone. -/
def WatchRequest.intended : WatchRequest → WatchServer.Handling
  | .sources => .news .getSources .sources
  | .articles source => .news (.getArticles source) .articles
  | .image url => .retrieveImage url
  | .headlines country limit => .news (.getHeadlines country limit) .articles

theorem sameString_of_ascii {first second : String} (hfirst : isAscii first = true)
    (hsecond : isAscii second = true) :
    sameString first second = (first == second) := by
  rw [sameString, canonical_ascii first hfirst, canonical_ascii second hsecond]

namespace WatchServer

variable (tables : ModelTables)

theorem didReceiveMessage_sources :
    didReceiveMessage WatchClient.sourcesMessage tables =
      .ok (tables, .news .getSources .sources) := by
  simp (disch := decide) [didReceiveMessage, requestText, Message.value,
    WatchClient.sourcesMessage, AnyValue.asString, sameString_of_ascii, canonical_ascii]

/-- Articles are asked for by a source in an archive. -/
theorem didReceiveMessage_articles {tables' : ModelTables} {data : Data} {source : Source}
    (hread : Source.keyedUnarchive (some data) tables = .ok (tables', some source)) :
    didReceiveMessage [("request", .string "articles"), ("source", .ofData? (some data))] tables =
      .ok (tables', .news (.getArticles source) .articles) := by
  simp (disch := decide) [didReceiveMessage, requestText, Message.value, AnyValue.asString,
    AnyValue.asData, AnyValue.ofData?, sameString_of_ascii, canonical_ascii, hread, bind,
    Except.bind]

theorem didReceiveMessage_image {url : URL}
    (hurl : urlFromString (absoluteString url) = some url) :
    didReceiveMessage (WatchClient.imageMessage url) tables = .ok (tables, .retrieveImage url) := by
  simp (disch := decide) [didReceiveMessage, requestText, Message.value,
    WatchClient.imageMessage, AnyValue.asString, sameString_of_ascii, canonical_ascii, hurl]

theorem didReceiveMessage_headlines (country : String) (limit : Int64) :
    didReceiveMessage (WatchClient.headlinesMessage country (some limit)) tables =
      .ok (tables, .news (.getHeadlines country (some limit)) .articles) := by
  simp (disch := decide) [didReceiveMessage, requestText, Message.value,
    WatchClient.headlinesMessage, AnyValue.asString, AnyValue.asInt_ofInt?, sameString_of_ascii,
    canonical_ascii]

/-- A limit that is nil is a value under the key all the same, and no integer. -/
theorem didReceiveMessage_headlines_unlimited (country : String) :
    didReceiveMessage (WatchClient.headlinesMessage country none) tables =
      .ok (tables, .dropped) := by
  simp (disch := decide) [didReceiveMessage, requestText, Message.value,
    WatchClient.headlinesMessage, AnyValue.asString, AnyValue.asInt, AnyValue.ofInt?,
    sameString_of_ascii, canonical_ascii]

end WatchServer

/-- What a source looks like in a message, and that the server restores it. -/
theorem WatchClient.articlesMessage_eq (hfaithful : ArchivesFaithfully) (source : Source)
    (tables : ModelTables) : ∃ tables' data,
      articlesMessage source tables =
        .ok (tables', [("request", .string "articles"), ("source", .ofData? (some data))]) ∧
      archiveContents data = .ok (source.archived "Source") := by
  obtain ⟨data, harchived, hcontents⟩ := hfaithful (source.archived "Source")
  refine ⟨tables.setClassName "Source" .source, data, ?_, hcontents⟩
  simp only [articlesMessage, source.keyedArchive_eq tables, harchived, bind, Except.bind]
  rfl

/-- The server understands every message of the client, except one that asks
for headlines without a limit. -/
theorem WatchRequest.understood_iff (hfaithful : ArchivesFaithfully) (hurls : ReadsAbsoluteURLs)
    (request : WatchRequest) (habsolute : ∀ url, request = .image url → isAbsolute url = true)
    (watch phone : ModelTables) : ∃ watch' message,
      request.message watch = .ok (watch', message) ∧
        ((∃ phone', WatchServer.didReceiveMessage message phone = .ok (phone', request.intended)) ↔
          ∀ country, request ≠ .headlines country none) := by
  cases request with
  | sources =>
      refine ⟨watch, _, rfl, ?_⟩
      have hunderstood := WatchServer.didReceiveMessage_sources phone
      exact iff_of_true ⟨phone, hunderstood⟩ (by simp)
  | articles source =>
      obtain ⟨watch', data, hmessage, hcontents⟩ :=
        WatchClient.articlesMessage_eq hfaithful source watch
      refine ⟨watch', _, hmessage, ?_⟩
      have hread := source.keyedUnarchive_archived phone hcontents
      have hunderstood := WatchServer.didReceiveMessage_articles phone hread
      exact iff_of_true ⟨_, hunderstood⟩ (by simp)
  | image url =>
      refine ⟨watch, _, rfl, ?_⟩
      have hurl := hurls url (habsolute url rfl)
      have hunderstood := WatchServer.didReceiveMessage_image phone hurl
      exact iff_of_true ⟨phone, hunderstood⟩ (by simp)
  | headlines country limit =>
      refine ⟨watch, _, rfl, ?_⟩
      cases limit with
      | some limit =>
          have hunderstood := WatchServer.didReceiveMessage_headlines phone country limit
          exact iff_of_true ⟨phone, hunderstood⟩ (by simp)
      | none =>
          have hdropped := WatchServer.didReceiveMessage_headlines_unlimited phone country
          apply iff_of_false
          · rintro ⟨phone', hunderstood⟩
            simp [hdropped, intended] at hunderstood
          · intro hlimited
            exact hlimited country rfl

section Samples

omit [Foundation]

theorem WatchRequest.understood_iff_sample :
    letI : Foundation := .sample
    ∃ watch' message,
      (WatchRequest.articles sampleSource).message (processTables "Watch") = .ok (watch', message) ∧
        ((∃ phone', WatchServer.didReceiveMessage message (processTables "NewsDay") =
            .ok (phone', (WatchRequest.articles sampleSource).intended)) ↔
          ∀ country, WatchRequest.articles sampleSource ≠ .headlines country none) := by
  let _ : Foundation := .sample
  exact WatchRequest.understood_iff sample_archivesFaithfully sample_readsAbsoluteURLs
    (.articles sampleSource) (by rintro url ⟨⟩) (processTables "Watch") (processTables "NewsDay")

theorem WatchRequest.unlimited_headlines_dropped :
    letI : Foundation := .sample
    ArchivesFaithfully ∧ ReadsAbsoluteURLs ∧ ¬ ∀ (request : WatchRequest)
      (watch watch' phone : ModelTables) (message : Message),
        (∀ url, request = .image url → isAbsolute url = true) →
          request.message watch = .ok (watch', message) →
            ∃ phone', WatchServer.didReceiveMessage message phone =
              .ok (phone', request.intended) := by
  let _ : Foundation := .sample
  refine ⟨sample_archivesFaithfully, sample_readsAbsoluteURLs, ?_⟩
  intro hunderstood
  obtain ⟨phone', hhandled⟩ := hunderstood (.headlines "us" none) (processTables "Watch")
    (processTables "Watch") (processTables "NewsDay") _ (by rintro url ⟨⟩) rfl
  simp [WatchServer.didReceiveMessage_headlines_unlimited, intended] at hhandled

end Samples

end NewsDay
