import NewsDay.Network.NewsApiCache
import NewsDay.Network.WatchProtocol
import NewsDay.Network.WatchReplies

/-! # One exchange between watch and phone

A message of the client that the server reads at all is read as what was asked
for, and a reply of the matching callback is decoded to the result that the
callback was given. Both sides archive and restore with class tables of their
own.
-/

namespace NewsDay

open Foundation WatchServer

variable [Foundation]

/-- The place of the news cache that a request of the watch is about. -/
def WatchRequest.slot : WatchRequest → Option NewsApi.Slot
  | .sources => some .sources
  | .articles source => some (.keyed source.id)
  | .image _ => none
  | .headlines country _ => some (.keyed country)

namespace WatchRequest

variable {request : WatchRequest} {slot : NewsApi.Slot}

theorem intended_of_slot (hslot : request.slot = some slot) :
    ∃ call callback, request.intended = .news call callback ∧ call.slot = slot := by
  cases request with
  | sources => exact ⟨_, _, rfl, Option.some.inj hslot⟩
  | articles source => exact ⟨_, _, rfl, Option.some.inj hslot⟩
  | image url => exact absurd hslot.symm (Option.some_ne_none slot)
  | headlines country limit => exact ⟨_, _, rfl, Option.some.inj hslot⟩

/-- What the server makes of a message for news, if it gets past the guards. -/
theorem reads_intended (hfaithful : ArchivesFaithfully) (hslot : request.slot = some slot)
    {tables tables' : ModelTables} {message : Message}
    (hmessage : request.message tables = .ok (tables', message)) {modulePrefix : String}
    {handling : Handling} (hreads : Reads modulePrefix message handling) :
    handling = request.intended := by
  obtain ⟨phone, hread⟩ := hreads.didReceiveMessage (.start modulePrefix)
  cases request with
  | sources =>
      obtain ⟨rfl, rfl⟩ := Prod.mk.inj (Except.ok.inj hmessage)
      rw [didReceiveMessage_sources] at hread
      exact (Prod.mk.inj (Except.ok.inj hread)).2.symm
  | articles source =>
      obtain ⟨sent, data, harticles, hcontents⟩ :=
        WatchClient.articlesMessage_eq hfaithful source tables
      rw [WatchRequest.message, harticles] at hmessage
      obtain ⟨rfl, rfl⟩ := Prod.mk.inj (Except.ok.inj hmessage)
      rw [didReceiveMessage_articles _ (source.keyedUnarchive_archived _ hcontents)] at hread
      exact (Prod.mk.inj (Except.ok.inj hread)).2.symm
  | image url => exact absurd hslot.symm (Option.some_ne_none slot)
  | headlines country limit =>
      obtain ⟨rfl, rfl⟩ := Prod.mk.inj (Except.ok.inj hmessage)
      cases limit with
      | some limit =>
          rw [didReceiveMessage_headlines] at hread
          exact (Prod.mk.inj (Except.ok.inj hread)).2.symm
      | none =>
          -- the server drops this message, which is no way to read one
          rw [didReceiveMessage_headlines_unlimited] at hread
          obtain ⟨-, rfl⟩ := Prod.mk.inj (Except.ok.inj hread)
          exact nomatch hreads

end WatchRequest

/-! ## Replies -/

theorem archiveContents_of_archivedData (hfaithful : ArchivesFaithfully) {archive : ModelArchive}
    {data : Data} (hdata : archivedData archive = .ok data) :
    archiveContents data = .ok archive := by
  obtain ⟨data', harchived, hcontents⟩ := hfaithful archive
  obtain rfl := Except.ok.inj (harchived.symm.trans hdata)
  exact hcontents

namespace WatchClient

variable (tables : ModelTables) {data : Data} {sources : CategorizedSources}
  {articles : List Article}

theorem sourcesReplied_archived (hcount : sources.details.length < 2 ^ 31)
    (hcontents : archiveContents data = .ok (sources.archived "CategorizedSources")) :
    ∃ tables', sourcesReplied [("sources", .data data)] tables =
      .ok (tables', some (some (.categorizedSources sources), none)) := by
  obtain ⟨tables', hread⟩ := sources.keyedUnarchive_archived tables hcount hcontents
  refine ⟨tables', ?_⟩
  simp only [sourcesReplied, Message.value, Dictionary.lookup_cons, if_true, Option.bind_some,
    AnyValue.asData, hread]
  rfl

theorem articlesReplied_archived
    (hcontents : archiveContents data = .ok (.array (articles.map (Article.archived "Article")))) :
    ∃ tables', articlesReplied [("articles", .data data)] tables =
      .ok (tables', some (some (.ofArticles articles), none)) := by
  have hread := Article.keyedUnarchiveArray_archived articles tables hcontents
  refine ⟨tables.setClass .article "Article", ?_⟩
  simp only [articlesReplied, Message.value, Dictionary.lookup_cons, if_true, Option.bind_some,
    AnyValue.asData, hread]
  rfl

theorem headlinesReplied_archived
    (hcontents : archiveContents data = .ok (.array (articles.map (Article.archived "Article")))) :
    ∃ tables', headlinesReplied [("articles", .data data)] tables =
      .ok (tables', some (some (.ofArticles articles), none)) := by
  have hread := Article.keyedUnarchiveArray_archived articles tables hcontents
  refine ⟨tables.setClass .article "Article", ?_⟩
  simp only [headlinesReplied, Message.value, Dictionary.lookup_cons, if_true, Option.bind_some,
    AnyValue.asData, hread]
  rfl

end WatchClient

/-- The reply handler passes on the result that the server's callback for this
request has replied to. -/
theorem WatchRequest.replied_replyFor (hfaithful : ArchivesFaithfully) {request : WatchRequest}
    {call : NewsApi.Call} {callback : Callback}
    (hintended : request.intended = .news call callback) {result : Option AnyValue}
    {reply : Message} (hreply : callback.replyFor result = some reply) (tables : ModelTables) :
    ∃ tables', request.replied reply tables = .ok (tables', some (result, none)) := by
  cases request with
  | sources =>
      obtain ⟨-, rfl⟩ := Handling.news.inj hintended
      obtain ⟨sources, data, rfl, hcount, hdata, rfl⟩ := Callback.replyFor_sources hreply
      exact WatchClient.sourcesReplied_archived tables hcount
        (archiveContents_of_archivedData hfaithful hdata)
  | articles source =>
      obtain ⟨-, rfl⟩ := Handling.news.inj hintended
      obtain ⟨articles, data, rfl, hdata, rfl⟩ := Callback.replyFor_articles hreply
      exact WatchClient.articlesReplied_archived tables
        (archiveContents_of_archivedData hfaithful hdata)
  | image url => exact absurd hintended nofun
  | headlines country limit =>
      obtain ⟨-, rfl⟩ := Handling.news.inj hintended
      obtain ⟨articles, data, rfl, hdata, rfl⟩ := Callback.replyFor_articles hreply
      exact WatchClient.headlinesReplied_archived tables
        (archiveContents_of_archivedData hfaithful hdata)

/-! ## Pictures -/

/-- The watch gets this picture for an image that the phone has retrieved. -/
def WatchServer.Transfers (image picture : UIImage) : Prop :=
  ∃ resizedImage data, resizeImage image (448, 368) = some resizedImage ∧
    jpegData resizedImage = some data ∧ imageFromData data = some picture

/-- A message for a picture is handled as a request for the URL that its text
gives, if it gives one. -/
theorem WatchClient.imageMessage_handled (url : URL) (tables : ModelTables) :
    didReceiveMessage (imageMessage url) tables =
      .ok (tables, (urlFromString (absoluteString url)).elim .dropped .retrieveImage) := by
  cases hurl : urlFromString (absoluteString url) with
  | none =>
      simp (disch := decide) [didReceiveMessage, requestText, Message.value, imageMessage,
        AnyValue.asString, sameString_of_ascii, canonical_ascii, hurl]
  | some retrieved =>
      simp (disch := decide) [didReceiveMessage, requestText, Message.value, imageMessage,
        AnyValue.asString, sameString_of_ascii, canonical_ascii, hurl]

theorem WatchClient.imageMessage_reads {url : URL} {modulePrefix : String} {handling : Handling}
    (hreads : Reads modulePrefix (imageMessage url) handling) :
    ∃ retrieved, handling = .retrieveImage retrieved ∧
      urlFromString (absoluteString url) = some retrieved := by
  obtain ⟨tables, hread⟩ := hreads.didReceiveMessage (.start modulePrefix)
  rw [imageMessage_handled] at hread
  obtain ⟨-, rfl⟩ := Prod.mk.inj (Except.ok.inj hread)
  cases hurl : urlFromString (absoluteString url) with
  | none =>
      rw [hurl] at hreads
      cases hreads
  | some retrieved => exact ⟨retrieved, rfl, rfl⟩

/-- The picture that the watch makes of a reply is the one of the image. -/
theorem WatchClient.imageReplied_imageReply {image : Option UIImage} {reply : Message}
    (hreply : imageReply image = some reply) {value : AnyValue} {error : Option ErrorValue}
    (hreplied : imageReplied reply = some (some value, error)) :
    ∃ retrieved picture, image = some retrieved ∧ Transfers retrieved picture ∧
      value = .image picture := by
  obtain ⟨retrieved, himage, hreply⟩ := Option.bind_eq_some_iff.mp hreply
  obtain ⟨resizedImage, hresized, hreply⟩ := Option.bind_eq_some_iff.mp hreply
  obtain rfl := Option.some.inj hreply
  obtain ⟨data, hdata, hsettled⟩ := Option.map_eq_some_iff.mp hreplied
  obtain ⟨hpicture, -⟩ := Prod.mk.inj hsettled
  obtain ⟨picture, hdecoded, rfl⟩ := Option.map_eq_some_iff.mp hpicture
  refine ⟨retrieved, picture, himage, ⟨resizedImage, data, hresized, ?_, hdecoded⟩, rfl⟩
  simp only [Message.value, Dictionary.lookup_cons, if_true, Option.bind_some] at hdata
  cases hencoded : jpegData resizedImage with
  | none =>
      rw [hencoded] at hdata
      exact absurd hdata.symm (Option.some_ne_none data)
  | some encoded =>
      rw [hencoded] at hdata
      exact hdata

end NewsDay
