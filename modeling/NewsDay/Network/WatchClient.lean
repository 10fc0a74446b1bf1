import NewsDay.Models.Archiving
import NewsDay.Network.WatchServer

/-! # The watch's side of the connection

Each public function of `WatchClient` returns a request and, once the session
is there, sends a message dictionary. The reply handler of the message casts
what it finds under one key of the reply and settles the request; the error
handler settles it with the error.
-/

namespace NewsDay

open Foundation

variable [Foundation]

/-- What the client can be asked for: a call of one of its public functions. -/
inductive WatchRequest
  | sources
  | articles (source : Source)
  | image (url : URL)
  | headlines (country : String) (limit : Option Int64)

namespace WatchClient

/-! ## The messages -/

/-- The message of `getSources(session:asyncRequest:)`. -/
def sourcesMessage : Message := [("request", .string "sources")]

/-- The message of `getArticles(session:source:asyncRequest:)`. -/
def articlesMessage (source : Source) (tables : ModelTables) :
    Except Trap (ModelTables × Message) := do
  let (tables, data) ← source.keyedArchive tables
  return (tables, [("request", .string "articles"), ("source", .ofData? data)])

/-- The message of `getImage(session:url:asyncRequest:)`. -/
def imageMessage (url : URL) : Message :=
  [("request", .string "image"), ("url", .string (absoluteString url))]

/-- The message of `getHeadlines(session:country:limit:asyncRequest:)`. -/
def headlinesMessage (country : String) (limit : Option Int64) : Message :=
  [("request", .string "headlines"), ("country", .string country), ("limit", .ofInt? limit)]

end WatchClient

def WatchRequest.message (tables : ModelTables) :
    WatchRequest → Except Trap (ModelTables × Message)
  | .sources => .ok (tables, WatchClient.sourcesMessage)
  | .articles source => WatchClient.articlesMessage source tables
  | .image url => .ok (tables, WatchClient.imageMessage url)
  | .headlines country limit => .ok (tables, WatchClient.headlinesMessage country limit)

/-! ## The reply handlers -/

namespace WatchClient

/-- The arguments of the call of `setResult` that a reply handler makes, if it
makes one. -/
abbrev Settlement := Option (Option AnyValue × Option ErrorValue)

/-- The reply handler of `getSources`. -/
def sourcesReplied (reply : Message) (tables : ModelTables) :
    Except Trap (ModelTables × Settlement) :=
  match (reply.value "sources").bind AnyValue.asData with
  | none => .ok (tables, none)
  | some replyData => do
      let (tables, sources) ← CategorizedSources.keyedUnarchive (some replyData) tables
      return (tables, some (sources, none))

/-- The reply handler of `getArticles`. -/
def articlesReplied (reply : Message) (tables : ModelTables) :
    Except Trap (ModelTables × Settlement) :=
  match (reply.value "articles").bind AnyValue.asData with
  | none => .ok (tables, none)
  | some replyData => do
      let (tables, articles) ← Article.keyedUnarchiveArray (some replyData) tables
      return (tables, some (articles.map .ofArticles, none))

/-- The reply handler of `getImage`. -/
def imageReplied (reply : Message) : Settlement :=
  ((reply.value "image").bind AnyValue.asData).map fun imageData =>
    ((imageFromData imageData).map .image, none)

/-- The reply handler of `getHeadlines`. -/
def headlinesReplied (reply : Message) (tables : ModelTables) :
    Except Trap (ModelTables × Settlement) :=
  match (reply.value "articles").bind AnyValue.asData with
  | none => .ok (tables, none)
  | some headlineData => do
      let (tables, headlines) ← Article.keyedUnarchiveArray (some headlineData) tables
      match headlines with
      | none => return (tables, none)
      | some headlines => return (tables, some (some (.ofArticles headlines), none))

end WatchClient

def WatchRequest.replied (reply : Message) (tables : ModelTables) :
    WatchRequest → Except Trap (ModelTables × WatchClient.Settlement)
  | .sources => WatchClient.sourcesReplied reply tables
  | .articles _ => WatchClient.articlesReplied reply tables
  | .image _ => .ok (tables, WatchClient.imageReplied reply)
  | .headlines _ _ => WatchClient.headlinesReplied reply tables

end NewsDay
