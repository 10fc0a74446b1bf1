import NewsDay.Models.Archiving
import NewsDay.Models.Parsing
import NewsDay.Network.NewsApi

/-! # The phone's side of the watch connection

A message is a dictionary of untyped values. The server looks at the text under
`request`, casts the arguments of that kind of request, and calls the news
service or the image cache; a cast that fails ends the block without a reply.
The callbacks that it registers turn a result into a reply dictionary.
-/

namespace NewsDay

open Foundation

variable [Foundation]

/-- A message or a reply: a dictionary `[String: Any]`. -/
abbrev Message := List (String × AnyValue)

def Message.value (message : Message) (key : String) : Option AnyValue :=
  Dictionary.lookup canonical message key

namespace WatchServer

/-- The closures that are registered with requests of the news service. Those
for articles and for headlines differ in the name of a variable only. -/
inductive Callback
  | sources
  | articles
deriving DecidableEq

/-- What the block for a message does, up to the call of `withResult` or of
`retrieveImage`. -/
inductive Handling
  | dropped
  | replied (reply : Message)
  | news (call : NewsApi.Call) (callback : Callback)
  | retrieveImage (url : URL)

/-- `message["request"] as? String ?? ""`. -/
def requestText (message : Message) : String :=
  ((message.value "request").bind AnyValue.asString).getD ""

def unrecognized : Message := [("error", .string "Unrecognized request")]

/-- The block that `session(_:didReceiveMessage:replyHandler:)` dispatches. -/
def didReceiveMessage (message : Message) (tables : ModelTables) :
    Except Trap (ModelTables × Handling) :=
  let request := requestText message
  if sameString request "sources" then
    .ok (tables, .news .getSources .sources)
  else if sameString request "articles" then do
    let sourceData := (message.value "source").bind AnyValue.asData
    let (tables, optionalSource) ← Source.keyedUnarchive sourceData tables
    match optionalSource with
    | none => .ok (tables, .dropped)
    | some source => .ok (tables, .news (.getArticles source) .articles)
  else if sameString request "headlines" then
    match (message.value "country").bind AnyValue.asString with
    | none => .ok (tables, .dropped)
    | some country =>
        match (message.value "limit").bind AnyValue.asInt with
        -- also for the nil of a request without a limit
        | none => .ok (tables, .dropped)
        | some limit => .ok (tables, .news (.getHeadlines country (some limit)) .articles)
  else if sameString request "image" then
    match (message.value "url").bind AnyValue.asString with
    | none => .ok (tables, .dropped)
    | some urlText =>
        match urlFromString urlText with
        | none => .ok (tables, .dropped)
        | some url => .ok (tables, .retrieveImage url)
  else .ok (tables, .replied unrecognized)

/-! ## Replies -/

/-- The callback of the case `"sources"`. On the phone it is `populate(from:)` that
makes the groups, of sources only. -/
def sourcesReply (result : Option AnyValue) (tables : ModelTables) :
    Except Trap (ModelTables × Option Message) :=
  match result.bind AnyValue.asCategorizedSources with
  | none => .ok (tables, none)
  | some categorizedSources => do
      let (tables, data) ← categorizedSources.keyedArchive tables
      return (tables, data.map fun data => [("sources", .data data)])

/-- The callback of the cases `"articles"` and `"headlines"`. -/
def articlesReply (result : Option AnyValue) (tables : ModelTables) :
    Except Trap (ModelTables × Option Message) :=
  match result.bind (AnyValue.asArray AnyValue.asArticle) with
  | none => .ok (tables, none)
  | some articles => do
      let (tables, data) ← Article.keyedArchivedArray articles tables
      return (tables, data.map fun data => [("articles", .data data)])

def Callback.reply : Callback → Option AnyValue → ModelTables →
    Except Trap (ModelTables × Option Message)
  | .sources => sourcesReply
  | .articles => articlesReply

/-- The size that `resizeImage` draws at; none when the image fits as it is. -/
def outputSize (size maxSize : ℚ × ℚ) : Option (ℚ × ℚ) :=
  if size.1 ≤ maxSize.1 ∧ size.2 ≤ maxSize.2 then none
  else
    let size :=
      if size.1 > maxSize.1 then
        let scale := maxSize.1 / size.1
        (size.1 * scale, size.2 * scale)
      else size
    let size :=
      if size.2 > maxSize.2 then
        let scale := maxSize.2 / size.2
        (size.1 * scale, size.2 * scale)
      else size
    some size

/-- `resizeImage(image:maxSize:)`. -/
def resizeImage (image : UIImage) (maxSize : ℚ × ℚ) : Option UIImage :=
  match outputSize (imageSize image) maxSize with
  | none => some image
  | some outputSize => imageDrawn image outputSize

/-- The completion handler of `retrieveImage`, given the image if there is one. -/
def imageReply (image : Option UIImage) : Option Message := do
  let image ← image
  let resizedImage ← resizeImage image (448, 368)
  -- `imageData as Any`: an encoder that fails puts a nil into the reply
  return [("image", .ofData? (jpegData resizedImage))]

end WatchServer

end NewsDay
