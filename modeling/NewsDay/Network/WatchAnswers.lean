import NewsDay.Models.Unarchiving
import NewsDay.Network.WatchClient

/-! # Which answers settle a request of the watch

The four pairs of handlers, seen together. An error always settles the request;
a reply does so with a value exactly if it holds, under the key that the handler
looks at, data that decodes. Everything else leaves the request as it was,
settles it with nothing, or stops the process.
-/

namespace NewsDay

open Foundation

variable [Foundation]

/-- What the session hands to the handlers of a message. -/
inductive WatchAnswer
  | reply (message : Message)
  | error (error : ErrorValue)

/-- The reply holds a byte string of this kind under the key. -/
def Message.HoldsData (reply : Message) (key : String) (readable : Data → Prop) : Prop :=
  ∃ data, (reply.value key).bind AnyValue.asData = some data ∧ readable data

namespace WatchRequest

/-- The reply holds what was asked for, in a form that can be restored. -/
def Decodes (tables : ModelTables) (reply : Message) : WatchRequest → Prop
  | .sources => reply.HoldsData "sources"
      (Holds (CategorizedSources.readingTables tables) (.object .categorizedSources))
  | .articles _ => reply.HoldsData "articles"
      (Holds (tables.setClass .article "Article") (.array (.object .article)))
  | .image _ => reply.HoldsData "image" fun data => ∃ image, imageFromData data = some image
  | .headlines _ _ => reply.HoldsData "articles"
      (Holds (tables.setClass .article "Article") (.array (.object .article)))

end WatchRequest

/-- The answer settles a request of this kind with a value or with an error. -/
def WatchAnswer.Settles (tables : ModelTables) (request : WatchRequest) : WatchAnswer → Prop
  | .reply message => request.Decodes tables message
  | .error _ => True

namespace WatchClient

/-- A call of `setResult` that passes a value or an error. -/
def Decisive (call : Option AnyValue × Option ErrorValue) : Prop :=
  call.1 ≠ none ∨ call.2 ≠ none

variable {tables : ModelTables} {reply : Message}

/-- The reply handler makes a call of `setResult` that passes something. -/
def RepliesWithValue (outcome : Except Trap (ModelTables × Settlement)) : Prop :=
  ∃ tables call, outcome = .ok (tables, some call) ∧ Decisive call

/-- A handler settles with a value exactly if it reads one, when it does so with
what it reads and not without. -/
theorem repliesWithValue_bind {Value : Type} {read : Except Trap (ModelTables × Option Value)}
    {handle : ModelTables × Option Value → Except Trap (ModelTables × Settlement)}
    (hnone : ∀ tables, ¬ RepliesWithValue (handle (tables, none)))
    (hsome : ∀ tables value, RepliesWithValue (handle (tables, some value))) :
    RepliesWithValue (read >>= handle) ↔ ∃ tables value, read = .ok (tables, some value) := by
  cases read with
  | error trap => simp [RepliesWithValue, bind, Except.bind]
  | ok found =>
      obtain ⟨tables, value⟩ := found
      cases value with
      | none => exact iff_of_false (hnone tables) (by simp)
      | some value => exact iff_of_true (hsome tables value) ⟨tables, value, rfl⟩

theorem not_repliesWithValue_none : ¬ RepliesWithValue (.ok (tables, none)) := by
  simp [RepliesWithValue]

theorem not_repliesWithValue_nil : ¬ RepliesWithValue (.ok (tables, some (none, none))) := by
  simp [RepliesWithValue, Decisive]

theorem repliesWithValue_some (value : AnyValue) (error : Option ErrorValue) :
    RepliesWithValue (.ok (tables, some (some value, error))) :=
  ⟨tables, _, rfl, .inl (Option.some_ne_none value)⟩

theorem sourcesReplied_iff :
    RepliesWithValue (sourcesReplied reply tables) ↔
      WatchRequest.sources.Decodes tables reply := by
  simp only [WatchRequest.Decodes, Message.HoldsData, ← CategorizedSources.keyedUnarchive_found_iff]
  unfold sourcesReplied
  cases (reply.value "sources").bind AnyValue.asData with
  | none => exact iff_of_false not_repliesWithValue_none (by simp)
  | some data =>
      simp only [Option.some.injEq, exists_eq_left']
      exact repliesWithValue_bind (fun _ => not_repliesWithValue_nil)
        fun _ sources => repliesWithValue_some sources none

theorem articlesReplied_iff (source : Source) :
    RepliesWithValue (articlesReplied reply tables) ↔
      (WatchRequest.articles source).Decodes tables reply := by
  simp only [WatchRequest.Decodes, Message.HoldsData, ← Article.keyedUnarchiveArray_found_iff]
  unfold articlesReplied
  cases (reply.value "articles").bind AnyValue.asData with
  | none => exact iff_of_false not_repliesWithValue_none (by simp)
  | some data =>
      simp only [Option.some.injEq, exists_eq_left']
      exact repliesWithValue_bind (fun _ => not_repliesWithValue_nil)
        fun _ articles => repliesWithValue_some (.ofArticles articles) none

theorem imageReplied_iff (url : URL) :
    RepliesWithValue (.ok (tables, imageReplied reply)) ↔
      (WatchRequest.image url).Decodes tables reply := by
  unfold imageReplied WatchRequest.Decodes Message.HoldsData
  cases (reply.value "image").bind AnyValue.asData with
  | none => exact iff_of_false not_repliesWithValue_none (by simp)
  | some data =>
      simp only [Option.map_some, Option.some.injEq, exists_eq_left']
      cases imageFromData data with
      | none => exact iff_of_false not_repliesWithValue_nil (by simp)
      | some image => exact iff_of_true (repliesWithValue_some (.image image) none) ⟨image, rfl⟩

theorem headlinesReplied_iff (country : String) (limit : Option Int64) :
    RepliesWithValue (headlinesReplied reply tables) ↔
      (WatchRequest.headlines country limit).Decodes tables reply := by
  simp only [WatchRequest.Decodes, Message.HoldsData, ← Article.keyedUnarchiveArray_found_iff]
  unfold headlinesReplied
  cases (reply.value "articles").bind AnyValue.asData with
  | none => exact iff_of_false not_repliesWithValue_none (by simp)
  | some data =>
      simp only [Option.some.injEq, exists_eq_left']
      -- without headlines the handler returns without settling
      exact repliesWithValue_bind (fun _ => not_repliesWithValue_none)
        fun _ headlines => repliesWithValue_some (.ofArticles headlines) none

end WatchClient

/-- The reply handler of a request settles it with a value exactly if the reply
holds what was asked for. -/
theorem WatchRequest.replied_iff (request : WatchRequest) (reply : Message)
    (tables : ModelTables) :
    WatchClient.RepliesWithValue (request.replied reply tables) ↔
      request.Decodes tables reply := by
  cases request with
  | sources => exact WatchClient.sourcesReplied_iff
  | articles source => exact WatchClient.articlesReplied_iff source
  | image url => exact WatchClient.imageReplied_iff url
  | headlines country limit => exact WatchClient.headlinesReplied_iff country limit

end NewsDay
