import NewsDay.Library.Dictionary
import NewsDay.Models.Values

/-! # Model objects from JSON

The JSON initialisers take what they find: a missing field, or one of another
type, becomes an empty string or nil. Sources are then filed under their
categories, in the order of their first occurrence.
-/

namespace NewsDay

open Foundation

variable [Foundation]

namespace Json

/-- `as? String`. -/
def asString : Json → Option String
  | .string value => some value
  | _ => none

/-- `as? [String: Any]`. -/
def asObject : Json → Option (List (String × Json))
  | .object entries => some entries
  | _ => none

/-- `as? [[String: Any]]`. -/
def asObjects : Json → Option (List (List (String × Json)))
  | .array elements => elements.mapM asObject
  | _ => none

/-- `entries[key] as? String`. -/
def stringAt (entries : List (String × Json)) (key : String) : Option String :=
  (Dictionary.lookup canonical entries key).bind asString

/-- `entries[key] as? [[String: Any]] ?? []`. -/
def objectsAt (entries : List (String × Json)) (key : String) : List (List (String × Json)) :=
  ((Dictionary.lookup canonical entries key).bind asObjects).getD []

end Json

/-- `Source.init(jsonSource:)`. -/
def Source.ofJson (jsonSource : List (String × Json)) : Source where
  id := (Json.stringAt jsonSource "id").getD ""
  name := (Json.stringAt jsonSource "name").getD ""
  desc := (Json.stringAt jsonSource "description").getD ""
  category := (Json.stringAt jsonSource "category").getD ""
  language := (Json.stringAt jsonSource "language").getD ""
  country := (Json.stringAt jsonSource "country").getD ""

namespace Article

/-- `Article.parseDate(date:)`. -/
def parseDate (date : Option String) : Option Date := date.bind dateFromString

/-- `Article.init(jsonArticle:)`. -/
def ofJson (jsonArticle : List (String × Json)) : Article where
  author := (Json.stringAt jsonArticle "author").getD ""
  title := (Json.stringAt jsonArticle "title").getD ""
  desc := (Json.stringAt jsonArticle "description").getD ""
  content := (Json.stringAt jsonArticle "content").getD ""
  url := urlFromString ((Json.stringAt jsonArticle "url").getD "")
  urlImage := urlFromString ((Json.stringAt jsonArticle "urlToImage").getD "")
  date := parseDate (Json.stringAt jsonArticle "date")

end Article

namespace CategorizedSources

/-- `categories.firstIndex(of: category)`. -/
def firstIndex (categories : List String) (category : String) : Option Nat :=
  categories.findIdx? (sameString · category)

/-- One round of the loop in `populate(from:)`. -/
def add (groups : CategorizedSources) (source : Source) : CategorizedSources :=
  match firstIndex groups.categories source.category with
  | some index => { groups with details := groups.details.modify index (· ++ [source]) }
  | none =>
      { categories := groups.categories ++ [source.category]
        details := (groups.details ++ [[]]).modify groups.categories.length (· ++ [source]) }

/-- `CategorizedSources.populate(from:)`. -/
def populate (groups : CategorizedSources) (sources : List Source) : CategorizedSources :=
  sources.foldl add groups

/-- `CategorizedSources.init(from:)`. -/
def ofSources (sources : List Source) : CategorizedSources :=
  populate { categories := [], details := [] } sources

end CategorizedSources

/-- `Source.categorize(sources:)`. -/
def Source.categorize (sources : List Source) : CategorizedSources := .ofSources sources

section Samples

omit [Foundation]

/-- An answer of the service with three sources of two categories. -/
def sampleSourcesBody : SampleData :=
  let source (name category : String) : Json :=
    .object [("name", .string name), ("category", .string category)]
  .json (.object
    [("sources", .array [source "A" "sports", source "B" "health", source "C" "sports"])])

/-- The sources of that answer, by category. -/
def sampleSources : CategorizedSources :=
  let source (name category : String) : Source := ⟨"", name, "", category, "", ""⟩
  { categories := ["sports", "health"]
    details := [[source "A" "sports", source "C" "sports"], [source "B" "health"]] }

end Samples

end NewsDay
