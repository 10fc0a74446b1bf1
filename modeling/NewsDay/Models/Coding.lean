import NewsDay.Models.Values

/-! # Encoding and decoding of the model objects

`encode(with:)` and `init(coder:)` of the three model classes. The two sides
name their keys independently of each other, and decoding forces most of its
casts, so that an archive of another shape stops the process.
-/

namespace NewsDay

open Foundation KeyedArchive

/-- The classes that name themselves in archives. -/
inductive ModelClass
  | source
  | article
  | categorizedSources
deriving DecidableEq

def ModelClass.name : ModelClass → String
  | .source => "Source"
  | .article => "Article"
  | .categorizedSources => "CategorizedSources"

/-- The class names of a process that has not archived anything: each class is
known under the name of its module. -/
def processTables (modulePrefix : String) : ClassTables ModelClass where
  runtimeName cls := modulePrefix ++ "." ++ cls.name
  runtimeClass name := [.source, .article, .categorizedSources].find? fun cls =>
    modulePrefix ++ "." ++ cls.name = name
  names _ := none
  classes _ := none

variable [Foundation]

abbrev ModelArchive := Archive (Leaf URL Date)

abbrev ModelCoder := Coder (Leaf URL Date) ModelClass

abbrev ModelWriter := Writer (Leaf URL Date) ModelClass Trap

abbrev ModelReader := KeyedReader (Leaf URL Date) AnyValue Failure

/-- `value as! Element`. -/
def forceCast {Element : Type} (cast : AnyValue → Option Element) (value : Option AnyValue) :
    Except Failure Element :=
  match value.bind cast with
  | some element => .ok element
  | none => .error (.trapped .forcedCast)

/-- `NSCoder.decodeInt32(forKey:)`: zero for an absent key, and an error for a
value that is not a 32-bit integer. -/
def decodeInt32 (aDecoder : ModelReader) (key : String) : Except Failure Int :=
  match aDecoder.contents key with
  | none => .ok 0
  | some (.leaf (.int32 value)) =>
      if -2 ^ 31 ≤ value ∧ value < 2 ^ 31 then .ok value else .error (.thrown unreadable)
  | some _ => .error (.thrown unreadable)

/-- `Int32(count)`. -/
def int32 (count : Nat) : Except Trap Int :=
  if count < 2 ^ 31 then .ok count else .error .integerOverflow

def writeString (value : String) : ModelWriter := writeLeaf (.string value)

namespace Source

/-- `Source.encode(with:)`. -/
def encode (source : Source) (aCoder : ModelCoder) : Except Trap ModelCoder := do
  let aCoder ← aCoder.encode (writeString source.id) "id"
  let aCoder ← aCoder.encode (writeString source.name) "name"
  let aCoder ← aCoder.encode (writeString source.desc) "description"
  let aCoder ← aCoder.encode (writeString source.category) "category"
  let aCoder ← aCoder.encode (writeString source.language) "language"
  aCoder.encode (writeString source.country) "country"

def write (source : Source) : ModelWriter := writeObject .source source.encode

/-- `Source.init(coder:)`. -/
def initCoder (aDecoder : ModelReader) : Except Failure Source := do
  let id ← forceCast AnyValue.asString (← aDecoder.decodeObject "id")
  let name ← forceCast AnyValue.asString (← aDecoder.decodeObject "name")
  let desc ← forceCast AnyValue.asString (← aDecoder.decodeObject "description")
  let category ← forceCast AnyValue.asString (← aDecoder.decodeObject "category")
  let language ← forceCast AnyValue.asString (← aDecoder.decodeObject "language")
  let country ← forceCast AnyValue.asString (← aDecoder.decodeObject "country")
  return { id, name, desc, category, language, country }

end Source

namespace Article

/-- `Article.encode(with:)`. -/
def encode (article : Article) (aCoder : ModelCoder) : Except Trap ModelCoder := do
  let aCoder ← aCoder.encode (writeString article.author) "author"
  let aCoder ← aCoder.encode (writeString article.title) "title"
  let aCoder ← aCoder.encode (writeString article.desc) "desc"
  let aCoder ← aCoder.encode (writeString article.content) "content"
  let aCoder ← aCoder.encode (writeOptional (article.url.map .url)) "url"
  let aCoder ← aCoder.encode (writeOptional (article.urlImage.map .url)) "urlImage"
  aCoder.encode (writeOptional (article.date.map .date)) "date"

def write (article : Article) : ModelWriter := writeObject .article article.encode

/-- `Article.init(coder:)`. -/
def initCoder (aDecoder : ModelReader) : Except Failure Article := do
  let author ← forceCast AnyValue.asString (← aDecoder.decodeObject "author")
  let title ← forceCast AnyValue.asString (← aDecoder.decodeObject "title")
  let desc ← forceCast AnyValue.asString (← aDecoder.decodeObject "desc")
  let content ← forceCast AnyValue.asString (← aDecoder.decodeObject "content")
  let url := (← aDecoder.decodeObject "url").bind AnyValue.asURL
  let urlImage := (← aDecoder.decodeObject "urlImage").bind AnyValue.asURL
  let date := (← aDecoder.decodeObject "date").bind AnyValue.asDate
  return { author, title, desc, content, url, urlImage, date }

end Article

namespace CategorizedSources

/-- The key of a group in the archive. -/
def detailKey (index : Nat) : String := "detail_" ++ toString index

/-- The loop over `details` in `encode(with:)`. -/
def encodeDetails : Nat → List (List Source) → ModelCoder → Except Trap ModelCoder
  | _, [], aCoder => .ok aCoder
  | index, group :: rest, aCoder => do
      let aCoder ← aCoder.encode (writeArray Source.write group) (detailKey index)
      encodeDetails (index + 1) rest aCoder

/-- `CategorizedSources.encode(with:)`. -/
def encode (sources : CategorizedSources) (aCoder : ModelCoder) : Except Trap ModelCoder := do
  let aCoder := { aCoder with tables := aCoder.tables.setClassName "Source" .source }
  let aCoder ← aCoder.encode (writeArray writeString sources.categories) "categories"
  let detailCount ← int32 sources.details.length
  let aCoder ← aCoder.encode (writeLeaf (.int32 detailCount)) "detailCount"
  encodeDetails 0 sources.details aCoder

def write (sources : CategorizedSources) : ModelWriter :=
  writeObject .categorizedSources sources.encode

/-- The loop over `0 ..< detailCount` in `init(coder:)`, from an index on. -/
def decodeDetails (aDecoder : ModelReader) :
    Nat → Nat → Except Failure (List (List AnyValue))
  | _, 0 => .ok []
  | index, remaining + 1 => do
      -- no element of the group is accessed, so none is checked
      let entry ← forceCast AnyValue.asUncheckedArray
        (← aDecoder.decodeObject (detailKey index))
      let rest ← decodeDetails aDecoder (index + 1) remaining
      return entry :: rest

/-- `CategorizedSources.init(coder:)`. -/
def initCoder (aDecoder : ModelReader) : Except Failure AnyValue := do
  let categories ← forceCast (AnyValue.asArray AnyValue.asString)
    (← aDecoder.decodeObject "categories")
  let detailCount ← decodeInt32 aDecoder "detailCount"
  -- the range `0 ..< detailCount` does not exist for a negative count
  if detailCount < 0 then .error (.trapped .invalidRange)
  let details ← decodeDetails aDecoder 0 detailCount.toNat
  return .ofGroups categories details

end CategorizedSources

/-- How either process restores stored values. -/
def modelUnarchiver : Unarchiver (Leaf URL Date) ModelClass AnyValue Failure where
  ofLeaf
    | .string value => .ok (.string value)
    | .url value => .ok (.url value)
    | .date value => .ok (.date value)
    | .number value => .ok (.number value)
    | .other => .ok .other
    -- what is not an object cannot be read as one
    | .int32 _ => .error (.thrown unreadable)
  ofArray := .array
  ofCollection _ := .other
  initCoder
    | .source, aDecoder => (Source.initCoder aDecoder).map .source
    | .article, aDecoder => (Article.initCoder aDecoder).map .article
    | .categorizedSources, aDecoder => CategorizedSources.initCoder aDecoder
  unknownClass _ := .thrown unreadable
  nullElement := .thrown unreadable

@[simp] theorem modelUnarchiver_initCoder_source (aDecoder : ModelReader) :
    modelUnarchiver.initCoder .source aDecoder = (Source.initCoder aDecoder).map .source := rfl

@[simp] theorem modelUnarchiver_initCoder_article (aDecoder : ModelReader) :
    modelUnarchiver.initCoder .article aDecoder = (Article.initCoder aDecoder).map .article := rfl

@[simp] theorem modelUnarchiver_initCoder_categorizedSources (aDecoder : ModelReader) :
    modelUnarchiver.initCoder .categorizedSources aDecoder =
      CategorizedSources.initCoder aDecoder := rfl

end NewsDay
