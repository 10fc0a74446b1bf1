import NewsDay.Models.Coding

/-! # Archiving and unarchiving

The archiving functions of the model classes, with the class tables of the
process that runs them. A call may stop the process; an error that the archiver
throws is caught and turned into nil.
-/

namespace NewsDay

open Foundation KeyedArchive

variable [Foundation]

abbrev ModelTables := ClassTables ModelClass

/-- `try? NSKeyedArchiver.archivedData(withRootObject:requiringSecureCoding:)`. -/
def archiveRoot (write : ModelWriter) (tables : ModelTables) :
    Except Trap (ModelTables × Option Data) := do
  let (tables, archive) ← write tables
  return (tables, (archivedData archive).toOption)

/-- `NSKeyedUnarchiver.unarchiveTopLevelObjectWithData`. -/
def unarchiveTopLevelObject (tables : ModelTables) (data : Data) :
    Except Failure (Option AnyValue) :=
  match archiveContents data with
  | .error error => .error (.thrown error)
  | .ok archive => unarchive modelUnarchiver tables archive

/-- `try? NSKeyedUnarchiver.unarchiveTopLevelObjectWithData(data) as? Element`. -/
def tryUnarchive {Element : Type} (cast : AnyValue → Option Element) (tables : ModelTables)
    (data : Data) : Except Trap (Option Element) :=
  match unarchiveTopLevelObject tables data with
  | .error (.trapped trap) => .error trap
  | .error (.thrown _) => .ok none
  | .ok value => .ok (value.bind cast)

namespace Source

/-- `Source.keyedArchive()`. -/
def keyedArchive (source : Source) (tables : ModelTables) :
    Except Trap (ModelTables × Option Data) :=
  archiveRoot source.write (tables.setClassName "Source" .source)

/-- `Source.keyedUnarchive(data:)`. -/
def keyedUnarchive (data : Option Data) (tables : ModelTables) :
    Except Trap (ModelTables × Option Source) :=
  match data with
  | none => .ok (tables, none)
  | some archivedSource => do
      let tables := tables.setClass .source "Source"
      let source ← tryUnarchive AnyValue.asSource tables archivedSource
      return (tables, source)

/-- `Source.keyedArchiveArray(sources:)`. -/
def keyedArchiveArray (sources : List Source) (tables : ModelTables) :
    Except Trap (ModelTables × Option Data) :=
  archiveRoot (writeArray write sources) (tables.setClassName "Source" .source)

/-- `Source.keyedUnarchiveArray(data:)`. -/
def keyedUnarchiveArray (data : Option Data) (tables : ModelTables) :
    Except Trap (ModelTables × Option (List Source)) :=
  match data with
  | none => .ok (tables, none)
  | some archivedSources => do
      let tables := tables.setClass .source "Source"
      let sources ← tryUnarchive (AnyValue.asArray AnyValue.asSource) tables archivedSources
      return (tables, sources)

end Source

namespace Article

/-- `Article.keyedArchivedArray(articles:)`. -/
def keyedArchivedArray (articles : List Article) (tables : ModelTables) :
    Except Trap (ModelTables × Option Data) :=
  archiveRoot (writeArray write articles) (tables.setClassName "Article" .article)

/-- `Article.keyedUnarchiveArray(data:)`. -/
def keyedUnarchiveArray (data : Option Data) (tables : ModelTables) :
    Except Trap (ModelTables × Option (List Article)) :=
  match data with
  | none => .ok (tables, none)
  | some archivedArticles => do
      let tables := tables.setClass .article "Article"
      let articles ← tryUnarchive (AnyValue.asArray AnyValue.asArticle) tables archivedArticles
      return (tables, articles)

end Article

namespace CategorizedSources

/-- `CategorizedSources.keyedArchive()`. -/
def keyedArchive (sources : CategorizedSources) (tables : ModelTables) :
    Except Trap (ModelTables × Option Data) :=
  archiveRoot sources.write (tables.setClassName "CategorizedSources" .categorizedSources)

/-- `CategorizedSources.keyedUnarchive(data:)`. An error of the unarchiver is
caught, but a root object of another class is unwrapped by force. The object that
is returned may have groups that hold anything else than sources. -/
def keyedUnarchive (data : Option Data) (tables : ModelTables) :
    Except Trap (ModelTables × Option AnyValue) :=
  match data with
  | none => .ok (tables, none)
  | some data =>
      let tables := (tables.setClass .categorizedSources "CategorizedSources").setClass
        .source "Source"
      match unarchiveTopLevelObject tables data with
      | .error (.trapped trap) => .error trap
      | .error (.thrown _) => .ok (tables, none)
      | .ok value =>
          match value.filter AnyValue.isCategorizedSources with
          | none => .error .forcedUnwrap
          | some sources => .ok (tables, some sources)

end CategorizedSources

/-- A call of one of the archiving functions, by any part of a process. -/
inductive CodecCall
  | sourceArchive (source : Source)
  | sourceUnarchive (data : Option Data)
  | sourceArchiveArray (sources : List Source)
  | sourceUnarchiveArray (data : Option Data)
  | articleArchiveArray (articles : List Article)
  | articleUnarchiveArray (data : Option Data)
  | categorizedArchive (sources : CategorizedSources)
  | categorizedUnarchive (data : Option Data)

/-- What a call leaves behind in the class tables. -/
def CodecCall.perform (tables : ModelTables) : CodecCall → Except Trap ModelTables
  | .sourceArchive source => (source.keyedArchive tables).map Prod.fst
  | .sourceUnarchive data => (Source.keyedUnarchive data tables).map Prod.fst
  | .sourceArchiveArray sources => (Source.keyedArchiveArray sources tables).map Prod.fst
  | .sourceUnarchiveArray data => (Source.keyedUnarchiveArray data tables).map Prod.fst
  | .articleArchiveArray articles => (Article.keyedArchivedArray articles tables).map Prod.fst
  | .articleUnarchiveArray data => (Article.keyedUnarchiveArray data tables).map Prod.fst
  | .categorizedArchive sources => (sources.keyedArchive tables).map Prod.fst
  | .categorizedUnarchive data => (CategorizedSources.keyedUnarchive data tables).map Prod.fst

/-- The class tables of a process after the calls it has made. -/
def tablesAfter (modulePrefix : String) (calls : List CodecCall) : Except Trap ModelTables :=
  calls.foldlM CodecCall.perform (processTables modulePrefix)

end NewsDay
