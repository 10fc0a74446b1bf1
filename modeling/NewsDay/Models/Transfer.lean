import NewsDay.Models.Wire

/-! # From one process to another

The archive functions of the model classes, composed across two processes with
module names and archiving histories of their own.
-/

namespace NewsDay

open Foundation KeyedArchive

variable [Foundation]

/-- Reading back a byte string whose content is known. -/
theorem tryUnarchive_of_contents {Element : Type} (cast : AnyValue → Option Element)
    {tables : ModelTables} {data : Data} {archive : ModelArchive} {value : AnyValue}
    (hdata : archiveContents data = .ok archive)
    (hread : unarchive modelUnarchiver tables archive = .ok (some value)) :
    tryUnarchive cast tables data = .ok (cast value) := by
  simp only [tryUnarchive, unarchiveTopLevelObject, hdata, hread]
  rfl

namespace Source

/-- What is archived does not depend on the class names in use before. -/
theorem keyedArchive_eq (source : Source) (tables : ModelTables) :
    source.keyedArchive tables = .ok (tables.setClassName "Source" .source,
      (archivedData (source.archived "Source")).toOption) := by
  simp only [keyedArchive, archiveRoot, write_eq, bind, Except.bind,
    ClassTables.archivedName_setClassName]
  rfl

theorem keyedArchiveArray_eq (sources : List Source) (tables : ModelTables) :
    keyedArchiveArray sources tables = .ok (tables.setClassName "Source" .source,
      (archivedData (.array (sources.map (archived "Source")))).toOption) := by
  simp only [keyedArchiveArray, archiveRoot, writeArray_archived, bind, Except.bind,
    ClassTables.archivedName_setClassName]
  rfl

theorem keyedUnarchive_archived (source : Source) (tables : ModelTables) {data : Data}
    (hdata : archiveContents data = .ok (source.archived "Source")) :
    keyedUnarchive (some data) tables =
      .ok (tables.setClass .source "Source", some source) := by
  have hread := source.unarchive_archived (tables.resolve_setClass .source "Source")
  simp only [keyedUnarchive, tryUnarchive_of_contents _ hdata hread]
  rfl

theorem keyedUnarchiveArray_archived (sources : List Source) (tables : ModelTables) {data : Data}
    (hdata : archiveContents data = .ok (.array (sources.map (archived "Source")))) :
    keyedUnarchiveArray (some data) tables =
      .ok (tables.setClass .source "Source", some sources) := by
  have hread := unarchive_array_archived sources (tables.resolve_setClass .source "Source")
  have hcast : AnyValue.asArray AnyValue.asSource (.array (sources.map .source)) = some sources :=
    AnyValue.mapM_map_of_cast AnyValue.asSource .source (fun _ => rfl) sources
  simp only [keyedUnarchiveArray, tryUnarchive_of_contents _ hdata hread, hcast]
  rfl

end Source

namespace Article

theorem keyedArchivedArray_eq (articles : List Article) (tables : ModelTables) :
    keyedArchivedArray articles tables = .ok (tables.setClassName "Article" .article,
      (archivedData (.array (articles.map (archived "Article")))).toOption) := by
  have hwrite := writeArray_eq write _ (tables.setClassName "Article" .article) articles
    fun article _ => article.write_eq _
  simp only [keyedArchivedArray, archiveRoot, hwrite, bind, Except.bind,
    ClassTables.archivedName_setClassName]
  rfl

theorem keyedUnarchiveArray_archived (articles : List Article) (tables : ModelTables) {data : Data}
    (hdata : archiveContents data = .ok (.array (articles.map (archived "Article")))) :
    keyedUnarchiveArray (some data) tables =
      .ok (tables.setClass .article "Article", some articles) := by
  have hread := unarchive_array_map modelUnarchiver (tables.setClass .article "Article") _ _
    articles fun article _ => article.unarchive_archived (tables.resolve_setClass .article "Article")
  simp only [keyedUnarchiveArray, tryUnarchive_of_contents _ hdata hread]
  exact congrArg (fun found => Except.ok (_, found)) (AnyValue.asArray_ofArticles articles)

end Article

namespace CategorizedSources

theorem keyedArchive_eq (sources : CategorizedSources) (tables : ModelTables)
    (hcount : sources.details.length < 2 ^ 31) :
    sources.keyedArchive tables =
      .ok ((tables.setClassName "CategorizedSources" .categorizedSources).setClassName
          "Source" .source,
        (archivedData (sources.archived "CategorizedSources")).toOption) := by
  have hname : ((tables.setClassName "CategorizedSources" .categorizedSources).setClassName
      "Source" .source).archivedName .categorizedSources = "CategorizedSources" := by
    rw [ClassTables.archivedName_setClassName_of_ne _ _ (by decide),
      ClassTables.archivedName_setClassName]
  simp only [keyedArchive, archiveRoot, write_eq sources _ hcount, hname, bind, Except.bind]
  rfl

/-- A count that does not fit into 32 bits stops the process. -/
theorem keyedArchive_overflow (sources : CategorizedSources) (tables : ModelTables)
    (hcount : 2 ^ 31 ≤ sources.details.length) :
    sources.keyedArchive tables = .error .integerOverflow := by
  have hint32 : int32 sources.details.length = .error .integerOverflow := if_neg (by omega)
  simp only [keyedArchive, archiveRoot, write, writeObject, encode, Coder.encode,
    writeArray_strings, hint32, bind, Except.bind, pure, Except.pure]

theorem keyedUnarchive_archived (sources : CategorizedSources) (tables : ModelTables)
    {data : Data} (hcount : sources.details.length < 2 ^ 31)
    (hdata : archiveContents data = .ok (sources.archived "CategorizedSources")) :
    ∃ tables', keyedUnarchive (some data) tables =
      .ok (tables', some (.categorizedSources sources)) := by
  have hclass : ((tables.setClass .categorizedSources "CategorizedSources").setClass
      .source "Source").resolve "CategorizedSources" = some .categorizedSources := by
    rw [ClassTables.resolve_setClass_of_ne _ _ (by decide), ClassTables.resolve_setClass]
  have hread := sources.unarchive_archived hcount hclass (ClassTables.resolve_setClass _ _ _)
  simp only [keyedUnarchive, unarchiveTopLevelObject, hdata, hread]
  exact ⟨_, rfl⟩

end CategorizedSources

/-! ## Two processes -/

section Processes

def sampleSource : Source :=
  { id := "bbc-news", name := "BBC News", desc := "", category := "general", language := "en",
    country := "gb" }

/-- Two groups under one header. -/
def sampleGroups : CategorizedSources :=
  { categories := ["general"], details := [[sampleSource, sampleSource], []] }

variable {writerPrefix readerPrefix : String} {writerCalls readerCalls : List CodecCall}
  {writer reader : ModelTables}

/-- Grouped sources arrive in the other process as they were sent. -/
theorem categorizedSources_survive_the_wire (hfaithful : ArchivesFaithfully)
    (_hwriter : tablesAfter writerPrefix writerCalls = .ok writer)
    (_hreader : tablesAfter readerPrefix readerCalls = .ok reader)
    (sources : CategorizedSources) (hcount : sources.details.length < 2 ^ 31) :
    ∃ data, (∃ writer', sources.keyedArchive writer = .ok (writer', some data)) ∧
      ∃ reader', CategorizedSources.keyedUnarchive (some data) reader =
        .ok (reader', some (.categorizedSources sources)) := by
  obtain ⟨data, harchived, hcontents⟩ := hfaithful (sources.archived "CategorizedSources")
  refine ⟨data, ?_, sources.keyedUnarchive_archived reader hcount hcontents⟩
  have hwrite := sources.keyedArchive_eq writer hcount
  rw [harchived] at hwrite
  exact ⟨_, hwrite⟩

omit [Foundation] in
theorem categorizedSources_survive_the_wire_sample :
    letI : Foundation := .sample
    ∃ writer reader data,
      tablesAfter "NewsDay" [.articleArchiveArray [], .sourceUnarchive none] = .ok writer ∧
        tablesAfter "Watch" [.sourceArchive sampleSource] = .ok reader ∧
          (∃ writer', sampleGroups.keyedArchive writer = .ok (writer', some data)) ∧
            ∃ reader', CategorizedSources.keyedUnarchive (some data) reader =
              .ok (reader', some (.categorizedSources sampleGroups)) := by
  let _ : Foundation := .sample
  have hwriter : tablesAfter "NewsDay" [.articleArchiveArray [], .sourceUnarchive none] = .ok _ :=
    rfl
  have hreader : tablesAfter "Watch" [.sourceArchive sampleSource] = .ok _ := rfl
  obtain ⟨data, hdata⟩ := categorizedSources_survive_the_wire sample_archivesFaithfully
    hwriter hreader sampleGroups (by decide)
  exact ⟨_, _, data, hwriter, hreader, hdata⟩

/-- Articles, a source, and a list of sources arrive as they were sent. -/
theorem articles_and_sources_survive_the_wire (hfaithful : ArchivesFaithfully)
    (_hwriter : tablesAfter writerPrefix writerCalls = .ok writer)
    (_hreader : tablesAfter readerPrefix readerCalls = .ok reader) :
    (∀ articles : List Article, ∃ data,
      (∃ writer', Article.keyedArchivedArray articles writer = .ok (writer', some data)) ∧
        ∃ reader', Article.keyedUnarchiveArray (some data) reader =
          .ok (reader', some articles)) ∧
      (∀ source : Source, ∃ data,
        (∃ writer', source.keyedArchive writer = .ok (writer', some data)) ∧
          ∃ reader', Source.keyedUnarchive (some data) reader = .ok (reader', some source)) ∧
      ∀ sources : List Source, ∃ data,
        (∃ writer', Source.keyedArchiveArray sources writer = .ok (writer', some data)) ∧
          ∃ reader', Source.keyedUnarchiveArray (some data) reader =
            .ok (reader', some sources) := by
  refine ⟨?_, ?_, ?_⟩
  · intro articles
    obtain ⟨data, harchived, hcontents⟩ :=
      hfaithful (.array (articles.map (Article.archived "Article")))
    have hwrite := Article.keyedArchivedArray_eq articles writer
    rw [harchived] at hwrite
    exact ⟨data, ⟨_, hwrite⟩, _, Article.keyedUnarchiveArray_archived articles reader hcontents⟩
  · intro source
    obtain ⟨data, harchived, hcontents⟩ := hfaithful (source.archived "Source")
    have hwrite := source.keyedArchive_eq writer
    rw [harchived] at hwrite
    exact ⟨data, ⟨_, hwrite⟩, _, source.keyedUnarchive_archived reader hcontents⟩
  · intro sources
    obtain ⟨data, harchived, hcontents⟩ :=
      hfaithful (.array (sources.map (Source.archived "Source")))
    have hwrite := Source.keyedArchiveArray_eq sources writer
    rw [harchived] at hwrite
    exact ⟨data, ⟨_, hwrite⟩, _, Source.keyedUnarchiveArray_archived sources reader hcontents⟩

omit [Foundation] in
theorem articles_and_sources_survive_the_wire_sample :
    letI : Foundation := .sample
    ∃ writer reader,
      tablesAfter "NewsDay" [.categorizedArchive sampleGroups] = .ok writer ∧
        tablesAfter "Watch" [] = .ok reader ∧
          ∀ articles : List Article, ∃ data,
            (∃ writer', Article.keyedArchivedArray articles writer = .ok (writer', some data)) ∧
              ∃ reader', Article.keyedUnarchiveArray (some data) reader =
                .ok (reader', some articles) := by
  let _ : Foundation := .sample
  have hwriter : tablesAfter "NewsDay" [.categorizedArchive sampleGroups] = .ok _ := rfl
  have hreader : tablesAfter "Watch" [] = .ok _ := rfl
  exact ⟨_, _, hwriter, hreader,
    (articles_and_sources_survive_the_wire sample_archivesFaithfully hwriter hreader).1⟩

end Processes

end NewsDay
