import NewsDay.Models.Archiving

/-! # Model objects survive the wire

What one process archives, the other one restores field by field. The archive
functions name their classes in the writer's table and resolve them in the
reader's immediately before use, so whatever either process archived or read
before makes no difference to the class names that matter.
-/

namespace NewsDay

open Foundation KeyedArchive

variable [Foundation]

/-! ## Sources -/

namespace Source

/-- The keys and values that a source writes, newest first. -/
def archivedFields (source : Source) : List (String × ModelArchive) :=
  [("country", .leaf (.string source.country)), ("language", .leaf (.string source.language)),
    ("category", .leaf (.string source.category)),
    ("description", .leaf (.string source.desc)), ("name", .leaf (.string source.name)),
    ("id", .leaf (.string source.id))]

/-- A source as an archive stores it. -/
def archived (className : String) (source : Source) : ModelArchive :=
  .object className source.archivedFields

theorem write_eq (source : Source) (tables : ModelTables) :
    source.write tables = .ok (tables, source.archived (tables.archivedName .source)) := rfl

theorem initCoder_archivedFields (source : Source) (tables : ModelTables) :
    initCoder (fieldReader modelUnarchiver tables source.archivedFields) = .ok source := rfl

theorem unarchive_archived (source : Source) {className : String} {tables : ModelTables}
    (hclass : tables.resolve className = some .source) :
    unarchive modelUnarchiver tables (source.archived className) = .ok (some (.source source)) := by
  rw [archived, unarchive_object modelUnarchiver tables _ hclass,
    modelUnarchiver_initCoder_source, initCoder_archivedFields]
  rfl

/-- A group of sources is one array in the archive. -/
theorem writeArray_archived (sources : List Source) (tables : ModelTables) :
    writeArray write sources tables =
      .ok (tables, .array (sources.map (archived (tables.archivedName .source)))) :=
  writeArray_eq write _ tables sources fun source _ => source.write_eq tables

theorem unarchive_array_archived (sources : List Source) {className : String}
    {tables : ModelTables} (hclass : tables.resolve className = some .source) :
    unarchive modelUnarchiver tables (.array (sources.map (archived className))) =
      .ok (some (.array (sources.map .source))) :=
  unarchive_array_map modelUnarchiver tables _ _ sources fun source _ =>
    source.unarchive_archived hclass

end Source

/-! ## Articles -/

namespace Article

/-- The keys and values that an article writes, newest first. -/
def archivedFields (article : Article) : List (String × ModelArchive) :=
  [("date", (article.date.map Leaf.date).elim .null .leaf),
    ("urlImage", (article.urlImage.map Leaf.url).elim .null .leaf),
    ("url", (article.url.map Leaf.url).elim .null .leaf),
    ("content", .leaf (.string article.content)), ("desc", .leaf (.string article.desc)),
    ("title", .leaf (.string article.title)), ("author", .leaf (.string article.author))]

/-- An article as an archive stores it. -/
def archived (className : String) (article : Article) : ModelArchive :=
  .object className article.archivedFields

theorem write_eq (article : Article) (tables : ModelTables) :
    article.write tables = .ok (tables, article.archived (tables.archivedName .article)) := rfl

/-- Present and absent optional fields are told apart. -/
theorem initCoder_archivedFields (article : Article) (tables : ModelTables) :
    initCoder (fieldReader modelUnarchiver tables article.archivedFields) = .ok article := by
  obtain ⟨author, title, desc, content, url, urlImage, date⟩ := article
  cases url <;> cases urlImage <;> cases date <;> rfl

theorem unarchive_archived (article : Article) {className : String} {tables : ModelTables}
    (hclass : tables.resolve className = some .article) :
    unarchive modelUnarchiver tables (article.archived className) =
      .ok (some (.article article)) := by
  rw [archived, unarchive_object modelUnarchiver tables _ hclass,
    modelUnarchiver_initCoder_article, initCoder_archivedFields]
  rfl

end Article

/-! ## Groups of sources -/

namespace CategorizedSources

omit [Foundation] in
theorem detailKey_injective : Function.Injective detailKey := by
  intro first second heq
  -- the digits after `detail_` give the index back
  have hdigits := congrArg (fun text : String => Nat.ofDigitChars 10 (text.toList.drop 7) 0) heq
  simpa [detailKey, Nat.toString_eq_repr, Nat.repr] using hdigits

omit [Foundation] in
theorem detailKey_take (index : Nat) : (detailKey index).toList.take 7 = "detail_".toList := by
  simp [detailKey]

omit [Foundation] in
theorem detailKey_ne_categories (index : Nat) : detailKey index ≠ "categories" := by
  intro heq
  have htake := detailKey_take index
  rw [heq] at htake
  exact absurd htake (by decide)

omit [Foundation] in
theorem detailKey_ne_detailCount (index : Nat) : detailKey index ≠ "detailCount" := by
  intro heq
  have htake := detailKey_take index
  rw [heq] at htake
  exact absurd htake (by decide)

/-- The fields that the loop over the groups leaves, newest first. -/
def detailFields (className : String) : Nat → List (List Source) →
    List (String × ModelArchive) → List (String × ModelArchive)
  | _, [], fields => fields
  | index, group :: rest, fields =>
      detailFields className (index + 1) rest
        ((detailKey index, .array (group.map (Source.archived className))) :: fields)

theorem encodeDetails_eq (groups : List (List Source)) (index : Nat) (aCoder : ModelCoder) :
    encodeDetails index groups aCoder = .ok { aCoder with
      fields := detailFields (aCoder.tables.archivedName .source) index groups aCoder.fields } := by
  induction groups generalizing index aCoder with
  | nil => rfl
  | cons group rest ih =>
      rw [encodeDetails, Coder.encode, Source.writeArray_archived]
      exact ih (index + 1) _

/-- Keys outside the range of the loop keep their values. -/
theorem lookup_detailFields_of_ne {className key : String} (groups : List (List Source))
    (start : Nat) (fields : List (String × ModelArchive))
    (hne : ∀ offset < groups.length, key ≠ detailKey (start + offset)) :
    (detailFields className start groups fields).lookup key = fields.lookup key := by
  induction groups generalizing start fields with
  | nil => rfl
  | cons group rest ih =>
      have hhead : (key == detailKey start) = false := by
        simpa using hne 0 (by simp)
      rw [detailFields, ih, List.lookup_cons, hhead]
      intro offset hoffset
      have hindex : start + 1 + offset = start + (offset + 1) := by omega
      rw [hindex]
      exact hne (offset + 1) (by simpa using hoffset)

/-- The loop stores each group under the key of its index. -/
theorem lookup_detailFields {className : String} (groups : List (List Source)) (start : Nat)
    (fields : List (String × ModelArchive)) (offset : Nat) (hoffset : offset < groups.length) :
    (detailFields className start groups fields).lookup (detailKey (start + offset)) =
      some (.array (groups[offset].map (Source.archived className))) := by
  induction groups generalizing start fields offset with
  | nil => simp at hoffset
  | cons group rest ih =>
      cases offset with
      | zero =>
          -- later rounds of the loop write other keys
          rw [detailFields, lookup_detailFields_of_ne]
          · simp
          · intro later _ heq
            have hindex := detailKey_injective heq
            omega
      | succ offset =>
          have hrest := ih (start + 1)
            ((detailKey start, .array (group.map (Source.archived className))) :: fields)
            offset (by simpa using hoffset)
          rw [detailFields, List.getElem_cons_succ, ← hrest]
          congr 2
          omega

/-- Reading consecutive keys gives the groups stored under them. -/
theorem decodeDetails_eq (aDecoder : ModelReader) (groups : List (List Source)) (start : Nat)
    (hread : ∀ offset (hoffset : offset < groups.length),
      aDecoder.decodeObject (detailKey (start + offset)) =
        .ok (some (.array (groups[offset].map .source)))) :
    decodeDetails aDecoder start groups.length = .ok (groups.map (·.map .source)) := by
  induction groups generalizing start with
  | nil => rfl
  | cons group rest ih =>
      have hhead := hread 0 (by simp)
      have hrest := ih (start + 1) (by
        intro offset hoffset
        have hindex : start + 1 + offset = start + (offset + 1) := by omega
        rw [hindex]
        exact hread (offset + 1) (by simpa using hoffset))
      rw [Nat.add_zero] at hhead
      simp only [List.length_cons, decodeDetails, hhead, List.getElem_cons_zero, bind, Except.bind,
        forceCast, Option.bind, AnyValue.asUncheckedArray, hrest]
      rfl

/-- The keys and values that grouped sources write, newest first. -/
def archivedFields (sources : CategorizedSources) : List (String × ModelArchive) :=
  detailFields "Source" 0 sources.details
    [("detailCount", .leaf (.int32 sources.details.length)),
      ("categories", .array (sources.categories.map fun category => .leaf (.string category)))]

/-- Grouped sources as an archive stores them. -/
def archived (className : String) (sources : CategorizedSources) : ModelArchive :=
  .object className sources.archivedFields

theorem writeArray_strings (values : List String) (tables : ModelTables) :
    writeArray writeString values tables =
      .ok (tables, .array (values.map fun value => .leaf (.string value))) :=
  writeArray_eq writeString _ tables values fun _ _ => rfl

omit [Foundation] in
theorem int32_of_lt {count : Nat} (hcount : count < 2 ^ 31) : int32 count = .ok count :=
  if_pos hcount

theorem encode_eq (sources : CategorizedSources) (tables : ModelTables)
    (hcount : sources.details.length < 2 ^ 31) :
    sources.encode { tables := tables, fields := [] } = .ok {
      tables := tables.setClassName "Source" .source
      fields := sources.archivedFields } := by
  simp only [encode, Coder.encode, writeArray_strings, int32_of_lt hcount, bind, Except.bind, pure,
    Except.pure, writeLeaf, encodeDetails_eq, ClassTables.archivedName_setClassName]
  rfl

/-- Writing grouped sources also names the class of their members. -/
theorem write_eq (sources : CategorizedSources) (tables : ModelTables)
    (hcount : sources.details.length < 2 ^ 31) :
    sources.write tables = .ok (tables.setClassName "Source" .source,
      sources.archived ((tables.setClassName "Source" .source).archivedName
        .categorizedSources)) := by
  simp only [write, writeObject, encode_eq sources tables hcount]
  rfl

theorem lookup_archivedFields_categories (sources : CategorizedSources) :
    sources.archivedFields.lookup "categories" =
      some (.array (sources.categories.map fun category => .leaf (.string category))) := by
  rw [archivedFields, lookup_detailFields_of_ne]
  · rfl
  · intro offset _
    exact (detailKey_ne_categories _).symm

theorem lookup_archivedFields_detailCount (sources : CategorizedSources) :
    sources.archivedFields.lookup "detailCount" =
      some (.leaf (.int32 sources.details.length)) := by
  rw [archivedFields, lookup_detailFields_of_ne]
  · rfl
  · intro offset _
    exact (detailKey_ne_detailCount _).symm

theorem initCoder_archivedFields (sources : CategorizedSources) {tables : ModelTables}
    (hcount : sources.details.length < 2 ^ 31) (hclass : tables.resolve "Source" = some .source) :
    initCoder (fieldReader modelUnarchiver tables sources.archivedFields) =
      .ok (.categorizedSources sources) := by
  have hcategories : (fieldReader modelUnarchiver tables
      sources.archivedFields).decodeObject "categories" =
        .ok (some (.array (sources.categories.map .string))) := by
    simp only [fieldReader, lookup_archivedFields_categories, Option.map_some, Option.getD_some]
    exact unarchive_array_map modelUnarchiver tables _ _ _ fun _ _ => rfl
  have hcast : AnyValue.asArray AnyValue.asString
      (.array (sources.categories.map .string)) = some sources.categories :=
    AnyValue.mapM_map_of_cast AnyValue.asString .string (fun _ => rfl) sources.categories
  have hdetailCount : decodeInt32 (fieldReader modelUnarchiver tables sources.archivedFields)
      "detailCount" = .ok sources.details.length := by
    simp only [decodeInt32, fieldReader, lookup_archivedFields_detailCount]
    rw [if_pos (by omega)]
  have hdetails := decodeDetails_eq (fieldReader modelUnarchiver tables sources.archivedFields)
    sources.details 0 (by
      intro offset hoffset
      simp only [fieldReader, archivedFields, lookup_detailFields _ _ _ offset hoffset,
        Option.map_some, Option.getD_some]
      exact Source.unarchive_array_archived _ hclass)
  simp only [initCoder, hcategories, hdetailCount, bind, Except.bind, forceCast, Option.bind, hcast]
  rw [if_neg (by omega)]
  simp only [Int.toNat_natCast, hdetails, pure, Except.pure, AnyValue.ofGroups_sources]

theorem unarchive_archived (sources : CategorizedSources) {className : String}
    {tables : ModelTables} (hcount : sources.details.length < 2 ^ 31)
    (hclass : tables.resolve className = some .categorizedSources)
    (hsource : tables.resolve "Source" = some .source) :
    unarchive modelUnarchiver tables (sources.archived className) =
      .ok (some (.categorizedSources sources)) := by
  rw [archived, unarchive_object modelUnarchiver tables _ hclass,
    modelUnarchiver_initCoder_categorizedSources, initCoder_archivedFields sources hcount hsource]
  rfl

end CategorizedSources

end NewsDay
