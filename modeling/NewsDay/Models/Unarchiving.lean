import NewsDay.Models.Faults

/-! # When unarchiving returns

The unarchiving functions of the model classes return an optional, as if every
byte string were either restored or refused. Which byte strings stop the process
instead is decided by the first fault of the archive; besides, groups of sources
unwrap by force whatever object they find.
-/

namespace NewsDay

open Foundation KeyedArchive FirstFault

variable [Foundation]

/-- If the byte string is an archive at all, reading it comes by no fault that
stops the process before one that the unarchiver throws an error for. -/
def ReadsSafely (tables : ModelTables) (data : Data) : Prop :=
  ∀ archive, archiveContents data = .ok archive →
    ∀ trap, (faults tables archive).head? ≠ some (.trapped trap)

/-- The byte string is an archive without faults of an object of this type. -/
def Holds (tables : ModelTables) (kind : Kind) (data : Data) : Prop :=
  ∃ archive, archiveContents data = .ok archive ∧ faults tables archive = [] ∧
    kind.isStored tables archive = true

/-- An archive without faults that is one of an object of this type, if the byte
string is an archive without faults. -/
def RootIs (tables : ModelTables) (kind : Kind) (data : Data) : Prop :=
  ∀ archive, archiveContents data = .ok archive → faults tables archive = [] →
    kind.isStored tables archive = true

variable {tables : ModelTables} {data : Data} {archive : ModelArchive}

theorem readsSafely_of_contents (hdata : archiveContents data = .ok archive) :
    ReadsSafely tables data ↔ ∀ trap, (faults tables archive).head? ≠ some (.trapped trap) := by
  constructor
  · exact fun hsafe => hsafe archive hdata
  · intro hsafe other hother
    obtain rfl := Except.ok.inj (hdata.symm.trans hother)
    exact hsafe

theorem Holds.readsSafely {kind : Kind} (hholds : Holds tables kind data) :
    ReadsSafely tables data := by
  obtain ⟨archive, hdata, hnone, -⟩ := hholds
  rw [readsSafely_of_contents hdata, hnone]
  simp

theorem Holds.rootIs {kind : Kind} (hholds : Holds tables kind data) :
    RootIs tables kind data := by
  obtain ⟨archive, hdata, -, hstored⟩ := hholds
  intro other hother _
  rwa [Except.ok.inj (hother.symm.trans hdata)]

/-- Reading a byte string at top level, by what it holds. -/
theorem unarchiveTopLevelObject_cases (tables : ModelTables) (data : Data) :
    (∃ trap, unarchiveTopLevelObject tables data = .error (.trapped trap) ∧
      ¬ ReadsSafely tables data) ∨
    (∃ error, unarchiveTopLevelObject tables data = .error (.thrown error) ∧
      ReadsSafely tables data ∧ ∀ archive, archiveContents data = .ok archive →
        faults tables archive ≠ []) ∨
    ∃ archive value, archiveContents data = .ok archive ∧
      unarchiveTopLevelObject tables data = .ok value ∧ ReadsSafely tables data ∧
        faults tables archive = [] ∧ Restores tables archive value := by
  unfold unarchiveTopLevelObject
  cases hdata : archiveContents data with
  | error error =>
      refine .inr (.inl ⟨error, rfl, ?_, ?_⟩)
      · intro archive harchive
        exact absurd (hdata.symm.trans harchive) (by simp)
      · intro archive harchive
        exact absurd harchive (by simp)
  | ok archive =>
      rw [readsSafely_of_contents hdata]
      have hmeets := unarchive_meets tables archive
      rw [ReadingMeets] at hmeets
      simp only
      cases hread : unarchive modelUnarchiver tables archive with
      | error failure =>
          rw [hread] at hmeets
          have hhead : (faults tables archive).head? = some failure.fault := hmeets
          cases failure with
          | trapped trap => exact .inl ⟨trap, rfl, fun hsafe => hsafe trap hhead⟩
          | thrown error =>
              refine .inr (.inl ⟨error, rfl, ?_, ?_⟩)
              · intro trap htrap
                exact absurd (hhead.symm.trans htrap) (by simp [Failure.fault])
              · intro other hother hnone
                obtain rfl := Except.ok.inj hother
                rw [hnone] at hhead
                exact absurd hhead (by simp)
      | ok value =>
          rw [hread] at hmeets
          have hnone : faults tables archive = [] := hmeets.1
          refine .inr (.inr ⟨archive, value, rfl, rfl, ?_, hnone, hmeets.2⟩)
          rw [hnone]
          simp

section Casts

variable {kind : Kind} {Element : Type} {cast : AnyValue → Option Element}

/-- What is restored casts to a type exactly if the archive stores one. -/
theorem Restores.bind_cast_isSome {value : Option AnyValue} (hvalue : Restores tables archive value)
    (hcast : kind.CastBy cast) : (value.bind cast).isSome = kind.isStored tables archive := by
  rw [← hvalue.2 kind]
  cases value with
  | none => rfl
  | some object => exact hcast object

/-- A value is found exactly in an archive without faults whose root is one. -/
theorem tryUnarchive_found_iff (hcast : kind.CastBy cast) (tables : ModelTables) (data : Data) :
    (∃ element, tryUnarchive cast tables data = .ok (some element)) ↔ Holds tables kind data := by
  unfold tryUnarchive
  obtain ⟨trap, hread, hsafe⟩ | ⟨error, hread, -, hfaults⟩ |
    ⟨archive, value, hdata, hread, -, hnone, hvalue⟩ := unarchiveTopLevelObject_cases tables data
  · rw [hread]
    exact iff_of_false (by simp) fun hholds => hsafe hholds.readsSafely
  · rw [hread]
    refine iff_of_false (by simp) ?_
    rintro ⟨archive, hdata, hnone, -⟩
    exact hfaults archive hdata hnone
  · rw [hread]
    have hsome := hvalue.bind_cast_isSome hcast
    have hholds : Holds tables kind data ↔ kind.isStored tables archive = true :=
      ⟨fun hholds => hholds.rootIs archive hdata hnone,
        fun hstored => ⟨archive, hdata, hnone, hstored⟩⟩
    rw [hholds, ← hsome, Option.isSome_iff_exists]
    simp only [Except.ok.injEq]

theorem read_found_iff (hcast : kind.CastBy cast) (tables : ModelTables) (data : Data) :
    (∃ tables' element, (do
      let found ← tryUnarchive cast tables data
      return (tables, found) : Except Trap (ModelTables × Option Element)) =
        .ok (tables', some element)) ↔ Holds tables kind data := by
  rw [← tryUnarchive_found_iff hcast]
  cases tryUnarchive cast tables data <;> simp [bind, Except.bind, pure, Except.pure]

end Casts

/-! ## The functions of the model classes -/

section Functions

variable (tables : ModelTables) (data : Data)

theorem Article.keyedUnarchiveArray_found_iff :
    (∃ tables' articles,
      Article.keyedUnarchiveArray (some data) tables = .ok (tables', some articles)) ↔
      Holds (tables.setClass .article "Article") (.array (.object .article)) data :=
  read_found_iff Kind.castBy_article.array _ data

namespace CategorizedSources

/-- The class tables while groups of sources are read. -/
def readingTables : ModelTables :=
  (tables.setClass .categorizedSources "CategorizedSources").setClass .source "Source"

theorem keyedUnarchive_eq :
    keyedUnarchive (some data) tables =
      match unarchiveTopLevelObject (readingTables tables) data with
      | .error (.trapped trap) => .error trap
      | .error (.thrown _) => .ok (readingTables tables, none)
      | .ok value =>
          match value.filter AnyValue.isCategorizedSources with
          | none => .error .forcedUnwrap
          | some sources => .ok (readingTables tables, some sources) := rfl

/-- The three ways in which reading groups of sources ends: the process stops,
nil is returned, or groups are. -/
theorem keyedUnarchive_cases :
    ((∃ trap, keyedUnarchive (some data) tables = .error trap) ∧
      ¬ (ReadsSafely (readingTables tables) data ∧
        RootIs (readingTables tables) (.object .categorizedSources) data)) ∨
    (keyedUnarchive (some data) tables = .ok (readingTables tables, none) ∧
      ReadsSafely (readingTables tables) data ∧ ∀ archive, archiveContents data = .ok archive →
        faults (readingTables tables) archive ≠ []) ∨
    (∃ sources, keyedUnarchive (some data) tables = .ok (readingTables tables, some sources)) ∧
      ReadsSafely (readingTables tables) data ∧
        Holds (readingTables tables) (.object .categorizedSources) data := by
  rw [keyedUnarchive_eq]
  obtain ⟨trap, hread, hsafe⟩ | ⟨error, hread, hsafe, hfaults⟩ |
    ⟨archive, value, hdata, hread, hsafe, hnone, hvalue⟩ :=
      unarchiveTopLevelObject_cases (readingTables tables) data
  · rw [hread]
    exact .inl ⟨⟨trap, rfl⟩, fun hboth => hsafe hboth.1⟩
  · rw [hread]
    exact .inr (.inl ⟨rfl, hsafe, hfaults⟩)
  · rw [hread]
    have hsome : (value.filter AnyValue.isCategorizedSources).isSome =
        (Kind.object .categorizedSources).isStored (readingTables tables) archive := by
      rw [Option.isSome_filter]
      exact hvalue.2 (.object .categorizedSources)
    simp only
    cases hfound : value.filter AnyValue.isCategorizedSources with
    | none =>
        -- some other object is unwrapped by force
        rw [hfound] at hsome
        refine .inl ⟨⟨.forcedUnwrap, rfl⟩, fun hboth => ?_⟩
        exact absurd (hsome.trans (hboth.2 archive hdata hnone)) (by simp)
    | some sources =>
        rw [hfound] at hsome
        exact .inr (.inr ⟨⟨sources, rfl⟩, hsafe, archive, hdata, hnone, hsome.symm⟩)

theorem keyedUnarchive_found_iff :
    (∃ tables' sources, keyedUnarchive (some data) tables = .ok (tables', some sources)) ↔
      Holds (readingTables tables) (.object .categorizedSources) data := by
  obtain ⟨⟨trap, hread⟩, hunsafe⟩ | ⟨hread, hsafe, hfaults⟩ | ⟨⟨sources, hread⟩, hsafe, hholds⟩ :=
    keyedUnarchive_cases tables data
  · rw [hread]
    exact iff_of_false (by simp) fun hholds => hunsafe ⟨hholds.readsSafely, hholds.rootIs⟩
  · rw [hread]
    refine iff_of_false (by simp) ?_
    rintro ⟨archive, hdata, hnone, -⟩
    exact hfaults archive hdata hnone
  · exact iff_of_true ⟨_, sources, hread⟩ hholds

end CategorizedSources

end Functions

omit [Foundation] in
/-- A group that holds no source is restored as it is. -/
example :
    letI : Foundation := .sample
    (CategorizedSources.keyedUnarchive
      (some (SampleData.archive (.object "CategorizedSources"
        [("detail_0", .array [.leaf (.string "A")]), ("detailCount", .leaf (.int32 1)),
          ("categories", .array [.leaf (.string "sports")])])))
      (processTables "NewsDay")).map Prod.snd =
        .ok (some (.uncheckedSources ["sports"] [[.string "A"]])) := by
  rfl

end NewsDay
