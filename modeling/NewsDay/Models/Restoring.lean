import NewsDay.Models.Transfer

/-! # Which byte strings restore a source

A byte string from the other process need not be an archive that the program
wrote. Whatever it holds, a source is restored from it only if its root is an
object of that class with the six strings under their keys, and this does not
depend on what the process has archived or read before.
-/

namespace NewsDay

open Foundation KeyedArchive

variable [Foundation]

/-- Class tables that a process of this module can have: names stand for
classes as the archive functions register them. -/
structure RegisteredTables (modulePrefix : String) (tables : ModelTables) : Prop where
  runtime : tables.runtimeClass = (processTables modulePrefix).runtimeClass
  registered : ∀ name cls, tables.classes name = some cls → name = cls.name

namespace RegisteredTables

variable {modulePrefix : String} {tables : ModelTables}

omit [Foundation]

theorem start (modulePrefix : String) :
    RegisteredTables modulePrefix (processTables modulePrefix) where
  runtime := rfl
  registered := by
    intro name cls hclass
    exact absurd hclass.symm (Option.some_ne_none cls)

theorem setClassName (htables : RegisteredTables modulePrefix tables) (name : String)
    (cls : ModelClass) : RegisteredTables modulePrefix (tables.setClassName name cls) :=
  ⟨htables.runtime, htables.registered⟩

theorem setClass (htables : RegisteredTables modulePrefix tables) (cls : ModelClass) :
    RegisteredTables modulePrefix (tables.setClass cls cls.name) where
  runtime := htables.runtime
  registered := by
    intro name cls' hclass
    by_cases hname : name = cls.name
    · rw [hname, ClassTables.classes_setClass] at hclass
      rw [hname, Option.some.inj hclass]
    · rw [ClassTables.classes_setClass_of_ne _ _ hname] at hclass
      exact htables.registered name cls' hclass

/-- The module name of a class is no registered name. -/
theorem runtimeName_ne (modulePrefix : String) (cls cls' : ModelClass) :
    modulePrefix ++ "." ++ cls.name ≠ cls'.name := by
  intro hname
  have hdot : '.' ∈ cls'.name.toList := by
    rw [← hname]
    simp
  cases cls' <;> exact absurd hdot (by decide)

theorem runtimeName_injective {cls cls' : ModelClass}
    (hname : modulePrefix ++ "." ++ cls.name = modulePrefix ++ "." ++ cls'.name) : cls = cls' := by
  have hsame : cls.name = cls'.name := by
    simpa only [String.ext_iff, String.toList_append, List.append_cancel_left_eq] using hname
  cases cls <;> cases cls' <;> first | rfl | exact absurd hsame (by decide)

/-- The runtime finds a class under its own name only. -/
theorem processTables_runtimeClass {name : String} {cls : ModelClass}
    (hfound : (processTables modulePrefix).runtimeClass name = some cls) :
    name = modulePrefix ++ "." ++ cls.name := by
  unfold processTables at hfound
  have hname := List.find?_some hfound
  rw [decide_eq_true_eq] at hname
  exact hname.symm

theorem runtimeClass_eq_some_iff (htables : RegisteredTables modulePrefix tables) (name : String)
    (cls : ModelClass) :
    tables.runtimeClass name = some cls ↔ name = modulePrefix ++ "." ++ cls.name := by
  rw [htables.runtime]
  constructor
  · exact processTables_runtimeClass
  · rintro rfl
    have hsome : ((processTables modulePrefix).runtimeClass
        (modulePrefix ++ "." ++ cls.name)).isSome := by
      refine List.find?_isSome.mpr ⟨cls, ?_, decide_eq_true rfl⟩
      cases cls <;> decide
    obtain ⟨found, hfound⟩ := Option.isSome_iff_exists.mp hsome
    rw [hfound, runtimeName_injective (processTables_runtimeClass hfound)]

/-- After the registration of a class, two names stand for it. -/
theorem resolve_setClass_iff (htables : RegisteredTables modulePrefix tables) (cls : ModelClass)
    (name : String) :
    (tables.setClass cls cls.name).resolve name = some cls ↔
      name = cls.name ∨ name = modulePrefix ++ "." ++ cls.name := by
  have hruntime := (htables.setClass cls).runtimeClass_eq_some_iff name cls
  rw [ClassTables.resolve]
  cases hclass : (tables.setClass cls cls.name).classes name with
  | some found =>
      have hname := (htables.setClass cls).registered name found hclass
      rw [Option.some_or, Option.some.injEq]
      constructor
      · rintro rfl
        exact .inl hname
      · rintro (hcls | hmodule)
        · rw [hcls, ClassTables.classes_setClass] at hclass
          exact (Option.some.inj hclass).symm
        · -- a registered name has no module in front
          exact absurd (hmodule.symm.trans hname) (runtimeName_ne modulePrefix cls found)
  | none =>
      rw [Option.none_or, hruntime]
      constructor
      · exact .inr
      · rintro (hcls | hmodule)
        · rw [hcls, ClassTables.classes_setClass] at hclass
          exact absurd hclass (Option.some_ne_none _)
        · exact hmodule

end RegisteredTables

/-! ## Outcomes -/

section Outcomes

omit [Foundation]

variable {Error Value Value' : Type} {outcome : Except Error Value}

theorem map_eq_ok {f : Value → Value'} {value : Value'} (hvalue : outcome.map f = .ok value) :
    ∃ inner, outcome = .ok inner ∧ f inner = value := by
  cases outcome with
  | error failure => exact absurd hvalue (by simp [Except.map])
  | ok inner => exact ⟨inner, rfl, Except.ok.inj hvalue⟩

theorem bind_eq_ok {f : Value → Except Error Value'} {value : Value'}
    (hvalue : outcome >>= f = .ok value) : ∃ inner, outcome = .ok inner ∧ f inner = .ok value := by
  cases outcome with
  | error failure => exact absurd hvalue (by simp [bind, Except.bind])
  | ok inner => exact ⟨inner, rfl, hvalue⟩

end Outcomes

/-- What `init(coder:)` makes is an object of its class. -/
theorem CategorizedSources.isCategorizedSources_of_initCoder {aDecoder : ModelReader}
    {value : AnyValue} (hvalue : initCoder aDecoder = .ok value) :
    value.isCategorizedSources = true := by
  obtain ⟨decoded, -, hvalue⟩ := bind_eq_ok hvalue
  obtain ⟨categories, -, hvalue⟩ := bind_eq_ok hvalue
  obtain ⟨detailCount, -, hvalue⟩ := bind_eq_ok hvalue
  split at hvalue
  · cases hvalue
  · obtain ⟨details, -, hvalue⟩ := bind_eq_ok hvalue
    obtain rfl := Except.ok.inj hvalue
    exact AnyValue.isCategorizedSources_ofGroups categories details

/-- Only a stored string is read as a string. -/
theorem unarchive_eq_string_iff (tables : ModelTables) (archive : ModelArchive) (value : String) :
    unarchive modelUnarchiver tables archive = .ok (some (.string value)) ↔
      archive = .leaf (.string value) := by
  constructor
  · intro hread
    cases archive with
    | null => simp [unarchive] at hread
    | leaf leaf =>
        cases leaf <;> simp [unarchive, modelUnarchiver, Except.map] at hread
        rw [hread]
    | array elements =>
        rw [unarchive] at hread
        obtain ⟨objects, -, hobjects⟩ := map_eq_ok hread
        simp [modelUnarchiver] at hobjects
    | collection elements =>
        rw [unarchive] at hread
        obtain ⟨objects, -, hobjects⟩ := map_eq_ok hread
        simp [modelUnarchiver] at hobjects
    | object className fields =>
        rw [unarchive] at hread
        split at hread
        · simp at hread
        next cls hcls =>
          obtain ⟨object, hobject, hsome⟩ := map_eq_ok hread
          obtain rfl := Option.some.inj hsome
          cases cls with
          | categorizedSources =>
              cases CategorizedSources.isCategorizedSources_of_initCoder hobject
          | _ =>
              obtain ⟨inner, -, hinner⟩ := map_eq_ok hobject
              cases hinner
  · rintro rfl
    rfl

/-! ## Sources -/

namespace Source

/-- The strings of a source and the keys that they are stored under. -/
def stringFields (source : Source) : List (String × String) :=
  [("id", source.id), ("name", source.name), ("description", source.desc),
    ("category", source.category), ("language", source.language), ("country", source.country)]

/-- The byte string is an archive of an object of class `Source` with these
strings under their keys. -/
def ArchivedIn (modulePrefix : String) (source : Source) (data : Data) : Prop :=
  ∃ className fields, archiveContents data = .ok (.object className fields) ∧
    (className = "Source" ∨ className = modulePrefix ++ "." ++ "Source") ∧
      ∀ field ∈ source.stringFields, fields.lookup field.1 = some (.leaf (.string field.2))

def readString (aDecoder : ModelReader) (key : String) : Except Failure String := do
  forceCast AnyValue.asString (← aDecoder.decodeObject key)

/-- A forced cast to a string succeeds on stored strings only. -/
theorem readString_iff (tables : ModelTables) (fields : List (String × ModelArchive))
    (key value : String) :
    readString (fieldReader modelUnarchiver tables fields) key = .ok value ↔
      fields.lookup key = some (.leaf (.string value)) := by
  simp only [readString, fieldReader]
  cases hfield : fields.lookup key with
  | none => simp [forceCast, bind, Except.bind]
  | some archive =>
      simp only [Option.map_some, Option.getD_some, Option.some.injEq]
      rw [← unarchive_eq_string_iff tables archive value]
      cases hread : unarchive modelUnarchiver tables archive with
      | error failure => simp [bind, Except.bind]
      | ok object =>
          cases object with
          | none => simp [forceCast, bind, Except.bind]
          | some object => cases object <;> simp [forceCast, AnyValue.asString, bind, Except.bind]

theorem initCoder_eq (aDecoder : ModelReader) :
    initCoder aDecoder = (do
      let id ← readString aDecoder "id"
      let name ← readString aDecoder "name"
      let desc ← readString aDecoder "description"
      let category ← readString aDecoder "category"
      let language ← readString aDecoder "language"
      let country ← readString aDecoder "country"
      return { id, name, desc, category, language, country }) := by
  simp only [initCoder, readString, bind_assoc]

theorem initCoder_iff (tables : ModelTables) (fields : List (String × ModelArchive))
    (source : Source) :
    initCoder (fieldReader modelUnarchiver tables fields) = .ok source ↔
      ∀ field ∈ source.stringFields, fields.lookup field.1 = some (.leaf (.string field.2)) := by
  simp only [stringFields, List.forall_mem_cons, List.not_mem_nil, IsEmpty.forall_iff,
    implies_true, and_true]
  rw [initCoder_eq]
  constructor
  · intro hsource
    obtain ⟨id, hid, hsource⟩ := bind_eq_ok hsource
    obtain ⟨name, hname, hsource⟩ := bind_eq_ok hsource
    obtain ⟨desc, hdesc, hsource⟩ := bind_eq_ok hsource
    obtain ⟨category, hcategory, hsource⟩ := bind_eq_ok hsource
    obtain ⟨language, hlanguage, hsource⟩ := bind_eq_ok hsource
    obtain ⟨country, hcountry, hsource⟩ := bind_eq_ok hsource
    obtain rfl := Except.ok.inj hsource
    simp only [readString_iff] at hid hname hdesc hcategory hlanguage hcountry
    exact ⟨hid, hname, hdesc, hcategory, hlanguage, hcountry⟩
  · rintro ⟨hid, hname, hdesc, hcategory, hlanguage, hcountry⟩
    rw [← readString_iff tables] at hid hname hdesc hcategory hlanguage hcountry
    rw [hid, hname, hdesc, hcategory, hlanguage, hcountry]
    rfl

/-- What is read as a source is an object of class `Source` that decodes. -/
theorem unarchive_eq_source_iff (tables : ModelTables) (archive : ModelArchive) (source : Source) :
    unarchive modelUnarchiver tables archive = .ok (some (.source source)) ↔
      ∃ className fields, archive = .object className fields ∧
        tables.resolve className = some .source ∧
          ∀ field ∈ source.stringFields, fields.lookup field.1 = some (.leaf (.string field.2)) := by
  constructor
  · intro hread
    cases archive with
    | null => simp [unarchive] at hread
    | leaf leaf => cases leaf <;> simp [unarchive, modelUnarchiver, Except.map] at hread
    | array elements =>
        rw [unarchive] at hread
        obtain ⟨objects, -, hobjects⟩ := map_eq_ok hread
        simp [modelUnarchiver] at hobjects
    | collection elements =>
        rw [unarchive] at hread
        obtain ⟨objects, -, hobjects⟩ := map_eq_ok hread
        simp [modelUnarchiver] at hobjects
    | object className fields =>
        cases hclass : tables.resolve className with
        | none => simp [unarchive, hclass] at hread
        | some cls =>
            rw [unarchive_object modelUnarchiver tables fields hclass] at hread
            obtain ⟨object, hobject, hsome⟩ := map_eq_ok hread
            obtain rfl := Option.some.inj hsome
            cases cls with
            | source =>
                obtain ⟨found, hfound, hsame⟩ := map_eq_ok hobject
                obtain rfl := AnyValue.source.inj hsame
                exact ⟨className, fields, rfl, hclass, (initCoder_iff tables fields found).mp hfound⟩
            | article =>
                obtain ⟨found, -, hsame⟩ := map_eq_ok hobject
                simp at hsame
            | categorizedSources =>
                cases CategorizedSources.isCategorizedSources_of_initCoder hobject
  · rintro ⟨className, fields, rfl, hclass, hfields⟩
    rw [unarchive_object modelUnarchiver tables fields hclass, modelUnarchiver_initCoder_source,
      (initCoder_iff tables fields source).mpr hfields]
    rfl

theorem tryUnarchive_eq_source_iff (tables : ModelTables) (data : Data) (source : Source) :
    tryUnarchive AnyValue.asSource tables data = .ok (some source) ↔
      ∃ archive, archiveContents data = .ok archive ∧
        unarchive modelUnarchiver tables archive = .ok (some (.source source)) := by
  unfold tryUnarchive unarchiveTopLevelObject
  cases hcontents : archiveContents data with
  | error error => simp
  | ok archive =>
      simp only [Except.ok.injEq, exists_eq_left']
      cases hread : unarchive modelUnarchiver tables archive with
      | error failure => cases failure <;> simp
      | ok object =>
          cases object with
          | none => simp
          | some object => cases object <;> simp [AnyValue.asSource]

/-- Whether a byte string restores a source, and which one, does not depend on
the history of the process. -/
theorem keyedUnarchive_iff {modulePrefix : String} {tables : ModelTables}
    (htables : RegisteredTables modulePrefix tables) (data : Data) (source : Source) :
    (∃ tables', keyedUnarchive (some data) tables = .ok (tables', some source)) ↔
      source.ArchivedIn modulePrefix data := by
  have hresolve := htables.resolve_setClass_iff .source
  have hread : (∃ tables', keyedUnarchive (some data) tables = .ok (tables', some source)) ↔
      tryUnarchive AnyValue.asSource (tables.setClass .source "Source") data =
        .ok (some source) := by
    constructor
    · rintro ⟨tables', hsource⟩
      obtain ⟨found, hfound, hsame⟩ := bind_eq_ok hsource
      rw [hfound, (Prod.mk.inj (Except.ok.inj hsame)).2]
    · intro hsource
      exact ⟨_, by rw [keyedUnarchive, hsource]; rfl⟩
  rw [hread, tryUnarchive_eq_source_iff]
  constructor
  · rintro ⟨archive, hcontents, hsource⟩
    obtain ⟨className, fields, rfl, hclass, hfields⟩ := (unarchive_eq_source_iff _ _ _).mp hsource
    exact ⟨className, fields, hcontents, (hresolve className).mp hclass, hfields⟩
  · rintro ⟨className, fields, hcontents, hclass, hfields⟩
    refine ⟨_, hcontents, (unarchive_eq_source_iff _ _ _).mpr ?_⟩
    exact ⟨className, fields, rfl, (hresolve className).mpr hclass, hfields⟩

theorem keyedUnarchive_registered {modulePrefix : String} {tables tables' : ModelTables}
    (htables : RegisteredTables modulePrefix tables) {data : Option Data} {found : Option Source}
    (hread : keyedUnarchive data tables = .ok (tables', found)) :
    RegisteredTables modulePrefix tables' ∧
      ∀ source, found = some source → ∃ bytes, data = some bytes ∧
        source.ArchivedIn modulePrefix bytes := by
  cases data with
  | none =>
      obtain ⟨rfl, rfl⟩ := Prod.mk.inj (Except.ok.inj hread)
      exact ⟨htables, by simp⟩
  | some bytes =>
      constructor
      · obtain ⟨value, -, hsame⟩ := bind_eq_ok hread
        obtain ⟨rfl, -⟩ := Prod.mk.inj (Except.ok.inj hsame)
        exact htables.setClass .source
      · rintro source rfl
        exact ⟨bytes, rfl, (keyedUnarchive_iff htables bytes source).mp ⟨_, hread⟩⟩

end Source

end NewsDay
