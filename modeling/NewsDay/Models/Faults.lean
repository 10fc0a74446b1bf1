import NewsDay.Library.FirstFault
import NewsDay.Models.Restoring

/-! # What stops the unarchiver

The content of an archive decides what reading it comes by first: something
that the unarchiver throws an error for, or something that a forced cast or a
range of the decoding initialisers cannot deal with. Both kinds are listed here
from the content alone, in the order of reading.
-/

namespace NewsDay

open Foundation KeyedArchive FirstFault

/-- What is wrong with an archive. -/
inductive Fault
  /-- the unarchiver throws -/
  | rejected
  /-- the process stops -/
  | trapped (trap : Trap)
deriving DecidableEq

/-- The types that the initialisers and the archive functions cast to. -/
inductive Kind
  | string
  | object (cls : ModelClass)
  | array (element : Kind)
  /-- An array whose elements are not checked. -/
  | uncheckedArray

variable [Foundation]

def Failure.fault : Failure → Fault
  | .thrown _ => .rejected
  | .trapped trap => .trapped trap

namespace Kind

/-- The object casts to the type. -/
def isKindOf : Kind → AnyValue → Bool
  | .string, value => value.asString.isSome
  | .object .source, value => value.asSource.isSome
  | .object .article, value => value.asArticle.isSome
  | .object .categorizedSources, value => value.isCategorizedSources
  | .array element, .array elements => elements.all element.isKindOf
  | .array _, _ => false
  | .uncheckedArray, value => value.asUncheckedArray.isSome

/-- The archive stores an object of the type, whatever is inside it. -/
def isStored (tables : ModelTables) : Kind → ModelArchive → Bool
  | .string, .leaf (.string _) => true
  | .object cls, .object className _ => tables.resolve className == some cls
  | .array element, .array elements => elements.all (element.isStored tables)
  | .uncheckedArray, .array _ => true
  | _, _ => false

end Kind

/-! ## Faults of an archive -/

/-- Reading the object under a key and casting it by force. -/
def forcedFaults (tables : ModelTables) (fields : List (String × ModelArchive))
    (inner : List (String × List Fault)) (kind : Kind) (key : String) : List Fault :=
  (inner.lookup key).getD [] ++
    if (fields.lookup key).any (kind.isStored tables) then [] else [.trapped .forcedCast]

/-- The number that `decodeInt32(forKey:)` returns, if it returns. -/
def storedCount : Option ModelArchive → Option Int
  | none => some 0
  | some (.leaf (.int32 value)) => if -2 ^ 31 ≤ value ∧ value < 2 ^ 31 then some value else none
  | some _ => none

/-- Counting from zero to the stored number and reading a group at each step. -/
def detailFaults (tables : ModelTables) (fields : List (String × ModelArchive))
    (inner : List (String × List Fault)) : List Fault :=
  match storedCount (fields.lookup "detailCount") with
  | none => [.rejected]
  | some count =>
      if count < 0 then [.trapped .invalidRange]
      else (List.range count.toNat).flatMap fun index =>
        forcedFaults tables fields inner .uncheckedArray (CategorizedSources.detailKey index)

/-- What is wrong with the fields of an object, given what is wrong inside each
of them. -/
def objectFaults (tables : ModelTables) (fields : List (String × ModelArchive))
    (inner : List (String × List Fault)) : ModelClass → List Fault
  | .source => ["id", "name", "description", "category", "language", "country"].flatMap
      (forcedFaults tables fields inner .string)
  | .article =>
      ["author", "title", "desc", "content"].flatMap (forcedFaults tables fields inner .string) ++
        -- these are cast conditionally
        ["url", "urlImage", "date"].flatMap fun key => (inner.lookup key).getD []
  | .categorizedSources =>
      forcedFaults tables fields inner (.array .string) "categories" ++
        detailFaults tables fields inner

def nullFaults : ModelArchive → List Fault
  | .null => [.rejected]
  | _ => []

def leafFaults : Leaf URL Date → List Fault
  | .int32 _ => [.rejected]
  | _ => []

mutual

/-- All that is wrong with an archive, in the order of reading. -/
def faults (tables : ModelTables) : ModelArchive → List Fault
  | .null => []
  | .leaf value => leafFaults value
  | .array elements => elementFaults tables elements
  -- the keys of a dictionary come first
  | .collection elements => elementFaults tables elements
  | .object className fields =>
      match tables.resolve className with
      | none => [.rejected]
      | some cls => objectFaults tables fields (fieldFaults tables fields) cls

def elementFaults (tables : ModelTables) : List ModelArchive → List Fault
  | [] => []
  | element :: rest => faults tables element ++ (nullFaults element ++ elementFaults tables rest)

def fieldFaults (tables : ModelTables) :
    List (String × ModelArchive) → List (String × List Fault)
  | [] => []
  | (key, archive) :: rest => (key, faults tables archive) :: fieldFaults tables rest

end

theorem fieldFaults_lookup (tables : ModelTables) (fields : List (String × ModelArchive))
    (key : String) :
    (fieldFaults tables fields).lookup key = (fields.lookup key).map (faults tables) := by
  induction fields with
  | nil => simp [fieldFaults]
  | cons field rest ih =>
      obtain ⟨name, archive⟩ := field
      simp only [fieldFaults, List.lookup_cons]
      cases key == name <;> simp [ih]

theorem faults_object {tables : ModelTables} {className : String} {cls : ModelClass}
    (fields : List (String × ModelArchive)) (hclass : tables.resolve className = some cls) :
    faults tables (.object className fields) =
      objectFaults tables fields (fieldFaults tables fields) cls := by
  simp only [faults, hclass]

/-! ## Reading meets the faults -/

/-- What is read is of the types that are stored. -/
def Restores (tables : ModelTables) (archive : ModelArchive) (value : Option AnyValue) : Prop :=
  (value = none ↔ archive = .null) ∧
    ∀ kind : Kind, value.any kind.isKindOf = kind.isStored tables archive

/-- Reading the archive comes by the faults that are listed for it. -/
abbrev ReadingMeets (tables : ModelTables) (archive : ModelArchive) : Prop :=
  Meets Failure.fault (faults tables archive) (Restores tables archive)
    (unarchive modelUnarchiver tables archive)

namespace Kind

/-- A conditional cast to the type. -/
def CastBy (kind : Kind) {Element : Type} (cast : AnyValue → Option Element) : Prop :=
  ∀ value, (cast value).isSome = kind.isKindOf value

theorem castBy_string : CastBy .string AnyValue.asString := fun _ => rfl

theorem castBy_article : CastBy (.object .article) AnyValue.asArticle := fun _ => rfl

theorem castBy_uncheckedArray : CastBy .uncheckedArray AnyValue.asUncheckedArray := fun _ => rfl

theorem CastBy.array {kind : Kind} {Element : Type} {cast : AnyValue → Option Element}
    (hcast : kind.CastBy cast) : (Kind.array kind).CastBy (AnyValue.asArray cast) := by
  intro value
  cases value with
  | array elements =>
      change (elements.mapM cast).isSome = elements.all kind.isKindOf
      induction elements with
      | nil => rfl
      | cons element rest ih =>
          rw [List.all_cons, ← hcast element, ← ih, List.mapM_cons]
          cases cast element with
          | none => rfl
          | some found => cases rest.mapM cast <;> rfl
  | _ => rfl

end Kind

section Fields

variable {tables : ModelTables} {fields : List (String × ModelArchive)}

/-- Reading what is stored under any of the keys comes by its faults. -/
def FieldsMeet (tables : ModelTables) (fields : List (String × ModelArchive)) : Prop :=
  ∀ field ∈ fields, ReadingMeets tables field.2

theorem mem_of_lookup {key : String} {archive : ModelArchive}
    (hlookup : fields.lookup key = some archive) : (key, archive) ∈ fields := by
  obtain ⟨before, after, hfields, -⟩ := List.lookup_eq_some_iff.mp hlookup
  rw [hfields]
  exact List.mem_append_right before List.mem_cons_self

theorem decodeObject_meets (hfields : FieldsMeet tables fields) (key : String) :
    Meets Failure.fault (((fieldFaults tables fields).lookup key).getD [])
      (fun value => ∀ kind : Kind,
        value.any kind.isKindOf = (fields.lookup key).any (kind.isStored tables))
      ((fieldReader modelUnarchiver tables fields).decodeObject key) := by
  rw [fieldFaults_lookup]
  simp only [fieldReader]
  cases hlookup : fields.lookup key with
  | none => exact Meets.pure fun _ => rfl
  | some archive =>
      have hmeets : ReadingMeets tables archive := hfields _ (mem_of_lookup hlookup)
      exact hmeets.imp fun value hvalue => hvalue.2

/-- A forced cast of what is under a key. -/
theorem forceCast_meets (hfields : FieldsMeet tables fields) {Element : Type} {kind : Kind}
    {cast : AnyValue → Option Element} (hcast : kind.CastBy cast) (key : String) :
    Meets Failure.fault (forcedFaults tables fields (fieldFaults tables fields) kind key)
      (fun _ => True)
      ((fieldReader modelUnarchiver tables fields).decodeObject key >>= forceCast cast) := by
  refine (decodeObject_meets hfields key).bind fun value hvalue => ?_
  have hkind : (value.bind cast).isSome = (fields.lookup key).any (kind.isStored tables) := by
    rw [← hvalue kind]
    cases value with
    | none => rfl
    | some object => exact hcast object
  unfold forceCast
  cases hfound : value.bind cast with
  | none =>
      rw [hfound] at hkind
      rw [← hkind]
      exact Meets.fail (Failure.trapped .forcedCast) []
  | some found =>
      rw [hfound] at hkind
      rw [← hkind]
      exact Meets.pure trivial

/-! ### The initialisers -/

theorem Source.initCoder_meets (hfields : FieldsMeet tables fields) :
    Meets Failure.fault (objectFaults tables fields (fieldFaults tables fields) .source)
      (fun _ => True) (Source.initCoder (fieldReader modelUnarchiver tables fields)) := by
  rw [Source.initCoder_eq]
  simp only [objectFaults, List.flatMap_cons, List.flatMap_nil]
  refine (forceCast_meets hfields Kind.castBy_string "id").bind fun id _ => ?_
  refine (forceCast_meets hfields Kind.castBy_string "name").bind fun name _ => ?_
  refine (forceCast_meets hfields Kind.castBy_string "description").bind fun desc _ => ?_
  refine (forceCast_meets hfields Kind.castBy_string "category").bind fun category _ => ?_
  refine (forceCast_meets hfields Kind.castBy_string "language").bind fun language _ => ?_
  refine (forceCast_meets hfields Kind.castBy_string "country").bind fun country _ => ?_
  exact Meets.pure trivial

theorem Article.initCoder_eq (aDecoder : ModelReader) :
    Article.initCoder aDecoder = (do
      let author ← aDecoder.decodeObject "author" >>= forceCast AnyValue.asString
      let title ← aDecoder.decodeObject "title" >>= forceCast AnyValue.asString
      let desc ← aDecoder.decodeObject "desc" >>= forceCast AnyValue.asString
      let content ← aDecoder.decodeObject "content" >>= forceCast AnyValue.asString
      let url ← aDecoder.decodeObject "url"
      let urlImage ← aDecoder.decodeObject "urlImage"
      let date ← aDecoder.decodeObject "date"
      return { author, title, desc, content, url := url.bind AnyValue.asURL,
               urlImage := urlImage.bind AnyValue.asURL, date := date.bind AnyValue.asDate }) := by
  simp only [Article.initCoder, bind_assoc]

theorem Article.initCoder_meets (hfields : FieldsMeet tables fields) :
    Meets Failure.fault (objectFaults tables fields (fieldFaults tables fields) .article)
      (fun _ => True) (Article.initCoder (fieldReader modelUnarchiver tables fields)) := by
  rw [Article.initCoder_eq]
  simp only [objectFaults, List.flatMap_cons, List.flatMap_nil, List.append_assoc, List.nil_append]
  refine (forceCast_meets hfields Kind.castBy_string "author").bind fun author _ => ?_
  refine (forceCast_meets hfields Kind.castBy_string "title").bind fun title _ => ?_
  refine (forceCast_meets hfields Kind.castBy_string "desc").bind fun desc _ => ?_
  refine (forceCast_meets hfields Kind.castBy_string "content").bind fun content _ => ?_
  refine (decodeObject_meets hfields "url").bind fun url _ => ?_
  refine (decodeObject_meets hfields "urlImage").bind fun urlImage _ => ?_
  refine (decodeObject_meets hfields "date").bind fun date _ => ?_
  exact Meets.pure trivial

namespace CategorizedSources

theorem decodeDetails_meets (hfields : FieldsMeet tables fields) (index remaining : Nat) :
    Meets Failure.fault
      ((List.range' index remaining).flatMap fun index =>
        forcedFaults tables fields (fieldFaults tables fields) .uncheckedArray
          (detailKey index))
      (fun _ => True)
      (decodeDetails (fieldReader modelUnarchiver tables fields) index remaining) := by
  induction remaining generalizing index with
  | zero => exact Meets.pure trivial
  | succ remaining ih =>
      have hdecode : decodeDetails (fieldReader modelUnarchiver tables fields) index
          (remaining + 1) = (do
            let entry ← (fieldReader modelUnarchiver tables fields).decodeObject
              (detailKey index) >>= forceCast AnyValue.asUncheckedArray
            let rest ← decodeDetails (fieldReader modelUnarchiver tables fields) (index + 1)
              remaining
            return entry :: rest) := by
        simp only [decodeDetails, bind_assoc]
      rw [hdecode, List.range'_succ, List.flatMap_cons]
      refine (forceCast_meets hfields Kind.castBy_uncheckedArray (detailKey index)).bind
        fun entry _ => ?_
      exact (ih (index + 1)).map fun _ _ => trivial

theorem decodeInt32_eq (aDecoder : ModelReader) (key : String) :
    decodeInt32 aDecoder key = match storedCount (aDecoder.contents key) with
      | some count => .ok count
      | none => .error (.thrown unreadable) := by
  unfold decodeInt32 storedCount
  cases aDecoder.contents key with
  | none => rfl
  | some archive =>
      cases archive with
      | leaf value =>
          cases value with
          | int32 value =>
              by_cases hrange : -2 ^ 31 ≤ value ∧ value < 2 ^ 31
              · simp only [if_pos hrange]
              · simp only [if_neg hrange]
          | _ => rfl
      | _ => rfl

theorem initCoder_meets (hfields : FieldsMeet tables fields) :
    Meets Failure.fault (objectFaults tables fields (fieldFaults tables fields) .categorizedSources)
      (fun object => object.isCategorizedSources = true)
      (initCoder (fieldReader modelUnarchiver tables fields)) := by
  have hcoder : initCoder (fieldReader modelUnarchiver tables fields) = (do
      let categories ← (fieldReader modelUnarchiver tables fields).decodeObject "categories" >>=
        forceCast (AnyValue.asArray AnyValue.asString)
      let detailCount ← decodeInt32 (fieldReader modelUnarchiver tables fields) "detailCount"
      if detailCount < 0 then .error (.trapped .invalidRange)
      let details ← decodeDetails (fieldReader modelUnarchiver tables fields) 0 detailCount.toNat
      return .ofGroups categories details) := by
    simp only [initCoder, bind_assoc]
  rw [hcoder, objectFaults]
  refine (forceCast_meets hfields Kind.castBy_string.array "categories").bind
    fun categories _ => ?_
  have hread := decodeInt32_eq (fieldReader modelUnarchiver tables fields) "detailCount"
  rw [show (fieldReader modelUnarchiver tables fields).contents "detailCount" =
    fields.lookup "detailCount" from rfl] at hread
  rw [detailFaults, hread]
  cases storedCount (fields.lookup "detailCount") with
  | none => exact Meets.fail (Failure.thrown unreadable) []
  | some count =>
      by_cases hnegative : count < 0
      · simp only [bind, Except.bind, if_pos hnegative]
        exact Meets.fail (Failure.trapped .invalidRange) []
      · simp only [bind, Except.bind, if_neg hnegative, List.range_eq_range']
        have hdetails := decodeDetails_meets hfields 0 count.toNat
        exact hdetails.map fun details _ =>
          AnyValue.isCategorizedSources_ofGroups categories details

end CategorizedSources

/-- An object of a class and of no other type is what an archive of the class
stores. -/
theorem restores_object {className : String} {cls : ModelClass} {object : AnyValue}
    (hclass : tables.resolve className = some cls) (hstring : Kind.string.isKindOf object = false)
    (harray : ∀ element, (Kind.array element).isKindOf object = false)
    (hunchecked : Kind.uncheckedArray.isKindOf object = false)
    (hobject : ∀ other, (Kind.object other).isKindOf object = (some cls == some other)) :
    Restores tables (.object className fields) (some object) := by
  refine ⟨by simp, fun kind => ?_⟩
  rw [Option.any_some]
  cases kind with
  | string => exact hstring
  | array element => exact harray element
  | uncheckedArray => exact hunchecked
  | object other => rw [hobject, Kind.isStored, hclass]

/-- What an initialiser makes is an object of its class and of no other type. -/
theorem initCoder_restores (hfields : FieldsMeet tables fields) {className : String}
    {cls : ModelClass} (hclass : tables.resolve className = some cls) :
    Meets Failure.fault (objectFaults tables fields (fieldFaults tables fields) cls)
      (fun object => Restores tables (.object className fields) (some object))
      (modelUnarchiver.initCoder cls (fieldReader modelUnarchiver tables fields)) := by
  cases cls with
  | source =>
      refine (Source.initCoder_meets hfields).map fun source _ => ?_
      exact restores_object hclass rfl (fun _ => rfl) rfl fun other => by cases other <;> rfl
  | article =>
      refine (Article.initCoder_meets hfields).map fun article _ => ?_
      exact restores_object hclass rfl (fun _ => rfl) rfl fun other => by cases other <;> rfl
  | categorizedSources =>
      refine (CategorizedSources.initCoder_meets hfields).imp fun object hobject => ?_
      cases object with
      | categorizedSources | uncheckedSources =>
          exact restores_object hclass rfl (fun _ => rfl) rfl fun other => by cases other <;> rfl
      | _ => cases hobject

end Fields

/-- Elements that are restored one by one are an array of what they are. -/
theorem restores_array {tables : ModelTables} {elements : List ModelArchive}
    {objects : List AnyValue}
    (hobjects : List.Forall₂ (fun element object => Restores tables element (some object))
      elements objects) :
    Restores tables (.array elements) (some (.array objects)) := by
  refine ⟨by simp, fun kind => ?_⟩
  match kind with
  | .string | .object .source | .object .article | .object .categorizedSources
  | .uncheckedArray => rfl
  | .array kind =>
      simp only [Option.any_some, Kind.isKindOf, Kind.isStored]
      induction hobjects with
      | nil => rfl
      | cons hobject _ ih => rw [List.all_cons, List.all_cons, ih, ← hobject.2 kind, Option.any_some]

/-- A dictionary or a set is an object that is never asked for. -/
theorem restores_collection (tables : ModelTables) (elements : List ModelArchive) :
    Restores tables (.collection elements) (some .other) := by
  refine ⟨by simp, fun kind => ?_⟩
  match kind with
  | .string | .object .source | .object .article | .object .categorizedSources | .array _
  | .uncheckedArray => rfl

theorem leaf_meets (tables : ModelTables) (value : Leaf URL Date) :
    ReadingMeets tables (.leaf value) := by
  simp only [ReadingMeets, faults, unarchive]
  cases value with
  | int32 value => exact Meets.fail (Failure.thrown unreadable) []
  | _ =>
      refine Meets.pure ⟨by simp, fun kind => ?_⟩
      cases kind with
      | string | array | uncheckedArray => rfl
      | object cls => cases cls <;> rfl

mutual

/-- Reading an archive comes by the faults that are listed for it. -/
theorem unarchive_meets (tables : ModelTables) :
    ∀ archive : ModelArchive, ReadingMeets tables archive
  | .null => Meets.pure ⟨iff_of_true rfl rfl, fun kind => by cases kind <;> rfl⟩
  | .leaf value => leaf_meets tables value
  | .array elements => by
      have helements := unarchiveElements_meets tables elements
      simp only [ReadingMeets, faults, unarchive]
      exact helements.map fun objects hobjects => restores_array hobjects
  | .collection elements => by
      have helements := unarchiveElements_meets tables elements
      simp only [ReadingMeets, faults, unarchive]
      exact helements.map fun _ _ => restores_collection tables elements
  | .object className fields => by
      have hfields := unarchiveFields_meet tables fields
      cases hclass : tables.resolve className with
      | none =>
          simp only [ReadingMeets, faults, unarchive, hclass]
          exact Meets.fail (Failure.thrown unreadable) []
      | some cls =>
          rw [ReadingMeets, faults_object fields hclass, unarchive_object _ _ fields hclass]
          exact (initCoder_restores hfields hclass).map fun object hobject => hobject

theorem unarchiveElements_meets (tables : ModelTables) :
    ∀ elements : List ModelArchive,
      Meets Failure.fault (elementFaults tables elements)
        (fun objects => List.Forall₂
          (fun element object => Restores tables element (some object)) elements objects)
        (unarchiveElements modelUnarchiver tables elements)
  | [] => Meets.pure .nil
  | element :: rest => by
      have helement := unarchive_meets tables element
      have hrest := unarchiveElements_meets tables rest
      have helements : unarchiveElements modelUnarchiver tables (element :: rest) =
          unarchive modelUnarchiver tables element >>= fun value =>
            (match value with
              | none => .error (.thrown unreadable)
              | some object => .ok object) >>= fun object =>
                (unarchiveElements modelUnarchiver tables rest).map (object :: ·) := by
        rw [unarchiveElements]
        cases unarchive modelUnarchiver tables element with
        | error failure => rfl
        | ok value => cases value <;> rfl
      rw [helements, elementFaults]
      refine helement.bind fun value hvalue => ?_
      cases value with
      | none =>
          rw [hvalue.1.mp rfl]
          exact Meets.fail (Failure.thrown unreadable) (elementFaults tables rest)
      | some object =>
          have hnull : nullFaults element = [] := by
            cases element with
            | null => exact absurd (hvalue.1.mpr rfl) (by simp)
            | _ => rfl
          rw [hnull]
          exact hrest.map fun objects hobjects => .cons hvalue hobjects

theorem unarchiveFields_meet (tables : ModelTables) :
    ∀ fields : List (String × ModelArchive), FieldsMeet tables fields
  | [] => fun _ hfield => absurd hfield List.not_mem_nil
  | (_, archive) :: rest => by
      have harchive := unarchive_meets tables archive
      have hrest := unarchiveFields_meet tables rest
      intro field hfield
      rcases List.mem_cons.mp hfield with rfl | hfield
      · exact harchive
      · exact hrest field hfield

end

end NewsDay
