import NewsDay.Foundation

/-! # Model objects and untyped values

The three model classes, the values of type `Any` that travel through futures,
messages and archives, and the conditional casts that read them.
-/

namespace NewsDay

open Foundation

/-- `class Source`. -/
structure Source where
  id : String
  name : String
  desc : String
  category : String
  language : String
  country : String
deriving DecidableEq

/-- `class CategorizedSources`: one group of sources for each category. -/
structure CategorizedSources where
  categories : List String := []
  details : List (List Source) := []
deriving DecidableEq

variable [Foundation]

/-- `class Article`. -/
structure Article where
  author : String
  title : String
  desc : String
  content : String
  url : Option URL
  urlImage : Option URL
  date : Option Date

/-- A value of static type `Any` or `AnyObject`. Every numeric or Boolean value
is an `NSNumber`; a boxed nil is `null`; `other` is a value of a type that the
program never asks for. An object of class `CategorizedSources` whose groups hold
anything else than sources is told apart from the others: `as! [Source]` of an
`NSArray` makes one, since it checks an element when it is accessed. -/
inductive AnyValue
  | null
  | string (value : String)
  | number (value : ℚ)
  | data (value : Data)
  | url (value : URL)
  | date (value : Date)
  | image (value : UIImage)
  | session
  | array (elements : List AnyValue)
  | source (value : Source)
  | article (value : Article)
  | categorizedSources (value : CategorizedSources)
  | uncheckedSources (categories : List String) (details : List (List AnyValue))
  | other

/-- Ways in which a process can be stopped by the language runtime. -/
inductive Trap
  | forcedCast
  | forcedUnwrap
  | invalidRange
  | integerOverflow
  | indexOutOfRange
deriving DecidableEq

/-- How a call can fail: by throwing an error or by stopping the process. -/
inductive Failure
  | thrown (error : NSError)
  | trapped (trap : Trap)

/-- An array subscript. -/
def subscript {Element : Type} (elements : List Element) (index : Int) : Except Trap Element :=
  match if 0 ≤ index then elements[index.toNat]? else none with
  | some element => .ok element
  | none => .error .indexOutOfRange

omit [Foundation] in
theorem subscript_of_getElem? {Element : Type} {elements : List Element} {index : Nat}
    {element : Element} (helement : elements[index]? = some element) :
    subscript elements index = .ok element := by
  simp [subscript, helement]

omit [Foundation] in
theorem subscript_of_length_le {Element : Type} {elements : List Element} {index : Nat}
    (hlength : elements.length ≤ index) : subscript elements index = .error .indexOutOfRange := by
  simp [subscript, hlength]

namespace AnyValue

/-- `as? String`. -/
def asString : AnyValue → Option String
  | .string value => some value
  | _ => none

/-- `as? Int`: an `NSNumber` that a 64-bit integer represents exactly. -/
def asInt : AnyValue → Option Int64
  | .number value =>
      if value.den = 1 ∧ Int64.minValue.toInt ≤ value.num ∧ value.num ≤ Int64.maxValue.toInt then
        some (Int64.ofInt value.num)
      else none
  | _ => none

/-- `as? Data`. -/
def asData : AnyValue → Option Data
  | .data value => some value
  | _ => none

/-- `as? URL`. -/
def asURL : AnyValue → Option URL
  | .url value => some value
  | _ => none

/-- `as? Date`. -/
def asDate : AnyValue → Option Date
  | .date value => some value
  | _ => none

/-- `as? UIImage`. -/
def asImage : AnyValue → Option UIImage
  | .image value => some value
  | _ => none

/-- `as? WCSession`: there is one session. -/
def asSession : AnyValue → Option Unit
  | .session => some ()
  | _ => none

/-- `as? Source`. -/
def asSource : AnyValue → Option Source
  | .source value => some value
  | _ => none

/-- `as? Article`. -/
def asArticle : AnyValue → Option Article
  | .article value => some value
  | _ => none

/-- The object is of class `CategorizedSources`. -/
def isCategorizedSources : AnyValue → Bool
  | .categorizedSources _ | .uncheckedSources _ _ => true
  | _ => false

/-- `as? CategorizedSources`, of an object whose groups hold sources. -/
def asCategorizedSources : AnyValue → Option CategorizedSources
  | .categorizedSources value => some value
  | _ => none

/-- A cast to an array type succeeds when it does so on every element. -/
def asArray {Element : Type} (cast : AnyValue → Option Element) : AnyValue → Option (List Element)
  | .array elements => elements.mapM cast
  | _ => none

/-- `as! [Source]`, of an `NSArray`: its elements are checked when they are
accessed. -/
def asUncheckedArray : AnyValue → Option (List AnyValue)
  | .array elements => some elements
  | _ => none

/-- An object of class `CategorizedSources` with these groups. -/
def ofGroups (categories : List String) (details : List (List AnyValue)) : AnyValue :=
  match details.mapM fun group => group.mapM asSource with
  | some details => .categorizedSources { categories, details }
  | none => .uncheckedSources categories details

/-- `limit as Any` for an optional integer. -/
def ofInt? : Option Int64 → AnyValue
  | some value => .number value.toInt
  | none => .null

/-- `data as Any` for an optional byte string. -/
def ofData? : Option Data → AnyValue
  | some value => .data value
  | none => .null

/-- `articles as AnyObject`. -/
def ofArticles (articles : List Article) : AnyValue := .array (articles.map .article)

theorem asInt_ofInt? (limit : Int64) : asInt (ofInt? (some limit)) = some limit := by
  have hrange : (limit.toInt : ℚ).den = 1 ∧ Int64.minValue.toInt ≤ (limit.toInt : ℚ).num ∧
      (limit.toInt : ℚ).num ≤ Int64.maxValue.toInt :=
    ⟨Rat.den_intCast _, limit.minValue_le_toInt, limit.toInt_le⟩
  rw [ofInt?, asInt, if_pos hrange, Rat.num_intCast, Int64.ofInt_toInt]

theorem mapM_map_of_cast {Element : Type} (cast : AnyValue → Option Element)
    (box : Element → AnyValue) (hcast : ∀ element, cast (box element) = some element)
    (elements : List Element) : (elements.map box).mapM cast = some elements := by
  induction elements with
  | nil => rfl
  | cons element rest ih =>
      rw [List.map_cons, List.mapM_cons, hcast, ih]
      rfl

@[simp] theorem asArray_ofArticles (articles : List Article) :
    asArray asArticle (ofArticles articles) = some articles :=
  mapM_map_of_cast asArticle .article (fun _ => rfl) articles

theorem isCategorizedSources_ofGroups (categories : List String)
    (details : List (List AnyValue)) :
    (ofGroups categories details).isCategorizedSources = true := by
  unfold ofGroups
  split
  · rfl
  · rfl

/-- Groups that hold sources are groups of sources. -/
theorem ofGroups_sources (sources : CategorizedSources) :
    ofGroups sources.categories (sources.details.map (·.map .source)) =
      .categorizedSources sources := by
  have hgroups : (sources.details.map (·.map .source)).mapM (fun group => group.mapM asSource) =
      some sources.details := by
    induction sources.details with
    | nil => rfl
    | cons group rest ih =>
        rw [List.map_cons, List.mapM_cons, mapM_map_of_cast asSource .source (fun _ => rfl), ih]
        rfl
  rw [ofGroups, hgroups]

theorem ofArticles_inj {articles articles' : List Article}
    (hsame : ofArticles articles = ofArticles articles') : articles = articles' := by
  have hcast := congrArg (asArray asArticle) hsame
  rw [asArray_ofArticles, asArray_ofArticles] at hcast
  exact Option.some.inj hcast

theorem asCategorizedSources_eq_some {value : AnyValue} {sources : CategorizedSources} :
    value.asCategorizedSources = some sources ↔ value = .categorizedSources sources := by
  cases value <;> simp [asCategorizedSources]

theorem asImage_eq_some {value : AnyValue} {image : UIImage} :
    value.asImage = some image ↔ value = .image image := by
  cases value <;> simp [asImage]

theorem asArticle_eq_some {value : AnyValue} {article : Article} :
    value.asArticle = some article ↔ value = .article article := by
  cases value <;> simp [asArticle]

/-- A list that casts is the list of what its elements cast to. -/
theorem map_of_mapM_cast {Element : Type} {cast : AnyValue → Option Element}
    {box : Element → AnyValue}
    (hcast : ∀ value element, cast value = some element → value = box element)
    {values : List AnyValue} {elements : List Element}
    (hvalues : values.mapM cast = some elements) : values = elements.map box := by
  induction values generalizing elements with
  | nil =>
      obtain rfl := Option.some.inj hvalues
      rfl
  | cons value rest ih =>
      rw [List.mapM_cons] at hvalues
      obtain ⟨element, helement, hvalues⟩ := Option.bind_eq_some_iff.mp hvalues
      obtain ⟨others, hothers, hvalues⟩ := Option.bind_eq_some_iff.mp hvalues
      obtain rfl := Option.some.inj hvalues
      rw [List.map_cons, hcast value element helement, ih hothers]

/-- What casts to an array of articles is one. -/
theorem asArray_asArticle_eq_some {value : AnyValue} {articles : List Article} :
    value.asArray asArticle = some articles ↔ value = ofArticles articles := by
  constructor
  · intro hvalue
    cases value with
    | array elements =>
        exact congrArg array
          (map_of_mapM_cast (fun _ _ hcast => asArticle_eq_some.mp hcast) hvalue)
    | _ => exact absurd hvalue.symm (Option.some_ne_none articles)
  · rintro rfl
    exact asArray_ofArticles articles

end AnyValue

end NewsDay
