import Mathlib.Algebra.Group.Int.Defs
import Mathlib.Algebra.Group.Nat.Defs
import Mathlib.Data.Rat.Init
import NewsDay.Library.KeyedArchive

/-! # What the program takes from its platform

Byte strings, URLs, dates, images and errors are opaque values of the platform.
The operations on them that the program calls are parameters: the results of
this development hold for every platform, under the assumptions that a theorem
names. Strings are sequences of Unicode scalars; the language compares them by
canonical equivalence, so equality of strings goes through their normal form.
-/

namespace NewsDay

open KeyedArchive

/-- A value that `JSONSerialization` returns, or a part of one. -/
inductive Json
  | null
  | bool (value : Bool)
  | number (value : ℚ)
  | string (value : String)
  | array (elements : List Json)
  | object (entries : List (String × Json))

/-- Values that a keyed archive stores without asking them. An `int32` is stored
as it is, not as an object; `number` is an `NSNumber`, and `other` an object of a
type that the program never asks for and that holds no other objects. -/
inductive Leaf (URL Date : Type)
  | string (value : String)
  | url (value : URL)
  | date (value : Date)
  | int32 (value : Int)
  | number (value : ℚ)
  | other

def isAscii (text : String) : Bool := text.toList.all fun char => char.toNat < 128

/-- The platform. -/
class Foundation where
  Data : Type
  URL : Type
  Date : Type
  NSError : Type
  UIImage : Type
  /-- The canonical normal form of a string. -/
  canonical : String → String
  /-- ASCII text is its own normal form. -/
  canonical_ascii : ∀ text, isAscii text = true → canonical text = text
  /-- `URL(string:)`. -/
  urlFromString : String → Option URL
  /-- `URL.absoluteString`. -/
  absoluteString : URL → String
  /-- Whether a URL has a scheme of its own. -/
  isAbsolute : URL → Bool
  /-- `DateFormatter.date(from:)` with the format `yyyy-MM-dd'T'HH:mm:ssZZZZZ`. -/
  dateFromString : String → Option Date
  /-- `JSONSerialization.jsonObject(with:options:)`. -/
  jsonObject : Data → Except NSError Json
  /-- Finishing a keyed archive. -/
  archivedData : Archive (Leaf URL Date) → Except NSError Data
  /-- Opening a keyed archive. -/
  archiveContents : Data → Except NSError (Archive (Leaf URL Date))
  /-- What an unarchiver throws at a value that it cannot restore. -/
  unreadable : NSError
  /-- `UIImage(data:)`. -/
  imageFromData : Data → Option UIImage
  /-- `UIImage.size`. -/
  imageSize : UIImage → ℚ × ℚ
  /-- An image drawn into a new graphics context of the given size. -/
  imageDrawn : UIImage → ℚ × ℚ → Option UIImage
  /-- `UIImage.jpegData(compressionQuality: 0.0)`. -/
  jpegData : UIImage → Option Data

namespace Foundation

variable [Foundation]

/-- `String.==`. -/
def sameString (first second : String) : Bool := canonical first == canonical second

theorem sameString_iff {first second : String} :
    sameString first second = true ↔ canonical first = canonical second := by
  simp [sameString]

/-- The archiver stores every value and gives it back as it was. -/
def ArchivesFaithfully : Prop :=
  ∀ archive, ∃ data, archivedData archive = .ok data ∧ archiveContents data = .ok archive

/-- Reading the text of an absolute URL gives that URL. -/
def ReadsAbsoluteURLs : Prop :=
  ∀ url, isAbsolute url = true → urlFromString (absoluteString url) = some url

end Foundation

/-! ## A small platform -/

/-- The byte strings of the small platform: a text, the text of a JSON value, or a
keyed archive. -/
inductive SampleData
  | text (value : String)
  | json (content : Json)
  | archive (content : Archive (Leaf String Int))

/-- A platform on which the model can be run. Its texts are ASCII, so they are
their own normal form; its URLs are their texts, without blanks; of JSON values it
accepts objects and arrays, and of other texts the two shortest that stand for
such; its archives keep their content. -/
@[reducible] def Foundation.sample : Foundation where
  Data := SampleData
  URL := String
  Date := Int
  NSError := String
  UIImage := ℚ × ℚ
  canonical text := text
  canonical_ascii _ _ := rfl
  urlFromString text := if text.isEmpty || text.toList.contains ' ' then none else some text
  absoluteString url := url
  isAbsolute url := "https://".toList.isPrefixOf url.toList && !url.toList.contains ' '
  dateFromString _ := none
  jsonObject
    | .text "\x7b\x7d" => .ok (.object [])
    | .text "[]" => .ok (.array [])
    | .json (.object entries) => .ok (.object entries)
    | .json (.array elements) => .ok (.array elements)
    | _ => .error "neither an object nor an array"
  archivedData archive := .ok (.archive archive)
  archiveContents
    | .archive content => .ok content
    | _ => .error "not an archive"
  unreadable := "not readable"
  imageFromData _ := none
  imageSize size := size
  imageDrawn _ size := some size
  jpegData _ := some (.text "image")

theorem Foundation.sample_archivesFaithfully : @Foundation.ArchivesFaithfully .sample :=
  fun archive => ⟨.archive archive, rfl, rfl⟩

theorem Foundation.sample_readsAbsoluteURLs : @Foundation.ReadsAbsoluteURLs .sample := by
  intro (url : String) habsolute
  obtain ⟨hscheme, hblank⟩ := Bool.and_eq_true_iff.mp habsolute
  have hne : url ≠ "" := by
    rintro rfl
    exact absurd hscheme (by decide)
  simpa [urlFromString, absoluteString, hne] using hblank

end NewsDay
