import NewsDay.Library.Regex
import NewsDay.Library.TextUnits

/-! # Checks before authentication

The form values that the controllers hand to the authentication service are
checked first, and an email address is checked by searching it for a regular
expression. The expression is read without regard to case and names classes of
Unicode, which are the platform's.
-/

namespace NewsDay

open TextUnits

/-- Properties of scalars that the platform looks up in the tables of Unicode. -/
class UnicodeTables where
  /-- The general category of the scalar is one of the letters, `\p{L}`. -/
  isLetter : Char → Bool
  /-- The other scalars that have the same case folding. -/
  caseVariants : Char → List Char
  graphemeBreak : Char → GraphemeBreak

open UnicodeTables

namespace UnicodeTables

/-- Tables for ASCII, a mathematical letter outside the basic plane and a
combining accent. -/
@[reducible] def sample : UnicodeTables where
  isLetter scalar := scalar.isAlpha || scalar.toNat = 0x1d41a
  caseVariants scalar :=
    if scalar.isUpper then [scalar.toLower] else if scalar.isLower then [scalar.toUpper] else []
  graphemeBreak scalar :=
    if scalar = '\r' then .cr else if scalar = '\n' then .lf
    else if scalar.toNat < 0x20 then .control
    else if scalar.toNat = 0x301 then .extend
    else .other

end UnicodeTables

variable [UnicodeTables]

/-- `String.count`. -/
def characterCount (text : String) : Nat := (clusters graphemeBreak text.toList).length

/-! ## The pattern -/

/-- A regular expression with the option `.caseInsensitive`. -/
abbrev Pattern := Regex Char

namespace Pattern

open Regex

/-- `[…]`: a set is closed under case. -/
def set (members : Char → Bool) : Pattern :=
  symbol fun scalar => members scalar || (caseVariants scalar).any members

/-- A character that stands for itself. -/
def char (scalar : Char) : Pattern := set (· == scalar)

/-- Membership in ranges of code points. -/
def inRanges (ranges : List (Nat × Nat)) (scalar : Char) : Bool :=
  ranges.any fun range => range.1 ≤ scalar.toNat && scalar.toNat ≤ range.2

def isDigit (scalar : Char) : Bool := '0' ≤ scalar && scalar ≤ '9'

/-- `[\p{L}0-9]`. -/
def alphanumeric : Pattern := set fun scalar => isLetter scalar || isDigit scalar

/-- `[\p{L}0-9-]`. -/
def alphanumericOrHyphen : Pattern := set fun scalar =>
  isLetter scalar || isDigit scalar || scalar == '-'

/-- The character set of the parts of a local part without quotes. -/
def atomCharacter : Pattern := set fun scalar =>
  isLetter scalar || isDigit scalar || "!#$%&'*+/=?^_\x60\x7b|\x7d~-".toList.contains scalar

/-- `\\[\x01-\x09\x0b\x0c\x0e-\x7f]`. -/
def escaped : Pattern :=
  concat (char '\\') (set (inRanges [(0x01, 0x09), (0x0b, 0x0b), (0x0c, 0x0c), (0x0e, 0x7f)]))

/-- `[\x01-\x08\x0b\x0c\x0e-\x1f\x21\x23-\x5b\x5d-\x7f]`. -/
def quotedCharacter : Pattern := set (inRanges
  [(0x01, 0x08), (0x0b, 0x0b), (0x0c, 0x0c), (0x0e, 0x1f), (0x21, 0x21), (0x23, 0x5b), (0x5d, 0x7f)])

/-- `[\x01-\x08\x0b\x0c\x0e-\x1f\x21-\x5a\x53-\x7f]`. -/
def literalCharacter : Pattern := set (inRanges
  [(0x01, 0x08), (0x0b, 0x0b), (0x0c, 0x0c), (0x0e, 0x1f), (0x21, 0x5a), (0x53, 0x7f)])

def atom : Pattern := plus atomCharacter

/-- The local part without quotes: atoms with dots between them. -/
def dotAtom : Pattern := concat atom (star (concat (char '.') atom))

/-- The local part in quotes. -/
def quotedString : Pattern :=
  concat (char '"') (concat (star (either quotedCharacter escaped)) (char '"'))

/-- `[\p{L}0-9](?:[a-z0-9-]*[\p{L}0-9])?`. -/
def label : Pattern := concat alphanumeric (optional (concat
  (star (set fun scalar => ('a' ≤ scalar && scalar ≤ 'z') || isDigit scalar || scalar == '-'))
  alphanumeric))

/-- `[\p{L}0-9](?:[\p{L}0-9-]*[\p{L}0-9])?`. -/
def lastLabel : Pattern :=
  concat alphanumeric (optional (concat (star alphanumericOrHyphen) alphanumeric))

def labelDot : Pattern := concat label (char '.')

def domainName : Pattern := concat (plus labelDot) lastLabel

def digit : Pattern := set isDigit

/-- `25[0-5]|2[0-4][0-9]|[01]?[0-9][0-9]?`. -/
def octet : Pattern :=
  either (concat (char '2') (concat (char '5') (set fun scalar => '0' ≤ scalar && scalar ≤ '5')))
    (either
      (concat (char '2') (concat (set fun scalar => '0' ≤ scalar && scalar ≤ '4') digit))
      (concat (optional (set fun scalar => scalar == '0' || scalar == '1'))
        (concat digit (optional digit))))

/-- `[\p{L}0-9-]*[\p{L}0-9]:(?:…)+`. -/
def generalLiteral : Pattern :=
  concat (star alphanumericOrHyphen) (concat alphanumeric (concat (char ':')
    (plus (either literalCharacter escaped))))

/-- `\[(?:(?:…)\.){3}(?:…)\]`. -/
def addressLiteral : Pattern :=
  concat (char '[') (concat (times (concat octet (char '.')) 3)
    (concat (either octet generalLiteral) (char ']')))

end Pattern

namespace AuthUtils

open Pattern Regex

/-- `rfc5322`. -/
def rfc5322 : Pattern :=
  concat (either dotAtom quotedString) (concat (char '@') (either domainName addressLiteral))

/-- The scalars in `NSRange(location: 0, length: email.count)`. The length is in
UTF-16 units; of a pair that the range cuts it holds a surrogate, which is in no
class of the pattern. -/
def searched (email : String) : List Char := firstUnits (characterCount email) email.toList

/-- `isValid(email:)`. The pattern is well formed, so there is always an
expression to search for. -/
def isValid (email : String) : Bool := (rfc5322.firstMatch (searched email)).isSome

/-! ## Callers -/

structure FormValues where
  email : String
  password : String

/-- What `UIUtils` is asked to present. -/
structure Dialog where
  title : String
  message : String
deriving DecidableEq

/-- The first complaint about the form values. -/
def errorMessage (values : FormValues) : Option String :=
  if values.email.isEmpty then some "The email field cannot be blank"
  else if values.password.isEmpty then some "The password field cannot be blank"
  else if !isValid values.email then some "The email address is not valid"
  else if characterCount values.password < 8 then
    some "The password must be at least 8 characters"
  else none

/-- `validate(_:)`: the dialog that it presents before it returns false. -/
def validate (values : FormValues) : Option Dialog :=
  (errorMessage values).map fun validErrorMessage =>
    { title := "Error", message := validErrorMessage }

/-- What a controller does with an address. -/
inductive Outcome
  | nothing
  | modalDialog (dialog : Dialog)
  | modalConfirm (dialog : Dialog)
deriving DecidableEq

end AuthUtils

namespace SignInViewController

open AuthUtils

/-- `forgotPassword(_:)`; the field may have no text. -/
def forgotPassword (text : Option String) : Outcome :=
  match text with
  | none => .nothing
  | some email =>
      if email.isEmpty || !isValid email then
        .modalDialog {
          title := "Invalid email"
          message := "Enter an email account to" ++ "recover in the email field" }
      else
        .modalConfirm {
          title := "Password Recovery"
          message := "Send password recovery email to " ++ email ++ "?" }

end SignInViewController

end NewsDay
