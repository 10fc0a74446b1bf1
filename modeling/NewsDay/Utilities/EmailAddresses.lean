import NewsDay.Utilities.AuthUtils

/-! # Which texts pass for an email address

The expression is searched for, not matched against the whole text, so what
decides is the smallest thing that it can find: one character of an atom or a
quoted string, the sign, and after it a label with a dot and one character more,
or an address literal. And it is searched for among as many UTF-16 units as the
text has characters, which may be fewer than all.
-/

namespace NewsDay

open Computability TextUnits UnicodeTables

variable [UnicodeTables]

namespace AuthUtils

open Pattern Regex

/-- The least that the expression can match. -/
def core : Pattern :=
  concat (either atomCharacter quotedString)
    (concat (char '@') (either (concat labelDot alphanumeric) addressLiteral))

section Languages

omit [UnicodeTables]

variable {Symbol : Type} (first second rest : Language Symbol)

theorem le_mul_top : first ≤ first * ⊤ := by
  calc first = first * 1 := (mul_one first).symm
    _ ≤ first * ⊤ := mul_le_mul' le_rfl le_top

theorem le_top_mul : first ≤ ⊤ * first := by
  calc first = 1 * first := (one_mul first).symm
    _ ≤ ⊤ * first := mul_le_mul' le_top le_rfl

/-- What ends with repetitions ends with one of them. -/
theorem mul_plus_le : rest * (first * first∗) ≤ ⊤ * first := by
  calc rest * (first * first∗) = rest * first∗ * first := by
        rw [← Language.mul_self_kstar_comm, mul_assoc]
    _ ≤ ⊤ * first := mul_le_mul' le_top le_rfl

theorem plus_separated_le :
    first * first∗ * (second * (first * first∗))∗ ≤ ⊤ * first := by
  apply mul_kstar_le
  · simpa using mul_plus_le first 1
  · calc ⊤ * first * (second * (first * first∗)) = ⊤ * first * second * (first * first∗) := by
          simp only [mul_assoc]
      _ ≤ ⊤ * first := mul_plus_le first (⊤ * first * second)

/-- Repetitions of what begins in a way, before something that begins so too,
begin in this way. -/
theorem kstar_begins_le {part last : Language Symbol} (hpart : part ≤ first * ⊤)
    (hlast : last ≤ first * ⊤) : part∗ * last ≤ first * ⊤ := by
  apply kstar_mul_le hlast
  calc part * (first * ⊤) ≤ first * ⊤ * (first * ⊤) := mul_le_mul' hpart le_rfl
    _ = first * (⊤ * (first * ⊤)) := mul_assoc _ _ _
    _ ≤ first * ⊤ := mul_le_mul' le_rfl le_top

end Languages

theorem atomCharacter_le : atomCharacter.language ≤ dotAtom.language := by
  calc atomCharacter.language = atomCharacter.language * 1 * 1 := by simp only [mul_one]
    _ ≤ atomCharacter.language * atomCharacter.language∗ *
        ((char '.').language * atom.language)∗ :=
      mul_le_mul' (mul_le_mul' le_rfl one_le_kstar) one_le_kstar

theorem labelDot_alphanumeric_le :
    (concat labelDot alphanumeric).language ≤ domainName.language := by
  calc (concat labelDot alphanumeric).language
      = labelDot.language * 1 * (alphanumeric.language * 1) := by
        simp only [language_concat, mul_one]
    _ ≤ labelDot.language * labelDot.language∗ * lastLabel.language := by
      refine mul_le_mul' (mul_le_mul' le_rfl one_le_kstar) (mul_le_mul' le_rfl ?_)
      exact le_add_self

theorem core_le : core.language ≤ rfc5322.language := by
  apply mul_le_mul'
  · exact add_le_add atomCharacter_le le_rfl
  · exact mul_le_mul' le_rfl (add_le_add labelDot_alphanumeric_le le_rfl)

theorem localPart_le :
    (either dotAtom quotedString).language ≤ ⊤ * (either atomCharacter quotedString).language := by
  rw [language_either, language_either, mul_add]
  apply add_le_add
  · exact plus_separated_le atomCharacter.language (char '.').language
  · exact le_top_mul quotedString.language

theorem lastLabel_le : lastLabel.language ≤ alphanumeric.language * ⊤ :=
  mul_le_mul' le_rfl le_top

theorem labelDot_le : labelDot.language ≤ alphanumeric.language * ⊤ := by
  calc labelDot.language = alphanumeric.language * _ := mul_assoc _ _ _
    _ ≤ alphanumeric.language * ⊤ := mul_le_mul' le_rfl le_top

theorem domainName_le :
    domainName.language ≤ (concat labelDot alphanumeric).language * ⊤ := by
  calc domainName.language
      = labelDot.language * (labelDot.language∗ * lastLabel.language) := mul_assoc _ _ _
    _ ≤ labelDot.language * (alphanumeric.language * ⊤) :=
      mul_le_mul' le_rfl (kstar_begins_le _ labelDot_le lastLabel_le)
    _ = (concat labelDot alphanumeric).language * ⊤ := (mul_assoc _ _ _).symm

theorem domain_le :
    (either domainName addressLiteral).language ≤
      (either (concat labelDot alphanumeric) addressLiteral).language * ⊤ := by
  rw [language_either, language_either, add_mul]
  exact add_le_add domainName_le (le_mul_top addressLiteral.language)

/-- Every address surrounds a core. -/
theorem rfc5322_le : rfc5322.language ≤ ⊤ * core.language * ⊤ := by
  calc rfc5322.language
      ≤ ⊤ * (either atomCharacter quotedString).language *
        ((char '@').language *
          ((either (concat labelDot alphanumeric) addressLiteral).language * ⊤)) :=
      mul_le_mul' localPart_le (mul_le_mul' le_rfl domain_le)
    _ = ⊤ * core.language * ⊤ := by simp only [core, language_concat, mul_assoc]

/-! ## What the search finds -/

/-- A core lies in the email, and it ends no later than after as many UTF-16
units as the email has characters. -/
def CoreWithin (email : String) : Prop :=
  ∃ before part after, email.toList = before ++ part ++ after ∧ part ∈ core.language ∧
    utf16Length (before ++ part) ≤ characterCount email

variable {email : String}

theorem infix_searched_iff {part : List Char} :
    part <:+: searched email ↔ ∃ before after, email.toList = before ++ part ++ after ∧
      utf16Length (before ++ part) ≤ characterCount email := by
  constructor
  · rintro ⟨before, rest, hsearched⟩
    have hfront : before ++ part <+: searched email := ⟨rest, hsearched⟩
    obtain ⟨⟨after, hemail⟩, hlength⟩ := prefix_firstUnits_iff.mp hfront
    exact ⟨before, after, hemail.symm, hlength⟩
  · rintro ⟨before, after, hemail, hlength⟩
    have hfront : before ++ part <+: searched email :=
      prefix_firstUnits_iff.mpr ⟨⟨after, hemail.symm⟩, hlength⟩
    exact (List.suffix_append before part).isInfix.trans hfront.isInfix

/-- The email is valid exactly if a core lies within what is searched. -/
theorem isValid_eq_true_iff : isValid email = true ↔ CoreWithin email := by
  rw [isValid, firstMatch_isSome_iff, occurs_iff_of_core core_le rfc5322_le]
  constructor
  · rintro ⟨part, hpart, hinfix⟩
    obtain ⟨before, after, hemail, hlength⟩ := infix_searched_iff.mp hinfix
    exact ⟨before, part, after, hemail, hpart, hlength⟩
  · rintro ⟨before, part, after, hemail, hpart, hlength⟩
    exact ⟨part, hpart, infix_searched_iff.mpr ⟨before, after, hemail, hlength⟩⟩

/-- The whole email is searched exactly if each of its characters is one unit. -/
theorem searched_eq_iff : searched email = email.toList ↔
    ∀ cluster ∈ clusters graphemeBreak email.toList, utf16Length cluster = 1 := by
  rw [searched, firstUnits_eq_self_iff]
  exact utf16Length_le_clusters_iff graphemeBreak email.toList

/-- An address that is searched as a whole is valid. -/
theorem isValid_of_searched (hwhole : email.toList ∈ rfc5322.language)
    (hsearched : searched email = email.toList) : isValid email = true := by
  rw [isValid, firstMatch_isSome_iff, hsearched]
  exact ⟨email.toList, hwhole, List.infix_refl _⟩

/-! ## Whole addresses -/

/-- Validity means that the whole email is an address exactly for the emails
that are addresses and those that have no core within what is searched. -/
theorem valid_is_address_iff (email : String) :
    (isValid email = true → email.toList ∈ rfc5322.language) ↔
      email.toList ∈ rfc5322.language ∨ ¬ CoreWithin email := by
  rw [isValid_eq_true_iff]
  exact imp_iff_or_not

omit [UnicodeTables] in
/-- A word and a blank before the address. -/
theorem text_before_address_passes :
    letI : UnicodeTables := .sample
    ¬ ∀ email : String, isValid email = true → email.toList ∈ rfc5322.language := by
  let _ : UnicodeTables := .sample
  intro hall
  have hvalid : isValid "x a@b.c" = true := by decide +kernel
  have hother : "x a@b.c".toList ∉ rfc5322.language := by decide +kernel
  exact hother (hall "x a@b.c" hvalid)

/-- An address is valid exactly if one of its cores ends within the range, which
covers the address exactly if each of its characters is one UTF-16 unit; in this
case the address is valid. -/
theorem address_is_valid_iff (email : String) (haddress : email.toList ∈ rfc5322.language) :
    (isValid email = true ↔ CoreWithin email) ∧
      (searched email = email.toList ↔
        ∀ cluster ∈ clusters graphemeBreak email.toList, utf16Length cluster = 1) ∧
      (searched email = email.toList → isValid email = true) :=
  ⟨isValid_eq_true_iff, searched_eq_iff, isValid_of_searched haddress⟩

section Samples

omit [UnicodeTables]

theorem address_is_valid_iff_ascii :
    letI : UnicodeTables := .sample
    "a@b.c".toList ∈ rfc5322.language ∧ searched "a@b.c" = "a@b.c".toList ∧
      isValid "a@b.c" = true := by
  let _ : UnicodeTables := .sample
  have haddress : "a@b.c".toList ∈ rfc5322.language := by decide +kernel
  have hsearched : searched "a@b.c" = "a@b.c".toList := by decide +kernel
  exact ⟨haddress, hsearched, (address_is_valid_iff "a@b.c" haddress).2.2 hsearched⟩

/-- A letter outside the basic plane is two units of the range. -/
theorem wide_letter_cuts_address :
    letI : UnicodeTables := .sample
    ¬ ∀ email : String, email.toList ∈ rfc5322.language → isValid email = true := by
  let _ : UnicodeTables := .sample
  intro hall
  have haddress : "𝐚@b.c".toList ∈ rfc5322.language := by decide +kernel
  have hinvalid : isValid "𝐚@b.c" = false := by decide +kernel
  exact Bool.false_ne_true (hinvalid.symm.trans (hall "𝐚@b.c" haddress))

end Samples

end AuthUtils

end NewsDay
