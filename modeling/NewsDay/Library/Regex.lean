import Mathlib.Computability.Language
import Mathlib.Order.CompletePartialOrder

/-! # Regular expressions over classes of symbols

Expressions whose atoms are classes of symbols, such as the letters, given by a
test. An expression denotes a language; its derivative by a symbol denotes what
may follow that symbol, and derivatives decide membership. A search looks for a
word of the language anywhere in a text.
-/

open Computability

universe u

inductive Regex (Symbol : Type u)
  | never
  | empty
  | symbol (accepts : Symbol → Bool)
  | concat (first second : Regex Symbol)
  | either (first second : Regex Symbol)
  | star (inner : Regex Symbol)

namespace Regex

variable {Symbol : Type u}

/-- `r+`. -/
def plus (inner : Regex Symbol) : Regex Symbol := concat inner (star inner)

/-- `r?`. -/
def optional (inner : Regex Symbol) : Regex Symbol := either inner empty

/-- `r{n}`. -/
def times (inner : Regex Symbol) : Nat → Regex Symbol
  | 0 => empty
  | count + 1 => concat inner (times inner count)

/-- The words that the whole expression matches. -/
def language : Regex Symbol → Language Symbol
  | never => 0
  | empty => 1
  | symbol accepts => fun word => ∃ head, accepts head = true ∧ word = [head]
  | concat first second => first.language * second.language
  | either first second => first.language + second.language
  | star inner => inner.language∗

@[simp] theorem mem_language_never {word : List Symbol} :
    word ∈ (never : Regex Symbol).language ↔ False :=
  iff_of_false (Language.notMem_zero word) not_false

@[simp] theorem mem_language_empty {word : List Symbol} :
    word ∈ (empty : Regex Symbol).language ↔ word = [] := Language.mem_one word

@[simp] theorem mem_language_symbol {accepts : Symbol → Bool} {word : List Symbol} :
    word ∈ (symbol accepts).language ↔ ∃ head, accepts head = true ∧ word = [head] := Iff.rfl

@[simp] theorem language_concat (first second : Regex Symbol) :
    (concat first second).language = first.language * second.language := rfl

@[simp] theorem language_either (first second : Regex Symbol) :
    (either first second).language = first.language + second.language := rfl

@[simp] theorem language_star (inner : Regex Symbol) :
    (star inner).language = inner.language∗ := rfl

/-! ## Matching -/

/-- The empty word is matched. -/
def nullable : Regex Symbol → Bool
  | never => false
  | empty => true
  | symbol _ => false
  | concat first second => first.nullable && second.nullable
  | either first second => first.nullable || second.nullable
  | star _ => true

theorem nullable_iff (regex : Regex Symbol) :
    regex.nullable = true ↔ [] ∈ regex.language := by
  induction regex with
  | never => simp [nullable]
  | empty => simp [nullable]
  | symbol accepts => simp [nullable]
  | concat first second ihfirst ihsecond =>
      rw [nullable, Bool.and_eq_true, ihfirst, ihsecond, language_concat, Language.mem_mul]
      constructor
      · rintro ⟨hfirst, hsecond⟩
        exact ⟨[], hfirst, [], hsecond, rfl⟩
      · rintro ⟨front, hfront, back, hback, happend⟩
        obtain ⟨rfl, rfl⟩ := List.append_eq_nil_iff.mp happend
        exact ⟨hfront, hback⟩
  | either first second ihfirst ihsecond =>
      rw [nullable, Bool.or_eq_true, ihfirst, ihsecond, language_either, Language.mem_add]
  | star inner _ => exact iff_of_true rfl (Language.nil_mem_kstar _)

/-- `concat`, except that nothing follows what never matches. -/
def sequence : Regex Symbol → Regex Symbol → Regex Symbol
  | never, _ => never
  | first, second => concat first second

/-- `either`, without the sides that never match. -/
def choice : Regex Symbol → Regex Symbol → Regex Symbol
  | never, second => second
  | first, never => first
  | first, second => either first second

theorem language_sequence (first second : Regex Symbol) :
    (sequence first second).language = first.language * second.language := by
  cases first with
  | never => exact (zero_mul _).symm
  | _ => rfl

theorem language_choice (first second : Regex Symbol) :
    (choice first second).language = first.language + second.language := by
  cases first with
  | never => exact (zero_add _).symm
  | _ =>
      cases second with
      | never => exact (add_zero _).symm
      | _ => rfl

/-- What may follow a symbol. -/
def derivative (head : Symbol) : Regex Symbol → Regex Symbol
  | never => never
  | empty => never
  | symbol accepts => if accepts head then empty else never
  | concat first second =>
      choice (sequence (first.derivative head) second)
        (if first.nullable then second.derivative head else never)
  | either first second => choice (first.derivative head) (second.derivative head)
  | star inner => sequence (inner.derivative head) (star inner)

/-- The first symbol of a repetition belongs to a part that is not empty. -/
theorem cons_mem_kstar {parts : Language Symbol} {head : Symbol} {word : List Symbol} :
    head :: word ∈ parts∗ ↔ ∃ rest ∈ parts∗, ∃ part, head :: part ∈ parts ∧ part ++ rest = word := by
  constructor
  · intro hword
    obtain ⟨pieces, hpieces, hall⟩ := Language.mem_kstar_iff_exists_nonempty.mp hword
    match pieces with
    | [] => exact absurd hpieces (by simp)
    | [] :: _ => exact absurd rfl (hall [] List.mem_cons_self).2
    | (first :: part) :: others =>
        obtain ⟨rfl, rfl⟩ := List.cons.inj hpieces
        refine ⟨others.flatten, ?_, part, (hall _ List.mem_cons_self).1, rfl⟩
        exact Language.join_mem_kstar fun piece hpiece =>
          (hall piece (List.mem_cons_of_mem _ hpiece)).1
  · rintro ⟨rest, hrest, part, hpart, rfl⟩
    have happend : head :: part ++ rest ∈ parts * parts∗ := Language.append_mem_mul hpart hrest
    rw [← Language.one_add_self_mul_kstar_eq_kstar]
    exact .inr happend

theorem mem_derivative_iff (regex : Regex Symbol) (head : Symbol) (word : List Symbol) :
    word ∈ (regex.derivative head).language ↔ head :: word ∈ regex.language := by
  induction regex generalizing word with
  | never => simp [derivative]
  | empty => simp [derivative]
  | symbol accepts =>
      rw [derivative]
      split
      next haccepts => simp [haccepts]
      next hrejects =>
        refine iff_of_false (by simp) ?_
        rintro ⟨other, haccepts, hword⟩
        obtain ⟨rfl, -⟩ := List.cons.inj hword
        exact hrejects haccepts
  | concat first second ihfirst ihsecond =>
      rw [derivative, language_choice, Language.mem_add, language_sequence, Language.mem_mul,
        language_concat, Language.mem_mul]
      constructor
      · rintro (⟨front, hfront, back, hback, rfl⟩ | hlate)
        · exact ⟨head :: front, (ihfirst front).mp hfront, back, hback, rfl⟩
        · split at hlate
          next hnullable =>
            exact ⟨[], first.nullable_iff.mp hnullable, head :: word, (ihsecond word).mp hlate, rfl⟩
          next => exact absurd hlate (Language.notMem_zero word)
      · rintro ⟨front, hfront, back, hback, happend⟩
        cases front with
        | nil =>
            obtain rfl : back = head :: word := happend
            rw [if_pos (first.nullable_iff.mpr hfront)]
            exact .inr ((ihsecond word).mpr hback)
        | cons symbol front =>
            obtain ⟨rfl, rfl⟩ := List.cons.inj happend
            exact .inl ⟨front, (ihfirst front).mpr hfront, back, hback, rfl⟩
  | either first second ihfirst ihsecond =>
      rw [derivative, language_choice, Language.mem_add, ihfirst, ihsecond, language_either,
        Language.mem_add]
  | star inner ih =>
      rw [derivative, language_sequence, Language.mem_mul, language_star, cons_mem_kstar]
      constructor
      · rintro ⟨part, hpart, rest, hrest, rfl⟩
        exact ⟨rest, hrest, part, (ih part).mp hpart, rfl⟩
      · rintro ⟨rest, hrest, part, hpart, rfl⟩
        exact ⟨part, (ih part).mpr hpart, rest, hrest, rfl⟩

/-- The whole text is matched. -/
def isMatch (regex : Regex Symbol) : List Symbol → Bool
  | [] => regex.nullable
  | head :: rest => (regex.derivative head).isMatch rest

theorem isMatch_iff (regex : Regex Symbol) (text : List Symbol) :
    regex.isMatch text = true ↔ text ∈ regex.language := by
  induction text generalizing regex with
  | nil => exact regex.nullable_iff
  | cons head rest ih => rw [isMatch, ih, mem_derivative_iff]

/-- Whether a given text is in the language can be decided. -/
instance (regex : Regex Symbol) : DecidablePred (· ∈ regex.language) := fun text =>
  decidable_of_iff _ (regex.isMatch_iff text)

/-! ## Searching -/

/-- Some text from the beginning on is matched. -/
def matchesFront (regex : Regex Symbol) : List Symbol → Bool
  | [] => regex.nullable
  | head :: rest => regex.nullable || (regex.derivative head).matchesFront rest

theorem matchesFront_iff (regex : Regex Symbol) (text : List Symbol) :
    regex.matchesFront text = true ↔ ∃ word ∈ regex.language, word <+: text := by
  induction text generalizing regex with
  | nil =>
      rw [matchesFront, nullable_iff]
      simp
  | cons head rest ih =>
      rw [matchesFront, Bool.or_eq_true, nullable_iff, ih]
      constructor
      · rintro (hempty | ⟨word, hword, hfront⟩)
        · exact ⟨[], hempty, List.nil_prefix⟩
        · exact ⟨head :: word, (mem_derivative_iff regex head word).mp hword,
            List.cons_prefix_cons.mpr ⟨rfl, hfront⟩⟩
      · rintro ⟨word, hword, hfront⟩
        cases word with
        | nil => exact .inl hword
        | cons symbol word =>
            obtain ⟨rfl, hrest⟩ := List.cons_prefix_cons.mp hfront
            exact .inr ⟨word, (mem_derivative_iff regex symbol word).mpr hword, hrest⟩

/-- Where the first match in a text begins. -/
def firstMatch (regex : Regex Symbol) : List Symbol → Option Nat
  | [] => if regex.nullable then some 0 else none
  | head :: rest =>
      if regex.matchesFront (head :: rest) then some 0 else (regex.firstMatch rest).map (· + 1)

/-- A word of the language occurs in the text. -/
def Occurs (words : Language Symbol) (text : List Symbol) : Prop :=
  ∃ word ∈ words, word <:+: text

/-- A search finds a match exactly if a word occurs in the text. -/
theorem firstMatch_isSome_iff (regex : Regex Symbol) (text : List Symbol) :
    (regex.firstMatch text).isSome = true ↔ Occurs regex.language text := by
  induction text with
  | nil =>
      have hnil : Occurs regex.language [] ↔ [] ∈ regex.language := by simp [Occurs]
      rw [hnil, ← nullable_iff, firstMatch]
      cases regex.nullable <;> simp
  | cons head rest ih =>
      have hcons : Occurs regex.language (head :: rest) ↔
          (∃ word ∈ regex.language, word <+: head :: rest) ∨ Occurs regex.language rest := by
        simp only [Occurs, List.infix_cons_iff, and_or_left, exists_or]
      rw [hcons, ← matchesFront_iff, ← ih, firstMatch]
      cases regex.matchesFront (head :: rest) <;> simp

/-! ## Occurrence of smaller words -/

variable {words parts : Language Symbol} {text : List Symbol}

theorem mem_surrounded {word : List Symbol} :
    word ∈ ⊤ * parts * ⊤ ↔ ∃ part ∈ parts, part <:+: word := by
  simp only [Language.mem_mul]
  constructor
  · rintro ⟨front, ⟨before, -, part, hpart, rfl⟩, after, -, rfl⟩
    exact ⟨part, hpart, before, after, rfl⟩
  · rintro ⟨part, hpart, before, after, rfl⟩
    exact ⟨before ++ part, ⟨before, trivial, part, hpart, rfl⟩, after, trivial, rfl⟩

/-- Words and parts occur in the same texts when the parts are words and every
word surrounds a part. -/
theorem occurs_iff_of_core (hparts : parts ≤ words) (hwords : words ≤ ⊤ * parts * ⊤) :
    Occurs words text ↔ Occurs parts text := by
  constructor
  · rintro ⟨word, hword, hinfix⟩
    obtain ⟨part, hpart, hinside⟩ := mem_surrounded.mp (hwords hword)
    exact ⟨part, hpart, hinside.trans hinfix⟩
  · rintro ⟨part, hpart, hinfix⟩
    exact ⟨part, hparts hpart, hinfix⟩

end Regex
