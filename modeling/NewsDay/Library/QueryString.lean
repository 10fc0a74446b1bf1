import Mathlib.Algebra.GroupWithZero.Nat
import Mathlib.Algebra.Order.BigOperators.Group.List
import Mathlib.Algebra.Order.Group.Nat
import Mathlib.Data.List.Forall2
import Mathlib.Data.List.TakeWhile
import NewsDay.Library.PercentEncoding

/-! # Query strings

The query of a URL lists parameters with ampersands between them. Each is cut
at its first equals sign into a name and a value, which are percent-encoded.
-/

namespace QueryString

open PercentEncoding

/-- What follows the first question mark, up to the fragment. -/
def query (url : List Char) : List Char :=
  ((url.takeWhile (· ≠ '#')).dropWhile (· ≠ '?')).drop 1

/-- A part of a query, cut at its first equals sign. -/
def cut (part : List Char) : List Char × List Char :=
  (part.takeWhile (· ≠ '='), (part.dropWhile (· ≠ '=')).drop 1)

def decodePart (part : List Char) : Option (String × String) := do
  let name ← decode (.ofList (cut part).1)
  let value ← decode (.ofList (cut part).2)
  return (name, value)

/-- The parameters that the query of a URL lists. -/
def parameters (url : String) : Option (List (String × String)) :=
  ((query url.toList).splitOn '&').mapM decodePart

/-- A name and a value with an equals sign between them. -/
def part (parameter : String × String) : List Char :=
  parameter.1.toList ++ '=' :: parameter.2.toList

/-- Names and values, written as a query. -/
def write : List (String × String) → String
  | [] => ""
  | [parameter] => parameter.1 ++ "=" ++ parameter.2
  | parameter :: next :: rest =>
      parameter.1 ++ "=" ++ parameter.2 ++ "&" ++ write (next :: rest)

theorem write_toList (written : List (String × String)) :
    (write written).toList = ['&'].intercalate (written.map part) := by
  have hequals : "=".toList = ['='] := by decide
  have hampersand : "&".toList = ['&'] := by decide
  induction written with
  | nil => rfl
  | cons parameter rest ih =>
      cases rest with
      | nil => simp [write, part, hequals]
      | cons next rest =>
          rw [List.map_cons, List.map_cons, List.intercalate_cons_cons, ← List.map_cons, ← ih]
          simp [write, part, hequals, hampersand]

theorem mem_part {char : Char} {parameter : String × String} (hmem : char ∈ part parameter) :
    char = '=' ∨ char ∈ parameter.1.toList ∨ char ∈ parameter.2.toList := by
  rcases List.mem_append.mp hmem with hname | hvalue
  · exact .inr (.inl hname)
  · rcases List.mem_cons.mp hvalue with hequals | hvalue
    · exact .inl hequals
    · exact .inr (.inr hvalue)

/-- The characters of a query come from its parameters and its separators. -/
theorem mem_write {char : Char} {written : List (String × String)}
    (hmem : char ∈ (write written).toList) :
    char = '=' ∨ char = '&' ∨
      ∃ parameter ∈ written, char ∈ parameter.1.toList ∨ char ∈ parameter.2.toList := by
  rw [write_toList] at hmem
  induction written with
  | nil => exact absurd hmem List.not_mem_nil
  | cons parameter rest ih =>
      have hfirst : char ∈ part parameter → char = '=' ∨ char = '&' ∨
          ∃ found ∈ parameter :: rest, char ∈ found.1.toList ∨ char ∈ found.2.toList := by
        intro hpart
        rcases mem_part hpart with hequals | hparameter
        · exact .inl hequals
        · exact .inr (.inr ⟨parameter, List.mem_cons_self, hparameter⟩)
      cases rest with
      | nil => exact hfirst (by simpa using hmem)
      | cons next rest =>
          rw [List.map_cons, List.map_cons, List.intercalate_cons_cons, List.append_assoc,
            List.mem_append, List.singleton_append, List.mem_cons] at hmem
          rcases hmem with hpart | hampersand | hrest
          · exact hfirst hpart
          · exact .inr (.inl hampersand)
          · rcases ih hrest with hequals | hampersand | ⟨found, hfound, hchar⟩
            · exact .inl hequals
            · exact .inr (.inl hampersand)
            · exact .inr (.inr ⟨found, List.mem_cons_of_mem _ hfound, hchar⟩)

/-! ## Reading what was written -/

theorem ne_of_not_mem {char : Char} {text : List Char} (hchar : char ∉ text) :
    ∀ other ∈ text, decide (other ≠ char) = true := by
  intro other hother
  rw [decide_eq_true_eq]
  rintro rfl
  exact hchar hother

theorem query_append {endpoint rest : List Char} (hendpoint : '?' ∉ endpoint ∧ '#' ∉ endpoint)
    (hrest : '#' ∉ rest) : query (endpoint ++ '?' :: rest) = rest := by
  have hfragment : (endpoint ++ '?' :: rest).takeWhile (· ≠ '#') = endpoint ++ '?' :: rest := by
    rw [List.takeWhile_eq_self_iff]
    exact ne_of_not_mem (by simp [hendpoint.2, hrest])
  rw [query, hfragment, List.dropWhile_append_of_pos (ne_of_not_mem hendpoint.1)]
  rfl

theorem cut_append {name : List Char} (hname : '=' ∉ name) (value : List Char) :
    cut (name ++ '=' :: value) = (name, value) := by
  have hbefore := ne_of_not_mem hname
  rw [cut, List.takeWhile_append_of_pos hbefore, List.dropWhile_append_of_pos hbefore]
  simp

/-- A part of a query that is read as one parameter. -/
structure Carries (part : List Char) (parameter : String × String) : Prop where
  whole : '&' ∉ part
  read : decodePart part = some parameter

theorem Carries.of_decoded {name value text : String}
    (hname : '=' ∉ name.toList ∧ '&' ∉ name.toList ∧ '%' ∉ name.toList)
    (hvalue : '&' ∉ value.toList) (hdecoded : decode value = some text) :
    Carries (part (name, value)) (name, text) where
  whole := by
    simp [part, hname.2.1, hvalue]
  read := by
    rw [decodePart, part, cut_append hname.1, String.ofList_toList, String.ofList_toList,
      decode_of_plain hname.2.2, hdecoded]
    rfl

/-- Parts with ampersands between them are read one by one. -/
theorem parameters_of_carries {url : String} {parts : List (List Char)}
    {expected : List (String × String)} (hquery : query url.toList = ['&'].intercalate parts)
    (hne : parts ≠ []) (hparts : List.Forall₂ Carries parts expected) :
    parameters url = some expected := by
  have hwhole : ∀ part ∈ parts, '&' ∉ part := by
    intro part hpart
    obtain ⟨index, hindex, rfl⟩ := List.getElem_of_mem hpart
    exact (hparts.get hindex (hparts.length_eq ▸ hindex)).whole
  rw [parameters, hquery, List.splitOn_intercalate '&' hwhole hne]
  clear hquery hne hwhole
  induction hparts with
  | nil => rfl
  | cons hpart hrest ih =>
      rw [List.mapM_cons, hpart.read, ih]
      rfl

/-! ## How many parameters there are -/

theorem length_splitOn (separator : Char) (text : List Char) :
    (text.splitOn separator).length = text.count separator + 1 := by
  induction text with
  | nil => rfl
  | cons char rest ih =>
      rw [List.splitOn_cons_eq_if_modifyHead, List.count_cons]
      split <;> simp [ih]

theorem count_intercalate (separator : Char) (first : List Char) (rest : List (List Char)) :
    ([separator].intercalate (first :: rest)).count separator =
      rest.length + ((first :: rest).map (List.count separator)).sum := by
  induction rest generalizing first with
  | nil => simp
  | cons second rest ih =>
      rw [List.intercalate_cons_cons, List.count_append, List.count_append, ih,
        List.map_cons (l := second :: rest), List.sum_cons, List.length_cons,
        List.count_singleton_self]
      omega

theorem length_of_mapM {Part Value : Type} {read : Part → Option Value} {parts : List Part}
    {values : List Value} (hread : parts.mapM read = some values) :
    values.length = parts.length := by
  induction parts generalizing values with
  | nil =>
      obtain rfl := Option.some.inj hread
      rfl
  | cons part rest ih =>
      rw [List.mapM_cons] at hread
      obtain ⟨value, -, hread⟩ := Option.bind_eq_some_iff.mp hread
      obtain ⟨others, hothers, hread⟩ := Option.bind_eq_some_iff.mp hread
      obtain rfl := Option.some.inj hread
      rw [List.length_cons, List.length_cons, ih hothers]

/-- An ampersand inside of a part ends a parameter too many. -/
theorem length_parameters {url : String} {parts : List (List Char)} {part : List Char}
    {found : List (String × String)} (hquery : query url.toList = ['&'].intercalate parts)
    (hpart : part ∈ parts) (hampersand : '&' ∈ part) (hfound : parameters url = some found) :
    parts.length < found.length := by
  rw [length_of_mapM hfound, length_splitOn, hquery]
  obtain ⟨first, rest, rfl⟩ := List.exists_cons_of_ne_nil (List.ne_nil_of_mem hpart)
  have hone : 1 ≤ part.count '&' := List.one_le_count_iff.mpr hampersand
  have hsum : part.count '&' ≤ ((first :: rest).map (List.count '&')).sum :=
    List.le_sum_of_mem (List.mem_map_of_mem hpart)
  rw [count_intercalate, List.length_cons]
  omega

end QueryString
