import Mathlib.Data.List.Basic

/-! # Dictionaries keyed up to a normal form

Entries in insertion order, read through a normal form of their keys: two keys
with the same normal form name the same entry. Writing replaces the value of
an entry that is already there.
-/

namespace Dictionary

variable {Key Value : Type*} [DecidableEq Key] (norm : Key → Key)

def lookup : List (Key × Value) → Key → Option Value
  | [], _ => none
  | (key', value) :: rest, key => if norm key' = norm key then some value else lookup rest key

def insert : List (Key × Value) → Key → Value → List (Key × Value)
  | [], key, value => [(key, value)]
  | (key', value') :: rest, key, value =>
      if norm key' = norm key then (key', value) :: rest
      else (key', value') :: insert rest key value

@[simp] theorem lookup_nil (key : Key) : lookup norm ([] : List (Key × Value)) key = none := rfl

@[simp] theorem lookup_cons (key' : Key) (value : Value) (rest : List (Key × Value)) (key : Key) :
    lookup norm ((key', value) :: rest) key =
      if norm key' = norm key then some value else lookup norm rest key := rfl

theorem lookup_congr {norm : Key → Key} (entries : List (Key × Value)) {first second : Key}
    (hkey : norm first = norm second) : lookup norm entries first = lookup norm entries second := by
  induction entries with
  | nil => rfl
  | cons entry rest ih =>
      obtain ⟨key, value⟩ := entry
      rw [lookup_cons, lookup_cons, hkey, ih]

/-- A write is seen under every spelling of its key, and under no other key. -/
theorem lookup_insert (entries : List (Key × Value)) (key key' : Key) (value : Value) :
    lookup norm (insert norm entries key value) key' =
      if norm key = norm key' then some value else lookup norm entries key' := by
  induction entries with
  | nil => rfl
  | cons entry rest ih =>
      obtain ⟨owner, old⟩ := entry
      by_cases howner : norm owner = norm key
      · rw [insert, if_pos howner, lookup_cons, lookup_cons, howner]
        split <;> rfl
      · rw [insert, if_neg howner, lookup_cons, lookup_cons, ih]
        by_cases hkey : norm key = norm key'
        · rw [if_neg (hkey ▸ howner), if_pos hkey, if_pos hkey]
        · rw [if_neg hkey, if_neg hkey]

end Dictionary
