import Mathlib.Data.List.Perm.Basic

/-! # Members of an audience

The members of a list belong to audiences by a key, and each of them is told one
value at most. How many values an audience was told says whether somebody in it
still waits.
-/

namespace Audience

/-! ## Changing one member -/

section Set

variable {Item Value : Type*} {items : List Item} {position : Nat} {item changed : Item}

theorem exists_set (hitem : items[position]? = some item) :
    ∃ before after, items = before ++ item :: after ∧
      ∀ changed, items.set position changed = before ++ changed :: after := by
  obtain ⟨hposition, rfl⟩ := List.getElem?_eq_some_iff.mp hitem
  refine ⟨items.take position, items.drop (position + 1), ?_, ?_⟩
  · rw [List.getElem_cons_drop, List.take_append_drop]
  · intro changed
    rw [List.set_eq_take_append_cons_drop, if_pos hposition]

theorem forall_mem_set {holds : Item → Prop} (hitems : ∀ item ∈ items, holds item)
    (hchanged : holds changed) : ∀ item ∈ items.set position changed, holds item := by
  intro item hitem
  rcases List.mem_or_eq_of_mem_set hitem with hold | rfl
  · exact hitems item hold
  · exact hchanged

theorem forall_mem_append_singleton {holds : Item → Prop} (hitems : ∀ item ∈ items, holds item)
    (hchanged : holds changed) : ∀ item ∈ items ++ [changed], holds item :=
  List.forall_mem_append.mpr ⟨hitems, List.forall_mem_singleton.mpr hchanged⟩

/-- What stands at a position after one member has changed. -/
theorem getElem?_set_cases {position' : Nat} {item' : Item}
    (hitem : (items.set position changed)[position']? = some item') :
    position' = position ∧ item' = changed ∨
      position' ≠ position ∧ items[position']? = some item' := by
  by_cases hsame : position' = position
  · subst hsame
    obtain ⟨hlt, rfl⟩ := List.getElem?_eq_some_iff.mp hitem
    exact .inl ⟨rfl, List.getElem_set_self hlt⟩
  · rw [List.getElem?_set_ne (Ne.symm hsame)] at hitem
    exact .inr ⟨hsame, hitem⟩

/-- What stands at a position after one member has joined. -/
theorem getElem?_concat_cases {item' : Item}
    (hitem : (items ++ [changed])[position]? = some item') :
    items[position]? = some item' ∨ item' = changed := by
  rw [List.getElem?_append] at hitem
  split at hitem
  · exact .inl hitem
  · exact .inr (List.mem_singleton.mp (List.mem_of_getElem? hitem))

theorem modify_eq_set {change : Item → Item} (hitem : items[position]? = some item) :
    items.modify position change = items.set position (change item) := by
  induction items generalizing position with
  | nil => cases hitem
  | cons first rest ih =>
      cases position with
      | zero =>
          obtain rfl := Option.some.inj hitem
          rfl
      | succ position => exact congrArg (first :: ·) (ih hitem)

end Set

variable {Item Key Value : Type*} [DecidableEq Key] (key : Item → Key)
  (value? : Item → Option Value)

/-- How many members the audience has. -/
def size (items : List Item) (of : Key) : Nat := items.countP fun item => decide (key item = of)

/-- What its members were told. -/
def told (items : List Item) (of : Key) : List Value :=
  items.filterMap fun item => if key item = of then value? item else none

variable {key value?} {items : List Item} {item changed : Item} {position : Nat} {of : Key}

theorem size_eq_zero (hnone : ∀ item ∈ items, key item ≠ of) : size key items of = 0 := by
  rw [size, List.countP_eq_zero]
  intro item hitem
  simpa using hnone item hitem

theorem told_append_cons {before after : List Item} :
    told key value? (before ++ item :: after) of = told key value? before of ++
      ((if key item = of then value? item else none).toList ++ told key value? after of) := by
  rw [told, List.filterMap_append, List.filterMap_cons]
  cases (if key item = of then value? item else none) with
  | none => rfl
  | some value => rfl

theorem size_append_cons {before after : List Item} : size key (before ++ item :: after) of =
    size key before of + size key after of + if key item = of then 1 else 0 := by
  simp only [size, List.countP_append, List.countP_cons, decide_eq_true_eq, Nat.add_assoc]

/-- A member joins that was not told. -/
theorem told_append_untold (hnone : value? item = none) :
    told key value? (items ++ [item]) of = told key value? items of := by
  simp [told, List.filterMap_append, hnone]

theorem told_eq_nil (hnone : ∀ item ∈ items, key item ≠ of) : told key value? items of = [] := by
  rw [told, List.filterMap_eq_nil_iff]
  intro item hitem
  exact if_neg (hnone item hitem)

theorem mem_told {value : Value} (hitem : item ∈ items) (hvalue : value? item = some value) :
    value ∈ told key value? items (key item) :=
  List.mem_filterMap.mpr ⟨item, hitem, by rw [if_pos rfl, hvalue]⟩

theorem size_set (hitem : items[position]? = some item) (hkey : key changed = key item) :
    size key (items.set position changed) of = size key items of := by
  obtain ⟨before, after, rfl, hset⟩ := exists_set hitem
  rw [hset, size_append_cons, size_append_cons, hkey]

/-- A member changes that was told as much as before. -/
theorem told_set (hitem : items[position]? = some item) (hkey : key changed = key item)
    (hsame : value? changed = value? item) :
    told key value? (items.set position changed) of = told key value? items of := by
  obtain ⟨before, after, rfl, hset⟩ := exists_set hitem
  rw [hset, told_append_cons, told_append_cons, hkey, hsame]

/-- A member is told. -/
theorem told_set_perm {value : Value} (hitem : items[position]? = some item)
    (hkey : key changed = key item) (hnone : value? item = none)
    (hsome : value? changed = some value) :
    (told key value? (items.set position changed) of).Perm
      (told key value? items of ++ if key item = of then [value] else []) := by
  obtain ⟨before, after, rfl, hset⟩ := exists_set hitem
  rw [hset, told_append_cons, told_append_cons, hkey, hnone, hsome]
  by_cases hof : key item = of
  · rw [if_pos hof, if_pos hof, if_pos hof]
    exact List.perm_middle.trans (List.perm_append_singleton _ _).symm
  · rw [if_neg hof, if_neg hof, if_neg hof, List.append_nil]

theorem told_length_le : (told key value? items of).length ≤ size key items of := by
  rw [told, List.length_filterMap_eq_countP, size]
  apply List.countP_mono_left
  intro item hitem hvalue
  by_cases hof : key item = of
  · exact decide_eq_true hof
  · rw [if_neg hof] at hvalue
    cases hvalue

/-- An audience that was told less than it has members has one that waits. -/
theorem exists_untold (hless : (told key value? items of).length < size key items of) :
    ∃ item ∈ items, key item = of ∧ value? item = none := by
  by_contra hall
  push Not at hall
  refine absurd hless (Nat.not_lt.mpr ?_)
  rw [told, List.length_filterMap_eq_countP, size]
  apply List.countP_mono_left
  intro item hitem hof
  have hkey : key item = of := of_decide_eq_true hof
  rw [if_pos hkey]
  exact Option.isSome_iff_ne_none.mpr (hall item hitem hkey)

/-- In an audience that was told as much as it has members, nobody waits. -/
theorem value_of_full (hfull : size key items of ≤ (told key value? items of).length)
    (hitem : item ∈ items) (hkey : key item = of) : ∃ value, value? item = some value := by
  by_contra hnone
  have hnone : value? item = none := by
    cases hvalue : value? item with
    | none => rfl
    | some value => exact absurd ⟨value, hvalue⟩ hnone
  obtain ⟨before, after, rfl⟩ := List.append_of_mem hitem
  have hbefore : (told key value? before of).length ≤ size key before of := told_length_le
  have hafter : (told key value? after of).length ≤ size key after of := told_length_le
  rw [told_append_cons, size_append_cons, hnone, if_pos hkey, ite_self] at hfull
  simp only [Option.toList_none, List.nil_append, List.length_append] at hfull
  omega

end Audience
