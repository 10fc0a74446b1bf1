import Mathlib.Data.List.Basic
import Mathlib.Data.List.Nodup

/-! # Lists of tagged entries

A log that several owners share, with the owner's tag on each entry. What one
owner did is the sublist of its own entries; what kind of thing happened is
selected by a partial function on the entries. The two commute.
-/

namespace Tagged

variable {Tag Item Value : Type*}

/-- The entries of one kind, with their owners. -/
def select (kind : Item → Option Value) (entries : List (Tag × Item)) : List (Tag × Value) :=
  entries.filterMap fun entry => (kind entry.2).map (Prod.mk entry.1)

@[simp] theorem select_append (kind : Item → Option Value) (first second : List (Tag × Item)) :
    select kind (first ++ second) = select kind first ++ select kind second :=
  List.filterMap_append

@[simp] theorem select_singleton (kind : Item → Option Value) (owner : Tag) (item : Item) :
    select kind [(owner, item)] = (kind item).toList.map (Prod.mk owner) := by
  cases hkind : kind item <;> simp [select, hkind]

theorem select_map (kind : Item → Option Value) (owner : Tag) (items : List Item) :
    select kind (items.map (Prod.mk owner)) = (items.filterMap kind).map (Prod.mk owner) := by
  simp [select, List.filterMap_map, List.map_filterMap]

variable [DecidableEq Tag]

/-- The entries of one owner, in order. -/
def ownedBy (tag : Tag) (entries : List (Tag × Item)) : List Item :=
  entries.filterMap fun entry => if entry.1 = tag then some entry.2 else none

variable (tag : Tag)

@[simp] theorem ownedBy_nil : ownedBy tag ([] : List (Tag × Item)) = [] := rfl

@[simp] theorem ownedBy_cons (owner : Tag) (item : Item) (rest : List (Tag × Item)) :
    ownedBy tag ((owner, item) :: rest) =
      if owner = tag then item :: ownedBy tag rest else ownedBy tag rest := by
  unfold ownedBy
  split <;> simp_all

@[simp] theorem ownedBy_append (first second : List (Tag × Item)) :
    ownedBy tag (first ++ second) = ownedBy tag first ++ ownedBy tag second :=
  List.filterMap_append

theorem ownedBy_map_self (items : List Item) : ownedBy tag (items.map (Prod.mk tag)) = items := by
  induction items with
  | nil => rfl
  | cons item rest ih => rw [List.map_cons, ownedBy_cons, if_pos rfl, ih]

theorem ownedBy_map_ne {tag owner : Tag} (hne : owner ≠ tag) (items : List Item) :
    ownedBy tag (items.map (Prod.mk owner)) = [] := by
  simp [ownedBy, hne]

theorem mem_ownedBy {tag : Tag} {item : Item} {entries : List (Tag × Item)} :
    item ∈ ownedBy tag entries ↔ (tag, item) ∈ entries := by
  simp only [ownedBy, List.mem_filterMap, Option.ite_none_right_eq_some, Option.some.injEq,
    Prod.exists]
  constructor
  · rintro ⟨owner, found, hmem, rfl, rfl⟩
    exact hmem
  · intro hmem
    exact ⟨tag, item, hmem, rfl, rfl⟩

theorem ownedBy_eq_nil {tag : Tag} {entries : List (Tag × Item)}
    (habsent : tag ∉ entries.map Prod.fst) : ownedBy tag entries = [] := by
  rw [List.eq_nil_iff_forall_not_mem]
  intro item hitem
  exact habsent (List.mem_map_of_mem (f := Prod.fst) (mem_ownedBy.mp hitem))

theorem length_ownedBy (tag : Tag) (entries : List (Tag × Item)) :
    (ownedBy tag entries).length = (entries.map Prod.fst).count tag := by
  induction entries with
  | nil => rfl
  | cons entry rest ih =>
      obtain ⟨owner, item⟩ := entry
      rw [ownedBy_cons, List.map_cons, List.count_cons, ← ih]
      by_cases howner : owner = tag
      · simp [howner]
      · simp [howner]

/-- Where no tag occurs twice, an owner has one entry. -/
theorem ownedBy_of_nodup {tag : Tag} {item : Item} {entries : List (Tag × Item)}
    (hnodup : (entries.map Prod.fst).Nodup) (hmem : (tag, item) ∈ entries) :
    ownedBy tag entries = [item] := by
  induction entries with
  | nil => exact absurd hmem List.not_mem_nil
  | cons entry rest ih =>
      obtain ⟨owner, other⟩ := entry
      rw [List.map_cons, List.nodup_cons] at hnodup
      rw [ownedBy_cons]
      rcases List.mem_cons.mp hmem with hfirst | hrest
      · obtain ⟨rfl, rfl⟩ := Prod.mk.inj hfirst
        rw [if_pos rfl, ownedBy_eq_nil hnodup.1]
      · rw [if_neg, ih hnodup.2 hrest]
        intro howner
        exact hnodup.1 (List.mem_map.mpr ⟨_, hrest, howner.symm⟩)

theorem length_ownedBy_of_nodup {tag : Tag} {entries : List (Tag × Item)}
    (hnodup : (entries.map Prod.fst).Nodup) : (ownedBy tag entries).length ≤ 1 := by
  by_cases htag : tag ∈ entries.map Prod.fst
  · obtain ⟨⟨owner, item⟩, hmem, rfl⟩ := List.mem_map.mp htag
    rw [ownedBy_of_nodup hnodup hmem]
    exact Nat.le_refl 1
  · rw [ownedBy_eq_nil htag]
    exact Nat.zero_le 1

/-- An owner of one entry at most has one item. -/
theorem item_unique {tag : Tag} {item item' : Item} {entries : List (Tag × Item)}
    (hsingle : (ownedBy tag entries).length ≤ 1) (hmem : (tag, item) ∈ entries)
    (hmem' : (tag, item') ∈ entries) : item = item' := by
  have hitem := mem_ownedBy.mpr hmem
  have hitem' := mem_ownedBy.mpr hmem'
  match hentries : ownedBy tag entries with
  | [] =>
      rw [hentries] at hitem
      exact absurd hitem List.not_mem_nil
  | [only] =>
      rw [hentries, List.mem_singleton] at hitem hitem'
      exact hitem.trans hitem'.symm
  | _ :: _ :: _ => simp [hentries] at hsingle

/-- A kind of item that only one owner has is found among that owner's. -/
theorem filterMap_of_owner {tag : Tag} {kind : Item → Option Value} {entries : List (Tag × Item)}
    (howner : ∀ entry ∈ entries, entry.1 ≠ tag → kind entry.2 = none) :
    (entries.map Prod.snd).filterMap kind = (ownedBy tag entries).filterMap kind := by
  induction entries with
  | nil => rfl
  | cons entry rest ih =>
      obtain ⟨owner, item⟩ := entry
      have hrest := ih fun other hother => howner other (List.mem_cons_of_mem _ hother)
      rw [List.map_cons, List.filterMap_cons, hrest, ownedBy_cons]
      by_cases hsame : owner = tag
      · rw [if_pos hsame, List.filterMap_cons]
      · rw [if_neg hsame, howner (owner, item) List.mem_cons_self hsame]

/-- One owner's entries of a kind, read off in either order. -/
theorem ownedBy_select (kind : Item → Option Value) (entries : List (Tag × Item)) :
    ownedBy tag (select kind entries) = (ownedBy tag entries).filterMap kind := by
  induction entries with
  | nil => rfl
  | cons entry rest ih =>
      obtain ⟨owner, item⟩ := entry
      rw [← List.singleton_append, select_append, ownedBy_append, ownedBy_append,
        List.filterMap_append, ih, select_singleton]
      by_cases howner : owner = tag
      · subst howner
        cases hkind : kind item <;> simp [hkind]
      · cases hkind : kind item <;> simp [howner]

theorem mem_select {tag : Tag} {kind : Item → Option Value} {value : Value}
    {entries : List (Tag × Item)} :
    (tag, value) ∈ select kind entries ↔ ∃ item, (tag, item) ∈ entries ∧ kind item = some value := by
  rw [← mem_ownedBy, ownedBy_select, List.mem_filterMap]
  simp only [mem_ownedBy]

end Tagged
