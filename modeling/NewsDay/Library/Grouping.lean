import Mathlib.Data.List.Basic
import Mathlib.Data.List.Infix
import Mathlib.Data.List.Perm.Basic

/-! # Grouping a list by a key

Items are filed under their keys, with one group for each key in the order of
first occurrence. Keys are compared through a normal form, and a group carries
the key as it was spelled first.
-/

namespace Grouping

variable {Item Key Norm : Type*} [DecidableEq Norm]

/-! ## First occurrences -/

section FirstOccurrences

variable (norm : Key → Norm)

/-- The keys of a list without repetitions, as they are first spelled. -/
def firstOccurrences : List Key → List Key
  | [] => []
  | key :: rest => key :: (firstOccurrences rest).filter fun other => norm other ≠ norm key

theorem firstOccurrences_subset (keys : List Key) : firstOccurrences norm keys ⊆ keys := by
  induction keys with
  | nil => exact List.nil_subset _
  | cons key rest ih =>
      intro other hother
      rcases List.mem_cons.mp hother with rfl | hfiltered
      · exact List.mem_cons_self
      · exact List.mem_cons_of_mem _ (ih (List.mem_of_mem_filter hfiltered))

/-- Every key has a representative of its own normal form. -/
theorem exists_mem_firstOccurrences {keys : List Key} {key : Key} (hkey : key ∈ keys) :
    ∃ header ∈ firstOccurrences norm keys, norm header = norm key := by
  induction keys with
  | nil => exact absurd hkey List.not_mem_nil
  | cons first rest ih =>
      by_cases hsame : norm first = norm key
      · exact ⟨first, List.mem_cons_self, hsame⟩
      · have hrest : key ∈ rest := by
          rcases List.mem_cons.mp hkey with rfl | hmem
          · exact absurd rfl hsame
          · exact hmem
        obtain ⟨header, hheader, hnorm⟩ := ih hrest
        refine ⟨header, List.mem_cons_of_mem _ (List.mem_filter.mpr ⟨hheader, ?_⟩), hnorm⟩
        rw [decide_eq_true_eq, hnorm]
        exact fun h => hsame h.symm

theorem pairwise_firstOccurrences (keys : List Key) :
    (firstOccurrences norm keys).Pairwise fun first second => norm first ≠ norm second := by
  induction keys with
  | nil => exact List.Pairwise.nil
  | cons key rest ih =>
      refine List.pairwise_cons.mpr ⟨?_, ih.filter _⟩
      intro other hother
      have hne := (List.mem_filter.mp hother).2
      rw [decide_eq_true_eq] at hne
      exact hne.symm

/-- A key at the end is new, or it changes nothing. -/
theorem firstOccurrences_concat (keys : List Key) (key : Key) :
    firstOccurrences norm (keys ++ [key]) =
      if ∃ other ∈ keys, norm other = norm key then firstOccurrences norm keys
      else firstOccurrences norm keys ++ [key] := by
  induction keys with
  | nil => simp [firstOccurrences]
  | cons first rest ih =>
      rw [List.cons_append, firstOccurrences, ih]
      by_cases hfirst : norm first = norm key
      · have hold : ∃ other ∈ first :: rest, norm other = norm key :=
          ⟨first, List.mem_cons_self, hfirst⟩
        rw [if_pos hold]
        split
        · rfl
        · simp [firstOccurrences, hfirst]
      · have hmem : (∃ other ∈ first :: rest, norm other = norm key) ↔
            ∃ other ∈ rest, norm other = norm key := by
          simp [hfirst]
        rw [if_congr hmem rfl rfl]
        split
        · rfl
        · simp [firstOccurrences, Ne.symm hfirst]

/-- The keys of a block of one kind count once, and not again in what follows. -/
theorem firstOccurrences_block {header : Key} {more second : List Key}
    (hmore : ∀ key ∈ more, norm key = norm header)
    (hsecond : ∀ key ∈ second, norm key ≠ norm header) :
    firstOccurrences norm (header :: (more ++ second)) =
      header :: firstOccurrences norm second := by
  have hfilter : (firstOccurrences norm (more ++ second)).filter
      (fun other => norm other ≠ norm header) = firstOccurrences norm second := by
    induction more with
    | nil =>
        rw [List.nil_append, List.filter_eq_self]
        intro key hkey
        exact decide_eq_true (hsecond key (firstOccurrences_subset norm second hkey))
    | cons key rest ih =>
        have hkey := hmore key List.mem_cons_self
        rw [List.cons_append, firstOccurrences, List.filter_cons_of_neg (by simp [hkey]), hkey,
          List.filter_filter]
        simp only [Bool.and_self]
        exact ih fun other hother => hmore other (List.mem_cons_of_mem _ hother)
  rw [firstOccurrences, hfilter]

end FirstOccurrences

/-! ## Groups -/

variable (norm : Key → Norm) (key : Item → Key)

/-- The items filed under a key. -/
def group (items : List Item) (header : Key) : List Item :=
  items.filter fun item => norm (key item) = norm header

/-- The headers under which the items are filed. -/
def headers (items : List Item) : List Key := firstOccurrences norm (items.map key)

/-- The groups, in the order of their headers. -/
def groups (items : List Item) : List (List Item) :=
  (headers norm key items).map (group norm key items)

variable {norm key} {items : List Item} {header : Key}

theorem mem_group {item : Item} :
    item ∈ group norm key items header ↔ item ∈ items ∧ norm (key item) = norm header := by
  simp [group]

theorem group_append (first second : List Item) (header : Key) :
    group norm key (first ++ second) header =
      group norm key first header ++ group norm key second header :=
  List.filter_append ..

theorem group_singleton (item : Item) (header : Key) :
    group norm key [item] header = if norm (key item) = norm header then [item] else [] := by
  by_cases hsame : norm (key item) = norm header <;> simp [group, hsame]

theorem group_congr {other : Key} (hsame : norm header = norm other) :
    group norm key items header = group norm key items other := by
  rw [group, group, hsame]

/-- A group begins with the item that gave it its header. -/
theorem group_eq_cons (hheader : header ∈ headers norm key items) :
    ∃ item rest, group norm key items header = item :: rest ∧ key item = header := by
  induction items with
  | nil => exact absurd hheader List.not_mem_nil
  | cons item rest ih =>
      rw [headers, List.map_cons, firstOccurrences] at hheader
      rcases List.mem_cons.mp hheader with rfl | hfiltered
      · exact ⟨item, _, List.filter_cons_of_pos (by simp), rfl⟩
      · obtain ⟨hrest, hne⟩ := List.mem_filter.mp hfiltered
        rw [decide_eq_true_eq] at hne
        rw [group, List.filter_cons_of_neg (by simpa using hne.symm)]
        exact ih hrest

theorem group_ne_nil (hheader : header ∈ headers norm key items) :
    group norm key items header ≠ [] := by
  obtain ⟨item, rest, hgroup, -⟩ := group_eq_cons hheader
  rw [hgroup]
  exact List.cons_ne_nil _ _

theorem pairwise_headers (items : List Item) :
    (headers norm key items).Pairwise fun first second => norm first ≠ norm second :=
  pairwise_firstOccurrences norm _

theorem headers_index_unique {first second : Nat} (hfirst : first < (headers norm key items).length)
    (hsecond : second < (headers norm key items).length)
    (hsame : norm (headers norm key items)[first] = norm (headers norm key items)[second]) :
    first = second := by
  have hpairwise := List.pairwise_iff_getElem.mp
    (pairwise_firstOccurrences norm (items.map key))
  rcases Nat.lt_trichotomy first second with hlt | heq | hgt
  · exact absurd hsame (hpairwise first second hfirst hsecond hlt)
  · exact heq
  · exact absurd hsame.symm (hpairwise second first hsecond hfirst hgt)

@[simp] theorem groups_length (items : List Item) :
    (groups norm key items).length = (headers norm key items).length :=
  List.length_map _

/-! ## One more item -/

/-- An item with a known key joins the group of that key. -/
theorem groups_concat_of_mem {item : Item} {index : Nat}
    (hindex : index < (headers norm key items).length)
    (hsame : norm (headers norm key items)[index] = norm (key item)) :
    headers norm key (items ++ [item]) = headers norm key items ∧
      groups norm key (items ++ [item]) =
        (groups norm key items).modify index (· ++ [item]) := by
  have hold : ∃ other ∈ items.map key, norm other = norm (key item) :=
    ⟨_, firstOccurrences_subset norm _ (List.getElem_mem hindex), hsame⟩
  have hheaders : headers norm key (items ++ [item]) = headers norm key items := by
    rw [headers, List.map_append, List.map_singleton, firstOccurrences_concat, if_pos hold]
    rfl
  refine ⟨hheaders, ?_⟩
  unfold groups
  rw [hheaders]
  refine List.ext_getElem (by simp) ?_
  intro place hplace _
  rw [List.length_map] at hplace
  rw [List.getElem_map, List.getElem_modify, List.getElem_map, group_append]
  by_cases hhere : index = place
  · subst hhere
    rw [if_pos rfl, group_singleton, if_pos hsame.symm]
  · have hother : norm (key item) ≠ norm (headers norm key items)[place] := by
      rw [← hsame]
      exact fun h => hhere (headers_index_unique hindex hplace h)
    rw [if_neg hhere, group_singleton, if_neg hother, List.append_nil]

/-- An item with a new key opens a group. -/
theorem groups_concat_of_not_mem {item : Item}
    (hnew : ∀ header ∈ headers norm key items, norm header ≠ norm (key item)) :
    headers norm key (items ++ [item]) = headers norm key items ++ [key item] ∧
      groups norm key (items ++ [item]) = groups norm key items ++ [[item]] := by
  have hnone : ∀ other ∈ items, norm (key other) ≠ norm (key item) := by
    intro other hother hsame
    obtain ⟨header, hheader, hnorm⟩ :=
      exists_mem_firstOccurrences norm (List.mem_map_of_mem (f := key) hother)
    exact hnew header hheader (hnorm.trans hsame)
  have hheaders : headers norm key (items ++ [item]) = headers norm key items ++ [key item] := by
    rw [headers, List.map_append, List.map_singleton, firstOccurrences_concat, if_neg]
    · rfl
    · rintro ⟨_, hother, hsame⟩
      obtain ⟨other, hmem, rfl⟩ := List.mem_map.mp hother
      exact hnone other hmem hsame
  refine ⟨hheaders, ?_⟩
  unfold groups
  rw [hheaders, List.map_append, List.map_singleton]
  congr 1
  · refine List.map_congr_left ?_
    intro header hheader
    have hother : norm (key item) ≠ norm header := fun h => hnew header hheader h.symm
    rw [group_append, group_singleton, if_neg hother, List.append_nil]
  · have hempty : group norm key items (key item) = [] := by
      rw [group, List.filter_eq_nil_iff]
      intro other hother
      simpa using hnone other hother
    rw [group_append, hempty, List.nil_append, group_singleton, if_pos rfl]

/-! ## Flattening -/

/-- The groups under some of the headers, one after the other. -/
theorem group_flatten {chosen : List Key}
    (hdistinct : chosen.Pairwise fun first second => norm first ≠ norm second) (header : Key) :
    group norm key (chosen.map (group norm key items)).flatten header =
      if ∃ other ∈ chosen, norm other = norm header then group norm key items header else [] := by
  induction chosen with
  | nil => simp [group]
  | cons first rest ih =>
      obtain ⟨hfirst, hrest⟩ := List.pairwise_cons.mp hdistinct
      rw [List.map_cons, List.flatten_cons, group_append, ih hrest]
      by_cases hsame : norm first = norm header
      · have hnone : ¬ ∃ other ∈ rest, norm other = norm header := by
          rintro ⟨other, hother, hnorm⟩
          exact hfirst other hother (hsame.trans hnorm.symm)
        rw [if_neg hnone, if_pos ⟨first, List.mem_cons_self, hsame⟩, group_congr hsame,
          List.append_nil]
        simp [group, List.filter_filter]
      · have hfiltered : group norm key (group norm key items first) header = [] := by
          rw [group, List.filter_eq_nil_iff]
          intro item hitem
          rw [decide_eq_true_eq, (mem_group.mp hitem).2]
          exact hsame
        have hmem : (∃ other ∈ first :: rest, norm other = norm header) ↔
            ∃ other ∈ rest, norm other = norm header := by
          simp [hsame]
        rw [hfiltered, List.nil_append, if_congr hmem rfl rfl]

variable (norm key) in
/-- Flattening keeps the order within each group. -/
theorem group_flatten_groups (items : List Item) (header : Key) :
    group norm key (groups norm key items).flatten header = group norm key items header := by
  rw [groups, group_flatten (pairwise_headers items)]
  split
  · rfl
  next hnone =>
    symm
    rw [group, List.filter_eq_nil_iff]
    intro item hitem hsame
    rw [decide_eq_true_eq] at hsame
    obtain ⟨other, hother, hnorm⟩ :=
      exists_mem_firstOccurrences norm (List.mem_map_of_mem (f := key) hitem)
    exact hnone ⟨other, hother, hnorm.trans hsame⟩

/-- Two lists whose groups agree are rearrangements of each other. -/
theorem perm_of_group_eq {first second : List Item}
    (hgroups : ∀ header, group norm key first header = group norm key second header) :
    first.Perm second := by
  classical
  rw [List.perm_iff_count]
  intro item
  have hcount : ∀ items : List Item,
      items.count item = (group norm key items (key item)).count item := by
    intro items
    rw [group, List.count_filter (by simp)]
  rw [hcount first, hcount second, hgroups]

variable (norm key) in
theorem flatten_groups_perm (items : List Item) : (groups norm key items).flatten.Perm items :=
  perm_of_group_eq (group_flatten_groups norm key items)

variable (norm key) in
/-- In the flat list the items of each group stand next to each other. -/
theorem group_infix_flatten (items : List Item) (header : Key) :
    group norm key items header <:+: (groups norm key items).flatten := by
  by_cases hsome : ∃ other ∈ headers norm key items, norm other = norm header
  · obtain ⟨other, hother, hsame⟩ := hsome
    rw [← group_congr hsame]
    exact List.infix_of_mem_flatten (List.mem_map_of_mem hother)
  · have hempty : group norm key (groups norm key items).flatten header = [] := by
      rw [groups, group_flatten (pairwise_headers items), if_neg hsome]
    rw [group_flatten_groups] at hempty
    rw [hempty]
    exact List.nil_infix

theorem firstOccurrences_flatten {chosen : List Key}
    (hdistinct : chosen.Pairwise fun first second => norm first ≠ norm second)
    (hchosen : ∀ header ∈ chosen, header ∈ headers norm key items) :
    firstOccurrences norm ((chosen.map (group norm key items)).flatten.map key) = chosen := by
  induction chosen with
  | nil => rfl
  | cons header rest ih =>
      obtain ⟨hfirst, hrest⟩ := List.pairwise_cons.mp hdistinct
      have hheaders := ih hrest fun other hother => hchosen other (List.mem_cons_of_mem _ hother)
      obtain ⟨item, more, hgroup, rfl⟩ := group_eq_cons (hchosen header List.mem_cons_self)
      have hblock : ∀ other ∈ item :: more, norm (key other) = norm (key item) := by
        intro other hother
        rw [← hgroup] at hother
        exact (mem_group.mp hother).2
      rw [List.map_cons, List.flatten_cons, hgroup, List.map_append, List.map_cons,
        List.cons_append, firstOccurrences_block, hheaders]
      · intro other hother
        obtain ⟨found, hfound, rfl⟩ := List.mem_map.mp hother
        exact hblock found (List.mem_cons_of_mem _ hfound)
      · intro other hother
        obtain ⟨found, hfound, rfl⟩ := List.mem_map.mp hother
        obtain ⟨_, hchoice, hmem⟩ := List.mem_flatten.mp hfound
        obtain ⟨owner, howner, rfl⟩ := List.mem_map.mp hchoice
        rw [(mem_group.mp hmem).2]
        exact (hfirst owner howner).symm

variable (norm key) in
theorem headers_flatten_groups (items : List Item) :
    headers norm key (groups norm key items).flatten = headers norm key items :=
  firstOccurrences_flatten (pairwise_headers items) fun _ => id

variable (norm key) in
/-- Grouping the flat list again gives the same groups. -/
theorem groups_flatten_groups (items : List Item) :
    groups norm key (groups norm key items).flatten = groups norm key items := by
  conv_lhs => rw [groups, headers_flatten_groups]
  exact List.map_congr_left fun header _ => group_flatten_groups norm key items header

end Grouping
