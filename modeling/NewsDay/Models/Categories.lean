import NewsDay.Library.Grouping
import NewsDay.Models.Parsing

/-! # Sources under their categories

`populate(from:)` files sources under the categories in which they occur, one
group for each category. The screens read the two arrays side by side, and the
watch flattens the groups again.
-/

namespace NewsDay

open Foundation Grouping

variable [Foundation]

/-- The category of a source, up to the equality of strings. -/
abbrev Source.SameCategory (source : Source) (category : String) : Bool :=
  sameString source.category category

namespace CategorizedSources

/-- `CategorizedSources.flatten()`. -/
def flatten (groups : CategorizedSources) : List Source :=
  groups.details.foldl (fun flatArray categoryDetails => flatArray ++ categoryDetails) []

omit [Foundation] in
theorem flatten_eq (groups : CategorizedSources) : groups.flatten = groups.details.flatten := by
  have happended : groups.details.foldl (· ++ id ·) [] = [] ++ (groups.details.map id).flatten :=
    List.foldl_append_eq_append
  rw [List.map_id, List.nil_append] at happended
  exact happended

/-- The sources are filed under their categories, in order of first occurrence. -/
structure Files (groups : CategorizedSources) (sources : List Source) : Prop where
  categories : groups.categories = headers canonical Source.category sources
  details : groups.details = Grouping.groups canonical Source.category sources

variable {groups : CategorizedSources} {sources : List Source}

theorem Files.empty : Files {} [] := ⟨rfl, rfl⟩

/-- There is a group for each category, so that `populate` finds one at the index
of a category. -/
theorem Files.length_details (hfiles : groups.Files sources) :
    groups.details.length = groups.categories.length := by
  rw [hfiles.categories, hfiles.details, groups_length]

/-- One round of the loop files one more source. -/
theorem Files.add (hfiles : groups.Files sources) (source : Source) :
    (groups.add source).Files (sources ++ [source]) := by
  have hlength := hfiles.length_details
  obtain ⟨hcategories, hdetails⟩ := hfiles
  unfold CategorizedSources.add firstIndex
  cases hfound : groups.categories.findIdx? (sameString · source.category) with
  | some index =>
      obtain ⟨hindex, hsame, -⟩ := List.findIdx?_eq_some_iff_getElem.mp hfound
      simp only [hcategories, sameString_iff] at hindex hsame
      obtain ⟨hheaders, hgroups⟩ := groups_concat_of_mem hindex hsame
      exact ⟨hcategories.trans hheaders.symm, by rw [hgroups, ← hdetails]⟩
  | none =>
      have hnew : ∀ header ∈ headers canonical Source.category sources,
          canonical header ≠ canonical source.category := by
        intro header hheader hsame
        rw [← hcategories] at hheader
        have hdiffers := List.findIdx?_eq_none_iff.mp hfound header hheader
        rw [sameString_iff.mpr hsame] at hdiffers
        exact Bool.noConfusion hdiffers
      obtain ⟨hheaders, hgroups⟩ := groups_concat_of_not_mem hnew
      refine ⟨by rw [hheaders, ← hcategories], ?_⟩
      -- the source goes into the empty group that was added last
      rw [hgroups, ← hdetails, ← hlength, List.modify_eq_take_drop, List.take_left,
        List.drop_left]
      rfl

theorem Files.populate (hfiles : groups.Files sources) (more : List Source) :
    (groups.populate more).Files (sources ++ more) := by
  induction more generalizing groups sources with
  | nil =>
      rw [List.append_nil]
      exact hfiles
  | cons source rest ih =>
      have hrest := ih (hfiles.add source)
      rw [List.append_assoc] at hrest
      exact hrest

theorem Files.populate_calls (hfiles : groups.Files sources) (calls : List (List Source)) :
    (calls.foldl CategorizedSources.populate groups).Files (sources ++ calls.flatten) := by
  induction calls generalizing groups sources with
  | nil =>
      rw [List.flatten_nil, List.append_nil]
      exact hfiles
  | cons call rest ih =>
      have hrest := ih (hfiles.populate call)
      rw [List.append_assoc] at hrest
      exact hrest

theorem files_ofSources (sources : List Source) : (ofSources sources).Files sources :=
  Files.empty.populate sources

/-- A grouping is determined by what it files. -/
theorem Files.unique {other : CategorizedSources} (hfiles : groups.Files sources)
    (hother : other.Files sources) : groups = other := by
  obtain ⟨categories, details⟩ := groups
  obtain ⟨categories', details'⟩ := other
  obtain ⟨rfl, rfl⟩ := hfiles
  obtain ⟨rfl, rfl⟩ := hother
  rfl

theorem group_eq_filter (sources : List Source) (category : String) :
    group canonical Source.category sources category =
      sources.filter (·.SameCategory category) := by
  refine List.filter_congr ?_
  intro source _
  exact (beq_eq_decide ..).symm

/-- The group at an index holds the sources of the category at that index. -/
theorem Files.group_at (hfiles : groups.Files sources) {index : Nat} {category : String}
    (hcategory : groups.categories[index]? = some category) :
    groups.details[index]? = some (sources.filter (·.SameCategory category)) := by
  rw [hfiles.categories] at hcategory
  rw [hfiles.details, Grouping.groups, List.getElem?_map, hcategory, Option.map_some,
    group_eq_filter]

theorem Files.group_ne_nil (hfiles : groups.Files sources) {category : String}
    (hcategory : category ∈ groups.categories) :
    sources.filter (·.SameCategory category) ≠ [] := by
  rw [hfiles.categories] at hcategory
  rw [← group_eq_filter]
  exact Grouping.group_ne_nil hcategory

/-! ## What populating leaves -/

/-- After any calls of `populate`, the categories are those of all the sources
in order of first occurrence, none of them twice, and beside each category
stand its sources in their order, of which there is one at least. -/
theorem populate_groups_exactly (calls : List (List Source)) :
    let sources := calls.flatten
    let groups := calls.foldl populate {}
    groups.categories = firstOccurrences canonical (sources.map Source.category) ∧
      groups.categories.Pairwise (fun first second => sameString first second = false) ∧
      groups.details.length = groups.categories.length ∧
      (∀ (index : Nat) (category : String), groups.categories[index]? = some category →
        groups.details[index]? = some (sources.filter (·.SameCategory category)) ∧
          sources.filter (·.SameCategory category) ≠ []) ∧
      groups.details.flatten.Perm sources := by
  intro sources groups
  have hfiles : groups.Files sources := Files.empty.populate_calls calls
  refine ⟨hfiles.categories, ?_, hfiles.length_details, ?_, ?_⟩
  · rw [hfiles.categories]
    refine (pairwise_headers sources).imp ?_
    intro first second hne
    exact Bool.eq_false_iff.mpr (mt sameString_iff.mp hne)
  · intro index category hcategory
    exact ⟨hfiles.group_at hcategory, hfiles.group_ne_nil (List.mem_of_getElem? hcategory)⟩
  · rw [hfiles.details]
    exact flatten_groups_perm canonical Source.category sources

/-! ## Flattening and regrouping -/

/-- The flat list is a rearrangement of the sources in which each category is
one block in the order of the sources; grouping it again gives the same
categories and the same groups, and hence the same flat list. -/
theorem flatten_regroup (sources : List Source) :
    (ofSources sources).flatten.Perm sources ∧
      (∀ category,
        (ofSources sources).flatten.filter (·.SameCategory category) =
          sources.filter (·.SameCategory category) ∧
        sources.filter (·.SameCategory category) <:+: (ofSources sources).flatten) ∧
      ofSources (ofSources sources).flatten = ofSources sources ∧
      (ofSources (ofSources sources).flatten).flatten = (ofSources sources).flatten := by
  have hfiles := files_ofSources sources
  have hflatten : (ofSources sources).flatten =
      (Grouping.groups canonical Source.category sources).flatten := by
    rw [flatten_eq, hfiles.details]
  have hagain : ofSources (ofSources sources).flatten = ofSources sources := by
    have hflat := files_ofSources (ofSources sources).flatten
    rw [hflatten] at hflat ⊢
    refine hflat.unique ⟨?_, ?_⟩
    · rw [headers_flatten_groups]
      exact hfiles.categories
    · rw [groups_flatten_groups]
      exact hfiles.details
  refine ⟨?_, ?_, hagain, by rw [hagain]⟩
  · rw [hflatten]
    exact flatten_groups_perm canonical Source.category sources
  · intro category
    rw [hflatten, ← group_eq_filter, ← group_eq_filter]
    exact ⟨group_flatten_groups canonical Source.category sources category,
      group_infix_flatten canonical Source.category sources category⟩

end CategorizedSources

/-! ## The table of the phone's screen -/

namespace SourcesViewController

variable (sources : CategorizedSources)

/-- `numberOfSections(in:)`. -/
def numberOfSections : Nat := sources.details.length

/-- `tableView(_:numberOfRowsInSection:)`; nil for an index out of range. -/
def numberOfRows (section' : Nat) : Option Nat :=
  if sources.details.isEmpty then some 0 else sources.details[section']?.map List.length

/-- The source that `cellForRowAt` and `didSelectRowAt` index. -/
def sourceAt (section' row : Nat) : Option Source :=
  sources.details[section']?.bind (·[row]?)

/-- The category that `titleForHeaderInSection` indexes. -/
def header (section' : Nat) : Option String := sources.categories[section']?

variable {sources}

end SourcesViewController

end NewsDay
