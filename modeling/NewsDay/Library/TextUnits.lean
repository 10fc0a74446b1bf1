import Mathlib.Algebra.BigOperators.Group.List.Basic
import Mathlib.Algebra.GroupWithZero.Nat
import Mathlib.Algebra.Order.BigOperators.Group.List

/-! # Units of text

A text is a sequence of Unicode scalars. It is measured in UTF-16 code units or
in extended grapheme clusters, what a reader takes for one character. A cluster
is at least one scalar and a scalar at least one unit.
-/

namespace TextUnits

/-! ## UTF-16 -/

/-- Scalars outside the basic plane take two units. -/
def utf16Size (scalar : Char) : Nat := if scalar.toNat < 0x10000 then 1 else 2

def utf16Length (text : List Char) : Nat := (text.map utf16Size).sum

@[simp] theorem utf16Length_nil : utf16Length [] = 0 := rfl

@[simp] theorem utf16Length_cons (scalar : Char) (rest : List Char) :
    utf16Length (scalar :: rest) = utf16Size scalar + utf16Length rest := List.sum_cons

@[simp] theorem utf16Length_append (first second : List Char) :
    utf16Length (first ++ second) = utf16Length first + utf16Length second := by
  simp [utf16Length]

theorem utf16Size_pos (scalar : Char) : 0 < utf16Size scalar := by
  unfold utf16Size
  split <;> decide

theorem length_le_utf16Length (text : List Char) : text.length ≤ utf16Length text := by
  induction text with
  | nil => exact Nat.le_refl 0
  | cons scalar rest ih =>
      have hpos := utf16Size_pos scalar
      rw [List.length_cons, utf16Length_cons]
      omega

/-- The scalars that lie within the first units. A pair that is cut is no scalar. -/
def firstUnits : Nat → List Char → List Char
  | _, [] => []
  | limit, scalar :: rest =>
      if utf16Size scalar ≤ limit then scalar :: firstUnits (limit - utf16Size scalar) rest else []

/-- A front of the text lies within the first units if it is no longer. -/
theorem prefix_firstUnits_iff {limit : Nat} {front text : List Char} :
    front <+: firstUnits limit text ↔ front <+: text ∧ utf16Length front ≤ limit := by
  induction front generalizing limit text with
  | nil => simp
  | cons scalar front ih =>
      cases text with
      | nil => simp [firstUnits]
      | cons head rest =>
          rw [firstUnits]
          split
          next hfits =>
            rw [List.cons_prefix_cons, List.cons_prefix_cons, ih, utf16Length_cons]
            constructor
            · rintro ⟨rfl, hfront, hlength⟩
              exact ⟨⟨rfl, hfront⟩, by omega⟩
            · rintro ⟨⟨rfl, hfront⟩, hlength⟩
              exact ⟨rfl, hfront, by omega⟩
          next hlong =>
            refine iff_of_false (by simp) ?_
            rintro ⟨hfront, hlength⟩
            obtain ⟨rfl, -⟩ := List.cons_prefix_cons.mp hfront
            rw [utf16Length_cons] at hlength
            omega

theorem firstUnits_isPrefix (limit : Nat) (text : List Char) : firstUnits limit text <+: text :=
  (prefix_firstUnits_iff.mp (List.prefix_refl (firstUnits limit text))).1

/-- The first units are the whole text if there are enough of them. -/
theorem firstUnits_eq_self_iff {limit : Nat} {text : List Char} :
    firstUnits limit text = text ↔ utf16Length text ≤ limit := by
  constructor
  · intro hwhole
    have hfront : text <+: firstUnits limit text :=
      ⟨[], (List.append_nil text).trans hwhole.symm⟩
    exact (prefix_firstUnits_iff.mp hfront).2
  · intro hlength
    have hfront : text <+: firstUnits limit text :=
      prefix_firstUnits_iff.mpr ⟨List.prefix_refl text, hlength⟩
    exact (firstUnits_isPrefix limit text).eq_of_length_le hfront.length_le

/-! ## Grapheme clusters -/

/-- What the boundary rules distinguish. Pictographs are otherwise ordinary. -/
inductive GraphemeBreak
  | cr
  | lf
  | control
  | extend
  | zwj
  | regionalIndicator
  | prepended
  | spacingMark
  | l
  | v
  | t
  | lv
  | lvt
  | pictographic
  | other
deriving DecidableEq

/-- What the rules look at before a position. -/
structure Context where
  last : GraphemeBreak
  /-- The scalars before are a pictograph, extenders, and perhaps a joiner. -/
  pictograph : Bool
  /-- The number of regional indicators just before is odd. -/
  oddIndicators : Bool

namespace Context

def start (first : GraphemeBreak) : Context where
  last := first
  pictograph := first = .pictographic
  oddIndicators := first = .regionalIndicator

/-- There is no boundary before the next scalar. -/
def joins (context : Context) (next : GraphemeBreak) : Bool :=
  match context.last, next with
  -- GB3 to GB5
  | .cr, .lf => true
  | .cr, _ | .lf, _ | .control, _ => false
  | _, .cr | _, .lf | _, .control => false
  -- GB6 to GB8
  | .l, .l | .l, .v | .l, .lv | .l, .lvt => true
  | .lv, .v | .lv, .t | .v, .v | .v, .t => true
  | .lvt, .t | .t, .t => true
  -- GB9 to GB9b
  | _, .extend | _, .zwj | _, .spacingMark => true
  | .prepended, _ => true
  -- GB11 to GB13
  | .zwj, .pictographic => context.pictograph
  | .regionalIndicator, .regionalIndicator => context.oddIndicators
  | _, _ => false

def advance (context : Context) (next : GraphemeBreak) : Context where
  last := next
  pictograph := match next with
    | .pictographic => true
    | .extend | .zwj => context.pictograph && context.last != .zwj
    | _ => false
  oddIndicators := match next with
    | .regionalIndicator => !context.oddIndicators
    | _ => false

end Context

variable (graphemeBreak : Char → GraphemeBreak)

/-- The clusters from a position on, the current one of which has begun. -/
def clustersFrom (context : Context) (cluster : List Char) : List Char → List (List Char)
  | [] => [cluster]
  | scalar :: rest =>
      let next := context.advance (graphemeBreak scalar)
      if context.joins (graphemeBreak scalar) then clustersFrom next (cluster ++ [scalar]) rest
      else cluster :: clustersFrom next [scalar] rest

/-- The extended grapheme clusters of a text. -/
def clusters : List Char → List (List Char)
  | [] => []
  | scalar :: rest => clustersFrom graphemeBreak (.start (graphemeBreak scalar)) [scalar] rest

theorem clustersFrom_flatten (context : Context) (cluster rest : List Char) :
    (clustersFrom graphemeBreak context cluster rest).flatten = cluster ++ rest := by
  induction rest generalizing context cluster with
  | nil => simp [clustersFrom]
  | cons scalar rest ih =>
      rw [clustersFrom]
      split
      · rw [ih, List.append_assoc, List.singleton_append]
      · rw [List.flatten_cons, ih, List.singleton_append]

/-- The clusters are the text cut in pieces. -/
theorem clusters_flatten (text : List Char) : (clusters graphemeBreak text).flatten = text := by
  cases text with
  | nil => rfl
  | cons scalar rest => exact clustersFrom_flatten graphemeBreak _ [scalar] rest

theorem clustersFrom_ne_nil (context : Context) {cluster : List Char} (rest : List Char)
    (hcluster : cluster ≠ []) :
    ∀ piece ∈ clustersFrom graphemeBreak context cluster rest, piece ≠ [] := by
  induction rest generalizing context cluster with
  | nil =>
      intro piece hpiece
      obtain rfl := List.mem_singleton.mp hpiece
      exact hcluster
  | cons scalar rest ih =>
      rw [clustersFrom]
      split
      · exact ih _ (List.append_ne_nil_of_right_ne_nil cluster (List.cons_ne_nil scalar []))
      · intro piece hpiece
        rcases List.mem_cons.mp hpiece with rfl | hpiece
        · exact hcluster
        · exact ih _ (List.cons_ne_nil scalar []) piece hpiece

theorem clusters_ne_nil (text : List Char) : ∀ piece ∈ clusters graphemeBreak text, piece ≠ [] := by
  cases text with
  | nil => exact fun piece hpiece => absurd hpiece List.not_mem_nil
  | cons scalar rest => exact clustersFrom_ne_nil graphemeBreak _ rest (List.cons_ne_nil scalar [])

/-! ## Clusters against units -/

theorem utf16Length_flatten (pieces : List (List Char)) :
    utf16Length pieces.flatten = (pieces.map utf16Length).sum := by
  induction pieces with
  | nil => rfl
  | cons piece rest ih => simp [ih]

theorem utf16Length_pos {text : List Char} (htext : text ≠ []) : 0 < utf16Length text :=
  (List.length_pos_of_ne_nil htext).trans_le (length_le_utf16Length text)

/-- There are at most as many pieces as units, and as many only if each piece is
one unit. -/
theorem length_le_sum {pieces : List (List Char)} (hpieces : ∀ piece ∈ pieces, piece ≠ []) :
    pieces.length ≤ (pieces.map utf16Length).sum ∧
      ((pieces.map utf16Length).sum ≤ pieces.length ↔ ∀ piece ∈ pieces, utf16Length piece = 1) := by
  induction pieces with
  | nil => simp
  | cons piece rest ih =>
      have hpos := utf16Length_pos (hpieces piece List.mem_cons_self)
      obtain ⟨hle, hiff⟩ := ih fun other hother => hpieces other (List.mem_cons_of_mem _ hother)
      rw [List.map_cons, List.sum_cons, List.length_cons, List.forall_mem_cons, ← hiff]
      omega

/-- As many clusters as units means clusters of one unit. -/
theorem utf16Length_le_clusters_iff (text : List Char) :
    utf16Length text ≤ (clusters graphemeBreak text).length ↔
      ∀ cluster ∈ clusters graphemeBreak text, utf16Length cluster = 1 := by
  have hiff := (length_le_sum (clusters_ne_nil graphemeBreak text)).2
  rwa [← utf16Length_flatten, clusters_flatten] at hiff

end TextUnits
