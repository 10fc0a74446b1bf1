import Mathlib.Data.List.Perm.Basic

/-! # Work that is begun and ended once

Items of work are begun, wait in a list of their own, and are taken from it in
any order when they end. What has ended and what still waits is then what was
begun, item by item.
-/

namespace Pending

variable {Item : Type*}

/-- Every item that was begun has ended or waits, and no other. -/
def Accounts (begun ended waiting : List Item) : Prop := (ended ++ waiting).Perm begun

variable {begun ended waiting : List Item} {item : Item}

theorem accounts_nil : Accounts ([] : List Item) [] [] := List.Perm.refl []

/-- An item begins to wait. -/
theorem Accounts.start (haccounts : Accounts begun ended waiting) (item : Item) :
    Accounts (begun ++ [item]) ended (waiting ++ [item]) := by
  unfold Accounts
  rw [← List.append_assoc]
  exact haccounts.append_right [item]

/-- An item that waits ends. -/
theorem Accounts.finish (haccounts : Accounts begun ended waiting) {index : Nat}
    (hitem : waiting[index]? = some item) :
    Accounts begun (ended ++ [item]) (waiting.eraseIdx index) := by
  obtain ⟨hindex, rfl⟩ := List.getElem?_eq_some_iff.mp hitem
  unfold Accounts
  rw [List.append_assoc, List.singleton_append]
  exact ((List.getElem_cons_eraseIdx_perm hindex).append_left ended).trans haccounts

theorem Accounts.subset (haccounts : Accounts begun ended waiting) : ended ⊆ begun := by
  intro item hitem
  exact haccounts.mem_iff.mp (List.mem_append_left waiting hitem)

/-- An item may be added at the end of the one and within the other. -/
theorem perm_insert_last {items first second : List Item} (hperm : items.Perm (first ++ second))
    (item : Item) : (items ++ [item]).Perm (first ++ [item] ++ second) := by
  rw [List.append_assoc, List.singleton_append]
  exact (List.perm_append_singleton item items).trans
    ((hperm.cons item).trans List.perm_middle.symm)

/-- What comes of one more entry is added on both sides. -/
theorem perm_filterMap_concat {Entry : Type*} {kind : Entry → Option Item}
    {items given : List Item} {entries : List Entry}
    (hperm : items.Perm (given ++ entries.filterMap kind)) (entry : Entry) :
    (items ++ (kind entry).toList).Perm (given ++ (entries ++ [entry]).filterMap kind) := by
  have happend := hperm.append_right (kind entry).toList
  rw [List.append_assoc] at happend
  rw [List.filterMap_append]
  cases hentry : kind entry with
  | none => simpa [hentry] using happend
  | some item => simpa [hentry] using happend

end Pending
