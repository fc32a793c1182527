import Mathlib.Data.List.Sort
import Mathlib.Order.Basic
import Mathlib.Tactic.Common

/-!
# Windows of largest entries

An ascending window that starts out with given entries and is to keep the
largest of these and of all numbers seen since.  A number above the first entry
goes in at its place and the first entry goes out; any other number leaves the
window as it is.
-/

namespace UoscoreUedhoc.LargestEntries

variable {α : Type} [LinearOrder α]

/-- The window is ascending and holds as many of the entries and numbers as
there were entries, none of them below one that it does not hold. -/
structure HoldsLargest (entries numbers window : List α) : Prop where
  ascending : window.Pairwise (· ≤ ·)
  length : window.length = entries.length
  largest :
    ∃ below, (entries ++ numbers).Perm (below ++ window) ∧
      ∀ low ∈ below, ∀ entry ∈ window, low ≤ entry

/-- Put a number in at its place and drop the first entry. -/
def slide (number : α) (window : List α) : List α :=
  (window.orderedInsert (· ≤ ·) number).tail

/-- An ascending window in which the number has taken the place of the smallest
entry, or of one of them. -/
structure ReplacesSmallest (number : α) (window updated : List α) : Prop where
  length : updated.length = window.length
  ascending : updated.Pairwise (· ≤ ·)
  entries :
    ∃ smallest ∈ window, (∀ entry ∈ window, smallest ≤ entry) ∧
      updated.Perm (number :: window.erase smallest)

theorem holdsLargest_nil {entries : List α}
    (ascending : entries.Pairwise (· ≤ ·)) :
    HoldsLargest entries [] entries := by
  refine ⟨ascending, rfl, [], ?_, ?_⟩
  · rw [List.append_nil, List.nil_append]
  · intro low member
    cases member

section Windows

variable {entries numbers window other : List α} {number first : α}

/-- The order in which the numbers came does not matter. -/
theorem HoldsLargest.perm {others : List α}
    (holds : HoldsLargest entries numbers window)
    (same : numbers.Perm others) : HoldsLargest entries others window := by
  obtain ⟨below, split, above⟩ := holds.largest
  exact
    ⟨holds.ascending, holds.length, below,
      (same.symm.append_left entries).trans split, above⟩

/-- There is only one such window. -/
theorem HoldsLargest.unique (holds : HoldsLargest entries numbers window)
    (otherHolds : HoldsLargest entries numbers other) : window = other := by
  obtain ⟨below, split, above⟩ := holds.largest
  obtain ⟨otherBelow, otherSplit, otherAbove⟩ := otherHolds.largest
  -- sorted, what lies below continues to a sorted list of everything
  have whole : below.mergeSort ++ window = otherBelow.mergeSort ++ other := by
    have sorted : ∀ {low high : List α}, high.Pairwise (· ≤ ·) →
        (∀ small ∈ low, ∀ large ∈ high, small ≤ large) →
        (low.mergeSort ++ high).Pairwise (· ≤ ·) := by
      intro low high ascending ordered
      refine List.pairwise_append.mpr ⟨?_, ascending, ?_⟩
      · exact List.pairwise_mergeSort' (· ≤ ·) low
      · intro small member large largeMember
        exact ordered small (List.mem_mergeSort.mp member) large largeMember
    apply
      List.Perm.eq_of_pairwise' (sorted holds.ascending above)
        (sorted otherHolds.ascending otherAbove)
    calc
      (below.mergeSort ++ window).Perm (below ++ window) :=
        (List.mergeSort_perm below _).append_right window
      _ |>.Perm (entries ++ numbers) := split.symm
      _ |>.Perm (otherBelow ++ other) := otherSplit
      _ |>.Perm (otherBelow.mergeSort ++ other) :=
        (List.mergeSort_perm otherBelow _).symm.append_right other
  exact
    (List.append_inj' whole
      (holds.length.trans otherHolds.length.symm)).2

theorem HoldsLargest.mem (holds : HoldsLargest entries numbers window)
    {entry : α} (member : entry ∈ window) : entry ∈ entries ++ numbers := by
  obtain ⟨below, split, _⟩ := holds.largest
  exact split.mem_iff.mpr (List.mem_append_right below member)

/-- The window repeats an entry no more often than it has come. -/
theorem HoldsLargest.count_le (holds : HoldsLargest entries numbers window)
    (entry : α) : window.count entry ≤ (entries ++ numbers).count entry := by
  obtain ⟨below, split, _⟩ := holds.largest
  rw [split.count_eq, List.count_append]
  exact Nat.le_add_left _ _

theorem slide_cons (above : first < number) :
    slide number (first :: window) =
      window.orderedInsert (· ≤ ·) number := by
  rw [slide, List.orderedInsert_of_not_le (· ≤ ·) _ (not_le_of_gt above),
    List.tail_cons]

/-- In an ascending window the first entry is the smallest one. -/
theorem slide_replacesSmallest
    (ascending : (first :: window).Pairwise (· ≤ ·))
    (above : first < number) :
    ReplacesSmallest number (first :: window)
      (LargestEntries.slide number (first :: window)) := by
  obtain ⟨least, others⟩ := List.pairwise_cons.mp ascending
  rw [slide_cons above]
  refine ⟨?_, others.orderedInsert number window, first, ?_, ?_, ?_⟩
  · rw [List.orderedInsert_length, List.length_cons]
  · exact List.mem_cons_self
  · exact List.forall_mem_cons.mpr ⟨le_refl first, least⟩
  · rw [List.erase_cons_head]
    exact List.perm_orderedInsert (· ≤ ·) number window

/-- A number above the first entry slides the window. -/
theorem HoldsLargest.slide
    (holds : HoldsLargest entries numbers (first :: window))
    (above : first < number) :
    HoldsLargest entries (number :: numbers)
      (slide number (first :: window)) := by
  obtain ⟨below, split, ordered⟩ := holds.largest
  have ascending := List.pairwise_cons.mp holds.ascending
  rw [slide_cons above]
  refine ⟨?_, ?_, first :: below, ?_, ?_⟩
  · exact ascending.2.orderedInsert number window
  · rw [List.orderedInsert_length, ← holds.length, List.length_cons]
  · calc
      (entries ++ number :: numbers).Perm (number :: (entries ++ numbers)) :=
        List.perm_middle
      _ |>.Perm (number :: (below ++ first :: window)) := split.cons number
      _ |>.Perm (number :: first :: (below ++ window)) :=
        List.perm_middle.cons number
      _ |>.Perm (first :: number :: (below ++ window)) :=
        List.Perm.swap _ _ _
      _ |>.Perm (first :: (below ++ number :: window)) :=
        List.perm_middle.symm.cons first
      _ |>.Perm (first :: (below ++ window.orderedInsert (· ≤ ·) number)) :=
        (((List.perm_orderedInsert (· ≤ ·) number window).symm).append_left
          below).cons first
  · intro low lowMember entry member
    have lowLe : low ≤ first ∧ ∀ later ∈ window, low ≤ later := by
      rcases List.mem_cons.mp lowMember with rfl | earlier
      · exact ⟨le_refl _, ascending.1⟩
      · exact
          ⟨ordered low earlier first List.mem_cons_self,
            fun later laterMember =>
              ordered low earlier later (List.mem_cons_of_mem _ laterMember)⟩
    rcases (List.mem_orderedInsert (· ≤ ·)).mp member with rfl | later
    · exact lowLe.1.trans above.le
    · exact lowLe.2 entry later

/-- A number that is not above the first entry leaves the window. -/
theorem HoldsLargest.keep
    (holds : HoldsLargest entries numbers (first :: window))
    (notAbove : number ≤ first) :
    HoldsLargest entries (number :: numbers) (first :: window) := by
  obtain ⟨below, split, ordered⟩ := holds.largest
  have ascending := List.pairwise_cons.mp holds.ascending
  refine ⟨holds.ascending, holds.length, number :: below, ?_, ?_⟩
  · exact List.perm_middle.trans (split.cons number)
  · intro low lowMember entry member
    rcases List.mem_cons.mp lowMember with rfl | earlier
    · rcases List.mem_cons.mp member with rfl | later
      · exact notAbove
      · exact notAbove.trans (ascending.1 entry later)
    · exact ordered low earlier entry member

end Windows

/-! ## Machine words -/

/-- The order that machine words are compared with. -/
instance linearOrderUInt64 : LinearOrder UInt64 where
  le_refl := UInt64.le_refl
  le_trans _ _ _ := UInt64.le_trans
  lt_iff_le_not_ge left right := by
    rw [UInt64.lt_iff_toNat_lt, UInt64.le_iff_toNat_le, UInt64.le_iff_toNat_le]
    omega
  le_antisymm _ _ := UInt64.le_antisymm
  le_total := UInt64.le_total
  toDecidableLE := inferInstance
  toDecidableLT := inferInstance
  toDecidableEq := inferInstance

end UoscoreUedhoc.LargestEntries
