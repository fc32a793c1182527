import Mathlib.Data.List.Sort
import Mathlib.Order.Basic

/-!
# Exchange sort

The double loop that compares every entry of an array with every later one and
exchanges the two when they are out of order.  One round of the outer loop
carries the least of the remaining entries to the front.
-/

namespace UoscoreUedhoc.ExchangeSort

variable {α : Type} [LinearOrder α]

/-- The inner loop: the entry at the front after it, and those behind. -/
def exchangeRound (front : α) : List α → α × List α
  | [] => (front, [])
  | entry :: entries =>
      if entry < front then
        let after := exchangeRound entry entries
        (after.1, front :: after.2)
      else
        let after := exchangeRound front entries
        (after.1, entry :: after.2)

/-- The first `rounds` rounds of the outer loop. -/
def exchangeRounds : Nat → List α → List α
  | 0, entries => entries
  | _ + 1, [] => []
  | rounds + 1, front :: entries =>
      let after := exchangeRound front entries
      after.1 :: exchangeRounds rounds after.2

def exchangeSort (entries : List α) : List α :=
  exchangeRounds entries.length entries

theorem exchangeRound_perm (front : α) (entries : List α) :
    ((exchangeRound front entries).1 ::
      (exchangeRound front entries).2).Perm (front :: entries) := by
  induction entries generalizing front with
  | nil =>
      rfl
  | cons entry entries inductionHypothesis =>
      unfold exchangeRound
      by_cases smaller : entry < front
      · rw [if_pos smaller]
        exact
          (List.Perm.swap _ _ _).trans
            ((inductionHypothesis entry).cons front)
      · rw [if_neg smaller]
        exact
          (List.Perm.swap _ _ _).trans
            (((inductionHypothesis front).cons entry).trans
              (List.Perm.swap _ _ _))

theorem exchangeRound_length (front : α) (entries : List α) :
    (exchangeRound front entries).2.length = entries.length := by
  simpa using (exchangeRound_perm front entries).length_eq

/-- The front entry after a round is a least one. -/
theorem exchangeRound_le (front : α) (entries : List α) :
    (exchangeRound front entries).1 ≤ front ∧
      ∀ entry ∈ entries, (exchangeRound front entries).1 ≤ entry := by
  induction entries generalizing front with
  | nil =>
      simp [exchangeRound]
  | cons entry entries inductionHypothesis =>
      unfold exchangeRound
      by_cases smaller : entry < front
      · obtain ⟨leEntry, leRest⟩ := inductionHypothesis entry
        simp only [if_pos smaller, List.forall_mem_cons]
        exact ⟨leEntry.trans smaller.le, leEntry, leRest⟩
      · obtain ⟨leFront, leRest⟩ := inductionHypothesis front
        simp only [if_neg smaller, List.forall_mem_cons]
        exact ⟨leFront, leFront.trans (not_lt.mp smaller), leRest⟩

theorem exchangeRounds_perm (rounds : Nat) (entries : List α) :
    (exchangeRounds rounds entries).Perm entries := by
  induction rounds generalizing entries with
  | zero =>
      rfl
  | succ rounds inductionHypothesis =>
      cases entries with
      | nil =>
          rfl
      | cons front entries =>
          exact
            ((inductionHypothesis _).cons _).trans
              (exchangeRound_perm front entries)

theorem exchangeRounds_sorted {rounds : Nat} {entries : List α}
    (enough : entries.length ≤ rounds) :
    (exchangeRounds rounds entries).Pairwise (· ≤ ·) := by
  induction rounds generalizing entries with
  | zero =>
      have empty : entries = [] :=
        List.eq_nil_of_length_eq_zero (Nat.le_zero.mp enough)
      subst empty
      exact List.Pairwise.nil
  | succ rounds inductionHypothesis =>
      cases entries with
      | nil =>
          exact List.Pairwise.nil
      | cons front entries =>
          refine List.pairwise_cons.mpr ⟨?_, ?_⟩
          · intro later member
            have inRest :
                later ∈ (exchangeRound front entries).2 :=
              (exchangeRounds_perm _ _).mem_iff.mp member
            have inAll : later ∈ front :: entries :=
              (exchangeRound_perm front entries).mem_iff.mp
                (List.mem_cons_of_mem _ inRest)
            obtain ⟨leFront, leRest⟩ := exchangeRound_le front entries
            rcases List.mem_cons.mp inAll with rfl | inEntries
            · exact leFront
            · exact leRest later inEntries
          · apply inductionHypothesis
            rw [exchangeRound_length]
            exact Nat.le_of_succ_le_succ enough

theorem exchangeSort_perm (entries : List α) :
    (exchangeSort entries).Perm entries :=
  exchangeRounds_perm _ entries

theorem exchangeSort_sorted (entries : List α) :
    (exchangeSort entries).Pairwise (· ≤ ·) :=
  exchangeRounds_sorted (Nat.le_refl _)

/-! ## Bytes -/

/-- The order that bytes are compared with. -/
instance linearOrderUInt8 : LinearOrder UInt8 where
  le_refl := UInt8.le_refl
  le_trans _ _ _ := UInt8.le_trans
  lt_iff_le_not_ge left right := by
    rw [UInt8.lt_iff_toNat_lt, UInt8.le_iff_toNat_le, UInt8.le_iff_toNat_le]
    omega
  le_antisymm _ _ := UInt8.le_antisymm
  le_total := UInt8.le_total
  toDecidableLE := inferInstance
  toDecidableEq := inferInstance
  toDecidableLT := inferInstance

end UoscoreUedhoc.ExchangeSort
