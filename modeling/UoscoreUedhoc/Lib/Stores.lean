import Mathlib.Data.List.Basic
import Mathlib.Tactic.Common

/-!
# Stores into a buffer

A store overwrites some items of a buffer from an offset on.  It is possible
only where all of them lie inside the buffer; the offset is an integer, since
an address that is computed by subtraction may lie in front of the buffer.
-/

namespace UoscoreUedhoc.Stores

variable {α : Type*}

/-- The items fit into the buffer from the offset on. -/
def Fits (buffer : List α) (offset : Int) (items : List α) : Prop :=
  0 ≤ offset ∧ offset + items.length ≤ buffer.length

instance (buffer : List α) (offset : Int) (items : List α) :
    Decidable (Fits buffer offset items) :=
  inferInstanceAs (Decidable (_ ∧ _))

/-- The buffer with the items written over what it held. -/
def overwrite (buffer : List α) (offset : Nat) (items : List α) : List α :=
  buffer.take offset ++ items ++ buffer.drop (offset + items.length)

/-- Store the items, if they fit. -/
def store (buffer : List α) (offset : Int) (items : List α) :
    Option (List α) :=
  if Fits buffer offset items then
    some (overwrite buffer offset.toNat items)
  else
    none

theorem store_eq_some {buffer items stored : List α} {offset : Int} :
    store buffer offset items = some stored ↔
      Fits buffer offset items ∧
        overwrite buffer offset.toNat items = stored := by
  unfold store
  split
  · rename_i fits
    simp [fits]
  · rename_i outside
    simp [outside]

theorem store_eq_none {buffer items : List α} {offset : Int} :
    store buffer offset items = none ↔ ¬ Fits buffer offset items := by
  unfold store
  split
  · rename_i fits
    simp [fits]
  · rename_i outside
    simp [outside]

/-- A store in front of the buffer is impossible. -/
theorem store_of_neg {buffer items : List α} {offset : Int}
    (inFront : offset < 0) : store buffer offset items = none := by
  rw [store_eq_none]
  intro fits
  have inside := fits.1
  omega

/-- Overwriting what follows the items written so far. -/
theorem overwrite_behind (written rest items : List α) :
    overwrite (written ++ rest) written.length items =
      written ++ items ++ rest.drop items.length := by
  unfold overwrite
  rw [List.take_left, List.drop_append, List.drop_of_length_le (by omega),
    Nat.add_sub_cancel_left, List.nil_append]

/-- A store behind the items written so far. -/
theorem store_behind {written rest items : List α} {offset : Int}
    (behind : offset = written.length)
    (room : items.length ≤ rest.length) :
    store (written ++ rest) offset items =
      some (written ++ items ++ rest.drop items.length) := by
  rw [store_eq_some, behind, Int.toNat_natCast, overwrite_behind]
  refine ⟨⟨?_, ?_⟩, rfl⟩
  · omega
  · rw [List.length_append]
    omega

/-! ## Logs -/

/-- A store that was made: where, and of what. -/
structure Store (α : Type*) where
  offset : Nat
  items : List α

/-- The store lies inside a buffer of `capacity` items. -/
def Store.InBounds (capacity : Nat) (store : Store α) : Prop :=
  store.offset + store.items.length ≤ capacity

instance (capacity : Nat) (store : Store α) :
    Decidable (store.InBounds capacity) :=
  inferInstanceAs (Decidable (_ ≤ _))

/-- What was stored, in the order of the stores. -/
def contents (stores : List (Store α)) : List α :=
  (stores.map Store.items).flatten

/-- Each store begins where the one before ends, the first one at `offset`. -/
def Consecutive : Nat → List (Store α) → Prop
  | _, [] => True
  | offset, store :: stores =>
      store.offset = offset ∧
        Consecutive (offset + store.items.length) stores

/-- A buffer after the stores. -/
def applied (buffer : List α) (stores : List (Store α)) : List α :=
  stores.foldl
    (fun buffer store => overwrite buffer store.offset store.items) buffer

theorem contents_append (stores others : List (Store α)) :
    contents (stores ++ others) = contents stores ++ contents others := by
  simp [contents]

@[simp]
theorem contents_singleton (offset : Nat) (items : List α) :
    contents [⟨offset, items⟩] = items := by
  simp [contents]

/-- One more store behind consecutive ones. -/
theorem Consecutive.concat {stores : List (Store α)} {offset next : Nat}
    (consecutive : Consecutive offset stores)
    (behind : next = offset + (contents stores).length) (items : List α) :
    Consecutive offset (stores ++ [⟨next, items⟩]) := by
  induction stores generalizing offset with
  | nil =>
      exact ⟨behind, trivial⟩
  | cons store stores inductionHypothesis =>
      obtain ⟨isOffset, rest⟩ := consecutive
      refine ⟨isOffset, inductionHypothesis rest ?_⟩
      rw [behind, contents, List.map_cons, List.flatten_cons,
        List.length_append, Nat.add_assoc]
      rfl

/-- Consecutive stores behind `written` leave their items there. -/
theorem Consecutive.applied_eq {stores : List (Store α)}
    {written rest : List α} (consecutive : Consecutive written.length stores)
    (room : (contents stores).length ≤ rest.length) :
    applied (written ++ rest) stores =
      written ++ contents stores ++ rest.drop (contents stores).length := by
  induction stores generalizing written rest with
  | nil =>
      simp [applied, contents]
  | cons store stores inductionHypothesis =>
      obtain ⟨isOffset, others⟩ := consecutive
      have split :
          contents (store :: stores) = store.items ++ contents stores :=
        rfl
      rw [split, List.length_append] at room
      rw [← List.length_append] at others
      have next :=
        @inductionHypothesis (written ++ store.items)
          (rest.drop store.items.length) others
          (by rw [List.length_drop]; omega)
      unfold applied at next ⊢
      rw [List.foldl_cons, isOffset, overwrite_behind, next, split,
        List.drop_drop, List.length_append]
      simp only [List.append_assoc]

end UoscoreUedhoc.Stores
