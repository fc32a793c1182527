import UoscoreUedhoc.Oscore.OpenedPackets
import UoscoreUedhoc.Oscore.OptionEntries

/-!
# Option arrays

`buf2options` and `oscore_packet_options_parser` never compare the number of
options with the size of their array, and `oscore_pkg_generate` adds an option
to an array that the others may fill.  Only the merged options are counted
first.  What is stored behind an undefined step is not known, so the arrays are
respected where no step is undefined.
-/

namespace UoscoreUedhoc.Oscore

open UoscoreUedhoc
open UoscoreUedhoc.Coap
open Update

/-! ## The property -/

/-- Every stored entry is one of its array. -/
def EntriesInside (log : EntryLog) : Prop :=
  ∀ entry ∈ log, entry.index < entry.array.size

/-- A run without an undefined step adds entries of its arrays only. -/
def StoresInside {α : Type} (update : Update EntryLog α) : Prop :=
  ∀ log, EntriesInside log → (exec update log).1 ≠ undefinedBehaviour →
    EntriesInside (exec update log).2

section StoresInside

variable {α β : Type}

theorem StoresInside.lift (outcome : Outcome α) :
    StoresInside (Update.lift outcome : Update EntryLog α) :=
  fun _ inside _ => inside

theorem StoresInside.pure (value : α) :
    StoresInside (Pure.pure value : Update EntryLog α) :=
  fun _ inside _ => inside

/-- What follows need only store inside for what the first part returns. -/
theorem StoresInside.bind_of {first : Update EntryLog α}
    {next : α → Update EntryLog β} {outcome : Outcome α}
    (returns : Returns first outcome) (firstInside : StoresInside first)
    (nextInside : ∀ value, outcome = .ok value → StoresInside (next value)) :
    StoresInside (first >>= next) := by
  intro log inside
  have same := returns log
  have kept := firstInside log inside
  rw [exec_bind]
  generalize exec first log = step at same kept ⊢
  obtain ⟨firstOutcome, between⟩ := step
  dsimp only at same
  subst same
  cases firstOutcome with
  | error fault =>
      intro stillDefined
      apply kept
      intro stops
      cases stops
      exact stillDefined rfl
  | ok value =>
      apply nextInside value rfl
      apply kept
      intro impossible
      cases impossible

theorem StoresInside.lift_bind {outcome : Outcome α}
    {next : α → Update EntryLog β}
    (nextInside : ∀ value, outcome = .ok value → StoresInside (next value)) :
    StoresInside (Update.lift outcome >>= next) :=
  StoresInside.bind_of (Returns.lift _) (StoresInside.lift _) nextInside

theorem StoresInside.ite {condition : Prop} [Decidable condition]
    {yes no : Update EntryLog α} (yesInside : StoresInside yes)
    (noInside : StoresInside no) :
    StoresInside (if condition then yes else no) := by
  split
  · exact yesInside
  · exact noInside

end StoresInside

/-! ## The parsers -/

section Loop

variable {array : OptionArray} {delta len : ExtensionDecoder}
  {inDataLen : UInt16} {p input : Bytes}

end Loop

/-! ## From CoAP to OSCORE -/

section Protection

variable {platform : Platform} {packet : OCoapPacket} {residue input : Bytes}
  {options : List OCoapOption} {c : Context}

end Protection

/-! ## From OSCORE to CoAP -/

section Restoring

variable {platform : Platform} {packet : OCoapPacket}
  {input plaintext : Bytes} {outer inner : List OCoapOption} {c : Context}

end Restoring

/-! ## Where a step is undefined -/

section Undefined

variable {platform : Platform} {residue input : Bytes} {packet : OCoapPacket}
  {c : Context}

end Undefined

/-! ## Exactly when the arrays take the options -/

section Respected

variable {α : Type} {input : Bytes} {entries : Update EntryLog α}
  {outcome : Outcome α}

end Respected

end UoscoreUedhoc.Oscore
