import UoscoreUedhoc.Oscore.SealedPackets

/-!
# Entries of the option arrays

Both conversions store options in arrays of fixed sizes.  This module runs them
with a record of the entries that they store, also of those behind an array, as
far as the packet that `coap2buf` writes: what follows reads the arrays only.
The recorded runs return what the conversions go on with.
-/

namespace UoscoreUedhoc.Oscore

open UoscoreUedhoc
open UoscoreUedhoc.Coap
open Update

/-! ## Entries -/

/-- The option arrays: those of the parsed packet, of the two classes, of the
OSCORE packet, of the inner options, and of the restored packet. -/
inductive OptionArray where
  | packet
  | eOptions
  | uOptions
  | outer
  | inner
  | merged
  deriving DecidableEq, Repr

def OptionArray.size : OptionArray → Nat
  | .inner => maxInnerOptionCount
  | _ => maxOptionCount

/-- An entry of an option array. -/
structure Entry where
  array : OptionArray
  index : Nat
  deriving DecidableEq, Repr

/-- The entries stored so far. -/
abbrev EntryLog := List Entry

/-- The packet that `coap2oscore` makes of an input. -/
def protectedPacket (platform : Platform) (residue input : Bytes)
    (c : Context) : Outcome (Option OCoapPacket) := do
  let packet ← buf2coap input
  if isMessagingLayer packet then
    .ok none
  else do
    let oscorePacket ← oscorePacketOver platform residue packet c
    .ok (some oscorePacket)

/-- The packet that `oscore2coap` makes of an input. -/
def restoredPacket (platform : Platform) (input : Bytes) (c : Context) :
    Outcome (Option OCoapPacket) := do
  let packet ← buf2coap input
  let parsed ← oscoreOptionParser packet
  if parsed.2 then do
    let plaintext ← (exec (oscorePacketDecrypt platform packet parsed.1) c).1
    let coapPacket ← oCoapPkgGenerate plaintext packet
    .ok (some coapPacket)
  else
    .ok none

section Returns

variable {array : OptionArray} {delta len : ExtensionDecoder}
  {optionsLen : UInt16} {count : Nat} {p input residue : Bytes}
  {platform : Platform} {packet : OCoapPacket}
  {options outer inner : List OCoapOption} {plaintext : Bytes}
  {capacity : Nat} {c : Context}

/-- `coap2oscore` goes on with this packet, unless it encrypts bytes that
nothing has written. -/
theorem protectedPacket_follows :
    Follows
      (protectedPacket platform residue input c >>= fun made =>
        match made with
        | some oscorePacket => coap2buf oscorePacket capacity
        | none => copyPacket input capacity)
      (exec (coap2oscore platform input capacity) c).1 := by
  unfold protectedPacket coap2oscore
  rw [exec_lift_bind_outcome, bind_assoc]
  apply Follows.bind (Follows.refl _)
  intro packet
  split
  · exact Follows.refl _
  · rw [exec_bind_lift_outcome, bind_assoc]
    exact Follows.bind oscorePacketOver_follows fun _ => Follows.refl _

/-! ### From OSCORE to CoAP -/

/-- `oscore2coap` goes on with this packet. -/
theorem oscore2coap_outcome :
    (exec (oscore2coap platform input capacity) c).1 = (do
      match ← restoredPacket platform input c with
      | some coapPacket => do
          let output ← coap2buf coapPacket capacity
          .ok (some output)
      | none => .ok none) := by
  unfold oscore2coap restoredPacket
  rw [exec_lift_bind_outcome, bind_assoc]
  apply outcome_bind_congr
  intro packet
  rw [exec_lift_bind_outcome, bind_assoc]
  apply outcome_bind_congr
  intro parsed
  split
  · rw [exec_bind, bind_assoc]
    generalize exec (oscorePacketDecrypt platform packet parsed.1) c = decrypted
    obtain ⟨outcome, after⟩ := decrypted
    cases outcome with
    | error fault =>
        rfl
    | ok plaintext =>
        dsimp only
        rw [exec_lift_bind_outcome, deliver, bind_assoc, outcome_ok_bind,
          bind_assoc]
        rfl
  · rfl

end Returns

end UoscoreUedhoc.Oscore
