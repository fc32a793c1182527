import UoscoreUedhoc.Oscore.OptionPlaces
import UoscoreUedhoc.Oscore.RequestBuffers

/-!
# The packets of messages

What `buf2coap` makes of a well-formed message, and what `coap2buf` writes for
the parts of it that are not options.
-/

namespace UoscoreUedhoc.Oscore

open UoscoreUedhoc
open UoscoreUedhoc.Coap

/-- The header of a parsed packet is in its first four bytes. -/
theorem buf2coap_header {first code midHigh midLow : UInt8} {rest : Bytes}
    {packet : OCoapPacket}
    (parsed :
      buf2coap (first :: code :: midHigh :: midLow :: rest) = .ok packet) :
    packet.header = parseHeader first code midHigh midLow := by
  unfold buf2coap at parsed
  dsimp only at parsed
  split at parsed
  · cases parsed
    rfl
  · split at parsed
    · cases parsed
    · split at parsed
      · cases parsed
      · split at parsed
        · cases parsed
          rfl
        · obtain ⟨_, _, same⟩ := outcome_bind_eq_ok.mp parsed
          cases same
          rfl

/-- The packet of a message whose options were read as `stored`. -/
def messagePacket (message : Message) (stored : List OCoapOption) :
    OCoapPacket where
  header := messageHeader message
  token :=
    some
      (if message.token = [] then [] else message.token ++ bodyBytes message)
  options := some stored
  payloadLen := ((bodyBytes message).dropWhile (· ≠ 0xFF)).tail.length
  payload := ((bodyBytes message).dropWhile (· ≠ 0xFF)).tail

theorem parsed_message {message : Message} {packet : OCoapPacket}
    {stored : List OCoapOption}
    (parsed : buf2coap message.bytes = .ok packet)
    (present : packet.options = some stored) :
    bodyBytes message ≠ [] ∧ packet = messagePacket message stored ∧
      optionsWalk buf2optionsDelta buf2optionsLen maxOptionCount
          (regionLength message) 0 (bodyBytes message) = .ok stored := by
  by_cases empty : bodyBytes message = []
  · obtain ⟨other, otherParsed, unwritten⟩ :=
      @buf2coap_token_only message.firstByte message.code
        (message.mid >>> 8).toUInt8 message.mid.toUInt8 message.token
        (by rw [parseHeader_message, messageHeader_tkl])
        message.token_length_le
    have bytes :
        message.bytes =
          message.firstByte :: message.code ::
            (message.mid >>> 8).toUInt8 :: message.mid.toUInt8 ::
              (message.token ++ bodyBytes message) :=
      rfl
    rw [bytes, empty, List.append_nil, otherParsed, Except.ok.injEq] at parsed
    rw [← parsed, unwritten] at present
    cases present
  · rw [buf2coap_message empty] at parsed
    obtain ⟨options, walked, same⟩ := outcome_bind_eq_ok.mp parsed
    rw [Except.ok.injEq] at same
    subst same
    rw [Option.some.injEq] at present
    subst present
    exact ⟨empty, rfl, walked⟩

/-- The first four bytes of a message are written from its header. -/
theorem headerBytes_message (message : Message) :
    headerBytes (messageHeader message) =
      [message.firstByte, message.code, (message.mid >>> 8).toUInt8,
        message.mid.toUInt8] := by
  have high :
      ((message.mid &&& 0xFF00) >>> 8).toUInt8 =
        (message.mid >>> 8).toUInt8 := by
    apply UInt8.toNat_inj.mp
    rw [UInt16.toNat_toUInt8, UInt16.toNat_toUInt8, UInt16.toNat_shiftRight,
      UInt16.toNat_shiftRight, UInt16.toNat_and]
    simp only [UInt16.reduceToNat, Nat.reduceMod, Nat.shiftRight_and_distrib,
      Nat.reduceShiftRight]
    have mask :=
      Nat.and_two_pow_sub_one_eq_mod (message.mid.toNat >>> 8) 8
    simp only [Nat.reducePow, Nat.add_one_sub_one] at mask
    rw [mask]
    exact Nat.mod_mod _ _
  have low : (message.mid &&& 0x00FF).toUInt8 = message.mid.toUInt8 := by
    have mask : (0x00FF : UInt16).toUInt8 = -1 := rfl
    rw [UInt16.toUInt8_and, mask, UInt8.and_neg_one]
  unfold headerBytes messageHeader Message.firstByte
  dsimp only
  rw [high, low]
  rfl

/-- A token in front of other bytes is written alone. -/
theorem tokenWritten_append {packet : OCoapPacket} {token rest : Bytes}
    (tkl : packet.header.tkl.toNat = token.length)
    (isToken :
      packet.token = some (if token = [] then [] else token ++ rest)) :
    HasToken packet ∧ tokenWritten packet = token := by
  have present : 0 < packet.header.tkl ↔ token ≠ [] := by
    rw [UInt8.lt_iff_toNat_lt, tkl]
    exact List.length_pos_iff
  unfold HasToken tokenWritten
  rw [isToken]
  by_cases none : token = []
  · have absent := fun positive => present.mp positive none
    exact
      ⟨fun positive => absurd positive absent, by rw [if_neg absent, none]⟩
  · rw [if_neg none, if_pos (present.mpr none), tkl, Option.getD_some,
      List.take_left]
    refine ⟨fun _ => ⟨_, rfl, ?_⟩, rfl⟩
    rw [List.length_append]
    exact Nat.le_add_right _ _

theorem tokenWritten_message (message : Message)
    (stored : List OCoapOption) :
    tokenWritten (messagePacket message stored) = message.token :=
  (tokenWritten_append (messageHeader_tkl message) rfl).2

theorem payloadWritten_whole {packet : OCoapPacket}
    (whole : packet.payloadLen = packet.payload.length) :
    payloadWritten packet = markedPayload packet.payload := by
  unfold payloadWritten markedPayload
  rw [whole, List.take_length]
  by_cases none : packet.payload = []
  · rw [if_pos none, if_pos (by rw [none]; rfl)]
  · have some : packet.payload.length ≠ 0 := by
      intro empty
      exact none (List.eq_nil_of_length_eq_zero empty)
    rw [if_neg none, if_neg some]

theorem payloadWritten_message (message : Message)
    (stored : List OCoapOption) :
    payloadWritten (messagePacket message stored) =
      markedPayload ((bodyBytes message).dropWhile (· ≠ 0xFF)).tail :=
  payloadWritten_whole rfl

/-- A written message: its header and token, then options and payload. -/
theorem packetWritten_message (message : Message)
    (stored : List OCoapOption) :
    packetWritten (messagePacket message stored) stored = message.bytes ↔
      optionsWritten stored ++
          markedPayload ((bodyBytes message).dropWhile (· ≠ 0xFF)).tail =
        bodyBytes message := by
  unfold packetWritten
  rw [tokenWritten_message, payloadWritten_message]
  change
    headerBytes (messageHeader message) ++ _ ++ _ ++ _ =
        _ :: _ :: _ :: _ :: (message.token ++ bodyBytes message) ↔ _
  rw [headerBytes_message]
  simp only [List.cons_append, List.nil_append, List.append_assoc,
    List.cons.injEq, true_and, List.append_cancel_left_eq]

end UoscoreUedhoc.Oscore
