import UoscoreUedhoc.Oscore.InnerPlaintext
import UoscoreUedhoc.Oscore.ParserSafety

/-!
# Safety of the inner parser

`oscore_decrypted_payload_parser` reads the byte behind a plaintext without a
payload marker, and its option parser checks neither heads nor values against
the end of the plaintext.  This module runs it on the bytes of the plaintext
alone, so that every read behind them is undefined.
-/

namespace UoscoreUedhoc.Oscore

open UoscoreUedhoc
open UoscoreUedhoc.Coap

/-! ## The parser -/

/-- The `while` loop of `oscore_decrypted_payload_parser`: the values of
`temp_payload_ptr`, `temp_payload_len` and `options_len` behind it. -/
def scanMarker :
    Bytes → UInt32 → UInt16 → Outcome (Bytes × UInt32 × UInt16)
  | [], _, _ => undefinedBehaviour
  | byte :: p, payloadLen, optionsLen =>
      if byte ≠ 0xFF ∧ payloadLen ≠ 0 then
        scanMarker p (payloadLen - 1) (optionsLen + 1)
      else
        .ok (byte :: p, payloadLen, optionsLen)

/-- What `oscore_decrypted_payload_parser` writes, with the payload as an array
inside the plaintext. -/
structure ParsedPlaintext where
  code : UInt8
  eOptions : List OCoapOption
  payload : ByteArrayView
  deriving DecidableEq, Repr

/-- The part of the parser that reads the options: they, `temp_payload_ptr` and
`temp_payload_len`. -/
def scanOptions (p : Bytes) (payloadLen : UInt32) :
    Outcome (List OCoapOption × Bytes × UInt32) :=
  match p with
  | [] => undefinedBehaviour
  | first :: _ =>
      if first = 0xFF ∨ payloadLen = 0 then
        .ok ([], p, payloadLen)
      else do
        let (afterOptions, payloadLen, optionsLen) ←
          scanMarker p payloadLen 0
        let eOptions ← parseOptions oscorePacketOptionsParser p optionsLen
        .ok (eOptions, afterOptions, payloadLen)

/-- `oscore_decrypted_payload_parser` on the bytes of a plaintext. -/
def oscoreDecryptedPayloadSlices (plaintext : Bytes) :
    Outcome ParsedPlaintext :=
  match plaintext with
  | [] => undefinedBehaviour
  | code :: p => do
      let (eOptions, p, payloadLen) ←
        scanOptions p (UInt32.ofNat plaintext.length - 1)
      .ok
        { code, eOptions
          payload :=
            if payloadLen = 0 then nullArray
            else ⟨(payloadLen - 1).toNat, p.drop 1⟩ }

/-! ## The property -/

/-- The bytes from the pointer on lie inside the plaintext. -/
def SliceOf (plaintext ptr : Bytes) (len : Nat) : Prop :=
  ptr <:+ plaintext ∧ len ≤ ptr.length

/-- The parser reads only bytes of the plaintext, and returns an error or
slices of it. -/
def ParsesInside (plaintext : Bytes) : Prop :=
  (∃ code, oscoreDecryptedPayloadSlices plaintext = fail code) ∨
    ∃ parsed, oscoreDecryptedPayloadSlices plaintext = .ok parsed ∧
      (∀ option ∈ parsed.eOptions,
        SliceOf plaintext option.value option.len.toNat) ∧
      SliceOf plaintext parsed.payload.ptr parsed.payload.len

/-! ## The condition -/

/-- Options that are complete inside `p`, not more than `slots`, of which the
last one reaches the end of the option bytes. -/
def Covered (len : ExtensionDecoder) (slots left : Nat) (p : Bytes) : Prop :=
  left = 0 ∨
    ∃ (options : List (FramedOption len)) (last : FramedOption len),
      options.length < slots ∧ framedBytes (options ++ [last]) <+: p ∧
        (framedBytes options).length < left ∧
        left ≤ (framedBytes (options ++ [last])).length

/-- The plaintext has a payload marker behind its code, and in front of the
first one options that are complete inside the plaintext, up to the marker or
up to a reserved nibble. -/
def ParsableInner : Bytes → Prop
  | _ :: rest =>
      let region := rest.takeWhile (· ≠ 0xFF)
      0xFF ∈ rest ∧
        (Covered oscorePacketOptionsField maxInnerOptionCount region.length
            rest ∨
          MeetsReserved oscorePacketOptionsField maxInnerOptionCount
            region.length rest)
  | [] => False

/-! ## The option loop -/

section OptionsWalk

variable {delta len : ExtensionDecoder}

/-- The values are slices of the bytes that are parsed. -/
theorem optionsWalk_slices {slots left : Nat} {number : UInt8} {p : Bytes}
    {options : List OCoapOption}
    (walked : optionsWalk delta len slots left number p = .ok options) :
    ∀ option ∈ options, option.value <:+ p := by
  induction slots generalizing left number p options with
  | zero =>
      obtain ⟨_, rfl⟩ := (optionsWalk_no_slot_eq_ok delta).mp walked
      intro option member
      cases member
  | succ slots inductionHypothesis =>
      rcases (optionsWalk_succ_eq_ok delta).mp walked with
        ⟨_, rfl⟩ | ⟨_, head, rest, others, rfl, walkedRest, rfl⟩
      · intro option member
        cases member
      · have behind : rest <:+ head.bytes ++ rest := List.suffix_append _ _
        refine List.forall_mem_cons.mpr ⟨?_, ?_⟩
        · dsimp only
          split
          · exact List.nil_suffix
          · exact behind
        · intro option member
          have dropped := inductionHypothesis walkedRest option member
          exact (dropped.trans (List.drop_suffix _ _)).trans behind

/-- One more complete option in front. -/
theorem Covered.cons {first : FramedOption len} {slots left : Nat}
    {rest : Bytes} (positive : 0 < left)
    (behind : Covered len slots (left - first.bytes.length) rest) :
    Covered len (slots + 1) left (first.bytes ++ rest) := by
  right
  rcases behind with none | ⟨options, last, fits, isPrefix, before, reaches⟩
  · refine ⟨[], first, Nat.succ_pos _, ?_, positive, ?_⟩
    · simp
    · simp only [List.nil_append, framedBytes_cons, framedBytes_nil,
        List.append_nil]
      omega
  · refine ⟨first :: options, last, ?_, ?_, ?_, ?_⟩
    · rw [List.length_cons]
      omega
    · rw [List.cons_append, framedBytes_cons, List.prefix_append_right_inj]
      exact isPrefix
    · rw [framedBytes_cons, List.length_append]
      omega
    · rw [List.cons_append, framedBytes_cons, List.length_append]
      omega

/-- The loop returns options with their values in the bytes that are parsed
exactly where these are complete. -/
theorem optionsWalk_covered_iff {slots left : Nat} {number : UInt8}
    {p : Bytes} (inside : left ≤ p.length) :
    (∃ options, optionsWalk delta len slots left number p = .ok options ∧
        HasValues options) ↔ Covered len slots left p := by
  constructor
  · intro walked
    obtain ⟨options, walked, values⟩ := walked
    induction slots generalizing left number p options with
    | zero =>
        exact Or.inl ((optionsWalk_no_slot_eq_ok delta).mp walked).1
    | succ slots inductionHypothesis =>
        rcases (optionsWalk_succ_eq_ok delta).mp walked with
          ⟨none, _⟩ | ⟨positive, head, rest, others, rfl, walkedRest, rfl⟩
        · exact Or.inl none
        · obtain ⟨hasValue, values⟩ := List.forall_mem_cons.mp values
          have available : (len.len head).toNat ≤ rest.length := by
            dsimp only at hasValue
            split at hasValue
            · rename_i empty
              rw [empty]
              exact Nat.zero_le _
            · exact hasValue
          obtain ⟨first, firstBytes, firstLength⟩ :=
            exists_framedOption available
          rw [List.length_append] at inside
          have covered :=
            inductionHypothesis (by rw [List.length_drop]; omega) _ walkedRest
              values
          rw [← firstLength] at covered
          rw [← firstBytes]
          exact covered.cons positive
  · intro covered
    rcases covered with none | ⟨options, last, fits, isPrefix, before, reaches⟩
    · refine ⟨[], ?_, fun _ member => nomatch member⟩
      rw [none, optionsWalk_zero]
    · obtain ⟨after, rfl⟩ := isPrefix
      have both :
          framedBytes (options ++ [last]) =
            framedBytes options ++ last.bytes := by
        simp [framedBytes]
      rw [both, List.length_append] at reaches
      rw [both, List.append_assoc]
      exact
        ⟨_, optionsWalk_overrun delta options last fits before reaches number
          after, parsedOptions_hasValues _ _ _⟩

end OptionsWalk

/-! ## The marker -/

section Scan

variable {p : Bytes} {payloadLen : UInt32}

theorem region_of_marker (p : Bytes) :
    (0xFF :: p).takeWhile (· ≠ 0xFF) = [] ∧
      (0xFF :: p).dropWhile (· ≠ 0xFF) = 0xFF :: p := by
  simp

theorem region_of_other {byte : UInt8} (other : byte ≠ 0xFF) (p : Bytes) :
    (byte :: p).takeWhile (· ≠ 0xFF) = byte :: p.takeWhile (· ≠ 0xFF) ∧
      (byte :: p).dropWhile (· ≠ 0xFF) = p.dropWhile (· ≠ 0xFF) := by
  simp [other]

/-- The bytes left, one byte further. -/
theorem payloadLen_pred {byte : UInt8}
    (length : payloadLen.toNat = (byte :: p).length) :
    payloadLen ≠ 0 ∧ (payloadLen - 1).toNat = p.length := by
  rw [List.length_cons] at length
  have positive : (1 : UInt32) ≤ payloadLen := by
    rw [UInt32.le_iff_toNat_le, length]
    exact Nat.succ_le_succ (Nat.zero_le _)
  constructor
  · rintro rfl
    cases length
  · rw [UInt32.toNat_sub_of_le _ _ positive, length]
    rfl

/-- Without a marker, the scan ends behind the bytes. -/
theorem scanMarker_unmarked (unmarked : 0xFF ∉ p)
    (length : payloadLen.toNat = p.length) (optionsLen : UInt16) :
    scanMarker p payloadLen optionsLen = undefinedBehaviour := by
  induction p generalizing payloadLen optionsLen with
  | nil =>
      rfl
  | cons byte p inductionHypothesis =>
      obtain ⟨notMarker, unmarked⟩ := not_or.mp (mt List.mem_cons.mpr unmarked)
      obtain ⟨some, fewer⟩ := payloadLen_pred length
      rw [scanMarker, if_pos ⟨Ne.symm notMarker, some⟩]
      exact inductionHypothesis unmarked fewer _

/-- The scan stops at the first marker. -/
theorem scanMarker_marked (marked : 0xFF ∈ p)
    (length : payloadLen.toNat = p.length) (optionsLen : UInt16) :
    scanMarker p payloadLen optionsLen =
      .ok
        (p.dropWhile (· ≠ 0xFF),
          UInt32.ofNat (p.dropWhile (· ≠ 0xFF)).length,
          optionsLen + UInt16.ofNat (p.takeWhile (· ≠ 0xFF)).length) := by
  induction p generalizing payloadLen optionsLen with
  | nil =>
      cases marked
  | cons byte p inductionHypothesis =>
      rw [scanMarker]
      by_cases isMarker : byte = 0xFF
      · subst isMarker
        obtain ⟨region, behind⟩ := region_of_marker p
        have stops : ¬ ((0xFF : UInt8) ≠ 0xFF ∧ payloadLen ≠ 0) :=
          fun more => more.1 rfl
        rw [if_neg stops, region, behind, ← length, UInt32.ofNat_toNat]
        simp
      · obtain ⟨region, behind⟩ := region_of_other isMarker p
        have later : 0xFF ∈ p :=
          (List.mem_cons.mp marked).resolve_left (Ne.symm isMarker)
        obtain ⟨some, fewer⟩ := payloadLen_pred length
        rw [if_pos ⟨isMarker, some⟩, inductionHypothesis later fewer, region,
          behind, List.length_cons, UInt16.ofNat_add, UInt16.add_assoc,
          UInt16.add_comm (UInt16.ofNat _) _]
        rfl

/-- The options are those in front of the first marker. -/
theorem scanOptions_marked (marked : 0xFF ∈ p)
    (length : payloadLen.toNat = p.length)
    (short : p.length < 2 ^ 16) :
    scanOptions p payloadLen = (do
      let eOptions ←
        optionsWalk oscorePacketOptionsField oscorePacketOptionsField
          maxInnerOptionCount (p.takeWhile (· ≠ 0xFF)).length 0 p
      .ok
        (eOptions, p.dropWhile (· ≠ 0xFF),
          UInt32.ofNat (p.dropWhile (· ≠ 0xFF)).length)) := by
  have walk :=
    parseOptions_eq_walk oscorePacketOptionsField oscorePacketOptionsField
      (show maxInnerOptionCount * maxOptionBytes < 2 ^ 16 by decide) p
      (UInt16.ofNat (p.takeWhile (· ≠ 0xFF)).length)
  have shorter :=
    (List.takeWhile_prefix (· ≠ (0xFF : UInt8)) (l := p)).length_le
  rw [UInt16.toNat_ofNat', Nat.mod_eq_of_lt (by omega)] at walk
  cases p with
  | nil =>
      cases marked
  | cons first rest =>
      obtain ⟨some, _⟩ := payloadLen_pred length
      rw [scanOptions]
      by_cases isMarker : first = 0xFF
      · subst isMarker
        obtain ⟨region, behind⟩ := region_of_marker rest
        rw [if_pos (Or.inl rfl), region, behind, List.length_nil,
          optionsWalk_zero, outcome_ok_bind, ← length, UInt32.ofNat_toNat]
      · have goesOn : ¬ (first = 0xFF ∨ payloadLen = 0) :=
          not_or.mpr ⟨isMarker, some⟩
        rw [if_neg goesOn, scanMarker_marked marked length, outcome_ok_bind,
          ← walk, UInt16.zero_add]
        rfl

theorem scanOptions_unmarked (unmarked : 0xFF ∉ p)
    (length : payloadLen.toNat = p.length) :
    scanOptions p payloadLen = undefinedBehaviour := by
  cases p with
  | nil =>
      rfl
  | cons first rest =>
      obtain ⟨some, _⟩ := payloadLen_pred length
      have notMarker : first ≠ 0xFF := by
        intro isMarker
        exact unmarked (isMarker ▸ List.mem_cons_self)
      rw [scanOptions, if_neg (not_or.mpr ⟨notMarker, some⟩),
        scanMarker_unmarked unmarked length]
      rfl

end Scan

/-! ## Exactly the parsable plaintexts are parsed inside -/

section Plaintext

variable {code : UInt8} {rest plaintext : Bytes}

theorem marked_region (marked : 0xFF ∈ rest) :
    rest.dropWhile (· ≠ 0xFF) =
      0xFF :: (rest.dropWhile (· ≠ 0xFF)).tail := by
  obtain ⟨_, isMarked⟩ := takeWhile_unmarked rest
  have split :=
    List.takeWhile_append_dropWhile (p := (· ≠ (0xFF : UInt8))) (l := rest)
  rcases isMarked with none | ⟨payload, isPayload⟩
  · rw [none, List.append_nil] at split
    have unmarked := (takeWhile_unmarked rest).1
    rw [split] at unmarked
    exact absurd marked unmarked
  · rw [isPayload]
    rfl

theorem oscoreDecryptedPayloadSlices_marked (marked : 0xFF ∈ rest)
    (short : (code :: rest).length ≤ maxPlaintextLen) :
    oscoreDecryptedPayloadSlices (code :: rest) = (do
      let eOptions ←
        optionsWalk oscorePacketOptionsField oscorePacketOptionsField
          maxInnerOptionCount (rest.takeWhile (· ≠ 0xFF)).length 0 rest
      .ok
        { code, eOptions
          payload :=
            ⟨(rest.dropWhile (· ≠ 0xFF)).tail.length,
              (rest.dropWhile (· ≠ 0xFF)).tail⟩ }) := by
  have narrow : (code :: rest).length < 2 ^ 16 :=
    Nat.lt_of_le_of_lt short (by decide)
  have length :
      (UInt32.ofNat (code :: rest).length).toNat =
        (code :: rest).length := by
    rw [UInt32.toNat_ofNat', Nat.mod_eq_of_lt (by omega)]
  obtain ⟨_, fewer⟩ := payloadLen_pred length
  have markedLength :
      (UInt32.ofNat (rest.dropWhile (· ≠ 0xFF)).length).toNat =
        (0xFF :: (rest.dropWhile (· ≠ 0xFF)).tail).length := by
    have shorter :=
      (List.dropWhile_suffix (· ≠ (0xFF : UInt8)) (l := rest)).length_le
    rw [List.length_cons] at narrow
    rw [← marked_region marked, UInt32.toNat_ofNat',
      Nat.mod_eq_of_lt (by omega)]
  obtain ⟨some, payloadLength⟩ := payloadLen_pred markedLength
  unfold oscoreDecryptedPayloadSlices
  dsimp only
  rw [scanOptions_marked marked fewer (by rw [List.length_cons] at narrow; omega)]
  cases optionsWalk oscorePacketOptionsField oscorePacketOptionsField
      maxInnerOptionCount (rest.takeWhile (· ≠ 0xFF)).length 0 rest with
  | error fault =>
      rfl
  | ok eOptions =>
      rw [outcome_ok_bind, outcome_ok_bind, outcome_ok_bind]
      dsimp only
      rw [if_neg some, payloadLength, List.drop_one]

theorem oscoreDecryptedPayloadSlices_unmarked (unmarked : 0xFF ∉ rest)
    (short : (code :: rest).length ≤ maxPlaintextLen) :
    oscoreDecryptedPayloadSlices (code :: rest) = undefinedBehaviour := by
  have narrow : (code :: rest).length < 2 ^ 16 :=
    Nat.lt_of_le_of_lt short (by decide)
  have length :
      (UInt32.ofNat (code :: rest).length).toNat =
        (code :: rest).length := by
    rw [UInt32.toNat_ofNat', Nat.mod_eq_of_lt (by omega)]
  obtain ⟨_, fewer⟩ := payloadLen_pred length
  unfold oscoreDecryptedPayloadSlices
  dsimp only
  rw [scanOptions_unmarked unmarked fewer]
  rfl

/-- The parsed fields with the payload that the array stands for. -/
def ParsedPlaintext.decrypted (parsed : ParsedPlaintext) : DecryptedPayload :=
  { code := parsed.code
    eOptions := parsed.eOptions
    payload := parsed.payload.content }

/-- Where no byte behind the plaintext is read, the parser with its whole buffer
does the same. -/
theorem oscoreDecryptedPayloadParser_eq_slices
    (short : plaintext.length ≤ maxPlaintextLen)
    (defined : oscoreDecryptedPayloadSlices plaintext ≠ undefinedBehaviour) :
    oscoreDecryptedPayloadParser plaintext =
      (oscoreDecryptedPayloadSlices plaintext).map
        ParsedPlaintext.decrypted := by
  cases plaintext with
  | nil =>
      exact absurd rfl defined
  | cons code rest =>
      by_cases marked : 0xFF ∈ rest
      · have region := marked_region marked
        have shorter :=
          (List.takeWhile_prefix (· ≠ (0xFF : UInt8)) (l := rest)).length_le
        have narrow : (code :: rest).length < 2 ^ 16 :=
          Nat.lt_of_le_of_lt short (by decide)
        rw [List.length_cons] at narrow
        rw [oscoreDecryptedPayloadSlices_marked marked short,
          oscoreDecryptedPayloadParser_cons, if_neg,
          Nat.mod_eq_of_lt (by omega)]
        · cases optionsWalk oscorePacketOptionsField oscorePacketOptionsField
              maxInnerOptionCount (rest.takeWhile (· ≠ 0xFF)).length 0
              rest with
          | error fault =>
              rfl
          | ok eOptions =>
              rw [outcome_ok_bind, outcome_ok_bind, Except.map,
                ParsedPlaintext.decrypted, ByteArrayView.content,
                List.take_length]
        · intro ends
          rw [ends.1] at region
          cases region
      · exact
          absurd (oscoreDecryptedPayloadSlices_unmarked marked short) defined

/-- The parser stays inside the plaintext exactly when this has a payload marker
and its options end inside. -/
theorem parsesInside_iff (plaintext : Bytes)
    (short : plaintext.length ≤ maxPlaintextLen) :
    ParsesInside plaintext ↔ ParsableInner plaintext := by
  cases plaintext with
  | nil =>
      apply iff_of_false
      · rintro (⟨_, failed⟩ | ⟨_, parsed, _⟩)
        · cases failed
        · cases parsed
      · exact id
  | cons code rest =>
      by_cases marked : 0xFF ∈ rest
      · have inside : (rest.takeWhile (· ≠ 0xFF)).length ≤ rest.length :=
          (List.takeWhile_prefix (· ≠ (0xFF : UInt8)) (l := rest)).length_le
        have behind : rest <:+ code :: rest := List.suffix_cons _ _
        unfold ParsesInside ParsableInner
        dsimp only
        have covered :=
          @optionsWalk_covered_iff oscorePacketOptionsField
            oscorePacketOptionsField maxInnerOptionCount _ 0 rest inside
        have reserved :=
          @optionsWalk_eq_err oscorePacketOptionsField
            oscorePacketOptionsField maxInnerOptionCount _ 0 rest inside
        rw [oscoreDecryptedPayloadSlices_marked marked short, ← covered,
          ← reserved]
        constructor
        · intro parses
          refine ⟨marked, ?_⟩
          rcases parses with ⟨error, failed⟩ | ⟨parsed, succeeded, values, _⟩
          · rcases outcome_bind_eq_error.mp failed with
              failed | ⟨_, _, impossible⟩
            · exact Or.inr ⟨error, failed⟩
            · cases impossible
          · obtain ⟨eOptions, walked, same⟩ := outcome_bind_eq_ok.mp succeeded
            obtain rfl := Except.ok.inj same
            exact
              Or.inl ⟨eOptions, walked, fun option member =>
                (values option member).2⟩
        · intro parsable
          rcases parsable.2 with ⟨eOptions, walked, values⟩ | ⟨error, failed⟩
          · right
            rw [walked]
            refine ⟨_, rfl, ?_, ?_, Nat.le_refl _⟩
            · intro option member
              have slice := optionsWalk_slices walked option member
              exact ⟨slice.trans behind, values option member⟩
            · have payload :
                  (rest.dropWhile (· ≠ (0xFF : UInt8))).tail <:+ rest :=
                (List.tail_suffix _).trans (List.dropWhile_suffix _)
              exact payload.trans behind
          · left
            rw [failed]
            exact ⟨error, rfl⟩
      · apply iff_of_false
        · have undefinedStep :=
            oscoreDecryptedPayloadSlices_unmarked marked short
          rintro (⟨_, failed⟩ | ⟨_, parsed, _⟩)
          · rw [undefinedStep] at failed
            cases failed
          · rw [undefinedStep] at parsed
            cases parsed
        · intro parsable
          exact marked parsable.1

end Plaintext

/-- A Uri-Path option. -/
def framedPath : FramedOption oscorePacketOptionsField where
  head := ⟨0xB1, [], [], by decide, by decide, by decide, by decide⟩
  value := [0x61]
  value_length := by decide

/-- The plaintext of a request with one option and a payload. -/
theorem parsesInside_path :
    ParsesInside [1, 0xB1, 0x61, 0xFF, 0x64] := by
  refine (parsesInside_iff [1, 0xB1, 0x61, 0xFF, 0x64] (by decide)).mpr ?_
  refine ⟨by decide, Or.inl (Or.inr ⟨[], framedPath, ?_, ?_, ?_, ?_⟩)⟩
  · decide
  · exact ⟨[0xFF, 0x64], rfl⟩
  · decide
  · decide

/-- Of the plaintext of a GET request without options and payload, the parser
reads a second byte. -/
theorem codeOnly_readsBehind :
    ¬ ∀ plaintext : Bytes, plaintext.length ≤ maxPlaintextLen →
      ParsesInside plaintext := by
  intro claimed
  rcases claimed [1] (by decide) with ⟨_, failed⟩ | ⟨_, parsed, _⟩
  · cases failed
  · cases parsed

end UoscoreUedhoc.Oscore
