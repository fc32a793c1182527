import Mathlib.Data.List.TakeWhile
import UoscoreUedhoc.Oscore.OptionFraming

/-!
# Safety of the outer parser

`buf2coap` never checks an option against the end of the option bytes, and it
writes the token and the option count only where bytes follow.  So it is safe
on the inputs whose options are complete and fit into the option array, and on
those it rejects.
-/

namespace UoscoreUedhoc.Oscore

open UoscoreUedhoc
open UoscoreUedhoc.Coap

/-! ## The property -/

/-- The options, with heads in front of their values, are the bytes in front of
`after`. -/
inductive Tiles (after : Bytes) : Bytes → List OCoapOption → Prop
  | nil : Tiles after [] []
  | cons {head : EncodedHead} {value region : Bytes} {option : OCoapOption}
      {options : List OCoapOption}
      (length : value.length = option.len.toNat)
      (pointer :
        option.value =
          if option.len = 0 then [] else value ++ (region ++ after))
      (rest : Tiles after region options) :
      Tiles after (head.bytes ++ (value ++ region)) (option :: options)

/-- The parts of an input: four bytes, a token, the bytes up to the payload
marker, and the marker with the payload. -/
structure PacketParts (input : Bytes) where
  first : UInt8
  code : UInt8
  midHigh : UInt8
  midLow : UInt8
  token : Bytes
  region : Bytes
  after : Bytes
  split :
    input = first :: code :: midHigh :: midLow :: (token ++ (region ++ after))
  unmarked : 0xFF ∉ region
  marked : after = [] ∨ ∃ payload, after = 0xFF :: payload

/-- Every field of the packet is written, with slices of the input. -/
def Filled (input : Bytes) (packet : OCoapPacket) : Prop :=
  ∃ (parts : PacketParts input) (options : List OCoapOption),
    packet.header =
        parseHeader parts.first parts.code parts.midHigh parts.midLow ∧
      parts.token.length = packet.header.tkl.toNat ∧
      packet.token =
        some (if parts.token = [] then []
          else parts.token ++ (parts.region ++ parts.after)) ∧
      packet.options = some options ∧
      Tiles parts.after parts.region options ∧
      packet.payload = parts.after.tail ∧
      packet.payloadLen = parts.after.tail.length

/-- `buf2coap` returns an error, or `ok` and a packet made of slices. -/
def ParsesSafely (input : Bytes) : Prop :=
  (∃ code, buf2coap input = fail code) ∨
    ∃ packet, buf2coap input = .ok packet ∧ Filled input packet

/-! ## The condition -/

/-- The bytes are a sequence of complete options, not more than `slots`. -/
def Framed (len : ExtensionDecoder) (slots : Nat) (region : Bytes) : Prop :=
  ∃ options : List (FramedOption len),
    options.length ≤ slots ∧ framedBytes options = region

/-- Behind complete options and before the end of the option bytes, a first
byte has a reserved nibble. -/
def MeetsReserved (len : ExtensionDecoder) (slots left : Nat) (p : Bytes) :
    Prop :=
  ∃ (options : List (FramedOption len)) (rest : Bytes),
    options.length ≤ slots ∧ framedBytes options ++ rest = p ∧
      (framedBytes options).length < left ∧ ReservedHead rest

/-- The same, for the reserved nibble to which this error code belongs. -/
def MeetsRefused (code : Err) (len : ExtensionDecoder) (slots left : Nat)
    (p : Bytes) : Prop :=
  ∃ (options : List (FramedOption len)) (rest : Bytes),
    options.length ≤ slots ∧ framedBytes options ++ rest = p ∧
      (framedBytes options).length < left ∧ RefusedHead code rest

/-- The input ends in its header, has a token length above 8, or has bytes
behind its token that are complete options up to the payload marker or up to a
reserved nibble. -/
def ParsableInput : Bytes → Prop
  | first :: _ :: _ :: _ :: rest =>
      let tkl := (first &&& 0x0F).toNat
      let tmp := rest.drop tkl
      let region := tmp.takeWhile (· ≠ 0xFF)
      rest ≠ [] ∧
        (8 < tkl ∨
          (tkl < rest.length ∧
            (Framed buf2optionsLen maxOptionCount region ∨
              MeetsReserved buf2optionsLen maxOptionCount
                (region.length % 2 ^ 16) tmp)))
  | _ => True

/-! ## The option loop -/

section OptionsWalk

variable {delta len : ExtensionDecoder}

theorem tiles_parsedOptions (number : UInt8)
    (options : List (FramedOption len)) (after : Bytes) :
    Tiles after (framedBytes options)
      (parsedOptions delta number options after) := by
  induction options generalizing number with
  | nil =>
      exact .nil
  | cons option options inductionHypothesis =>
      rw [framedBytes_cons, FramedOption.bytes, List.append_assoc]
      exact
        .cons option.value_length rfl (inductionHypothesis _)

/-- Options that tile the bytes in front of `after` are complete. -/
theorem framed_of_tiles {after region : Bytes} {options : List OCoapOption}
    (tiles : Tiles after region options) {slots left : Nat} {number : UInt8}
    (walked :
      optionsWalk delta len slots left number (region ++ after) =
        .ok options) :
    Framed len slots region := by
  induction tiles generalizing slots left number with
  | nil =>
      exact ⟨[], Nat.zero_le _, rfl⟩
  | @cons head value region option options length pointer rest
      inductionHypothesis =>
      cases slots with
      | zero =>
          obtain ⟨_, none⟩ := (optionsWalk_no_slot_eq_ok delta).mp walked
          cases none
      | succ slots =>
          rcases (optionsWalk_succ_eq_ok delta).mp walked with
            ⟨_, none⟩ | ⟨_, found, behind, others, same, walkedRest, isOptions⟩
          · cases none
          · obtain ⟨isOption, rfl⟩ := List.cons.inj isOptions
            rw [List.append_assoc, List.append_assoc] at same
            obtain ⟨rfl, rfl⟩ := EncodedHead.bytes_append_inj same
            have valueLength : value.length = (len.len head).toNat := by
              rw [length, isOption]
            rw [← valueLength, List.drop_left] at walkedRest
            obtain ⟨framed, fits, bytes⟩ := inductionHypothesis walkedRest
            refine
              ⟨⟨head, value, valueLength⟩ :: framed, ?_, ?_⟩
            · rw [List.length_cons]
              omega
            · rw [framedBytes_cons, bytes, FramedOption.bytes,
                List.append_assoc]

/-- The loop returns the error code of the reserved nibble that it meets. -/
theorem optionsWalk_eq_fail {slots left : Nat} {number : UInt8} {p : Bytes}
    {code : Err} (inside : left ≤ p.length) :
    optionsWalk delta len slots left number p = .error (.err code) ↔
      MeetsRefused code len slots left p := by
  constructor
  · intro failed
    induction slots generalizing left number p with
    | zero =>
        unfold optionsWalk at failed
        split at failed
        · rename_i positive
          rcases outcome_bind_eq_error.mp failed with
            reserved | ⟨_, _, impossible⟩
          · exact
              ⟨[], p, Nat.le_refl _, rfl, positive,
                optionHead_eq_fail.mp reserved⟩
          · cases impossible
        · cases failed
    | succ slots inductionHypothesis =>
        unfold optionsWalk at failed
        split at failed
        · rename_i positive
          rcases outcome_bind_eq_error.mp failed with
            reserved | ⟨head, read, failed⟩
          · exact
              ⟨[], p, Nat.zero_le _, rfl, positive,
                optionHead_eq_fail.mp reserved⟩
          · obtain ⟨encoded, same, headerLen, _, lenIs⟩ :=
              optionHead_eq_ok.mp read
            rcases outcome_bind_eq_error.mp failed with
              failed | ⟨_, _, impossible⟩
            · -- the loop goes on, so the value lies inside the bytes left
              have continues :
                  encoded.bytes.length + head.len.toNat < left := by
                by_contra ends
                rw [headerLen, headBytes_toNat,
                  Nat.sub_eq_zero_of_le (Nat.le_of_not_lt ends)] at failed
                cases slots with
                | zero =>
                    cases failed
                | succ slots =>
                    cases failed
              rw [same, List.length_append] at inside
              have valueLength :
                  (head.rest.take head.len.toNat).length =
                    (len.len encoded).toNat := by
                rw [← lenIs, List.length_take]
                omega
              rw [headerLen, headBytes_toNat] at failed
              obtain ⟨options, rest, fits, bytes, before, reserved⟩ :=
                inductionHypothesis (by rw [List.length_drop]; omega) failed
              refine
                ⟨⟨encoded, head.rest.take head.len.toNat, valueLength⟩ ::
                  options, rest, ?_, ?_, ?_, reserved⟩
              · rw [List.length_cons]
                omega
              · rw [framedBytes_cons, FramedOption.bytes, List.append_assoc,
                  List.append_assoc, bytes, List.take_append_drop, ← same]
              · rw [framedBytes_cons, FramedOption.bytes, List.length_append,
                  List.length_append, valueLength, ← lenIs]
                dsimp only
                omega
            · cases impossible
        · cases failed
  · intro meets
    obtain ⟨options, rest, fits, rfl, before, reserved⟩ := meets
    have refused := (@optionHead_eq_fail delta len rest code).mpr reserved
    rw [optionsWalk_append delta options fits (Nat.le_of_lt before)]
    have positive : 0 < left - (framedBytes options).length :=
      Nat.sub_pos_of_lt before
    cases slots - options.length with
    | zero =>
        rw [optionsWalk, if_pos positive, refused]
        rfl
    | succ slots =>
        rw [optionsWalk, if_pos positive, refused]
        rfl

theorem meetsReserved_iff {slots left : Nat} {p : Bytes} :
    MeetsReserved len slots left p ↔
      ∃ code, MeetsRefused code len slots left p := by
  unfold MeetsReserved MeetsRefused
  simp only [reservedHead_iff]
  constructor
  · intro meets
    obtain ⟨options, rest, fits, bytes, before, code, refused⟩ := meets
    exact ⟨code, options, rest, fits, bytes, before, refused⟩
  · intro meets
    obtain ⟨code, options, rest, fits, bytes, before, refused⟩ := meets
    exact ⟨options, rest, fits, bytes, before, code, refused⟩

/-- The loop returns an error where it meets a reserved nibble. -/
theorem optionsWalk_eq_err {slots left : Nat} {number : UInt8} {p : Bytes}
    (inside : left ≤ p.length) :
    (∃ code, optionsWalk delta len slots left number p = .error (.err code)) ↔
      MeetsReserved len slots left p := by
  rw [meetsReserved_iff]
  exact exists_congr fun code => optionsWalk_eq_fail inside

end OptionsWalk

/-! ## The packet -/

theorem buf2coap_of_token {first code midHigh midLow : UInt8}
    {token tmp : Bytes}
    (tokenLength :
      token.length = (parseHeader first code midHigh midLow).tkl.toNat)
    (short : token.length ≤ 8) (more : tmp ≠ []) :
    buf2coap (first :: code :: midHigh :: midLow :: (token ++ tmp)) = (do
      let options ←
        optionsWalk buf2optionsDelta buf2optionsLen maxOptionCount
          ((tmp.takeWhile (· ≠ 0xFF)).length % 2 ^ 16) 0 tmp
      .ok
        { header := parseHeader first code midHigh midLow
          token := some (if token = [] then [] else token ++ tmp)
          options := some options
          payloadLen := (tmp.dropWhile (· ≠ 0xFF)).tail.length
          payload := (tmp.dropWhile (· ≠ 0xFF)).tail }) := by
  have nonempty : token ++ tmp ≠ [] := by
    simp [more]
  have tokenFits : ¬ 8 < (parseHeader first code midHigh midLow).tkl := by
    rw [UInt8.lt_iff_toNat_lt, ← tokenLength]
    simpa using short
  have available :
      ¬ (token ++ tmp).length <
        (parseHeader first code midHigh midLow).tkl.toNat := by
    rw [← tokenLength, List.length_append]
    omega
  have dropped :
      (token ++ tmp).drop (parseHeader first code midHigh midLow).tkl.toNat =
        tmp := by
    rw [← tokenLength, List.drop_left]
  have noToken :
      (parseHeader first code midHigh midLow).tkl = 0 ↔ token = [] := by
    rw [← List.length_eq_zero_iff, tokenLength, ← UInt8.toNat_inj]
    rfl
  have walk :=
    parseOptions_eq_walk buf2optionsDelta buf2optionsLen
      (show maxOptionCount * maxOptionBytes < 2 ^ 16 by decide) tmp
      (UInt16.ofNat (tmp.takeWhile (· ≠ 0xFF)).length)
  rw [UInt16.toNat_ofNat'] at walk
  unfold buf2coap
  simp only [if_neg nonempty, if_neg tokenFits, if_neg available, dropped,
    if_neg more, noToken, List.span_eq_takeWhile_dropWhile]
  rw [← walk]
  rfl

/-- The input ends with its token. -/
theorem buf2coap_token_only {first code midHigh midLow : UInt8}
    {token : Bytes}
    (tokenLength :
      token.length = (parseHeader first code midHigh midLow).tkl.toNat)
    (short : token.length ≤ 8) :
    ∃ packet,
      buf2coap (first :: code :: midHigh :: midLow :: token) = .ok packet ∧
        packet.options = none := by
  have tokenFits : ¬ 8 < (parseHeader first code midHigh midLow).tkl := by
    rw [UInt8.lt_iff_toNat_lt, ← tokenLength]
    simpa using short
  have dropped :
      token.drop (parseHeader first code midHigh midLow).tkl.toNat = [] := by
    rw [← tokenLength, List.drop_length]
  unfold buf2coap
  by_cases empty : token = []
  · simp only [if_pos empty]
    exact ⟨_, rfl, rfl⟩
  · simp only [if_neg empty, if_neg tokenFits, ← tokenLength,
      Nat.lt_irrefl, if_false, List.drop_length, if_true]
    exact ⟨_, rfl, rfl⟩

/-! ## The marker -/

section Marker

variable {region after : Bytes}

theorem takeWhile_region (unmarked : 0xFF ∉ region)
    (marked : after = [] ∨ ∃ payload, after = 0xFF :: payload) :
    (region ++ after).takeWhile (· ≠ 0xFF) = region ∧
      (region ++ after).dropWhile (· ≠ 0xFF) = after := by
  have passes : ∀ byte ∈ region, decide (byte ≠ 0xFF) = true := by
    intro byte member
    rw [decide_eq_true_iff]
    intro same
    exact unmarked (same ▸ member)
  rw [List.takeWhile_append_of_pos passes, List.dropWhile_append_of_pos passes]
  rcases marked with rfl | ⟨payload, rfl⟩
  · simp
  · simp

theorem takeWhile_unmarked (tmp : Bytes) :
    0xFF ∉ tmp.takeWhile (· ≠ 0xFF) ∧
      (tmp.dropWhile (· ≠ 0xFF) = [] ∨
        ∃ payload, tmp.dropWhile (· ≠ 0xFF) = 0xFF :: payload) := by
  constructor
  · intro member
    have passed := List.mem_takeWhile_imp member
    simp at passed
  · cases rest : tmp.dropWhile (· ≠ 0xFF) with
    | nil =>
        exact Or.inl rfl
    | cons byte payload =>
        have stopped := List.head?_dropWhile_not (· ≠ (0xFF : UInt8)) tmp
        rw [rest] at stopped
        have isMarker : byte = 0xFF := by
          simpa using stopped
        rw [isMarker]
        exact Or.inr ⟨payload, rfl⟩

end Marker

/-! ## Exactly the parsable inputs are parsed safely -/

/-- The input has bytes behind its token. -/
theorem parsesSafely_of_token {first code midHigh midLow : UInt8}
    {token tmp : Bytes}
    (tokenLength :
      token.length = (parseHeader first code midHigh midLow).tkl.toNat)
    (short : token.length ≤ 8) (more : tmp ≠ []) :
    ParsesSafely (first :: code :: midHigh :: midLow :: (token ++ tmp)) ↔
      Framed buf2optionsLen maxOptionCount (tmp.takeWhile (· ≠ 0xFF)) ∨
        MeetsReserved buf2optionsLen maxOptionCount
          ((tmp.takeWhile (· ≠ 0xFF)).length % 2 ^ 16) tmp := by
  have parsed := buf2coap_of_token tokenLength short more
  have inside :
      (tmp.takeWhile (· ≠ 0xFF)).length % 2 ^ 16 ≤ tmp.length := by
    have shorter := (List.takeWhile_prefix (· ≠ 0xFF) (l := tmp)).length_le
    omega
  have split := List.takeWhile_append_dropWhile (p := (· ≠ 0xFF)) (l := tmp)
  constructor
  · intro safe
    rcases safe with ⟨code, failed⟩ | ⟨packet, succeeded, filled⟩
    · rw [parsed] at failed
      rcases outcome_bind_eq_error.mp failed with
        failed | ⟨_, _, impossible⟩
      · exact Or.inr ((optionsWalk_eq_err inside).mp ⟨code, failed⟩)
      · cases impossible
    · rw [parsed] at succeeded
      obtain ⟨options, walked, same⟩ := outcome_bind_eq_ok.mp succeeded
      obtain ⟨parts, written, headerIs, length, _, optionsIs, tiles, _⟩ :=
        filled
      rw [Except.ok.injEq] at same
      subst same
      rw [Option.some.injEq] at optionsIs
      subst optionsIs
      have parted := parts.split
      simp only [List.cons.injEq] at parted
      obtain ⟨_, _, _, _, parted⟩ := parted
      dsimp only at length
      obtain ⟨_, tmpIs⟩ :=
        List.append_inj parted (tokenLength.trans length.symm)
      obtain ⟨regionIs, _⟩ := takeWhile_region parts.unmarked parts.marked
      rw [tmpIs, regionIs]
      rw [tmpIs] at walked
      exact Or.inl (framed_of_tiles tiles walked)
  · intro parsable
    rcases parsable with framed | reserved
    · obtain ⟨options, fits, bytes⟩ := framed
      have bound := framedBytes_length_le options
      have small :
          (tmp.takeWhile (· ≠ 0xFF)).length % 2 ^ 16 =
            (tmp.takeWhile (· ≠ 0xFF)).length := by
        rw [Nat.mod_eq_of_lt]
        rw [← bytes]
        unfold maxOptionCount at fits
        unfold maxOptionBytes at bound
        omega
      have walked :=
        optionsWalk_framed buf2optionsDelta options fits 0
          (tmp.dropWhile (· ≠ 0xFF))
      rw [bytes, split] at walked
      obtain ⟨unmarked, marked⟩ := takeWhile_unmarked tmp
      rw [small, walked, outcome_ok_bind] at parsed
      refine Or.inr ⟨_, parsed, ?_⟩
      · refine
          ⟨⟨first, code, midHigh, midLow, token, _, _, by rw [split],
            unmarked, marked⟩, _, rfl, tokenLength, ?_, rfl, ?_, rfl, rfl⟩
        · exact congrArg (fun rest =>
            some (if token = [] then [] else token ++ rest)) split.symm
        · have tiles :=
            @tiles_parsedOptions buf2optionsDelta _ 0 options
              (tmp.dropWhile (· ≠ 0xFF))
          rwa [bytes] at tiles
    · obtain ⟨code, failed⟩ := (optionsWalk_eq_err inside).mpr reserved
      refine Or.inl ⟨code, ?_⟩
      rw [parsed, failed]
      rfl

theorem not_parsesSafely_of_unwritten {input : Bytes} {packet : OCoapPacket}
    (parsed : buf2coap input = .ok packet)
    (unwritten : packet.options = none) : ¬ ParsesSafely input := by
  intro safe
  rcases safe with ⟨code, failed⟩ | ⟨other, otherParsed, filled⟩
  · rw [parsed] at failed
    cases failed
  · rw [parsed, Except.ok.injEq] at otherParsed
    subst otherParsed
    obtain ⟨_, _, _, _, _, optionsIs, _⟩ := filled
    rw [unwritten] at optionsIs
    cases optionsIs

theorem parsesSafely_iff_parsableInput (input : Bytes) :
    ParsesSafely input ↔ ParsableInput input := by
  match input with
  | [] | [_] | [_, _] | [_, _, _] =>
      exact iff_of_true (Or.inl ⟨_, rfl⟩) trivial
  | first :: code :: midHigh :: midLow :: rest =>
      have tklIs :
          (parseHeader first code midHigh midLow).tkl = first &&& 0x0F := rfl
      unfold ParsableInput
      dsimp only
      by_cases empty : rest = []
      · have parsed :
            buf2coap (first :: code :: midHigh :: midLow :: rest) =
              .ok
                { header := parseHeader first code midHigh midLow
                  token := none, options := none
                  payloadLen := 0, payload := [] } := by
          rw [empty]
          rfl
        apply iff_of_false (not_parsesSafely_of_unwritten parsed rfl)
        intro parsable
        exact parsable.1 empty
      · by_cases long : 8 < (first &&& 0x0F).toNat
        · apply iff_of_true
          · refine Or.inl ⟨.oscoreInpktInvalidTkl, ?_⟩
            have tokenLong :
                8 < (parseHeader first code midHigh midLow).tkl := by
              rw [tklIs, UInt8.lt_iff_toNat_lt]
              simpa using long
            unfold buf2coap
            simp only [if_neg empty, if_pos tokenLong]
          · exact ⟨empty, Or.inl long⟩
        · have tokenFits :
              ¬ 8 < (parseHeader first code midHigh midLow).tkl := by
            rw [tklIs, UInt8.lt_iff_toNat_lt]
            simpa using long
          rcases Nat.lt_trichotomy rest.length (first &&& 0x0F).toNat with
            cut | ends | goesOn
          · apply iff_of_false
            · intro safe
              have overrun :
                  buf2coap (first :: code :: midHigh :: midLow :: rest) =
                    undefinedBehaviour := by
                rw [tklIs] at tokenFits
                unfold buf2coap
                simp only [if_neg empty, tklIs, if_neg tokenFits, if_pos cut]
              rcases safe with ⟨_, failed⟩ | ⟨_, parsed, _⟩
              · rw [overrun] at failed
                cases failed
              · rw [overrun] at parsed
                cases parsed
            · intro parsable
              rcases parsable.2 with tooLong | ⟨available, _⟩
              · exact long tooLong
              · omega
          · obtain ⟨packet, parsed, unwritten⟩ :=
              @buf2coap_token_only first code midHigh midLow rest ends
                (by omega)
            apply iff_of_false (not_parsesSafely_of_unwritten parsed unwritten)
            intro parsable
            rcases parsable.2 with tooLong | ⟨available, _⟩
            · exact long tooLong
            · omega
          · have tokenLength :
                (rest.take (first &&& 0x0F).toNat).length =
                  (parseHeader first code midHigh midLow).tkl.toNat := by
              rw [List.length_take, tklIs]
              omega
            have more : rest.drop (first &&& 0x0F).toNat ≠ [] := by
              rw [ne_eq, List.drop_eq_nil_iff]
              omega
            have safe :=
              parsesSafely_of_token tokenLength
                (by rw [tokenLength, tklIs]; omega) more
            rw [List.take_append_drop] at safe
            rw [safe]
            simp only [ne_eq, empty, not_false_eq_true, long, goesOn,
              false_or, true_and]

/-- An option that is cut off by the end of the input. -/
theorem truncatedOption_unsafe :
    ¬ ∀ input : Bytes, ParsesSafely input := by
  intro safe
  have parsed :
      buf2coap [0x40, 2, 0, 1, 0x12, 0x61] =
        .ok
          { header := parseHeader 0x40 2 0 1
            token := some []
            options := some
              [ { delta := 1, len := 2, value := [0x61], optionNumber := 1 } ]
            payloadLen := 0
            payload := [] } :=
    rfl
  rcases safe [0x40, 2, 0, 1, 0x12, 0x61] with
    ⟨_, failed⟩ | ⟨packet, otherParsed, filled⟩
  · rw [parsed] at failed
    cases failed
  · rw [parsed, Except.ok.injEq] at otherParsed
    subst otherParsed
    obtain ⟨⟨_, _, _, _, _, region, after, _, _, _⟩, _, _, _, _, optionsIs,
      tiles, _⟩ := filled
    rw [Option.some.injEq] at optionsIs
    subst optionsIs
    dsimp only at tiles
    cases tiles with
    | cons length pointer rest =>
        have cut := congrArg List.length pointer
        simp at cut length
        omega

end UoscoreUedhoc.Oscore
