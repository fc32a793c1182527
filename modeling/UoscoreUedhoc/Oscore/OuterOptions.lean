import UoscoreUedhoc.Oscore.MessagePackets

/-!
# Which options of a message are sent in the clear

`coap2oscore` decides the class of an option on the 8-bit number that
`buf2options` computes.  So an option of class E may be taken for one that needs
no protection.
-/

namespace UoscoreUedhoc.Oscore

open UoscoreUedhoc
open UoscoreUedhoc.Coap
open Update

/-! ## Protected messages -/

/-- The plaintext has room for few options and a short payload. -/
theorem plaintextSetup_room {packet : OCoapPacket}
    {eOptions : List OCoapOption} {len : Nat} {plaintext : Bytes}
    (done : plaintextSetup packet eOptions len = .ok plaintext) :
    maximalOptionsLen eOptions % 2 ^ 16 ≤ maxEOptions ∧
      packet.payloadLen + 2 ≤ maxPlaintextLen := by
  unfold plaintextSetup at done
  simp only [outcome_bind_eq_ok, checkBufferSize_eq_ok] at done
  obtain ⟨_, room, _, _, optionBytes, _, done⟩ := done
  refine ⟨room, ?_⟩
  split at done
  · rename_i none
    rw [none]
    decide
  · obtain ⟨payload, copied, done⟩ := outcome_bind_eq_ok.mp done
    obtain ⟨_, available, rfl⟩ := memcpyS_eq_ok.mp copied
    split at done
    · cases done
    · rename_i inside
      rw [List.length_take_of_le available, List.length_cons] at inside
      omega

theorem protectedRoom_eq {placed : List PlacedOption}
    {options : List OCoapOption}
    (same :
      placed.map PlacedOption.content = options.map OCoapOption.content) :
    protectedRoom placed = maximalOptionsLen (classE options) := by
  induction placed generalizing options with
  | nil =>
      rw [List.map_nil, eq_comm, List.map_eq_nil_iff] at same
      subst same
      rfl
  | cons first placed inductionHypothesis =>
      cases options with
      | nil =>
          cases same
      | cons option options =>
          obtain ⟨content, rest⟩ := List.cons.inj same
          have others := inductionHypothesis rest
          unfold protectedRoom maximalOptionsLen classE at others ⊢
          rw [List.filter_cons, List.filter_cons, content]
          change
            List.sum (List.map _ (if isClassE option.optionNumber.toUInt16
              then _ else _)) = _
          split
          · simp only [List.map_cons, List.sum_cons, others, content]
            rfl
          · exact others

/-- A message that has been protected: its options as they were read, and the
packet. -/
structure ProtectedMessage (platform : Platform) (message : Message)
    (c after : Context) (capacity : Nat) (output : Bytes)
    (stored : List OCoapOption) (packet oscorePacket : OCoapPacket) :
    Prop where
  walked :
    optionsWalk buf2optionsDelta buf2optionsLen maxOptionCount
        (regionLength message) 0 (bodyBytes message) = .ok stored
  parsed : buf2coap message.bytes = .ok packet
  isPacket :
    packet =
      { header := messageHeader message
        token := some
          (if message.token = [] then []
            else message.token ++ bodyBytes message)
        options := some stored
        payloadLen := ((bodyBytes message).dropWhile (· ≠ 0xFF)).tail.length
        payload := ((bodyBytes message).dropWhile (· ≠ 0xFF)).tail }
  isProtected : Protected platform packet c after oscorePacket
  written : coap2buf oscorePacket capacity = .ok output

theorem coap2oscore_message {platform : Platform} {message : Message}
    {c after : Context} {capacity : Nat} {output : Bytes}
    (notEmpty : message.code ≠ codeEmpty)
    (done :
      exec (coap2oscore platform message.bytes capacity) c =
        (.ok output, after)) :
    ∃ stored packet oscorePacket,
      ProtectedMessage platform message c after capacity output stored packet
        oscorePacket := by
  obtain ⟨packet, parsed, result⟩ := coap2oscore_eq_ok.mp done
  have header := buf2coap_header parsed
  rw [parseHeader_message] at header
  have notCopied : isMessagingLayer packet = false := by
    unfold isMessagingLayer
    rw [header]
    exact decide_eq_false fun copied => notEmpty copied.1
  rw [notCopied] at result
  obtain ⟨oscorePacket, isProtected, written⟩ := result
  obtain ⟨stored, _, _, _, present, _⟩ := isProtected.ok
  obtain ⟨_, isPacket, walked⟩ := parsed_message parsed present
  exact
    ⟨stored, packet, oscorePacket, walked, parsed, isPacket, isProtected,
      written⟩

section ProtectedMessage

variable {platform : Platform} {message : Message} {c after : Context}
  {capacity : Nat} {output : Bytes} {stored : List OCoapOption}
  {packet oscorePacket : OCoapPacket}

theorem ProtectedMessage.isOptions
    (done :
      ProtectedMessage platform message c after capacity output stored packet
        oscorePacket) :
    packet.options = some stored := by
  rw [done.isPacket]

theorem ProtectedMessage.content
    (done :
      ProtectedMessage platform message c after capacity output stored packet
        oscorePacket) :
    (readOptions message).map PlacedOption.content =
      stored.map OCoapOption.content :=
  placedWalk_content done.walked 0

theorem ProtectedMessage.clearContent
    (done :
      ProtectedMessage platform message c after capacity output stored packet
        oscorePacket) :
    (clearOptions message).map PlacedOption.content =
      (notClassE stored).map OCoapOption.content := by
  have filtered :=
    congrArg
      (List.filter fun content : OptionContent =>
        !isClassE content.number.toUInt16)
      done.content
  rw [List.filter_map, List.filter_map] at filtered
  exact filtered

/-- The outer packet shows the options that are not protected. -/
theorem ProtectedMessage.shown
    (done :
      ProtectedMessage platform message c after capacity output stored packet
        oscorePacket) :
    ∃ code value,
      output =
        headerBytes { messageHeader message with code } ++ message.token ++
          outerWritten 0
            (insertContent (oscoreOption value).content
              ((clearOptions message).map PlacedOption.content)) ++
          0xFF :: oscorePacket.payload := by
  obtain ⟨options, value, isOptions, _, front⟩ :=
    done.isProtected.front done.written
  have same := done.isOptions
  rw [isOptions, Option.some.injEq] at same
  subst same
  have token : tokenWritten packet = message.token := by
    rw [done.isPacket]
    exact tokenWritten_message message options
  have header : packet.header = messageHeader message := by
    rw [done.isPacket]
  rw [token, header, euOptionsExtract_uOptions
    (buf2coap_numbered done.parsed isOptions), ← done.clearContent] at front
  exact ⟨_, value, front⟩

/-- There is little room for protected options, and the options end soon behind
the region. -/
theorem ProtectedMessage.room
    (done :
      ProtectedMessage platform message c after capacity output stored packet
        oscorePacket) :
    protectedRoom (readOptions message) ≤ 30 ∧
      ((bodyBytes message).dropWhile (· ≠ 0xFF)).length ≤ 127 := by
  obtain ⟨options, plaintext, _, _, isOptions, _, setup, _⟩ :=
    done.isProtected
  have same := done.isOptions
  rw [isOptions, Option.some.injEq] at same
  subst same
  obtain ⟨room, payloadRoom⟩ := plaintextSetup_room setup
  rw [(euOptionsExtract_eq (buf2coap_numbered done.parsed isOptions) 0 0).1,
    maximalOptionsLen_pkgOptions] at room
  constructor
  · have few := optionsWalk_length_le done.walked
    have bounded : maximalOptionsLen (classE options) < 2 ^ 16 := by
      have bound := maximalOptionsLen_le (classE options)
      have fewer : (classE options).length ≤ options.length :=
        List.length_filter_le _ _
      unfold maxOptionCount at few
      unfold maxOptionBytes at bound
      omega
    rw [Nat.mod_eq_of_lt bounded] at room
    rw [protectedRoom_eq done.content]
    exact room
  · rw [done.isPacket] at payloadRoom
    dsimp only at payloadRoom
    rw [List.length_tail] at payloadRoom
    unfold maxPlaintextLen at payloadRoom
    omega

end ProtectedMessage

/-! ## The options in the clear -/

/-- Each option that is read has a value of at most 255 bytes, and if it gets a
number outside class E it has one. -/
def ReadsClasses (message : Message) : Prop :=
  ∀ placed ∈ messagePlaces 0 0 0 message.options,
    placed.place < regionLength message →
      placed.option.value.length ≤ 255 ∧
        (isClassE placed.codeNumber.toUInt16 = false →
          placed.isClassE = false)

instance (message : Message) : Decidable (ReadsClasses message) :=
  inferInstanceAs
    (Decidable
      (∀ placed ∈ messagePlaces 0 0 0 message.options,
        placed.place < regionLength message →
          placed.option.value.length ≤ 255 ∧
            (isClassE placed.codeNumber.toUInt16 = false →
              placed.isClassE = false)))

/-- The option is one of the message that need not be protected. -/
def IsUnprotectedOf (message : Message) (option : PlacedOption) : Prop :=
  ∃ placed ∈ messagePlaces 0 0 0 message.options,
    placed.place = option.place ∧
      placed.option.value = option.content.value ∧ placed.isClassE = false

/-- Besides the OSCORE option the packet shows those options of the message
that `coap2oscore` does not protect, and all of them need no protection. -/
def ShowsOnlyUnprotected (message : Message) (output : Bytes) : Prop :=
  (∃ code value ciphertext,
      output =
        headerBytes { messageHeader message with code } ++ message.token ++
          outerWritten 0
            (insertContent (oscoreOption value).content
              ((clearOptions message).map PlacedOption.content)) ++
          0xFF :: ciphertext) ∧
    ∀ option ∈ clearOptions message, IsUnprotectedOf message option

section Clear

variable {message : Message}

theorem readOptions_eq {stored : List OCoapOption}
    (walked :
      optionsWalk buf2optionsDelta buf2optionsLen maxOptionCount
          (regionLength message) 0 (bodyBytes message) = .ok stored)
    (short :
      ∀ placed ∈ messagePlaces 0 0 0 message.options,
        placed.place < regionLength message →
          placed.option.value.length < 256) :
    readOptions message =
      ((messagePlaces 0 0 0 message.options).filter fun placed =>
        placed.place < regionLength message).map MessagePlace.read := by
  have ends := regionLength_le message
  exact
    placedWalk_message (fun option _ => Nat.zero_le option.number)
      message.ascending (by omega) short walked

/-- With short options, each option in the clear is one of the message. -/
theorem mem_clearOptions {stored : List OCoapOption}
    (walked :
      optionsWalk buf2optionsDelta buf2optionsLen maxOptionCount
          (regionLength message) 0 (bodyBytes message) = .ok stored)
    (short :
      ∀ placed ∈ messagePlaces 0 0 0 message.options,
        placed.place < regionLength message →
          placed.option.value.length < 256) {option : PlacedOption} :
    option ∈ clearOptions message ↔
      ∃ placed ∈ messagePlaces 0 0 0 message.options,
        placed.place < regionLength message ∧
          isClassE placed.codeNumber.toUInt16 = false ∧
          placed.read = option := by
  unfold clearOptions
  rw [readOptions_eq walked short, List.mem_filter, List.mem_map]
  constructor
  · intro clear
    obtain ⟨⟨placed, member, rfl⟩, isClear⟩ := clear
    obtain ⟨isOption, below⟩ := List.mem_filter.mp member
    exact
      ⟨placed, isOption, of_decide_eq_true below,
        Bool.not_eq_true' _ ▸ isClear, rfl⟩
  · intro described
    obtain ⟨placed, isOption, below, isClear, rfl⟩ := described
    refine ⟨⟨placed, List.mem_filter.mpr ⟨isOption, ?_⟩, rfl⟩, ?_⟩
    · exact decide_eq_true below
    · exact Bool.not_eq_true' _ ▸ isClear

end Clear

/-- Only options that need no protection are in the clear if the options that
are read get numbers of their class; and only then, unless the bytes in front of
the first `0xFF` are more than their 16-bit count. -/
theorem clearOptions_unprotected_iff (platform : Platform) (message : Message)
    (c after : Context) (capacity : Nat) (output : Bytes)
    (notEmpty : message.code ≠ codeEmpty)
    (done :
      exec (coap2oscore platform message.bytes capacity) c =
        (.ok output, after)) :
    (ReadsClasses message → ShowsOnlyUnprotected message output) ∧
      (((bodyBytes message).takeWhile (· ≠ 0xFF)).length < 2 ^ 16 →
        ShowsOnlyUnprotected message output → ReadsClasses message) := by
  obtain ⟨stored, packet, oscorePacket, isProtected⟩ :=
    coap2oscore_message notEmpty done
  obtain ⟨code, value, shown⟩ := isProtected.shown
  constructor
  · intro reads
    refine ⟨⟨code, value, oscorePacket.payload, shown⟩, ?_⟩
    intro option member
    have short :
        ∀ placed ∈ messagePlaces 0 0 0 message.options,
          placed.place < regionLength message →
            placed.option.value.length < 256 :=
      fun placed isOption below =>
        Nat.lt_succ_of_le (reads placed isOption below).1
    obtain ⟨placed, isOption, below, isClear, rfl⟩ :=
      (mem_clearOptions isProtected.walked short).mp member
    exact
      ⟨placed, isOption, rfl, rfl, (reads placed isOption below).2 isClear⟩
  · intro counted unprotectedOnly
    have region :
        regionLength message =
          ((bodyBytes message).takeWhile (· ≠ 0xFF)).length :=
      Nat.mod_eq_of_lt counted
    have short :
        ∀ placed ∈ messagePlaces 0 0 0 message.options,
          placed.place < regionLength message →
            placed.option.value.length < 256 := by
      intro placed isOption below
      by_contra long
      obtain ⟨room, behind⟩ := isProtected.room
      have total :=
        congrArg List.length
          (@List.takeWhile_append_dropWhile _ (· ≠ 0xFF) (bodyBytes message))
      rw [List.length_append] at total
      have enough :
          0 + (optionBytes (Coap.encodeOptions 0 message.options)).length ≤
            regionLength message + 127 := by
        have body :
            (optionBytes (Coap.encodeOptions 0 message.options)).length ≤
              (bodyBytes message).length := by
          rw [bodyBytes, List.length_append]
          exact Nat.le_add_right _ _
        omega
      obtain ⟨clear, member, isClear, misplaced⟩ :=
        @clearOption_misplaced message.options maxOptionCount 0 0 0
          (regionLength message) 30 message.payloadBytes stored
          (fun option _ => Nat.zero_le option.number) message.ascending
          ⟨placed, isOption, below, not_lt.mp long⟩ enough (Nat.le_refl _)
          isProtected.walked room
      have isShown : clear ∈ clearOptions message :=
        List.mem_filter.mpr ⟨member, Bool.not_eq_true' _ ▸ isClear⟩
      obtain ⟨other, isOther, same, _⟩ := unprotectedOnly.2 clear isShown
      exact misplaced other isOther same
    intro placed isOption below
    refine ⟨Nat.le_of_lt_succ (short placed isOption below), ?_⟩
    intro isClear
    have isShown :=
      (mem_clearOptions isProtected.walked short).mpr
        ⟨placed, isOption, below, isClear, rfl⟩
    obtain ⟨other, isOther, same, _, isUnprotected⟩ :=
      unprotectedOnly.2 placed.read isShown
    rw [← messagePlaces_inj isOther isOption same]
    exact isUnprotected

/-- A request for the path `tv1` on the host `a`. -/
def hostMessage : Message where
  type := 0
  code := 1
  mid := 1
  token := []
  options :=
    [⟨3, [0x61], hostNumber_lt, letter_length_lt⟩,
      ⟨11, [0x74, 0x76, 0x31], pathNumber_lt, pathValue_length_lt⟩]
  payload := []
  type_lt := confirmable_type_lt
  token_length_le := noToken_length_le
  ascending := by decide
  empty := by
    intro isEmpty
    cases isEmpty

theorem clearOptions_unprotected_t1 :
    ShowsOnlyUnprotected hostMessage
      [0x40, 2, 0, 1, 0x31, 0x61, 0x62, 9, 0, 0xFF, 0xAE, 0x8A, 0x2A, 3, 0x20,
        0xF0, 0xF5, 6, 0x31, 0x7C, 0xBD, 0x46, 0xF4] :=
  (clearOptions_unprotected_iff t1Platform hostMessage t1Client
      (exec (coap2oscore t1Platform hostMessage.bytes 64) t1Client).2 64 _
      (by decide) (by decide +kernel)).1
    (by decide)

/-- A request with the option 29, which is of class E. -/
def unknownMessage : Message :=
  getMessage 29 [0x61] (by decide) letter_length_lt

/-- The call of `aead` for the rest of that request. -/
def unknownAeadRecords : List AeadRecord :=
  [ aeadRecord t1ClientKey [] [0]
      [0x46, 0x22, 0xD4, 0xDD, 0x6D, 0x94, 0x41, 0x68, 0xEE, 0xFB, 0x54, 0x98,
        0x7C]
      [1]
      [0xAE, 0x6D, 0xF0, 0x3D, 0x93, 0x15, 0xCD, 0xC6, 0x28] ]

def unknownPlatform : Platform :=
  .ofRecords t1HkdfRecords unknownAeadRecords (by decide)

/-- The value of the option 29 is sent as that of a Uri-Host option. -/
theorem unknownOption_sentInClear :
    ¬ ∀ (platform : Platform) (message : Message) (c after : Context)
        (capacity : Nat) (output : Bytes), message.code ≠ codeEmpty →
        exec (coap2oscore platform message.bytes capacity) c =
          (.ok output, after) →
        ShowsOnlyUnprotected message output := by
  intro claimed
  have shows :=
    claimed unknownPlatform unknownMessage t1Client
      (exec (coap2oscore unknownPlatform unknownMessage.bytes 64) t1Client).2
      64
      [0x40, 2, 0, 1, 0x31, 0x61, 0x62, 9, 0, 0xFF, 0xAE, 0x6D, 0xF0, 0x3D,
        0x93, 0x15, 0xCD, 0xC6, 0x28]
      (by decide) (by decide +kernel)
  have shown :
      { place := 0, content := { number := 3, len := 1, value := [0x61] } } ∈
        clearOptions unknownMessage := by
    decide
  obtain ⟨placed, member, _, _, isUnprotected⟩ := shows.2 _ shown
  rw [show messagePlaces 0 0 0 unknownMessage.options =
      [⟨0, 1, ⟨29, [0x61], by decide, by decide⟩⟩] from rfl,
    List.mem_singleton] at member
  rw [member] at isUnprotected
  exact absurd isUnprotected (by decide)

end UoscoreUedhoc.Oscore
