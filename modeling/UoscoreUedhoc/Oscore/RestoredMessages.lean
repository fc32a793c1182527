import UoscoreUedhoc.Oscore.OptionValue
import UoscoreUedhoc.Oscore.OuterOptions
import UoscoreUedhoc.Oscore.RestoredOptions

/-!
# Messages that are restored

A protected message is parsed to its outer options and its ciphertext, and with
the plaintext these are made into the message again.
-/

namespace UoscoreUedhoc.Oscore

open UoscoreUedhoc
open UoscoreUedhoc.Coap
open UoscoreUedhoc.CursorMerge
open Update

/-! ## The header of a protected message -/

/-- A message with another code has the other three bytes of its header. -/
theorem headerBytes_withCode (message : Message) (code : UInt8) :
    headerBytes { messageHeader message with code } =
      [message.firstByte, code, (message.mid >>> 8).toUInt8,
        message.mid.toUInt8] :=
  congrArg (fun bytes : Bytes => bytes.set 1 code) (headerBytes_message message)

theorem parseHeader_withCode (message : Message) (code : UInt8) :
    parseHeader message.firstByte code (message.mid >>> 8).toUInt8
        message.mid.toUInt8 =
      { messageHeader message with code } :=
  congrArg (fun header : OCoapHeader => { header with code })
    (parseHeader_message message)

/-! ## The packet that arrives -/

/-- The outer options in front of the ciphertext are found again. -/
theorem buf2coap_written {message : Message} {code : UInt8}
    {options : List OCoapOption} {ciphertext : Bytes}
    (numbered : Numbered 0 options) (values : HasValues options)
    (few : options.length ≤ maxOptionCount)
    (lengths : ∀ option ∈ options, option.len.toNat < 13)
    (unmarked : 0xFF ∉ optionsWritten options) (some : ciphertext ≠ []) :
    ∃ arrived stored,
      buf2coap
          (headerBytes { messageHeader message with code } ++ message.token ++
            optionsWritten options ++ 0xFF :: ciphertext) = .ok arrived ∧
        arrived.header = { messageHeader message with code } ∧
        HasToken arrived ∧ tokenWritten arrived = message.token ∧
        arrived.options = Option.some stored ∧
        stored.map OCoapOption.content = options.map OCoapOption.content ∧
        HasValues stored ∧ arrived.payload = ciphertext ∧
        arrived.payloadLen = ciphertext.length := by
  have marked : markedPayload ciphertext = 0xFF :: ciphertext :=
    if_neg some
  obtain ⟨stored, walked, contents, storedValues⟩ :=
    @writtenOptions_walked buf2optionsDelta buf2optionsLen options
      maxOptionCount ciphertext buf2optionsDelta_readsWritten
      (fun option member =>
        shortLength_read _ option.delta (lengths option member))
      values numbered few (by decide) (Or.inl unmarked)
  obtain ⟨_, payload⟩ :=
    @unmarked_region (optionsWritten options) ciphertext (Or.inl unmarked)
  rw [marked] at walked payload
  have parsed :=
    @buf2coap_of_token message.firstByte code (message.mid >>> 8).toUInt8
      message.mid.toUInt8 message.token
      (optionsWritten options ++ 0xFF :: ciphertext)
      (by rw [parseHeader_withCode]; exact (messageHeader_tkl message).symm)
      message.token_length_le (by simp)
  rw [walked, outcome_ok_bind, payload, parseHeader_withCode] at parsed
  have bytes :
      headerBytes { messageHeader message with code } ++ message.token ++
          optionsWritten options ++ 0xFF :: ciphertext =
        message.firstByte :: code :: (message.mid >>> 8).toUInt8 ::
          message.mid.toUInt8 ::
            (message.token ++ (optionsWritten options ++ 0xFF :: ciphertext)) := by
    rw [headerBytes_withCode]
    simp only [List.cons_append, List.nil_append, List.append_assoc]
  obtain ⟨hasToken, token⟩ :=
    @tokenWritten_append
      { header := { messageHeader message with code }
        token :=
          Option.some
            (if message.token = [] then []
              else
                message.token ++
                  (optionsWritten options ++ 0xFF :: ciphertext))
        options := Option.some stored
        payloadLen := ciphertext.length
        payload := ciphertext }
      message.token (optionsWritten options ++ 0xFF :: ciphertext)
      (messageHeader_tkl message) rfl
  rw [bytes]
  exact
    ⟨_, stored, parsed, rfl, hasToken, token, rfl, contents, storedValues, rfl,
      rfl⟩

/-! ## The parts of a protected message -/

/-- The outer options of a message without options that come behind the OSCORE
option. -/
def sentOptions (stored : List OCoapOption) (value : Bytes) :
    List OCoapOption :=
  pkgOptions 0
    ((euOptionsExtract 0 0 0 stored).uOptions ++ [oscoreOption value])

/-- The code of the outer packet. -/
def outerCode (packet : OCoapPacket) : UInt8 :=
  if isRequest packet then codeReqPost else codeRespChanged

/-- What `coap2oscore` makes of a message that comes through. -/
structure ProtectedParts (platform : Platform) (message : Message)
    (c after : Context) (output : Bytes) (stored : List OCoapOption)
    (value plaintext ciphertext : Bytes) : Prop where
  reads : ReadsMessage message stored
  valued :
    exec (optionValue platform (messagePacket message stored) stored) c =
      (.ok value, after)
  setup :
    plaintextSetup (messagePacket message stored)
        (euOptionsExtract 0 0 0 stored).eOptions
        (neededPlaintextLen (messagePacket message stored)
          (euOptionsExtract 0 0 0 stored).eOptions) = .ok plaintext
  short : plaintext.length ≤ maxPlaintextLen
  encrypted : plaintextEncrypt platform after plaintext = .ok ciphertext
  few : (sentOptions stored value).length ≤ maxOptionCount
  values : HasValues (sentOptions stored value)
  written :
    output =
      headerBytes
            { messageHeader message with
              code := outerCode (messagePacket message stored) } ++
          message.token ++ optionsWritten (sentOptions stored value) ++
        0xFF :: ciphertext

/-- Where no option comes behind it, the OSCORE option is the last one. -/
theorem oscorePkgGenerate_last {packet oscorePacket : OCoapPacket}
    {uOptions : List OCoapOption} {ciphertext : Bytes} {option : OCoapOption}
    (below : ∀ uOption ∈ uOptions, uOption.optionNumber < coapOptionOscore)
    (done :
      oscorePkgGenerate packet uOptions ciphertext option =
        .ok oscorePacket) :
    uOptions.length + 1 ≤ maxOptionCount ∧
      oscorePacket =
        { header := { packet.header with code := outerCode packet }
          token := if packet.header.tkl = 0 then some [] else packet.token
          options := some (pkgOptions 0 (uOptions ++ [option]))
          payloadLen := ciphertext.length
          payload := ciphertext } := by
  have notAfter :
      ∀ uOption ∈ uOptions,
        decide (uOption.optionNumber ≤ coapOptionOscore) = true :=
    fun uOption member =>
      decide_eq_true (UInt8.le_of_lt (below uOption member))
  have front := List.takeWhile_eq_self_iff.mpr notAfter
  have back := List.dropWhile_eq_nil_iff.mpr notAfter
  unfold oscorePkgGenerate at done
  split at done
  · cases done
  · rename_i room
    dsimp only at done
    rw [front, back, Except.ok.injEq] at done
    exact ⟨not_lt.mp room, done.symm⟩

theorem pkgOptions_length (numberSum : UInt8) (options : List OCoapOption) :
    (pkgOptions numberSum options).length = options.length := by
  have same := congrArg List.length (pkgOptions_content numberSum options)
  rwa [List.length_map, List.length_map] at same

section Parts

variable {platform : Platform} {message : Message} {c after : Context}
  {capacity : Nat} {output : Bytes}

theorem ComesThrough.protected (through : ComesThrough message)
    (notEmpty : message.code ≠ codeEmpty)
    (done :
      exec (coap2oscore platform message.bytes capacity) c =
        (.ok output, after)) :
    ∃ stored value plaintext ciphertext,
      ProtectedParts platform message c after output stored value plaintext
        ciphertext := by
  obtain ⟨stored, packet, oscorePacket, isProtected⟩ :=
    coap2oscore_message notEmpty done
  have reads := through.reads isProtected.walked
  have written := isProtected.written
  have nonempty := isProtected.isProtected.payload_ne_nil
  obtain ⟨options, plaintext, value, ciphertext, isOptions, short, setup,
    valued, encrypted, generated⟩ := isProtected.isProtected
  have same := isProtected.isOptions
  rw [isOptions, Option.some.injEq] at same
  subst same
  have isPacket : packet = messagePacket message options :=
    isProtected.isPacket
  subst isPacket
  have uOptions := euOptionsExtract_uOptions reads.numbered 0 0
  have below :
      ∀ uOption ∈ (euOptionsExtract 0 0 0 options).uOptions,
        uOption.optionNumber < coapOptionOscore := by
    intro uOption member
    have content :
        uOption.content ∈
          (notClassE options).map OCoapOption.content := by
      rw [← uOptions]
      exact List.mem_map_of_mem member
    obtain ⟨option, notE, sameContent⟩ := List.mem_map.mp content
    have sameNumber := congrArg OptionContent.number sameContent
    change option.optionNumber = uOption.optionNumber at sameNumber
    rw [← sameNumber]
    exact (reads.outer through option notE).1
  obtain ⟨few, rfl⟩ := oscorePkgGenerate_last below generated
  obtain ⟨outer, isOuter, _, values, _, _, _, isOutput⟩ :=
    coap2buf_eq_ok.mp written
  have sameOuter := Option.some.inj isOuter
  subst sameOuter
  obtain ⟨inner, innerLen⟩ := reads.inner
  have counted :
      plaintextLen (euOptionsExtract 0 0 0 options).eOptionsLen
          (messagePacket message options).payloadLen =
        neededPlaintextLen (messagePacket message options)
          (euOptionsExtract 0 0 0 options).eOptions := by
    obtain ⟨_, payloadRoom⟩ := plaintextSetup_room setup
    have bound := (euOptionsExtract 0 0 0 options).eOptionsLen.toNat_lt
    unfold maxPlaintextLen at payloadRoom
    rw [plaintextLen_eq, neededPlaintextLen, inner, through.counted, innerLen]
    unfold UoscoreUedhoc.Oscore.payloadRoom
    split
    · omega
    · omega
  rw [counted] at setup short
  have some : ciphertext.length ≠ 0 := by
    intro empty
    exact nonempty (List.eq_nil_of_length_eq_zero empty)
  refine
    ⟨options, value, plaintext, ciphertext, reads, valued, setup, ?_,
      encrypted, ?_, values, ?_⟩
  · rw [plaintextSetup_length setup]
    exact short
  · rw [sentOptions, pkgOptions_length, List.length_append,
      List.length_singleton]
    exact few
  · rw [isOutput, packetWritten, tokenWritten_ite, tokenWritten_message,
      payloadWritten, if_neg some, List.take_length]
    rfl

end Parts

/-! ## The outer options -/

section Outer

variable {message : Message} {stored : List OCoapOption} {value : Bytes}

theorem sentOptions_content (reads : ReadsMessage message stored) :
    (sentOptions stored value).map OCoapOption.content =
      (notClassE stored).map OCoapOption.content ++
        [(oscoreOption value).content] := by
  rw [sentOptions, pkgOptions_content, List.map_append,
    euOptionsExtract_uOptions reads.numbered, List.map_singleton]

/-- An outer option is short, not behind the OSCORE option, and has no byte that
is taken for the payload marker. -/
def IsOuter (content : OptionContent) : Prop :=
  content.len.toNat < 13 ∧ content.number.toNat ≤ 9 ∧ 0xFF ∉ content.value

theorem ReadsMessage.isOuter (reads : ReadsMessage message stored)
    (through : ComesThrough message) (short : value.length < 13)
    (unmarked : 0xFF ∉ value) :
    ∀ content ∈
        (notClassE stored).map OCoapOption.content ++
          [(oscoreOption value).content],
      IsOuter content := by
  intro content member
  rcases List.mem_append.mp member with inMessage | isOscore
  · obtain ⟨option, notE, rfl⟩ := List.mem_map.mp inMessage
    obtain ⟨below, clean⟩ := reads.outer through option notE
    have length := reads.len_lt through option (List.mem_filter.mp notE).1
    rw [UInt8.lt_iff_toNat_lt] at below
    exact ⟨length, Nat.le_of_lt below, clean⟩
  · rw [List.mem_singleton.mp isOscore]
    have len : (UInt8.ofNat value.length).toNat = value.length :=
      UInt8.toNat_ofNat_of_lt' (by
        change _ < 256
        omega)
    refine ⟨?_, Nat.le_refl 9, ?_⟩
    · change (UInt8.ofNat value.length).toNat < 13
      rw [len]
      exact short
    · change 0xFF ∉ value.take (UInt8.ofNat value.length).toNat
      rw [len, List.take_length]
      exact unmarked

theorem sentOptions_unmarked (reads : ReadsMessage message stored)
    (through : ComesThrough message) (short : value.length < 13)
    (unmarked : 0xFF ∉ value) :
    (∀ option ∈ sentOptions stored value, option.len.toNat < 13) ∧
      0xFF ∉ optionsWritten (sentOptions stored value) := by
  have contents := @sentOptions_content message stored value reads
  have outer := reads.isOuter through short unmarked
  rw [← contents, List.forall_mem_map] at outer
  have sameBefore :
      ((euOptionsExtract 0 0 0 stored).uOptions ++
          [oscoreOption value]).map OCoapOption.content =
        (notClassE stored).map OCoapOption.content ++
          [(oscoreOption value).content] := by
    rw [← contents, sentOptions, pkgOptions_content]
  have ascending :
      ((euOptionsExtract 0 0 0 stored).uOptions ++
        [oscoreOption value]).Pairwise fun option later =>
          option.optionNumber ≤ later.optionNumber := by
    have sorted :
        ((notClassE stored ++ [oscoreOption value]).map
            OCoapOption.content).Pairwise fun content later =>
          content.number ≤ later.number := by
      rw [List.pairwise_map, List.pairwise_append]
      refine
        ⟨(reads.ascending through).filter _, List.pairwise_singleton _ _, ?_⟩
      intro option notE last isLast
      rw [List.mem_singleton.mp isLast]
      exact UInt8.le_of_lt (reads.outer through option notE).1
    rw [List.map_append, List.map_singleton, ← sameBefore,
      List.pairwise_map] at sorted
    exact sorted
  have deltas :=
    @pkgOptions_delta_le 0 _ 9 (fun option _ => UInt8.zero_le) ascending (by
      intro option member
      have content := List.mem_map_of_mem (f := OCoapOption.content) member
      rw [sameBefore, ← contents] at content
      obtain ⟨other, isOuter, same⟩ := List.mem_map.mp content
      have number := (outer other isOuter).2.1
      rw [same] at number
      exact number)
  change ∀ option ∈ sentOptions stored value, _ at deltas
  refine ⟨fun option member => (outer option member).1, ?_⟩
  rw [marker_not_mem_optionsWritten]
  · intro option member
    obtain ⟨len, _, clean⟩ := outer option member
    have delta := deltas option member
    refine ⟨?_, ?_, clean⟩
    · intro same
      rw [same] at delta
      exact absurd delta (by decide)
    · intro same
      change option.len.toNat < 13 at len
      rw [same] at len
      exact absurd len (by decide)
  · intro option member
    have delta := deltas option member
    omega

end Outer

/-! ## The packet that arrives at the other side -/

/-- The packet has the outer options and the ciphertext of a message. -/
structure Arrived (message : Message) (stored : List OCoapOption)
    (value ciphertext : Bytes) (arrived : OCoapPacket) : Prop where
  header :
    arrived.header =
      { messageHeader message with
        code := outerCode (messagePacket message stored) }
  hasToken : HasToken arrived
  token : tokenWritten arrived = message.token
  options : ∃ before oscore, arrived.options = some (before ++ [oscore]) ∧
    oscore.content = (oscoreOption value).content ∧
    before.map OCoapOption.content =
      (notClassE stored).map OCoapOption.content ∧
    HasValues (before ++ [oscore])
  payload : arrived.payload = ciphertext
  payloadLen : arrived.payloadLen = ciphertext.length

section Arrival

variable {platform : Platform} {message : Message} {c after : Context}
  {output : Bytes} {stored : List OCoapOption}
  {value plaintext ciphertext : Bytes}

theorem ProtectedParts.ciphertext_length
    (parts :
      ProtectedParts platform message c after output stored value plaintext
        ciphertext) :
    ciphertext.length = plaintext.length + authTagLen := by
  obtain ⟨_, _, called⟩ := oscoreCoseEncrypt_eq_ok.mp parts.encrypted
  exact platform.aeadEncrypt_length called

theorem ProtectedParts.arrives
    (parts :
      ProtectedParts platform message c after output stored value plaintext
        ciphertext)
    (through : ComesThrough message) (short : value.length < 13)
    (unmarked : 0xFF ∉ value) :
    ∃ arrived, buf2coap output = .ok arrived ∧
      Arrived message stored value ciphertext arrived := by
  obtain ⟨lengths, clean⟩ :=
    sentOptions_unmarked parts.reads through short unmarked
  have some : ciphertext ≠ [] := by
    intro empty
    have length := parts.ciphertext_length
    rw [empty] at length
    unfold authTagLen at length
    simp at length
  obtain ⟨arrived, options, parsed, header, hasToken, token, isOptions,
    contents, values, payload, payloadLen⟩ :=
    @buf2coap_written message (outerCode (messagePacket message stored))
      (sentOptions stored value) ciphertext (pkgOptions_numbered 0 _)
      parts.values parts.few lengths clean some
  rw [← parts.written] at parsed
  rw [sentOptions_content parts.reads] at contents
  obtain ⟨before, last, rfl, isBefore, isLast⟩ :=
    List.map_eq_append_iff.mp contents
  obtain ⟨oscore, rfl, isOscore⟩ := List.map_eq_singleton_iff.mp isLast
  exact
    ⟨arrived, parsed, header, hasToken, token,
      ⟨before, oscore, isOptions, isOscore, isBefore, values⟩, payload,
      payloadLen⟩

end Arrival

/-! ## The message that is delivered -/

theorem parsedAs_length (number : UInt8) (previous : Nat)
    (options : List MessageOption) :
    (parsedAs number previous options).length = options.length := by
  induction options generalizing number previous with
  | nil =>
      rfl
  | cons option options inductionHypothesis =>
      rw [parsedAs, List.length_cons, List.length_cons, inductionHypothesis]

theorem length_le_maximalOptionsLen (options : List OCoapOption) :
    5 * options.length ≤ maximalOptionsLen options := by
  induction options with
  | nil =>
      exact Nat.zero_le _
  | cons option options inductionHypothesis =>
      unfold maximalOptionsLen at inductionHypothesis ⊢
      rw [List.map_cons, List.sum_cons, List.length_cons]
      omega

theorem hasToken_ite {packet : OCoapPacket} (hasToken : HasToken packet)
    (code : UInt8) (options : Option (List OCoapOption)) (payloadLen : Nat)
    (payload : Bytes) :
    HasToken
      { header := { packet.header with code }
        token := if packet.header.tkl = 0 then some [] else packet.token
        options, payloadLen, payload } := by
  intro present
  dsimp only at present ⊢
  have notZero : packet.header.tkl ≠ 0 := by
    intro zero
    rw [zero] at present
    exact absurd present (by decide)
  rw [if_neg notZero]
  exact hasToken present

section Delivered

variable {platform : Platform} {message : Message} {c after : Context}
  {capacity : Nat} {output : Bytes} {stored : List OCoapOption}
  {value plaintext ciphertext : Bytes} {arrived : OCoapPacket}

/-- The plaintext is parsed to the code, the options of class E and the payload
of the message. -/
theorem ProtectedParts.plaintext_parsed
    (parts :
      ProtectedParts platform message c after output stored value plaintext
        ciphertext)
    (through : ComesThrough message) :
    ∃ inner,
      oscoreDecryptedPayloadParser plaintext =
          .ok
            { code := message.code
              eOptions := inner
              payload := message.payload } ∧
        inner.map OCoapOption.content =
          (classE stored).map OCoapOption.content ∧
        HasValues inner := by
  have reads := parts.reads
  have isE := (euOptionsExtract_eq reads.numbered 0 0).1
  have payload :
      (messagePacket message stored).payload.take
          (messagePacket message stored).payloadLen = message.payload := by
    rw [messagePacket]
    dsimp only
    rw [List.take_length, reads.payload]
  have few :
      (euOptionsExtract 0 0 0 stored).eOptions.length ≤
        maxInnerOptionCount := by
    obtain ⟨room, _⟩ := plaintextSetup_room parts.setup
    have fewer : (classE stored).length ≤ stored.length :=
      List.length_filter_le _ _
    have count := congrArg List.length reads.options
    rw [List.length_map, messageOptions, parsedAs_length] at count
    have counted := through.count
    have bound :=
      maximalOptionsLen_le (euOptionsExtract 0 0 0 stored).eOptions
    have least :=
      length_le_maximalOptionsLen (euOptionsExtract 0 0 0 stored).eOptions
    rw [isE, pkgOptions_length] at bound least ⊢
    rw [isE] at room
    unfold maxOptionBytes at bound
    unfold maxOptionCount at counted
    rw [Nat.mod_eq_of_lt (by omega)] at room
    unfold maxEOptions at room
    unfold maxInnerOptionCount
    omega
  obtain ⟨inner, parsed, contents, values⟩ :=
    plaintext_restored few (by rw [isE]; exact pkgOptions_numbered 0 _)
      (by rw [payload, reads.inner.1]; exact through.inner) parts.setup
  rw [payload] at parsed
  rw [isE, pkgOptions_content] at contents
  exact ⟨inner, parsed, contents, values⟩

/-- None of the other outer options has the number of the OSCORE option. -/
theorem ReadsMessage.before_ne_oscore {before : List OCoapOption}
    (reads : ReadsMessage message stored) (through : ComesThrough message)
    (isBefore :
      before.map OCoapOption.content =
        (notClassE stored).map OCoapOption.content) :
    ∀ option ∈ before, option.optionNumber ≠ coapOptionOscore := by
  intro option member same
  have content := List.mem_map_of_mem (f := OCoapOption.content) member
  rw [isBefore] at content
  obtain ⟨other, notE, sameContent⟩ := List.mem_map.mp content
  have below := (reads.outer through other notE).1
  have number := congrArg OptionContent.number sameContent
  change other.optionNumber = option.optionNumber at number
  rw [number, same] at below
  exact absurd below (by decide)

/-- The arrived options are merged to those of the message. -/
theorem Arrived.merged {before inner : List OCoapOption} {oscore : OCoapOption}
    (reads : ReadsMessage message stored) (through : ComesThrough message)
    (isOscore : oscore.content = (oscoreOption value).content)
    (divided : DividedInto stored before inner) :
    optionsFromOscoreReorder (before ++ [oscore]) inner =
      .ok (withDeltas 0 (mergeByKey OCoapOption.optionNumber before inner)) := by
  have ascending := reads.ascending through
  have sorted : ∀ {options others : List OCoapOption},
      options.map OCoapOption.content = others.map OCoapOption.content →
      (others.Pairwise fun option later =>
        option.optionNumber ≤ later.optionNumber) →
      options.Pairwise fun option later =>
        option.optionNumber ≤ later.optionNumber := by
    intro options others same othersAscending
    have contents :
        (others.map OCoapOption.content).Pairwise fun content later =>
          content.number ≤ later.number :=
      List.pairwise_map.mpr othersAscending
    rw [← same, List.pairwise_map] at contents
    exact contents
  have count := congrArg List.length (divided.merged_content ascending)
  rw [List.length_map, List.length_map, mergeByKey_length] at count
  have total := congrArg List.length reads.options
  rw [List.length_map, messageOptions, parsedAs_length] at total
  have few := through.count
  apply optionsFromOscoreReorder_last
  · exact congrArg OptionContent.number isOscore
  · exact reads.before_ne_oscore through divided.isBefore
  · exact sorted divided.isBefore (ascending.filter _)
  · exact sorted divided.isInner (ascending.filter _)
  · intro option member
    have content := List.mem_map_of_mem (f := OCoapOption.content) member
    rw [divided.isInner] at content
    obtain ⟨other, isE, sameContent⟩ := List.mem_map.mp content
    have number := congrArg OptionContent.number sameContent
    change other.optionNumber = option.optionNumber at number
    rw [← number]
    exact (List.mem_filter.mp isE).2
  · omega

/-- The message comes out as it was. -/
theorem Arrived.delivered
    (isArrived : Arrived message stored value ciphertext arrived)
    (parts :
      ProtectedParts platform message c after output stored value plaintext
        ciphertext)
    (through : ComesThrough message)
    (large : message.bytes.length ≤ capacity) :
    deliver plaintext arrived capacity = .ok message.bytes := by
  have reads := parts.reads
  have ascending := reads.ascending through
  obtain ⟨inner, parsed, isInner, innerValues⟩ :=
    parts.plaintext_parsed through
  obtain ⟨before, oscore, isOptions, isOscore, isBefore, values⟩ :=
    isArrived.options
  have divided : DividedInto stored before inner :=
    ⟨isBefore, isInner,
      fun option member => values option (List.mem_append_left _ member),
      innerValues⟩
  have merged := Arrived.merged reads through isOscore divided
  have written :=
    divided.merged_written reads.numbered ascending reads.narrow
  have contents :=
    (withDeltas_content 0
      (mergeByKey OCoapOption.optionNumber before inner)).trans
      (divided.merged_content ascending)
  have mergedValues : HasValues
      (withDeltas 0 (mergeByKey OCoapOption.optionNumber before inner)) := by
    have renumbered :=
      withDeltas_eq_pkgOptions 0
        (mergeByKey OCoapOption.optionNumber before inner)
    change withDeltas 0 _ = _ at renumbered
    rw [renumbered]
    exact pkgOptions_hasValues divided.merged_hasValues 0
  have header :
      { arrived.header with code := message.code } = messageHeader message := by
    rw [isArrived.header]
    rfl
  have same :
      packetWritten (messagePacket message stored) stored = message.bytes := by
    rw [packetWritten_message, reads.written, reads.payload]
    rfl
  unfold deliver oCoapPkgGenerate
  rw [parsed, outcome_ok_bind, isOptions, orUndefined_some, outcome_ok_bind,
    merged, outcome_ok_bind, outcome_ok_bind]
  dsimp only
  rw [coap2buf_eq_ok]
  have bytes :
      packetWritten
          { header := { arrived.header with code := message.code }
            token :=
              if arrived.header.tkl = 0 then some [] else arrived.token
            options :=
              some
                (withDeltas 0
                  (mergeByKey OCoapOption.optionNumber before inner))
            payloadLen := message.payload.length
            payload := message.payload }
          (withDeltas 0 (mergeByKey OCoapOption.optionNumber before inner)) =
        message.bytes := by
    have payload :
        payloadWritten (messagePacket message stored) =
          markedPayload message.payload := by
      rw [payloadWritten_message, reads.payload]
    rw [← same, packetWritten, packetWritten, tokenWritten_ite,
      isArrived.token, tokenWritten_message, written, payload, header]
    exact congrArg _ (payloadWritten_whole rfl)
  refine
    ⟨_, rfl, ?_, mergedValues, hasToken_ite isArrived.hasToken _ _ _ _,
      Nat.le_refl _, ?_, bytes.symm⟩
  · rw [maximalOptionsLen_content contents, reads.room]
    exact through.room
  · rw [bytes]
    exact large

end Delivered

end UoscoreUedhoc.Oscore
