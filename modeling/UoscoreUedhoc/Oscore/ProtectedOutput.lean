import UoscoreUedhoc.Oscore.CutPackets
import UoscoreUedhoc.Oscore.OutputStores
import UoscoreUedhoc.Oscore.SealedPackets

/-!
# The output of `coap2oscore`

An OSCORE packet goes through `coap2buf`, and an Empty ACK is copied with its
own length in the place of the capacity.  So the output buffer is respected
where the steps up to the packet are defined and the buffer takes the header
and the payload marker, or the copy.
-/

namespace UoscoreUedhoc.Oscore

open UoscoreUedhoc
open UoscoreUedhoc.Stores
open Update

/-! ## The stores of `coap2oscore` -/

/-- `coap2oscore` with the capacity `outLen`, as the stores into its output
buffer and the new value of `*buf_oscore_len`.  `residue` is what the buffer of
the plaintext held before. -/
def coap2oscoreStores (platform : Platform) (residue input : Bytes)
    (outLen : Nat) (c : Context) : Update StoreLog Nat := do
  let packet ← .lift (buf2coap input)
  if isMessagingLayer packet then do
    let copied ← .lift (memcpyS input.length input input.length)
    storeBytes 0 copied
    pure copied.length
  else do
    let oscorePacket ← .lift (oscorePacketOver platform residue packet c)
    coap2bufStores oscorePacket outLen

/-! ## The condition -/

/-- The content of the OSCORE packet's options, with zeros for the value of the
OSCORE option. -/
def outerContents (options : List OCoapOption) (valueLen : UInt8) :
    List OptionContent :=
  insertContent
    ⟨coapOptionOscore, valueLen, List.replicate valueLen.toNat 0⟩
    ((notClassE options).map OCoapOption.content)

/-- The OSCORE packet is converted up to the end of its options, and these end
at the end of the buffer. -/
def OuterMarkerOutside (packet : OCoapPacket) (options : List OCoapOption)
    (valueLen : UInt8) (outLen : Nat) : Prop :=
  HasValues (notClassE options) ∧
    maximalOptionsLen (notClassE options) + (5 + valueLen.toNat) ≤
      maxCoapOptionsLen ∧
    outLen =
      headerLen + packet.header.tkl.toNat +
        (outerWritten 0 (outerContents options valueLen)).length

/-- The output buffer takes the header of the OSCORE packet and, where it is
reached, the payload marker, and no value is missing that is copied. -/
structure OuterSuffices (packet : OCoapPacket) (options : List OCoapOption)
    (valueLen : UInt8) (outLen : Nat) : Prop where
  count : (notClassE options).length < maxOptionCount
  header : headerLen ≤ outLen
  marker : ¬ OuterMarkerOutside packet options valueLen outLen
  values :
    headerLen + packet.header.tkl.toNat ≤ outLen →
      maximalOptionsLen (notClassE options) + (5 + valueLen.toNat) ≤
        maxCoapOptionsLen →
      HasValues (notClassE options)

/-- The input is parsed without reading or storing behind a buffer, the output
buffer takes a copied packet, and of a packet that is encrypted all options are
there and the output buffer takes what is not checked against it. -/
def OutputSuffices (platform : Platform) (input : Bytes) (outLen : Nat)
    (c : Context) : Prop :=
  ¬ CutInput input ∧ ¬ MoreOptions input ∧
    ∀ packet, buf2coap input = .ok packet →
      if isMessagingLayer packet then
        input.length ≤ outLen
      else
        ∃ options, packet.options = some options ∧
          PlaintextDefined packet options ∧
          (Sealed platform packet options c →
            OuterSuffices packet options (optionValueLen packet c) outLen)

/-! ## The OSCORE packet -/

section OscorePacket

variable {packet oscorePacket : OCoapPacket} {options : List OCoapOption}
  {value ciphertext : Bytes}

/-- The bytes of options take as many as their lengths say. -/
theorem outerWritten_length_congr {contents others : List OptionContent}
    (numberSum : UInt8)
    (same :
      contents.map (fun content =>
          (content.number, content.len, content.value.length)) =
        others.map fun content =>
          (content.number, content.len, content.value.length)) :
    (outerWritten numberSum contents).length =
      (outerWritten numberSum others).length := by
  induction contents generalizing others numberSum with
  | nil =>
      rw [List.map_nil, eq_comm, List.map_eq_nil_iff] at same
      rw [same]
  | cons content contents inductionHypothesis =>
      cases others with
      | nil =>
          cases same
      | cons other others =>
          obtain ⟨sameFirst, sameRest⟩ := List.cons.inj same
          simp only [Prod.mk.injEq] at sameFirst
          obtain ⟨sameNumber, sameLen, sameLength⟩ := sameFirst
          rw [outerWritten, outerWritten, List.length_append,
            List.length_append, List.length_append, List.length_append,
            sameNumber, sameLen, sameLength, inductionHypothesis _ sameRest]

theorem hasValues_pkgOptions_iff {numberSum : UInt8} :
    HasValues (pkgOptions numberSum options) ↔ HasValues options := by
  constructor
  · intro values
    induction options generalizing numberSum with
    | nil =>
        exact values
    | cons option options inductionHypothesis =>
        obtain ⟨hasValue, others⟩ := List.forall_mem_cons.mp values
        exact List.forall_mem_cons.mpr ⟨hasValue, inductionHypothesis others⟩
  · intro values
    exact pkgOptions_hasValues values numberSum

/-- One option among others, in front of the first that is not `kept`. -/
theorem inserted_parts (kept : OCoapOption → Bool) (option : OCoapOption)
    (options : List OCoapOption) :
    (HasValues (options.takeWhile kept ++ option :: options.dropWhile kept) ↔
        option.len.toNat ≤ option.value.length ∧ HasValues options) ∧
      maximalOptionsLen
          (options.takeWhile kept ++ option :: options.dropWhile kept) =
        maximalOptionsLen options + (5 + option.len.toNat) := by
  have whole := @List.takeWhile_append_dropWhile _ kept options
  generalize options.takeWhile kept = front at whole ⊢
  generalize options.dropWhile kept = back at whole ⊢
  subst whole
  constructor
  · unfold HasValues
    rw [List.forall_mem_append, List.forall_mem_cons, List.forall_mem_append]
    exact and_left_comm
  · have behind :
        maximalOptionsLen (option :: back) =
          5 + option.len.toNat + maximalOptionsLen back := by
      unfold maximalOptionsLen
      rw [List.map_cons, List.sum_cons]
    rw [maximalOptionsLen_append, maximalOptionsLen_append, behind]
    omega

/-- The parts of the OSCORE packet that `coap2buf` measures. -/
theorem oscorePkgGenerate_parts (nonempty : ciphertext ≠ [])
    (generated :
      oscorePkgGenerate packet (euOptionsExtract 0 0 0 options).uOptions
        ciphertext (oscoreOption value) = .ok oscorePacket) :
    oscorePacket.header.tkl = packet.header.tkl ∧
      (HasToken packet → HasToken oscorePacket) ∧
      oscorePacket.payloadLen ≠ 0 ∧
      oscorePacket.payloadLen ≤ oscorePacket.payload.length ∧
      oscorePacket.options =
        some
          (pkgOptions 0
            ((euOptionsExtract 0 0 0 options).uOptions.takeWhile
                (fun uOption => uOption.optionNumber ≤ coapOptionOscore) ++
              oscoreOption value ::
                (euOptionsExtract 0 0 0 options).uOptions.dropWhile
                  fun uOption =>
                    uOption.optionNumber ≤ coapOptionOscore)) := by
  unfold oscorePkgGenerate at generated
  split at generated
  · cases generated
  · obtain rfl := Except.ok.inj generated
    refine ⟨rfl, ?_, ?_, Nat.le_refl _, rfl⟩
    · intro hasToken present
      dsimp only at present ⊢
      rw [if_neg]
      · exact hasToken present
      · intro zero
        rw [zero] at present
        exact absurd present (by decide)
    · intro empty
      exact nonempty (List.eq_nil_of_length_eq_zero empty)

/-- The options of the OSCORE packet, measured without its OSCORE option. -/
theorem outerOptions_parts (numbered : Numbered 0 options)
    {valueLen : UInt8} (valueLength : value.length = valueLen.toNat)
    {outer : List OCoapOption}
    (isOuter :
      outer =
        pkgOptions 0
          ((euOptionsExtract 0 0 0 options).uOptions.takeWhile
              (fun uOption => uOption.optionNumber ≤ coapOptionOscore) ++
            oscoreOption value ::
              (euOptionsExtract 0 0 0 options).uOptions.dropWhile
                fun uOption => uOption.optionNumber ≤ coapOptionOscore)) :
    (HasValues outer ↔ HasValues (notClassE options)) ∧
      maximalOptionsLen outer =
        maximalOptionsLen (notClassE options) + (5 + valueLen.toNat) ∧
      (optionsWritten outer).length =
        (outerWritten 0 (outerContents options valueLen)).length := by
  have optionLen : (oscoreOption value).len = valueLen := by
    apply UInt8.toNat_inj.mp
    have bound := valueLen.toNat_lt
    unfold oscoreOption
    rw [UInt8.toNat_ofNat', valueLength]
    omega
  have hasOption :
      (oscoreOption value).len.toNat ≤ (oscoreOption value).value.length := by
    rw [optionLen, ← valueLength]
    exact Nat.le_refl _
  obtain ⟨values, length⟩ :=
    inserted_parts (fun uOption => uOption.optionNumber ≤ coapOptionOscore)
      (oscoreOption value) (euOptionsExtract 0 0 0 options).uOptions
  have taken :
      ((oscoreOption value).value.take valueLen.toNat).length =
        valueLen.toNat := by
    rw [optionLen] at hasOption
    exact List.length_take_of_le hasOption
  have bytes :
      (outerWritten 0
          (insertContent (oscoreOption value).content
            ((euOptionsExtract 0 0 0 options).uOptions.map
              OCoapOption.content))).length =
        (outerWritten 0 (outerContents options valueLen)).length := by
    apply outerWritten_length_congr
    rw [euOptionsExtract_uOptions numbered]
    unfold outerContents insertContent OCoapOption.content
    rw [optionLen]
    simp only [List.map_append, List.map_cons, taken, List.length_replicate]
    rfl
  rw [(euOptionsExtract_eq numbered 0 0).2, hasValues_pkgOptions_iff]
    at values
  rw [(euOptionsExtract_eq numbered 0 0).2, maximalOptionsLen_pkgOptions,
    optionLen] at length
  subst isOuter
  rw [hasValues_pkgOptions_iff, maximalOptionsLen_pkgOptions,
    optionsWritten_inserted, bytes]
  rw [(euOptionsExtract_eq numbered 0 0).2, values, length]
  simp only [hasOption, true_and]

/-- `coap2buf` respects the output buffer with the OSCORE packet. -/
theorem outerPacket_respects_iff {outLen : Nat} (narrow : outLen < 2 ^ 32)
    (numbered : Numbered 0 options) (hasToken : HasToken packet)
    (nonempty : ciphertext ≠ [])
    (count : (notClassE options).length < maxOptionCount)
    {valueLen : UInt8} (valueLength : value.length = valueLen.toNat)
    (generated :
      oscorePkgGenerate packet (euOptionsExtract 0 0 0 options).uOptions
        ciphertext (oscoreOption value) = .ok oscorePacket) :
    RespectsOutput oscorePacket outLen ↔
      OuterSuffices packet options valueLen outLen := by
  obtain ⟨sameTkl, token, present, available, isOptions⟩ :=
    oscorePkgGenerate_parts nonempty generated
  generalize isOuter : pkgOptions 0 _ = outer at isOptions
  obtain ⟨values, maximal, length⟩ :=
    outerOptions_parts numbered valueLength isOuter.symm
  have marker :
      MarkerOutside oscorePacket outLen ↔
        OuterMarkerOutside packet options valueLen outLen := by
    unfold MarkerOutside OuterMarkerOutside
    simp only [isOptions, Option.some.injEq, exists_eq_left', present,
      token hasToken, sameTkl, ne_eq, not_false_eq_true, true_and, values,
      maximal, length]
  rw [respectsOutput_iff (token hasToken) isOptions available narrow, marker,
    sameTkl, maximal, values]
  constructor
  · intro enough
    exact ⟨count, enough.1, enough.2.1, enough.2.2⟩
  · intro enough
    exact ⟨enough.header, enough.marker, enough.values⟩

end OscorePacket

/-! ## Exactly when the output buffer is respected -/

section Coap2Oscore

variable {platform : Platform} {residue input : Bytes} {outLen : Nat}
  {c : Context}

theorem not_staysInside_of_undefined {capacity : Nat}
    {run : Outcome Nat × StoreLog} (stops : run.1 = undefinedBehaviour) :
    ¬ StaysInside capacity run := by
  intro stays
  obtain ⟨_, ⟨_, failed⟩ | ⟨_, done, _⟩⟩ := stays
  · rw [stops] at failed
    cases failed
  · rw [stops] at done
    cases done

theorem staysInside_of_fail (capacity : Nat) (code : Err) :
    StaysInside capacity (fail code, []) :=
  ⟨fun _ member => (nomatch member), Or.inl ⟨code, rfl⟩⟩

/-- The copy of a packet fills the buffer with the packet. -/
theorem copyStores_staysInside_iff :
    StaysInside outLen
        (exec (do
          let copied ← .lift (memcpyS input.length input input.length)
          storeBytes 0 copied
          pure copied.length) []) ↔
      input.length ≤ outLen := by
  have run :
      exec (do
          let copied ← .lift (memcpyS input.length input input.length)
          storeBytes 0 copied
          pure copied.length) [] =
        (.ok input.length, [⟨0, input⟩]) := by
    rw [memcpyS_whole (Nat.le_refl _)]
    rfl
  rw [run]
  constructor
  · intro stays
    have fits := stays.1 _ (List.mem_singleton.mpr rfl)
    unfold Store.InBounds at fits
    rwa [Nat.zero_add] at fits
  · intro fits
    refine ⟨?_, Or.inr ⟨_, rfl, fits⟩⟩
    intro store member
    rw [List.mem_singleton.mp member]
    unfold Store.InBounds
    rwa [Nat.zero_add]

/-- The stores of a packet that is not copied. -/
theorem protectedStores_staysInside_iff (narrow : outLen < 2 ^ 32)
    (total : AeadTotal platform) (fit : IdsFit c)
    (ivShort : c.cc.commonIv.length ≤ nonceLen)
    (room : maxPlaintextLen ≤ residue.length) {packet : OCoapPacket}
    {options : List OCoapOption} (parsed : buf2coap input = .ok packet)
    (isOptions : packet.options = some options) :
    StaysInside outLen
        (exec (do
          let oscorePacket ← .lift (oscorePacketOver platform residue packet c)
          coap2bufStores oscorePacket outLen) []) ↔
      PlaintextDefined packet options ∧
        (Sealed platform packet options c →
          OuterSuffices packet options (optionValueLen packet c) outLen) := by
  rw [exec_lift_bind]
  rcases
    oscorePacketOver_cases total fit ivShort room parsed isOptions with
    ⟨outside, stops⟩ | ⟨plaintextDefined, notSealed, code, failed⟩ |
      ⟨plaintextDefined, isSealed, full, overflow⟩ |
      ⟨plaintextDefined, isSealed, notFull, value, ciphertext, oscorePacket,
        valueLength, nonempty, generated, made⟩
  · rw [stops]
    apply iff_of_false
    · exact not_staysInside_of_undefined rfl
    · exact fun condition => outside condition.1
  · rw [failed]
    apply iff_of_true
    · exact staysInside_of_fail outLen code
    · exact ⟨plaintextDefined, fun isSealed => absurd isSealed notSealed⟩
  · rw [overflow]
    apply iff_of_false
    · exact not_staysInside_of_undefined rfl
    · intro condition
      exact absurd (condition.2 isSealed).count (Nat.not_lt.mpr full)
  · rw [made, andThen_ok]
    simp only [plaintextDefined, isSealed, true_and, true_implies]
    exact
      outerPacket_respects_iff narrow (buf2coap_numbered parsed isOptions)
        (buf2coap_parts parsed isOptions).1 nonempty notFull valueLength
        generated

/-- `coap2oscore` respects its output buffer exactly when the buffer
suffices. -/
theorem coap2oscoreStores_staysInside_iff (narrow : outLen < 2 ^ 32)
    (total : AeadTotal platform) (fit : IdsFit c)
    (ivShort : c.cc.commonIv.length ≤ nonceLen)
    (room : maxPlaintextLen ≤ residue.length) :
    StaysInside outLen
        (exec (coap2oscoreStores platform residue input outLen c) []) ↔
      OutputSuffices platform input outLen c := by
  have stops := @buf2coap_eq_undefined input
  unfold coap2oscoreStores OutputSuffices
  rw [exec_lift_bind]
  cases parsed : buf2coap input with
  | error fault =>
      rw [parsed] at stops
      cases fault with
      | undefinedBehaviour =>
          apply iff_of_false
          · exact not_staysInside_of_undefined rfl
          · intro condition
            rcases stops.mp rfl with cut | more
            · exact condition.1 cut
            · exact condition.2.1 more
      | err code =>
          have readable : ¬ (CutInput input ∨ MoreOptions input) := by
            rw [← stops]
            intro impossible
            cases impossible
          apply iff_of_true
          · exact staysInside_of_fail outLen code
          · refine
              ⟨fun cut => readable (Or.inl cut),
                fun more => readable (Or.inr more), ?_⟩
            intro packet impossible
            cases impossible
  | ok packet =>
      obtain ⟨notCut, notMore⟩ := readable_of_parsed parsed
      simp only [notCut, notMore, not_false_eq_true, true_and,
        Except.ok.injEq, forall_eq', andThen_ok]
      by_cases messaging : isMessagingLayer packet = true
      · rw [if_pos messaging, if_pos messaging]
        exact copyStores_staysInside_iff
      · rw [if_neg messaging, if_neg messaging]
        cases isOptions : packet.options with
        | none =>
            apply iff_of_false
            · apply not_staysInside_of_undefined
              unfold oscorePacketOver
              rw [isOptions]
              rfl
            · intro condition
              obtain ⟨_, impossible, _⟩ := condition
              cases impossible
        | some options =>
            simp only [Option.some.injEq, exists_eq_left']
            exact
              protectedStores_staysInside_iff narrow total fit ivShort room
                parsed isOptions

/-- The stores are those of what `coap2oscore` returns: where it returns `ok`,
they leave its bytes at the front of the buffer and the rest as it was. -/
theorem coap2oscoreStores_of_ok (narrow : outLen < 2 ^ 32) {output : Bytes}
    {after : Context}
    (stays :
      StaysInside outLen
        (exec (coap2oscoreStores platform residue input outLen c) []))
    (done : exec (coap2oscore platform input outLen) c = (.ok output, after)) :
    (exec (coap2oscoreStores platform residue input outLen c) []).1 =
        .ok output.length ∧
      ∀ buffer : Bytes, buffer.length = outLen →
        applied buffer
            (exec (coap2oscoreStores platform residue input outLen c) []).2 =
          output ++ buffer.drop output.length := by
  obtain ⟨packet, parsed, made⟩ := coap2oscore_eq_ok.mp done
  unfold coap2oscoreStores at stays ⊢
  rw [exec_lift_bind, parsed, andThen_ok] at stays ⊢
  by_cases messaging : isMessagingLayer packet = true
  · rw [if_pos messaging] at made stays ⊢
    obtain ⟨fits, isInput, _⟩ := made
    rw [memcpyS_whole (Nat.le_refl _), isInput]
    refine ⟨rfl, ?_⟩
    intro buffer size
    have left :=
      @Consecutive.applied_eq _ [⟨0, input⟩] [] buffer ⟨rfl, trivial⟩
        (by rw [contents_singleton, size]; exact fits)
    rw [List.nil_append, List.nil_append, contents_singleton] at left
    exact left
  · rw [if_neg messaging] at made stays ⊢
    obtain ⟨oscorePacket, isProtected, converted⟩ := made
    have ran := coap2oscorePacket_eq_ok.mpr isProtected
    have made :
        oscorePacketOver platform residue packet c = .ok oscorePacket := by
      rcases @oscorePacketOver_follows platform residue packet c with
        undefinedStep | same
      · rw [ran] at undefinedStep
        cases undefinedStep
      · rw [same, ran]
    rw [exec_lift_bind, made, andThen_ok] at stays ⊢
    exact coap2bufStores_of_ok narrow stays.1 converted

/-- Packet writing respects the output buffer exactly when the header fits and
no payload marker falls on the end of the buffer, and `coap2oscore` does
exactly when the buffer suffices, whatever its plaintext buffer held. -/
theorem outputRespected_iff (packet : OCoapPacket) (outLen : Nat)
    (readable : Readable packet) (narrow : outLen < 2 ^ 32) :
    (RespectsOutput packet outLen ↔
        headerLen ≤ outLen ∧ ¬ MarkerOutside packet outLen) ∧
      ∀ (platform : Platform) (residue input : Bytes) (c : Context),
        AeadTotal platform → IdsFit c → c.cc.commonIv.length ≤ nonceLen →
        maxPlaintextLen ≤ residue.length →
        (StaysInside outLen
            (exec (coap2oscoreStores platform residue input outLen c) []) ↔
          OutputSuffices platform input outLen c) := by
  constructor
  · obtain ⟨options, isOptions, values⟩ := readable.options
    rw [respectsOutput_iff readable.token isOptions readable.payload narrow]
    simp only [values, implies_true, and_true]
  · intro platform residue input c total fit ivShort room
    exact coap2oscoreStores_staysInside_iff narrow total fit ivShort room

end Coap2Oscore

/-! ## Concrete packets -/

/-- A GET request with one byte of payload. -/
def payloadPacket : OCoapPacket where
  header := ⟨1, 0, 0, 1, 0⟩
  token := some []
  options := some []
  payloadLen := 1
  payload := [0x64]

theorem payloadPacket_readable : Readable payloadPacket where
  token present := absurd present (by decide)
  options := ⟨[], rfl, fun _ member => nomatch member⟩
  payload := Nat.le_refl _

theorem outputSuffices_of_parsed {platform : Platform} {input : Bytes}
    {packet : OCoapPacket} {outLen : Nat} {c : Context}
    (parsed : buf2coap input = .ok packet)
    (enough :
      if isMessagingLayer packet then
        input.length ≤ outLen
      else
        ∃ options, packet.options = some options ∧
          PlaintextDefined packet options ∧
          (Sealed platform packet options c →
            OuterSuffices packet options (optionValueLen packet c) outLen)) :
    OutputSuffices platform input outLen c := by
  obtain ⟨notCut, notMore⟩ := readable_of_parsed parsed
  refine ⟨notCut, notMore, ?_⟩
  intro other isOther
  obtain rfl := Except.ok.inj (parsed.symm.trans isOther)
  exact enough

/-- Six bytes take the packet and an Empty ACK, and 64 the protected request of
test vector T1. -/
theorem outputRespected_t1 :
    RespectsOutput payloadPacket 6 ∧
      StaysInside 6
        (exec
          (coap2oscoreStores t1Sealing (List.replicate maxPlaintextLen 0)
            [0x60, 0, 0, 1] 6 t1Client) []) ∧
      StaysInside 64
        (exec
          (coap2oscoreStores t1Sealing (List.replicate maxPlaintextLen 0)
            t1Request 64 t1Client) []) := by
  have fit := t1Client_initialised.idsFit
  have ivShort : t1Client.cc.commonIv.length ≤ nonceLen := by decide
  have room :
      maxPlaintextLen ≤ (List.replicate maxPlaintextLen (0 : UInt8)).length :=
    (List.length_replicate).ge
  refine ⟨?_, ?_, ?_⟩
  · obtain ⟨respects, _⟩ :=
      outputRespected_iff payloadPacket 6 payloadPacket_readable (by decide)
    refine respects.mpr ⟨by decide, ?_⟩
    intro outside
    obtain ⟨_, _, options, isOptions, _, _, full⟩ := outside
    obtain rfl := Option.some.inj isOptions
    exact absurd full (by decide)
  · obtain ⟨_, stays⟩ :=
      outputRespected_iff payloadPacket 6 payloadPacket_readable (by decide)
    refine
      (stays t1Sealing _ [0x60, 0, 0, 1] t1Client t1Sealing_total fit ivShort
        room).mpr ?_
    exact outputSuffices_of_parsed rfl (Nat.le_of_ble_eq_true rfl)
  · obtain ⟨_, stays⟩ :=
      outputRespected_iff payloadPacket 64 payloadPacket_readable (by decide)
    refine
      (stays t1Sealing _ t1Request t1Client t1Sealing_total fit ivShort
        room).mpr ?_
    apply @outputSuffices_of_parsed _ _ t1Packet _ _ rfl
    refine ⟨_, rfl, ?_, ?_⟩
    · intro _
      refine ⟨?_, ?_⟩
      · intro option member
        rw [List.mem_singleton.mp member]
        decide
      · intro _ present
        exact absurd rfl present
    · intro _
      refine ⟨by decide, by decide, ?_, ?_⟩
      · intro outside
        exact absurd outside.2.2 (by decide)
      · intro _ _ option member
        exact nomatch member

/-- With four bytes the marker and the payload come behind the buffer, and
`coap2buf` returns `ok` with six. -/
theorem marker_behindOutput :
    ¬ ((∀ (packet : OCoapPacket) (outLen : Nat), Readable packet →
          outLen < 2 ^ 32 → RespectsOutput packet outLen) ∧
        ∀ (platform : Platform) (residue input : Bytes) (outLen : Nat)
          (c : Context), AeadTotal platform → IdsFit c →
          c.cc.commonIv.length ≤ nonceLen →
          maxPlaintextLen ≤ residue.length → outLen < 2 ^ 32 →
          StaysInside outLen
            (exec (coap2oscoreStores platform residue input outLen c) [])) := by
  intro claimed
  have respects :=
    claimed.1 payloadPacket 4 payloadPacket_readable (by decide)
  have returned :
      (exec (coap2bufStores payloadPacket 4) []).1 = .ok 6 := rfl
  obtain ⟨_, ⟨code, failed⟩ | ⟨length, done, fits⟩⟩ := respects
  · rw [returned] at failed
    cases failed
  · rw [returned] at done
    obtain rfl := Except.ok.inj done
    exact absurd fits (by decide)

end UoscoreUedhoc.Oscore
