import UoscoreUedhoc.Oscore.Calls
import UoscoreUedhoc.Oscore.OptionFraming
import UoscoreUedhoc.Oscore.PacketWriting

/-!
# The outer packet

What an OSCORE packet shows of the packet it protects: up to the ciphertext it
is a function of the header fields other than the code, of the class of the
code, and of the options that are not of class E.
-/

namespace UoscoreUedhoc.Oscore

open UoscoreUedhoc
open UoscoreUedhoc.Coap
open Update

/-! ## Numbers of parsed options -/

/-- The option numbers are the sums of the deltas. -/
def Numbered : UInt8 → List OCoapOption → Prop
  | _, [] => True
  | number, option :: options =>
      option.optionNumber = number + option.delta.toUInt8 ∧
        Numbered option.optionNumber options

theorem optionsWalk_numbered {delta len : ExtensionDecoder}
    {slots left : Nat} {number : UInt8} {p : Bytes}
    {options : List OCoapOption}
    (walked : optionsWalk delta len slots left number p = .ok options) :
    Numbered number options := by
  induction slots generalizing left number p options with
  | zero =>
      obtain ⟨_, rfl⟩ := (optionsWalk_no_slot_eq_ok delta).mp walked
      trivial
  | succ slots inductionHypothesis =>
      rcases (optionsWalk_succ_eq_ok delta).mp walked with
        ⟨_, rfl⟩ | ⟨_, head, rest, others, _, walkedRest, rfl⟩
      · trivial
      · refine ⟨?_, inductionHypothesis walkedRest⟩
        dsimp only
        rw [UInt8.toUInt8_toUInt16]

theorem optionsWalk_length_le {delta len : ExtensionDecoder}
    {slots left : Nat} {number : UInt8} {p : Bytes}
    {stored : List OCoapOption}
    (walked : optionsWalk delta len slots left number p = .ok stored) :
    stored.length ≤ slots := by
  induction slots generalizing left number p stored with
  | zero =>
      obtain ⟨_, rfl⟩ := (optionsWalk_no_slot_eq_ok delta).mp walked
      exact Nat.le_refl 0
  | succ slots inductionHypothesis =>
      rcases (optionsWalk_succ_eq_ok delta).mp walked with
        ⟨_, rfl⟩ | ⟨_, head, rest, others, _, walkedRest, rfl⟩
      · exact Nat.zero_le _
      · have fewer := inductionHypothesis walkedRest
        rw [List.length_cons]
        omega

/-- The options of a parsed packet are those its option loop stores. -/
theorem buf2coap_walked {input : Bytes} {packet : OCoapPacket}
    {options : List OCoapOption} (parsed : buf2coap input = .ok packet)
    (isOptions : packet.options = some options) :
    ∃ left p,
      optionsWalk buf2optionsDelta buf2optionsLen maxOptionCount left 0 p =
        .ok options := by
  unfold buf2coap at parsed
  split at parsed
  · dsimp only at parsed
    split at parsed
    · cases parsed
      cases isOptions
    · split at parsed
      · cases parsed
      · split at parsed
        · cases parsed
        · split at parsed
          · cases parsed
            cases isOptions
          · obtain ⟨walked, parsedOptions, same⟩ :=
              outcome_bind_eq_ok.mp parsed
            cases same
            cases isOptions
            have walk :=
              parseOptions_eq_walk buf2optionsDelta buf2optionsLen
                (show maxOptionCount * maxOptionBytes < 2 ^ 16 by decide)
            exact ⟨_, _, (walk _ _).symm.trans parsedOptions⟩
  · cases parsed

theorem buf2coap_numbered {input : Bytes} {packet : OCoapPacket}
    {options : List OCoapOption} (parsed : buf2coap input = .ok packet)
    (isOptions : packet.options = some options) : Numbered 0 options := by
  obtain ⟨left, p, walked⟩ := buf2coap_walked parsed isOptions
  exact optionsWalk_numbered walked

theorem buf2coap_length_le {input : Bytes} {packet : OCoapPacket}
    {options : List OCoapOption} (parsed : buf2coap input = .ok packet)
    (isOptions : packet.options = some options) :
    options.length ≤ maxOptionCount := by
  obtain ⟨left, p, walked⟩ := buf2coap_walked parsed isOptions
  exact optionsWalk_length_le walked

/-! ## Options without class E -/

/-- What an option says, apart from its delta. -/
structure OptionContent where
  number : UInt8
  len : UInt8
  value : Bytes
  deriving DecidableEq, Repr

def OCoapOption.content (option : OCoapOption) : OptionContent where
  number := option.optionNumber
  len := option.len
  value := option.value.take option.len.toNat

/-- The options that `is_class_e` rejects. -/
def notClassE (options : List OCoapOption) : List OCoapOption :=
  options.filter fun option => !isClassE option.optionNumber.toUInt16

/-- The options that it accepts. -/
def classE (options : List OCoapOption) : List OCoapOption :=
  options.filter fun option => isClassE option.optionNumber.toUInt16

/-- Each class gets deltas of its own. -/
theorem euOptionsExtract_eq {options : List OCoapOption} {number : UInt8}
    (numbered : Numbered number options) (eDeltaSum uDeltaSum : UInt8) :
    (euOptionsExtract number eDeltaSum uDeltaSum options).eOptions =
        pkgOptions eDeltaSum (classE options) ∧
      (euOptionsExtract number eDeltaSum uDeltaSum options).uOptions =
        pkgOptions uDeltaSum (notClassE options) := by
  induction options generalizing number eDeltaSum uDeltaSum with
  | nil =>
      exact ⟨rfl, rfl⟩
  | cons option options inductionHypothesis =>
      obtain ⟨isNumber, rest⟩ := numbered
      unfold euOptionsExtract classE notClassE
      rw [← isNumber]
      cases isE : isClassE option.optionNumber.toUInt16 with
      | true =>
          simp only [if_true, List.filter_cons, isE, Bool.not_true,
            Bool.false_eq_true, if_false, pkgOptions, List.cons.injEq,
            true_and]
          exact inductionHypothesis rest _ _
      | false =>
          simp only [Bool.false_eq_true, if_false, List.filter_cons, isE,
            Bool.not_false, if_true, pkgOptions, List.cons.injEq, true_and]
          exact inductionHypothesis rest _ _

theorem pkgOptions_content (numberSum : UInt8) (options : List OCoapOption) :
    (pkgOptions numberSum options).map OCoapOption.content =
      options.map OCoapOption.content := by
  induction options generalizing numberSum with
  | nil =>
      rfl
  | cons option options inductionHypothesis =>
      rw [pkgOptions, List.map_cons, List.map_cons, inductionHypothesis]
      rfl

theorem euOptionsExtract_uOptions {options : List OCoapOption}
    {number : UInt8} (numbered : Numbered number options)
    (eDeltaSum uDeltaSum : UInt8) :
    (euOptionsExtract number eDeltaSum uDeltaSum options).uOptions.map
        OCoapOption.content =
      (notClassE options).map OCoapOption.content := by
  rw [(euOptionsExtract_eq numbered eDeltaSum uDeltaSum).2,
    pkgOptions_content]

/-! ## The outer options -/

/-- The bytes of outer options behind those with the delta sum `numberSum`. -/
def outerWritten : UInt8 → List OptionContent → Bytes
  | _, [] => []
  | numberSum, content :: contents =>
      let delta := content.number.toUInt16 - numberSum.toUInt16
      optionHeader
          { delta, len := content.len, value := [], optionNumber := 0 } ++
        content.value ++
          outerWritten (numberSum + delta.toUInt8) contents

theorem optionsWritten_pkgOptions (numberSum : UInt8)
    (options : List OCoapOption) :
    optionsWritten (pkgOptions numberSum options) =
      outerWritten numberSum (options.map OCoapOption.content) := by
  induction options generalizing numberSum with
  | nil =>
      rfl
  | cons option options inductionHypothesis =>
      have rest :=
        inductionHypothesis
          (numberSum +
            (option.optionNumber.toUInt16 - numberSum.toUInt16).toUInt8)
      unfold optionsWritten at rest ⊢
      rw [pkgOptions, List.map_cons, List.flatten_cons, rest, List.map_cons,
        outerWritten]
      rfl

/-- The option with this content goes in front of the first one with a number
above 9. -/
def insertContent (content : OptionContent) (contents : List OptionContent) :
    List OptionContent :=
  contents.takeWhile (fun other => other.number ≤ coapOptionOscore) ++
    content ::
      contents.dropWhile fun other => other.number ≤ coapOptionOscore

/-- The bytes of the U-options with one more option in its place. -/
theorem optionsWritten_inserted (uOptions : List OCoapOption)
    (option : OCoapOption) :
    optionsWritten
        (pkgOptions 0
          (uOptions.takeWhile
              (fun uOption => uOption.optionNumber ≤ coapOptionOscore) ++
            option ::
              uOptions.dropWhile fun uOption =>
                uOption.optionNumber ≤ coapOptionOscore)) =
      outerWritten 0
        (insertContent option.content (uOptions.map OCoapOption.content)) := by
  have commutes :
      (fun uOption : OCoapOption =>
          decide (uOption.optionNumber ≤ coapOptionOscore)) =
        (fun content : OptionContent =>
          decide (content.number ≤ coapOptionOscore)) ∘
            OCoapOption.content :=
    rfl
  rw [optionsWritten_pkgOptions, List.map_append, List.map_cons,
    insertContent, List.takeWhile_map, List.dropWhile_map, commutes]

/-- The ciphertext is not empty, so that its marker is written. -/
theorem Protected.payload_ne_nil {platform : Platform}
    {packet oscorePacket : OCoapPacket} {c after : Context}
    (protectedPacket : Protected platform packet c after oscorePacket) :
    oscorePacket.payload ≠ [] := by
  obtain ⟨_, _, _, called⟩ := protectedPacket.aead_call
  intro empty
  have length := platform.aeadEncrypt_length called
  rw [empty] at length
  unfold authTagLen at length
  simp at length

/-- The token that `oscore_pkg_generate` drops is empty. -/
theorem tokenWritten_ite (packet : OCoapPacket) (code : UInt8)
    (options : Option (List OCoapOption)) (payloadLen : Nat)
    (payload : Bytes) :
    tokenWritten
        { header := { packet.header with code }
          token := if packet.header.tkl = 0 then some [] else packet.token
          options, payloadLen, payload } =
      tokenWritten packet := by
  unfold tokenWritten
  dsimp only
  by_cases present : 0 < packet.header.tkl
  · have notZero : packet.header.tkl ≠ 0 := by
      intro zero
      rw [zero] at present
      exact absurd present (by decide)
    rw [if_pos present, if_pos present, if_neg notZero]
  · rw [if_neg present, if_neg present]

/-- An OSCORE packet in front of its ciphertext. -/
theorem Protected.front {platform : Platform}
    {packet oscorePacket : OCoapPacket} {c after : Context} {capacity : Nat}
    {output : Bytes}
    (protectedPacket : Protected platform packet c after oscorePacket)
    (written : coap2buf oscorePacket capacity = .ok output) :
    ∃ options value,
      packet.options = some options ∧
        exec (optionValue platform packet options) c = (.ok value, after) ∧
        output =
          headerBytes
              { packet.header with
                code := if isRequest packet then codeReqPost
                  else codeRespChanged } ++
            tokenWritten packet ++
            outerWritten 0
              (insertContent (oscoreOption value).content
                ((euOptionsExtract 0 0 0 options).uOptions.map
                  OCoapOption.content)) ++
            0xFF :: oscorePacket.payload := by
  have nonempty := protectedPacket.payload_ne_nil
  obtain ⟨options, plaintext, value, ciphertext, isOptions, _, _, valued, _,
    generated⟩ := protectedPacket
  obtain ⟨outer, isOuter, _, _, _, _, _, rfl⟩ := coap2buf_eq_ok.mp written
  refine ⟨options, value, isOptions, valued, ?_⟩
  unfold oscorePkgGenerate at generated
  split at generated
  · cases generated
  · simp only [Except.ok.injEq] at generated
    subst generated
    simp only [Option.some.injEq] at isOuter
    subst isOuter
    have some : ciphertext.length ≠ 0 := by
      intro empty
      exact nonempty (List.eq_nil_of_length_eq_zero empty)
    rw [packetWritten, payloadWritten, if_neg some, List.take_length,
      optionsWritten_inserted, tokenWritten_ite]

theorem protected_of_parsed {platform : Platform} {input output : Bytes}
    {capacity : Nat} {packet : OCoapPacket} {c after : Context}
    (done :
      exec (coap2oscore platform input capacity) c = (.ok output, after))
    (parsed : buf2coap input = .ok packet)
    (notCopied : isMessagingLayer packet = false) :
    ∃ oscorePacket,
      Protected platform packet c after oscorePacket ∧
        coap2buf oscorePacket capacity = .ok output := by
  obtain ⟨other, otherParsed, result⟩ := coap2oscore_eq_ok.mp done
  rw [parsed, Except.ok.injEq] at otherParsed
  subst otherParsed
  rw [notCopied] at result
  exact result

/-! ## Two packets with the same public parts -/

/-- The option content that is not of class E. -/
def publicOptions (packet : OCoapPacket) : Option (List OptionContent) :=
  packet.options.map fun options =>
    (notClassE options).map OCoapOption.content

/-- The packets agree on all that need not be protected. -/
structure SamePublicParts (first second : OCoapPacket) : Prop where
  ver : first.header.ver = second.header.ver
  type : first.header.type = second.header.type
  tkl : first.header.tkl = second.header.tkl
  mid : first.header.mid = second.header.mid
  token : tokenWritten first = tokenWritten second
  request : isRequest first = isRequest second
  options : publicOptions first = publicOptions second

/-- The OSCORE option of a request does not depend on the request. -/
theorem optionValue_unique {platform : Platform}
    {first second : OCoapPacket}
    {firstOptions secondOptions : List OCoapOption}
    {c firstAfter secondAfter : Context} {firstValue secondValue : Bytes}
    (same : isRequest first = isRequest second)
    (firstValued :
      exec (optionValue platform first firstOptions) c =
        (.ok firstValue, firstAfter))
    (secondValued :
      exec (optionValue platform second secondOptions) c =
        (.ok secondValue, secondAfter)) :
    firstValue = secondValue ∧ firstAfter = secondAfter := by
  rw [optionValue_eq_ok] at firstValued secondValued
  rw [same] at firstValued
  cases request : isRequest second with
  | false =>
      rw [request] at firstValued secondValued
      obtain ⟨rfl, rfl⟩ := firstValued
      obtain ⟨rfl, rfl⟩ := secondValued
      exact ⟨rfl, rfl⟩
  | true =>
      rw [request] at firstValued secondValued
      obtain ⟨_, nonce, created, _, rfl, _, generated⟩ :=
        requestOption_eq_ok.mp firstValued
      obtain ⟨_, otherNonce, otherCreated, _, rfl, _, otherGenerated⟩ :=
        requestOption_eq_ok.mp secondValued
      rw [created, Except.ok.injEq] at otherCreated
      subst otherCreated
      rw [generated, Except.ok.injEq] at otherGenerated
      exact ⟨otherGenerated, rfl⟩

/-- Up to the ciphertext, the output does not depend on the protected parts of
the input, and neither does the context afterwards. -/
theorem outerPacket_independent (platform : Platform)
    (c firstAfter secondAfter : Context)
    (firstInput secondInput firstOutput secondOutput : Bytes)
    (firstCapacity secondCapacity : Nat) (first second : OCoapPacket)
    (firstParsed : buf2coap firstInput = .ok first)
    (secondParsed : buf2coap secondInput = .ok second)
    (firstNotCopied : isMessagingLayer first = false)
    (secondNotCopied : isMessagingLayer second = false)
    (same : SamePublicParts first second)
    (firstDone :
      exec (coap2oscore platform firstInput firstCapacity) c =
        (.ok firstOutput, firstAfter))
    (secondDone :
      exec (coap2oscore platform secondInput secondCapacity) c =
        (.ok secondOutput, secondAfter)) :
    firstAfter = secondAfter ∧
      ∃ firstPacket secondPacket front,
        Protected platform first c firstAfter firstPacket ∧
          Protected platform second c secondAfter secondPacket ∧
          firstOutput = front ++ 0xFF :: firstPacket.payload ∧
          secondOutput = front ++ 0xFF :: secondPacket.payload := by
  obtain ⟨firstPacket, firstProtected, firstWritten⟩ :=
    protected_of_parsed firstDone firstParsed firstNotCopied
  obtain ⟨secondPacket, secondProtected, secondWritten⟩ :=
    protected_of_parsed secondDone secondParsed secondNotCopied
  obtain ⟨firstOptions, firstValue, firstIs, firstValued, firstFront⟩ :=
    firstProtected.front firstWritten
  obtain ⟨secondOptions, secondValue, secondIs, secondValued, secondFront⟩ :=
    secondProtected.front secondWritten
  obtain ⟨rfl, rfl⟩ :=
    optionValue_unique same.request firstValued secondValued
  have contents :
      (euOptionsExtract 0 0 0 firstOptions).uOptions.map
          OCoapOption.content =
        (euOptionsExtract 0 0 0 secondOptions).uOptions.map
          OCoapOption.content := by
    have options := same.options
    unfold publicOptions at options
    rw [firstIs, secondIs, Option.map_some, Option.map_some,
      Option.some.injEq] at options
    rw [euOptionsExtract_uOptions (buf2coap_numbered firstParsed firstIs),
      euOptionsExtract_uOptions (buf2coap_numbered secondParsed secondIs),
      options]
  have header :
      headerBytes
          { first.header with
            code := if isRequest first then codeReqPost
              else codeRespChanged } =
        headerBytes
          { second.header with
            code := if isRequest second then codeReqPost
              else codeRespChanged } := by
    unfold headerBytes
    dsimp only
    rw [same.ver, same.type, same.tkl, same.mid, same.request]
  rw [contents, header, same.token] at firstFront
  exact
    ⟨rfl, firstPacket, secondPacket, _, firstProtected, secondProtected,
      firstFront, secondFront⟩

/-- The calls of `aead` on two requests for one host and port. -/
def hostAeadRecords : List AeadRecord :=
  [ aeadRecord t1ClientKey [] [0]
      [0x46, 0x22, 0xD4, 0xDD, 0x6D, 0x94, 0x41, 0x68, 0xEE, 0xFB, 0x54, 0x98,
        0x7C]
      [1, 0x50, 0x63, 0x74, 0x76, 0x31]
      [0xAE, 0x69, 0x3D, 1, 0x67, 0xDD, 0xEA, 0xEC, 0xAA, 0xEB, 0x98, 0xE8,
        0xC0, 0x77],
    aeadRecord t1ClientKey [] [0]
      [0x46, 0x22, 0xD4, 0xDD, 0x6D, 0x94, 0x41, 0x68, 0xEE, 0xFB, 0x54, 0x98,
        0x7C]
      [2, 0x41, 1, 0x73, 0x74, 0x76, 0x32, 0xFF, 0x48, 0x69]
      [0xAD, 0x78, 0x5F, 6, 0x65, 0x9A, 0x1F, 0x69, 0xF6, 0xEF, 0xB9, 1, 0x0E,
        0x6C, 0xDA, 0x38, 0x41, 0x44] ]

theorem hostAeadRecords_lengths :
    ∀ record ∈ hostAeadRecords,
      record.ciphertext.length =
        record.plaintext.length + record.tagLen := by
  decide

def hostPlatform : Platform :=
  .ofRecords t1HkdfRecords hostAeadRecords hostAeadRecords_lengths

/-- A request with the options Uri-Host, If-None-Match, Uri-Port and Uri-Path,
of which the second and the last are of class E. -/
def hostGetRequest : Bytes :=
  [0x41, 1, 0, 1, 0x7A, 0x31, 0x61, 0x20, 0x21, 0x50, 0x43, 0x74, 0x76, 0x31]

/-- Another one with a payload, an ETag for If-None-Match and another path. -/
def hostPostRequest : Bytes :=
  [0x41, 2, 0, 1, 0x7A, 0x31, 0x61, 0x11, 1, 0x31, 0x50, 0x43, 0x74, 0x76, 0x32,
    0xFF, 0x48, 0x69]

def hostGetPacket : OCoapPacket where
  header := { ver := 1, type := 0, tkl := 1, code := 1, mid := 1 }
  token := some (hostGetRequest.drop 4)
  options :=
    some
      [ { delta := 3, len := 1, value := hostGetRequest.drop 6
          optionNumber := 3 },
        { delta := 2, len := 0, value := [], optionNumber := 5 },
        { delta := 2, len := 1, value := hostGetRequest.drop 9
          optionNumber := 7 },
        { delta := 4, len := 3, value := hostGetRequest.drop 11
          optionNumber := 11 } ]
  payloadLen := 0
  payload := []

def hostPostPacket : OCoapPacket where
  header := { ver := 1, type := 0, tkl := 1, code := 2, mid := 1 }
  token := some (hostPostRequest.drop 4)
  options :=
    some
      [ { delta := 3, len := 1, value := hostPostRequest.drop 6
          optionNumber := 3 },
        { delta := 1, len := 1, value := hostPostRequest.drop 8
          optionNumber := 4 },
        { delta := 3, len := 1, value := hostPostRequest.drop 10
          optionNumber := 7 },
        { delta := 4, len := 3, value := hostPostRequest.drop 12
          optionNumber := 11 } ]
  payloadLen := 2
  payload := [0x48, 0x69]

/-- The client of test vector T1 after a request. -/
def t1ProtectingClient : Context :=
  { t1Client with
    rrc :=
      { t1Client.rrc with
        nonce := t1CommonIv
        aad := aadArray canonicalCbor .oscoreAesCcm16_64_128 [] [0] []
        piv := [0] }
    sc := { t1Client.sc with senderSeqNum := 1 } }

/-- A GET and a POST request that differ in their options of class E and their
payloads, protected with one sequence number. -/
theorem outerPacket_independent_host :
    ∃ firstPacket secondPacket front,
      Protected hostPlatform hostGetPacket t1Client t1ProtectingClient
          firstPacket ∧
        Protected hostPlatform hostPostPacket t1Client t1ProtectingClient
          secondPacket ∧
        [0x41, 2, 0, 1, 0x7A, 0x31, 0x61, 0x41, 0x50, 0x22, 9, 0, 0xFF, 0xAE,
            0x69, 0x3D, 1, 0x67, 0xDD, 0xEA, 0xEC, 0xAA, 0xEB, 0x98, 0xE8,
            0xC0, 0x77] =
          front ++ 0xFF :: firstPacket.payload ∧
        [0x41, 2, 0, 1, 0x7A, 0x31, 0x61, 0x41, 0x50, 0x22, 9, 0, 0xFF, 0xAD,
            0x78, 0x5F, 6, 0x65, 0x9A, 0x1F, 0x69, 0xF6, 0xEF, 0xB9, 1, 0x0E,
            0x6C, 0xDA, 0x38, 0x41, 0x44] =
          front ++ 0xFF :: secondPacket.payload :=
  (outerPacket_independent hostPlatform t1Client t1ProtectingClient
      t1ProtectingClient hostGetRequest hostPostRequest _ _ 64 64
      hostGetPacket hostPostPacket rfl rfl rfl rfl
      ⟨rfl, rfl, rfl, rfl, rfl, rfl, rfl⟩
      (by decide +kernel) (by decide +kernel)).2

end UoscoreUedhoc.Oscore
