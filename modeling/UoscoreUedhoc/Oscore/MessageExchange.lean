import UoscoreUedhoc.Oscore.OptionParsing
import UoscoreUedhoc.Oscore.RestoredMessages
import UoscoreUedhoc.Oscore.System

/-!
# A request and its responses

From `coap2oscore` on one side to `oscore2coap` on the other.  With contexts
from matching parameters, a request comes out on the server as it was when its
options survive the way and its OSCORE option has a value below 13 bytes
without `0xFF`; then so do the responses the server protects.
-/

namespace UoscoreUedhoc.Oscore

open UoscoreUedhoc
open UoscoreUedhoc.Coap
open Update

variable {platform : Platform}

/-! ## Two contexts -/

/-- What one context protects, the other one opens. -/
structure OpensFor (sender receiver : Context) : Prop where
  nonce : receiver.rrc.nonce = sender.rrc.nonce
  aad : receiver.rrc.aad = sender.rrc.aad
  key : receiver.rc.recipientKey = sender.sc.senderKey

section Received

variable {message : Message} {c after : Context} {output : Bytes}
  {stored : List OCoapOption} {value plaintext ciphertext : Bytes}
  {arrived : OCoapPacket}

/-- The other side decrypts the plaintext. -/
theorem ProtectedParts.decrypted {receiver : Context}
    (parts :
      ProtectedParts platform message c after output stored value plaintext
        ciphertext)
    (isArrived : Arrived message stored value ciphertext arrived)
    (inverts : platform.AeadInverts) (opens : OpensFor after receiver) :
    payloadDecrypt platform receiver arrived = .ok plaintext := by
  have length := parts.ciphertext_length
  have short := parts.short
  have counted :
      uint32 ((arrived.payloadLen : Int) - (authTagLen : Int)) =
        plaintext.length := by
    unfold maxPlaintextLen at short
    rw [isArrived.payloadLen, length, Nat.cast_add, Int.add_sub_cancel,
      uint32_of_nonneg (by omega) (by omega), Int.toNat_natCast]
  obtain ⟨aad, built, called⟩ := oscoreCoseEncrypt_eq_ok.mp parts.encrypted
  unfold payloadDecrypt
  rw [counted, checkBufferSize_of_le short, outcome_ok_bind,
    isArrived.payload, opens.nonce, opens.aad, opens.key]
  exact oscoreCoseDecrypt_eq_ok.mpr ⟨aad, built, inverts called⟩

/-- The arrived packet has the OSCORE option. -/
theorem Arrived.hasOscoreOption
    (isArrived : Arrived message stored value ciphertext arrived)
    (reads : ReadsMessage message stored) (through : ComesThrough message) :
    ∃ oscore, HasOscoreOption arrived oscore ∧
      oscore.content = (oscoreOption value).content := by
  obtain ⟨before, oscore, isOptions, isOscore, isBefore, _⟩ :=
    isArrived.options
  refine ⟨oscore, ⟨congrArg OptionContent.number isOscore, ?_⟩, isOscore⟩
  refine ⟨before, [], isOptions, ?_⟩
  rw [List.append_nil]
  exact reads.before_ne_oscore through isBefore

/-- The value of an arrived OSCORE option is followed by other bytes of the
packet. -/
theorem oscoreOption_value {oscore : OCoapOption} {value : Bytes}
    (short : value.length < 256)
    (isOscore : oscore.content = (oscoreOption value).content) :
    oscore.len.toNat = value.length ∧
      ∃ rest, oscore.value = value ++ rest := by
  have written : (UInt8.ofNat value.length).toNat = value.length :=
    UInt8.toNat_ofNat_of_lt' short
  have len : oscore.len = UInt8.ofNat value.length :=
    congrArg OptionContent.len isOscore
  have taken : oscore.value.take oscore.len.toNat =
      value.take (UInt8.ofNat value.length).toNat :=
    congrArg OptionContent.value isOscore
  rw [len, written, List.take_length] at taken
  refine ⟨by rw [len, written], oscore.value.drop value.length, ?_⟩
  have parts := List.take_append_drop value.length oscore.value
  rw [taken] at parts
  exact parts.symm

/-- The outer packet is a request when the message is one. -/
theorem Arrived.isRequest_eq
    (isArrived : Arrived message stored value ciphertext arrived) :
    isRequest arrived = isRequest (messagePacket message stored) := by
  have code : arrived.header.code = outerCode (messagePacket message stored) :=
    congrArg OCoapHeader.code isArrived.header
  unfold outerCode at code
  generalize isRequest (messagePacket message stored) = request at code ⊢
  unfold isRequest
  rw [code]
  cases request with
  | false =>
      decide
  | true =>
      decide

end Received

/-! ## Responses -/

/-- The code of the message is not of the request class. -/
def IsResponse (message : Message) : Prop :=
  codeClassMask &&& message.code ≠ requestClass

/-- Each protected packet that carries the response is delivered as it. -/
def RestoresResponse (platform : Platform) (sender receiver : Context)
    (response : Message) : Prop :=
  ∀ capacity packet after room,
    exec (coap2oscore platform response.bytes capacity) sender =
        (.ok packet, after) →
      response.bytes.length ≤ room →
      exec (oscore2coap platform packet room) receiver =
        (.ok (some response.bytes), receiver)

theorem response_restored {sender receiver : Context} {response : Message}
    (inverts : platform.AeadInverts) (opens : OpensFor sender receiver)
    (isResponse : IsResponse response) (through : ComesThrough response) :
    RestoresResponse platform sender receiver response := by
  intro capacity packet after room done large
  have notEmpty : response.code ≠ codeEmpty := by
    intro empty
    unfold IsResponse at isResponse
    rw [empty] at isResponse
    exact isResponse (by decide)
  obtain ⟨stored, value, plaintext, ciphertext, parts⟩ :=
    through.protected notEmpty done
  have notRequest : isRequest (messagePacket response stored) = false :=
    decide_eq_false isResponse
  have valued := parts.valued
  rw [optionValue_eq_ok, notRequest] at valued
  obtain ⟨rfl, rfl⟩ := valued
  obtain ⟨arrived, parsed, isArrived⟩ :=
    parts.arrives through (by decide) (by simp)
  obtain ⟨oscore, hasOscore, isOscore⟩ :=
    isArrived.hasOscoreOption parts.reads through
  have notArrived : isRequest arrived = false :=
    isArrived.isRequest_eq.trans notRequest
  have decrypted := parts.decrypted isArrived inverts opens
  have delivered := isArrived.delivered parts through large
  obtain ⟨before, last, isOptions, _⟩ := isArrived.options
  have empty : oscore.len = 0 := congrArg OptionContent.len isOscore
  apply oscore2coap_eq_ok.mpr
  refine ⟨arrived, _, true, parsed, hasOscore.parsed_empty empty, ?_⟩
  rw [if_pos rfl]
  refine ⟨plaintext, response.bytes, ?_, delivered, rfl⟩
  apply oscorePacketDecrypt_eq_ok.mpr
  refine ⟨_, receiver, isOptions, ?_, decrypted, ?_⟩
  · rw [exec_whenRequest, notArrived]
    rfl
  · rw [exec_whenRequest, notArrived]
    rfl

/-! ## The first OSCORE option -/

/-- The value of the OSCORE option of the first request needs no extended length
and has no byte that is taken for the payload marker. -/
structure HasShortOption (params : OscoreInitParams) : Prop where
  short :
    2 + kidContextRoom params.idContext + params.clientId.length < 13
  kidContext : 0xFF ∉ params.idContext
  kid : 0xFF ∉ params.clientId

theorem optionFlags_ne_marker (kidContext : Bytes) :
    optionFlags [0] kidContext ≠ 0xFF := by
  unfold optionFlags kidContextMask
  split
  · decide
  · decide

theorem marker_mem_kidContextField {flag : UInt8} {kidContext : Bytes}
    (fits : kidContext.length ≤ maxKidContextLen)
    (marker : 0xFF ∈ kidContextField flag kidContext) : 0xFF ∈ kidContext := by
  unfold kidContextField at marker
  split at marker
  · cases marker
  · rcases List.mem_cons.mp marker with isLength | inContext
    · have small : kidContext.length ≤ 8 := fits
      have lengths := congrArg UInt8.toNat isLength
      rw [UInt8.toNat_ofNat'] at lengths
      have value : (0xFF : UInt8).toNat = 255 := rfl
      omega
    · exact inContext

/-- With the sequence number 0 the value is a short one when the parameters are
short. -/
theorem HasShortOption.value {params : OscoreInitParams} {value : Bytes}
    (hasShort : HasShortOption params)
    (kidFits : params.clientId.length ≤ maxKidLen)
    (kidContextFits : params.idContext.length ≤ maxKidContextLen)
    (generated :
      oscoreOptionGenerate [0] params.clientId params.idContext
        (getOscoreOptValLen [0] params.clientId params.idContext) =
          .ok value) :
    value.length < 13 ∧ 0xFF ∉ value ∧
      ∃ layout : OptionLayout, layout.bytes = value ∧ layout.piv = [0] ∧
        layout.kidContext = params.idContext ∧
        layout.kid = params.clientId := by
  have sizes : maxKidLen = 7 ∧ maxKidContextLen = 8 := ⟨rfl, rfl⟩
  have present : 0 < ([0] : Bytes).length := Nat.one_pos
  have fits : ([0] : Bytes).length ≤ maxPivLen := by
    decide
  have contextShort : params.idContext.length < 256 := by
    omega
  have total :
      ([0] : Bytes).length + params.idContext.length +
        params.clientId.length < 250 := by
    rw [List.length_singleton]
    omega
  have length :=
    @writtenLayout_length [0] params.idContext params.clientId present fits
      contextShort total
  have isValue :=
    @oscoreOptionGenerate_eq [0] params.idContext params.clientId present fits
      contextShort total
  rw [generated, Except.ok.injEq] at isValue
  subst isValue
  refine ⟨?_, ?_, _, rfl, rfl, rfl, rfl⟩
  · have short := hasShort.short
    rw [length, getOscoreOptValLen_toNat present total,
      List.length_singleton]
    unfold kidContextRoom at short
    split at short
    · rename_i empty
      rw [if_pos empty]
      omega
    · rename_i some
      rw [if_neg some]
      omega
  · intro marker
    rcases List.mem_cons.mp marker with isFlags | behindFlags
    · exact optionFlags_ne_marker params.idContext isFlags.symm
    · rcases List.mem_append.mp behindFlags with inPiv | behindPiv
      · change (0xFF : UInt8) ∈ ([0] : Bytes) at inPiv
        exact absurd inPiv (by decide)
      · rcases List.mem_append.mp behindPiv with inContext | inKid
        · exact
            hasShort.kidContext
              (marker_mem_kidContextField kidContextFits inContext)
        · exact hasShort.kid inKid

/-! ## The first request -/

section Request

variable {params : OscoreInitParams} {c after : Context}
  {options : List OCoapOption} {value : Bytes}

/-- The AAD of the first request. -/
def firstAad (platform : Platform) (params : OscoreInitParams) : Bytes :=
  aadArray platform.toCborEncoder params.aeadAlg params.clientId [0] []

/-- What a client makes of its parameters for the first request. -/
structure SentFirst (platform : Platform) (params : OscoreInitParams)
    (c after : Context) (value nonce : Bytes) : Prop where
  created : createNonce params.clientId [0] c.cc.commonIv = .ok nonce
  room : (firstAad platform params).length ≤ maxAadLen
  after : after = c.nextRequest.setNonceAndAad nonce (firstAad platform params)
  generated :
    oscoreOptionGenerate [0] params.clientId params.idContext
      (getOscoreOptValLen [0] params.clientId params.idContext) = .ok value
  kidFits : params.clientId.length ≤ maxKidLen
  kidContextFits : params.idContext.length ≤ maxKidContextLen

theorem Initialised.sendsFirst (initialised : Initialised platform params c)
    (isClient : params.devType = .client)
    (done : exec (requestOption platform options) c = (.ok value, after)) :
    ∃ nonce, SentFirst platform params c after value nonce := by
  obtain ⟨buffers, init⟩ := initialised
  have initial := oscoreContextInit_initial init
  have kidContext := initial.kidContext isClient
  have fit := reqRespContextInit_lengths (oscoreContextInit_rrc init)
  obtain ⟨_, nonce, created, room, rfl, _, generated⟩ :=
    requestOption_eq_ok.mp done
  have firstPiv : partialIv c.sc.senderSeqNum = [0] := by
    rw [initial.senderSeqNum]
    rfl
  have aad :
      requestAad platform.toCborEncoder c.nextRequest =
        firstAad platform params := by
    unfold requestAad firstAad Context.nextRequest
    dsimp only
    rw [firstPiv, initial.aeadAlg, initial.kid]
  rw [firstPiv, initial.kid] at created
  rw [aad, initial.aad_length] at room
  rw [aad] at generated ⊢
  unfold requestOptionLen Context.setNonceAndAad Context.nextRequest
    at generated
  dsimp only at generated
  rw [firstPiv, initial.kid, kidContext] at generated
  rw [kidContext] at fit
  exact
    ⟨nonce, created, room, rfl, generated, initial.kid_length, fit.2⟩

/-- The server takes it over from the fields of its OSCORE option. -/
theorem Initialised.takesFirst {option : CompressedOscoreOption}
    {nonce : Bytes} (initialised : Initialised platform params c)
    (isServer : params.devType = .server)
    (carries : Carries option [0] params.idContext params.clientId)
    (created : createNonce params.clientId [0] c.cc.commonIv = .ok nonce)
    (room : (firstAad platform params).length ≤ maxAadLen) :
    pivFirstByte option = .ok 0 ∧
      exec (requestAccept platform options option) c =
        (.ok (),
          (c.setPiv [0]).setNonceAndAad nonce (firstAad platform params)) := by
  obtain ⟨buffers, init⟩ := initialised
  have initial := oscoreContextInit_initial init
  have clientId : params.clientId = params.recipientId := by
    unfold OscoreInitParams.clientId
    rw [isServer]
  obtain ⟨piv, pivRead, pivInside, pivContent⟩ := carries.piv
  obtain ⟨kidContext, contextIs, contextInside, contextContent⟩ :=
    carries.kidContext
  obtain ⟨kid, kidIs, kidInside, kidContent⟩ := carries.kid
  have first := pivFirstByte_of_content pivRead pivContent
  have fields : RequestFields c option 0 piv kidContext := by
    refine ⟨⟨kid, kidIs, ?_⟩, first, pivRead, contextIs⟩
    rw [initial.recipientId, ← clientId]
    exact arrayEquals_eq_true.mpr ⟨kidInside, kidContent⟩
  have pivFits : piv.len ≤ maxPivLen := by
    rw [← ByteArrayView.content_length pivInside, pivContent]
    decide
  have sameContext : arrayEquals c.cc.idContext kidContext = .ok true := by
    rw [initial.idContext]
    exact arrayEquals_eq_true.mpr ⟨contextInside, contextContent⟩
  have server :
      exec (serverUpdate platform piv kidContext) c =
        (.ok (), c.setPiv piv.content) :=
    serverUpdate_eq_ok.mpr ⟨pivFits, pivInside, Or.inl ⟨sameContext, rfl⟩⟩
  rw [pivContent] at server
  have aad :
      requestAad platform.toCborEncoder (c.setPiv [0]) =
        firstAad platform params := by
    unfold requestAad firstAad Context.setPiv
    dsimp only
    rw [initial.aeadAlg, initial.kid]
  refine ⟨first, requestAccept_eq_ok.mpr ⟨0, piv, kidContext, fields, ?_⟩⟩
  apply contextUpdate_server_eq_ok.mpr
  refine ⟨_, nonce, server, ?_, ?_, ?_⟩
  · change createNonce c.rrc.kid [0] c.cc.commonIv = .ok nonce
    rw [initial.kid]
    exact created
  · rw [aad]
    change (firstAad platform params).length ≤ c.rrc.aad.length
    rw [initial.aad_length]
    exact room
  · rw [aad]

end Request

/-! ## The exchange -/

/-- The code of the message is of the request class. -/
def IsRequest (message : Message) : Prop :=
  codeClassMask &&& message.code = requestClass ∧ message.code ≠ codeEmpty

section Exchange

variable {clientParams serverParams : OscoreInitParams}
  {client server : Context}

/-- The parameters of the client are those of the client of the server. -/
theorem Matching.client_eq (matching : Matching clientParams serverParams) :
    serverParams.client serverParams.idContext = clientParams := by
  obtain ⟨isClient, _, recipientId, senderId, masterSecret, masterSalt,
    idContext, aeadAlg, hkdf⟩ := matching
  cases clientParams
  cases serverParams
  subst isClient recipientId senderId masterSecret masterSalt idContext
    aeadAlg hkdf
  rfl

theorem Matching.clientId_eq (matching : Matching clientParams serverParams) :
    serverParams.clientId = clientParams.clientId := by
  unfold OscoreInitParams.clientId
  rw [matching.serverType, matching.clientType]
  exact matching.recipientId

theorem Matching.firstAad_eq (matching : Matching clientParams serverParams) :
    firstAad platform serverParams = firstAad platform clientParams := by
  unfold firstAad
  rw [matching.aeadAlg, matching.clientId_eq]

theorem Matching.sharesKeys (matching : Matching clientParams serverParams)
    (clientInitialised : Initialised platform clientParams client)
    (serverInitialised : Initialised platform serverParams server) :
    SharesKeys server client := by
  apply (initialised_keysDerived serverInitialised).sharesKeys
    serverInitialised.hasParameters serverInitialised.idContext
  rw [matching.client_eq]
  exact clientInitialised

/-- The server delivers the first request as it was sent, and then the client
the responses, when they come through and the OSCORE option of the request is a
short one. -/
theorem exchange_restored (platform : Platform)
    (clientParams serverParams : OscoreInitParams)
    (client clientAfter server : Context) (request : Message)
    (capacity room : Nat) (packet : Bytes) (inverts : platform.AeadInverts)
    (matching : Matching clientParams serverParams)
    (clientInitialised : Initialised platform clientParams client)
    (serverInitialised : Initialised platform serverParams server)
    (isRequest : IsRequest request) (hasShort : HasShortOption clientParams)
    (through : ComesThrough request)
    (done :
      exec (coap2oscore platform request.bytes capacity) client =
        (.ok packet, clientAfter))
    (large : request.bytes.length ≤ room) :
    ∃ serverAfter,
      exec (oscore2coap platform packet room) server =
          (.ok (some request.bytes), serverAfter) ∧
        ∀ response, IsResponse response → ComesThrough response →
          RestoresResponse platform serverAfter clientAfter response := by
  obtain ⟨stored, value, plaintext, ciphertext, parts⟩ :=
    through.protected isRequest.2 done
  have isSent : Oscore.isRequest (messagePacket request stored) = true :=
    decide_eq_true isRequest.1
  have valued := parts.valued
  rw [optionValue_eq_ok, if_pos isSent] at valued
  obtain ⟨nonce, sent⟩ :=
    clientInitialised.sendsFirst matching.clientType valued
  obtain ⟨short, unmarked, layout, isLayout, piv, kidContext, kid⟩ :=
    hasShort.value sent.kidFits sent.kidContextFits sent.generated
  obtain ⟨arrived, parsed, isArrived⟩ :=
    parts.arrives through short unmarked
  obtain ⟨oscore, hasOscore, isOscore⟩ :=
    isArrived.hasOscoreOption parts.reads through
  have isTaken : Oscore.isRequest arrived = true :=
    isArrived.isRequest_eq.trans isSent
  obtain ⟨len, rest, isValue⟩ :=
    oscoreOption_value (by omega) isOscore
  rw [← isLayout] at len isValue
  obtain ⟨option, optionParsed, _, carries⟩ :=
    oscoreOptionParser_layout hasOscore layout isValue len.symm
  rw [piv, kidContext, kid, ← matching.idContext, ← matching.clientId_eq]
    at carries
  -- the server makes the nonce and the AAD of the client of it
  have shares := matching.sharesKeys clientInitialised serverInitialised
  have created := sent.created
  have aadRoom := sent.room
  rw [← matching.clientId_eq, ← shares.commonIv] at created
  rw [← matching.firstAad_eq] at aadRoom
  obtain ⟨before, last, isOptions, _⟩ := isArrived.options
  obtain ⟨first, accepted⟩ :=
    serverInitialised.takesFirst matching.serverType carries created aadRoom
  have after := sent.after
  have opens :
      OpensFor clientAfter
        ((server.setPiv [0]).setNonceAndAad nonce
          (firstAad platform serverParams)) := by
    rw [after]
    exact ⟨rfl, matching.firstAad_eq, shares.recipientKey⟩
  have answers :
      OpensFor
        (((server.setPiv [0]).setNonceAndAad nonce
          (firstAad platform serverParams)).recordPiv 0) clientAfter := by
    rw [after]
    exact ⟨rfl, matching.firstAad_eq.symm, shares.senderKey.symm⟩
  refine
    ⟨_, (oscore2coap_request_eq_ok parsed isTaken).mpr ⟨option, _, 0, _,
      plaintext, optionParsed, isOptions, accepted,
      parts.decrypted isArrived inverts opens, first, rfl,
      isArrived.delivered parts through large⟩, ?_⟩
  intro response isResponse responseThrough
  exact response_restored inverts answers isResponse responseThrough

end Exchange

/-! ## The exchange of test vector T1 -/

/-- The response `t1Response`. -/
def hiMessage : Message where
  type := 2
  code := 0x45
  mid := 1
  token := []
  options := []
  payload := [0x48, 0x69]
  type_lt := by decide
  token_length_le := noToken_length_le
  ascending := by decide
  empty := by
    intro isEmpty
    cases isEmpty

theorem hostMessage_comesThrough : ComesThrough hostMessage where
  count := by decide
  heads := by decide
  unmarked := by decide
  ascending := by decide
  outer := by decide
  inner := by decide
  counted := by decide
  room := by decide

theorem hiMessage_comesThrough : ComesThrough hiMessage where
  count := by decide
  heads := by decide
  unmarked := by decide
  ascending := by decide
  outer := by decide
  inner := by decide
  counted := by decide
  room := by decide

theorem t1_aeadInverts : t1Platform.AeadInverts := by
  have decrypts : ∀ record ∈ t1AeadRecords,
      t1Platform.aeadDecrypt record.ciphertext record.key record.nonce
          record.aad record.tagLen = some record.plaintext := by
    decide +kernel
  exact @CryptoWrapper.ofRecords_aeadInverts t1HkdfRecords t1AeadRecords
    t1AeadRecords_lengths decrypts

/-- The client after the request for the host `a`. -/
def hostClient : Context :=
  (exec (coap2oscore t1Platform hostMessage.bytes 64) t1Client).2

def hostServer : Context :=
  (exec
    (oscore2coap t1Platform
      [0x40, 2, 0, 1, 0x31, 0x61, 0x62, 9, 0, 0xFF, 0xAE, 0x8A, 0x2A, 3, 0x20,
        0xF0, 0xF5, 6, 0x31, 0x7C, 0xBD, 0x46, 0xF4] 64)
    t1Server).2

theorem exchange_restored_t1 :
    exec
          (oscore2coap t1Platform
            [0x40, 2, 0, 1, 0x31, 0x61, 0x62, 9, 0, 0xFF, 0xAE, 0x8A, 0x2A, 3,
              0x20, 0xF0, 0xF5, 6, 0x31, 0x7C, 0xBD, 0x46, 0xF4] 64)
          t1Server =
        (.ok (some hostMessage.bytes), hostServer) ∧
      exec
          (oscore2coap t1Platform
            [0x60, 0x44, 0, 1, 0x90, 0xFF, 0x18, 0xC2, 0xF4, 0x5A, 0xF1, 0xE3,
              8, 0xAA, 0x8D, 0xF2, 0x8A, 0xBF] 64)
          hostClient =
        (.ok (some hiMessage.bytes), hostClient) := by
  obtain ⟨serverAfter, delivered, responses⟩ :=
    exchange_restored t1Platform t1ClientParams t1ServerParams t1Client
      hostClient t1Server hostMessage 64 64
      [0x40, 2, 0, 1, 0x31, 0x61, 0x62, 9, 0, 0xFF, 0xAE, 0x8A, 0x2A, 3, 0x20,
        0xF0, 0xF5, 6, 0x31, 0x7C, 0xBD, 0x46, 0xF4]
      t1_aeadInverts t1_matchingParams ⟨zeroBuffers, rfl⟩ ⟨zeroBuffers, rfl⟩
      ⟨rfl, by decide⟩ ⟨by decide, by decide, by decide⟩
      hostMessage_comesThrough (by decide +kernel) (by decide)
  have isAfter : hostServer = serverAfter := congrArg Prod.snd delivered
  have isResponse : IsResponse hiMessage := by
    unfold IsResponse
    decide
  rw [isAfter]
  refine
    ⟨delivered,
      responses hiMessage isResponse hiMessage_comesThrough 64 _ serverAfter
        64 ?_ (by decide)⟩
  rw [← isAfter]
  decide +kernel

/-- The request with the option 29 is delivered with an option 3. -/
theorem unknownMessage_notRestored :
    ¬ ∀ (platform : Platform) (clientParams serverParams : OscoreInitParams)
        (client clientAfter server : Context) (request : Message)
        (capacity room : Nat) (packet : Bytes), platform.AeadInverts →
        Matching clientParams serverParams →
        Initialised platform clientParams client →
        Initialised platform serverParams server → IsRequest request →
        exec (coap2oscore platform request.bytes capacity) client =
          (.ok packet, clientAfter) →
        request.bytes.length ≤ room →
        ∃ serverAfter,
          exec (oscore2coap platform packet room) server =
              (.ok (some request.bytes), serverAfter) ∧
            ∀ response, IsResponse response →
              RestoresResponse platform serverAfter clientAfter response := by
  intro claimed
  have decrypts : ∀ record ∈ unknownAeadRecords,
      unknownPlatform.aeadDecrypt record.ciphertext record.key record.nonce
          record.aad record.tagLen = some record.plaintext := by
    decide +kernel
  obtain ⟨serverAfter, delivered, _⟩ :=
    claimed unknownPlatform t1ClientParams t1ServerParams t1Client
      (exec (coap2oscore unknownPlatform unknownMessage.bytes 64) t1Client).2
      t1Server unknownMessage 64 64
      [0x40, 2, 0, 1, 0x31, 0x61, 0x62, 9, 0, 0xFF, 0xAE, 0x6D, 0xF0, 0x3D,
        0x93, 0x15, 0xCD, 0xC6, 0x28]
      (@CryptoWrapper.ofRecords_aeadInverts t1HkdfRecords unknownAeadRecords
        (by decide) decrypts)
      t1_matchingParams ⟨zeroBuffers, rfl⟩ ⟨zeroBuffers, rfl⟩
      ⟨rfl, by decide⟩ (by decide +kernel) (by decide)
  have otherOutput :
      (exec
        (oscore2coap unknownPlatform
          [0x40, 2, 0, 1, 0x31, 0x61, 0x62, 9, 0, 0xFF, 0xAE, 0x6D, 0xF0, 0x3D,
            0x93, 0x15, 0xCD, 0xC6, 0x28] 64)
        t1Server).1 = .ok (some [0x40, 1, 0, 1, 0x31, 0x61]) := by
    decide +kernel
  rw [delivered, Except.ok.injEq, Option.some.injEq] at otherOutput
  exact absurd otherOutput (by decide)

end UoscoreUedhoc.Oscore
