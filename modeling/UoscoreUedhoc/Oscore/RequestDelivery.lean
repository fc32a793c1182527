import UoscoreUedhoc.Oscore.AadRoom
import UoscoreUedhoc.Oscore.MessageExchange

/-!
# A request at any time

A request between a client and a server that have already exchanged others.
Both still have the keys they were initialised with; what has changed are the
sequence number and the replay window, what the request-response contexts hold,
and the room for the next AAD.
-/

namespace UoscoreUedhoc.Oscore

open UoscoreUedhoc
open UoscoreUedhoc.Coap
open UoscoreUedhoc.Runs
open Update

variable {platform : Platform} {params : OscoreInitParams}

/-! ## Contexts in use -/

/-- The context has the keys and IDs it was initialised with. -/
structure Steady (first c : Context) : Prop where
  cc : c.cc = first.cc
  senderId : c.sc.senderId = first.sc.senderId
  senderKey : c.sc.senderKey = first.sc.senderKey
  recipientId : c.rc.recipientId = first.rc.recipientId
  recipientKey : c.rc.recipientKey = first.rc.recipientKey
  kid : c.rrc.kid = first.rrc.kid

theorem SameKeys.steady {first c : Context} (same : SameKeys first c) :
    Steady first c := by
  refine ⟨same.cc, same.senderId, same.senderKey, ?_, ?_, same.kid⟩
  · rw [same.rc]
  · rw [same.rc]

/-- A client that nothing but its own packets has changed. -/
structure SteadyClient (params : OscoreInitParams) (first c : Context) :
    Prop where
  same : SameKeys first c
  room : ClientRoom c
  kid : c.rrc.kid = params.clientId
  kidContext : c.rrc.kidContext = params.idContext
  aeadAlg : c.cc.aeadAlg = params.aeadAlg
  kid_length : params.clientId.length ≤ maxKidLen
  kidContext_length : params.idContext.length ≤ maxKidContextLen

/-- A server with room for the AAD of a Partial IV of one byte. -/
structure SteadyServer (params : OscoreInitParams) (first c : Context) :
    Prop where
  steady : Steady first c
  room : 8 + params.clientId.length ≤ c.rrc.aad.length
  kid : first.rrc.kid = params.clientId
  recipientId : first.rc.recipientId = params.clientId
  idContext : first.cc.idContext = params.idContext
  aeadAlg : first.cc.aeadAlg = params.aeadAlg
  isAlgorithm : params.aeadAlg = .oscoreAesCcm16_64_128
  kid_length : params.clientId.length ≤ maxKidLen

theorem Initialised.steadyClient {c : Context}
    (initialised : Initialised platform params c)
    (isClient : params.devType = .client) : SteadyClient params c c := by
  have room := initialised.clientRoom
  have fit := initialised.idsFit
  obtain ⟨buffers, done⟩ := initialised
  have initial := oscoreContextInit_initial done
  have kidContext := initial.kidContext isClient
  refine
    ⟨⟨rfl, rfl, rfl, rfl, rfl, rfl⟩, room, initial.kid, kidContext,
      initial.aeadAlg, initial.kid_length, ?_⟩
  rw [← kidContext]
  exact fit.kidContext

theorem Initialised.steadyServer {c : Context}
    (initialised : Initialised platform params c)
    (isServer : params.devType = .server) : SteadyServer params c c := by
  have algorithm := initialised.aeadAlg
  obtain ⟨buffers, done⟩ := initialised
  have initial := oscoreContextInit_initial done
  have clientId : params.clientId = params.recipientId := by
    unfold OscoreInitParams.clientId
    rw [isServer]
  refine
    ⟨⟨rfl, rfl, rfl, rfl, rfl, rfl⟩, ?_, initial.kid, ?_, initial.idContext,
      initial.aeadAlg, ?_, initial.kid_length⟩
  · have kidBound : params.clientId.length ≤ 7 := initial.kid_length
    have size : maxAadLen = 30 := rfl
    rw [initial.aad_length]
    omega
  · rw [clientId]
    exact initial.recipientId
  · rw [← initial.aeadAlg]
    exact algorithm

/-! ## What the client sends -/

/-- The AAD of a request with a Partial IV. -/
def pivAad (platform : Platform) (params : OscoreInitParams) (piv : Bytes) :
    Bytes :=
  aadArray platform.toCborEncoder params.aeadAlg params.clientId piv []

/-- What a client makes of its sequence number for a request. -/
structure SentNext (platform : Platform) (params : OscoreInitParams)
    (c after : Context) (value : Bytes) (byte : UInt8) : Prop where
  created :
    createNonce params.clientId [byte] c.cc.commonIv = .ok after.rrc.nonce
  aad : after.rrc.aad = pivAad platform params [byte]
  piv : after.rrc.piv = [byte]
  same : SameKeys c after
  generated :
    oscoreOptionGenerate [byte] params.clientId params.idContext
      (getOscoreOptValLen [byte] params.clientId params.idContext) = .ok value

theorem SteadyClient.sendsNext {first c after : Context}
    {options : List OCoapOption} {value : Bytes}
    (canonical : platform.toCborEncoder.IsCanonical)
    (steady : SteadyClient params first c)
    (done : exec (requestOption platform options) c = (.ok value, after)) :
    ∃ byte, SentNext platform params c after value byte := by
  obtain ⟨small, nonce, created, fits, rfl, _, generated⟩ :=
    requestOption_eq_ok.mp done
  -- only a Partial IV of one byte leaves room for its AAD
  have oneByte := (steady.room.fits_iff canonical small).mp fits
  have short := partialIv_length_le_one_iff.mpr oneByte
  obtain ⟨present, _⟩ := partialIv_length small
  obtain ⟨byte, piv⟩ := List.length_eq_one_iff.mp (Nat.le_antisymm short present)
  rw [steady.kid, piv] at created
  unfold requestOptionLen Context.setNonceAndAad Context.nextRequest
    at generated
  dsimp only at generated
  rw [steady.kid, steady.kidContext, piv] at generated
  refine
    ⟨byte, created, ?_, piv, ⟨rfl, rfl, rfl, rfl, rfl, rfl⟩, generated⟩
  change requestAad platform.toCborEncoder c.nextRequest = _
  unfold requestAad pivAad Context.nextRequest
  dsimp only
  rw [steady.aeadAlg, steady.kid, piv]

/-- With a Partial IV of one byte other than `0xFF` the value is a short one
when the parameters are short. -/
theorem HasShortOption.nextValue {value : Bytes} {byte : UInt8}
    (hasShort : HasShortOption params)
    (kidFits : params.clientId.length ≤ maxKidLen)
    (kidContextFits : params.idContext.length ≤ maxKidContextLen)
    (unmarked : byte ≠ 0xFF)
    (generated :
      oscoreOptionGenerate [byte] params.clientId params.idContext
        (getOscoreOptValLen [byte] params.clientId params.idContext) =
          .ok value) :
    value.length < 13 ∧ 0xFF ∉ value ∧
      ∃ layout : OptionLayout, layout.bytes = value ∧ layout.piv = [byte] ∧
        layout.kidContext = params.idContext ∧
        layout.kid = params.clientId := by
  have sizes : maxKidLen = 7 ∧ maxKidContextLen = 8 := ⟨rfl, rfl⟩
  have present : 0 < [byte].length := Nat.one_pos
  have fits : [byte].length ≤ maxPivLen := by
    rw [List.length_singleton]
    decide
  have contextShort : params.idContext.length < 256 := by
    omega
  have total :
      [byte].length + params.idContext.length + params.clientId.length <
        250 := by
    rw [List.length_singleton]
    omega
  have length :=
    @writtenLayout_length [byte] params.idContext params.clientId present fits
      contextShort total
  have isValue :=
    @oscoreOptionGenerate_eq [byte] params.idContext params.clientId present
      fits contextShort total
  rw [generated, Except.ok.injEq] at isValue
  subst isValue
  refine ⟨?_, ?_, _, rfl, rfl, rfl, rfl⟩
  · have short := hasShort.short
    rw [length, getOscoreOptValLen_toNat present total,
      List.length_singleton]
    unfold kidContextRoom at short
    split at short
    · rename_i empty
      rw [if_pos empty]
      omega
    · rename_i some
      rw [if_neg some]
      omega
  · intro marker
    have oneFlags : optionFlags [byte] params.idContext =
        optionFlags [0] params.idContext := rfl
    rcases List.mem_cons.mp marker with isFlags | behindFlags
    · change _ = optionFlags [byte] params.idContext at isFlags
      rw [oneFlags] at isFlags
      exact optionFlags_ne_marker params.idContext isFlags.symm
    · rcases List.mem_append.mp behindFlags with inPiv | behindPiv
      · exact unmarked (List.mem_singleton.mp inPiv).symm
      · rcases List.mem_append.mp behindPiv with inContext | inKid
        · exact
            hasShort.kidContext
              (marker_mem_kidContextField kidContextFits inContext)
        · exact hasShort.kid inKid

/-! ## A packet on its way -/

/-- What a receiver makes of the packet of a request, and what it needs for
that of the context the request was protected with. -/
structure InFlight (platform : Platform) (params : OscoreInitParams)
    (sent : Context) (request : Message) (packet : Bytes) (byte : UInt8)
    (arrived : OCoapPacket) (option : CompressedOscoreOption)
    (plaintext : Bytes) : Prop where
  parsed : buf2coap packet = .ok arrived
  isRequest : Oscore.isRequest arrived = true
  optionParsed : oscoreOptionParser arrived = .ok (option, true)
  carries : Carries option [byte] params.idContext params.clientId
  created :
    createNonce params.clientId [byte] sent.cc.commonIv = .ok sent.rrc.nonce
  aad : sent.rrc.aad = pivAad platform params [byte]
  decrypts : ∀ receiver, OpensFor sent receiver →
    payloadDecrypt platform receiver arrived = .ok plaintext
  delivered : ∀ room, request.bytes.length ≤ room →
    deliver plaintext arrived room = .ok request.bytes

theorem SteadyClient.puts {first c after : Context} {request : Message}
    {capacity : Nat} {packet : Bytes}
    (canonical : platform.toCborEncoder.IsCanonical)
    (inverts : platform.AeadInverts) (hasShort : HasShortOption params)
    (steady : SteadyClient params first c) (isRequest : IsRequest request)
    (through : ComesThrough request)
    (done :
      exec (coap2oscore platform request.bytes capacity) c =
        (.ok packet, after))
    (unmarked : 0xFF ∉ after.rrc.piv) :
    ∃ byte arrived option plaintext,
      InFlight platform params after request packet byte arrived option
        plaintext := by
  obtain ⟨stored, value, plaintext, ciphertext, parts⟩ :=
    through.protected isRequest.2 done
  have isSent : Oscore.isRequest (messagePacket request stored) = true :=
    decide_eq_true isRequest.1
  have valued := parts.valued
  rw [optionValue_eq_ok, if_pos isSent] at valued
  obtain ⟨byte, sent⟩ := steady.sendsNext canonical valued
  have clean : byte ≠ 0xFF := by
    intro isMarker
    rw [sent.piv, isMarker] at unmarked
    exact unmarked (by simp)
  obtain ⟨short, notMarked, layout, isLayout, piv, kidContext, kid⟩ :=
    hasShort.nextValue steady.kid_length steady.kidContext_length clean
      sent.generated
  obtain ⟨arrived, parsed, isArrived⟩ :=
    parts.arrives through short notMarked
  obtain ⟨oscore, hasOscore, isOscore⟩ :=
    isArrived.hasOscoreOption parts.reads through
  obtain ⟨len, rest, isValue⟩ := oscoreOption_value (by omega) isOscore
  rw [← isLayout] at len isValue
  obtain ⟨option, optionParsed, _, carries⟩ :=
    oscoreOptionParser_layout hasOscore layout isValue len.symm
  rw [piv, kidContext, kid] at carries
  have created := sent.created
  rw [← sent.same.cc] at created
  exact
    ⟨byte, arrived, option, plaintext, parsed,
      isArrived.isRequest_eq.trans isSent, optionParsed, carries, created,
      sent.aad, fun receiver opens => parts.decrypted isArrived inverts opens,
      fun room large => isArrived.delivered parts through large⟩

/-! ## What the server makes of it -/

/-- The server after a request. -/
def Context.follow (c : Context) (byte : UInt8) (nonce aad : Bytes) :
    Context :=
  ((c.setPiv [byte]).setNonceAndAad nonce aad).recordPiv byte

section Taken

variable {first c sent : Context} {request : Message} {packet plaintext : Bytes}
  {byte : UInt8} {arrived : OCoapPacket} {option : CompressedOscoreOption}

/-- A server that shares the keys of the client takes the request over. -/
theorem InFlight.reaches
    (inFlight :
      InFlight platform params sent request packet byte arrived option
        plaintext)
    (steady : SteadyServer params first c) :
    ∃ piv kidContext,
      ReachesUpdate c packet arrived option byte piv kidContext ∧
        piv.content = [byte] ∧ piv.InBounds ∧
        arrayEquals c.cc.idContext kidContext = .ok true := by
  obtain ⟨piv, pivRead, pivInside, pivContent⟩ := inFlight.carries.piv
  obtain ⟨kidContext, contextIs, contextInside, contextContent⟩ :=
    inFlight.carries.kidContext
  obtain ⟨kid, kidIs, kidInside, kidContent⟩ := inFlight.carries.kid
  have fields : RequestFields c option byte piv kidContext := by
    refine
      ⟨⟨kid, kidIs, ?_⟩, pivFirstByte_of_content pivRead pivContent, pivRead,
        contextIs⟩
    rw [steady.steady.recipientId, steady.recipientId]
    exact arrayEquals_eq_true.mpr ⟨kidInside, kidContent⟩
  refine
    ⟨piv, kidContext,
      ⟨inFlight.parsed, inFlight.optionParsed, inFlight.isRequest, fields⟩,
      pivContent, pivInside, ?_⟩
  rw [steady.steady.cc, steady.idContext]
  exact arrayEquals_eq_true.mpr ⟨contextInside, contextContent⟩

/-- Whatever its room, a server with the keys of the client decrypts the
request, and records it. -/
theorem InFlight.taken
    (inFlight :
      InFlight platform params sent request packet byte arrived option
        plaintext)
    (canonical : platform.toCborEncoder.IsCanonical)
    (steady : SteadyServer params first c)
    (commonIv : c.cc.commonIv = sent.cc.commonIv)
    (key : c.rc.recipientKey = sent.sc.senderKey) (room : Nat) :
    exec (oscore2coap platform packet room) c =
      ((deliver plaintext arrived room).map some,
        c.follow byte sent.rrc.nonce sent.rrc.aad) := by
  obtain ⟨piv, kidContext, reaches, pivContent, pivInside, sameContext⟩ :=
    inFlight.reaches steady
  have pivFits : piv.len ≤ maxPivLen := by
    rw [← ByteArrayView.content_length pivInside, pivContent,
      List.length_singleton]
    decide
  have server :
      exec (serverUpdate platform piv kidContext) c =
        (.ok (), c.setPiv piv.content) :=
    serverUpdate_eq_ok.mpr ⟨pivFits, pivInside, Or.inl ⟨sameContext, rfl⟩⟩
  rw [pivContent] at server
  have kid : c.rrc.kid = params.clientId :=
    steady.steady.kid.trans steady.kid
  have aad :
      requestAad platform.toCborEncoder (c.setPiv [byte]) = sent.rrc.aad := by
    rw [inFlight.aad]
    unfold requestAad pivAad Context.setPiv
    dsimp only
    rw [steady.steady.cc, steady.aeadAlg, kid]
  have fits :
      (requestAad platform.toCborEncoder (c.setPiv [byte])).length ≤
        (c.setPiv [byte]).rrc.aad.length := by
    have kidBound : params.clientId.length ≤ 7 := steady.kid_length
    have length :=
      @aadArray_length platform.toCborEncoder canonical params.clientId [byte]
        (by omega) (by simp)
    rw [aad, inFlight.aad, pivAad, steady.isAlgorithm, length,
      List.length_singleton]
    have enough := steady.room
    change _ ≤ c.rrc.aad.length
    omega
  have created :
      createNonce (c.setPiv [byte]).rrc.kid (c.setPiv [byte]).rrc.piv
        (c.setPiv [byte]).cc.commonIv = .ok sent.rrc.nonce := by
    change createNonce c.rrc.kid [byte] c.cc.commonIv = _
    rw [kid, commonIv]
    exact inFlight.created
  obtain ⟨options, ran⟩ := exec_oscore2coap_of_reaches platform room reaches
  have updated :
      exec (contextUpdate platform .server options piv kidContext) c =
        (.ok (),
          (c.setPiv [byte]).setNonceAndAad sent.rrc.nonce sent.rrc.aad) := by
    apply contextUpdate_server_eq_ok.mpr
    refine ⟨_, sent.rrc.nonce, server, created, fits, ?_⟩
    rw [aad]
  have opens :
      OpensFor sent
        ((c.setPiv [byte]).setNonceAndAad sent.rrc.nonce sent.rrc.aad) :=
    ⟨rfl, rfl, key⟩
  rw [ran, updated]
  dsimp only
  unfold afterUpdate
  rw [inFlight.decrypts _ opens]
  rfl

/-- And has room for the next one. -/
theorem SteadyServer.follow
    (steady : SteadyServer params first c)
    (canonical : platform.toCborEncoder.IsCanonical) (nonce : Bytes) :
    SteadyServer params first
      (c.follow byte nonce (pivAad platform params [byte])) := by
  obtain ⟨same, room, kid, recipientId, idContext, aeadAlg, isAlgorithm,
    kid_length⟩ := steady
  refine
    ⟨⟨same.cc, same.senderId, same.senderKey, same.recipientId,
      same.recipientKey, same.kid⟩, ?_, kid, recipientId, idContext, aeadAlg,
      isAlgorithm, kid_length⟩
  have kidBound : params.clientId.length ≤ 7 := kid_length
  have length :=
    @aadArray_length platform.toCborEncoder canonical params.clientId [byte]
      (by omega) (by simp)
  change _ ≤ (pivAad platform params [byte]).length
  rw [pivAad, isAlgorithm, length, List.length_singleton]
  omega

end Taken

end UoscoreUedhoc.Oscore
