import UoscoreUedhoc.Edhoc.Authentication
import UoscoreUedhoc.Oscore.NetworkDelivery

/-!
# A key exchange and what it secures

The two programs under `samples/linux_edhoc_oscore`.  Each runs its side of
EDHOC, exports a master secret and a master salt, initialises a security
context with them and then protects and unprotects packets in a loop.  When the
messages of the exchange are delivered unchanged, the two contexts belong
together, and over a network that loses, repeats and reorders packets, messages
that come through are received as they were sent.

The loops themselves are no part of this: in their place stand runs of calls on
the two contexts, each with room for its output.  Both loops enter with a
`coap_rx_buf_len` of 0 as that room.
-/

namespace UoscoreUedhoc.Samples

open UoscoreUedhoc
open UoscoreUedhoc.Edhoc
open UoscoreUedhoc.Oscore
open UoscoreUedhoc.Runs
open Update

/-! ## The programs -/

/-- The text `"OSCORE_Master_Secret"`. -/
def masterSecretLabel : Bytes :=
  [0x4F, 0x53, 0x43, 0x4F, 0x52, 0x45, 0x5F, 0x4D, 0x61, 0x73, 0x74, 0x65,
    0x72, 0x5F, 0x53, 0x65, 0x63, 0x72, 0x65, 0x74]

/-- The text `"OSCORE_Master_Salt"`. -/
def masterSaltLabel : Bytes :=
  [0x4F, 0x53, 0x43, 0x4F, 0x52, 0x45, 0x5F, 0x4D, 0x61, 0x73, 0x74, 0x65,
    0x72, 0x5F, 0x53, 0x61, 0x6C, 0x74]

/-- What OSCORE uses of the platform. -/
def oscorePlatform (platform : EdhocPlatform) : Platform where
  toCryptoWrapper := platform.crypto.toCryptoWrapper
  toCborEncoder := platform.cbor.toCborEncoder

section

variable (platform : EdhocPlatform) (stack : Stack)
  (params : OscoreInitParams) (unwritten : UnwrittenBuffers)

/-- The part of both programs between the key exchange and the loop.  The
parameters hold everything but the master secret and the master salt. -/
def exportContext (prk4x3m th4 : Bytes) : Outcome Context := do
  let masterSecret ←
    edhocExporter platform .sha256 prk4x3m th4 masterSecretLabel 16
  let masterSalt ←
    edhocExporter platform .sha256 prk4x3m th4 masterSaltLabel 8
  oscoreContextInit (oscorePlatform platform)
    { params with masterSecret, masterSalt } unwritten

/-- `main` of `initiator_client` up to its loop. -/
def initiatorClient (c : InitiatorContext) (buffers : InitiatorBuffers) :
    Update Channel Context := do
  let out ← edhocInitiatorRun platform stack c buffers
  .lift (exportContext platform params unwritten out.prk4x3m out.th4)

/-- `main` of `responder_server` up to its loop. -/
def responderServer (c : ResponderContext) (buffers : ResponderBuffers) :
    Update Channel Context := do
  let out ← edhocResponderRun platform stack c buffers
  .lift (exportContext platform params unwritten out.prk4x3m out.th4)

end

/-- The programs are set up for each other. -/
structure SetUp (client server : OscoreInitParams) : Prop where
  clientType : client.devType = .client
  serverType : server.devType = .server
  recipientId : server.recipientId = client.senderId
  senderId : server.senderId = client.recipientId
  idContext : server.idContext = client.idContext
  aeadAlg : server.aeadAlg = client.aeadAlg
  hkdf : server.hkdf = client.hkdf

theorem SetUp.matching {client server : OscoreInitParams}
    (setUp : SetUp client server) (masterSecret masterSalt : Bytes) :
    Matching { client with masterSecret, masterSalt }
      { server with masterSecret, masterSalt } where
  clientType := setUp.clientType
  serverType := setUp.serverType
  recipientId := setUp.recipientId
  senderId := setUp.senderId
  masterSecret := rfl
  masterSalt := rfl
  idContext := setUp.idContext
  aeadAlg := setUp.aeadAlg
  hkdf := setUp.hkdf

/-! ## From one key to two contexts -/

section

variable {platform : EdhocPlatform}
  {keyPair : EcdhAlg → Bytes → Bytes → Prop}
  {stackI stackR : Stack}
  {initiator : InitiatorContext} {buffersI : InitiatorBuffers}
  {responder : ResponderContext} {buffersR : ResponderBuffers}
  {clientParams serverParams : OscoreInitParams}
  {unwrittenI unwrittenR : UnwrittenBuffers}

/-- A program that gets to its loop has run the exchange. -/
theorem lift_exportContext_eq_ok {α : Type} {run : Update Channel α}
    {export' : α → Outcome Context} {channel final : Channel}
    {context : Context} :
    exec (run >>= fun out => Update.lift (export' out)) channel =
        (.ok context, final) ↔
      ∃ out, exec run channel = (.ok out, final) ∧
        export' out = .ok context := by
  rw [exec_bind_eq_ok]
  constructor
  · rintro ⟨out, between, ran, lifted⟩
    rw [exec_lift, Prod.mk.injEq] at lifted
    obtain ⟨exported, rfl⟩ := lifted
    exact ⟨out, ran, exported⟩
  · rintro ⟨out, ran, exported⟩
    refine ⟨out, final, ran, ?_⟩
    rw [exec_lift, exported]

theorem exportContext_eq_ok {prk4x3m th4 : Bytes} {params : OscoreInitParams}
    {unwritten : UnwrittenBuffers} {context : Context}
    (exported : exportContext platform params unwritten prk4x3m th4 =
      .ok context) :
    ∃ masterSecret masterSalt,
      edhocExporter platform .sha256 prk4x3m th4 masterSecretLabel 16 =
          .ok masterSecret ∧
        edhocExporter platform .sha256 prk4x3m th4 masterSaltLabel 8 =
          .ok masterSalt ∧
        Initialised (oscorePlatform platform)
          { params with masterSecret, masterSalt } context := by
  unfold exportContext at exported
  obtain ⟨masterSecret, isSecret, exported⟩ := outcome_bind_eq_ok.mp exported
  obtain ⟨masterSalt, isSalt, initialised⟩ := outcome_bind_eq_ok.mp exported
  exact ⟨masterSecret, masterSalt, isSecret, isSalt, unwritten, initialised⟩

/-- Both programs initialise their contexts with the same secret and salt. -/
theorem programs_initialise
    (inverts : platform.zcbor.Inverts platform.cbor)
    (aeadInverts : platform.crypto.AeadInverts)
    (dhCommutes : DhCommutes platform.crypto keyPair)
    (storedI : initiator.IsStored) (storedR : responder.cR.IsStored)
    {suite : Suite} (isSuite : selectedSuite initiator.suitesI = .ok suite)
    (gYLength : responder.gY.length = getEcdhPkLen suite.edhocEcdh)
    (keys : MatchingKeys platform keyPair suite.edhocEcdh initiator buffersI
      responder buffersR)
    {toI toR leftI leftR : List Bytes} {client server : Context}
    (clientRun :
      exec (initiatorClient platform stackI clientParams unwrittenI initiator
        buffersI) ⟨toI, []⟩ = (.ok client, ⟨leftI, toR⟩))
    (serverRun :
      exec (responderServer platform stackR serverParams unwrittenR responder
        buffersR) ⟨toR, []⟩ = (.ok server, ⟨leftR, toI⟩)) :
    ∃ masterSecret masterSalt,
      Initialised (oscorePlatform platform)
          { clientParams with masterSecret, masterSalt } client ∧
        Initialised (oscorePlatform platform)
          { serverParams with masterSecret, masterSalt } server := by
  unfold initiatorClient at clientRun
  unfold responderServer at serverRun
  obtain ⟨outI, ranI, exportedI⟩ := lift_exportContext_eq_ok.mp clientRun
  obtain ⟨outR, ranR, exportedR⟩ := lift_exportContext_eq_ok.mp serverRun
  have delivered : Delivered platform stackI stackR initiator buffersI
      responder buffersR outI outR :=
    ⟨toI, toR, ⟨leftI, ranI⟩, ⟨leftR, ranR⟩⟩
  obtain ⟨samePrk, sameTh4⟩ :=
    delivered_sameKeys inverts aeadInverts dhCommutes storedI storedR isSuite
      gYLength keys delivered
  obtain ⟨secret, salt, isSecret, isSalt, clientInitialised⟩ :=
    exportContext_eq_ok exportedI
  obtain ⟨secret', salt', isSecret', isSalt', serverInitialised⟩ :=
    exportContext_eq_ok exportedR
  rw [samePrk, sameTh4] at isSecret isSalt
  rw [isSecret, Except.ok.injEq] at isSecret'
  rw [isSalt, Except.ok.injEq] at isSalt'
  subst isSecret' isSalt'
  exact ⟨secret, salt, clientInitialised, serverInitialised⟩

end

/-- When the messages of the exchange are delivered unchanged and both programs
get to their loops, then from there on requests and responses that come through
are delivered as they were sent where there is room for them, in every run of
calls in which only the packets of the programs reach their contexts. -/
theorem edhocOscore_delivers (platform : EdhocPlatform)
    (keyPair : EcdhAlg → Bytes → Bytes → Prop)
    (canonical : platform.cbor.IsCanonical)
    (inverts : platform.zcbor.Inverts platform.cbor)
    (aeadInverts : platform.crypto.AeadInverts)
    (dhCommutes : DhCommutes platform.crypto keyPair)
    (stackI stackR : Stack)
    (initiator : InitiatorContext) (buffersI : InitiatorBuffers)
    (responder : ResponderContext) (buffersR : ResponderBuffers)
    (storedI : initiator.IsStored) (storedR : responder.cR.IsStored)
    (suite : Suite) (isSuite : selectedSuite initiator.suitesI = .ok suite)
    (gYLength : responder.gY.length = getEcdhPkLen suite.edhocEcdh)
    (keys : MatchingKeys platform keyPair suite.edhocEcdh initiator buffersI
      responder buffersR)
    (clientParams serverParams : OscoreInitParams)
    (setUp : SetUp clientParams serverParams)
    (hasShort : HasShortOption clientParams)
    (unwrittenI unwrittenR : UnwrittenBuffers)
    (toI toR leftI leftR : List Bytes) (client server : Context)
    (clientRun :
      exec (initiatorClient platform stackI clientParams unwrittenI initiator
        buffersI) ⟨toI, []⟩ = (.ok client, ⟨leftI, toR⟩))
    (serverRun :
      exec (responderServer platform stackR serverParams unwrittenR responder
        buffersR) ⟨toR, []⟩ = (.ok server, ⟨leftR, toI⟩)) :
    SharesKeys server client ∧
      ∀ (events : List SystemEvent) (last : System),
        SystemRun (oscorePlatform platform) ⟨client, server⟩ events last →
        OwnPacketsOnly events →
        RequestsDelivered events ∧
          ResponsesDelivered (oscorePlatform platform) events := by
  obtain ⟨masterSecret, masterSalt, clientInitialised, serverInitialised⟩ :=
    programs_initialise inverts aeadInverts dhCommutes storedI storedR isSuite
      gYLength keys clientRun serverRun
  have matching := setUp.matching masterSecret masterSalt
  have connected : Connected (oscorePlatform platform)
      { clientParams with masterSecret, masterSalt }
      { serverParams with masterSecret, masterSalt } ⟨client, server⟩ :=
    ⟨canonical, aeadInverts, matching,
      ⟨hasShort.short, hasShort.kidContext, hasShort.kid⟩, clientInitialised,
      serverInitialised⟩
  refine ⟨matching.sharesKeys clientInitialised serverInitialised, ?_⟩
  intro events last run ownPackets
  exact
    ⟨network_requestsDelivered connected run ownPackets,
      network_responsesDelivered connected run ownPackets⟩

/-! ## The programs with the thirteenth test vector -/

def v13ClientKey : Bytes :=
  [0xE1, 0x94, 0x79, 0x43, 0x3E, 0xB3, 6, 0xB2, 0x38, 0x4F, 0x8B, 0xD8, 0x52,
    0x29, 0x48, 0xC7]

def v13ServerKey : Bytes :=
  [0x75, 0xC4, 0x75, 0x21, 0x26, 0x2A, 0x87, 0x4B, 0xE4, 0xDC, 5, 0x1A, 0x4B,
    0xE5, 0x47, 0x58]

def v13CommonIv : Bytes :=
  [0x3B, 0xB3, 0xDC, 0xCE, 0xBF, 0xBA, 0xEB, 0xA3, 0x24, 0, 0x3B, 0xE4, 0xF1]

/-- A request for the host `a` as the client protects it. -/
def v13HostPacket : Bytes :=
  [0x40, 2, 0, 1, 0x31, 0x61, 0x62, 9, 0, 0xFF, 0x22, 0x18, 0x23, 0xD5, 0x54,
    0x7A, 0xBC, 0x12, 0x9D, 0xC3, 0xD7, 0x7D, 0xA8]

/-- The response as the server protects it. -/
def v13HostResponse : Bytes :=
  [0x60, 0x44, 0, 1, 0x90, 0xFF, 0x42, 0xDB, 0x1D, 0xE4, 3, 0x7A, 0x7B, 2,
    0xAE, 0xF4, 0xFE, 0]

/-- The calls of the wrapper in both programs. -/
def v13ProgramRecords : EdhocRecords where
  hash := v13Records.hash
  hkdfExtract := v13Records.hkdfExtract
  hkdfExpand :=
    v13Records.hkdfExpand ++
      [ okmRecord v13Prk v13Th4 masterSecretLabel [] v13OscoreSecret,
        okmRecord v13Prk v13Th4 masterSaltLabel [] v13OscoreSalt ]
  sharedSecret := v13Records.sharedSecret
  aead :=
    v13Records.aead ++
      [ aeadRecord v13ClientKey [] [0] v13CommonIv [1, 0xB3, 0x74, 0x76, 0x31]
          (v13HostPacket.drop 10),
        aeadRecord v13ServerKey [] [0] v13CommonIv [0x45, 0xFF, 0x48, 0x69]
          (v13HostResponse.drop 6) ]
  sign := v13Records.sign

def v13HkdfRecords : List HkdfRecord :=
  let info := fun id =>
    Oscore.hkdfInfo canonicalCbor id [] .oscoreAesCcm16_64_128
  [ { secret := v13OscoreSecret, salt := v13OscoreSalt
      info := info [] .iv, out := v13CommonIv },
    { secret := v13OscoreSecret, salt := v13OscoreSalt
      info := info [] .key, out := v13ClientKey },
    { secret := v13OscoreSecret, salt := v13OscoreSalt
      info := info [1] .key, out := v13ServerKey } ]

theorem v13ProgramRecords_lengths : v13ProgramRecords.LengthsRight where
  aead := by decide +kernel
  hash := v13Records_lengths.hash
  hkdfExtract := v13Records_lengths.hkdfExtract
  hkdfExpand := by decide +kernel
  sign := v13Records_lengths.sign

def v13ProgramPlatform : EdhocPlatform where
  crypto :=
    { EdhocWrapper.ofRecords v13ProgramRecords v13ProgramRecords_lengths with
      toCryptoWrapper :=
        CryptoWrapper.ofRecords v13HkdfRecords v13ProgramRecords.aead
          v13ProgramRecords_lengths.aead }
  cbor := canonicalMapCbor
  zcbor := canonicalZcbor

/-- The contexts with which the programs enter their loops. -/
def v13Client : Context where
  rrc := t1Client.rrc
  cc :=
    { t1Client.cc with
      masterSecret := v13OscoreSecret
      masterSalt := v13OscoreSalt
      commonIv := v13CommonIv }
  sc := { t1Client.sc with senderKey := v13ClientKey }
  rc := { t1Client.rc with recipientKey := v13ServerKey }

def v13Server : Context where
  rrc := t1Server.rrc
  cc :=
    { t1Server.cc with
      masterSecret := v13OscoreSecret
      masterSalt := v13OscoreSalt
      commonIv := v13CommonIv }
  sc := { t1Server.sc with senderKey := v13ServerKey }
  rc := { t1Server.rc with recipientKey := v13ClientKey }

/-- A request, which arrives twice, and the response to it. -/
def v13Inputs : List (Party × Call) :=
  [ (.client, .coap2oscore hostMessage.bytes 64),
    (.server, .oscore2coap v13HostPacket 64),
    (.server, .oscore2coap v13HostPacket 64),
    (.server, .coap2oscore hiMessage.bytes 64),
    (.client, .oscore2coap v13HostResponse 64) ]

def v13Events : List SystemEvent :=
  systemEvents (oscorePlatform v13ProgramPlatform) ⟨v13Client, v13Server⟩
    v13Inputs

/-- The event in which the client protects the request. -/
def v13HostEvent : SystemEvent :=
  systemEvent (oscorePlatform v13ProgramPlatform) ⟨v13Client, v13Server⟩
    (.client, .coap2oscore hostMessage.bytes 64)

def v13KeyPairs : List (Bytes × Bytes) :=
  [(v13X, v13GX), (v13Y, v13GY)]

def V13KeyPair (_ : EcdhAlg) (secret key : Bytes) : Prop :=
  (secret, key) ∈ v13KeyPairs

instance v13KeyPair_decidable (alg : EcdhAlg) (secret key : Bytes) :
    Decidable (V13KeyPair alg secret key) :=
  inferInstanceAs (Decidable (_ ∈ _))

/-- What the programs compute. -/
structure V13Programs : Prop where
  client :
    exec (initiatorClient v13ProgramPlatform v1Stack t1ClientParams
        zeroBuffers v13Initiator v13InitiatorBuffers) ⟨[v13Message2], []⟩ =
      (.ok v13Client, ⟨[], [v13Message1, v13Message3]⟩)
  server :
    exec (responderServer v13ProgramPlatform v1Stack t1ServerParams
        zeroBuffers v13Responder v13ResponderBuffers)
        ⟨[v13Message1, v13Message3], []⟩ =
      (.ok v13Server, ⟨[], [v13Message2]⟩)
  outputs :
    v13Events.map Event.output =
      [.ok (some v13HostPacket), .ok (some hostMessage.bytes),
        .ok (some hostMessage.bytes), .ok (some v13HostResponse),
        .ok (some hiMessage.bytes)]
  host : v13HostEvent.output = .ok (some v13HostPacket) ∧
    0xFF ∉ (localCall v13HostEvent).after.rrc.piv
  commutes : ∀ left ∈ v13KeyPairs, ∀ right ∈ v13KeyPairs,
    v13Records.sharedSecret.lookup (left.1, right.2) =
      v13Records.sharedSecret.lookup (right.1, left.2)
  decrypts : ∀ record ∈ v13ProgramRecords.aead,
    v13ProgramPlatform.crypto.aeadDecrypt record.ciphertext record.key
      record.nonce record.aad record.tagLen = some record.plaintext

section Programs

variable (programs : V13Programs)

include programs

theorem v13Events_run :
    SystemRun (oscorePlatform v13ProgramPlatform) ⟨v13Client, v13Server⟩
      v13Events
      (systemAfter (oscorePlatform v13ProgramPlatform)
        ⟨v13Client, v13Server⟩ v13Inputs) := by
  apply systemEvents_run
  intro event member isUndefined
  have output : event.output ∈ v13Events.map Event.output :=
    List.mem_map_of_mem member
  rw [programs.outputs, isUndefined] at output
  exact absurd output (by decide)

theorem v13HostEvent_sends :
    SendsRequest (localCall v13HostEvent) hostMessage v13HostPacket :=
  sendsRequest_host rfl programs.host.1 programs.host.2

omit programs in
theorem mem_v13Inputs {event : SystemEvent} (member : event ∈ v13Events) :
    event.input ∈ v13Inputs :=
  List.mem_map_of_mem member

omit programs in
/-- The request has been protected before anything arrives at the server. -/
theorem v13Events_past {past rest : List SystemEvent} {event : SystemEvent}
    (split : v13Events = past ++ event :: rest)
    (onServer : event.input.1 = .server) :
    localCall v13HostEvent ∈ calls .client past := by
  have front : v13Events =
      v13HostEvent ::
        systemEvents (oscorePlatform v13ProgramPlatform) v13HostEvent.after
          (v13Inputs.drop 1) :=
    rfl
  rw [front] at split
  cases past with
  | nil =>
      obtain ⟨same, _⟩ := List.cons.inj split
      rw [← same] at onServer
      cases onServer
  | cons first past =>
      obtain ⟨isFirst, _⟩ := List.cons.inj split
      rw [← isFirst]
      exact mem_calls.mpr ⟨v13HostEvent, by simp, rfl, rfl⟩

theorem v13Events_ownPackets : OwnPacketsOnly v13Events where
  client := by
    intro event member input capacity called
    have isInput := mem_v13Inputs member
    rw [called] at isInput
    simp only [v13Inputs, List.mem_cons, Prod.mk.injEq, reduceCtorEq,
      false_and, and_false, true_and, false_or, or_false,
      Call.oscore2coap.injEq, List.not_mem_nil] at isInput
    rw [isInput.1]
    exact not_reaches_of_parsed (by decide)
  server := by
    intro past event rest split input capacity called _
    have protected' := v13Events_past split (congrArg Prod.fst called)
    have isInput : event.input ∈ v13Inputs := by
      apply mem_v13Inputs
      rw [split]
      simp
    rw [called] at isInput
    simp only [v13Inputs, List.mem_cons, Prod.mk.injEq, reduceCtorEq,
      false_and, and_false, true_and, false_or, or_false,
      Call.oscore2coap.injEq, List.not_mem_nil] at isInput
    rcases isInput with ⟨rfl, _⟩ | ⟨rfl, _⟩
    · exact ⟨_, protected', _, v13HostEvent_sends programs⟩
    · exact ⟨_, protected', _, v13HostEvent_sends programs⟩
  answers := by
    intro call member input capacity packet called parsed request
    obtain ⟨event, eventMember, onServer, rfl⟩ := mem_calls.mp member
    have isInput := mem_v13Inputs eventMember
    have whole : event.input = (.server, .coap2oscore input capacity) :=
      Prod.ext onServer called
    rw [whole] at isInput
    simp only [v13Inputs, List.mem_cons, Prod.mk.injEq, reduceCtorEq,
      false_and, and_false, true_and, false_or, or_false,
      Call.coap2oscore.injEq, List.not_mem_nil] at isInput
    have noRequest : (buf2coap hiMessage.bytes).map isRequest = .ok false := by
      decide
    rw [← isInput.1, parsed] at noRequest
    have response : isRequest packet = false := Except.ok.inj noRequest
    rw [request] at response
    cases response

theorem v13_dhCommutes : DhCommutes v13ProgramPlatform.crypto V13KeyPair := by
  intro alg a gA b gB leftPair rightPair
  exact programs.commutes (a, gA) leftPair (b, gB) rightPair

theorem v13_aeadInverts : v13ProgramPlatform.crypto.AeadInverts :=
  @CryptoWrapper.ofRecords_aeadInverts v13HkdfRecords v13ProgramRecords.aead
    v13ProgramRecords_lengths.aead programs.decrypts

omit programs in
theorem v13_matchingKeys :
    MatchingKeys v13ProgramPlatform V13KeyPair .x25519 v13Initiator
      v13InitiatorBuffers v13Responder v13ResponderBuffers where
  ephemeralI := by decide
  ephemeralR := by decide
  staticI := by
    intro staticDh
    cases staticDh
  staticR := by
    intro staticDh
    cases staticDh

end Programs

theorem v13_programs : V13Programs := by
  constructor <;> decide +kernel

theorem edhocOscore_delivers_v13 :
    RequestsDelivered v13Events ∧
      ResponsesDelivered (oscorePlatform v13ProgramPlatform) v13Events :=
  (edhocOscore_delivers v13ProgramPlatform V13KeyPair
    canonicalCbor_isCanonical canonicalZcbor_inverts
    (v13_aeadInverts v13_programs) (v13_dhCommutes v13_programs) v1Stack
    v1Stack v13Initiator v13InitiatorBuffers v13Responder v13ResponderBuffers
    ⟨by decide, trivial, by decide⟩ (by decide) v13Suite rfl (by decide)
    v13_matchingKeys t1ClientParams t1ServerParams
    ⟨rfl, rfl, rfl, rfl, rfl, rfl, rfl⟩ ⟨by decide, by decide, by decide⟩
    zeroBuffers zeroBuffers [v13Message2] [v13Message1, v13Message3] [] []
    v13Client v13Server v13_programs.client v13_programs.server).2
    v13Events _ (v13Events_run v13_programs)
    (v13Events_ownPackets v13_programs)

end UoscoreUedhoc.Samples
