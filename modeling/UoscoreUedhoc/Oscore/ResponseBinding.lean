import UoscoreUedhoc.Oscore.ResponseNonces
import UoscoreUedhoc.Oscore.SequenceNumbers
import UoscoreUedhoc.Oscore.System

/-!
# Binding of responses

A response is bound to its request by the Partial IV in the AAD, which both
sides keep in their single request-response contexts.  The binding holds as
long as the two contexts still hold what the last request put there: on the
client a request of its own that was sent, on the server one that was
accepted.  Forged packets of the request class take the place of either.
-/

namespace UoscoreUedhoc.Oscore

open UoscoreUedhoc
open UoscoreUedhoc.Runs
open Update

variable {platform : Platform} {event : CallEvent}

/-! ## Associated data -/

section Encodings

variable {cbor : CborEncoder} (injective : Function.Injective cbor.bstr)

include injective

theorem encStructure_injective {left right : Bytes}
    (same : encStructure cbor left = encStructure cbor right) :
    left = right := by
  unfold encStructure CborEncoder.list at same
  simp only [List.length_cons, List.length_nil, List.flatten_cons,
    List.flatten_nil, List.append_nil, List.append_assoc,
    List.append_cancel_left_eq, List.append_cancel_right_eq] at same
  exact injective same

/-- The AAD of a request determines its Partial IV. -/
theorem aadArray_injective {aeadAlg : AeadAlgorithm}
    {kid left right : Bytes}
    (same :
      aadArray cbor aeadAlg kid left [] =
        aadArray cbor aeadAlg kid right []) :
    left = right := by
  unfold aadArray CborEncoder.list at same
  simp only [List.length_cons, List.length_nil, List.flatten_cons,
    List.flatten_nil, List.append_nil, List.append_assoc,
    List.append_cancel_left_eq, List.append_cancel_right_eq] at same
  exact injective same

theorem coseAad_injective {left right aad : Bytes}
    (leftBuilt : coseAad cbor left = .ok aad)
    (rightBuilt : coseAad cbor right = .ok aad) : left = right := by
  obtain ⟨_, _, rfl⟩ := coseAad_eq_ok.mp leftBuilt
  obtain ⟨_, _, same⟩ := coseAad_eq_ok.mp rightBuilt
  exact encStructure_injective injective same

end Encodings

/-! ## The slot of the client -/

/-- The call writes to the request-response context: a request comes in, or one
goes out and takes a sequence number. -/
def TouchesSlot (event : CallEvent) : Prop :=
  (∃ input capacity packet option first piv kidContext,
    event.input = .oscore2coap input capacity ∧
      ReachesUpdate event.before input packet option first piv kidContext) ∨
    event.after.sc.senderSeqNum ≠ event.before.sc.senderSeqNum

/-- The call protects a request. -/
def ProtectsRequest (event : CallEvent) : Prop :=
  ∃ packet, Encrypts event packet ∧ isRequest packet = true

theorem unchanged_of_not_touches (step : callMachine platform event)
    (untouched : ¬ TouchesSlot event) : event.after = event.before := by
  cases called : event.input with
  | coap2oscore input capacity =>
      obtain ⟨outcome, ran, _⟩ := callMachine_coap2oscore step called
      have counts := coap2oscore_countsSeqNum platform input capacity event.before
      rw [ran] at counts
      rcases counts with same | counted
      · exact same
      · refine absurd (Or.inr ?_) untouched
        rw [counted]
        simp
  | oscore2coap input capacity =>
      have unreached : ∀ packet option first piv kidContext,
          ¬ ReachesUpdate event.before input packet option first piv
            kidContext := by
        intro packet option first piv kidContext reaches
        exact
          untouched
            (Or.inl
              ⟨input, capacity, packet, option, first, piv, kidContext, called,
                reaches⟩)
      have unchanged :=
        @oscore2coap_of_not_reaches platform input capacity event.before
          unreached
      rwa [callMachine_oscore2coap step called] at unchanged

/-- A protected request leaves its Partial IV and its AAD in the context. -/
theorem ProtectsRequest.slot (protects : ProtectsRequest event)
    (step : callMachine platform event) :
    TouchesSlot event ∧
      event.after.rrc.aad =
        aadArray platform.toCborEncoder event.after.cc.aeadAlg
          event.after.rrc.kid event.after.rrc.piv [] := by
  obtain ⟨packet, encrypts, request⟩ := protects
  obtain ⟨oscorePacket, protectedPacket⟩ := encrypts.isProtected step
  obtain ⟨options, plaintext, value, ciphertext, _, _, _, valued, _, _⟩ :=
    protectedPacket
  rw [optionValue_eq_ok, if_pos request] at valued
  obtain ⟨_, nonce, _, _, after, _⟩ := requestOption_eq_ok.mp valued
  rw [after]
  refine ⟨Or.inr ?_, rfl⟩
  rw [after]
  simp [Context.setNonceAndAad, Context.nextRequest]

/-! ## The slot of the server -/

theorem Accepts.takesOver {identity : RequestIdentity}
    (accepts : Accepts event identity) (step : callMachine platform event) :
    TakesOver platform event identity.piv identity.kidContext ∧
      event.after.rrc.aad =
        aadArray platform.toCborEncoder event.after.cc.aeadAlg
          event.after.rrc.kid identity.piv [] := by
  obtain ⟨input, capacity, packet, output, called, named, parsed, request,
    accepted⟩ := accepts.request step
  obtain ⟨option, first, piv, kidContext, between, optionParsed, fields,
    server, samePiv, sameContext, _, same, aad⟩ :=
    accepted.fields parsed named
  constructor
  · exact
      ⟨input, capacity, packet, option, first, piv, kidContext, between,
        called, ⟨parsed, optionParsed, request, fields⟩, server,
        samePiv.symm, sameContext.symm⟩
  · rw [aad, same.aeadAlg, same.kid, ← samePiv,
      ← (serverUpdate_updated server).piv]
    rfl

/-! ## What the slots hold -/

/-- Nothing can be encrypted or decrypted with the AAD array of a new
context. -/
theorem initialised_aad_unusable {params : OscoreInitParams} {c : Context}
    {cbor : CborEncoder} {aad : Bytes}
    (initialised : Initialised platform params c) :
    coseAad cbor c.rrc.aad ≠ .ok aad := by
  intro built
  obtain ⟨buffers, done⟩ := initialised
  obtain ⟨short, _⟩ := coseAad_eq_ok.mp built
  rw [(oscoreContextInit_initial done).aad_length] at short
  exact absurd short (by decide)

theorem clientSlot {params : OscoreInitParams} {first c : Context}
    {past : List CallEvent} {aad : Bytes}
    (initialised : Initialised platform params first)
    (run : CallRun platform first past c)
    (usable : coseAad platform.toCborEncoder c.rrc.aad = .ok aad) :
    ∃ touching, LastWhere TouchesSlot past touching ∧
      c.rrc = touching.after.rrc := by
  have since :=
    run.since_last TouchesSlot Context.rrc
      fun other _ step untouched => by
        rw [unchanged_of_not_touches step untouched]
  rcases since with ⟨_, unwritten⟩ | touched
  · rw [unwritten] at usable
    exact absurd usable (initialised_aad_unusable initialised)
  · exact touched

theorem serverSlot {params : OscoreInitParams} {first c : Context}
    {past : List CallEvent} {aad : Bytes}
    (initialised : Initialised platform params first)
    (run : CallRun platform first past c)
    (answers : ∀ call ∈ past, AnswersOnly call)
    (usable : coseAad platform.toCborEncoder c.rrc.aad = .ok aad) :
    ∃ taken, LastWhere (TakesRequest platform) past taken ∧
      c.rrc.aad = taken.after.rrc.aad := by
  have since :=
    run.since_last (TakesRequest platform) (fun c => c.rrc.aad)
      fun other member step untaken => by
        cases called : other.input with
        | coap2oscore input capacity =>
            rw [callMachine_answers_unchanged step (answers other member)
              called]
        | oscore2coap input capacity =>
            exact (oscore2coap_not_takes_nonceAndAad called step untaken).2
  rcases since with ⟨_, unwritten⟩ | taken
  · rw [unwritten] at usable
    exact absurd usable (initialised_aad_unusable initialised)
  · exact taken

/-! ## The property -/

/-- The call accepts a response. -/
def AcceptsResponse (event : CallEvent) (packet : OCoapPacket) : Prop :=
  ∃ input capacity output, event.input = .oscore2coap input capacity ∧
    event.output = .ok (some output) ∧ buf2coap input = .ok packet ∧
    isRequest packet = false

/-- The call accepts some request. -/
def AcceptsRequest (event : CallEvent) : Prop :=
  ∃ identity, Accepts event identity

/-- The client accepts a response, and its ciphertext is one that the server
produced when the last request it had accepted was one with the Partial IV of
the last request the client had protected. -/
def BoundResponse (platform : Platform) (past : List SystemEvent)
    (packet : OCoapPacket) : Prop :=
  ∃ before answer after sealing request accepted identity,
    past = before ++ answer :: after ∧ answer.input.1 = .server ∧
      Responds (localCall answer) ∧
      Seals platform (localCall answer) sealing ∧
      sealing.ciphertext = packet.payload ∧
      LastWhere ProtectsRequest (calls .client past) request ∧
      LastWhere AcceptsRequest (calls .server before) accepted ∧
      Accepts accepted identity ∧ identity.piv = request.after.rrc.piv

/-- Every response the client accepts is bound to its request. -/
def ResponsesBound (platform : Platform) (events : List SystemEvent) : Prop :=
  Throughout
    (fun past event => ∀ packet, event.input.1 = .client →
      AcceptsResponse (localCall event) packet →
      BoundResponse platform past packet)
    events

/-- The slots hold what the last request put there: where the client accepts a
response, the last call that touched its slot protected a request; where the
server protects a response, the last request taken over was accepted. -/
structure SlotsHeld (platform : Platform) (events : List SystemEvent) :
    Prop where
  client :
    Throughout
      (fun past event => ∀ packet touching, event.input.1 = .client →
        AcceptsResponse (localCall event) packet →
        LastWhere TouchesSlot (calls .client past) touching →
        ProtectsRequest touching)
      events
  server :
    Throughout
      (fun past event => ∀ taken, event.input.1 = .server →
        Responds (localCall event) →
        LastWhere (TakesRequest platform) (calls .server past) taken →
        AcceptsRequest taken)
      events

/-! ## The proof -/

/-- The AADs of a matching client and server in one run determine their Partial
IVs. -/
theorem matching_piv_eq {clientParams serverParams : OscoreInitParams}
    {client server : Context} {clientPiv serverPiv : Bytes}
    {first : System} (matching : Matching clientParams serverParams)
    (clientInitialised : Initialised platform clientParams first.client)
    (serverInitialised : Initialised platform serverParams first.server)
    (bstr_injective : Function.Injective platform.bstr)
    (clientSame : SameParameters first.client client)
    (serverSame : SameParameters first.server server)
    (same :
      aadArray platform.toCborEncoder client.cc.aeadAlg client.rrc.kid
          clientPiv [] =
        aadArray platform.toCborEncoder server.cc.aeadAlg server.rrc.kid
          serverPiv []) :
    clientPiv = serverPiv := by
  obtain ⟨_, clientDone⟩ := clientInitialised
  obtain ⟨_, serverDone⟩ := serverInitialised
  have clientInitial := oscoreContextInit_initial clientDone
  have serverInitial := oscoreContextInit_initial serverDone
  have aeadAlg : server.cc.aeadAlg = client.cc.aeadAlg := by
    rw [serverSame.aeadAlg, clientSame.aeadAlg, serverInitial.aeadAlg,
      clientInitial.aeadAlg, matching.aeadAlg]
  have kid : server.rrc.kid = client.rrc.kid := by
    rw [serverSame.kid, clientSame.kid, serverInitial.kid, clientInitial.kid]
    unfold OscoreInitParams.clientId
    rw [matching.clientType, matching.serverType]
    exact matching.recipientId
  rw [aeadAlg, kid] at same
  exact aadArray_injective bstr_injective same

/-- Where the client accepts a response, it holds the AAD of the last request
it has protected. -/
theorem client_aad_of_held {params : OscoreInitParams}
    {first last : System} {events past rest : List SystemEvent}
    {event : SystemEvent} {packet : OCoapPacket} {aad : Bytes}
    (initialised : Initialised platform params first.client)
    (run : SystemRun platform first events last)
    (held : SlotsHeld platform events)
    (split : events = past ++ event :: rest)
    (onClient : event.input.1 = .client)
    (accepts : AcceptsResponse (localCall event) packet)
    (usable :
      coseAad platform.toCborEncoder event.before.client.rrc.aad = .ok aad) :
    ∃ request, LastWhere ProtectsRequest (calls .client past) request ∧
      event.before.client.rrc.aad =
        aadArray platform.toCborEncoder event.before.client.cc.aeadAlg
          event.before.client.rrc.kid request.after.rrc.piv [] := by
  obtain ⟨pastRun, _, _⟩ := Run.split_iff.mp (split ▸ run)
  have clientRun := SystemRun.calls pastRun .client
  obtain ⟨request, isLast, slot⟩ := clientSlot initialised clientRun usable
  have protects :=
    held.client past event rest split packet request onClient accepts isLast
  refine ⟨request, isLast.of_implies protects ?_, ?_⟩
  · intro other member otherProtects
    exact (otherProtects.slot (clientRun.step_of_mem member)).1
  · have requestMember := isLast.mem
    have aadBuilt := (protects.slot (clientRun.step_of_mem requestMember)).2
    have same : SameParameters request.after event.before.client := by
      obtain ⟨front, back, equal⟩ := List.append_of_mem requestMember
      rw [equal] at clientRun
      obtain ⟨_, _, after⟩ := Run.split_iff.mp clientRun
      exact CallRun.sameParameters after
    have slotAad : event.before.client.rrc.aad = request.after.rrc.aad :=
      congrArg ReqRespContext.aad slot
    rw [slotAad, aadBuilt, same.aeadAlg, same.kid]

/-- Where the server protects a response, it holds the AAD of the last request
it has accepted. -/
theorem server_aad_of_held {params : OscoreInitParams}
    {first last : System} {events past rest : List SystemEvent}
    {event : SystemEvent} {aad : Bytes}
    (initialised : Initialised platform params first.server)
    (run : SystemRun platform first events last)
    (answers : ∀ call ∈ calls .server events, AnswersOnly call)
    (held : SlotsHeld platform events)
    (split : events = past ++ event :: rest)
    (onServer : event.input.1 = .server)
    (responds : Responds (localCall event))
    (usable :
      coseAad platform.toCborEncoder event.before.server.rrc.aad = .ok aad) :
    ∃ accepted identity,
      LastWhere AcceptsRequest (calls .server past) accepted ∧
        Accepts accepted identity ∧
        event.before.server.rrc.aad =
          aadArray platform.toCborEncoder event.before.server.cc.aeadAlg
            event.before.server.rrc.kid identity.piv [] := by
  obtain ⟨pastRun, _, _⟩ := Run.split_iff.mp (split ▸ run)
  have serverRun := SystemRun.calls pastRun .server
  have pastAnswers : ∀ call ∈ calls .server past, AnswersOnly call := by
    intro call member
    apply answers call
    rw [split, calls, List.filterMap_append]
    exact List.mem_append_left _ member
  obtain ⟨accepted, isLast, slot⟩ :=
    serverSlot initialised serverRun pastAnswers usable
  obtain ⟨identity, accepts⟩ :=
    held.server past event rest split accepted onServer responds isLast
  refine ⟨accepted, identity, isLast.of_implies ⟨identity, accepts⟩ ?_,
    accepts, ?_⟩
  · intro other member otherAccepts
    obtain ⟨otherIdentity, otherAccepts⟩ := otherAccepts
    exact
      ⟨_, _, (otherAccepts.takesOver (serverRun.step_of_mem member)).1⟩
  · have acceptedMember := isLast.mem
    have aadBuilt :=
      (accepts.takesOver (serverRun.step_of_mem acceptedMember)).2
    have same : SameParameters accepted.after event.before.server := by
      obtain ⟨front, back, equal⟩ := List.append_of_mem acceptedMember
      rw [equal] at serverRun
      obtain ⟨_, _, after⟩ := Run.split_iff.mp serverRun
      exact CallRun.sameParameters after
    have slotAad : event.before.server.rrc.aad = accepted.after.rrc.aad := slot
    rw [slotAad, aadBuilt, same.aeadAlg, same.kid]

/-- A ciphertext that the client opens comes from the server. -/
theorem sealed_by_server {events past rest : List SystemEvent}
    {event : SystemEvent} {sealing : Sealing}
    (separate : ∀ event ∈ events, ∀ other ∈ events,
      event.after.client.sc.senderKey ≠
        other.after.client.rc.recipientKey)
    (unforgeable : Unforgeable platform events)
    (split : events = past ++ event :: rest)
    (onClient : event.input.1 = .client)
    (opens : Opens platform (localCall event) sealing) :
    ∃ answer ∈ past, answer.input.1 = .server ∧
      Seals platform (localCall answer) sealing := by
  obtain ⟨answer, member, seals⟩ :=
    unforgeable past event rest split sealing opens
  refine ⟨answer, member, ?_, seals⟩
  cases party : answer.input.1 with
  | server =>
      rfl
  | client =>
      obtain ⟨_, _, _, _, sealKey, _⟩ := seals
      obtain ⟨_, _, _, _, _, _, _, openKey, _⟩ := opens
      rw [openKey, localCall_after onClient, localCall_after party] at sealKey
      have answerMember : answer ∈ events := by
        rw [split]
        exact List.mem_append_left _ member
      have eventMember : event ∈ events := by
        rw [split]
        simp
      exact absurd sealKey.symm (separate answer answerMember event eventMember)

/-- Responses are bound to requests in every run in which the slots hold what
the last request put there. -/
theorem responsesBound_of_slotsHeld (platform : Platform)
    (clientParams serverParams : OscoreInitParams)
    (matching : Matching clientParams serverParams)
    (first last : System) (events : List SystemEvent)
    (clientInitialised : Initialised platform clientParams first.client)
    (serverInitialised : Initialised platform serverParams first.server)
    (run : SystemRun platform first events last)
    (answers : ∀ call ∈ calls .server events, AnswersOnly call)
    (bstr_injective : Function.Injective platform.bstr)
    (separate : ∀ event ∈ events, ∀ other ∈ events,
      event.after.client.sc.senderKey ≠
        other.after.client.rc.recipientKey)
    (unforgeable : Unforgeable platform events)
    (held : SlotsHeld platform events) :
    ResponsesBound platform events := by
  intro past event rest split packet onClient accepts
  obtain ⟨pastRun, ⟨step, _⟩, _⟩ := Run.split_iff.mp (split ▸ run)
  have accepted := accepts
  obtain ⟨input, capacity, output, called, succeeded, parsed, response⟩ :=
    accepted
  have unchanged : event.after.client = event.before.client := by
    have kept :=
      @oscore2coap_of_not_isRequest platform input capacity packet
        (localCall event).before parsed response
    rw [callMachine_oscore2coap step called] at kept
    rwa [localCall_after onClient, localCall_before onClient] at kept
  obtain ⟨sealing, _, opens, _⟩ := opens_of_accepted step called succeeded
  obtain ⟨answer, member, onServer, seals⟩ :=
    sealed_by_server separate unforgeable split onClient opens
  obtain ⟨_, _, _, _, called', _, parsed', _, _, openAad, openCiphertext⟩ :=
    opens
  rw [called] at called'
  cases called'
  rw [parsed, Except.ok.injEq] at parsed'
  subst parsed'
  have clientUsable :
      coseAad platform.toCborEncoder event.before.client.rrc.aad =
        .ok sealing.aad := by
    rw [localCall_after onClient] at openAad
    rw [← unchanged]
    exact openAad
  -- the server sealed it in answer to the last request it had accepted
  obtain ⟨before, after, rfl⟩ := List.append_of_mem member
  have answerSplit : events = before ++ answer :: (after ++ event :: rest) := by
    rw [split]
    simp
  obtain ⟨_, ⟨answerStep, _⟩, _⟩ := Run.split_iff.mp (answerSplit ▸ run)
  have sealed := seals
  obtain ⟨answerPacket, oscorePacket, encrypts, protectedPacket, _, _,
    sealAad, _⟩ := sealed
  have answersOnly : AnswersOnly (localCall answer) := by
    apply answers
    rw [mem_calls]
    refine ⟨answer, ?_, onServer, rfl⟩
    rw [answerSplit]
    simp
  have answerResponse : isRequest answerPacket = false := by
    obtain ⟨answerInput, answerCapacity, _, answerCalled, _, answerParsed,
      notCopied⟩ := encrypts
    cases request : isRequest answerPacket with
    | false =>
        rfl
    | true =>
        have copied :=
          answersOnly answerInput answerCapacity answerPacket answerCalled
            answerParsed request
        rw [notCopied] at copied
        cases copied
  have answerUnchanged := protectedPacket.response_context answerResponse
  rw [answerUnchanged, localCall_before onServer] at sealAad
  obtain ⟨request, isLastRequest, clientAad⟩ :=
    client_aad_of_held clientInitialised run held split onClient accepts
      clientUsable
  obtain ⟨acceptedCall, identity, isLastAccepted, acceptsIdentity,
    serverAad⟩ :=
    server_aad_of_held serverInitialised run answers held answerSplit onServer
      ⟨answerPacket, encrypts, answerResponse⟩ sealAad
  refine
    ⟨before, answer, after, sealing, request, acceptedCall, identity, rfl,
      onServer, ⟨answerPacket, encrypts, answerResponse⟩, seals,
      openCiphertext, isLastRequest, isLastAccepted, acceptsIdentity, ?_⟩
  have sameAad :=
    coseAad_injective bstr_injective clientUsable sealAad
  have beforeRun : SystemRun platform first before answer.before :=
    (Run.split_iff.mp (answerSplit ▸ run)).1
  exact
    (matching_piv_eq matching clientInitialised serverInitialised
      bstr_injective (SystemRun.sameParameters pastRun .client)
      (SystemRun.sameParameters beforeRun .server)
      (clientAad.symm.trans (sameAad.trans serverAad))).symm

/-! ## An exchange and an attack on test vector T1 -/

/-- The response `t1Response` to the first request, as the server protects
it. -/
def t1OscoreResponse : Bytes :=
  [0x60, 0x44, 0, 1, 0x90, 0xFF, 0x18, 0xC2, 0xF4, 0x5A, 0xF1, 0xE3, 8, 0xAA,
    0x8D, 0xF2, 0x8A, 0xBF]

def t1OscoreResponsePacket : OCoapPacket where
  header := { ver := 1, type := 2, tkl := 0, code := 0x44, mid := 1 }
  token := some []
  options := some [{ delta := 9, len := 0, value := [], optionNumber := 9 }]
  payloadLen := 12
  payload := t1OscoreResponse.drop 6

/-- A request-class packet for the client with the first Partial IV, which
nobody has encrypted. -/
def t1ForgedRequest : Bytes :=
  [0x40, 2, 0, 1, 0x93, 9, 0, 1, 0xFF] ++ List.replicate 13 0

/-- The client once its last packet had this Partial IV. -/
private def askedClient (piv : UInt8) (senderSeqNum : UInt64) : Context :=
  { t1Client with
    rrc :=
      { t1Client.rrc with
        nonce := t1CommonIv.dropLast ++ [0x7C ^^^ piv]
        aad := aadArray canonicalCbor .oscoreAesCcm16_64_128 [] [piv] []
        piv := [piv] }
    sc := { t1Client.sc with senderSeqNum } }

/-- The server once it has accepted the first request. -/
private def askedServer : Context :=
  { t1Server with
    rrc :=
      { t1Server.rrc with
        nonce := t1CommonIv
        aad := aadArray canonicalCbor .oscoreAesCcm16_64_128 [] [0] []
        piv := [0] } }

private def asks : SystemEvent where
  before := ⟨t1Client, t1Server⟩
  input := (.client, .coap2oscore t1Request 64)
  output := .ok (some t1OscoreRequest)
  after := ⟨askedClient 0 1, t1Server⟩

private def serves : SystemEvent where
  before := ⟨askedClient 0 1, t1Server⟩
  input := (.server, .oscore2coap t1OscoreRequest 64)
  output := .ok (some t1Request)
  after := ⟨askedClient 0 1, askedServer⟩

private def responds : SystemEvent where
  before := ⟨askedClient 0 1, askedServer⟩
  input := (.server, .coap2oscore t1Response 64)
  output := .ok (some t1OscoreResponse)
  after := ⟨askedClient 0 1, askedServer⟩

private def hears : SystemEvent where
  before := ⟨askedClient 0 1, askedServer⟩
  input := (.client, .oscore2coap t1OscoreResponse 64)
  output := .ok (some t1Response)
  after := ⟨askedClient 0 1, askedServer⟩

private def asksAgain : SystemEvent where
  before := ⟨askedClient 0 1, askedServer⟩
  input := (.client, .coap2oscore t1Request 64)
  output := .ok (some t1NextOscoreRequest)
  after := ⟨askedClient 1 2, askedServer⟩

private def isDeceived : SystemEvent where
  before := ⟨askedClient 1 2, askedServer⟩
  input := (.client, .oscore2coap t1ForgedRequest 64)
  output := fail .unexpectedResultFromExtLib
  after := ⟨askedClient 0 2, askedServer⟩

private def hearsAgain : SystemEvent where
  before := ⟨askedClient 0 2, askedServer⟩
  input := (.client, .oscore2coap t1OscoreResponse 64)
  output := .ok (some t1Response)
  after := ⟨askedClient 0 2, askedServer⟩

private def exchange : List SystemEvent :=
  [asks, serves, responds, hears]

private def attack : List SystemEvent :=
  exchange ++ [asksAgain, isDeceived, hearsAgain]

private theorem attack_calls :
    ∀ event ∈ attack, callMachine t1Platform (localCall event) := by
  decide +kernel

private theorem asks_call : callMachine t1Platform (localCall asks) :=
  attack_calls asks (by simp [attack, exchange])

private theorem responds_call :
    callMachine t1Platform (localCall responds) :=
  attack_calls responds (by simp [attack, exchange])

private theorem exchange_run :
    SystemRun t1Platform ⟨t1Client, t1Server⟩ exchange
      ⟨askedClient 0 1, askedServer⟩ := by
  have served : callMachine t1Platform (localCall serves) :=
    attack_calls serves (by simp [attack, exchange])
  have heard : callMachine t1Platform (localCall hears) :=
    attack_calls hears (by simp [attack, exchange])
  refine .cons (systemMachine_client rfl asks_call rfl) ?_
  refine .cons (systemMachine_server rfl served rfl) ?_
  refine .cons (systemMachine_server rfl responds_call rfl) ?_
  exact .cons (systemMachine_client rfl heard rfl) (.nil _)

private theorem attack_run :
    SystemRun t1Platform ⟨t1Client, t1Server⟩ attack
      ⟨askedClient 0 2, askedServer⟩ := by
  have askedAgain : callMachine t1Platform (localCall asksAgain) :=
    attack_calls asksAgain (by simp [attack, exchange])
  have deceived : callMachine t1Platform (localCall isDeceived) :=
    attack_calls isDeceived (by simp [attack, exchange])
  have heardAgain : callMachine t1Platform (localCall hearsAgain) :=
    attack_calls hearsAgain (by simp [attack, exchange])
  refine Run.append_iff.mpr ⟨⟨askedClient 0 1, askedServer⟩, exchange_run, ?_⟩
  refine .cons (systemMachine_client rfl askedAgain rfl) ?_
  refine .cons (systemMachine_client rfl deceived rfl) ?_
  exact .cons (systemMachine_client rfl heardAgain rfl) (.nil _)

/-- The keys of the two directions differ in the whole run. -/
private theorem attack_separate :
    ∀ event ∈ attack, ∀ other ∈ attack,
      event.after.client.sc.senderKey ≠
        other.after.client.rc.recipientKey := by
  decide +kernel

private def requestSealing : Sealing where
  key := t1ClientKey
  nonce := t1CommonIv
  aad :=
    encStructure canonicalCbor
      (aadArray canonicalCbor .oscoreAesCcm16_64_128 [] [0] [])
  ciphertext := t1OscoreRequest.drop 8

private def responseSealing : Sealing where
  key := t1ServerKey
  nonce := t1CommonIv
  aad := requestSealing.aad
  ciphertext := t1OscoreResponse.drop 6

private theorem exchange_payloads :
    (exec (coap2oscorePacket t1Platform t1Packet) t1Client).1.map
          OCoapPacket.payload =
        .ok requestSealing.ciphertext ∧
      (exec (coap2oscorePacket t1Platform t1ResponsePacket)
            askedServer).1.map
          OCoapPacket.payload =
        .ok responseSealing.ciphertext := by
  decide +kernel

private theorem asks_encrypts : Encrypts (localCall asks) t1Packet :=
  ⟨_, _, _, rfl, rfl, rfl, rfl⟩

private theorem asks_seals :
    Seals t1Platform (localCall asks) requestSealing :=
  seals_of_payload asks_call asks_encrypts rfl rfl rfl
    exchange_payloads.1

private theorem serves_opens :
    Opens t1Platform (localCall serves) requestSealing :=
  ⟨_, _, _, _, rfl, rfl, rfl, rfl, rfl, rfl, rfl⟩

private theorem responds_encrypts :
    Encrypts (localCall responds) t1ResponsePacket :=
  ⟨_, _, _, rfl, rfl, rfl, rfl⟩

private theorem responds_seals :
    Seals t1Platform (localCall responds) responseSealing :=
  seals_of_payload responds_call responds_encrypts rfl rfl rfl
    exchange_payloads.2

private theorem hears_opens :
    Opens t1Platform (localCall hears) responseSealing :=
  ⟨_, _, _, _, rfl, rfl, rfl, rfl, rfl, rfl, rfl⟩

private theorem hearsAgain_opens :
    Opens t1Platform (localCall hearsAgain) responseSealing :=
  ⟨_, _, _, _, rfl, rfl, rfl, rfl, rfl, rfl, rfl⟩

private theorem not_opens_of_protects {event : CallEvent}
    {sealing : Sealing}
    (protects : ∃ input capacity, event.input = .coap2oscore input capacity) :
    ¬ Opens platform event sealing := by
  intro opens
  obtain ⟨_, _, called⟩ := protects
  obtain ⟨_, _, _, _, called', _⟩ := opens
  rw [called] at called'
  cases called'

private theorem not_opens_of_rejects {event : CallEvent} {sealing : Sealing}
    {fault : Fault} (rejects : event.output = .error fault) :
    ¬ Opens platform event sealing := by
  intro opens
  obtain ⟨_, _, _, _, _, accepted, _⟩ := opens
  rw [accepted] at rejects
  cases rejects

private theorem attack_unforgeable : Unforgeable t1Platform attack := by
  unfold Unforgeable attack exchange
  simp only [List.cons_append, List.nil_append, throughout_cons_iff,
    throughout_nil, and_true]
  refine ⟨?_, ?_, ?_, ?_, ?_, ?_, ?_⟩
  · intro sealing opens
    exact absurd opens (not_opens_of_protects ⟨_, _, rfl⟩)
  · intro sealing opens
    rw [opens.unique serves_opens]
    exact ⟨asks, by simp, asks_seals⟩
  · intro sealing opens
    exact absurd opens (not_opens_of_protects ⟨_, _, rfl⟩)
  · intro sealing opens
    rw [opens.unique hears_opens]
    exact ⟨responds, by simp, responds_seals⟩
  · intro sealing opens
    exact absurd opens (not_opens_of_protects ⟨_, _, rfl⟩)
  · intro sealing opens
    exact absurd opens (not_opens_of_rejects rfl)
  · intro sealing opens
    rw [opens.unique hearsAgain_opens]
    exact ⟨responds, by simp, responds_seals⟩

private theorem exchange_unforgeable : Unforgeable t1Platform exchange :=
  Throughout.front attack_unforgeable

/-- A call that protects a packet accepts no response. -/
private theorem not_acceptsResponse {event : CallEvent} {packet : OCoapPacket}
    (protects : ∃ input capacity, event.input = .coap2oscore input capacity) :
    ¬ AcceptsResponse event packet := by
  intro accepts
  obtain ⟨_, _, called⟩ := protects
  obtain ⟨_, _, _, called', _⟩ := accepts
  rw [called] at called'
  cases called'

private theorem serves_accepts :
    Accepts (localCall serves) ⟨[], [], [0]⟩ :=
  ⟨_, _, _, rfl, rfl, rfl⟩

private theorem not_responds {event : CallEvent}
    (receives : ∃ input capacity, event.input = .oscore2coap input capacity) :
    ¬ Responds event := by
  intro responds
  obtain ⟨_, _, called⟩ := receives
  obtain ⟨_, ⟨_, _, _, called', _⟩, _⟩ := responds
  rw [called] at called'
  cases called'

private theorem exchange_slotsHeld : SlotsHeld t1Platform exchange where
  client := by
    unfold exchange
    simp only [throughout_cons_iff, throughout_nil, and_true]
    refine ⟨?_, ?_, ?_, ?_⟩
    · intro packet touching _ accepts
      exact absurd accepts (not_acceptsResponse ⟨_, _, rfl⟩)
    · intro packet touching onClient
      cases onClient
    · intro packet touching onClient
      cases onClient
    · intro packet touching _ _ isLast
      have same : touching = localCall asks := by
        simpa [calls, asks, serves, responds] using isLast.mem
      rw [same]
      exact ⟨t1Packet, asks_encrypts, rfl⟩
  server := by
    unfold exchange
    simp only [throughout_cons_iff, throughout_nil, and_true]
    refine ⟨?_, ?_, ?_, ?_⟩
    · intro taken onServer
      cases onServer
    · intro taken _ answers
      exact absurd answers (not_responds ⟨_, _, rfl⟩)
    · intro taken _ _ isLast
      have same : taken = localCall serves := by
        simpa [calls, asks, serves] using isLast.mem
      rw [same]
      exact ⟨_, serves_accepts⟩
    · intro taken onServer
      cases onServer

private theorem asksAgain_encrypts :
    Encrypts (localCall asksAgain) t1Packet :=
  ⟨_, _, _, rfl, rfl, rfl, rfl⟩

private theorem not_protectsRequest {event : CallEvent}
    (receives : ∃ input capacity, event.input = .oscore2coap input capacity) :
    ¬ ProtectsRequest event := by
  intro protects
  obtain ⟨_, _, called⟩ := receives
  obtain ⟨_, ⟨_, _, _, called', _⟩, _⟩ := protects
  rw [called] at called'
  cases called'

private theorem not_acceptsRequest {event : CallEvent}
    (protects : ∃ input capacity, event.input = .coap2oscore input capacity) :
    ¬ AcceptsRequest event := by
  intro accepts
  obtain ⟨_, _, called⟩ := protects
  obtain ⟨_, _, _, _, called', _⟩ := accepts
  rw [called] at called'
  cases called'

/-- What the client hears again is not bound to what it has asked last. -/
private theorem hearsAgain_unbound {packet : OCoapPacket} :
    ¬ BoundResponse t1Platform (exchange ++ [asksAgain, isDeceived])
      packet := by
  intro bound
  obtain ⟨front, answer, back, sealing, request, accepted, identity, split,
    _, _, _, _, lastRequest, lastAccepted, accepts, same⟩ := bound
  have requestIs : request = localCall asksAgain := by
    have asked :
        calls .client (exchange ++ [asksAgain, isDeceived]) =
          [localCall asks, localCall hears, localCall asksAgain,
            localCall isDeceived] :=
      rfl
    have expected :
        LastWhere ProtectsRequest
          (calls .client (exchange ++ [asksAgain, isDeceived]))
          (localCall asksAgain) := by
      refine
        ⟨[localCall asks, localCall hears], [localCall isDeceived], asked,
          ⟨t1Packet, asksAgain_encrypts, rfl⟩, ?_⟩
      intro later member
      rw [List.mem_singleton.mp member]
      exact not_protectsRequest ⟨_, _, rfl⟩
    exact lastRequest.unique expected
  have acceptedIs : accepted = localCall serves := by
    have answered :
        calls .server (exchange ++ [asksAgain, isDeceived]) =
          [localCall serves, localCall responds] :=
      rfl
    have member :
        accepted ∈ calls .server (exchange ++ [asksAgain, isDeceived]) := by
      rw [split, calls, List.filterMap_append]
      exact List.mem_append_left _ lastAccepted.mem
    rw [answered, List.mem_pair] at member
    rcases member with isServes | isResponds
    · exact isServes
    · rw [isResponds] at accepts
      exact absurd ⟨_, accepts⟩ (not_acceptsRequest ⟨_, _, rfl⟩)
  rw [acceptedIs] at accepts
  have identityIs : identity = ⟨[], [], [0]⟩ :=
    Accepts.unique accepts serves_accepts
  rw [identityIs, requestIs] at same
  cases same

private theorem attack_answers :
    ∀ call ∈ calls .server attack, AnswersOnly call := by
  intro call member input capacity packet called parsed request
  have answered :
      calls .server attack = [localCall serves, localCall responds] :=
    rfl
  rw [answered, List.mem_pair] at member
  rcases member with isServes | isResponds
  · rw [isServes] at called
    cases called
  · rw [isResponds] at called
    cases called
    cases parsed
    cases request

theorem responsesBound_t1 :
    ∃ last,
      SystemRun t1Platform ⟨t1Client, t1Server⟩ exchange last ∧
        ResponsesBound t1Platform exchange :=
  ⟨_, exchange_run,
    responsesBound_of_slotsHeld t1Platform t1ClientParams t1ServerParams
      t1_matchingParams ⟨t1Client, t1Server⟩ ⟨askedClient 0 1, askedServer⟩ exchange
      t1Client_initialised t1Server_initialised exchange_run
      attack_answers canonicalCbor_bstr_injective
      (fun event member other otherMember =>
        attack_separate event (List.mem_append_left _ member) other
          (List.mem_append_left _ otherMember))
      exchange_unforgeable exchange_slotsHeld⟩

/-- A forged request puts the Partial IV of an old request back into the slot
of the client, which then accepts the old response. -/
theorem response_boundToOtherRequest :
    ∃ events last,
      Matching t1ClientParams t1ServerParams ∧
        Initialised t1Platform t1ClientParams t1Client ∧
        Initialised t1Platform t1ServerParams t1Server ∧
        SystemRun t1Platform ⟨t1Client, t1Server⟩ events last ∧
        (∀ call ∈ calls .server events, AnswersOnly call) ∧
        Function.Injective t1Platform.bstr ∧
        (∀ event ∈ events, ∀ other ∈ events,
          event.after.client.sc.senderKey ≠
            other.after.client.rc.recipientKey) ∧
        Unforgeable t1Platform events ∧
        ¬ ResponsesBound t1Platform events := by
  refine
    ⟨attack, ⟨askedClient 0 2, askedServer⟩, t1_matchingParams, t1Client_initialised,
      t1Server_initialised, attack_run, attack_answers,
      canonicalCbor_bstr_injective, attack_separate, attack_unforgeable, ?_⟩
  intro bound
  have accepted :
      AcceptsResponse (localCall hearsAgain) t1OscoreResponsePacket :=
    ⟨_, _, _, rfl, rfl, rfl, rfl⟩
  exact
    hearsAgain_unbound
      (bound (exchange ++ [asksAgain, isDeceived]) hearsAgain [] rfl _ rfl
        accepted)

end UoscoreUedhoc.Oscore
