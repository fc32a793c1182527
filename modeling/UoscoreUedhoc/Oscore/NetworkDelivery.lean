import UoscoreUedhoc.Oscore.RequestDelivery
import UoscoreUedhoc.Oscore.ResponseBinding
import UoscoreUedhoc.Oscore.SystemRuns

/-!
# Delivery over a network

A client and a server between which packets are lost, repeated and delivered in
any order, and to which any other packets are delivered that do not get as far
as `context_update`.  Every request the client has protected is delivered by
the server as it was, whenever and however often it arrives; and a response the
server has protected for the last request of the client is delivered by the
client as it was.
-/

namespace UoscoreUedhoc.Oscore

open UoscoreUedhoc
open UoscoreUedhoc.Coap
open UoscoreUedhoc.Runs
open Update

variable {platform : Platform} {params : OscoreInitParams}

/-! ## The network -/

/-- The call protects a request that comes through, under a Partial IV without
a byte that is taken for the payload marker. -/
structure SendsRequest (event : CallEvent) (request : Message)
    (packet : Bytes) : Prop where
  called : ∃ capacity, event.input = .coap2oscore request.bytes capacity
  output : event.output = .ok (some packet)
  isRequest : IsRequest request
  through : ComesThrough request
  unmarked : 0xFF ∉ event.after.rrc.piv

/-- The input gets as far as `context_update`. -/
def Reaches (c : Context) (input : Bytes) : Prop :=
  ∃ packet option first piv kidContext,
    ReachesUpdate c input packet option first piv kidContext

/-- Only requests of the client reach the update of the server, and nothing
reaches that of the client. -/
structure OwnPacketsOnly (events : List SystemEvent) : Prop where
  client : ∀ event ∈ events, ∀ input capacity,
    event.input = (.client, .oscore2coap input capacity) →
      ¬ Reaches event.before.client input
  server :
    Throughout
      (fun past event => ∀ input capacity,
        event.input = (.server, .oscore2coap input capacity) →
        Reaches event.before.server input →
        ∃ call ∈ calls .client past, ∃ request,
          SendsRequest call request input)
      events
  answers : ∀ call ∈ calls .server events, AnswersOnly call

/-- What the server receives is delivered as the request that was sent. -/
def RequestsDelivered (events : List SystemEvent) : Prop :=
  Throughout
    (fun past event => ∀ call request packet room,
      call ∈ calls .client past → SendsRequest call request packet →
      event.input = (.server, .oscore2coap packet room) →
      request.bytes.length ≤ room →
      event.output = .ok (some request.bytes))
    events

/-- The server has protected the response when the last request it had taken
over was the one that is still the last of the client. -/
def AnswersLast (platform : Platform) (past : List SystemEvent)
    (response : Message) (packet : Bytes) : Prop :=
  ∃ before answer between capacity ask request askPacket taken room,
    past = before ++ answer :: between ∧
      answer.input = (.server, .coap2oscore response.bytes capacity) ∧
      answer.output = .ok (some packet) ∧
      LastWhere TouchesSlot (calls .client past) ask ∧
      SendsRequest ask request askPacket ∧
      LastWhere (TakesRequest platform) (calls .server before) taken ∧
      taken.input = .oscore2coap askPacket room

/-- What the client receives for its last request is delivered as the response
that was sent. -/
def ResponsesDelivered (platform : Platform) (events : List SystemEvent) :
    Prop :=
  Throughout
    (fun past event => ∀ response packet room,
      IsResponse response → ComesThrough response →
      AnswersLast platform past response packet →
      event.input = (.client, .oscore2coap packet room) →
      response.bytes.length ≤ room →
      event.output = .ok (some response.bytes))
    events

/-- The two contexts belong together, and what is below them works. -/
structure Connected (platform : Platform)
    (clientParams serverParams : OscoreInitParams) (first : System) :
    Prop where
  canonical : platform.toCborEncoder.IsCanonical
  inverts : platform.AeadInverts
  matching : Matching clientParams serverParams
  hasShort : HasShortOption clientParams
  client : Initialised platform clientParams first.client
  server : Initialised platform serverParams first.server

/-! ## The client -/

theorem SteadyClient.of_sameKeys {first before after : Context}
    (steady : SteadyClient params first before)
    (same : SameKeys before after) (room : ClientRoom after) :
    SteadyClient params first after := by
  refine
    ⟨IsTrans.trans _ _ _ steady.same same, room, same.kid.trans steady.kid,
      same.kidContext.trans steady.kidContext, ?_, steady.kid_length,
      steady.kidContext_length⟩
  rw [same.cc]
  exact steady.aeadAlg

theorem SteadyClient.call {first : Context} {event : CallEvent}
    (steady : SteadyClient params first event.before)
    (canonical : platform.toCborEncoder.IsCanonical)
    (step : callMachine platform event)
    (ownPackets : ∀ input capacity,
      event.input = .oscore2coap input capacity →
        ¬ Reaches event.before input) :
    SteadyClient params first event.after := by
  cases called : event.input with
  | coap2oscore input capacity =>
      apply steady.of_sameKeys
      · exact callRun_coap2oscore_keeps step ⟨_, _, called⟩
      · exact steady.room.call canonical step ⟨_, _, called⟩
  | oscore2coap input capacity =>
      have unchanged :=
        @oscore2coap_of_not_reaches platform input capacity event.before
          fun packet option first piv kidContext reaches =>
            ownPackets input capacity called
              ⟨packet, option, first, piv, kidContext, reaches⟩
      rw [callMachine_oscore2coap step called] at unchanged
      dsimp only at unchanged
      rw [unchanged]
      exact steady

section Network

variable {clientParams serverParams : OscoreInitParams}
  {first last : System} {events : List SystemEvent}
  {event : SystemEvent}
  (connected : Connected platform clientParams serverParams first)
  (run : SystemRun platform first events last)
  (ownPackets : OwnPacketsOnly events)

include connected run ownPackets

omit connected run in
theorem client_ownPackets {call : CallEvent}
    (member : call ∈ calls .client events) (input : Bytes) (capacity : Nat)
    (called : call.input = .oscore2coap input capacity) :
    ¬ Reaches call.before input := by
  obtain ⟨event, eventMember, own, rfl⟩ := mem_calls.mp member
  rw [localCall_before own]
  apply ownPackets.client event eventMember input capacity
  exact Prod.ext own called

/-- The client stays as it is at any time. -/
theorem network_steadyClient :
    SteadyClient clientParams first.client last.client ∧
      ∀ call ∈ calls .client events,
        SteadyClient clientParams first.client call.before := by
  have clientRun := SystemRun.calls run .client
  have initial :=
    connected.client.steadyClient connected.matching.clientType
  have kept : ∀ call ∈ calls .client events, callMachine platform call →
      SteadyClient clientParams first.client call.before →
      SteadyClient clientParams first.client call.after := by
    intro call member step steady
    exact
      steady.call connected.canonical step
        (client_ownPackets ownPackets member)
  exact
    ⟨clientRun.invariant initial kept,
      fun call member => clientRun.invariant_before initial kept member⟩

/-- What the client has protected is on its way. -/
theorem network_inFlight {call : CallEvent} {request : Message}
    {packet : Bytes} (member : call ∈ calls .client events)
    (sends : SendsRequest call request packet) :
    SameKeys first.client call.after ∧
      ∃ byte arrived option plaintext,
        InFlight platform clientParams call.after request packet byte arrived
          option plaintext := by
  obtain ⟨_, steadies⟩ := network_steadyClient connected run ownPackets
  have steady := steadies call member
  have step := (SystemRun.calls run .client).step_of_mem member
  obtain ⟨capacity, called⟩ := sends.called
  constructor
  · exact
      IsTrans.trans _ _ _ steady.same
        (callRun_coap2oscore_keeps step ⟨_, _, called⟩)
  · obtain ⟨outcome, ran, returned⟩ := callMachine_coap2oscore step called
    rw [sends.output] at returned
    obtain ⟨output, rfl, same⟩ := outcome_map_eq_ok.mp returned.symm
    rw [Option.some.injEq] at same
    subst same
    exact
      steady.puts connected.canonical connected.inverts connected.hasShort
        sends.isRequest sends.through ran sends.unmarked

omit run ownPackets in
theorem connected_steadyServer :
    SteadyServer clientParams first.server first.server := by
  have matching := connected.matching
  have steady := connected.server.steadyServer matching.serverType
  obtain ⟨same, room, kid, recipientId, idContext, aeadAlg, isAlgorithm,
    kid_length⟩ := steady
  rw [matching.clientId_eq] at room kid recipientId kid_length
  rw [matching.idContext] at idContext
  rw [matching.aeadAlg] at aeadAlg isAlgorithm
  exact
    ⟨same, room, kid, recipientId, idContext, aeadAlg, isAlgorithm,
      kid_length⟩

/-- A server takes over a request of the client whatever its room. -/
theorem network_taken {c : Context} {call : CallEvent} {request : Message}
    {packet : Bytes} (member : call ∈ calls .client events)
    (sends : SendsRequest call request packet)
    (steady : SteadyServer clientParams first.server c) :
    ∃ byte arrived plaintext,
      (∀ room, exec (oscore2coap platform packet room) c =
        ((deliver plaintext arrived room).map some,
          c.follow byte call.after.rrc.nonce call.after.rrc.aad)) ∧
        call.after.rrc.aad = pivAad platform clientParams [byte] ∧
        ∀ room, request.bytes.length ≤ room →
          deliver plaintext arrived room = .ok request.bytes := by
  obtain ⟨same, byte, arrived, option, plaintext, inFlight⟩ :=
    network_inFlight connected run ownPackets member sends
  have shares :=
    connected.matching.sharesKeys connected.client connected.server
  have commonIv : c.cc.commonIv = call.after.cc.commonIv := by
    rw [steady.steady.cc, same.cc]
    exact shares.commonIv
  have key : c.rc.recipientKey = call.after.sc.senderKey := by
    rw [steady.steady.recipientKey, same.senderKey]
    exact shares.recipientKey
  exact
    ⟨byte, arrived, plaintext,
      fun room =>
        inFlight.taken connected.canonical steady commonIv key room,
      inFlight.aad, inFlight.delivered⟩

/-! ## The server -/

omit connected run in
theorem server_sent (member : event ∈ events) {input : Bytes} {capacity : Nat}
    (called : event.input = (.server, .oscore2coap input capacity))
    (reaches : Reaches event.before.server input) :
    ∃ call ∈ calls .client events, ∃ request,
      SendsRequest call request input := by
  obtain ⟨past, rest, split⟩ := List.append_of_mem member
  obtain ⟨call, callMember, sends⟩ :=
    ownPackets.server past event rest split input capacity called reaches
  refine ⟨call, ?_, sends⟩
  rw [split, calls, List.filterMap_append]
  exact List.mem_append_left _ callMember

theorem server_step (member : event ∈ events)
    (step : systemMachine platform event)
    (steady : SteadyServer clientParams first.server event.before.server) :
    SteadyServer clientParams first.server event.after.server := by
  obtain ⟨called, others⟩ := step
  cases party : event.input.1 with
  | client =>
      have unchanged : event.after.server = event.before.server :=
        others .server (by rw [party]; decide)
      rw [unchanged]
      exact steady
  | server =>
      have after : (localCall event).after = event.after.server :=
        localCall_after party
      have before : (localCall event).before = event.before.server :=
        localCall_before party
      cases isCall : event.input.2 with
      | coap2oscore input capacity =>
          have answers : AnswersOnly (localCall event) :=
            ownPackets.answers _ (mem_calls.mpr ⟨event, member, party, rfl⟩)
          have unchanged :=
            callMachine_answers_unchanged called answers isCall
          rw [after, before] at unchanged
          rw [unchanged]
          exact steady
      | oscore2coap input capacity =>
          have ran := callMachine_oscore2coap called isCall
          rw [before, after] at ran
          by_cases reaches : Reaches event.before.server input
          · obtain ⟨call, callMember, request, sends⟩ :=
              server_sent ownPackets member
                (Prod.ext party isCall) reaches
            obtain ⟨byte, arrived, plaintext, taken, aad, _⟩ :=
              network_taken connected run ownPackets callMember sends steady
            rw [taken, aad] at ran
            rw [← (Prod.mk.inj ran).2]
            exact steady.follow connected.canonical _
          · have unchanged :=
              @oscore2coap_of_not_reaches platform input capacity
                event.before.server
                fun packet option first piv kidContext isReached =>
                  reaches
                    ⟨packet, option, first, piv, kidContext, isReached⟩
            rw [ran] at unchanged
            dsimp only at unchanged
            rw [unchanged]
            exact steady

/-- The server has its keys and room for the next request at any time. -/
theorem network_steadyServer (member : event ∈ events) :
    SteadyServer clientParams first.server event.before.server := by
  have initial := connected_steadyServer connected
  let holds : System → Prop := fun system =>
    SteadyServer clientParams first.server system.server
  change holds event.before
  refine run.invariant_before initial ?_ member
  intro other otherMember step steady
  exact server_step connected run ownPackets otherMember step steady

theorem network_requestsDelivered : RequestsDelivered events := by
  intro past event rest split call request packet room callMember sends called
    large
  have member : event ∈ events := by
    rw [split]
    simp
  have callInRun : call ∈ calls .client events := by
    rw [split, calls, List.filterMap_append]
    exact List.mem_append_left _ callMember
  have steady := network_steadyServer connected run ownPackets member
  obtain ⟨byte, arrived, plaintext, taken, _, delivered⟩ :=
    network_taken connected run ownPackets callInRun sends steady
  have onServer : event.input.1 = .server := congrArg Prod.fst called
  have ran :=
    callMachine_oscore2coap (run.step_of_mem member).1
      (congrArg Prod.snd called)
  rw [localCall_before onServer, localCall_after onServer] at ran
  change exec _ event.before.server = _ at ran
  rw [taken, delivered room large] at ran
  exact (Prod.mk.inj ran).1.symm

/-! ## Responses -/

omit connected in
/-- The server holds what it has taken over last. -/
theorem network_serverSlot {past rest : List SystemEvent}
    (split : events = past ++ event :: rest) {taken : CallEvent}
    (isLast : LastWhere (TakesRequest platform) (calls .server past) taken) :
    event.before.server.rrc.nonce = taken.after.rrc.nonce ∧
      event.before.server.rrc.aad = taken.after.rrc.aad := by
  obtain ⟨pastRun, _, _⟩ := Run.split_iff.mp (split ▸ run)
  have serverRun := SystemRun.calls pastRun .server
  have since :=
    serverRun.since_last (TakesRequest platform)
      (fun c => (c.rrc.nonce, c.rrc.aad)) fun call member step untaken => by
        have answers : AnswersOnly call := by
          apply ownPackets.answers
          rw [split, calls, List.filterMap_append]
          exact List.mem_append_left _ member
        cases called : call.input with
        | coap2oscore input capacity =>
            rw [callMachine_answers_unchanged step answers called]
        | oscore2coap input capacity =>
            obtain ⟨nonce, aad⟩ :=
              oscore2coap_not_takes_nonceAndAad called step untaken
            rw [nonce, aad]
  rcases since with ⟨none, _⟩ | ⟨other, otherLast, same⟩
  · exact absurd isLast.holds (none taken isLast.mem)
  · rw [isLast.unique otherLast]
    exact Prod.mk.inj same

omit connected ownPackets in
/-- The client holds what it has protected last. -/
theorem network_clientSlot {past rest : List SystemEvent}
    (split : events = past ++ event :: rest) {ask : CallEvent}
    (isLast : LastWhere TouchesSlot (calls .client past) ask) :
    event.before.client.rrc = ask.after.rrc := by
  obtain ⟨pastRun, _, _⟩ := Run.split_iff.mp (split ▸ run)
  have clientRun := SystemRun.calls pastRun .client
  have since :=
    clientRun.since_last TouchesSlot Context.rrc
      fun call _ step untouched => by
        rw [unchanged_of_not_touches step untouched]
  rcases since with ⟨none, _⟩ | ⟨other, otherLast, same⟩
  · exact absurd isLast.holds (none ask isLast.mem)
  · rw [isLast.unique otherLast]
    exact same

/-- What the server protects for the last request of the client, the client
opens. -/
theorem network_opens {before between rest : List SystemEvent}
    {answer : SystemEvent} {ask taken : CallEvent} {request : Message}
    {askPacket : Bytes} {room : Nat}
    (split : events = (before ++ answer :: between) ++ event :: rest)
    (asked : LastWhere TouchesSlot
      (calls .client (before ++ answer :: between)) ask)
    (sends : SendsRequest ask request askPacket)
    (takenLast : LastWhere (TakesRequest platform) (calls .server before) taken)
    (takes : taken.input = .oscore2coap askPacket room) :
    OpensFor answer.before.server event.before.client := by
  have answerSplit : events = before ++ answer :: (between ++ event :: rest) := by
    rw [split]
    simp
  have askMember : ask ∈ calls .client events := by
    rw [split, calls, List.filterMap_append]
    exact List.mem_append_left _ asked.mem
  obtain ⟨takenEvent, takenMember, onServer, rfl⟩ :=
    mem_calls.mp takenLast.mem
  have takenInRun : takenEvent ∈ events := by
    rw [answerSplit]
    exact List.mem_append_left _ takenMember
  have steadyTaken := network_steadyServer connected run ownPackets takenInRun
  obtain ⟨byte, arrived, plaintext, followed, _, _⟩ :=
    network_taken connected run ownPackets askMember sends steadyTaken
  have ran := callMachine_oscore2coap (run.step_of_mem takenInRun).1 takes
  rw [localCall_before onServer] at ran
  change exec _ takenEvent.before.server = _ at ran
  rw [followed] at ran
  have takenAfter := (Prod.mk.inj ran).2
  have clientRrc := network_clientSlot run split asked
  obtain ⟨serverNonce, serverAad⟩ :=
    network_serverSlot run ownPackets answerSplit takenLast
  rw [← takenAfter] at serverNonce serverAad
  -- both have the nonce and the AAD of the request
  have pastRun := (Run.split_iff.mp (split ▸ run)).1
  have pastOwnPacketsOnly : OwnPacketsOnly (before ++ answer :: between) := by
    rw [split] at ownPackets
    refine
      ⟨fun other member => ownPackets.client other
          (List.mem_append_left _ member),
        ownPackets.server.front, ?_⟩
    intro call member
    apply ownPackets.answers
    rw [calls, List.filterMap_append]
    exact List.mem_append_left _ member
  obtain ⟨steadyClient, _⟩ :=
    network_steadyClient connected pastRun pastOwnPacketsOnly
  have answerMember : answer ∈ events := by
    rw [answerSplit]
    simp
  have steadyServer :=
    network_steadyServer connected run ownPackets answerMember
  have shares :=
    connected.matching.sharesKeys connected.client connected.server
  refine ⟨?_, ?_, ?_⟩
  · rw [clientRrc, serverNonce]
    rfl
  · rw [clientRrc, serverAad]
    rfl
  · rw [steadyServer.steady.senderKey, shares.senderKey,
      steadyClient.same.rc]

theorem network_responsesDelivered : ResponsesDelivered platform events := by
  intro past event rest split response packet room isResponse through answers
    called large
  obtain ⟨before, answer, between, capacity, ask, request, askPacket, taken,
    takenRoom, rfl, answerCalled, answered, asked, sends, takenLast, takes⟩ :=
    answers
  have opens :=
    network_opens connected run ownPackets split asked sends takenLast takes
  have restores :=
    response_restored connected.inverts opens isResponse through
  have answerMember : answer ∈ events := by
    rw [split]
    simp
  have member : event ∈ events := by
    rw [split]
    simp
  have onServer : answer.input.1 = .server := congrArg Prod.fst answerCalled
  obtain ⟨outcome, ran, returned⟩ :=
    callMachine_coap2oscore (run.step_of_mem answerMember).1
      (congrArg Prod.snd answerCalled)
  change answer.output = _ at returned
  rw [answered] at returned
  obtain ⟨output, rfl, same⟩ := outcome_map_eq_ok.mp returned.symm
  rw [Option.some.injEq] at same
  subst same
  rw [localCall_before onServer] at ran
  have restored := restores capacity output _ room ran large
  have onClient : event.input.1 = .client := congrArg Prod.fst called
  have received :=
    callMachine_oscore2coap (run.step_of_mem member).1
      (congrArg Prod.snd called)
  rw [localCall_before onClient] at received
  change exec _ event.before.client = _ at received
  rw [restored] at received
  exact (Prod.mk.inj received).1.symm

end Network

/-- In every run in which only its own packets reach either side, the requests
of the client that come through are delivered, and so are the responses to its
last one that do. -/
theorem network_delivers (platform : Platform)
    (clientParams serverParams : OscoreInitParams) (first last : System)
    (events : List SystemEvent)
    (connected : Connected platform clientParams serverParams first)
    (run : SystemRun platform first events last)
    (ownPackets : OwnPacketsOnly events) :
    RequestsDelivered events ∧ ResponsesDelivered platform events :=
  ⟨network_requestsDelivered connected run ownPackets,
    network_responsesDelivered connected run ownPackets⟩

/-! ## Two requests of test vector T1 that overtake each other -/

/-- The request for the host `a` as the client protects it first. -/
def t1HostPacket : Bytes :=
  [0x40, 2, 0, 1, 0x31, 0x61, 0x62, 9, 0, 0xFF, 0xAE, 0x8A, 0x2A, 3, 0x20,
    0xF0, 0xF5, 6, 0x31, 0x7C, 0xBD, 0x46, 0xF4]

/-- And as it protects it then. -/
def t1NextHostPacket : Bytes :=
  [0x40, 2, 0, 1, 0x31, 0x61, 0x62, 9, 1, 0xFF, 0x19, 0x47, 0x30, 0x55, 0x85,
    0x18, 0x23, 0x5A, 0x17, 0x4C, 0x98, 0xB6, 0xB1]

/-- The response to the second one. -/
def t1HostResponse : Bytes :=
  [0x60, 0x44, 0, 1, 0x90, 0xFF, 0x47, 0x43, 0x32, 0x29, 0xCD, 0xD7, 0x7D,
    0x29, 0xF8, 0x92, 0x83, 0xDD]

/-- The second request arrives before the first one, which arrives twice; three
other bytes arrive in between. -/
def overtakingInputs : List (Party × Call) :=
  [ (.client, .coap2oscore hostMessage.bytes 64),
    (.client, .coap2oscore hostMessage.bytes 64),
    (.server, .oscore2coap t1NextHostPacket 64),
    (.server, .oscore2coap t1HostPacket 64),
    (.server, .oscore2coap [1, 2, 3] 64),
    (.server, .oscore2coap t1HostPacket 64),
    (.server, .oscore2coap t1NextHostPacket 64),
    (.server, .coap2oscore hiMessage.bytes 64),
    (.client, .oscore2coap t1HostResponse 64) ]

def overtakingEvents : List SystemEvent :=
  systemEvents t1Platform ⟨t1Client, t1Server⟩ overtakingInputs

theorem overtakingEvents_outputs :
    overtakingEvents.map Event.output =
      [.ok (some t1HostPacket), .ok (some t1NextHostPacket),
        .ok (some hostMessage.bytes), .ok (some hostMessage.bytes),
        fail .notValidInputPacket, .ok (some hostMessage.bytes),
        .ok (some hostMessage.bytes), .ok (some t1HostResponse),
        .ok (some hiMessage.bytes)] := by
  decide +kernel

theorem overtakingEvents_run :
    SystemRun t1Platform ⟨t1Client, t1Server⟩ overtakingEvents
      (systemAfter t1Platform ⟨t1Client, t1Server⟩ overtakingInputs) := by
  apply systemEvents_run
  intro event member isUndefined
  have output : event.output ∈ overtakingEvents.map Event.output :=
    List.mem_map_of_mem member
  rw [overtakingEvents_outputs, isUndefined] at output
  exact absurd output (by decide)

theorem sendsRequest_host {event : CallEvent} {packet : Bytes}
    (called : event.input = .coap2oscore hostMessage.bytes 64)
    (output : event.output = .ok (some packet))
    (unmarked : 0xFF ∉ event.after.rrc.piv) :
    SendsRequest event hostMessage packet :=
  ⟨⟨64, called⟩, output, ⟨rfl, by decide⟩, hostMessage_comesThrough, unmarked⟩

/-- The first two events, in which the client protects its requests. -/
def overtakenEvent : SystemEvent :=
  systemEvent t1Platform ⟨t1Client, t1Server⟩
    (.client, .coap2oscore hostMessage.bytes 64)

def overtakingEvent : SystemEvent :=
  systemEvent t1Platform overtakenEvent.after
    (.client, .coap2oscore hostMessage.bytes 64)

theorem overtakenEvent_sends :
    SendsRequest (localCall overtakenEvent) hostMessage t1HostPacket :=
  sendsRequest_host rfl (by decide +kernel) (by decide +kernel)

theorem overtakingEvent_sends :
    SendsRequest (localCall overtakingEvent) hostMessage t1NextHostPacket :=
  sendsRequest_host rfl (by decide +kernel) (by decide +kernel)

/-- A server that receives anything comes behind both. -/
theorem overtakingEvents_past {past rest : List SystemEvent}
    {event : SystemEvent}
    (split : overtakingEvents = past ++ event :: rest)
    (onServer : event.input.1 = .server) :
    localCall overtakenEvent ∈ calls .client past ∧
      localCall overtakingEvent ∈ calls .client past := by
  have front : overtakingEvents =
      overtakenEvent :: overtakingEvent ::
        systemEvents t1Platform overtakingEvent.after
          (overtakingInputs.drop 2) :=
    rfl
  rw [front] at split
  match past, split with
  | [], split =>
      obtain ⟨same, _⟩ := List.cons.inj split
      rw [← same] at onServer
      cases onServer
  | [_], split =>
      obtain ⟨_, split⟩ := List.cons.inj split
      obtain ⟨same, _⟩ := List.cons.inj split
      rw [← same] at onServer
      cases onServer
  | _ :: _ :: past, split =>
      obtain ⟨isFirst, split⟩ := List.cons.inj split
      obtain ⟨isSecond, _⟩ := List.cons.inj split
      rw [← isFirst, ← isSecond]
      constructor
      · exact mem_calls.mpr ⟨overtakenEvent, by simp, rfl, rfl⟩
      · exact mem_calls.mpr ⟨overtakingEvent, by simp, rfl, rfl⟩

theorem mem_overtakingInputs {event : SystemEvent}
    (member : event ∈ overtakingEvents) : event.input ∈ overtakingInputs :=
  List.mem_map_of_mem member

theorem not_reaches_of_parsed {c : Context} {input : Bytes}
    (noRequest : (buf2coap input).map isRequest ≠ .ok true) :
    ¬ Reaches c input := by
  rintro ⟨packet, option, first, piv, kidContext, reaches⟩
  rw [reaches.parsed] at noRequest
  exact noRequest (congrArg Except.ok reaches.request)

theorem overtaking_ownPackets : OwnPacketsOnly overtakingEvents where
  client := by
    intro event member input capacity called
    have isInput := mem_overtakingInputs member
    rw [called] at isInput
    simp only [overtakingInputs, List.mem_cons, Prod.mk.injEq, reduceCtorEq,
      false_and, and_false, true_and, false_or, or_false,
      Call.oscore2coap.injEq, List.not_mem_nil] at isInput
    rw [isInput.1]
    exact not_reaches_of_parsed (by decide)
  server := by
    intro past event rest split input capacity called reaches
    obtain ⟨overtaken, overtaking⟩ :=
      overtakingEvents_past split (congrArg Prod.fst called)
    have isInput : event.input ∈ overtakingInputs := by
      apply mem_overtakingInputs
      rw [split]
      simp
    rw [called] at isInput
    simp only [overtakingInputs, List.mem_cons, Prod.mk.injEq, reduceCtorEq,
      false_and, and_false, true_and, false_or, or_false,
      Call.oscore2coap.injEq, List.not_mem_nil] at isInput
    rcases isInput with ⟨rfl, _⟩ | ⟨rfl, _⟩ | ⟨rfl, _⟩ | ⟨rfl, _⟩ | ⟨rfl, _⟩
    · exact ⟨_, overtaking, _, overtakingEvent_sends⟩
    · exact ⟨_, overtaken, _, overtakenEvent_sends⟩
    · exact absurd reaches (not_reaches_of_parsed (by decide))
    · exact ⟨_, overtaken, _, overtakenEvent_sends⟩
    · exact ⟨_, overtaking, _, overtakingEvent_sends⟩
  answers := by
    intro call member input capacity packet called parsed request
    obtain ⟨event, eventMember, onServer, rfl⟩ := mem_calls.mp member
    have isInput := mem_overtakingInputs eventMember
    have whole : event.input = (.server, .coap2oscore input capacity) :=
      Prod.ext onServer called
    rw [whole] at isInput
    simp only [overtakingInputs, List.mem_cons, Prod.mk.injEq, reduceCtorEq,
      false_and, and_false, true_and, false_or, or_false,
      Call.coap2oscore.injEq, List.not_mem_nil] at isInput
    have noRequest : (buf2coap hiMessage.bytes).map isRequest = .ok false := by
      decide
    rw [← isInput.1, parsed] at noRequest
    have response : isRequest packet = false := Except.ok.inj noRequest
    rw [request] at response
    cases response

theorem network_delivers_t1 :
    RequestsDelivered overtakingEvents ∧
      ResponsesDelivered t1Platform overtakingEvents :=
  network_delivers t1Platform t1ClientParams t1ServerParams
    ⟨t1Client, t1Server⟩ _ overtakingEvents
    ⟨canonicalCbor_isCanonical, t1_aeadInverts, t1_matchingParams,
      ⟨by decide, by decide, by decide⟩, t1Client_initialised,
      t1Server_initialised⟩
    overtakingEvents_run overtaking_ownPackets

end UoscoreUedhoc.Oscore
