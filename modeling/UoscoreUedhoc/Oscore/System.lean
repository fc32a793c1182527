import UoscoreUedhoc.Oscore.Calls

/-!
# A client and a server

A client context and a server context side by side.  A step is a call on one of
them; the packets between the two are in the hands of whoever chooses the
inputs, who can repeat, drop, change and make up any of them.  What such an
adversary cannot do is to make up a ciphertext: every packet that a context
accepts carries one that a context has produced before under the same key,
nonce and associated data.
-/

namespace UoscoreUedhoc.Oscore

open UoscoreUedhoc
open UoscoreUedhoc.Runs
open Update

/-! ## The machine -/

inductive Party where
  | client
  | server
  deriving DecidableEq, Repr

structure System where
  client : Context
  server : Context
  deriving DecidableEq, Repr

/-- The context of a party. -/
def System.context (system : System) : Party → Context
  | .client => system.client
  | .server => system.server

abbrev SystemEvent := Event System (Party × Call) (Outcome (Option Bytes))

/-- The call behind an event of the system. -/
def localCall (event : SystemEvent) : CallEvent where
  before := event.before.context event.input.1
  input := event.input.2
  output := event.output
  after := event.after.context event.input.1

theorem localCall_before {event : SystemEvent} {party : Party}
    (own : event.input.1 = party) :
    (localCall event).before = event.before.context party := by
  rw [← own]
  rfl

theorem localCall_after {event : SystemEvent} {party : Party}
    (own : event.input.1 = party) :
    (localCall event).after = event.after.context party := by
  rw [← own]
  rfl

/-- A call on one of the two contexts. -/
def systemMachine (platform : Platform) :
    Machine System (Party × Call) (Outcome (Option Bytes)) :=
  fun event =>
    callMachine platform (localCall event) ∧
      ∀ party, party ≠ event.input.1 →
        event.after.context party = event.before.context party

abbrev SystemRun (platform : Platform) := Run (systemMachine platform)

theorem systemMachine_client {platform : Platform} {event : SystemEvent}
    (own : event.input.1 = .client)
    (called : callMachine platform (localCall event))
    (kept : event.after.server = event.before.server) :
    systemMachine platform event := by
  refine ⟨called, ?_⟩
  intro other different
  cases other with
  | client =>
      exact absurd own.symm different
  | server =>
      exact kept

theorem systemMachine_server {platform : Platform} {event : SystemEvent}
    (own : event.input.1 = .server)
    (called : callMachine platform (localCall event))
    (kept : event.after.client = event.before.client) :
    systemMachine platform event := by
  refine ⟨called, ?_⟩
  intro other different
  cases other with
  | client =>
      exact kept
  | server =>
      exact absurd own.symm different

/-- The calls of a party. -/
def calls (party : Party) (events : List SystemEvent) : List CallEvent :=
  events.filterMap fun event =>
    if event.input.1 = party then some (localCall event) else none

theorem mem_calls {party : Party} {events : List SystemEvent}
    {call : CallEvent} :
    call ∈ calls party events ↔
      ∃ event ∈ events, event.input.1 = party ∧ localCall event = call := by
  simp [calls, List.mem_filterMap]

/-- Each party runs on its own context. -/
theorem SystemRun.calls {platform : Platform} {first last : System}
    {events : List SystemEvent} (run : SystemRun platform first events last)
    (party : Party) :
    CallRun platform (first.context party) (calls party events)
      (last.context party) := by
  induction run with
  | nil state =>
      exact .nil _
  | @cons event events last step rest inductionHypothesis =>
      obtain ⟨called, others⟩ := step
      unfold Oscore.calls
      by_cases own : event.input.1 = party
      · subst own
        rw [List.filterMap_cons_some (b := localCall event) (by simp)]
        exact .cons called inductionHypothesis
      · rw [List.filterMap_cons_none (by simp [own]),
          ← others party (Ne.symm own)]
        exact inductionHypothesis

/-- A party keeps the parameters it was initialised with. -/
theorem SystemRun.sameParameters {platform : Platform}
    {first last : System} {events : List SystemEvent}
    (run : SystemRun platform first events last) (party : Party) :
    SameParameters (first.context party) (last.context party) :=
  CallRun.sameParameters (SystemRun.calls run party)

/-! ## Ciphertexts -/

/-- The arguments of a call of `aead` that the other side has to repeat. -/
structure Sealing where
  key : Bytes
  nonce : Bytes
  aad : Bytes
  ciphertext : Bytes
  deriving DecidableEq, Repr

/-- The call emits a ciphertext. -/
def Seals (platform : Platform) (event : CallEvent) (sealing : Sealing) :
    Prop :=
  ∃ packet oscorePacket,
    Encrypts event packet ∧
      Protected platform packet event.before event.after oscorePacket ∧
      sealing.key = event.after.sc.senderKey ∧
      sealing.nonce = event.after.rrc.nonce ∧
      coseAad platform.toCborEncoder event.after.rrc.aad = .ok sealing.aad ∧
      sealing.ciphertext = oscorePacket.payload

/-- The call accepts a ciphertext. -/
def Opens (platform : Platform) (event : CallEvent) (sealing : Sealing) :
    Prop :=
  ∃ input capacity output packet,
    event.input = .oscore2coap input capacity ∧
      event.output = .ok (some output) ∧
      buf2coap input = .ok packet ∧
      sealing.key = event.after.rc.recipientKey ∧
      sealing.nonce = event.after.rrc.nonce ∧
      coseAad platform.toCborEncoder event.after.rrc.aad = .ok sealing.aad ∧
      sealing.ciphertext = packet.payload

/-- The ciphertext of a call that encrypts is the payload it computes. -/
theorem seals_of_payload {platform : Platform} {event : CallEvent}
    {packet : OCoapPacket} {sealing : Sealing}
    (step : callMachine platform event) (encrypts : Encrypts event packet)
    (key : sealing.key = event.after.sc.senderKey)
    (nonce : sealing.nonce = event.after.rrc.nonce)
    (aad : coseAad platform.toCborEncoder event.after.rrc.aad =
      .ok sealing.aad)
    (payload :
      (exec (coap2oscorePacket platform packet) event.before).1.map
        OCoapPacket.payload = .ok sealing.ciphertext) :
    Seals platform event sealing := by
  obtain ⟨oscorePacket, protectedPacket⟩ := encrypts.isProtected step
  rw [coap2oscorePacket_eq_ok.mpr protectedPacket] at payload
  exact
    ⟨packet, oscorePacket, encrypts, protectedPacket, key, nonce, aad,
      (Except.ok.inj payload).symm⟩

/-- An emitted ciphertext is an output of `aead`. -/
theorem Seals.aead_call {platform : Platform} {event : CallEvent}
    {sealing : Sealing} (seals : Seals platform event sealing) :
    ∃ plaintext,
      platform.aeadEncrypt plaintext sealing.key sealing.nonce sealing.aad
        authTagLen = some sealing.ciphertext := by
  obtain ⟨packet, oscorePacket, _, protectedPacket, key, nonce, built,
    ciphertext⟩ := seals
  obtain ⟨plaintext, aad, built', called⟩ := protectedPacket.aead_call
  rw [built, Except.ok.injEq] at built'
  subst built'
  rw [← key, ← nonce, ← ciphertext] at called
  exact ⟨plaintext, called⟩

/-- Every accepted packet carries a ciphertext that `aead` decrypts. -/
theorem opens_of_accepted {platform : Platform} {event : CallEvent}
    {input output : Bytes} {capacity : Nat}
    (step : callMachine platform event)
    (called : event.input = .oscore2coap input capacity)
    (accepted : event.output = .ok (some output)) :
    ∃ sealing plaintext, Opens platform event sealing ∧
      platform.aeadDecrypt sealing.ciphertext sealing.key sealing.nonce
        sealing.aad authTagLen = some plaintext := by
  have ran := callMachine_oscore2coap step called
  rw [accepted] at ran
  obtain ⟨packet, option, flag, parsed, _, done⟩ := oscore2coap_eq_ok.mp ran
  cases flag with
  | false =>
      obtain ⟨none, _⟩ := done
      cases none
  | true =>
      obtain ⟨plaintext, _, decrypted, _, _⟩ := done
      obtain ⟨options, between, _, _, decrypted, recorded⟩ :=
        oscorePacketDecrypt_eq_ok.mp decrypted
      obtain ⟨key, nonce, aad⟩ :
          event.after.rc.recipientKey = between.rc.recipientKey ∧
            event.after.rrc.nonce = between.rrc.nonce ∧
            event.after.rrc.aad = between.rrc.aad := by
        rw [exec_whenRequest] at recorded
        split at recorded
        · obtain ⟨first, _, same⟩ := replayWindowUpdate_eq_ok.mp recorded
          rw [same]
          exact ⟨rfl, rfl, rfl⟩
        · rw [← (Prod.mk.inj recorded).2]
          exact ⟨rfl, rfl, rfl⟩
      unfold payloadDecrypt at decrypted
      obtain ⟨_, _, decrypted⟩ := outcome_bind_eq_ok.mp decrypted
      obtain ⟨built, builtEq, opened⟩ := oscoreCoseDecrypt_eq_ok.mp decrypted
      rw [← key, ← nonce] at opened
      rw [← aad] at builtEq
      exact
        ⟨⟨event.after.rc.recipientKey, event.after.rrc.nonce, built,
            packet.payload⟩, plaintext,
          ⟨input, capacity, output, packet, called, accepted, parsed, rfl, rfl,
            builtEq, rfl⟩, opened⟩

/-- The adversary cannot make up a ciphertext. -/
def Unforgeable (platform : Platform) (events : List SystemEvent) : Prop :=
  Throughout
    (fun past event => ∀ sealing, Opens platform (localCall event) sealing →
      ∃ earlier ∈ past, Seals platform (localCall earlier) sealing)
    events

theorem Opens.unique {platform : Platform} {event : CallEvent}
    {sealing other : Sealing} (opens : Opens platform event sealing)
    (otherOpens : Opens platform event other) : sealing = other := by
  obtain ⟨input, _, _, packet, called, _, parsed, key, nonce, aad,
    ciphertext⟩ := opens
  obtain ⟨input', _, _, packet', called', _, parsed', key', nonce', aad',
    ciphertext'⟩ := otherOpens
  rw [called] at called'
  cases called'
  rw [parsed, Except.ok.injEq] at parsed'
  subst parsed'
  rw [aad, Except.ok.injEq] at aad'
  obtain ⟨_, _, _, _⟩ := sealing
  obtain ⟨_, _, _, _⟩ := other
  dsimp only at key nonce ciphertext key' nonce' ciphertext' aad'
  rw [key, nonce, aad', ciphertext, key', nonce', ciphertext']

/-! ## Matching contexts -/

/-- The parameters of a client and those of the server it talks to. -/
structure Matching (client server : OscoreInitParams) : Prop where
  clientType : client.devType = .client
  serverType : server.devType = .server
  recipientId : server.recipientId = client.senderId
  senderId : server.senderId = client.recipientId
  masterSecret : server.masterSecret = client.masterSecret
  masterSalt : server.masterSalt = client.masterSalt
  idContext : server.idContext = client.idContext
  aeadAlg : server.aeadAlg = client.aeadAlg
  hkdf : server.hkdf = client.hkdf

theorem t1_matchingParams : Matching t1ClientParams t1ServerParams :=
  ⟨rfl, rfl, rfl, rfl, rfl, rfl, rfl, rfl, rfl⟩

end UoscoreUedhoc.Oscore
