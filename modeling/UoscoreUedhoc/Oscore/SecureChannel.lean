import UoscoreUedhoc.Lib.Channels
import UoscoreUedhoc.Lib.Simulations
import UoscoreUedhoc.Oscore.PartyKeys
import UoscoreUedhoc.Oscore.MessageExchange
import UoscoreUedhoc.Oscore.ResponseBinding
import UoscoreUedhoc.Oscore.SystemRuns

/-!
# The channel between client and server

What the two contexts are for: an authenticated channel between a client and a
server.  Its messages are plaintexts with the associated data they are
protected with.  Every call that protects a packet hands one to the channel,
and every call that accepts a packet takes one from it which the other side
has handed in, whatever happened to the packets in between.
-/

namespace UoscoreUedhoc.Oscore

open UoscoreUedhoc
open UoscoreUedhoc.Channels
open UoscoreUedhoc.Runs
open Update

variable {platform : Platform}

/-! ## Messages of the channel -/

def Party.peer : Party → Party
  | .client => .server
  | .server => .client

theorem Party.eq_peer_of_ne {party other : Party} (different : other ≠ party) :
    other = party.peer := by
  cases party with
  | client =>
      cases other with
      | client =>
          exact absurd rfl different
      | server =>
          rfl
  | server =>
      cases other with
      | client =>
          rfl
      | server =>
          exact absurd rfl different

/-- What a ciphertext protects. -/
structure Letter where
  plaintext : Bytes
  aad : Bytes
  deriving DecidableEq, Repr

/-- The call protects a packet: the plaintext it makes of it, and the
associated data of the context. -/
def Posts (platform : Platform) (event : CallEvent) (letter : Letter) : Prop :=
  ∃ packet options, Encrypts event packet ∧ packet.options = some options ∧
    plaintextSetup packet (euOptionsExtract 0 0 0 options).eOptions
        (plaintextLen (euOptionsExtract 0 0 0 options).eOptionsLen
          packet.payloadLen) = .ok letter.plaintext ∧
    coseAad platform.toCborEncoder event.after.rrc.aad = .ok letter.aad

/-- The call returns a packet: the outer one with what was decrypted put
back. -/
def Receives (platform : Platform) (event : CallEvent) (letter : Letter) :
    Prop :=
  ∃ input capacity output packet,
    event.input = .oscore2coap input capacity ∧
      event.output = .ok (some output) ∧
      buf2coap input = .ok packet ∧
      payloadDecrypt platform event.after packet = .ok letter.plaintext ∧
      coseAad platform.toCborEncoder event.after.rrc.aad = .ok letter.aad ∧
      deliver letter.plaintext packet capacity = .ok output

section Calls

variable {event : CallEvent} {letter other : Letter}

theorem Posts.unique (posts : Posts platform event letter)
    (otherPosts : Posts platform event other) : letter = other := by
  obtain ⟨packet, options, encrypts, present, plaintext, aad⟩ := posts
  obtain ⟨packet', options', encrypts', present', plaintext', aad'⟩ :=
    otherPosts
  obtain ⟨_, _, _, called, _, parsed, _⟩ := encrypts
  obtain ⟨_, _, _, called', _, parsed', _⟩ := encrypts'
  rw [called] at called'
  cases called'
  rw [parsed, Except.ok.injEq] at parsed'
  subst parsed'
  rw [present, Option.some.injEq] at present'
  subst present'
  rw [plaintext, Except.ok.injEq] at plaintext'
  rw [aad, Except.ok.injEq] at aad'
  obtain ⟨_, _⟩ := letter
  obtain ⟨_, _⟩ := other
  rw [Letter.mk.injEq]
  exact ⟨plaintext', aad'⟩

theorem Receives.unique (receives : Receives platform event letter)
    (otherReceives : Receives platform event other) : letter = other := by
  obtain ⟨_, _, _, _, called, _, parsed, plaintext, aad, _⟩ := receives
  obtain ⟨_, _, _, _, called', _, parsed', plaintext', aad', _⟩ :=
    otherReceives
  rw [called] at called'
  cases called'
  rw [parsed, Except.ok.injEq] at parsed'
  subst parsed'
  rw [plaintext, Except.ok.injEq] at plaintext'
  rw [aad, Except.ok.injEq] at aad'
  obtain ⟨_, _⟩ := letter
  obtain ⟨_, _⟩ := other
  rw [Letter.mk.injEq]
  exact ⟨plaintext', aad'⟩

theorem Posts.not_receives (posts : Posts platform event letter) :
    ¬ Receives platform event other := by
  intro receives
  obtain ⟨_, _, ⟨_, _, _, called, _⟩, _⟩ := posts
  obtain ⟨_, _, _, _, called', _⟩ := receives
  rw [called] at called'
  cases called'

/-- The letter behind a protected packet. -/
theorem Encrypts.sealedLetter {packet oscorePacket : OCoapPacket}
    (encrypts : Encrypts event packet)
    (protectedPacket :
      Protected platform packet event.before event.after oscorePacket) :
    ∃ letter, Posts platform event letter ∧
      platform.aeadEncrypt letter.plaintext event.after.sc.senderKey
        event.after.rrc.nonce letter.aad authTagLen =
          some oscorePacket.payload := by
  obtain ⟨options, plaintext, value, ciphertext, present, _, setup, _,
    encrypted, generated⟩ := protectedPacket
  obtain ⟨aad, built, called⟩ := oscoreCoseEncrypt_eq_ok.mp encrypted
  refine
    ⟨⟨plaintext, aad⟩, ⟨packet, options, encrypts, present, setup, built⟩, ?_⟩
  unfold oscorePkgGenerate at generated
  split at generated
  · cases generated
  · cases generated
    exact called

theorem Encrypts.posts {packet : OCoapPacket}
    (encrypts : Encrypts event packet) (step : callMachine platform event) :
    ∃ letter, Posts platform event letter := by
  obtain ⟨oscorePacket, protectedPacket⟩ := encrypts.isProtected step
  obtain ⟨letter, posts, _⟩ := encrypts.sealedLetter protectedPacket
  exact ⟨letter, posts⟩

/-- The letter behind an emitted ciphertext. -/
theorem Seals.posts {sealing : Sealing}
    (seals : Seals platform event sealing) :
    ∃ letter, Posts platform event letter ∧ letter.aad = sealing.aad ∧
      platform.aeadEncrypt letter.plaintext sealing.key sealing.nonce
        sealing.aad authTagLen = some sealing.ciphertext := by
  obtain ⟨packet, oscorePacket, encrypts, protectedPacket, key, nonce, built,
    ciphertext⟩ := seals
  obtain ⟨letter, posts, called⟩ := encrypts.sealedLetter protectedPacket
  have sameLetter := posts
  obtain ⟨_, _, _, _, _, built'⟩ := sameLetter
  rw [built, Except.ok.injEq] at built'
  rw [← key, ← nonce, ← ciphertext, ← built'] at called
  exact ⟨letter, posts, built'.symm, called⟩

/-- Accepting a packet decrypts its payload with what is then in the
context. -/
theorem receives_of_accepted {input output : Bytes} {capacity : Nat}
    (step : callMachine platform event)
    (called : event.input = .oscore2coap input capacity)
    (accepted : event.output = .ok (some output)) :
    ∃ letter, Receives platform event letter := by
  have ran := callMachine_oscore2coap step called
  rw [accepted] at ran
  obtain ⟨packet, option, flag, parsed, _, done⟩ := oscore2coap_eq_ok.mp ran
  cases flag with
  | false =>
      obtain ⟨none, _⟩ := done
      cases none
  | true =>
      obtain ⟨plaintext, result, decrypted, delivered, same⟩ := done
      cases same
      obtain ⟨options, between, _, _, decrypted, recorded⟩ :=
        oscorePacketDecrypt_eq_ok.mp decrypted
      have unchanged :
          payloadDecrypt platform event.after packet =
            payloadDecrypt platform between packet := by
        rw [exec_whenRequest] at recorded
        split at recorded
        · obtain ⟨first, _, same⟩ := replayWindowUpdate_eq_ok.mp recorded
          rw [same]
          rfl
        · rw [← (Prod.mk.inj recorded).2]
      rw [← unchanged] at decrypted
      have opened := decrypted
      unfold payloadDecrypt at opened
      obtain ⟨_, _, opened⟩ := outcome_bind_eq_ok.mp opened
      obtain ⟨aad, built, _⟩ := oscoreCoseDecrypt_eq_ok.mp opened
      exact
        ⟨⟨plaintext, aad⟩, input, capacity, output, packet, called, accepted,
          parsed, decrypted, built, delivered⟩

/-- The ciphertext behind a received letter. -/
theorem Receives.opens (receives : Receives platform event letter) :
    ∃ sealing, Opens platform event sealing ∧ sealing.aad = letter.aad ∧
      sealing.key = event.after.rc.recipientKey ∧
      platform.aeadDecrypt sealing.ciphertext sealing.key sealing.nonce
        sealing.aad authTagLen = some letter.plaintext := by
  obtain ⟨input, capacity, output, packet, called, accepted, parsed,
    decrypted, built, _⟩ := receives
  unfold payloadDecrypt at decrypted
  obtain ⟨_, _, decrypted⟩ := outcome_bind_eq_ok.mp decrypted
  obtain ⟨aad, built', opened⟩ := oscoreCoseDecrypt_eq_ok.mp decrypted
  rw [built, Except.ok.injEq] at built'
  subst built'
  exact
    ⟨⟨event.after.rc.recipientKey, event.after.rrc.nonce, letter.aad,
        packet.payload⟩,
      ⟨input, capacity, output, packet, called, accepted, parsed, rfl, rfl,
        built, rfl⟩, rfl, rfl, opened⟩

end Calls

/-! ## The keys of both parties -/

section Keys

variable {clientParams serverParams : OscoreInitParams}
  {first last : System} {events : List SystemEvent} {event : SystemEvent}

/-- The parameters of a party. -/
def partyParams (clientParams serverParams : OscoreInitParams) :
    Party → OscoreInitParams
  | .client => clientParams
  | .server => serverParams

theorem Matching.different (matching : Matching clientParams serverParams)
    (different : clientParams.senderId ≠ clientParams.recipientId)
    (party : Party) :
    (partyParams clientParams serverParams party).senderId ≠
      (partyParams clientParams serverParams party).recipientId := by
  cases party with
  | client =>
      exact different
  | server =>
      change serverParams.senderId ≠ serverParams.recipientId
      rw [matching.senderId, matching.recipientId]
      exact different.symm

theorem Matching.collisionFree (matching : Matching clientParams serverParams)
    (collisionFree : CollisionFree platform clientParams) (party : Party) :
    CollisionFree platform
      (partyParams clientParams serverParams party) := by
  cases party with
  | client =>
      exact collisionFree
  | server =>
      unfold CollisionFree partyParams
      dsimp only
      rw [matching.senderId, matching.recipientId, matching.idContext,
        matching.aeadAlg, matching.masterSecret, matching.masterSalt]
      intro leftId leftMember rightId rightMember
      rw [List.mem_pair, or_comm, ← List.mem_pair] at leftMember rightMember
      exact collisionFree leftId leftMember rightId rightMember

/-- After each step the keys of a party come from its IDs. -/
theorem SystemRun.keysOf
    (clientInitialised : Initialised platform clientParams first.client)
    (serverInitialised : Initialised platform serverParams first.server)
    (run : SystemRun platform first events last) (member : event ∈ events)
    (party : Party) :
    KeysOf platform (partyParams clientParams serverParams party)
      (event.after.context party) := by
  obtain ⟨past, rest, rfl⟩ := List.append_of_mem member
  have front : SystemRun platform first (past ++ [event]) event.after := by
    obtain ⟨before, step, _⟩ := Run.split_iff.mp run
    exact Run.split_iff.mpr ⟨before, step, .nil _⟩
  apply CallRun.keysOf (SystemRun.calls front party)
  cases party with
  | client =>
      exact clientInitialised.keysOf
  | server =>
      exact serverInitialised.keysOf

end Keys

/-! ## The refinement -/

/-- What a step of the system is in the channel. -/
def Performs (platform : Platform) (event : SystemEvent)
    (channelEvent : ChannelEvent Party Letter) : Prop :=
  match channelEvent.input with
  | .send party letter =>
      event.input.1 = party ∧ Posts platform (localCall event) letter
  | .deliver party letter =>
      event.input.1 = party ∧ Receives platform (localCall event) letter
  | .idle =>
      (∀ packet, ¬ Encrypts (localCall event) packet) ∧
        ∀ input capacity output,
          event.input.2 = .oscore2coap input capacity →
            event.output ≠ .ok (some output)

/-- The channel holds what has been protected so far. -/
def HoldsPosted (platform : Platform) (past : List SystemEvent)
    (channel : Channel Party Letter) : Prop :=
  ∀ party letter, letter ∈ channel party ↔
    ∃ event ∈ past, event.input.1 = party ∧
      Posts platform (localCall event) letter

/-- A step that protects nothing leaves what the channel has to hold. -/
theorem HoldsPosted.concat_of_not_posts {past : List SystemEvent}
    {event : SystemEvent} {channel : Channel Party Letter}
    (holds : HoldsPosted platform past channel)
    (notPosts : ∀ letter, ¬ Posts platform (localCall event) letter) :
    HoldsPosted platform (past ++ [event]) channel := by
  intro party letter
  rw [holds party letter]
  constructor
  · rintro ⟨earlier, member, posted⟩
    exact ⟨earlier, List.mem_append_left _ member, posted⟩
  · rintro ⟨earlier, member, own, posts⟩
    rcases List.mem_append.mp member with before | same
    · exact ⟨earlier, before, own, posts⟩
    · rw [List.mem_singleton.mp same] at posts
      exact absurd posts (notPosts letter)

theorem HoldsPosted.send {past : List SystemEvent} {event : SystemEvent}
    {channel : Channel Party Letter} {letter : Letter}
    (holds : HoldsPosted platform past channel)
    (posts : Posts platform (localCall event) letter) :
    HoldsPosted platform (past ++ [event])
      (channel.send event.input.1 letter) := by
  intro party other
  rw [Channel.mem_send_iff, holds party other]
  constructor
  · rintro (⟨rfl, rfl⟩ | ⟨earlier, member, posted⟩)
    · exact ⟨event, by simp, rfl, posts⟩
    · exact ⟨earlier, List.mem_append_left _ member, posted⟩
  · rintro ⟨earlier, member, own, posted⟩
    rcases List.mem_append.mp member with before | same
    · exact Or.inr ⟨earlier, before, own, posted⟩
    · rw [List.mem_singleton.mp same] at own posted
      exact Or.inl ⟨own.symm, posted.unique posts⟩

section Refinement

variable {clientParams serverParams : OscoreInitParams}
  {first last : System} {events past rest : List SystemEvent}
  {event : SystemEvent} {letter : Letter}

/-- What a party receives its peer has posted. -/
theorem received_posted (inverts : platform.AeadInverts)
    (separate : ∀ event ∈ events, ∀ other ∈ events, ∀ party,
      (event.after.context party).sc.senderKey ≠
        (other.after.context party).rc.recipientKey)
    (unforgeable : Unforgeable platform events)
    (split : events = past ++ event :: rest)
    (receives : Receives platform (localCall event) letter) :
    ∃ earlier ∈ past, earlier.input.1 = event.input.1.peer ∧
      Posts platform (localCall earlier) letter := by
  obtain ⟨sealing, opens, sameAad, key, opened⟩ := receives.opens
  obtain ⟨earlier, member, seals⟩ :=
    unforgeable past event rest split sealing opens
  obtain ⟨posted, posts, postedAad, called⟩ := seals.posts
  have samePlaintext := inverts called
  rw [opened, Option.some.injEq] at samePlaintext
  have same : posted = letter := by
    obtain ⟨_, _⟩ := posted
    obtain ⟨_, _⟩ := letter
    rw [Letter.mk.injEq]
    exact ⟨samePlaintext.symm, postedAad.trans sameAad⟩
  subst same
  refine ⟨earlier, member, Party.eq_peer_of_ne ?_, posts⟩
  intro own
  obtain ⟨_, _, _, _, sealKey, _⟩ := seals
  rw [key, localCall_after own, localCall_after rfl] at sealKey
  have earlierMember : earlier ∈ events := by
    rw [split]
    exact List.mem_append_left _ member
  have eventMember : event ∈ events := by
    rw [split]
    simp
  exact
    separate earlier earlierMember event eventMember event.input.1
      sealKey.symm

/-- Each step of the system is one of the channel. -/
theorem step_performed
    (received : ∀ letter, Receives platform (localCall event) letter →
      ∃ earlier ∈ past, earlier.input.1 = event.input.1.peer ∧
        Posts platform (localCall earlier) letter)
    (step : systemMachine platform event) {channel : Channel Party Letter}
    (holds : HoldsPosted platform past channel) :
    ∃ channelEvent : ChannelEvent Party Letter,
      channelEvent.before = channel ∧
        channelMachine Party.peer channelEvent ∧
        Performs platform event channelEvent ∧
        HoldsPosted platform (past ++ [event]) channelEvent.after := by
  by_cases encrypts : ∃ packet, Encrypts (localCall event) packet
  · obtain ⟨packet, encrypts⟩ := encrypts
    obtain ⟨letter, posts⟩ := encrypts.posts step.1
    exact
      ⟨⟨channel, .send event.input.1 letter, (),
          channel.send event.input.1 letter⟩, rfl, rfl, ⟨rfl, posts⟩,
        holds.send posts⟩
  · have notPosts : ∀ letter, ¬ Posts platform (localCall event) letter := by
      rintro letter ⟨packet, _, posted, _⟩
      exact encrypts ⟨packet, posted⟩
    have stillHolds := holds.concat_of_not_posts notPosts
    by_cases receives : ∃ letter, Receives platform (localCall event) letter
    · obtain ⟨letter, receives⟩ := receives
      have inChannel : letter ∈ channel event.input.1.peer :=
        (holds _ letter).mpr (received letter receives)
      exact
        ⟨⟨channel, .deliver event.input.1 letter, (), channel⟩, rfl,
          ⟨inChannel, rfl⟩, ⟨rfl, receives⟩, stillHolds⟩
    · refine
        ⟨⟨channel, .idle, (), channel⟩, rfl, rfl, ⟨?_, ?_⟩, stillHolds⟩
      · intro packet posted
        exact encrypts ⟨packet, posted⟩
      · intro input capacity output called accepted
        exact receives (receives_of_accepted step.1 called accepted)

/-- The two contexts are a channel: each run of theirs is one of it. -/
theorem system_refinesChannel (platform : Platform)
    (clientParams serverParams : OscoreInitParams)
    (matching : Matching clientParams serverParams)
    (canonical : platform.toCborEncoder.IsCanonical)
    (inverts : platform.AeadInverts)
    (different : clientParams.senderId ≠ clientParams.recipientId)
    (collisionFree : CollisionFree platform clientParams)
    (first last : System) (events : List SystemEvent)
    (clientInitialised : Initialised platform clientParams first.client)
    (serverInitialised : Initialised platform serverParams first.server)
    (run : SystemRun platform first events last)
    (unforgeable : Unforgeable platform events) :
    (∃ channelEvents channel,
        Run (channelMachine Party.peer) Channel.empty channelEvents channel ∧
          List.Forall₂ (Performs platform) events channelEvents ∧
          HoldsPosted platform events channel) ∧
      Throughout
        (fun past event => ∀ letter,
          Receives platform (localCall event) letter →
          ∃ earlier ∈ past, earlier.input.1 = event.input.1.peer ∧
            Posts platform (localCall earlier) letter)
        events := by
  have separate : ∀ event ∈ events, ∀ other ∈ events, ∀ party,
      (event.after.context party).sc.senderKey ≠
        (other.after.context party).rc.recipientKey := by
    intro event member other otherMember party
    apply KeyOf.ne canonical (matching.different different party)
      (matching.collisionFree collisionFree party)
    · exact
        (SystemRun.keysOf clientInitialised serverInitialised run member
          party).senderKey
    · exact
        (SystemRun.keysOf clientInitialised serverInitialised run otherMember
          party).recipientKey
  have initial : HoldsPosted platform [] Channel.empty := by
    intro party letter
    simp [Channel.empty]
  obtain ⟨channelEvents, channel, channelRun, performed, holds⟩ :=
    run.simulated initial fun past event rest split step _ holds =>
      step_performed
        (fun _ => received_posted inverts separate unforgeable split) step
        holds
  refine ⟨⟨channelEvents, channel, channelRun, performed, holds⟩, ?_⟩
  refine Throughout.of_forall₂ performed (delivered_sent channelRun) ?_
  intro past event channelPast channelEvent pastPerformed eventPerformed
    delivered letter receives
  unfold Performs at eventPerformed
  cases called : channelEvent.input with
  | send party sent =>
      rw [called] at eventPerformed
      exact absurd receives eventPerformed.2.not_receives
  | deliver party taken =>
      rw [called] at eventPerformed
      obtain ⟨rfl, takes⟩ := eventPerformed
      rw [takes.unique receives] at called
      obtain ⟨sent, member, isSent⟩ := delivered _ _ called
      obtain ⟨earlier, earlierMember, earlierPerformed⟩ :=
        mem_of_forall₂ pastPerformed member
      unfold Performs at earlierPerformed
      rw [isSent] at earlierPerformed
      exact ⟨earlier, earlierMember, earlierPerformed⟩
  | idle =>
      rw [called] at eventPerformed
      obtain ⟨_, _, output, _, isCall, accepted, _⟩ := receives
      exact absurd accepted (eventPerformed.2 _ _ output isCall)

end Refinement

/-! ## The exchange of test vector T1 -/

/-- A request, its delivery, the response and the delivery of that. -/
def t1Dialogue : List (Party × Call) :=
  [ (.client, .coap2oscore t1Request 64),
    (.server, .oscore2coap t1OscoreRequest 64),
    (.server, .coap2oscore t1Response 64),
    (.client, .oscore2coap t1OscoreResponse 64) ]

/-- The events of the exchange. -/
def t1DialogueEvents : List SystemEvent :=
  systemEvents t1Platform ⟨t1Client, t1Server⟩ t1Dialogue

theorem t1DialogueEvents_outputs :
    t1DialogueEvents.map Event.output =
      [.ok (some t1OscoreRequest), .ok (some t1Request),
        .ok (some t1OscoreResponse), .ok (some t1Response)] := by
  decide +kernel

theorem t1DialogueEvents_run :
    SystemRun t1Platform ⟨t1Client, t1Server⟩ t1DialogueEvents
      (systemAfter t1Platform ⟨t1Client, t1Server⟩ t1Dialogue) := by
  apply systemEvents_run
  intro event member
  have output : event.output ∈ t1DialogueEvents.map Event.output :=
    List.mem_map_of_mem member
  rw [t1DialogueEvents_outputs] at output
  intro isUndefined
  rw [isUndefined] at output
  exact absurd output (by decide)

theorem t1DialogueEvents_unforgeable : Unforgeable t1Platform t1DialogueEvents :=
  unforgeable_of_opensSealed t1DialogueEvents_run (by decide +kernel)

theorem t1_collisionFree : CollisionFree t1Platform t1ClientParams := by
  have separate :
      t1Platform.hkdfSha256 t1MasterSecret t1MasterSalt
          (hkdfInfo canonicalCbor [] [] .oscoreAesCcm16_64_128 .key)
          senderKeyLen ≠
        t1Platform.hkdfSha256 t1MasterSecret t1MasterSalt
          (hkdfInfo canonicalCbor [1] [] .oscoreAesCcm16_64_128 .key)
          senderKeyLen := by
    decide +kernel
  intro leftId leftMember rightId rightMember leftContext rightContext key
    leftFits rightFits info left right
  have leftEmpty : leftContext = [] :=
    List.length_eq_zero_iff.mp (Nat.le_zero.mp leftFits)
  have rightEmpty : rightContext = [] :=
    List.length_eq_zero_iff.mp (Nat.le_zero.mp rightFits)
  subst leftEmpty rightEmpty
  rcases List.mem_pair.mp leftMember with rfl | rfl
  · rcases List.mem_pair.mp rightMember with rfl | rfl
    · rfl
    · exact absurd (left.trans right.symm) separate
  · rcases List.mem_pair.mp rightMember with rfl | rfl
    · exact absurd (right.trans left.symm) separate
    · rfl

theorem system_refinesChannel_t1 :
    (∃ channelEvents channel,
        Run (channelMachine Party.peer) Channel.empty channelEvents channel ∧
          List.Forall₂ (Performs t1Platform) t1DialogueEvents channelEvents ∧
          HoldsPosted t1Platform t1DialogueEvents channel) ∧
      Throughout
        (fun past event => ∀ letter,
          Receives t1Platform (localCall event) letter →
          ∃ earlier ∈ past, earlier.input.1 = event.input.1.peer ∧
            Posts t1Platform (localCall earlier) letter)
        t1DialogueEvents :=
  system_refinesChannel t1Platform t1ClientParams t1ServerParams
    t1_matchingParams canonicalCbor_isCanonical t1_aeadInverts (by decide)
    t1_collisionFree ⟨t1Client, t1Server⟩ _ t1DialogueEvents t1Client_initialised
    t1Server_initialised t1DialogueEvents_run t1DialogueEvents_unforgeable

end UoscoreUedhoc.Oscore
