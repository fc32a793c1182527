import UoscoreUedhoc.Lib.Runs
import UoscoreUedhoc.Oscore.Oscore2Coap

/-!
# Calls on one context

The two entry points as the steps of a machine over a security context, and
what each successful call says about the contexts around it.  A run contains
no call whose behaviour is undefined: nothing can be said about what follows
one.
-/

namespace UoscoreUedhoc.Oscore

open UoscoreUedhoc
open UoscoreUedhoc.Runs
open Update

/-! ## The machine -/

/-- A call with its input and the capacity of its output buffer. -/
inductive Call where
  | coap2oscore (input : Bytes) (capacity : Nat)
  | oscore2coap (input : Bytes) (capacity : Nat)
  deriving DecidableEq, Repr

/-- Run a call; `none` is an output that `oscore2coap` leaves unwritten. -/
def Call.run (platform : Platform) : Call → Update Context (Option Bytes)
  | .coap2oscore input capacity => do
      let output ← Oscore.coap2oscore platform input capacity
      pure (some output)
  | .oscore2coap input capacity =>
      Oscore.oscore2coap platform input capacity

abbrev CallEvent := Event Context Call (Outcome (Option Bytes))

/-- A call with defined behaviour, between the contexts before and after. -/
def callMachine (platform : Platform) :
    Machine Context Call (Outcome (Option Bytes)) :=
  fun event =>
    exec (event.input.run platform) event.before =
        (event.output, event.after) ∧
      event.output ≠ undefinedBehaviour

instance (platform : Platform) : DecidablePred (callMachine platform) :=
  fun _ => instDecidableAnd

abbrev CallRun (platform : Platform) := Run (callMachine platform)

/-- A context as `oscore_context_init` leaves it. -/
def Initialised (platform : Platform) (params : OscoreInitParams)
    (c : Context) : Prop :=
  ∃ buffers, oscoreContextInit platform params buffers = .ok c

/-- The event of a call on a context. -/
def callEvent (platform : Platform) (before : Context) (call : Call) :
    CallEvent where
  before := before
  input := call
  output := (exec (call.run platform) before).1
  after := (exec (call.run platform) before).2

theorem callEvent_step {platform : Platform} {before : Context} {call : Call}
    (isDefined :
      (callEvent platform before call).output ≠ undefinedBehaviour) :
    callMachine platform (callEvent platform before call) :=
  ⟨rfl, isDefined⟩

theorem callMachine_oscore2coap {platform : Platform} {event : CallEvent}
    {input : Bytes} {capacity : Nat} (step : callMachine platform event)
    (called : event.input = .oscore2coap input capacity) :
    exec (oscore2coap platform input capacity) event.before =
      (event.output, event.after) := by
  have ran := step.1
  rwa [called] at ran

theorem callMachine_coap2oscore {platform : Platform} {event : CallEvent}
    {input : Bytes} {capacity : Nat} (step : callMachine platform event)
    (called : event.input = .coap2oscore input capacity) :
    ∃ outcome,
      exec (coap2oscore platform input capacity) event.before =
          (outcome, event.after) ∧
        event.output = outcome.map some := by
  have ran := step.1
  rw [called] at ran
  unfold Call.run at ran
  rw [exec_bind] at ran
  generalize exec (coap2oscore platform input capacity) event.before = done
    at ran
  obtain ⟨outcome, after⟩ := done
  cases outcome with
  | error fault =>
      obtain ⟨failed, rfl⟩ := Prod.mk.inj ran
      exact ⟨_, rfl, failed.symm⟩
  | ok output =>
      obtain ⟨succeeded, rfl⟩ := Prod.mk.inj ran
      exact ⟨_, rfl, succeeded.symm⟩

/-! ## Calls that encrypt -/

/-- A `coap2oscore` call that returned `ok` for a packet it encrypted. -/
def Encrypts (event : CallEvent) (packet : OCoapPacket) : Prop :=
  ∃ input capacity output,
    event.input = .coap2oscore input capacity ∧
      event.output = .ok (some output) ∧
      buf2coap input = .ok packet ∧
      isMessagingLayer packet = false

theorem Encrypts.isProtected {platform : Platform} {event : CallEvent}
    {packet : OCoapPacket} (encrypts : Encrypts event packet)
    (step : callMachine platform event) :
    ∃ oscorePacket,
      Protected platform packet event.before event.after oscorePacket := by
  obtain ⟨input, capacity, output, called, succeeded, parsed, notCopied⟩ :=
    encrypts
  obtain ⟨ran, _⟩ := step
  rw [called, succeeded] at ran
  simp only [Call.run, exec_bind_eq_ok, exec_pure, Prod.mk.injEq,
    Except.ok.injEq] at ran
  obtain ⟨_, between, converted, _, rfl⟩ := ran
  obtain ⟨other, otherParsed, result⟩ := coap2oscore_eq_ok.mp converted
  rw [parsed, Except.ok.injEq] at otherParsed
  subst otherParsed
  rw [notCopied] at result
  obtain ⟨oscorePacket, protectedPacket, _⟩ := result
  exact ⟨oscorePacket, protectedPacket⟩

/-- The call of `aead` behind a protected packet: its key and nonce are those
of the context afterwards, and its output is the payload. -/
theorem Protected.aead_call {platform : Platform}
    {packet oscorePacket : OCoapPacket} {c after : Context}
    (protectedPacket : Protected platform packet c after oscorePacket) :
    ∃ plaintext aad,
      coseAad platform.toCborEncoder after.rrc.aad = .ok aad ∧
        platform.aeadEncrypt plaintext after.sc.senderKey after.rrc.nonce
          aad authTagLen = some oscorePacket.payload := by
  obtain ⟨options, plaintext, value, ciphertext, _, _, _, _, encrypted,
    generated⟩ := protectedPacket
  obtain ⟨aad, aadBuilt, called⟩ := oscoreCoseEncrypt_eq_ok.mp encrypted
  refine ⟨plaintext, aad, aadBuilt, ?_⟩
  unfold oscorePkgGenerate at generated
  split at generated
  · cases generated
  · cases generated
    exact called

/-- A request is encrypted under the nonce of its sequence number. -/
theorem Protected.request_nonce {platform : Platform}
    {packet oscorePacket : OCoapPacket} {c after : Context}
    (protectedPacket : Protected platform packet c after oscorePacket)
    (request : isRequest packet = true) :
    c.sc.senderSeqNum.toNat < 2 ^ 40 ∧
      createNonce c.rrc.kid (partialIv c.sc.senderSeqNum) c.cc.commonIv =
        .ok after.rrc.nonce := by
  obtain ⟨options, plaintext, value, ciphertext, _, _, _, valued, _, _⟩ :=
    protectedPacket
  rw [optionValue_eq_ok, if_pos request] at valued
  obtain ⟨small, nonce, created, _, rfl, _⟩ := requestOption_eq_ok.mp valued
  exact ⟨small, created⟩

/-- A response is encrypted under the nonce the context holds. -/
theorem Protected.response_context {platform : Platform}
    {packet oscorePacket : OCoapPacket} {c after : Context}
    (protectedPacket : Protected platform packet c after oscorePacket)
    (response : isRequest packet = false) : after = c := by
  obtain ⟨options, plaintext, value, ciphertext, _, _, _, valued, _, _⟩ :=
    protectedPacket
  rw [optionValue_eq_ok, response] at valued
  exact valued.2

theorem coap2oscorePacket_of_response {platform : Platform}
    {packet : OCoapPacket} (response : isRequest packet = false) :
    Keeps Eq (coap2oscorePacket platform packet) := by
  unfold coap2oscorePacket
  refine Keeps.bind (Keeps.lift _) ?_
  intro options
  refine Keeps.bind (Keeps.lift _) ?_
  intro _
  refine Keeps.bind (Keeps.lift _) ?_
  intro plaintext
  refine Keeps.bind ?_ ?_
  · unfold optionValue
    rw [response]
    exact Keeps.pure _
  · intro value
    refine Keeps.bind (Keeps.lift _) ?_
    intro _
    refine Keeps.bind Keeps.get ?_
    intro c
    refine Keeps.bind (Keeps.lift _) ?_
    intro ciphertext
    exact Keeps.lift _

/-- Only the protection of a request changes the context. -/
theorem coap2oscore_of_not_request {platform : Platform} {input : Bytes}
    {capacity : Nat} (c : Context)
    (answers : ∀ packet, buf2coap input = .ok packet →
      isRequest packet = true → isMessagingLayer packet = true) :
    (exec (coap2oscore platform input capacity) c).2 = c := by
  unfold coap2oscore
  rw [exec_lift_bind]
  cases parsed : buf2coap input with
  | error fault =>
      rfl
  | ok packet =>
      rw [andThen_ok, exec_ite]
      by_cases messaging : isMessagingLayer packet = true
      · rw [if_pos messaging]
        rfl
      · rw [if_neg messaging]
        have response : isRequest packet = false := by
          cases request : isRequest packet with
          | false =>
              rfl
          | true =>
              exact absurd (answers packet parsed request) messaging
        have keeps :
            Keeps Eq (do
              let oscorePacket ← coap2oscorePacket platform packet
              .lift (coap2buf oscorePacket capacity)) :=
          Keeps.bind (coap2oscorePacket_of_response response)
            fun oscorePacket => Keeps.lift _
        exact (keeps c).symm

theorem callRun_coap2oscore_keeps {platform : Platform} {event : CallEvent}
    (step : callMachine platform event)
    (protects : ∃ input capacity, event.input = .coap2oscore input capacity) :
    SameKeys event.before event.after := by
  obtain ⟨input, capacity, called⟩ := protects
  obtain ⟨ran, _⟩ := step
  rw [called] at ran
  have keeps : Keeps SameKeys (Call.run platform (.coap2oscore input capacity)) :=
    Keeps.bind (coap2oscore_keeps platform input capacity)
      fun output => Keeps.pure _
  have kept := keeps event.before
  rwa [ran] at kept

theorem callRun_oscore2coap_keeps {platform : Platform} {event : CallEvent}
    (step : callMachine platform event)
    (receives : ∃ input capacity, event.input = .oscore2coap input capacity) :
    SameIdentity event.before event.after := by
  obtain ⟨input, capacity, called⟩ := receives
  obtain ⟨ran, _⟩ := step
  rw [called] at ran
  have kept := oscore2coap_keeps platform input capacity event.before
  have same :
      exec (oscore2coap platform input capacity) event.before =
        (event.output, event.after) := ran
  rwa [same] at kept

/-- No run changes the parameters of its context. -/
theorem CallRun.sameParameters {platform : Platform} {first last : Context}
    {events : List CallEvent} (run : CallRun platform first events last) :
    SameParameters first last := by
  refine run.related ?_
  intro event _ step
  cases called : event.input with
  | coap2oscore input capacity =>
      exact (callRun_coap2oscore_keeps step ⟨_, _, called⟩).sameParameters
  | oscore2coap input capacity =>
      exact (callRun_oscore2coap_keeps step ⟨_, _, called⟩).toSameParameters

/-! ## The contexts of test vector T1 -/

def t1MasterSecret : Bytes :=
  [1, 2, 3, 4, 5, 6, 7, 8, 9, 0x0A, 0x0B, 0x0C, 0x0D, 0x0E, 0x0F, 0x10]

def t1MasterSalt : Bytes :=
  [0x9E, 0x7C, 0xA9, 0x22, 0x23, 0x78, 0x63, 0x40]

def t1ClientKey : Bytes :=
  [0xF0, 0x91, 0x0E, 0xD7, 0x29, 0x5E, 0x6A, 0xD4, 0xB5, 0x4F, 0xC7, 0x93,
    0x15, 0x43, 0x02, 0xFF]

def t1ServerKey : Bytes :=
  [0xFF, 0xB1, 0x4E, 0x09, 0x3C, 0x94, 0xC9, 0xCA, 0xC9, 0x47, 0x16, 0x48,
    0xB4, 0xF9, 0x87, 0x10]

def t1CommonIv : Bytes :=
  [0x46, 0x22, 0xD4, 0xDD, 0x6D, 0x94, 0x41, 0x68, 0xEE, 0xFB, 0x54, 0x98,
    0x7C]

/-- The calls of `hkdf_sha_256` in the initialisation of both contexts. -/
def t1HkdfRecords : List HkdfRecord :=
  let info := fun id =>
    hkdfInfo canonicalCbor id [] .oscoreAesCcm16_64_128
  [ { secret := t1MasterSecret, salt := t1MasterSalt
      info := info [] .iv, out := t1CommonIv },
    { secret := t1MasterSecret, salt := t1MasterSalt
      info := info [] .key, out := t1ClientKey },
    { secret := t1MasterSecret, salt := t1MasterSalt
      info := info [1] .key, out := t1ServerKey } ]

/-- A call of `aead` with the associated data of a request. -/
def aeadRecord (key kid piv nonce plaintext ciphertext : Bytes) :
    AeadRecord where
  plaintext := plaintext
  key := key
  nonce := nonce
  aad :=
    encStructure canonicalCbor
      (aadArray canonicalCbor .oscoreAesCcm16_64_128 kid piv [])
  tagLen := authTagLen
  ciphertext := ciphertext

/-- The calls of `aead` on packets between the two contexts. -/
def t1AeadRecords : List AeadRecord :=
  [ aeadRecord t1ClientKey [] [0]
      [0x46, 0x22, 0xD4, 0xDD, 0x6D, 0x94, 0x41, 0x68, 0xEE, 0xFB, 0x54, 0x98,
        0x7C]
      [1, 0xB3, 0x74, 0x76, 0x31]
      [0xAE, 0x8A, 0x2A, 3, 0x20, 0xF0, 0xF5, 6, 0x31, 0x7C, 0xBD, 0x46, 0xF4],
    aeadRecord t1ClientKey [] [1]
      [0x46, 0x22, 0xD4, 0xDD, 0x6D, 0x94, 0x41, 0x68, 0xEE, 0xFB, 0x54, 0x98,
        0x7D]
      [1, 0xB3, 0x74, 0x76, 0x31]
      [0x19, 0x47, 0x30, 0x55, 0x85, 0x18, 0x23, 0x5A, 0x17, 0x4C, 0x98, 0xB6,
        0xB1],
    aeadRecord t1ServerKey [] [0]
      [0x46, 0x22, 0xD4, 0xDD, 0x6D, 0x94, 0x41, 0x68, 0xEE, 0xFB, 0x54, 0x98,
        0x7C]
      [0x45, 0xFF, 0x48, 0x69]
      [0x18, 0xC2, 0xF4, 0x5A, 0xF1, 0xE3, 8, 0xAA, 0x8D, 0xF2, 0x8A, 0xBF],
    aeadRecord t1ServerKey [] [1]
      [0x46, 0x22, 0xD4, 0xDD, 0x6D, 0x94, 0x41, 0x68, 0xEE, 0xFB, 0x54, 0x98,
        0x7D]
      [0x45, 0xFF, 0x48, 0x69]
      [0x47, 0x43, 0x32, 0x29, 0xCD, 0xD7, 0x7D, 0x29, 0xF8, 0x92, 0x83, 0xDD],
    aeadRecord t1ServerKey [] [1]
      [0x46, 0x22, 0xD4, 0xDD, 0x6D, 0x94, 0x41, 0x68, 0xEE, 0xFB, 0x54, 0x98,
        0x7D]
      [0x45, 0xFF, 0x48, 0x6F]
      [0x47, 0x43, 0x32, 0x2F, 0xD5, 0xBF, 0xA5, 0x15, 0x7C, 0x21, 0xA8, 0x4D] ]

theorem t1AeadRecords_lengths :
    ∀ record ∈ t1AeadRecords,
      record.ciphertext.length =
        record.plaintext.length + record.tagLen := by
  decide

def t1Platform : Platform :=
  .ofRecords t1HkdfRecords t1AeadRecords t1AeadRecords_lengths

def t1ClientParams : OscoreInitParams where
  devType := .client
  masterSecret := t1MasterSecret
  senderId := []
  recipientId := [1]
  idContext := []
  masterSalt := t1MasterSalt
  aeadAlg := .oscoreAesCcm16_64_128
  hkdf := .oscoreSha256

def t1ServerParams : OscoreInitParams where
  devType := .server
  masterSecret := t1MasterSecret
  senderId := [1]
  recipientId := []
  idContext := []
  masterSalt := t1MasterSalt
  aeadAlg := .oscoreAesCcm16_64_128
  hkdf := .oscoreSha256

/-- Zeroed memory. -/
def zeroBuffers : UnwrittenBuffers where
  nonce := List.replicate nonceLen 0
  aad := List.replicate maxAadLen 0
  piv := List.replicate maxPivLen 0
  kidContext := List.replicate maxKidContextLen 0
  kid := List.replicate maxKidLen 0
  nonce_length := rfl
  aad_length := rfl
  piv_length := rfl
  kidContext_length := rfl
  kid_length := rfl

def t1Client : Context where
  rrc :=
    { nonce := List.replicate nonceLen 0
      aad := List.replicate maxAadLen 0
      piv := List.replicate maxPivLen 0
      kidContext := []
      kid := [] }
  cc :=
    { aeadAlg := .oscoreAesCcm16_64_128
      kdf := .oscoreSha256
      masterSecret := t1MasterSecret
      masterSalt := t1MasterSalt
      idContext := []
      commonIv := t1CommonIv }
  sc := { senderId := [], senderKey := t1ClientKey, senderSeqNum := 0 }
  rc :=
    { recipientId := [1]
      recipientKey := t1ServerKey
      replayWindow := List.replicate replayWindowLen 0 }

def t1Server : Context where
  rrc :=
    { nonce := List.replicate nonceLen 0
      aad := List.replicate maxAadLen 0
      piv := List.replicate maxPivLen 0
      kidContext := List.replicate maxKidContextLen 0
      kid := [] }
  cc :=
    { aeadAlg := .oscoreAesCcm16_64_128
      kdf := .oscoreSha256
      masterSecret := t1MasterSecret
      masterSalt := t1MasterSalt
      idContext := []
      commonIv := t1CommonIv }
  sc := { senderId := [1], senderKey := t1ServerKey, senderSeqNum := 0 }
  rc :=
    { recipientId := []
      recipientKey := t1ClientKey
      replayWindow := List.replicate replayWindowLen 0 }

/-- A GET request for `tv1`. -/
def t1Request : Bytes := [0x40, 1, 0, 1, 0xB3, 0x74, 0x76, 0x31]

def t1Packet : OCoapPacket where
  header := { ver := 1, type := 0, tkl := 0, code := 1, mid := 1 }
  token := some []
  options :=
    some
      [ { delta := 11, len := 3, value := [0x74, 0x76, 0x31]
          optionNumber := 11 } ]
  payloadLen := 0
  payload := []

/-- The same request as the client protects it with sequence number 0. -/
def t1OscoreRequest : Bytes :=
  [0x40, 2, 0, 1, 0x92, 9, 0, 0xFF, 0xAE, 0x8A, 0x2A, 3, 0x20, 0xF0, 0xF5, 6,
    0x31, 0x7C, 0xBD, 0x46, 0xF4]

/-- And with sequence number 1. -/
def t1NextOscoreRequest : Bytes :=
  [0x40, 2, 0, 1, 0x92, 9, 1, 0xFF, 0x19, 0x47, 0x30, 0x55, 0x85, 0x18, 0x23,
    0x5A, 0x17, 0x4C, 0x98, 0xB6, 0xB1]

/-- A response with the payload `Hi`. -/
def t1Response : Bytes := [0x60, 0x45, 0, 1, 0xFF, 0x48, 0x69]

def t1ResponsePacket : OCoapPacket where
  header := { ver := 1, type := 2, tkl := 0, code := 0x45, mid := 1 }
  token := some []
  options := some []
  payloadLen := 2
  payload := [0x48, 0x69]

/-- Another one, with the payload `Ho`. -/
def t1OtherResponse : Bytes := [0x60, 0x45, 0, 1, 0xFF, 0x48, 0x6F]

theorem t1Client_initialised :
    Initialised t1Platform t1ClientParams t1Client :=
  ⟨zeroBuffers, rfl⟩

theorem t1Server_initialised :
    Initialised t1Platform t1ServerParams t1Server :=
  ⟨zeroBuffers, rfl⟩

/-! ## Calls on them -/

/-- The client protects its request. -/
def t1Protects : CallEvent :=
  callEvent t1Platform t1Client (.coap2oscore t1Request 64)

/-- And once more. -/
def t1ProtectsNext : CallEvent :=
  callEvent t1Platform t1Protects.after (.coap2oscore t1Request 64)

theorem t1Protects_step : callMachine t1Platform t1Protects :=
  callEvent_step (by decide +kernel)

theorem t1ProtectsNext_step : callMachine t1Platform t1ProtectsNext :=
  callEvent_step (by decide +kernel)

/-- The server accepts the first request. -/
def t1Serves : CallEvent :=
  callEvent t1Platform t1Server (.oscore2coap t1OscoreRequest 64)

/-- It accepts the second request while the first one is unanswered. -/
def t1ServesPending : CallEvent :=
  callEvent t1Platform t1Serves.after (.oscore2coap t1NextOscoreRequest 64)

/-- It answers the first request. -/
def t1Answers : CallEvent :=
  callEvent t1Platform t1Serves.after (.coap2oscore t1Response 64)

/-- It accepts the second request behind the answer. -/
def t1ServesNext : CallEvent :=
  callEvent t1Platform t1Answers.after (.oscore2coap t1NextOscoreRequest 64)

/-- It answers that one as well. -/
def t1AnswersNext : CallEvent :=
  callEvent t1Platform t1ServesNext.after (.coap2oscore t1Response 64)

theorem t1Serves_step : callMachine t1Platform t1Serves :=
  callEvent_step (by decide +kernel)

theorem t1ServesPending_step : callMachine t1Platform t1ServesPending :=
  callEvent_step (by decide +kernel)

theorem t1Answers_step : callMachine t1Platform t1Answers :=
  callEvent_step (by decide +kernel)

theorem t1ServesNext_step : callMachine t1Platform t1ServesNext :=
  callEvent_step (by decide +kernel)

theorem t1AnswersNext_step : callMachine t1Platform t1AnswersNext :=
  callEvent_step (by decide +kernel)

/-! ## The contexts of test vectors T5 and T6 -/

def t5IdContext : Bytes := [0x37, 0xCB, 0xF3, 0x21, 0, 0x17, 0xA2, 0xD3]

def t5ClientKey : Bytes :=
  [0xAF, 0x2A, 0x13, 0, 0xA5, 0xE9, 0x57, 0x88, 0xB3, 0x56, 0x33, 0x6E, 0xEE,
    0xCD, 0x2B, 0x92]

def t5ServerKey : Bytes :=
  [0xE3, 0x9A, 0x0C, 0x7C, 0x77, 0xB4, 0x3F, 3, 0xB4, 0xB3, 0x9A, 0xB9, 0xA2,
    0x68, 0x69, 0x9F]

def t5CommonIv : Bytes :=
  [0x2C, 0xA5, 0x8F, 0xB8, 0x5F, 0xF1, 0xB8, 0x1C, 0x0B, 0x71, 0x81, 0xB8,
    0x5E]

/-- The calls of `hkdf_sha_256` with the ID context, and those without. -/
def t5HkdfRecords : List HkdfRecord :=
  let info := fun id =>
    hkdfInfo canonicalCbor id t5IdContext .oscoreAesCcm16_64_128
  t1HkdfRecords ++
    [ { secret := t1MasterSecret, salt := t1MasterSalt
        info := info [] .iv, out := t5CommonIv },
      { secret := t1MasterSecret, salt := t1MasterSalt
        info := info [] .key, out := t5ClientKey },
      { secret := t1MasterSecret, salt := t1MasterSalt
        info := info [1] .key, out := t5ServerKey } ]

/-- The calls of `aead` with the ID context, and those without. -/
def t5AeadRecords : List AeadRecord :=
  t1AeadRecords ++
    [ aeadRecord t5ClientKey [] [0x14]
        [0x2C, 0xA5, 0x8F, 0xB8, 0x5F, 0xF1, 0xB8, 0x1C, 0x0B, 0x71, 0x81, 0xB8,
          0x4A]
        [1, 0xB3, 0x74, 0x76, 0x31]
        [0x72, 0xCD, 0x72, 0x73, 0xFD, 0x33, 0x1A, 0xC4, 0x5C, 0xFF, 0xBE, 0x55,
          0xC3] ]

theorem t5AeadRecords_lengths :
    ∀ record ∈ t5AeadRecords,
      record.ciphertext.length =
        record.plaintext.length + record.tagLen := by
  decide

def t5Platform : Platform :=
  .ofRecords t5HkdfRecords t5AeadRecords t5AeadRecords_lengths

/-- The server with the ID context of the client. -/
def t6ServerParams : OscoreInitParams :=
  { t1ServerParams with idContext := t5IdContext }

def t5Client : Context where
  rrc := { t1Client.rrc with kidContext := t5IdContext }
  cc := { t1Client.cc with idContext := t5IdContext, commonIv := t5CommonIv }
  sc := { senderId := [], senderKey := t5ClientKey, senderSeqNum := 0 }
  rc := { t1Client.rc with recipientKey := t5ServerKey }

def t6Server : Context where
  rrc := t1Server.rrc
  cc := { t1Server.cc with idContext := t5IdContext, commonIv := t5CommonIv }
  sc := { senderId := [1], senderKey := t5ServerKey, senderSeqNum := 0 }
  rc := { t1Server.rc with recipientKey := t5ClientKey }

def t5Request : Bytes :=
  [0x44, 1, 0x2F, 0x8E, 0xEF, 0x9B, 0xBF, 0x7A, 0x39, 0x6C, 0x6F, 0x63, 0x61,
    0x6C, 0x68, 0x6F, 0x73, 0x74, 0x83, 0x74, 0x76, 0x31]

def t5OscoreRequest : Bytes :=
  [0x44, 2, 0x2F, 0x8E, 0xEF, 0x9B, 0xBF, 0x7A, 0x39, 0x6C, 0x6F, 0x63, 0x61,
    0x6C, 0x68, 0x6F, 0x73, 0x74, 0x6B, 0x19, 0x14, 8, 0x37, 0xCB, 0xF3, 0x21,
    0, 0x17, 0xA2, 0xD3, 0xFF, 0x72, 0xCD, 0x72, 0x73, 0xFD, 0x33, 0x1A, 0xC4,
    0x5C, 0xFF, 0xBE, 0x55, 0xC3]

/-- The server accepts the request of the client with the ID context. -/
def t6Serves (platform : Platform) : CallEvent :=
  callEvent platform t6Server (.oscore2coap t5OscoreRequest 64)

/-- It follows the client without one. -/
def t6Switches (platform : Platform) : CallEvent :=
  callEvent platform (t6Serves platform).after
    (.oscore2coap t1OscoreRequest 64)

/-- It gets the request of the first client again. -/
def t6Refuses (platform : Platform) : CallEvent :=
  callEvent platform (t6Switches platform).after
    (.oscore2coap t5OscoreRequest 64)

end UoscoreUedhoc.Oscore
