import UoscoreUedhoc.Oscore.Calls

/-!
# Uniqueness of request nonces

A nonce holds the sender ID and the Partial IV, each padded on the left.
`sender_seq_num2piv` writes the sequence number with its least significant
byte first, so that the padding does not undo the trimming: two sequence
numbers share a nonce exactly when one is the other one times a power of 256.
-/

namespace UoscoreUedhoc.Oscore

open UoscoreUedhoc
open UoscoreUedhoc.PaddedDigits
open UoscoreUedhoc.Runs

/-- The nonce for a sender ID and a sequence number. -/
def requestNonce (senderId : Bytes) (ssn : UInt64) (commonIv : Bytes) :
    Outcome Bytes := do
  let piv ← senderSeqNum2piv ssn
  createNonce senderId piv commonIv

theorem requestNonce_eq_ok {senderId commonIv nonce : Bytes} {ssn : UInt64} :
    requestNonce senderId ssn commonIv = .ok nonce ↔
      ssn.toNat < 2 ^ 40 ∧
        createNonce senderId (partialIv ssn) commonIv = .ok nonce := by
  unfold requestNonce
  simp only [outcome_bind_eq_ok, senderSeqNum2piv_eq_ok]
  constructor
  · intro built
    obtain ⟨_, ⟨small, rfl⟩, created⟩ := built
    exact ⟨small, created⟩
  · intro built
    exact ⟨_, ⟨built.1, rfl⟩, built.2⟩

theorem requestNonce_total {senderId commonIv : Bytes} {ssn : UInt64}
    (idFits : senderId.length ≤ paddedIdPivLen)
    (ivFits : commonIv.length ≤ nonceLen) (small : ssn.toNat < 2 ^ 40) :
    ∃ nonce, requestNonce senderId ssn commonIv = .ok nonce := by
  obtain ⟨nonce, created, _⟩ :=
    createNonce_total (partialIv_length small).2 idFits ivFits
  exact ⟨nonce, requestNonce_eq_ok.mpr ⟨small, created⟩⟩

/-- Two nonces under one Common IV agree exactly for one sender ID and
byte-shifted sequence numbers. -/
theorem requestNonce_eq_iff
    {leftId rightId commonIv leftNonce rightNonce : Bytes}
    {leftSsn rightSsn : UInt64}
    (leftBuilt : requestNonce leftId leftSsn commonIv = .ok leftNonce)
    (rightBuilt : requestNonce rightId rightSsn commonIv = .ok rightNonce) :
    leftNonce = rightNonce ↔
      leftId = rightId ∧
        ByteShifted leftSsn.toNat rightSsn.toNat := by
  obtain ⟨leftSmall, leftCreated⟩ := requestNonce_eq_ok.mp leftBuilt
  obtain ⟨rightSmall, rightCreated⟩ := requestNonce_eq_ok.mp rightBuilt
  rw [createNonce_eq_iff leftCreated rightCreated,
    padLeft_partialIv_eq_iff leftSmall rightSmall]

/-- The nonce of an encrypted request is that of its sequence number. -/
theorem encrypts_requestNonce {platform : Platform} {event : CallEvent}
    {packet : OCoapPacket}
    (step : callMachine platform event) (encrypts : Encrypts event packet)
    (request : isRequest packet = true) :
    requestNonce event.before.rrc.kid event.before.sc.senderSeqNum
        event.before.cc.commonIv = .ok event.after.rrc.nonce := by
  obtain ⟨oscorePacket, protectedPacket⟩ := encrypts.isProtected step
  exact requestNonce_eq_ok.mpr (protectedPacket.request_nonce request)

/-- A run of `coap2oscore` calls keeps the KID and the Common IV. -/
theorem coap2oscoreRun_keeps {platform : Platform} {first last : Context}
    {events : List CallEvent}
    (run : CallRun platform first events last)
    (protects : ∀ event ∈ events, ∃ input capacity,
      event.input = .coap2oscore input capacity) :
    SameKeys first last := by
  refine run.related ?_
  intro event member step
  exact callRun_coap2oscore_keeps step (protects event member)

theorem coap2oscoreRun_before {platform : Platform} {first last : Context}
    {left right : List CallEvent} {event : CallEvent}
    (run : CallRun platform first (left ++ event :: right) last)
    (protects : ∀ other ∈ left ++ event :: right, ∃ input capacity,
      other.input = .coap2oscore input capacity) :
    SameKeys first event.before := by
  obtain ⟨middle, leftRun, rightRun⟩ := Run.append_iff.mp run
  obtain ⟨rfl, _, _⟩ := Run.cons_iff.mp rightRun
  refine coap2oscoreRun_keeps leftRun ?_
  intro other member
  exact protects other (List.mem_append_left _ member)

/-- Nonces are unique up to a shift of the sequence number by whole bytes: for
sender IDs and sequence numbers under one Common IV, and for the requests that
one sender context encrypts. -/
theorem requestNonce_unique_iff (commonIv : Bytes)
    (ivLength : commonIv.length = 13) :
    (∀ (id₁ id₂ : Bytes) (ssn₁ ssn₂ : UInt64),
      id₁.length ≤ 7 → id₂.length ≤ 7 →
      ssn₁.toNat < 2 ^ 40 → ssn₂.toNat < 2 ^ 40 →
      (id₁, ssn₁) ≠ (id₂, ssn₂) →
      ∃ nonce₁ nonce₂,
        requestNonce id₁ ssn₁ commonIv = .ok nonce₁ ∧
          requestNonce id₂ ssn₂ commonIv = .ok nonce₂ ∧
          (nonce₁ ≠ nonce₂ ↔
            ¬ (id₁ = id₂ ∧ ByteShifted ssn₁.toNat ssn₂.toNat))) ∧
    (∀ (platform : Platform) (first last : Context)
      (left middle right : List CallEvent) (event₁ event₂ : CallEvent)
      (packet₁ packet₂ : OCoapPacket),
      first.cc.commonIv = commonIv →
      CallRun platform first
        (left ++ event₁ :: (middle ++ event₂ :: right)) last →
      (∀ event ∈ left ++ event₁ :: (middle ++ event₂ :: right),
        ∃ input capacity, event.input = .coap2oscore input capacity) →
      Encrypts event₁ packet₁ → isRequest packet₁ = true →
      Encrypts event₂ packet₂ → isRequest packet₂ = true →
      (event₁.after.rrc.nonce ≠ event₂.after.rrc.nonce ↔
        ¬ ByteShifted event₁.before.sc.senderSeqNum.toNat
            event₂.before.sc.senderSeqNum.toNat)) := by
  constructor
  · intro id₁ id₂ ssn₁ ssn₂ idFits₁ idFits₂ small₁ small₂ _
    obtain ⟨nonce₁, built₁⟩ :=
      requestNonce_total idFits₁ ivLength.le small₁
    obtain ⟨nonce₂, built₂⟩ :=
      requestNonce_total idFits₂ ivLength.le small₂
    exact
      ⟨nonce₁, nonce₂, built₁, built₂,
        not_congr (requestNonce_eq_iff built₁ built₂)⟩
  · intro platform first last left middle right event₁ event₂ packet₁ packet₂
      _ run protects encrypts₁ request₁ encrypts₂ request₂
    have step₁ : callMachine platform event₁ :=
      run.step_of_mem (by simp)
    have step₂ : callMachine platform event₂ :=
      run.step_of_mem (by simp)
    have same₁ : SameKeys first event₁.before :=
      coap2oscoreRun_before run protects
    have same₂ : SameKeys first event₂.before := by
      have shape :
          left ++ event₁ :: (middle ++ event₂ :: right) =
            (left ++ event₁ :: middle) ++ event₂ :: right := by
        simp
      rw [shape] at run protects
      exact coap2oscoreRun_before run protects
    have built₁ := encrypts_requestNonce step₁ encrypts₁ request₁
    have built₂ := encrypts_requestNonce step₂ encrypts₂ request₂
    rw [same₁.kid, same₁.cc] at built₁
    rw [same₂.kid, same₂.cc] at built₂
    have unique := requestNonce_eq_iff built₁ built₂
    rw [ne_eq, unique]
    simp only [true_and]

/-- Two requests of the client of test vector T1. -/
theorem requestNonce_unique_t1 :
    (∃ nonce₁ nonce₂,
      requestNonce [] 0 t1CommonIv = .ok nonce₁ ∧
        requestNonce [] 1 t1CommonIv = .ok nonce₂ ∧ nonce₁ ≠ nonce₂) ∧
      t1Protects.after.rrc.nonce ≠ t1ProtectsNext.after.rrc.nonce := by
  constructor
  · obtain ⟨nonce₁, nonce₂, built₁, built₂, unique⟩ :=
      (requestNonce_unique_iff t1CommonIv rfl).1 [] [] 0 1 (by decide)
        (by decide) (by decide) (by decide) (by decide)
    exact
      ⟨nonce₁, nonce₂, built₁, built₂,
        unique.mpr fun same =>
          not_byteShifted_of_lt (by decide) (by decide) same.2⟩
  · have unique :=
      (requestNonce_unique_iff t1CommonIv rfl).2 t1Platform t1Client
        t1ProtectsNext.after [] [] [] t1Protects t1ProtectsNext t1Packet t1Packet rfl
        (.cons t1Protects_step (.cons t1ProtectsNext_step (.nil _)))
        (by
          intro event member
          rcases List.mem_cons.mp member with rfl | later
          · exact ⟨_, _, rfl⟩
          · rw [List.mem_singleton.mp later]
            exact ⟨_, _, rfl⟩)
        ⟨_, _, _, rfl, rfl, rfl, rfl⟩ rfl ⟨_, _, _, rfl, rfl, rfl, rfl⟩ rfl
    exact unique.mpr (not_byteShifted_of_lt (by decide) (by decide))

/-- The sequence numbers 1 and 256 share a nonce. -/
theorem requestNonce_collision :
    ∃ nonce, requestNonce [] 1 t1CommonIv = .ok nonce ∧
      requestNonce [] 256 t1CommonIv = .ok nonce :=
  ⟨_, rfl, rfl⟩

end UoscoreUedhoc.Oscore
