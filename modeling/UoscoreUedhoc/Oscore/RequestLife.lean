import UoscoreUedhoc.Oscore.ContextWear
import UoscoreUedhoc.Oscore.NonceUniqueness

/-!
# The requests of one context

The first request leaves the AAD array as long as its own AAD, so that from
then on only Partial IVs of one byte fit.  A context therefore protects at most
256 requests, and never comes to the sequence numbers whose nonces collide.
-/

namespace UoscoreUedhoc.Oscore

open UoscoreUedhoc
open UoscoreUedhoc.PaddedDigits
open UoscoreUedhoc.Runs
open Update

/-! ## The length of the Common IV -/

theorem kidContextUpdate_commonIv (platform : Platform)
    (kidContext : ByteArrayView) :
    Keeps (Preserves fun c : Context => c.cc.commonIv.length = commonIvLen)
      (kidContextUpdate platform kidContext) := by
  refine
    kidContextUpdate_keeps_of kidContext (fun _ _ _ same => same)
      (fun _ _ _ same => same) ?_ (fun _ _ _ same => same)
      (fun _ _ _ same => same)
  intro c commonIv derived _
  exact deriveCommonIv_length derived

theorem CallRun.commonIv_length {platform : Platform} {first last : Context}
    {events : List CallEvent} (run : CallRun platform first events last)
    (initial : first.cc.commonIv.length = commonIvLen) :
    last.cc.commonIv.length = commonIvLen := by
  refine
    run.invariant_of ?_ (fun _ _ same => same) (fun _ _ _ same => same)
      (fun _ _ same => same) (kidContextUpdate_commonIv platform) initial
  intro before after same length
  rw [same.cc]
  exact length

/-! ## The room for requests -/

/-- Before the first request any room, and then at most that of a one-byte
Partial IV. -/
structure RequestRoom (c : Context) : Prop where
  aeadAlg : c.cc.aeadAlg = .oscoreAesCcm16_64_128
  kid : c.rrc.kid.length ≤ maxKidLen
  commonIv : c.cc.commonIv.length = commonIvLen
  aad :
    c.sc.senderSeqNum = 0 ∨ c.rrc.aad.length ≤ 7 + c.rrc.kid.length + 1

theorem Initialised.requestRoom {platform : Platform}
    {params : OscoreInitParams} {c : Context}
    (initialised : Initialised platform params c) : RequestRoom c := by
  have aeadAlg := initialised.aeadAlg
  have kid := initialised.idsFit.kid
  have commonIv := initialised.commonIv_length
  obtain ⟨buffers, done⟩ := initialised
  exact
    ⟨aeadAlg, kid, commonIv,
      Or.inl (oscoreContextInit_initial done).senderSeqNum⟩

section Room

variable {platform : Platform}
  (canonical : platform.toCborEncoder.IsCanonical)

include canonical

/-- The request with the sequence number zero uses the room up, and a later one
does not win it back. -/
theorem RequestRoom.requestOption {c : Context} (room : RequestRoom c)
    (options : List OCoapOption) :
    (exec (requestOption platform options) c).2.rrc.aad.length ≤
      7 + c.rrc.kid.length + 1 := by
  have kidShort : c.rrc.kid.length ≤ 7 := room.kid
  rw [requestOption_context]
  by_cases small : c.sc.senderSeqNum.toNat < 2 ^ 40
  · rw [if_pos small]
    have pivShort : (partialIv c.sc.senderSeqNum).length ≤ 5 :=
      (partialIv_length small).2
    obtain ⟨nonce, created, _⟩ :=
      createNonce_total pivShort kidShort room.commonIv.le
    have left :=
      @nonceAndAadUpdate_room platform options c.nextRequest nonce created
    rw [left]
    rcases room.aad with zero | used
    · -- the first Partial IV has one byte
      have one : (partialIv c.sc.senderSeqNum).length = 1 := by
        rw [zero]
        rfl
      unfold requestAad Context.nextRequest
      dsimp only
      rw [room.aeadAlg, aadArray_length canonical (by omega) (by omega), one]
      exact Nat.min_le_left _ _
    · exact (Nat.min_le_right _ _).trans used
  · rw [if_neg small]
    rcases room.aad with zero | used
    · refine absurd ?_ small
      rw [zero]
      decide
    · exact used

theorem RequestRoom.call {event : CallEvent} (room : RequestRoom event.before)
    (step : callMachine platform event) : RequestRoom event.after := by
  have one : CallRun platform event.before [event] event.after :=
    .cons step (.nil _)
  have same := CallRun.sameParameters one
  refine
    ⟨same.aeadAlg.trans room.aeadAlg, ?_, CallRun.commonIv_length one
      room.commonIv, ?_⟩
  · rw [same.kid]
    exact room.kid
  · rw [same.kid]
    cases called : event.input with
    | coap2oscore input capacity =>
        obtain ⟨outcome, ran, _⟩ := callMachine_coap2oscore step called
        have builds :=
          coap2oscore_buildsRequest platform input capacity event.before
        rw [ran] at builds
        dsimp only at builds
        rcases builds with unchanged | ⟨options, built⟩
        · rw [unchanged]
          exact room.aad
        · rw [built]
          exact Or.inr (room.requestOption canonical options)
    | oscore2coap input capacity =>
        have kept := callRun_oscore2coap_keeps step ⟨_, _, called⟩
        have worn := callRun_wears step
        rcases room.aad with zero | used
        · exact Or.inl (kept.senderSeqNum.trans zero)
        · exact Or.inr (worn.aad.trans used)

theorem RequestRoom.encrypts {event : CallEvent} {packet : OCoapPacket}
    (room : RequestRoom event.before) (step : callMachine platform event)
    (encrypts : Encrypts event packet) (request : isRequest packet = true) :
    event.before.sc.senderSeqNum.toNat < 256 := by
  rcases room.aad with zero | used
  · rw [zero]
    decide
  · have limited :
        Limited 1 event.before.cc.idContext.length event.before :=
      ⟨room.aeadAlg, room.kid, used, Nat.le_refl _⟩
    exact
      partialIv_length_le_one_iff.mp
        (limited.encrypts canonical step encrypts request)

end Room

/-! ## The protected requests of a run -/

/-- The call returned a protected request. -/
def protectsRequest (event : CallEvent) : Bool :=
  match event.input, event.output with
  | .coap2oscore input _, .ok (some _) =>
      match buf2coap input with
      | .ok packet => !isMessagingLayer packet && isRequest packet
      | .error _ => false
  | _, _ => false

theorem protectsRequest_iff {event : CallEvent} :
    protectsRequest event = true ↔
      ∃ packet, Encrypts event packet ∧ isRequest packet = true := by
  unfold protectsRequest Encrypts
  constructor
  · intro protects
    split at protects
    · rename_i input capacity output called returned
      split at protects
      · rename_i packet parsed
        simp only [Bool.and_eq_true, Bool.not_eq_true'] at protects
        exact
          ⟨packet,
            ⟨input, capacity, output, called, returned, parsed, protects.1⟩,
            protects.2⟩
      · cases protects
    · cases protects
  · intro encrypts
    obtain ⟨packet, ⟨input, capacity, output, called, returned, parsed,
      notCopied⟩, request⟩ := encrypts
    simp [called, returned, parsed, notCopied, request]

/-- A protected request counts its sequence number. -/
theorem protectsRequest_counts {platform : Platform} {event : CallEvent}
    (step : callMachine platform event) (fit : IdsFit event.before)
    (protects : protectsRequest event = true) :
    event.after.sc.senderSeqNum = event.before.sc.senderSeqNum + 1 := by
  obtain ⟨packet, encrypts, request⟩ := protectsRequest_iff.mp protects
  obtain ⟨value, sends⟩ := encrypts.sendsOption step request
  exact (sends.carriedPiv fit).2.1

/-- The sequence numbers of the protected requests of a run ascend, as long as
the counter does not wrap. -/
theorem CallRun.protected_ascend {platform : Platform} {first last : Context}
    {events : List CallEvent} (run : CallRun platform first events last)
    (fit : IdsFit first)
    (noWrap : first.sc.senderSeqNum.toNat + events.length < 2 ^ 64) :
    (events.filter protectsRequest).Pairwise fun earlier later =>
      earlier.before.sc.senderSeqNum.toNat <
        later.before.sc.senderSeqNum.toNat := by
  induction run with
  | nil state =>
      exact List.Pairwise.nil
  | @cons event events last step rest inductionHypothesis =>
      rw [List.length_cons] at noWrap
      have afterFit : IdsFit event.after :=
        CallRun.idsFit (.cons step (.nil _)) fit
      have counted :
          (event.before.sc.senderSeqNum + 1).toNat =
            event.before.sc.senderSeqNum.toNat + 1 := by
        have one : (1 : UInt64).toNat = 1 := rfl
        rw [UInt64.toNat_add, one]
        omega
      have restNoWrap :
          event.after.sc.senderSeqNum.toNat + events.length < 2 ^ 64 := by
        rcases callRun_senderSeqNum step with same | next
        · rw [same]
          omega
        · rw [next, counted]
          omega
      have ascend := inductionHypothesis afterFit restNoWrap
      cases protects : protectsRequest event with
      | false =>
          rw [List.filter_cons_of_neg (by simp [protects])]
          exact ascend
      | true =>
          rw [List.filter_cons_of_pos protects]
          refine List.Pairwise.cons ?_ ascend
          intro later member
          obtain ⟨left, right, split⟩ :=
            List.append_of_mem (List.mem_filter.mp member).1
          rw [split] at rest restNoWrap
          simp only [List.length_append] at restNoWrap
          have reached :=
            CallRun.senderSeqNum_le (Run.split_iff.mp rest).1 (by omega)
          rw [protectsRequest_counts step fit protects, counted] at reached
          omega

/-- Ascending numbers below a bound are no more than the bound. -/
theorem length_le_of_ascending {α : Type} {number : α → Nat} {bound : Nat}
    {items : List α}
    (ascend : items.Pairwise fun left right => number left < number right)
    (below : ∀ item ∈ items, number item < bound) :
    items.length ≤ bound := by
  have distinct : (items.map number).Nodup := by
    apply List.Pairwise.map number _ ascend
    intro left right less
    exact Nat.ne_of_lt less
  have inRange : items.map number ⊆ List.range bound := by
    intro value member
    obtain ⟨item, isItem, rfl⟩ := List.mem_map.mp member
    exact List.mem_range.mpr (below item isItem)
  have shorter := (List.subperm_of_subset distinct inRange).length_le
  rwa [List.length_map, List.length_range] at shorter

/-- Whatever is called and received, a context protects requests with sequence
numbers of one byte only: at most 256 of them, and no two under one Common IV
with the same nonce. -/
theorem protectedRequests_limited (platform : Platform)
    (canonical : platform.toCborEncoder.IsCanonical)
    (params : OscoreInitParams) (first last : Context)
    (events : List CallEvent)
    (initialised : Initialised platform params first)
    (run : CallRun platform first events last) :
    (∀ event ∈ events, protectsRequest event = true →
      event.before.sc.senderSeqNum.toNat < 256) ∧
    (events.length < 2 ^ 64 →
      (events.filter protectsRequest).length ≤ 256 ∧
        (events.filter protectsRequest).Pairwise fun earlier later =>
          earlier.before.cc.commonIv = later.before.cc.commonIv →
          earlier.after.rrc.nonce ≠ later.after.rrc.nonce) := by
  have small : ∀ event ∈ events, protectsRequest event = true →
      event.before.sc.senderSeqNum.toNat < 256 := by
    intro event member protects
    obtain ⟨packet, encrypts, request⟩ := protectsRequest_iff.mp protects
    have room : RequestRoom event.before := by
      refine run.invariant_before initialised.requestRoom ?_ member
      intro other _ step before
      exact before.call canonical step
    exact
      room.encrypts canonical (run.step_of_mem member) encrypts request
  refine ⟨small, ?_⟩
  intro short
  have start : first.sc.senderSeqNum.toNat = 0 := by
    obtain ⟨buffers, done⟩ := initialised
    rw [(oscoreContextInit_initial done).senderSeqNum]
    rfl
  have ascend :=
    CallRun.protected_ascend run initialised.idsFit (by omega)
  refine ⟨?_, ?_⟩
  · refine length_le_of_ascending ascend ?_
    intro event member
    obtain ⟨isEvent, protects⟩ := List.mem_filter.mp member
    exact small event isEvent protects
  · refine ascend.imp_of_mem ?_
    intro earlier later earlierMember laterMember less sameIv sameNonce
    obtain ⟨isEarlier, earlierProtects⟩ := List.mem_filter.mp earlierMember
    obtain ⟨isLater, laterProtects⟩ := List.mem_filter.mp laterMember
    obtain ⟨_, earlierEncrypts, earlierRequest⟩ :=
      protectsRequest_iff.mp earlierProtects
    obtain ⟨_, laterEncrypts, laterRequest⟩ :=
      protectsRequest_iff.mp laterProtects
    have earlierBuilt :=
      encrypts_requestNonce (run.step_of_mem isEarlier) earlierEncrypts
        earlierRequest
    have laterBuilt :=
      encrypts_requestNonce (run.step_of_mem isLater) laterEncrypts
        laterRequest
    rw [sameIv] at earlierBuilt
    have shifted :=
      ((requestNonce_eq_iff earlierBuilt laterBuilt).mp sameNonce).2
    exact
      not_byteShifted_of_lt less (small later isLater laterProtects) shifted

/-- Two requests of the client of test vector T1. -/
theorem protectedRequests_limited_t1 :
    [t1Protects, t1ProtectsNext].filter protectsRequest =
        [t1Protects, t1ProtectsNext] ∧
      t1Protects.after.rrc.nonce ≠ t1ProtectsNext.after.rrc.nonce := by
  have protects : protectsRequest t1Protects = true := by
    decide +kernel
  have protectsNext : protectsRequest t1ProtectsNext = true := by
    decide +kernel
  have both :
      [t1Protects, t1ProtectsNext].filter protectsRequest =
        [t1Protects, t1ProtectsNext] := by
    rw [List.filter_cons_of_pos protects,
      List.filter_cons_of_pos protectsNext, List.filter_nil]
  have limited :=
    protectedRequests_limited t1Platform canonicalCbor_isCanonical
      t1ClientParams t1Client t1ProtectsNext.after
      [t1Protects, t1ProtectsNext] t1Client_initialised
      (.cons t1Protects_step (.cons t1ProtectsNext_step (.nil _)))
  have differ := (limited.2 (by decide)).2
  rw [both] at differ
  refine ⟨both, ?_⟩
  exact
    (List.pairwise_cons.mp differ).1 t1ProtectsNext
      (List.mem_singleton.mpr rfl) (by decide +kernel)

end UoscoreUedhoc.Oscore
