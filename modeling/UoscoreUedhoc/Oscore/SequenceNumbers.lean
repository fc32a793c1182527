import Mathlib.Tactic.IntervalCases
import UoscoreUedhoc.Oscore.DerivedKeys

/-!
# Sequence numbers

Both calls leave the sequence number as it is or count it up by one, also when
they fail, and a request takes its number before anything else can go wrong.
The Partial IV of a request is the encoding of that number, so that no Partial
IV is sent twice before the counter wraps.
-/

namespace UoscoreUedhoc.Oscore

open UoscoreUedhoc
open UoscoreUedhoc.Runs
open Update

/-! ## The counter -/

/-- A context that has taken its next sequence number and nothing else. -/
def Context.countSeqNum (c : Context) : Context :=
  { c with sc := { c.sc with senderSeqNum := c.sc.senderSeqNum + 1 } }

/-- A request takes its sequence number first and then updates the nonce and
the AAD; what follows changes nothing. -/
theorem requestOption_context (platform : Platform)
    (options : List OCoapOption) (c : Context) :
    (exec (requestOption platform options) c).2 =
      if c.sc.senderSeqNum.toNat < 2 ^ 40 then
        (exec (nonceAndAadUpdate platform options) c.nextRequest).2
      else
        c.countSeqNum := by
  unfold requestOption contextUpdate
  rw [exec_get_bind, exec_modify_bind, exec_lift_bind]
  by_cases small : c.sc.senderSeqNum.toNat < 2 ^ 40
  · rw [if_pos small, senderSeqNum2piv_eq_ok.mpr ⟨small, rfl⟩, andThen_ok,
      exec_modify_bind, exec_bind_state]
    · rfl
    · intro _
      refine Keeps.bind Keeps.get ?_
      intro _
      exact Keeps.ite (Keeps.lift _) (Keeps.lift _)
  · rw [if_neg small]
    cases encoded : senderSeqNum2piv c.sc.senderSeqNum with
    | error fault =>
        rfl
    | ok piv =>
        exact absurd (senderSeqNum2piv_eq_ok.mp encoded).1 small

theorem requestOption_senderSeqNum (platform : Platform)
    (options : List OCoapOption) (c : Context) :
    (exec (requestOption platform options) c).2.sc.senderSeqNum =
      c.sc.senderSeqNum + 1 := by
  rw [requestOption_context]
  split
  · exact (nonceAndAadUpdate_keeps platform options c.nextRequest).senderSeqNum
  · rfl

/-- The context is the same or that of a request which has taken a sequence
number. -/
def BuildsRequest (platform : Platform) (before after : Context) : Prop :=
  after = before ∨
    ∃ options, after = (exec (requestOption platform options) before).2

instance (platform : Platform) : Std.Refl (BuildsRequest platform) where
  refl _ := Or.inl rfl

/-- Protecting a packet changes nothing before and nothing after it makes the
OSCORE option of a request. -/
theorem coap2oscore_buildsRequest (platform : Platform) (input : Bytes)
    (capacity : Nat) :
    Keeps (BuildsRequest platform) (coap2oscore platform input capacity) := by
  unfold coap2oscore
  refine Keeps.bind_left (Keeps.lift _) ?_
  intro packet
  refine Keeps.ite (Keeps.lift _) ?_
  refine Keeps.bind_right ?_ fun _ => Keeps.lift _
  unfold coap2oscorePacket
  refine Keeps.bind_left (Keeps.lift _) ?_
  intro options
  refine Keeps.bind_left (Keeps.lift _) ?_
  intro _
  refine Keeps.bind_left (Keeps.lift _) ?_
  intro plaintext
  refine Keeps.bind_right ?_ ?_
  · refine Keeps.ite ?_ (Keeps.pure _)
    intro c
    exact Or.inr ⟨options, rfl⟩
  · intro value
    refine Keeps.bind (Keeps.lift _) ?_
    intro _
    refine Keeps.bind Keeps.get ?_
    intro c
    refine Keeps.bind (Keeps.lift _) ?_
    intro ciphertext
    exact Keeps.lift _

/-- The context is the same or has counted a sequence number. -/
def CountsSeqNum (before after : Context) : Prop :=
  after = before ∨ after.sc.senderSeqNum = before.sc.senderSeqNum + 1

/-- Protecting a packet changes nothing before it takes a sequence number. -/
theorem coap2oscore_countsSeqNum (platform : Platform) (input : Bytes)
    (capacity : Nat) :
    Keeps CountsSeqNum (coap2oscore platform input capacity) := by
  refine (coap2oscore_buildsRequest platform input capacity).mono ?_
  intro before after takes
  rcases takes with same | ⟨options, taken⟩
  · exact Or.inl same
  · rw [taken]
    exact Or.inr (requestOption_senderSeqNum platform options before)

/-- A call counts at most one sequence number. -/
theorem callRun_senderSeqNum {platform : Platform} {event : CallEvent}
    (step : callMachine platform event) :
    event.after.sc.senderSeqNum = event.before.sc.senderSeqNum ∨
      event.after.sc.senderSeqNum = event.before.sc.senderSeqNum + 1 := by
  cases called : event.input with
  | coap2oscore input capacity =>
      obtain ⟨outcome, ran, _⟩ := callMachine_coap2oscore step called
      have counts :=
        coap2oscore_countsSeqNum platform input capacity event.before
      rw [ran] at counts
      rcases counts with same | counted
      · exact Or.inl (congrArg (fun c => c.sc.senderSeqNum) same)
      · exact Or.inr counted
  | oscore2coap input capacity =>
      have kept := callRun_oscore2coap_keeps step ⟨_, _, called⟩
      exact Or.inl kept.senderSeqNum

/-- A run counts at most one sequence number for each of its calls. -/
theorem CallRun.senderSeqNum {platform : Platform} {first last : Context}
    {events : List CallEvent} (run : CallRun platform first events last) :
    ∃ count, count ≤ events.length ∧
      last.sc.senderSeqNum =
        first.sc.senderSeqNum + UInt64.ofNat count := by
  induction run with
  | nil state =>
      exact ⟨0, Nat.le_refl 0, (UInt64.add_zero _).symm⟩
  | @cons event events last step rest inductionHypothesis =>
      obtain ⟨count, bounded, counted⟩ := inductionHypothesis
      rw [List.length_cons]
      rcases callRun_senderSeqNum step with same | next
      · refine ⟨count, bounded.trans (Nat.le_succ _), ?_⟩
        rw [counted, same]
      · refine ⟨count + 1, Nat.succ_le_succ bounded, ?_⟩
        rw [counted, next, UInt64.ofNat_add, UInt64.add_assoc,
          UInt64.add_comm 1]
        rfl

/-- Short of 2^64 the counter never goes back. -/
theorem CallRun.senderSeqNum_le {platform : Platform} {first last : Context}
    {events : List CallEvent} (run : CallRun platform first events last)
    (noWrap : first.sc.senderSeqNum.toNat + events.length < 2 ^ 64) :
    first.sc.senderSeqNum.toNat ≤ last.sc.senderSeqNum.toNat := by
  obtain ⟨count, bounded, counted⟩ := run.senderSeqNum
  have small : count < 2 ^ 64 := by
    omega
  rw [counted, UInt64.toNat_add, UInt64.toNat_ofNat_of_lt' small,
    Nat.mod_eq_of_lt (by omega)]
  exact Nat.le_add_right _ _

/-! ## The Partial IV in the OSCORE option -/

/-- The Partial IV that the value of an OSCORE option carries: as many bytes as
the lowest three bits of the first one say. -/
def carriedPiv : Bytes → Bytes
  | [] => []
  | flag :: rest => rest.take (flag &&& compOscoreOptPivNMask).toNat

/-- The value starts with a flag byte and the Partial IV it announces. -/
def StartsWithPiv (piv value : Bytes) : Prop :=
  ∃ flag rest, value = flag :: (piv ++ rest) ∧
    (flag &&& compOscoreOptPivNMask).toNat = piv.length

theorem StartsWithPiv.carriedPiv {piv value : Bytes}
    (starts : StartsWithPiv piv value) : carriedPiv value = piv := by
  obtain ⟨flag, rest, rfl, announced⟩ := starts
  rw [Oscore.carriedPiv, announced]
  exact List.take_left

private theorem or_and_of_and_eq_zero {flag bits mask : UInt8}
    (others : bits &&& mask = 0) : (flag ||| bits) &&& mask = flag &&& mask := by
  apply UInt8.toBitVec_inj.mp
  have none := congrArg UInt8.toBitVec others
  rw [UInt8.toBitVec_and] at none
  rw [UInt8.toBitVec_and, UInt8.toBitVec_or, BitVec.and_or_distrib_right,
    none, UInt8.toBitVec_and]
  exact BitVec.or_zero

/-- The other flags leave the announced length alone. -/
theorem StartsWithPiv.orFirst {piv value : Bytes} {bits : UInt8}
    (starts : StartsWithPiv piv value)
    (others : bits &&& compOscoreOptPivNMask = 0) :
    StartsWithPiv piv (orFirst value bits) := by
  obtain ⟨flag, rest, rfl, announced⟩ := starts
  refine ⟨flag ||| bits, rest, rfl, ?_⟩
  rw [or_and_of_and_eq_zero others]
  exact announced

/-- So do the bytes behind the Partial IV. -/
theorem StartsWithPiv.writeAt {piv value bytes : Bytes} {offset : Nat}
    (starts : StartsWithPiv piv value) (behind : piv.length + 1 ≤ offset) :
    StartsWithPiv piv (writeAt value offset bytes) := by
  obtain ⟨flag, rest, rfl, announced⟩ := starts
  obtain ⟨gap, rfl⟩ := Nat.exists_eq_add_of_le behind
  have front :
      (flag :: (piv ++ rest)).take (piv.length + 1 + gap) =
        flag :: (piv ++ rest.take gap) := by
    rw [show piv.length + 1 + gap = piv.length + gap + 1 by omega,
      List.take_succ_cons, List.take_length_add_append]
  unfold Oscore.writeAt
  rw [front, List.cons_append, List.cons_append, List.append_assoc,
    List.append_assoc]
  exact ⟨flag, _, rfl, announced⟩

theorem writePiv_starts {piv after : Bytes} {len : UInt8}
    {tempPtr : Nat} (pivPresent : 0 < piv.length)
    (pivFits : piv.length ≤ maxPivLen) (positive : len ≠ 0)
    (done :
      writePiv piv len (List.replicate len.toNat 0) = .ok (after, tempPtr)) :
    StartsWithPiv piv after ∧ tempPtr = 1 + piv.length := by
  have some : 0 < len.toNat := by
    rw [Nat.pos_iff_ne_zero]
    intro zero
    exact positive (UInt8.toNat_inj.mp zero)
  obtain ⟨others, length⟩ := Nat.exists_eq_add_one.mpr some
  unfold writePiv at done
  rw [if_neg (Nat.pos_iff_ne_zero.mp pivPresent), length,
    List.replicate_succ] at done
  simp only [outcome_bind_eq_ok, memcpyS_eq_ok, List.take_length,
    Except.ok.injEq, Prod.mk.injEq] at done
  obtain ⟨copied, ⟨_, _, same⟩, rfl, rfl⟩ := done
  rw [same]
  refine ⟨⟨0 ||| UInt8.ofNat piv.length, _, rfl, ?_⟩, rfl⟩
  have small : piv.length ≤ 5 := pivFits
  interval_cases piv.length <;> rfl

theorem writeKidContext_starts {piv kidContext value after : Bytes}
    {len : UInt8} {tempPtr afterPtr : Nat}
    (starts : StartsWithPiv piv value) (behind : 1 + piv.length ≤ tempPtr)
    (done :
      writeKidContext kidContext len value tempPtr = .ok (after, afterPtr)) :
    StartsWithPiv piv after ∧ 1 + piv.length ≤ afterPtr := by
  unfold writeKidContext at done
  split at done
  · simp only [Except.ok.injEq, Prod.mk.injEq] at done
    obtain ⟨rfl, rfl⟩ := done
    exact ⟨starts, behind⟩
  · simp only [outcome_bind_eq_ok, memcpyS_eq_ok, Except.ok.injEq,
      Prod.mk.injEq] at done
    obtain ⟨copied, _, rfl, rfl⟩ := done
    refine ⟨?_, by omega⟩
    apply StartsWithPiv.writeAt
    · apply StartsWithPiv.writeAt
      · exact starts.orFirst rfl
      · omega
    · omega

theorem writeKid_starts {piv kid value after : Bytes} {len : UInt8}
    {tempPtr : Nat} (starts : StartsWithPiv piv value)
    (behind : 1 + piv.length ≤ tempPtr)
    (done : writeKid kid len value tempPtr = .ok after) :
    StartsWithPiv piv after := by
  unfold writeKid at done
  split at done
  · cases done
    exact starts.orFirst rfl
  · simp only [outcome_bind_eq_ok, Except.ok.injEq] at done
    obtain ⟨copied, _, rfl⟩ := done
    apply StartsWithPiv.writeAt
    · exact starts.orFirst rfl
    · omega

/-- The OSCORE option of a request carries its Partial IV. -/
theorem oscoreOptionGenerate_carriedPiv {piv kid kidContext value : Bytes}
    {len : UInt8} (pivPresent : 0 < piv.length)
    (pivFits : piv.length ≤ maxPivLen) (positive : len ≠ 0)
    (done : oscoreOptionGenerate piv kid kidContext len = .ok value) :
    carriedPiv value = piv := by
  unfold oscoreOptionGenerate at done
  rw [if_neg positive] at done
  simp only [outcome_bind_eq_ok] at done
  obtain ⟨⟨first, firstPtr⟩, pivWritten, ⟨second, secondPtr⟩, contextWritten,
    kidWritten⟩ := done
  dsimp only at contextWritten kidWritten
  obtain ⟨firstStarts, rfl⟩ :=
    writePiv_starts pivPresent pivFits positive pivWritten
  obtain ⟨secondStarts, behind⟩ :=
    writeKidContext_starts firstStarts (Nat.le_refl _) contextWritten
  have starts := writeKid_starts secondStarts behind kidWritten
  exact starts.carriedPiv

theorem getOscoreOptValLen_ne_zero {piv kid kidContext : Bytes}
    (pivPresent : 0 < piv.length)
    (short : piv.length + kidContext.length + kid.length < 254) :
    getOscoreOptValLen piv kid kidContext ≠ 0 := by
  have small : (UInt8.ofNat (piv.length + kidContext.length + kid.length)).toNat =
      piv.length + kidContext.length + kid.length :=
    UInt8.toNat_ofNat_of_lt' (by
      change _ < 256
      omega)
  have notZero :
      UInt8.ofNat (piv.length + kidContext.length + kid.length) ≠ 0 := by
    intro zero
    rw [zero] at small
    have none : (0 : UInt8).toNat = 0 := rfl
    omega
  have one : (1 : UInt8).toNat = 1 := rfl
  unfold getOscoreOptValLen
  dsimp only
  rw [if_neg notZero]
  intro zero
  have sum := congrArg UInt8.toNat zero
  split at sum
  · rw [UInt8.toNat_add, small, one] at sum
    simp at sum
    omega
  · rw [UInt8.toNat_add, UInt8.toNat_add, small, one] at sum
    simp at sum
    omega

/-! ## Partial IVs of a run -/

/-- A `coap2oscore` call that returned `ok` for a request, and the value of the
OSCORE option that it built into the packet. -/
def SendsOption (platform : Platform) (event : CallEvent) (value : Bytes) :
    Prop :=
  ∃ packet options ciphertext oscorePacket input capacity output,
    event.input = .coap2oscore input capacity ∧
      event.output = .ok (some output) ∧
      buf2coap input = .ok packet ∧
      isMessagingLayer packet = false ∧
      isRequest packet = true ∧
      packet.options = some options ∧
      exec (requestOption platform options) event.before =
        (.ok value, event.after) ∧
      oscorePkgGenerate packet (euOptionsExtract 0 0 0 options).uOptions
          ciphertext (oscoreOption value) = .ok oscorePacket ∧
      coap2buf oscorePacket capacity = .ok output

theorem Encrypts.sendsOption {platform : Platform} {event : CallEvent}
    {packet : OCoapPacket} (encrypts : Encrypts event packet)
    (step : callMachine platform event) (request : isRequest packet = true) :
    ∃ value, SendsOption platform event value := by
  obtain ⟨input, capacity, output, called, succeeded, parsed, notCopied⟩ :=
    encrypts
  obtain ⟨outcome, ran, returned⟩ := callMachine_coap2oscore step called
  rw [succeeded] at returned
  cases outcome with
  | error fault =>
      cases returned
  | ok written =>
      cases returned
      obtain ⟨other, otherParsed, result⟩ := coap2oscore_eq_ok.mp ran
      rw [parsed, Except.ok.injEq] at otherParsed
      subst otherParsed
      rw [notCopied] at result
      obtain ⟨oscorePacket, ⟨options, plaintext, value, ciphertext, isOptions,
        _, _, valued, _, generated⟩, converted⟩ := result
      rw [optionValue_eq_ok, if_pos request] at valued
      exact
        ⟨value, packet, options, ciphertext, oscorePacket, input, capacity,
          output, called, succeeded, parsed, notCopied, request, isOptions,
          valued, generated, converted⟩

theorem SendsOption.encrypts {platform : Platform} {event : CallEvent}
    {value : Bytes} (sends : SendsOption platform event value) :
    ∃ packet, Encrypts event packet ∧ isRequest packet = true := by
  obtain ⟨packet, _, _, _, input, capacity, output, called, succeeded, parsed,
    notCopied, request, _⟩ := sends
  exact
    ⟨packet, ⟨input, capacity, output, called, succeeded, parsed, notCopied⟩,
      request⟩

/-- The OSCORE option carries the Partial IV of the sequence number that the
request takes. -/
theorem SendsOption.carriedPiv {platform : Platform} {event : CallEvent}
    {value : Bytes} (sends : SendsOption platform event value)
    (fit : IdsFit event.before) :
    event.before.sc.senderSeqNum.toNat < 2 ^ 40 ∧
      event.after.sc.senderSeqNum = event.before.sc.senderSeqNum + 1 ∧
      carriedPiv value = partialIv event.before.sc.senderSeqNum := by
  obtain ⟨_, options, _, _, _, _, _, _, _, _, _, _, _, valued, _, _⟩ := sends
  obtain ⟨small, nonce, _, _, after, _, generated⟩ :=
    requestOption_eq_ok.mp valued
  obtain ⟨present, short⟩ := partialIv_length small
  have kidShort : event.before.rrc.kid.length ≤ 7 := fit.kid
  have contextShort : event.before.rrc.kidContext.length ≤ 8 := fit.kidContext
  have pivShort : (partialIv event.before.sc.senderSeqNum).length ≤ 5 := short
  have piv :
      event.after.rrc.piv = partialIv event.before.sc.senderSeqNum := by
    rw [after]
    rfl
  have positive : requestOptionLen event.after ≠ 0 := by
    rw [after]
    apply getOscoreOptValLen_ne_zero
    · exact present
    · change
        (partialIv event.before.sc.senderSeqNum).length +
          event.before.rrc.kidContext.length +
            event.before.rrc.kid.length < 254
      omega
  refine ⟨small, ?_, ?_⟩
  · rw [after]
    rfl
  · rw [← piv]
    apply oscoreOptionGenerate_carriedPiv _ _ positive generated
    · rw [piv]
      exact present
    · rw [piv]
      exact short

/-- A request beyond the largest Partial IV is refused. -/
theorem request_refused {platform : Platform} {event : CallEvent}
    {input : Bytes} {capacity : Nat} {packet : OCoapPacket}
    (step : callMachine platform event)
    (called : event.input = .coap2oscore input capacity)
    (parsed : buf2coap input = .ok packet)
    (notCopied : isMessagingLayer packet = false)
    (request : isRequest packet = true)
    (exhausted : 2 ^ 40 ≤ event.before.sc.senderSeqNum.toNat) :
    ∃ code, event.output = .error (.err code) := by
  obtain ⟨outcome, _, returned⟩ := callMachine_coap2oscore step called
  cases outcome with
  | error fault =>
      cases fault with
      | err code =>
          exact ⟨code, returned⟩
      | undefinedBehaviour =>
          exact absurd returned step.2
  | ok output =>
      have encrypts : Encrypts event packet :=
        ⟨input, capacity, output, called, returned, parsed, notCopied⟩
      obtain ⟨oscorePacket, protectedPacket⟩ := encrypts.isProtected step
      have small := (protectedPacket.request_nonce request).1
      omega

/-- Different requests of a run take different sequence numbers. -/
theorem CallRun.sendsOption_ne {platform : Platform} {first last : Context}
    {left middle right : List CallEvent} {earlier later : CallEvent}
    {earlierValue laterValue : Bytes}
    (run : CallRun platform first
      (left ++ earlier :: (middle ++ later :: right)) last)
    (fit : IdsFit first) (short : middle.length + 1 < 2 ^ 64)
    (earlierSends : SendsOption platform earlier earlierValue)
    (laterSends : SendsOption platform later laterValue) :
    carriedPiv earlierValue ≠ carriedPiv laterValue := by
  obtain ⟨leftRun, earlierStep, rest⟩ := Run.split_iff.mp run
  obtain ⟨middleRun, laterStep, _⟩ := Run.split_iff.mp rest
  have earlierFit := CallRun.idsFit leftRun fit
  have toLater : CallRun platform earlier.before (earlier :: middle)
      later.before :=
    .cons earlierStep middleRun
  have laterFit := toLater.idsFit earlierFit
  obtain ⟨_, counts, earlierPiv⟩ := earlierSends.carriedPiv earlierFit
  obtain ⟨_, _, laterPiv⟩ := laterSends.carriedPiv laterFit
  obtain ⟨count, bounded, counted⟩ := CallRun.senderSeqNum middleRun
  intro same
  rw [earlierPiv, laterPiv] at same
  have sameNumber := partialIv_injective same
  rw [counted, counts, UInt64.add_assoc] at sameNumber
  have zero : 1 + UInt64.ofNat count = 0 := by
    have sum := sameNumber.symm
    rwa [UInt64.add_eq_left] at sum
  have sizes := congrArg UInt64.toNat zero
  rw [UInt64.toNat_add,
    UInt64.toNat_ofNat_of_lt' (show count < 2 ^ 64 by omega)] at sizes
  have one : (1 : UInt64).toNat = 1 := rfl
  have none : (0 : UInt64).toNat = 0 := rfl
  omega

/-- No Partial IV is sent twice: the requests of a run carry different Partial
IVs of one to five bytes, and from 2^40 on no request is sent any more. -/
theorem partialIv_sentOnce (platform : Platform) (first last : Context)
    (events : List CallEvent) (run : CallRun platform first events last)
    (fit : IdsFit first) (short : events.length < 2 ^ 64) :
    (∀ left earlier middle later right earlierValue laterValue,
      events = left ++ earlier :: (middle ++ later :: right) →
      SendsOption platform earlier earlierValue →
      SendsOption platform later laterValue →
      carriedPiv earlierValue ≠ carriedPiv laterValue) ∧
    (∀ event ∈ events, ∀ packet, Encrypts event packet →
      isRequest packet = true →
      ∃ value, SendsOption platform event value) ∧
    (∀ event ∈ events, ∀ value, SendsOption platform event value →
      1 ≤ (carriedPiv value).length ∧ (carriedPiv value).length ≤ 5) ∧
    (first.sc.senderSeqNum.toNat + events.length < 2 ^ 64 →
      ∀ start middle rest event right input capacity packet,
      events = start ++ (rest ++ event :: right) →
      CallRun platform first start middle →
      CallRun platform middle (rest ++ event :: right) last →
      2 ^ 40 ≤ middle.sc.senderSeqNum.toNat →
      event.input = .coap2oscore input capacity →
      buf2coap input = .ok packet →
      isMessagingLayer packet = false →
      isRequest packet = true →
      ∃ code, event.output = .error (.err code)) := by
  refine ⟨?_, ?_, ?_, ?_⟩
  · intro left earlier middle later right earlierValue laterValue split
      earlierSends laterSends
    rw [split] at run short
    simp only [List.length_append, List.length_cons] at short
    exact
      run.sendsOption_ne fit (by omega) earlierSends laterSends
  · intro event member packet encrypts request
    exact encrypts.sendsOption (run.step_of_mem member) request
  · intro event member value sends
    obtain ⟨left, right, split⟩ := List.append_of_mem member
    rw [split] at run
    have eventFit := CallRun.idsFit (Run.split_iff.mp run).1 fit
    obtain ⟨small, _, carried⟩ := sends.carriedPiv eventFit
    rw [carried]
    exact partialIv_length small
  · intro noWrap start middle rest event right input capacity packet split
      startRun restRun exhausted called parsed notCopied request
    obtain ⟨toEvent, step, _⟩ := Run.split_iff.mp restRun
    apply request_refused step called parsed notCopied request
    obtain ⟨count, bounded, counted⟩ := startRun.senderSeqNum
    rw [split] at noWrap
    simp only [List.length_append, List.length_cons] at noWrap
    have reached : middle.sc.senderSeqNum.toNat ≤
        first.sc.senderSeqNum.toNat + start.length := by
      rw [counted, UInt64.toNat_add,
        UInt64.toNat_ofNat_of_lt' (show count < 2 ^ 64 by omega)]
      exact (Nat.mod_le _ _).trans (Nat.add_le_add_left bounded _)
    exact exhausted.trans (CallRun.senderSeqNum_le toEvent (by omega))

/-- Two requests of the client of test vector T1. -/
theorem partialIv_sentOnce_t1 :
    ∃ firstValue secondValue,
      SendsOption t1Platform t1Protects firstValue ∧
        SendsOption t1Platform t1ProtectsNext secondValue ∧
        carriedPiv firstValue ≠ carriedPiv secondValue := by
  have run : CallRun t1Platform t1Client [t1Protects, t1ProtectsNext]
      t1ProtectsNext.after :=
    .cons t1Protects_step (.cons t1ProtectsNext_step (.nil _))
  obtain ⟨differ, sends, _⟩ :=
    partialIv_sentOnce t1Platform t1Client _ _ run
      t1Client_initialised.idsFit (by decide)
  obtain ⟨firstValue, firstSends⟩ :=
    sends t1Protects (by simp) t1Packet ⟨_, _, _, rfl, rfl, rfl, rfl⟩ rfl
  obtain ⟨secondValue, secondSends⟩ :=
    sends t1ProtectsNext (by simp) t1Packet ⟨_, _, _, rfl, rfl, rfl, rfl⟩ rfl
  exact
    ⟨firstValue, secondValue, firstSends, secondSends,
      differ [] t1Protects [] t1ProtectsNext [] _ _ rfl firstSends
        secondSends⟩

/-- The client of test vector T1 with the largest number that its counter
holds. -/
private def t1Exhausted : Context :=
  { t1Client with sc := { t1Client.sc with senderSeqNum := 0xFFFFFFFFFFFFFFFF } }

private def t1Wraps : CallEvent :=
  callEvent t1Platform t1Exhausted (.coap2oscore t1Request 64)

private def t1Restarts : CallEvent :=
  callEvent t1Platform t1Wraps.after (.coap2oscore t1Request 64)

/-- The refused request with the largest number makes the counter wrap, and the
one behind it is sent with the Partial IV 0. -/
theorem exhausted_sendsAgain :
    ¬ ∀ (platform : Platform) (first last : Context) (events : List CallEvent),
        CallRun platform first events last → IdsFit first →
        events.length < 2 ^ 64 →
        ∀ start middle rest event right input capacity packet,
          events = start ++ (rest ++ event :: right) →
          CallRun platform first start middle →
          CallRun platform middle (rest ++ event :: right) last →
          2 ^ 40 ≤ middle.sc.senderSeqNum.toNat →
          event.input = .coap2oscore input capacity →
          buf2coap input = .ok packet →
          isMessagingLayer packet = false →
          isRequest packet = true →
          ∃ code, event.output = .error (.err code) := by
  intro refused
  have run : CallRun t1Platform t1Exhausted [t1Wraps, t1Restarts]
      t1Restarts.after :=
    .cons (callEvent_step (by decide +kernel))
      (.cons (callEvent_step (by decide +kernel)) (.nil _))
  have fit : IdsFit t1Exhausted :=
    ⟨t1Client_initialised.idsFit.kid, t1Client_initialised.idsFit.kidContext⟩
  obtain ⟨code, failed⟩ :=
    refused t1Platform t1Exhausted t1Restarts.after _ run fit (by decide) []
      t1Exhausted [t1Wraps] t1Restarts [] t1Request 64 t1Packet rfl (.nil _)
      run (by decide) rfl rfl rfl rfl
  have sent : t1Restarts.output = .ok (some t1OscoreRequest) := by
    decide +kernel
  rw [sent] at failed
  cases failed

end UoscoreUedhoc.Oscore
