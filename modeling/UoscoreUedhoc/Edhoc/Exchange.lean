import UoscoreUedhoc.Edhoc.Responder

/-!
# Exchanges

The two runs of an exchange in which every message is delivered unchanged.
Each party blocks until the message it waits for is there, so the order in
which their steps are interleaved does not matter: an exchange is a pair of runs
in which each party receives what the other one sends.
-/

namespace UoscoreUedhoc.Edhoc

open UoscoreUedhoc Update

/-! ## The channel -/

theorem exec_tx (data : Bytes) (channel : Channel) :
    exec (tx data) channel =
      (.ok (), { channel with sent := channel.sent ++ [data] }) := rfl

theorem rx_eq_ok {size : Nat} {channel final : Channel} {data : Bytes} :
    exec (rx size) channel = (.ok data, final) ↔
      ∃ later, channel.incoming = data :: later ∧ data.length ≤ size ∧
        final = ⟨later, channel.sent⟩ := by
  unfold rx
  rw [exec_get_bind]
  cases waiting : channel.incoming with
  | nil =>
      simp [fail]
  | cons first later =>
      rw [exec_modify_bind, exec_lift_bind, andThen_eq_ok]
      simp only [checkBufferSize_eq_ok, exec_pure, Prod.mk.injEq,
        Except.ok.injEq, List.cons.injEq]
      constructor
      · rintro ⟨_, fits, rfl, rfl⟩
        exact ⟨later, ⟨rfl, rfl⟩, fits, rfl⟩
      · rintro ⟨_, ⟨rfl, rfl⟩, fits, rfl⟩
        exact ⟨(), fits, rfl, rfl⟩

/-! ## The initiator -/

section

variable {platform : EdhocPlatform} {stack : Stack}
  {initiator : InitiatorContext} {buffersI : InitiatorBuffers}
  {responder : ResponderContext} {buffersR : ResponderBuffers}
  {incoming sent : List Bytes}

/-- The end of `edhoc_initiator_run`, which takes message 4 if it is used. -/
def InitiatorEnds (platform : EdhocPlatform) (initiator : InitiatorContext)
    (buffersI : InitiatorBuffers) (output : Msg3Output) (later : List Bytes)
    (out : InitiatorOutput) : Prop :=
  if initiator.msg4 then
    ∃ msg4 rest ead4, later = msg4 :: rest ∧
      msg4.length ≤ msg4DefaultSize ∧
      msg4Process platform output.suite buffersI.ead4Len output.prk4x3m
        output.th4 msg4 = .ok ead4 ∧
      out = ⟨output.ead2, some ead4, output.prk4x3m, output.th4⟩
  else
    out = ⟨output.ead2, none, output.prk4x3m, output.th4⟩

theorem InitiatorEnds.keys {output : Msg3Output} {later : List Bytes}
    {out : InitiatorOutput}
    (ends : InitiatorEnds platform initiator buffersI output later out) :
    out.ead2 = output.ead2 ∧ out.prk4x3m = output.prk4x3m ∧
      out.th4 = output.th4 := by
  unfold InitiatorEnds at ends
  split at ends
  · obtain ⟨_, _, _, _, _, _, rfl⟩ := ends
    exact ⟨rfl, rfl, rfl⟩
  · subst ends
    exact ⟨rfl, rfl, rfl⟩

/-- A run of the initiator, message by message. -/
theorem edhocInitiatorRun_eq_ok {out : InitiatorOutput} :
    (∃ left, exec (edhocInitiatorRun platform stack initiator buffersI)
        ⟨incoming, []⟩ = (.ok out, ⟨left, sent⟩)) ↔
      ∃ msg1 msg2 later output,
        msg1Gen platform initiator = .ok msg1 ∧
          incoming = msg2 :: later ∧ msg2.length ≤ msg2DefaultSize ∧
            msg3Gen platform stack initiator buffersI msg1 msg2 =
                .ok output ∧
              sent = [msg1, output.msg3] ∧
                InitiatorEnds platform initiator buffersI output later
                  out := by
  unfold edhocInitiatorRun InitiatorEnds
  constructor
  · rintro ⟨left, run⟩
    rw [exec_lift_bind, andThen_eq_ok] at run
    obtain ⟨msg1, generated, run⟩ := run
    rw [exec_bind, exec_tx] at run
    obtain ⟨msg2, _, received, run⟩ := exec_bind_eq_ok.mp run
    obtain ⟨later, isIncoming, fits, rfl⟩ := rx_eq_ok.mp received
    rw [exec_lift_bind, andThen_eq_ok] at run
    obtain ⟨output, processed, run⟩ := run
    rw [exec_bind, exec_tx] at run
    refine ⟨msg1, msg2, later, output, generated, isIncoming, fits, processed,
      ?_⟩
    dsimp only at run
    split at run
    · rename_i usesMsg4
      rw [if_pos usesMsg4]
      obtain ⟨msg4, _, received4, run⟩ := exec_bind_eq_ok.mp run
      obtain ⟨rest, isLater, fits4, rfl⟩ := rx_eq_ok.mp received4
      rw [exec_lift_bind, andThen_eq_ok] at run
      obtain ⟨ead4, processed4, run⟩ := run
      simp only [exec_pure, Prod.mk.injEq, Except.ok.injEq,
        Channel.mk.injEq] at run
      exact ⟨run.2.2.symm, msg4, rest, ead4, isLater, fits4, processed4,
        run.1.symm⟩
    · rename_i noMsg4
      rw [if_neg noMsg4]
      simp only [exec_pure, Prod.mk.injEq, Except.ok.injEq,
        Channel.mk.injEq] at run
      exact ⟨run.2.2.symm, run.1.symm⟩
  · rintro ⟨msg1, msg2, later, output, generated, rfl, fits, processed, rfl,
      ends⟩
    rw [exec_lift_bind, generated, andThen_ok, exec_bind, exec_tx]
    dsimp only
    rw [exec_bind, rx_eq_ok.mpr ⟨later, rfl, fits, rfl⟩]
    dsimp only
    rw [exec_lift_bind, processed, andThen_ok, exec_bind, exec_tx]
    dsimp only
    split at ends
    · rename_i usesMsg4
      obtain ⟨msg4, rest, ead4, rfl, fits4, processed4, rfl⟩ := ends
      rw [if_pos usesMsg4, exec_bind,
        rx_eq_ok.mpr ⟨rest, rfl, fits4, rfl⟩]
      dsimp only
      rw [exec_lift_bind, processed4, andThen_ok]
      exact ⟨rest, rfl⟩
    · rename_i noMsg4
      subst ends
      rw [if_neg noMsg4]
      exact ⟨later, rfl⟩

/-! ## The responder -/

/-- The end of `edhoc_responder_run`: what is sent besides message 2. -/
def ResponderEnds (platform : EdhocPlatform) (responder : ResponderContext)
    (rc : Msg2Output) (output : ProcessedMsg3) (last : List Bytes) : Prop :=
  if responder.msg4 then
    ∃ msg4,
      msg4Gen platform responder rc.suite output.prk4x3m output.th4 =
          .ok msg4 ∧
        last = [msg4]
  else
    last = []

/-- A run of the responder, message by message. -/
theorem edhocResponderRun_eq_ok {out : ResponderOutput} :
    (∃ left, exec (edhocResponderRun platform stack responder buffersR)
        ⟨incoming, []⟩ = (.ok out, ⟨left, sent⟩)) ↔
      ∃ msg1 msg3 left rc output last,
        incoming = msg1 :: msg3 :: left ∧ msg1.length ≤ msg1DefaultSize ∧
          msg3.length ≤ msg2DefaultSize ∧
            msg2Gen platform responder buffersR msg1 = .ok rc ∧
              msg3Process platform stack responder buffersR rc msg3 =
                  .ok output ∧
                ResponderEnds platform responder rc output last ∧
                  sent = rc.msg2 :: last ∧
                    out =
                      ⟨rc.ead1, output.ead3, output.prk4x3m,
                        output.th4⟩ := by
  unfold edhocResponderRun ResponderEnds
  constructor
  · rintro ⟨left, run⟩
    obtain ⟨msg1, _, received, run⟩ := exec_bind_eq_ok.mp run
    obtain ⟨later, isIncoming, fits, rfl⟩ := rx_eq_ok.mp received
    rw [exec_lift_bind, andThen_eq_ok] at run
    obtain ⟨rc, generated, run⟩ := run
    rw [exec_bind, exec_tx] at run
    obtain ⟨msg3, _, received3, run⟩ := exec_bind_eq_ok.mp run
    obtain ⟨rest, isLater, fits3, rfl⟩ := rx_eq_ok.mp received3
    rw [exec_lift_bind, andThen_eq_ok] at run
    obtain ⟨output, processed, run⟩ := run
    dsimp only at isIncoming isLater
    subst isLater
    refine ⟨msg1, msg3, rest, rc, output, ?_⟩
    dsimp only at run
    split at run
    · rename_i usesMsg4
      rw [exec_lift_bind, andThen_eq_ok] at run
      obtain ⟨msg4, generated4, run⟩ := run
      rw [exec_bind, exec_tx] at run
      simp only [exec_pure, Prod.mk.injEq, Except.ok.injEq,
        Channel.mk.injEq] at run
      refine ⟨[msg4], isIncoming, fits, fits3, generated, processed, ?_,
        run.2.2.symm, run.1.symm⟩
      rw [if_pos usesMsg4]
      exact ⟨msg4, generated4, rfl⟩
    · rename_i noMsg4
      simp only [exec_pure, Prod.mk.injEq, Except.ok.injEq,
        Channel.mk.injEq] at run
      refine ⟨[], isIncoming, fits, fits3, generated, processed, ?_,
        run.2.2.symm, run.1.symm⟩
      rw [if_neg noMsg4]
  · rintro ⟨msg1, msg3, left, rc, output, last, rfl, fits, fits3, generated,
      processed, ends, rfl, rfl⟩
    rw [exec_bind, rx_eq_ok.mpr ⟨_, rfl, fits, rfl⟩]
    dsimp only
    rw [exec_lift_bind, generated, andThen_ok, exec_bind, exec_tx]
    dsimp only
    rw [exec_bind, rx_eq_ok.mpr ⟨_, rfl, fits3, rfl⟩]
    dsimp only
    rw [exec_lift_bind, processed, andThen_ok]
    split at ends
    · rename_i usesMsg4
      obtain ⟨msg4, generated4, rfl⟩ := ends
      rw [if_pos usesMsg4, exec_lift_bind, generated4, andThen_ok, exec_bind,
        exec_tx]
      exact ⟨left, rfl⟩
    · rename_i noMsg4
      subst ends
      rw [if_neg noMsg4]
      exact ⟨left, rfl⟩

/-! ## Both together -/

/-- Both runs return `ok` when each party receives what the other one sends. -/
def Delivered (platform : EdhocPlatform) (stackI stackR : Stack)
    (initiator : InitiatorContext) (buffersI : InitiatorBuffers)
    (responder : ResponderContext) (buffersR : ResponderBuffers)
    (outI : InitiatorOutput) (outR : ResponderOutput) : Prop :=
  ∃ toI toR,
    (∃ left, exec (edhocInitiatorRun platform stackI initiator buffersI)
      ⟨toI, []⟩ = (.ok outI, ⟨left, toR⟩)) ∧
    (∃ left, exec (edhocResponderRun platform stackR responder buffersR)
      ⟨toR, []⟩ = (.ok outR, ⟨left, toI⟩))

theorem delivered_iff {stackI stackR : Stack} {outI : InitiatorOutput}
    {outR : ResponderOutput} :
    Delivered platform stackI stackR initiator buffersI responder buffersR
        outI outR ↔
      ∃ msg1 rc output processed last,
        msg1Gen platform initiator = .ok msg1 ∧
          msg1.length ≤ msg1DefaultSize ∧
            msg2Gen platform responder buffersR msg1 = .ok rc ∧
              rc.msg2.length ≤ msg2DefaultSize ∧
                msg3Gen platform stackI initiator buffersI msg1 rc.msg2 =
                    .ok output ∧
                  output.msg3.length ≤ msg2DefaultSize ∧
                    msg3Process platform stackR responder buffersR rc
                        output.msg3 = .ok processed ∧
                      ResponderEnds platform responder rc processed last ∧
                        InitiatorEnds platform initiator buffersI output last
                            outI ∧
                          outR =
                            ⟨rc.ead1, processed.ead3, processed.prk4x3m,
                              processed.th4⟩ := by
  unfold Delivered
  constructor
  · rintro ⟨toI, toR, runI, runR⟩
    obtain ⟨msg1, msg2, later, output, generated1, isToI, fits2, generated3,
      isToR, endsI⟩ := edhocInitiatorRun_eq_ok.mp runI
    obtain ⟨msg1', msg3, left, rc, processed, last, isToR', fits1, fits3,
      generated2, processed3, endsR, isToI', isOutR⟩ :=
        edhocResponderRun_eq_ok.mp runR
    rw [isToR] at isToR'
    rw [isToI] at isToI'
    simp only [List.cons.injEq] at isToR' isToI'
    obtain ⟨rfl, rfl, _⟩ := isToR'
    obtain ⟨rfl, rfl⟩ := isToI'
    exact ⟨msg1, rc, output, processed, later, generated1, fits1, generated2,
      fits2, generated3, fits3, processed3, endsR, endsI, isOutR⟩
  · rintro ⟨msg1, rc, output, processed, last, generated1, fits1, generated2,
      fits2, generated3, fits3, processed3, endsR, endsI, isOutR⟩
    refine ⟨rc.msg2 :: last, [msg1, output.msg3], ?_, ?_⟩
    · exact edhocInitiatorRun_eq_ok.mpr ⟨msg1, rc.msg2, last, output,
        generated1, rfl, fits2, generated3, rfl, endsI⟩
    · exact edhocResponderRun_eq_ok.mpr ⟨msg1, output.msg3, [], rc, processed,
        last, rfl, fits1, fits3, generated2, processed3, endsR, rfl, isOutR⟩

end

end UoscoreUedhoc.Edhoc
