import UoscoreUedhoc.Oscore.System

/-!
# Runs on given inputs

The two contexts are deterministic, so that the inputs of a run determine it.
Whether a run forges a ciphertext can be read off its events: each call that
returns a packet has one sealing, and each call that accepts one opens one.
-/

namespace UoscoreUedhoc.Oscore

open UoscoreUedhoc
open UoscoreUedhoc.Runs
open Update

variable {platform : Platform}

/-! ## The run of a list of inputs -/

/-- The system after a call of a party that left this context. -/
def System.setContext (system : System) (party : Party) (c : Context) :
    System :=
  match party with
  | .client => { system with client := c }
  | .server => { system with server := c }

@[simp]
theorem System.setContext_context (system : System) (party : Party)
    (c : Context) : (system.setContext party c).context party = c := by
  cases party <;> rfl

theorem System.setContext_other {party other : Party} (system : System)
    (different : other ≠ party) (c : Context) :
    (system.setContext party c).context other = system.context other := by
  cases party with
  | client =>
      cases other with
      | client =>
          exact absurd rfl different
      | server =>
          rfl
  | server =>
      cases other with
      | client =>
          rfl
      | server =>
          exact absurd rfl different

/-- The event of a call on one of the contexts. -/
def systemEvent (platform : Platform) (before : System)
    (input : Party × Call) : SystemEvent :=
  let call := callEvent platform (before.context input.1) input.2
  { before
    input
    output := call.output
    after := before.setContext input.1 call.after }

/-- The events of a list of calls. -/
def systemEvents (platform : Platform) :
    System → List (Party × Call) → List SystemEvent
  | _, [] => []
  | before, input :: inputs =>
      let event := systemEvent platform before input
      event :: systemEvents platform event.after inputs

/-- The system after a list of calls. -/
def systemAfter (platform : Platform) :
    System → List (Party × Call) → System
  | before, [] => before
  | before, input :: inputs =>
      systemAfter platform (systemEvent platform before input).after inputs

theorem systemEvent_step {before : System} {input : Party × Call}
    (isDefined :
      (systemEvent platform before input).output ≠ undefinedBehaviour) :
    systemMachine platform (systemEvent platform before input) := by
  constructor
  · refine ⟨?_, isDefined⟩
    unfold localCall systemEvent
    dsimp only
    rw [System.setContext_context]
    rfl
  · intro party different
    exact System.setContext_other before different _

/-- Calls with defined behaviour make a run. -/
theorem systemEvents_run {first : System} {inputs : List (Party × Call)}
    (isDefined : ∀ event ∈ systemEvents platform first inputs,
      event.output ≠ undefinedBehaviour) :
    SystemRun platform first (systemEvents platform first inputs)
      (systemAfter platform first inputs) := by
  induction inputs generalizing first with
  | nil =>
      exact .nil first
  | cons input inputs inductionHypothesis =>
      have step := systemEvent_step (isDefined _ List.mem_cons_self)
      refine .cons step (inductionHypothesis ?_)
      intro event member
      exact isDefined event (List.mem_cons_of_mem _ member)

/-! ## The sealings of a run -/

/-- The sealing of a call that protects a packet. -/
def sealedBy (platform : Platform) (event : CallEvent) : Option Sealing :=
  match event.input, event.output with
  | .coap2oscore input _, .ok (some _) =>
      match buf2coap input, coseAad platform.toCborEncoder event.after.rrc.aad
        with
      | .ok packet, .ok aad =>
          if isMessagingLayer packet then
            none
          else
            match (exec (coap2oscorePacket platform packet) event.before).1
              with
            | .ok oscorePacket =>
                some
                  { key := event.after.sc.senderKey
                    nonce := event.after.rrc.nonce
                    aad
                    ciphertext := oscorePacket.payload }
            | .error _ => none
      | _, _ => none
  | _, _ => none

/-- The sealing of a call that accepts a packet. -/
def openedBy (platform : Platform) (event : CallEvent) : Option Sealing :=
  match event.input, event.output with
  | .oscore2coap input _, .ok (some _) =>
      match buf2coap input, coseAad platform.toCborEncoder event.after.rrc.aad
        with
      | .ok packet, .ok aad =>
          some
            { key := event.after.rc.recipientKey
              nonce := event.after.rrc.nonce
              aad
              ciphertext := packet.payload }
      | _, _ => none
  | _, _ => none

theorem seals_of_sealedBy {event : CallEvent} {sealing : Sealing}
    (step : callMachine platform event)
    (isSealed : sealedBy platform event = some sealing) :
    Seals platform event sealing := by
  unfold sealedBy at isSealed
  split at isSealed
  · rename_i input capacity output called succeeded
    split at isSealed
    · rename_i packet aad parsed built
      split at isSealed
      · cases isSealed
      · rename_i notCopied
        split at isSealed
        · rename_i oscorePacket converted
          cases isSealed
          refine
            seals_of_payload step
              ⟨input, capacity, output, called, succeeded, parsed, ?_⟩ rfl rfl
              built ?_
          · simpa using notCopied
          · rw [converted]
            rfl
        · cases isSealed
    · cases isSealed
  · cases isSealed

theorem Opens.openedBy {event : CallEvent} {sealing : Sealing}
    (opens : Opens platform event sealing) :
    openedBy platform event = some sealing := by
  obtain ⟨input, capacity, output, packet, called, accepted, parsed, key,
    nonce, aad, ciphertext⟩ := opens
  unfold Oscore.openedBy
  rw [called, accepted]
  dsimp only
  rw [parsed, aad]
  dsimp only
  rw [← key, ← nonce, ← ciphertext]

/-- Every opened sealing is among those sealed before. -/
def opensSealed (platform : Platform) :
    List Sealing → List SystemEvent → Bool
  | _, [] => true
  | sealings, event :: events =>
      (openedBy platform (localCall event)).all (sealings.contains ·) &&
        opensSealed platform
          ((sealedBy platform (localCall event)).toList ++ sealings) events

theorem opensSealed_throughout {sealings : List Sealing}
    {past events : List SystemEvent}
    (steps : ∀ event ∈ events, callMachine platform (localCall event))
    (isSealed : ∀ sealing ∈ sealings, ∃ earlier ∈ past,
      Seals platform (localCall earlier) sealing)
    (opened : opensSealed platform sealings events = true) :
    Throughout
      (fun later event => ∀ sealing,
        Opens platform (localCall event) sealing →
        ∃ earlier ∈ past ++ later, Seals platform (localCall earlier) sealing)
      events := by
  induction events generalizing sealings past with
  | nil =>
      exact throughout_nil
  | cons event events inductionHypothesis =>
      unfold opensSealed at opened
      rw [Bool.and_eq_true] at opened
      obtain ⟨openedHere, openedLater⟩ := opened
      rw [throughout_cons_iff]
      constructor
      · intro sealing opens
        rw [opens.openedBy] at openedHere
        rw [List.append_nil]
        exact isSealed sealing (by simpa using openedHere)
      · have step := steps event List.mem_cons_self
        have later :=
          @inductionHypothesis
            ((sealedBy platform (localCall event)).toList ++ sealings)
            (past ++ [event])
            (fun other member => steps other (List.mem_cons_of_mem _ member))
            (by
              intro sealing member
              rcases List.mem_append.mp member with here | before
              · rw [Option.mem_toList] at here
                exact ⟨event, by simp, seals_of_sealedBy step here⟩
              · obtain ⟨earlier, earlierMember, seals⟩ :=
                  isSealed sealing before
                exact
                  ⟨earlier, List.mem_append_left _ earlierMember, seals⟩)
            openedLater
        intro front other rest split sealing opens
        have found := later front other rest split sealing opens
        simpa using found

/-- A run that opens only what it has sealed forges nothing. -/
theorem unforgeable_of_opensSealed {first last : System}
    {events : List SystemEvent} (run : SystemRun platform first events last)
    (opened : opensSealed platform [] events = true) :
    Unforgeable platform events := by
  have steps : ∀ event ∈ events, callMachine platform (localCall event) :=
    fun event member => (run.step_of_mem member).1
  have none : ∀ sealing ∈ ([] : List Sealing), ∃ earlier ∈ [],
      Seals platform (localCall earlier) sealing := by
    intro sealing member
    cases member
  exact opensSealed_throughout steps none opened

end UoscoreUedhoc.Oscore
