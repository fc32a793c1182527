import UoscoreUedhoc.Lib.LargestEntries
import UoscoreUedhoc.Oscore.ReplayProtection

/-!
# The replay window

`update_replay_window` puts a number that is above the first entry at its place
and drops that entry; a number below all entries it puts at the end.
`oscore2coap` hands it the first byte of the Partial IV, which is the lowest
byte of the sequence number.  So the window holds the largest accepted numbers
as long as these are below 256 and none of them comes after 32 larger ones.
-/

namespace UoscoreUedhoc.Oscore

open UoscoreUedhoc
open UoscoreUedhoc.Runs
open UoscoreUedhoc.PaddedDigits
open UoscoreUedhoc.LargestEntries
open Update

/-! ## One update -/

section Update

variable {number entry next : UInt64} {window : List UInt64}

theorem updateReplayWindow_cons (number entry : UInt64)
    (window : List UInt64) :
    updateReplayWindow number (entry :: window) =
      window.take (replayPosition number (entry :: window)) ++
        number :: window.drop (replayPosition number (entry :: window)) := rfl

/-- A new number above the first entry slides the window. -/
theorem updateReplayWindow_eq_slide
    (ascending : (entry :: window).Pairwise (· ≤ ·)) (above : entry < number)
    (new : number ∉ window) :
    updateReplayWindow number (entry :: window) =
      slide number (entry :: window) := by
  rw [slide_cons above, updateReplayWindow_cons]
  induction window generalizing entry with
  | nil =>
      rfl
  | cons next window inductionHypothesis =>
      have others := (List.pairwise_cons.mp ascending).2
      rw [List.mem_cons, not_or] at new
      unfold replayPosition
      by_cases before : number < next
      · rw [if_pos ⟨above, before⟩,
          List.orderedInsert_cons_of_le (· ≤ ·) _ before.le]
        rfl
      · have behind : next < number :=
          lt_of_le_of_ne (not_lt.mp before) (Ne.symm new.1)
        rw [if_neg (fun gap => before gap.2), Nat.add_comm,
          List.take_succ_cons, List.drop_succ_cons, List.cons_append,
          inductionHypothesis others behind new.2,
          List.orderedInsert_of_not_le (· ≤ ·) _ (not_le_of_gt behind)]

/-- No update leaves a window that starts with two different entries. -/
theorem updateReplayWindow_ne_self (different : entry ≠ next) :
    updateReplayWindow number (entry :: next :: window) ≠
      entry :: next :: window := by
  rw [updateReplayWindow_cons]
  unfold replayPosition
  by_cases gap : entry < number ∧ number < next
  · rw [if_pos gap]
    intro same
    exact absurd (List.cons.inj same).1 (ne_of_gt gap.1)
  · rw [if_neg gap, Nat.add_comm, List.take_succ_cons, List.cons_append]
    intro same
    exact different (List.cons.inj same).1.symm

theorem mem_updateReplayWindow {other : UInt64}
    (member : other ∈ updateReplayWindow number (entry :: window)) :
    other = number ∨ other ∈ window := by
  rw [updateReplayWindow_cons, List.mem_append, List.mem_cons] at member
  rcases member with front | same | back
  · exact Or.inr (List.mem_of_mem_take front)
  · exact Or.inl same
  · exact Or.inr (List.mem_of_mem_drop back)

end Update

/-! ## The largest of the numbers -/

/-- The entries that `oscore_context_init` writes. -/
def initialWindow : List UInt64 :=
  List.replicate replayWindowLen 0

/-- The window is ascending and consists of the 32 largest of the numbers, with
the initial zeros in front where there are fewer. -/
def RecordsLargest (numbers window : List UInt64) : Prop :=
  HoldsLargest initialWindow numbers window

theorem recordsLargest_nil : RecordsLargest [] initialWindow :=
  holdsLargest_nil
    (List.pairwise_replicate.mpr (Or.inr (UInt64.le_refl 0)))

section Recording

variable {numbers window : List UInt64} {number recorded : UInt64}

theorem RecordsLargest.exists_cons (holds : RecordsLargest numbers window) :
    ∃ entry next rest, window = entry :: next :: rest := by
  have length : window.length = 32 := holds.length
  match window, length with
  | entry :: next :: rest, _ => exact ⟨entry, next, rest, rfl⟩

/-- A number that is not among those before is not in the window. -/
theorem RecordsLargest.not_mem (holds : RecordsLargest numbers window)
    (nonzero : number ≠ 0) (new : number ∉ numbers) : number ∉ window := by
  intro member
  rcases List.mem_append.mp (holds.mem member) with initial | earlier
  · exact nonzero (List.eq_of_mem_replicate initial)
  · exact new earlier

/-- A positive first entry is not repeated. -/
theorem RecordsLargest.first_ne {entry next : UInt64} {rest : List UInt64}
    (holds : RecordsLargest numbers (entry :: next :: rest))
    (distinct : numbers.Nodup) (positive : entry ≠ 0) : entry ≠ next := by
  intro same
  have atMost := holds.count_le entry
  have none : initialWindow.count entry = 0 := by
    rw [List.count_eq_zero]
    intro member
    exact positive (List.eq_of_mem_replicate member)
  have once := List.nodup_iff_count_le_one.mp distinct entry
  rw [← same, List.count_append, none, List.count_cons_self,
    List.count_cons_self] at atMost
  omega

/-- One update records a new number exactly when it is handed this number and
the number is above the first entry. -/
theorem RecordsLargest.update_iff (holds : RecordsLargest numbers window)
    (distinct : numbers.Nodup) (nonzero : number ≠ 0)
    (new : number ∉ numbers) :
    RecordsLargest (number :: numbers) (updateReplayWindow recorded window) ↔
      recorded = number ∧ ∀ entry ∈ window.head?, entry < number := by
  obtain ⟨entry, next, rest, rfl⟩ := holds.exists_cons
  have absent := holds.not_mem nonzero new
  have absentBehind : number ∉ next :: rest := by
    intro member
    exact absent (List.mem_cons_of_mem entry member)
  have onlyFirst : (∀ first ∈ (entry :: next :: rest).head?, first < number) ↔
      entry < number := by
    simp
  rw [onlyFirst]
  by_cases above : entry < number
  · have slides := HoldsLargest.slide holds above
    constructor
    · intro records
      have same := HoldsLargest.unique records slides
      have member : number ∈ slide number (entry :: next :: rest) := by
        rw [slide_cons above, List.mem_orderedInsert]
        exact Or.inl rfl
      rw [← same] at member
      rcases mem_updateReplayWindow member with handed | old
      · exact ⟨handed.symm, above⟩
      · exact absurd old absentBehind
    · intro handed
      obtain ⟨rfl, _⟩ := handed
      rw [updateReplayWindow_eq_slide holds.ascending above absentBehind]
      exact slides
  · have notAbove : number ≤ entry := not_lt.mp above
    have positive : entry ≠ 0 := by
      intro zero
      rw [zero] at notAbove
      exact nonzero (UInt64.le_antisymm notAbove (UInt64.zero_le))
    constructor
    · intro records
      have same := HoldsLargest.unique records (HoldsLargest.keep holds notAbove)
      exact
        absurd same
          (updateReplayWindow_ne_self (holds.first_ne distinct positive))
    · intro handed
      exact absurd handed.2 above

end Recording

theorem initialised_replayWindow {platform : Platform}
    {params : OscoreInitParams} {c : Context}
    (initialised : Initialised platform params c) :
    c.rc.replayWindow = initialWindow := by
  obtain ⟨buffers, done⟩ := initialised
  unfold oscoreContextInit at done
  split at done
  · cases done
  · split at done
    · cases done
    · simp only [outcome_bind_eq_ok, Except.ok.injEq] at done
      obtain ⟨_, _, _, _, _, _, _, _, rfl⟩ := done
      rfl

/-! ## Accepted requests -/

/-- `oscore2coap` returns `ok` for a request with this sequence number. -/
def AcceptsNumber (event : CallEvent) (number : UInt64) : Prop :=
  ∃ identity, Accepts event identity ∧
    senderSeqNum2piv number = .ok identity.piv

theorem AcceptsNumber.unique {event : CallEvent} {number other : UInt64}
    (numbered : AcceptsNumber event number)
    (otherNumbered : AcceptsNumber event other) : number = other := by
  obtain ⟨identity, accepts, encoded⟩ := numbered
  obtain ⟨otherIdentity, otherAccepts, otherEncoded⟩ := otherNumbered
  rw [accepts.unique otherAccepts] at encoded
  apply partialIv_injective
  rw [← (senderSeqNum2piv_eq_ok.mp encoded).2,
    ← (senderSeqNum2piv_eq_ok.mp otherEncoded).2]

/-- The first byte of a Partial IV is the lowest byte of its number. -/
theorem partialIv_first {number : UInt64} {first : UInt8} {rest : Bytes}
    (split : partialIv number = first :: rest) :
    first.toNat = number.toNat % 256 := by
  have value := digitsValue_partialIv number
  have bounded := first.toNat_lt
  rw [split, digitsValue_cons] at value
  omega

/-- The first byte of a Partial IV is the whole number only below 256. -/
theorem first_toUInt64_eq_iff {number : UInt64} {first : UInt8}
    (lowest : first.toNat = number.toNat % 256) :
    first.toUInt64 = number ↔ number.toNat < 256 := by
  rw [← UInt64.toNat_inj, UInt8.toNat_toUInt64, lowest]
  constructor
  · intro same
    rw [← same]
    exact Nat.mod_lt _ (by decide)
  · exact Nat.mod_eq_of_lt

/-- An accepted request updates the window with the lowest byte of its
number. -/
theorem AcceptsNumber.updated {platform : Platform} {event : CallEvent}
    {number : UInt64} (numbered : AcceptsNumber event number)
    (step : callMachine platform event) :
    ∃ first : UInt8, first.toNat = number.toNat % 256 ∧
      event.after.rc.replayWindow =
        updateReplayWindow first.toUInt64 event.before.rc.replayWindow := by
  obtain ⟨identity, accepts, encoded⟩ := numbered
  obtain ⟨input, capacity, packet, output, _, named, parsed, _, accepted⟩ :=
    accepts.request step
  obtain ⟨packet', parsedOption, _, _, piv, parsed', optionParsed, _, _, _,
    pivRead, rfl⟩ := requestIdentity_eq_ok.mp named
  rw [parsed, Except.ok.injEq] at parsed'
  subst parsed'
  obtain ⟨option, options, first, between, plaintext, optionParsed', _,
    accept, _, firstRead, recorded, _⟩ := accepted.ok
  rw [optionParsed] at optionParsed'
  cases optionParsed'
  have isPiv := (senderSeqNum2piv_eq_ok.mp encoded).2
  have pivLength := partialIv_length (senderSeqNum2piv_eq_ok.mp encoded).1
  rw [← isPiv] at pivLength
  have lowest : first.toNat = number.toNat % 256 := by
    obtain ⟨byte, rest, content⟩ :=
      List.exists_cons_of_length_pos pivLength.1
    have read := pivFirstByte_of_content pivRead content
    rw [firstRead, Except.ok.injEq] at read
    subst read
    exact partialIv_first (isPiv.symm.trans content)
  refine ⟨first, lowest, ?_⟩
  obtain ⟨_, _, _, middle, _, _, server, _, _, rfl⟩ :=
    requestAccept_updated accept
  rw [recorded, ← (serverUpdate_updated server).replayWindow]
  rfl

/-! ## Runs -/

/-- What a step adds to the accepted sequence numbers: that of the request it
accepts.  A step that accepts no request leaves the window as it is. -/
inductive Contributes (event : CallEvent) : List UInt64 → Prop
  | served {number : UInt64} (numbered : AcceptsNumber event number) :
      Contributes event [number]
  | other (refused : ∀ identity, ¬ Accepts event identity)
      (unchanged :
        event.after.rc.replayWindow = event.before.rc.replayWindow) :
      Contributes event []

/-- Protecting a response in between adds nothing. -/
theorem contributes_of_coap2oscore {platform : Platform} {event : CallEvent}
    (step : callMachine platform event)
    (protects : ∃ input capacity, event.input = .coap2oscore input capacity) :
    Contributes event [] := by
  have kept := callRun_coap2oscore_keeps step protects
  apply Contributes.other
  · intro identity accepts
    obtain ⟨_, _, _, received, _⟩ := accepts
    obtain ⟨_, _, called⟩ := protects
    rw [received] at called
    cases called
  · rw [kept.rc]

/-- The steps accept genuine requests with these sequence numbers, in their
order. -/
inductive AcceptsNumbers : List CallEvent → List UInt64 → Prop
  | nil : AcceptsNumbers [] []
  | cons {event : CallEvent} {events : List CallEvent}
      {added numbers : List UInt64} (contributes : Contributes event added)
      (rest : AcceptsNumbers events numbers) :
      AcceptsNumbers (event :: events) (added ++ numbers)

/-- After each step, the window consists of the largest sequence numbers
accepted up to there. -/
def RecordsThroughout (events : List CallEvent) : Prop :=
  ∀ past event rest numbers, events = past ++ event :: rest →
    AcceptsNumbers (past ++ [event]) numbers →
    RecordsLargest numbers event.after.rc.replayWindow

/-- The request that the step accepts, if it accepts one, has a sequence number
below 256 and above the first entry of the window. -/
def IsRecordable (event : CallEvent) : Prop :=
  ∀ number, AcceptsNumber event number →
    number.toNat < 256 ∧
      ∀ entry ∈ event.before.rc.replayWindow.head?, entry < number

theorem Contributes.unique {event : CallEvent} {added others : List UInt64}
    (contributes : Contributes event added)
    (otherwise : Contributes event others) : added = others := by
  cases contributes with
  | served numbered =>
      cases otherwise with
      | served otherNumbered =>
          rw [numbered.unique otherNumbered]
      | other refused =>
          obtain ⟨identity, accepts, _⟩ := numbered
          exact absurd accepts (refused identity)
  | other refused =>
      cases otherwise with
      | served otherNumbered =>
          obtain ⟨identity, accepts, _⟩ := otherNumbered
          exact absurd accepts (refused identity)
      | other =>
          rfl

/-- What one step preserves. -/
theorem Contributes.records_iff {platform : Platform} {event : CallEvent}
    {added numbers : List UInt64} (contributes : Contributes event added)
    (step : callMachine platform event)
    (holds : RecordsLargest numbers event.before.rc.replayWindow)
    (distinct : (numbers ++ added).Nodup) (nonzero : 0 ∉ added) :
    RecordsLargest (numbers ++ added) event.after.rc.replayWindow ↔
      IsRecordable event := by
  cases contributes with
  | @served number numbered =>
      obtain ⟨first, lowest, updated⟩ := numbered.updated step
      obtain ⟨before, _, apart⟩ := List.nodup_append'.mp distinct
      have new : number ∉ numbers := by
        intro member
        exact apart member (List.mem_singleton_self number)
      have positive : number ≠ 0 := by
        intro zero
        exact nonzero (List.mem_singleton.mpr zero.symm)
      have records :=
        @RecordsLargest.update_iff _ _ _ first.toUInt64 holds before positive
          new
      rw [← updated, first_toUInt64_eq_iff lowest] at records
      have reordered : RecordsLargest (numbers ++ [number])
          event.after.rc.replayWindow ↔
            RecordsLargest (number :: numbers)
              event.after.rc.replayWindow := by
        have same := List.perm_append_singleton number numbers
        constructor
        · intro records
          exact HoldsLargest.perm records same
        · intro records
          exact HoldsLargest.perm records same.symm
      rw [reordered, records]
      constructor
      · intro recordable other otherNumbered
        rw [← numbered.unique otherNumbered]
        exact recordable
      · intro recordable
        exact recordable number numbered
  | other refused unchanged =>
      rw [unchanged, List.append_nil]
      refine iff_of_true holds ?_
      intro number numbered
      obtain ⟨identity, accepts, _⟩ := numbered
      exact absurd accepts (refused identity)

/-- What a run preserves that starts behind some accepted numbers. -/
theorem AcceptsNumbers.records_iff {platform : Platform}
    {first last : Context} {events : List CallEvent}
    {before numbers : List UInt64} (served : AcceptsNumbers events numbers)
    (run : CallRun platform first events last)
    (holds : RecordsLargest before first.rc.replayWindow)
    (distinct : (before ++ numbers).Nodup) (nonzero : 0 ∉ numbers) :
    (∀ past event rest others, events = past ++ event :: rest →
        AcceptsNumbers (past ++ [event]) others →
        RecordsLargest (before ++ others) event.after.rc.replayWindow) ↔
      ∀ event ∈ events, IsRecordable event := by
  induction served generalizing first before with
  | nil =>
      refine iff_of_true ?_ ?_
      · intro past event rest others split
        simp at split
      · intro event member
        cases member
  | @cons event events added numbers contributes served inductionHypothesis =>
      obtain ⟨rfl, step, later⟩ := Run.cons_iff.mp run
      rw [← List.append_assoc] at distinct
      rw [List.mem_append, not_or] at nonzero
      have steps :=
        contributes.records_iff step holds
          (List.Nodup.of_append_left distinct) nonzero.1
      have alone : AcceptsNumbers [event] added := by
        have single := AcceptsNumbers.cons contributes .nil
        rwa [List.append_nil] at single
      rw [List.forall_mem_cons]
      constructor
      · intro records
        have recorded := records [] event events added rfl alone
        refine ⟨steps.mp recorded, ?_⟩
        apply (inductionHypothesis later recorded distinct nonzero.2).mp
        intro past other rest others split otherServed
        rw [List.append_assoc]
        apply records (event :: past) other rest (added ++ others)
        · rw [split]
          rfl
        · exact .cons contributes otherServed
      · intro recordable past other rest others split otherServed
        have recorded := steps.mpr recordable.1
        cases past with
        | nil =>
            obtain ⟨rfl, _⟩ := List.cons.inj split
            cases otherServed with
            | cons otherContributes none =>
                cases none
                rw [List.append_nil, ← contributes.unique otherContributes]
                exact recorded
        | cons head past =>
            obtain ⟨rfl, behind⟩ := List.cons.inj split
            cases otherServed with
            | cons otherContributes otherServed =>
                rw [← contributes.unique otherContributes, ← List.append_assoc]
                exact
                  (inductionHypothesis later recorded distinct nonzero.2).mpr
                    recordable.2 past other rest _ behind otherServed

/-- In a run that accepts genuine requests with different positive sequence
numbers, the window consists of the largest of these after each step exactly
when every accepted number is below 256 and above the first entry. -/
theorem replayWindow_recorded_iff (platform : Platform)
    (params : OscoreInitParams) (first last : Context)
    (events : List CallEvent) (numbers : List UInt64)
    (initialised : Initialised platform params first)
    (run : CallRun platform first events last)
    (served : AcceptsNumbers events numbers) (distinct : numbers.Nodup)
    (nonzero : 0 ∉ numbers) :
    RecordsThroughout events ↔ ∀ event ∈ events, IsRecordable event := by
  have holds : RecordsLargest [] first.rc.replayWindow := by
    rw [initialised_replayWindow initialised]
    exact recordsLargest_nil
  exact served.records_iff run holds distinct nonzero

/-- The calls of `aead` for requests with the sequence numbers 2, 3 and 256, and
for a response to the first of them. -/
def t1LaterAeadRecords : List AeadRecord :=
  t1AeadRecords ++
    [ aeadRecord t1ClientKey [] [2]
        [0x46, 0x22, 0xD4, 0xDD, 0x6D, 0x94, 0x41, 0x68, 0xEE, 0xFB, 0x54, 0x98,
          0x7E]
        [1, 0xB3, 0x74, 0x76, 0x31]
        [0x8E, 0x4D, 0x39, 0x79, 0x93, 0xC8, 0x20, 0x63, 0x75, 0xDC, 0xC1, 1,
          0x88],
      aeadRecord t1ServerKey [] [2]
        [0x46, 0x22, 0xD4, 0xDD, 0x6D, 0x94, 0x41, 0x68, 0xEE, 0xFB, 0x54, 0x98,
          0x7E]
        [0x45, 0xFF, 0x48, 0x69]
        [0x72, 0x88, 0x2D, 0xB3, 0xD3, 0xBA, 0x77, 0x7A, 0xCF, 0xA2, 0xFC,
          0x9E],
      aeadRecord t1ClientKey [] [3]
        [0x46, 0x22, 0xD4, 0xDD, 0x6D, 0x94, 0x41, 0x68, 0xEE, 0xFB, 0x54, 0x98,
          0x7F]
        [1, 0xB3, 0x74, 0x76, 0x31]
        [0x7D, 0xDF, 0xE3, 0x2A, 0xAC, 0xF4, 0x3E, 0x86, 0x8A, 0x4C, 0xDC, 0x41,
          0xE7],
      aeadRecord t1ClientKey [] [0, 1]
        [0x46, 0x22, 0xD4, 0xDD, 0x6D, 0x94, 0x41, 0x68, 0xEE, 0xFB, 0x54, 0x98,
          0x7D]
        [1, 0xB3, 0x74, 0x76, 0x31]
        [0x19, 0x47, 0x30, 0x55, 0x85, 0x1E, 0x4B, 0x52, 0xDC, 0x11, 0x4D, 0xCB,
          0xCB] ]

def t1LaterPlatform : Platform :=
  .ofRecords t1HkdfRecords t1LaterAeadRecords (by decide)

/-- The request with the sequence number 2. -/
private def t1SecondOscoreRequest : Bytes :=
  [0x40, 2, 0, 1, 0x92, 9, 2, 0xFF, 0x8E, 0x4D, 0x39, 0x79, 0x93, 0xC8, 0x20,
    0x63, 0x75, 0xDC, 0xC1, 1, 0x88]

/-- And the one with 3. -/
private def t1ThirdOscoreRequest : Bytes :=
  [0x40, 2, 0, 1, 0x92, 9, 3, 0xFF, 0x7D, 0xDF, 0xE3, 0x2A, 0xAC, 0xF4, 0x3E,
    0x86, 0x8A, 0x4C, 0xDC, 0x41, 0xE7]

private def t1ServesSecond : CallEvent :=
  callEvent t1LaterPlatform t1Server (.oscore2coap t1SecondOscoreRequest 64)

private def t1AnswersSecond : CallEvent :=
  callEvent t1LaterPlatform t1ServesSecond.after (.coap2oscore t1Response 64)

private def t1ServesFirst : CallEvent :=
  callEvent t1LaterPlatform t1AnswersSecond.after
    (.oscore2coap t1NextOscoreRequest 64)

private def t1ServesThird : CallEvent :=
  callEvent t1LaterPlatform t1ServesFirst.after
    (.oscore2coap t1ThirdOscoreRequest 64)

/-- The requests arrive out of order, with a response behind the first one. -/
private def t1Reordered : List CallEvent :=
  [t1ServesSecond, t1AnswersSecond, t1ServesFirst, t1ServesThird]

private theorem t1ServesSecond_accepts : AcceptsNumber t1ServesSecond 2 :=
  ⟨⟨[], [], [2]⟩, ⟨_, _, t1Request, rfl, rfl, by decide +kernel⟩, rfl⟩

private theorem t1ServesFirst_accepts : AcceptsNumber t1ServesFirst 1 :=
  ⟨⟨[], [], [1]⟩, ⟨_, _, t1Request, rfl, rfl, by decide +kernel⟩, rfl⟩

private theorem t1ServesThird_accepts : AcceptsNumber t1ServesThird 3 :=
  ⟨⟨[], [], [3]⟩, ⟨_, _, t1Request, rfl, rfl, by decide +kernel⟩, rfl⟩

/-- A number above zero is recordable while the window is not full. -/
private theorem isRecordable_of_zero {event : CallEvent} {number : UInt64}
    (accepts : AcceptsNumber event number) (small : number.toNat < 256)
    (positive : 0 < number)
    (free : event.before.rc.replayWindow.head? = some 0) :
    IsRecordable event := by
  intro other numbered
  rw [← accepts.unique numbered]
  refine ⟨small, ?_⟩
  intro entry isFirst
  rw [free, Option.mem_some_iff] at isFirst
  rw [← isFirst]
  exact positive

/-- The sequence numbers 2, 1 and 3 are recorded in the order of the numbers. -/
theorem replayWindow_recorded_t1 :
    RecordsThroughout t1Reordered ∧
      t1ServesThird.after.rc.replayWindow =
        List.replicate 29 0 ++ [1, 2, 3] := by
  have answers : callMachine t1LaterPlatform t1AnswersSecond :=
    callEvent_step (by decide +kernel)
  have run :
      CallRun t1LaterPlatform t1Server t1Reordered t1ServesThird.after :=
    .cons (callEvent_step (by decide +kernel))
      (.cons answers
        (.cons (callEvent_step (by decide +kernel))
          (.cons (callEvent_step (by decide +kernel)) (.nil _))))
  have accepted : AcceptsNumbers t1Reordered [2, 1, 3] :=
    .cons (.served t1ServesSecond_accepts)
      (.cons (contributes_of_coap2oscore answers ⟨_, _, rfl⟩)
        (.cons (.served t1ServesFirst_accepts)
          (.cons (.served t1ServesThird_accepts) .nil)))
  refine ⟨?_, by decide +kernel⟩
  refine
    (replayWindow_recorded_iff t1LaterPlatform t1ServerParams t1Server
      t1ServesThird.after t1Reordered [2, 1, 3] ⟨zeroBuffers, rfl⟩ run
      accepted (by decide) (by decide)).mpr ?_
  intro event member
  simp only [t1Reordered, List.mem_cons, List.not_mem_nil, or_false] at member
  rcases member with rfl | rfl | rfl | rfl
  · exact
      isRecordable_of_zero t1ServesSecond_accepts (by decide) (by decide)
        (by decide +kernel)
  · intro number numbered
    obtain ⟨_, ⟨_, _, _, called, _⟩, _⟩ := numbered
    cases called
  · exact
      isRecordable_of_zero t1ServesFirst_accepts (by decide) (by decide)
        (by decide +kernel)
  · exact
      isRecordable_of_zero t1ServesThird_accepts (by decide) (by decide)
        (by decide +kernel)

/-- The request with the sequence number 256. -/
def t1LaterOscoreRequest : Bytes :=
  [0x40, 2, 0, 1, 0x93, 0x0A, 0, 1, 0xFF, 0x19, 0x47, 0x30, 0x55, 0x85, 0x1E,
    0x4B, 0x52, 0xDC, 0x11, 0x4D, 0xCB, 0xCB]

private def t1ServesLater : CallEvent :=
  callEvent t1LaterPlatform t1Server (.oscore2coap t1LaterOscoreRequest 64)

/-- The sequence number 256 is recorded as 0. -/
theorem laterNumber_lost :
    ¬ ∀ (platform : Platform) (params : OscoreInitParams)
        (first last : Context) (events : List CallEvent)
        (numbers : List UInt64),
        params.devType = .server → Initialised platform params first →
        CallRun platform first events last → AcceptsNumbers events numbers →
        numbers.Nodup → 0 ∉ numbers → RecordsThroughout events := by
  intro records
  have run :
      CallRun t1LaterPlatform t1Server [t1ServesLater] t1ServesLater.after :=
    .cons (callEvent_step (by decide +kernel)) (.nil _)
  have accepts : AcceptsNumber t1ServesLater 256 :=
    ⟨⟨[], [], [0, 1]⟩, ⟨_, _, t1Request, rfl, rfl, rfl⟩, rfl⟩
  have accepted : AcceptsNumbers [t1ServesLater] [256] :=
    .cons (.served accepts) .nil
  have recorded :=
    records t1LaterPlatform t1ServerParams t1Server _ _ _ rfl
      ⟨zeroBuffers, rfl⟩ run accepted (by decide) (by decide) [] t1ServesLater
      [] [256] rfl accepted
  have window : t1ServesLater.after.rc.replayWindow = initialWindow := by
    decide +kernel
  rw [window] at recorded
  obtain ⟨handed, _⟩ :=
    (@RecordsLargest.update_iff [] initialWindow 256 0 recordsLargest_nil
      List.nodup_nil (by decide) (by decide)).mp recorded
  exact absurd handed (by decide)

end UoscoreUedhoc.Oscore
