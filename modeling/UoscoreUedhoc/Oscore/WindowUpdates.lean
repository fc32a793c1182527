import UoscoreUedhoc.Oscore.ReplayWindow

/-!
# Updates of the replay window

`update_replay_window` looks for the gap that a number belongs to, and
`insert_sender_seq_number` moves the entries in front of it down, one after the
other in the array itself.  This module runs both loops with their 8-bit
counters.  They return what the updates of the model return, so an update keeps
an ascending window ascending and drops its smallest entry.
-/

namespace UoscoreUedhoc.Oscore

open UoscoreUedhoc
open UoscoreUedhoc.Runs
open UoscoreUedhoc.LargestEntries

/-! ## The loops -/

theorem toNat_succ {i : UInt8} (small : i.toNat < 255) :
    (i + 1).toNat = i.toNat + 1 := by
  rw [UInt8.toNat_add]
  simp only [UInt8.reduceToNat]
  omega

/-- `replay_window[i]`. -/
def windowEntry (window : List UInt64) (i : Nat) : Outcome UInt64 :=
  match window[i]? with
  | some entry => .ok entry
  | none => undefinedBehaviour

/-- `replay_window[i] = entry`. -/
def setWindowEntry (window : List UInt64) (i : Nat) (entry : UInt64) :
    Outcome (List UInt64) :=
  if i < window.length then .ok (window.set i entry) else undefinedBehaviour

/-- The loop of `insert_sender_seq_number` from `j` on. -/
def insertSenderSeqNumberLoop (position j : UInt8) (window : List UInt64) :
    Outcome (List UInt64) :=
  if j.toNat < position.toNat then do
    let next ← windowEntry window (j.toNat + 1)
    let window ← setWindowEntry window j.toNat next
    insertSenderSeqNumberLoop position (j + 1) window
  else
    .ok window
termination_by position.toNat - j.toNat
decreasing_by
  have bound := position.toNat_lt
  rw [toNat_succ (by omega)]
  omega

/-- `insert_sender_seq_number`, in the array. -/
def insertSenderSeqNumberInPlace (senderSeqNumber : UInt64)
    (window : List UInt64) (position : UInt8) : Outcome (List UInt64) := do
  let window ← insertSenderSeqNumberLoop position 0 window
  setWindowEntry window position.toNat senderSeqNumber

/-- The condition of the `if` in `update_replay_window`.  The entry behind the
gap is only read where the one in front of it is smaller. -/
def isGap (senderSeqNumber : UInt64) (window : List UInt64) (i : UInt8) :
    Outcome Bool := do
  let entry ← windowEntry window i.toNat
  if entry < senderSeqNumber then do
    let next ← windowEntry window (i.toNat + 1)
    .ok (senderSeqNumber < next)
  else
    .ok false

/-- The loop of `update_replay_window` from `i` on, and what follows it. -/
def updateReplayWindowLoop (senderSeqNumber : UInt64) (window : List UInt64)
    (windowLen i : UInt8) : Outcome (List UInt64) :=
  if (i.toNat : Int) < (windowLen.toNat : Int) - 1 then do
    let gap ← isGap senderSeqNumber window i
    if gap then
      insertSenderSeqNumberInPlace senderSeqNumber window i
    else
      updateReplayWindowLoop senderSeqNumber window windowLen (i + 1)
  else
    insertSenderSeqNumberInPlace senderSeqNumber window (windowLen - 1)
termination_by windowLen.toNat - i.toNat
decreasing_by
  have bound := windowLen.toNat_lt
  rw [toNat_succ (by omega)]
  omega

/-- `update_replay_window`, in the array. -/
def updateReplayWindowInPlace (senderSeqNumber : UInt64)
    (window : List UInt64) (windowLen : UInt8) : Outcome (List UInt64) :=
  updateReplayWindowLoop senderSeqNumber window windowLen 0

/-! ## What the loops return -/

section Loops

variable {moved others window : List UInt64} {entry number : UInt64}
  {position windowLen i j : UInt8} {count : Nat}

theorem windowEntry_append (front : List UInt64) (entry : UInt64)
    (back : List UInt64) :
    windowEntry (front ++ entry :: back) front.length = .ok entry := by
  unfold windowEntry
  rw [List.getElem?_append_right (Nat.le_refl _), Nat.sub_self,
    List.getElem?_cons_zero]

theorem setWindowEntry_append (front : List UInt64) (entry : UInt64)
    (back : List UInt64) (number : UInt64) :
    setWindowEntry (front ++ entry :: back) front.length number =
      .ok (front ++ number :: back) := by
  unfold setWindowEntry
  rw [if_pos (by rw [List.length_append, List.length_cons]; omega),
    List.set_append_right _ _ (Nat.le_refl _), Nat.sub_self,
    List.set_cons_zero]

/-- With the entries in front of `j` moved down, the loop moves those up to the
position. -/
theorem insertSenderSeqNumberLoop_run (started : moved.length = j.toNat)
    (ends : position.toNat = j.toNat + count) (room : count ≤ others.length) :
    insertSenderSeqNumberLoop position j (moved ++ entry :: others) =
      .ok (moved ++ (others.take count ++ (entry :: others).drop count)) := by
  induction count generalizing moved entry others j with
  | zero =>
      rw [insertSenderSeqNumberLoop, if_neg (by omega)]
      rfl
  | succ count inductionHypothesis =>
      cases others with
      | nil =>
          exact absurd room (Nat.not_succ_le_zero count)
      | cons next others =>
          have bound := position.toNat_lt
          have small : j.toNat < 255 := by
            omega
          have counted := toNat_succ small
          have read :
              windowEntry (moved ++ entry :: next :: others) (j.toNat + 1) =
                .ok next := by
            have found := windowEntry_append (moved ++ [entry]) next others
            rw [List.length_append, started, List.append_assoc] at found
            exact found
          have stored :=
            setWindowEntry_append moved entry (next :: others) next
          rw [started] at stored
          have rest :=
            @inductionHypothesis (moved ++ [next]) others next (j + 1)
              (by rw [List.length_append, started, counted]; rfl)
              (by omega) (Nat.le_of_succ_le_succ room)
          rw [List.append_assoc, List.append_assoc] at rest
          rw [insertSenderSeqNumberLoop, if_pos (by omega), read,
            outcome_ok_bind, stored, outcome_ok_bind]
          exact rest

/-- The insertion in the array is that of the model. -/
theorem insertSenderSeqNumberInPlace_run
    (room : position.toNat ≤ others.length) :
    insertSenderSeqNumberInPlace number (entry :: others) position =
      .ok
        (insertSenderSeqNumber number (entry :: others) position.toNat) := by
  have shifted :=
    @insertSenderSeqNumberLoop_run [] others entry position 0 position.toNat
      rfl (Nat.zero_add _).symm room
  have length : (others.take position.toNat).length = position.toNat :=
    List.length_take_of_le room
  obtain ⟨dropped, behind, split⟩ :=
    @List.exists_cons_of_length_pos _
      ((entry :: others).drop position.toNat)
      (by rw [List.length_drop, List.length_cons]; omega)
  have isBehind := congrArg List.tail split
  rw [List.tail_drop, List.tail_cons] at isBehind
  have stored :=
    setWindowEntry_append (others.take position.toNat) dropped behind number
  rw [length, ← split, ← isBehind] at stored
  unfold insertSenderSeqNumberInPlace
  rw [← List.nil_append (entry :: others), shifted, outcome_ok_bind,
    List.nil_append]
  exact stored

theorem replayPosition_le (number entry : UInt64) (others : List UInt64) :
    replayPosition number (entry :: others) ≤ others.length := by
  induction others generalizing entry with
  | nil =>
      exact Nat.le_refl 0
  | cons next others inductionHypothesis =>
      rw [replayPosition, List.length_cons]
      split
      · exact Nat.zero_le _
      · have behind := inductionHypothesis next
        omega

/-- In front of the gap the loop of `update_replay_window` goes on. -/
theorem isGap_append (front : List UInt64) (next : UInt64)
    (back : List UInt64) (atEntry : front.length = i.toNat) :
    isGap number (front ++ entry :: next :: back) i =
      .ok (decide (entry < number ∧ number < next)) := by
  have read :
      windowEntry (front ++ entry :: next :: back) i.toNat = .ok entry := by
    rw [← atEntry]
    exact windowEntry_append front entry (next :: back)
  have readNext :
      windowEntry (front ++ entry :: next :: back) (i.toNat + 1) =
        .ok next := by
    have found := windowEntry_append (front ++ [entry]) next back
    rw [List.length_append, atEntry, List.append_assoc] at found
    exact found
  unfold isGap
  rw [read, outcome_ok_bind]
  by_cases above : entry < number
  · rw [if_pos above, readNext, outcome_ok_bind]
    simp only [above, true_and]
  · rw [if_neg above]
    simp only [above, false_and, decide_false]

/-- From an entry on, the loop inserts at the position that the model finds. -/
theorem updateReplayWindowLoop_run (front : List UInt64)
    (atEntry : front.length = i.toNat)
    (lengthIs : (front ++ entry :: others).length = windowLen.toNat) :
    updateReplayWindowLoop number (front ++ entry :: others) windowLen i =
      insertSenderSeqNumberInPlace number (front ++ entry :: others)
        (UInt8.ofNat (i.toNat + replayPosition number (entry :: others))) := by
  have bound := windowLen.toNat_lt
  induction others generalizing front entry i with
  | nil =>
      rw [List.length_append, List.length_singleton] at lengthIs
      have last :
          windowLen - 1 =
            UInt8.ofNat (i.toNat + replayPosition number [entry]) := by
        apply UInt8.toNat_inj.mp
        rw [UInt8.toNat_sub_of_le, UInt8.toNat_ofNat']
        · change windowLen.toNat - 1 = (i.toNat + 0) % 2 ^ 8
          omega
        · rw [UInt8.le_iff_toNat_le]
          change 1 ≤ windowLen.toNat
          omega
      rw [updateReplayWindowLoop, if_neg (by omega), last]
  | cons next others inductionHypothesis =>
      rw [List.length_append, List.length_cons, List.length_cons] at lengthIs
      rw [updateReplayWindowLoop, if_pos (by omega),
        isGap_append front next others atEntry, outcome_ok_bind,
        replayPosition]
      by_cases gap : entry < number ∧ number < next
      · rw [if_pos (decide_eq_true gap), if_pos gap, Nat.add_zero,
          UInt8.ofNat_toNat]
      · have counted : (i + 1).toNat = i.toNat + 1 :=
          toNat_succ (by omega)
        have rest :=
          @inductionHypothesis next (i + 1) (front ++ [entry])
            (by rw [List.length_append, atEntry, counted]; rfl)
            (by
              rw [List.append_assoc, List.length_append]
              exact lengthIs)
        rw [counted, List.append_assoc, Nat.add_assoc] at rest
        rw [if_neg (by simpa using gap), if_neg gap]
        exact rest

/-- `update_replay_window` in the array returns the updated window of the
model. -/
theorem updateReplayWindowInPlace_run (nonempty : window ≠ [])
    (lengthIs : window.length = windowLen.toNat) :
    updateReplayWindowInPlace number window windowLen =
      .ok (updateReplayWindow number window) := by
  obtain ⟨entry, others, rfl⟩ := List.exists_cons_of_ne_nil nonempty
  have bound := windowLen.toNat_lt
  have position := replayPosition_le number entry others
  rw [List.length_cons] at lengthIs
  have ran :=
    @updateReplayWindowLoop_run others entry number windowLen 0 [] rfl lengthIs
  have positionIs :
      (UInt8.ofNat ((0 : UInt8).toNat +
          replayPosition number (entry :: others))).toNat =
        replayPosition number (entry :: others) := by
    rw [UInt8.toNat_ofNat']
    change (0 + _) % 2 ^ 8 = _
    omega
  unfold updateReplayWindowInPlace updateReplayWindow
  rw [← List.nil_append (entry :: others), ran, List.nil_append,
    insertSenderSeqNumberInPlace_run (by rw [positionIs]; exact position),
    positionIs]

end Loops

/-! ## Sequences of updates -/

/-- The number is above the first entry of the window and not in it. -/
structure Enters (number : UInt64) (window : List UInt64) : Prop where
  above : ∀ first ∈ window.head?, first < number
  new : number ∉ window

/-- A window that takes in such numbers. -/
def windowMachine (windowLen : UInt8) : Machine (List UInt64) UInt64 Unit :=
  fun event =>
    Enters event.input event.before ∧
      updateReplayWindowInPlace event.input event.before windowLen =
        .ok event.after

/-- A sequence of updates. -/
abbrev WindowRun (windowLen : UInt8) :=
  Run (windowMachine windowLen)

section Updates

variable {window entries numbers last : List UInt64} {number : UInt64}
  {windowLen : UInt8}

/-- An update that takes in a number slides the window. -/
theorem Enters.updated (enters : Enters number window)
    (nonempty : window ≠ []) (ascending : window.Pairwise (· ≤ ·))
    (lengthIs : window.length = windowLen.toNat) :
    ∃ first others, window = first :: others ∧ first < number ∧
      updateReplayWindowInPlace number window windowLen =
        .ok (slide number window) := by
  obtain ⟨first, others, rfl⟩ := List.exists_cons_of_ne_nil nonempty
  have above := enters.above first rfl
  have absent : number ∉ others := fun member =>
    enters.new (List.mem_cons_of_mem first member)
  refine ⟨first, others, rfl, above, ?_⟩
  rw [updateReplayWindowInPlace_run nonempty lengthIs,
    updateReplayWindow_eq_slide ascending above absent]

/-- What a sequence of updates preserves, behind other numbers. -/
theorem WindowRun.holdsLargest {events : List (Event (List UInt64) UInt64 Unit)}
    (run : WindowRun windowLen window events last)
    (holds : HoldsLargest entries numbers window) (nonempty : entries ≠ [])
    (lengthIs : entries.length = windowLen.toNat) :
    HoldsLargest entries (numbers ++ events.map Event.input) last := by
  induction run generalizing numbers with
  | nil =>
      rw [List.map_nil, List.append_nil]
      exact holds
  | @cons event events last step _ inductionHypothesis =>
      obtain ⟨enters, updated⟩ := step
      have sameLength := holds.length
      have nonemptyBefore : event.before ≠ [] := by
        intro empty
        rw [empty] at sameLength
        exact nonempty (List.eq_nil_of_length_eq_zero sameLength.symm)
      obtain ⟨first, others, isWindow, above, slides⟩ :=
        enters.updated nonemptyBefore holds.ascending
          (sameLength.trans lengthIs)
      rw [slides, Except.ok.injEq] at updated
      have next :
          HoldsLargest entries (numbers ++ [event.input]) event.after := by
        rw [isWindow] at holds updated
        rw [← updated]
        exact
          HoldsLargest.perm (holds.slide above)
            (List.perm_append_singleton event.input numbers).symm
      have kept := inductionHypothesis next
      rw [List.append_assoc] at kept
      exact kept

end Updates

/-- An update of an ascending window with a new number above its first entry
replaces the smallest entry, and after any sequence of such updates the window
consists of the largest of its first entries and the numbers. -/
theorem replayWindow_keepsLargest (windowLen : UInt8) (window : List UInt64)
    (atLeastTwo : 2 ≤ windowLen.toNat)
    (lengthIs : window.length = windowLen.toNat)
    (ascending : window.Pairwise (· ≤ ·)) :
    (∀ number, Enters number window →
        ∃ updated,
          updateReplayWindowInPlace number window windowLen = .ok updated ∧
            ReplacesSmallest number window updated) ∧
      ∀ events last, WindowRun windowLen window events last →
        HoldsLargest window (events.map Event.input) last := by
  have nonempty : window ≠ [] := by
    intro empty
    rw [empty, List.length_nil] at lengthIs
    omega
  constructor
  · intro number enters
    obtain ⟨first, others, rfl, above, slides⟩ :=
      enters.updated nonempty ascending lengthIs
    exact ⟨_, slides, slide_replacesSmallest ascending above⟩
  · intro events last run
    exact
      run.holdsLargest (holdsLargest_nil ascending) nonempty lengthIs

/-- A window of four entries that takes in 3 and 9. -/
theorem replayWindow_keepsLargest_four :
    ReplacesSmallest (3 : UInt64) [0, 0, 0, 5] [0, 0, 3, 5] ∧
      HoldsLargest ([0, 0, 0, 5] : List UInt64) [3, 9] [0, 3, 5, 9] := by
  obtain ⟨replaces, keeps⟩ :=
    replayWindow_keepsLargest 4 [0, 0, 0, 5] (by decide) rfl (by decide)
  have third : Enters 3 [0, 0, 0, 5] := ⟨by simp, by decide⟩
  have ninth : Enters 9 [0, 0, 3, 5] := ⟨by simp, by decide⟩
  have thirdUpdate :
      updateReplayWindowInPlace 3 [0, 0, 0, 5] 4 = .ok [0, 0, 3, 5] :=
    updateReplayWindowInPlace_run (List.cons_ne_nil _ _) rfl
  have ninthUpdate :
      updateReplayWindowInPlace 9 [0, 0, 3, 5] 4 = .ok [0, 3, 5, 9] :=
    updateReplayWindowInPlace_run (List.cons_ne_nil _ _) rfl
  constructor
  · obtain ⟨updated, ran, replaced⟩ := replaces 3 third
    rw [thirdUpdate, Except.ok.injEq] at ran
    rw [ran]
    exact replaced
  · have run :
        WindowRun 4 [0, 0, 0, 5]
          [⟨[0, 0, 0, 5], 3, (), [0, 0, 3, 5]⟩,
            ⟨[0, 0, 3, 5], 9, (), [0, 3, 5, 9]⟩] [0, 3, 5, 9] :=
      Run.cons_iff.mpr
        ⟨rfl, ⟨third, thirdUpdate⟩,
          Run.cons_iff.mpr ⟨rfl, ⟨ninth, ninthUpdate⟩, .nil _⟩⟩
    exact keeps _ _ run

end UoscoreUedhoc.Oscore
