import Mathlib.Algebra.Group.Int.Defs
import Mathlib.Algebra.GroupWithZero.Nat
import Mathlib.Data.List.Basic
import Mathlib.Tactic.Common

/-!
# Outcomes, buffers and updates

The C functions of the library return an `enum err`, read and write through
pointers, and leave whatever they wrote before an error return in place.  This
module fixes how the rest of the development renders these three things:

* a call ends in a value, in an error code, or in a step whose behaviour C
  leaves undefined (an access outside a buffer, a read of memory that nothing
  has written, a dereferenced null pointer);
* a pointer into a buffer is the list of the bytes from that position to the
  end of the buffer, so that advancing it is `List.drop`; the null pointer and
  a pointer past the end are both the empty list, which nothing can be read
  from;
* a function that updates a structure is a computation over that structure
  which keeps the writes made before an error.
-/

namespace UoscoreUedhoc

/-- A byte string, or the bytes from a pointer to the end of its buffer. -/
abbrev Bytes := List UInt8

/-- `enum err` without `ok`. -/
inductive Err where
  | bufferToSmall
  | hkdfFialed
  | unexpectedResultFromExtLib
  | wrongParameter
  | cryptoOperationNotImplemented
  | errorMessageReceived
  | errorMessageSent
  | signFailed
  | shaFailed
  | unsupportedCipherSuite
  | unsupportedEcdhCurve
  | unsupportedSignatureAlgorithm
  | signatureAuthenticationFailed
  | macAuthenticationFailed
  | certificateAuthenticationFailed
  | credentialNotFound
  | noSuchCa
  | cborEncodingError
  | suitesIListToLong
  | oscoreUnknownHkdf
  | oscoreInvalidAlgorithmAead
  | oscoreInvalidAlgorithmHkdf
  | oscoreKidRecipentIdMismatch
  | oscoreValuelenToLongError
  | oscoreInpktInvalidTkl
  | oscoreInpktInvalidOptionDelta
  | oscoreInpktInvalidOptionlen
  | oscoreInpktInvalidPiv
  | notValidInputPacket
  | replayedPackedReceived
  deriving DecidableEq, Repr

/-- Why a call did not return `ok`. -/
inductive Fault where
  | err (code : Err)
  | undefinedBehaviour
  deriving DecidableEq, Repr

/-- What a call returns: a value where the C code returns `ok`. -/
abbrev Outcome := Except Fault

/-- Return an error code. -/
def fail {α : Type} (code : Err) : Outcome α :=
  .error (.err code)

/-- A step whose behaviour C leaves undefined. -/
def undefinedBehaviour {α : Type} : Outcome α :=
  .error .undefinedBehaviour

/-! ## Sequencing -/

section Sequencing

variable {α β : Type}

@[simp]
theorem outcome_ok_bind (value : α) (next : α → Outcome β) :
    (Except.ok value >>= next : Outcome β) = next value := rfl

@[simp]
theorem outcome_error_bind (fault : Fault) (next : α → Outcome β) :
    (Except.error fault >>= next : Outcome β) = .error fault := rfl

@[simp]
theorem outcome_pure (value : α) :
    (pure value : Outcome α) = .ok value := rfl

/-- `TRY`: a sequence returns `ok` exactly when both parts do. -/
theorem outcome_bind_eq_ok
    {first : Outcome α} {next : α → Outcome β} {result : β} :
    (first >>= next) = .ok result ↔
      ∃ value, first = .ok value ∧ next value = .ok result := by
  cases first with
  | error fault =>
      simp
  | ok value =>
      simp

/-- A sequence fails in its first part or, after that succeeded, in the
second. -/
theorem outcome_bind_eq_error
    {first : Outcome α} {next : α → Outcome β} {fault : Fault} :
    (first >>= next) = .error fault ↔
      first = .error fault ∨
        ∃ value, first = .ok value ∧ next value = .error fault := by
  cases first with
  | error other =>
      simp
  | ok value =>
      simp

theorem outcome_bind_congr {first : Outcome α} {next other : α → Outcome β}
    (same : ∀ value, next value = other value) :
    first >>= next = first >>= other :=
  congrArg (first >>= ·) (funext same)

theorem outcome_bind_eq_undefined {first : Outcome α}
    {next : α → Outcome β} :
    first >>= next = undefinedBehaviour ↔
      first = undefinedBehaviour ∨
        ∃ value, first = .ok value ∧ next value = undefinedBehaviour :=
  outcome_bind_eq_error

/-- One run returns what another one returns, wherever that is defined. -/
def Follows (recorded original : Outcome α) : Prop :=
  original = undefinedBehaviour ∨ recorded = original

theorem Follows.refl (outcome : Outcome α) : Follows outcome outcome :=
  Or.inr rfl

theorem Follows.bind {first original : Outcome α}
    {next following : α → Outcome β} (firstFollows : Follows first original)
    (nextFollows : ∀ value, Follows (next value) (following value)) :
    Follows (first >>= next) (original >>= following) := by
  rcases firstFollows with undefinedStep | rfl
  · rw [undefinedStep]
    exact Or.inl rfl
  · cases first with
    | error fault =>
        exact Or.inr rfl
    | ok value =>
        exact nextFollows value

/-- A sequence of defined parts is defined. -/
theorem outcome_bind_defined {first : Outcome α} {next : α → Outcome β}
    (firstDefined : first ≠ .error .undefinedBehaviour)
    (nextDefined : ∀ value, first = .ok value →
      next value ≠ .error .undefinedBehaviour) :
    (first >>= next) ≠ .error .undefinedBehaviour := by
  intro undefinedStep
  rcases outcome_bind_eq_error.mp undefinedStep with
    failed | ⟨value, succeeded, failed⟩
  · exact firstDefined failed
  · exact nextDefined value succeeded failed

theorem outcome_map_eq_ok
    {first : Outcome α} {change : α → β} {result : β} :
    first.map change = .ok result ↔
      ∃ value, first = .ok value ∧ change value = result := by
  cases first with
  | error fault =>
      simp [Except.map]
  | ok value =>
      simp [Except.map]

/-- A value that is there, where C leaves undefined what happens when it is
not: a variable read before it is written, an access outside a buffer. -/
def orUndefined : Option α → Outcome α
  | some value => .ok value
  | none => undefinedBehaviour

@[simp]
theorem orUndefined_some (value : α) : orUndefined (some value) = .ok value :=
  rfl

@[simp]
theorem orUndefined_none :
    orUndefined (none : Option α) = undefinedBehaviour := rfl

@[simp]
theorem orUndefined_eq_ok {result : Option α} {value : α} :
    orUndefined result = .ok value ↔ result = some value := by
  cases result with
  | none =>
      simp [undefinedBehaviour]
  | some other =>
      simp

end Sequencing

/-! ## Bounded copies -/

/-- The value of a difference of lengths as a `uint32_t`. -/
def uint32 (value : Int) : Nat :=
  (value % 2 ^ 32).toNat

theorem uint32_of_nonneg {value : Int} (nonneg : 0 ≤ value)
    (small : value < 2 ^ 32) : uint32 value = value.toNat := by
  unfold uint32
  rw [Int.emod_eq_of_lt nonneg small]

/-- `check_buffer_size`. -/
def checkBufferSize (isSize requiredSize : Nat) : Outcome Unit :=
  if isSize < requiredSize then fail .bufferToSmall else .ok ()

/-- `_memcpy_s`: the bytes copied from `source`. -/
def memcpyS (destLen : Nat) (source : Bytes) (sourceLen : Nat) :
    Outcome Bytes := do
  checkBufferSize destLen sourceLen
  if source.length < sourceLen then
    undefinedBehaviour
  else
    .ok (source.take sourceLen)

theorem checkBufferSize_eq_ok {isSize requiredSize : Nat} {done : Unit} :
    checkBufferSize isSize requiredSize = .ok done ↔
      requiredSize ≤ isSize := by
  unfold checkBufferSize fail
  split
  · simp
    omega
  · simp
    omega

theorem checkBufferSize_of_le {isSize requiredSize : Nat}
    (fits : requiredSize ≤ isSize) :
    checkBufferSize isSize requiredSize = .ok () :=
  checkBufferSize_eq_ok.mpr fits

theorem memcpyS_eq_ok {destLen sourceLen : Nat} {source copied : Bytes} :
    memcpyS destLen source sourceLen = .ok copied ↔
      sourceLen ≤ destLen ∧ sourceLen ≤ source.length ∧
        copied = source.take sourceLen := by
  unfold memcpyS
  simp only [outcome_bind_eq_ok, checkBufferSize_eq_ok]
  constructor
  · rintro ⟨_, fits, copy⟩
    split at copy
    · cases copy
    · simp only [Except.ok.injEq] at copy
      exact ⟨fits, by omega, copy.symm⟩
  · rintro ⟨fits, available, rfl⟩
    refine ⟨(), fits, ?_⟩
    rw [if_neg (by omega)]

/-- A copy is refused when the destination is too small. -/
theorem memcpyS_eq_err {destLen sourceLen : Nat} {source : Bytes}
    {code : Err}
    (refused : memcpyS destLen source sourceLen = .error (.err code)) :
    destLen < sourceLen := by
  by_contra fits
  unfold memcpyS at refused
  rw [checkBufferSize_of_le (Nat.le_of_not_lt fits), outcome_ok_bind] at refused
  split at refused
  · cases refused
  · cases refused

/-- A copy reads behind its source where the check lets it pass. -/
theorem memcpyS_eq_undefined {destLen sourceLen : Nat} {source : Bytes} :
    memcpyS destLen source sourceLen = undefinedBehaviour ↔
      sourceLen ≤ destLen ∧ source.length < sourceLen := by
  unfold memcpyS
  by_cases fits : sourceLen ≤ destLen
  · rw [checkBufferSize_of_le fits, outcome_ok_bind]
    split
    · rename_i overrun
      exact iff_of_true rfl ⟨fits, overrun⟩
    · rename_i available
      simp [undefinedBehaviour, available]
  · have refused : checkBufferSize destLen sourceLen = fail .bufferToSmall :=
      if_pos (Nat.lt_of_not_le fits)
    rw [refused]
    apply iff_of_false
    · intro impossible
      cases impossible
    · exact fun overrun => fits overrun.1

/-- Copying a whole buffer of known length. -/
theorem memcpyS_whole {destLen : Nat} {source : Bytes}
    (fits : source.length ≤ destLen) :
    memcpyS destLen source source.length = .ok source :=
  memcpyS_eq_ok.mpr ⟨fits, Nat.le_refl _, by simp⟩

theorem memcpyS_whole_eq_ok {destLen : Nat} {source copied : Bytes} :
    memcpyS destLen source source.length = .ok copied ↔
      source.length ≤ destLen ∧ copied = source := by
  rw [memcpyS_eq_ok, List.take_length]
  constructor
  · intro run
    exact ⟨run.1, run.2.2⟩
  · intro run
    exact ⟨run.1, Nat.le_refl _, run.2⟩

/-- Copying a string out of the bytes that begin with it. -/
theorem memcpyS_append_eq_ok {destLen : Nat} {source rest copied : Bytes} :
    memcpyS destLen (source ++ rest) source.length = .ok copied ↔
      source.length ≤ destLen ∧ copied = source := by
  rw [memcpyS_eq_ok, List.take_left, List.length_append]
  constructor
  · intro run
    exact ⟨run.1, run.2.2⟩
  · intro run
    exact ⟨run.1, Nat.le_add_right _ _, run.2⟩

theorem checkBufferSize_eq_error {isSize requiredSize : Nat} {fault : Fault}
    (failed : checkBufferSize isSize requiredSize = .error fault) :
    fault = .err .bufferToSmall := by
  unfold checkBufferSize fail at failed
  split at failed
  · simp only [Except.error.injEq] at failed
    exact failed.symm
  · cases failed

theorem checkBufferSize_defined {isSize requiredSize : Nat} :
    checkBufferSize isSize requiredSize ≠ .error .undefinedBehaviour := by
  intro undefinedStep
  cases checkBufferSize_eq_error undefinedStep

theorem memcpyS_defined {destLen sourceLen : Nat} {source : Bytes}
    (available : sourceLen ≤ source.length) :
    memcpyS destLen source sourceLen ≠ .error .undefinedBehaviour := by
  intro undefinedStep
  unfold memcpyS at undefinedStep
  rcases outcome_bind_eq_error.mp undefinedStep with refused | ⟨_, _, copied⟩
  · exact checkBufferSize_defined refused
  · rw [if_neg (by omega)] at copied
    cases copied

/-- A copy of a whole buffer is refused or made. -/
theorem memcpyS_whole_eq_error {size : Nat} {source : Bytes} {fault : Fault}
    (failed : memcpyS size source source.length = .error fault) :
    fault = .err .bufferToSmall := by
  unfold memcpyS at failed
  rcases outcome_bind_eq_error.mp failed with refused | ⟨_, _, copied⟩
  · exact checkBufferSize_eq_error refused
  · simp at copied

/-! ## Byte arrays inside other buffers -/

/-- `struct byte_array` with a pointer into a larger buffer. -/
structure ByteArrayView where
  len : Nat
  ptr : Bytes
  deriving DecidableEq, Repr

/-- `NULL_ARRAY`. -/
def nullArray : ByteArrayView :=
  ⟨0, []⟩

namespace ByteArrayView

/-- The bytes the array stands for. -/
def content (view : ByteArrayView) : Bytes :=
  view.ptr.take view.len

/-- Every byte of the array lies inside the buffer. -/
def InBounds (view : ByteArrayView) : Prop :=
  view.len ≤ view.ptr.length

instance (view : ByteArrayView) : Decidable view.InBounds :=
  inferInstanceAs (Decidable (_ ≤ _))

theorem content_length {view : ByteArrayView} (inBounds : view.InBounds) :
    view.content.length = view.len := by
  exact
    List.length_take_of_le inBounds

end ByteArrayView

/-- The loop of `array_equals`, which stops at the first difference. -/
def equalsLoop : Bytes → Bytes → Outcome Bool
  | [], _ => .ok true
  | _ :: _, [] => undefinedBehaviour
  | left :: lefts, right :: rights =>
      if left = right then equalsLoop lefts rights else .ok false

/-- `array_equals`. -/
def arrayEquals (left : Bytes) (right : ByteArrayView) : Outcome Bool :=
  if left.length = right.len then equalsLoop left right.ptr else .ok false

theorem equalsLoop_eq_true {left right : Bytes} :
    equalsLoop left right = .ok true ↔ left <+: right := by
  induction left generalizing right with
  | nil =>
      simp [equalsLoop]
  | cons byte left inductionHypothesis =>
      cases right with
      | nil =>
          simp [equalsLoop, undefinedBehaviour]
      | cons other right =>
          by_cases same : byte = other
          · simp [equalsLoop, same, inductionHypothesis]
          · simp [equalsLoop, same]

theorem equalsLoop_of_length_le {left right : Bytes}
    (available : left.length ≤ right.length) :
    equalsLoop left right = .ok (decide (left <+: right)) := by
  induction left generalizing right with
  | nil =>
      simp [equalsLoop]
  | cons byte left inductionHypothesis =>
      cases right with
      | nil =>
          simp at available
      | cons other right =>
          have shorter : left.length ≤ right.length := by
            simpa using available
          by_cases same : byte = other
          · simp [equalsLoop, same, inductionHypothesis shorter]
          · simp [equalsLoop, same]

/-- `array_equals` answers `true` exactly for equal contents. -/
theorem arrayEquals_eq_true {left : Bytes} {right : ByteArrayView} :
    arrayEquals left right = .ok true ↔
      right.InBounds ∧ right.content = left := by
  unfold arrayEquals ByteArrayView.InBounds ByteArrayView.content
  split
  · rename_i sameLength
    rw [equalsLoop_eq_true, ← sameLength]
    constructor
    · intro isInit
      exact ⟨isInit.length_le, (List.prefix_iff_eq_take.mp isInit).symm⟩
    · rintro ⟨_, equal⟩
      exact List.prefix_iff_eq_take.mpr equal.symm
  · rename_i otherLength
    simp only [Except.ok.injEq, Bool.false_eq_true, false_iff, not_and]
    rintro available rfl
    exact otherLength (List.length_take_of_le available)

theorem arrayEquals_of_inBounds {left : Bytes} {right : ByteArrayView}
    (inBounds : right.InBounds) :
    arrayEquals left right = .ok (decide (right.content = left)) := by
  by_cases equal : right.content = left
  · rw [decide_eq_true equal]
    exact arrayEquals_eq_true.mpr ⟨inBounds, equal⟩
  · rw [decide_eq_false equal]
    unfold arrayEquals
    split
    · rename_i sameLength
      have available : left.length ≤ right.ptr.length := by
        rw [sameLength]
        exact inBounds
      rw [equalsLoop_of_length_le available]
      congr 1
      rw [decide_eq_false_iff_not]
      intro isInit
      apply equal
      rw [ByteArrayView.content, ← sameLength]
      exact (List.prefix_iff_eq_take.mp isInit).symm
    · rfl

theorem equalsLoop_ne_err {left right : Bytes} {code : Err} :
    equalsLoop left right ≠ .error (.err code) := by
  induction left generalizing right with
  | nil =>
      simp [equalsLoop]
  | cons byte left inductionHypothesis =>
      cases right with
      | nil =>
          simp [equalsLoop, undefinedBehaviour]
      | cons other right =>
          by_cases same : byte = other
          · simpa [equalsLoop, same] using inductionHypothesis
          · simp [equalsLoop, same]

/-- A comparison has no error code to return. -/
theorem arrayEquals_ne_err {left : Bytes} {right : ByteArrayView}
    {code : Err} : arrayEquals left right ≠ .error (.err code) := by
  unfold arrayEquals
  split
  · exact equalsLoop_ne_err
  · simp

/-! ## Updates of a structure -/

/-- A function that updates a structure `σ` through a pointer. -/
abbrev Update (σ : Type) := ExceptT Fault (StateM σ)

namespace Update

variable {σ α β : Type}

/-- Run an update: its outcome and the structure it leaves behind. -/
def exec (update : Update σ α) (state : σ) : Outcome α × σ :=
  update.run.run state

/-- A call that does not touch the structure. -/
def lift (outcome : Outcome α) : Update σ α :=
  ExceptT.mk (pure outcome)

@[simp]
theorem exec_pure (value : α) (state : σ) :
    exec (pure value : Update σ α) state = (.ok value, state) := rfl

@[simp]
theorem exec_lift (outcome : Outcome α) (state : σ) :
    exec (lift outcome : Update σ α) state = (outcome, state) := rfl

@[simp]
theorem exec_get (state : σ) :
    exec (get : Update σ σ) state = (.ok state, state) := rfl

@[simp]
theorem exec_modify (change : σ → σ) (state : σ) :
    exec (modify change : Update σ PUnit) state =
      (.ok PUnit.unit, change state) := rfl

/-- The second part runs on what the first one left, unless that failed. -/
theorem exec_bind (first : Update σ α) (next : α → Update σ β) (state : σ) :
    exec (first >>= next) state =
      match exec first state with
      | (.ok value, between) => exec (next value) between
      | (.error fault, between) => (.error fault, between) := by
  unfold exec
  simp only [ExceptT.run_bind, StateT.run_bind]
  generalize first.run.run state = step
  obtain ⟨outcome, between⟩ := step
  cases outcome <;> rfl

@[simp]
theorem exec_get_bind (next : σ → Update σ β) (state : σ) :
    exec (get >>= next) state = exec (next state) state := by
  rw [exec_bind, exec_get]

@[simp]
theorem exec_modify_bind (change : σ → σ) (next : PUnit → Update σ β)
    (state : σ) :
    exec (modify change >>= next) state =
      exec (next PUnit.unit) (change state) := by
  rw [exec_bind, exec_modify]

/-- Go on with a value, or stop with the structure as it is. -/
def andThen (outcome : Outcome α) (state : σ)
    (next : α → Outcome β × σ) : Outcome β × σ :=
  match outcome with
  | .ok value => next value
  | .error fault => (.error fault, state)

@[simp]
theorem andThen_ok (value : α) (state : σ) (next : α → Outcome β × σ) :
    andThen (.ok value) state next = next value := rfl

@[simp]
theorem andThen_error (fault : Fault) (state : σ)
    (next : α → Outcome β × σ) :
    andThen (.error fault) state next = (.error fault, state) := rfl

theorem exec_lift_bind (outcome : Outcome α) (next : α → Update σ β)
    (state : σ) :
    exec (lift outcome >>= next) state =
      andThen outcome state fun value => exec (next value) state := by
  rw [exec_bind, exec_lift]
  cases outcome <;> rfl

theorem andThen_eq_ok
    {outcome : Outcome α} {next : α → Outcome β × σ} {state final : σ}
    {result : β} :
    andThen outcome state next = (.ok result, final) ↔
      ∃ value, outcome = .ok value ∧ next value = (.ok result, final) := by
  cases outcome with
  | error fault =>
      simp
  | ok value =>
      simp

theorem andThen_eq_error
    {outcome : Outcome α} {next : α → Outcome β × σ} {state final : σ}
    {fault : Fault} :
    andThen outcome state next = (.error fault, final) ↔
      (outcome = .error fault ∧ state = final) ∨
        ∃ value, outcome = .ok value ∧
          next value = (.error fault, final) := by
  cases outcome with
  | error other =>
      simp
  | ok value =>
      simp

theorem exec_bind_eq_ok
    {first : Update σ α} {next : α → Update σ β} {state final : σ}
    {result : β} :
    exec (first >>= next) state = (.ok result, final) ↔
      ∃ value between, exec first state = (.ok value, between) ∧
        exec (next value) between = (.ok result, final) := by
  rw [exec_bind]
  obtain ⟨outcome, between⟩ := exec first state
  cases outcome with
  | error fault =>
      simp
  | ok value =>
      simp

theorem exec_bind_eq_error
    {first : Update σ α} {next : α → Update σ β} {state final : σ}
    {fault : Fault} :
    exec (first >>= next) state = (.error fault, final) ↔
      exec first state = (.error fault, final) ∨
        ∃ value between, exec first state = (.ok value, between) ∧
          exec (next value) between = (.error fault, final) := by
  rw [exec_bind]
  obtain ⟨outcome, between⟩ := exec first state
  cases outcome with
  | error other =>
      simp
  | ok value =>
      simp

/-- The outcome of what follows a call. -/
theorem exec_lift_bind_outcome (outcome : Outcome α) (next : α → Update σ β)
    (state : σ) :
    (exec (lift outcome >>= next) state).1 =
      outcome >>= fun value => (exec (next value) state).1 := by
  rw [exec_lift_bind]
  cases outcome with
  | error fault =>
      rfl
  | ok value =>
      rfl

/-- The outcome where a call comes last. -/
theorem exec_bind_lift_outcome (first : Update σ α) (next : α → Outcome β)
    (state : σ) :
    (exec (first >>= fun value => lift (next value)) state).1 =
      (exec first state).1 >>= next := by
  rw [exec_bind]
  generalize exec first state = step
  obtain ⟨outcome, between⟩ := step
  cases outcome with
  | error fault =>
      rfl
  | ok value =>
      rfl

/-- The outcome when only a change of the value follows. -/
theorem exec_bind_pure (first : Update σ α) (change : α → β) (state : σ) :
    (exec (do let value ← first; pure (change value)) state).1 =
      (exec first state).1.map change := by
  rw [exec_bind]
  obtain ⟨outcome, between⟩ := exec first state
  cases outcome <;> rfl

theorem exec_ite (condition : Prop) [Decidable condition]
    (yes no : Update σ α) (state : σ) :
    exec (if condition then yes else no) state =
      if condition then exec yes state else exec no state := by
  split <;> rfl

/-! ### What an update leaves unchanged -/

/-- A property that holds after whenever it held before. -/
def Preserves (holds : σ → Prop) (before after : σ) : Prop :=
  holds before → holds after

instance (holds : σ → Prop) : Std.Refl (Preserves holds) where
  refl _ := id

instance (holds : σ → Prop) : IsTrans σ (Preserves holds) where
  trans _ _ _ first second before := second (first before)

/-- Every run of the update, also a failing one, relates the structure before
to the structure after. -/
def Keeps (relation : σ → σ → Prop) (update : Update σ α) : Prop :=
  ∀ state, relation state (exec update state).2

section Keeps

variable {relation : σ → σ → Prop}

theorem Keeps.bind
    [IsTrans σ relation]
    {first : Update σ α} {next : α → Update σ β}
    (firstKeeps : Keeps relation first)
    (nextKeeps : ∀ value, Keeps relation (next value)) :
    Keeps relation (first >>= next) := by
  intro state
  have firstStep := firstKeeps state
  rw [exec_bind]
  generalize exec first state = step at firstStep ⊢
  obtain ⟨outcome, between⟩ := step
  cases outcome with
  | error fault =>
      exact firstStep
  | ok value =>
      exact IsTrans.trans _ _ _ firstStep (nextKeeps value between)

/-- A second part need only keep the relation after a first one that can
succeed. -/
theorem Keeps.bind_of_ok
    [IsTrans σ relation]
    {first : Update σ α} {next : α → Update σ β}
    (firstKeeps : Keeps relation first)
    (nextKeeps : ∀ value state between,
      exec first state = (.ok value, between) → Keeps relation (next value)) :
    Keeps relation (first >>= next) := by
  intro state
  have firstStep := firstKeeps state
  rw [exec_bind]
  cases ran : exec first state with
  | mk outcome between =>
      rw [ran] at firstStep
      cases outcome with
      | error fault =>
          exact firstStep
      | ok value =>
          exact
            IsTrans.trans _ _ _ firstStep
              (nextKeeps value state between ran between)

theorem Keeps.mono {weaker : σ → σ → Prop} {update : Update σ α}
    (keeps : Keeps relation update)
    (implies : ∀ before after, relation before after → weaker before after) :
    Keeps weaker update :=
  fun state => implies _ _ (keeps state)

/-- A first part that changes nothing. -/
theorem Keeps.bind_left
    [Std.Refl relation]
    {first : Update σ α} {next : α → Update σ β}
    (firstKeeps : Keeps Eq first)
    (nextKeeps : ∀ value, Keeps relation (next value)) :
    Keeps relation (first >>= next) := by
  intro state
  have firstStep := firstKeeps state
  rw [exec_bind]
  generalize exec first state = step at firstStep ⊢
  obtain ⟨outcome, between⟩ := step
  dsimp only at firstStep
  subst firstStep
  cases outcome with
  | error fault =>
      exact refl state
  | ok value =>
      exact nextKeeps value state

/-- A second part that changes nothing. -/
theorem Keeps.bind_right
    {first : Update σ α} {next : α → Update σ β}
    (firstKeeps : Keeps relation first)
    (nextKeeps : ∀ value, Keeps Eq (next value)) :
    Keeps relation (first >>= next) := by
  intro state
  have firstStep := firstKeeps state
  rw [exec_bind]
  generalize exec first state = step at firstStep ⊢
  obtain ⟨outcome, between⟩ := step
  cases outcome with
  | error fault =>
      exact firstStep
  | ok value =>
      have nextStep := nextKeeps value between
      dsimp only at nextStep ⊢
      rw [← nextStep]
      exact firstStep

/-- A second part that changes nothing leaves what the first one left. -/
theorem exec_bind_state {first : Update σ α} {next : α → Update σ β}
    (nextKeeps : ∀ value, Keeps Eq (next value)) (state : σ) :
    (exec (first >>= next) state).2 = (exec first state).2 := by
  rw [exec_bind]
  obtain ⟨outcome, between⟩ := exec first state
  cases outcome with
  | error fault =>
      rfl
  | ok value =>
      exact (nextKeeps value between).symm

theorem Keeps.pure [Std.Refl relation] (value : α) :
    Keeps relation (Pure.pure value : Update σ α) :=
  fun state => refl state

theorem Keeps.lift [Std.Refl relation] (outcome : Outcome α) :
    Keeps relation (Update.lift outcome : Update σ α) :=
  fun state => refl state

theorem Keeps.get [Std.Refl relation] :
    Keeps relation (MonadState.get : Update σ σ) :=
  fun state => refl state

theorem Keeps.modify {change : σ → σ}
    (kept : ∀ state, relation state (change state)) :
    Keeps relation (modify change : Update σ PUnit) :=
  kept

/-- What follows a call need only keep the relation for what the call can
return. -/
theorem Keeps.lift_bind [Std.Refl relation]
    {outcome : Outcome α} {next : α → Update σ β}
    (nextKeeps : ∀ value, outcome = .ok value → Keeps relation (next value)) :
    Keeps relation (Update.lift outcome >>= next) := by
  intro state
  rw [exec_lift_bind]
  cases outcome with
  | error fault =>
      exact refl state
  | ok value =>
      exact nextKeeps value rfl state

/-- What a second part keeps it keeps of what the first one left. -/
theorem Keeps.behind [Std.Refl relation]
    {first : Update σ α} {next : α → Update σ β}
    (nextKeeps : ∀ value, Keeps relation (next value)) (state : σ) :
    relation (exec first state).2 (exec (first >>= next) state).2 := by
  rw [exec_bind]
  generalize exec first state = step
  obtain ⟨outcome, between⟩ := step
  cases outcome with
  | error fault =>
      exact refl between
  | ok value =>
      exact nextKeeps value between

/-- A field is computed from the structure and written to it. -/
theorem keeps_compute [Std.Refl relation] [IsTrans σ relation]
    {compute : σ → Outcome α} {change : α → σ → σ} {next : Update σ β}
    (written : ∀ state value, compute state = .ok value →
      relation state (change value state))
    (nextKeeps : Keeps relation next) :
    Keeps relation (do
      let state ← MonadState.get
      let value ← Update.lift (compute state)
      modify (change value)
      next) := by
  intro state
  rw [exec_get_bind, exec_lift_bind]
  cases computed : compute state with
  | error fault =>
      exact refl state
  | ok value =>
      rw [andThen_ok, exec_modify_bind]
      exact
        IsTrans.trans _ _ _ (written state value computed)
          (nextKeeps (change value state))

/-- The same with nothing behind it. -/
theorem keeps_compute_last [Std.Refl relation]
    {compute : σ → Outcome α} {change : α → σ → σ}
    (written : ∀ state value, compute state = .ok value →
      relation state (change value state)) :
    Keeps relation (do
      let state ← MonadState.get
      let value ← Update.lift (compute state)
      modify (change value)) := by
  intro state
  rw [exec_get_bind, exec_lift_bind]
  cases computed : compute state with
  | error fault =>
      exact refl state
  | ok value =>
      exact written state value computed

theorem Keeps.ite {condition : Prop} [Decidable condition]
    {yes no : Update σ α} (yesKeeps : Keeps relation yes)
    (noKeeps : Keeps relation no) :
    Keeps relation (if condition then yes else no) := by
  split
  · exact yesKeeps
  · exact noKeeps

end Keeps

/-! ### Updates without undefined behaviour -/

/-- The update ends in a value or in an error code. -/
def Defined (update : Update σ α) : Prop :=
  ∀ state, (exec update state).1 ≠ .error .undefinedBehaviour

theorem Defined.bind {first : Update σ α} {next : α → Update σ β}
    (firstDefined : Defined first) (nextDefined : ∀ value, Defined (next value)) :
    Defined (first >>= next) := by
  intro state
  have firstStep := firstDefined state
  rw [exec_bind]
  generalize exec first state = step at firstStep ⊢
  obtain ⟨outcome, between⟩ := step
  cases outcome with
  | error fault =>
      intro undefinedStep
      apply firstStep
      exact congrArg Except.error (Except.error.inj undefinedStep)
  | ok value =>
      exact nextDefined value between

theorem Defined.pure (value : α) :
    Defined (Pure.pure value : Update σ α) := by
  intro state impossible
  cases impossible

theorem Defined.lift {outcome : Outcome α}
    (defined : outcome ≠ .error .undefinedBehaviour) :
    Defined (Update.lift outcome : Update σ α) :=
  fun _ => defined

/-- What follows a call need only be defined for what the call can return. -/
theorem Defined.lift_bind {outcome : Outcome α} {next : α → Update σ β}
    (defined : outcome ≠ .error .undefinedBehaviour)
    (nextDefined : ∀ value, outcome = .ok value → Defined (next value)) :
    Defined (Update.lift outcome >>= next) := by
  intro state
  rw [exec_lift_bind]
  cases outcome with
  | error fault =>
      intro undefinedStep
      apply defined
      exact congrArg Except.error (Except.error.inj undefinedStep)
  | ok value =>
      exact nextDefined value rfl state

theorem Defined.modify {change : σ → σ} :
    Defined (modify change : Update σ PUnit) := by
  intro state impossible
  cases impossible

theorem Defined.get : Defined (get : Update σ σ) := by
  intro state impossible
  cases impossible

theorem Defined.ite {condition : Prop} [Decidable condition]
    {yes no : Update σ α} (yesDefined : condition → Defined yes)
    (noDefined : ¬ condition → Defined no) :
    Defined (if condition then yes else no) := by
  split
  · rename_i holds
    exact yesDefined holds
  · rename_i fails
    exact noDefined fails

/-! ### Updates whose outcome does not depend on the structure -/

/-- The update returns this outcome, whatever structure it runs on. -/
def Returns (update : Update σ α) (outcome : Outcome α) : Prop :=
  ∀ state, (exec update state).1 = outcome

theorem Returns.bind {first : Update σ α} {next : α → Update σ β}
    {outcome : Outcome α} {following : α → Outcome β}
    (firstReturns : Returns first outcome)
    (nextReturns : ∀ value, Returns (next value) (following value)) :
    Returns (first >>= next) (outcome >>= following) := by
  intro state
  have firstStep := firstReturns state
  rw [exec_bind]
  generalize exec first state = step at firstStep ⊢
  obtain ⟨firstOutcome, between⟩ := step
  dsimp only at firstStep
  rw [← firstStep]
  cases firstOutcome with
  | error fault =>
      rfl
  | ok value =>
      exact nextReturns value between

/-- A first part that always succeeds. -/
theorem Returns.bind_of_ok {first : Update σ α} {next : α → Update σ β}
    {value : α} {outcome : Outcome β}
    (firstReturns : Returns first (.ok value))
    (nextReturns : Returns (next value) outcome) :
    Returns (first >>= next) outcome := by
  intro state
  have firstStep := firstReturns state
  rw [exec_bind]
  generalize exec first state = step at firstStep ⊢
  obtain ⟨firstOutcome, between⟩ := step
  dsimp only at firstStep
  rw [firstStep]
  exact nextReturns between

theorem Returns.pure (value : α) :
    Returns (Pure.pure value : Update σ α) (.ok value) :=
  fun _ => rfl

theorem Returns.lift (outcome : Outcome α) :
    Returns (Update.lift outcome : Update σ α) outcome :=
  fun _ => rfl

theorem Returns.modify {change : σ → σ} :
    Returns (modify change : Update σ PUnit) (.ok PUnit.unit) :=
  fun _ => rfl

theorem Returns.ite {condition : Prop} [Decidable condition]
    {yes no : Update σ α} {yesOutcome noOutcome : Outcome α}
    (yesReturns : Returns yes yesOutcome)
    (noReturns : Returns no noOutcome) :
    Returns (if condition then yes else no)
      (if condition then yesOutcome else noOutcome) := by
  split
  · exact yesReturns
  · exact noReturns

end Update

end UoscoreUedhoc
