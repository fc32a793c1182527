import UoscoreUedhoc.Edhoc.MacVerification

/-!
# The copies of `msg2_parse`

`msg2_parse` makes up to three copies out of the strings of `message_2`.  The
first one may read beyond a short `G_Y_CIPHERTEXT_2`, but the length of the
second one then wraps around and is refused.  The third one is bounded by the
length of `C_R` itself, which `c_x_set` has stored over the size of the buffer.
-/

namespace UoscoreUedhoc.Edhoc

open UoscoreUedhoc Update

/-! ## What is asked of the parser -/

/-- The bytes come from inside the string and go to inside the destination. -/
def Copy.InBounds (copy : Copy) : Prop :=
  copy.offset + copy.len ≤ copy.string ∧ copy.len ≤ copy.room

/-- The call returns an error, or `ok` after copies that were in bounds. -/
def CopiesInBounds (run : Outcome ParsedMsg2 × List Copy) : Prop :=
  (∃ code, run.1 = .error (.err code)) ∨
    ((∃ parsed, run.1 = .ok parsed) ∧ ∀ copy ∈ run.2, copy.InBounds)

/-- `G_Y_CIPHERTEXT_2` holds `G_Y` and no more than there is room for. -/
def M2.GYFits (m : M2) (gYLen ciphertext2Len : Nat) : Prop :=
  gYLen ≤ m.gYCiphertext2.len ∧
    m.gYCiphertext2.len ≤ gYLen + ciphertext2Len

/-- `C_R` is an integer or fits into the buffer for it. -/
def M2.CRFits (m : M2) (cRLen : Nat) : Prop :=
  ∀ view, m.cR = .bstr view → view.len ≤ cRLen

/-- `msg2_parse` is in bounds, and refuses strings that are too long or too
short. -/
def ParsesSafely (platform : EdhocPlatform) (msg2 behind : Bytes)
    (gYLen cRLen ciphertext2Len : Nat) : Prop :=
  let run :=
    exec (msg2Parse platform msg2 behind gYLen cRLen ciphertext2Len) []
  CopiesInBounds run ∧
    ∀ m, cborDecodeM2 platform msg2 = .ok m →
      ¬ (m.GYFits gYLen ciphertext2Len ∧ m.CRFits cRLen) →
        ∃ code, run.1 = .error (.err code)

/-! ## One copy -/

section Copies

theorem exec_copyFrom {string : ByteArrayView} {offset len destLen room : Nat}
    {copies : List Copy} :
    exec (copyFrom string offset len destLen room) copies =
      if destLen < len then
        (fail .bufferToSmall, copies)
      else
        (if string.ptr.length < offset + len ∨ room < len then
            undefinedBehaviour
          else
            .ok ((string.ptr.drop offset).take len),
          copies ++ [⟨string.len, offset, len, room⟩]) := by
  unfold copyFrom
  rw [exec_lift_bind]
  by_cases refused : destLen < len
  · rw [if_pos refused]
    simp only [checkBufferSize, if_pos refused, fail, andThen_error]
  · rw [if_neg refused, checkBufferSize_of_le (Nat.le_of_not_lt refused),
      andThen_ok, exec_modify_bind, exec_lift]

theorem exec_copyFrom_of_le {string : ByteArrayView}
    {offset len destLen room : Nat} {copies : List Copy}
    (offered : len ≤ destLen) (available : offset + len ≤ string.ptr.length)
    (fits : len ≤ room) :
    exec (copyFrom string offset len destLen room) copies =
      (.ok ((string.ptr.drop offset).take len),
        copies ++ [⟨string.len, offset, len, room⟩]) := by
  rw [exec_copyFrom, if_neg (by omega), if_neg (by omega)]

end Copies

/-! ## Decoded strings -/

section Strings

variable {platform : EdhocPlatform}

/-- A decoded string lies inside the payload, behind a head of at most nine
bytes. -/
theorem string_inBounds {zcbor : ZcborDecoder} {state rest : DecodeState}
    {view : ByteArrayView}
    (read : Decoding.string zcbor.bstr state = some (view, rest)) :
    view.InBounds ∧ state.payload.length ≤ view.ptr.length + 9 ∧
      view.ptr.length ≤ state.payload.length := by
  unfold Decoding.string Decoding.item at read
  split at read
  · cases read
  · simp only [Option.map_eq_some_iff, Prod.mk.injEq, Prod.exists] at read
    obtain ⟨_, _, ⟨head, length, decoded, rfl, rfl⟩, rfl, _⟩ := read
    obtain ⟨_, headShort, inside⟩ := zcbor.bstr_inBounds decoded
    simp only [ByteArrayView.InBounds, List.length_drop]
    omega

theorem cxItem_inBounds {zcbor : ZcborDecoder} {state rest : DecodeState}
    {view : ByteArrayView}
    (read : CxItem.decode zcbor state = some (.bstr view, rest)) :
    view.InBounds := by
  unfold CxItem.decode Decoding.orElse at read
  cases isInt : Decoding.asMember CxItem.int
      (Decoding.item zcbor.int32) state with
  | some result =>
      rw [isInt] at read
      simp only [Option.some.injEq] at read
      subst read
      simp [Decoding.asMember] at isInt
  | none =>
      rw [isInt] at read
      unfold Decoding.asMember at read
      simp only [Option.map_eq_some_iff, Prod.mk.injEq, Prod.exists,
        CxItem.bstr.injEq] at read
      obtain ⟨_, _, string, rfl, _⟩ := read
      exact (string_inBounds string).1

theorem cborDecodeM2_inBounds {msg2 : Bytes} {m : M2}
    (decoded : cborDecodeM2 platform msg2 = .ok m) :
    m.gYCiphertext2.InBounds ∧
      msg2.length ≤ m.gYCiphertext2.ptr.length + 9 ∧
      m.gYCiphertext2.ptr.length ≤ msg2.length ∧
      ∀ view, m.cR = .bstr view → view.InBounds := by
  unfold cborDecodeM2 Decoding.decode M2.decode at decoded
  rw [tryExpect_eq_ok, Option.map_eq_some_iff] at decoded
  obtain ⟨⟨_, final⟩, read, rfl⟩ := decoded
  obtain ⟨gYCiphertext2, rest, string, read⟩ := Decoding.andThen_eq_some.mp read
  unfold Decoding.asMember at read
  simp only [Option.map_eq_some_iff, Prod.mk.injEq, Prod.exists] at read
  obtain ⟨cR, _, readCR, rfl, _⟩ := read
  obtain ⟨inBounds, headShort, inside⟩ := string_inBounds string
  refine ⟨inBounds, headShort, inside, ?_⟩
  intro view isBstr
  dsimp only at isBstr
  rw [isBstr] at readCR
  exact cxItem_inBounds readCR

end Strings

/-! ## The parser -/

section Parser

variable {platform : EdhocPlatform} {msg2 behind : Bytes}
  {gYLen cRLen ciphertext2Len : Nat} {m : M2}

theorem exec_msg2Parse_of_error {fault : Fault}
    (failed : cborDecodeM2 platform msg2 = .error fault) :
    exec (msg2Parse platform msg2 behind gYLen cRLen ciphertext2Len) [] =
      (.error fault, []) := by
  unfold msg2Parse
  rw [exec_lift_bind, failed, andThen_error]

/-- The copies that are made before `C_R` is looked at. -/
def gYCopies (m : M2) (gYLen ciphertext2Len : Nat) : List Copy :=
  [⟨m.gYCiphertext2.len, 0, gYLen, gYLen⟩,
    ⟨m.gYCiphertext2.len, gYLen, m.gYCiphertext2.len - gYLen, ciphertext2Len⟩]

/-- The copies of `G_Y` and `CIPHERTEXT_2` are in bounds. -/
theorem gYCopies_inBounds (fits : m.GYFits gYLen ciphertext2Len) :
    ∀ copy ∈ gYCopies m gYLen ciphertext2Len, copy.InBounds := by
  unfold M2.GYFits at fits
  intro copy isCopy
  simp only [gYCopies, List.mem_cons, List.not_mem_nil, or_false] at isCopy
  unfold Copy.InBounds
  rcases isCopy with rfl | rfl
  · dsimp only
    omega
  · dsimp only
    omega

section Decoded

variable
  (decoded : cborDecodeM2 platform msg2 = .ok m)
  (buffer : msg2.length + behind.length = msg2DefaultSize)
  (gYShort : gYLen ≤ gYDefaultSize)
  (room : gYLen + ciphertext2Len < 2 ^ 32)

include decoded buffer gYShort

/-- There are enough bytes in the buffer for `G_Y`, if not in the string. -/
theorem exec_msg2Parse_gY :
    exec (msg2Parse platform msg2 behind gYLen cRLen ciphertext2Len) [] =
      exec
        (do
          let gYCiphertext2 := extendView behind m.gYCiphertext2
          let ciphertext2 ←
            copyFrom gYCiphertext2 gYLen (uint32 (gYCiphertext2.len - gYLen))
              ciphertext2Len ciphertext2Len
          let cR ← cxSet cRLen (m.cR.extend behind)
          pure
            ⟨(gYCiphertext2.ptr.drop 0).take gYLen, ciphertext2, cR⟩)
        [⟨m.gYCiphertext2.len, 0, gYLen, gYLen⟩] := by
  obtain ⟨_, headShort, _, _⟩ := cborDecodeM2_inBounds decoded
  have available :
      0 + gYLen ≤ (extendView behind m.gYCiphertext2).ptr.length := by
    simp only [extendView, List.length_append]
    unfold msg2DefaultSize at buffer
    unfold gYDefaultSize p256PubKeyCompressedSize at gYShort
    omega
  unfold msg2Parse
  rw [exec_lift_bind, decoded, andThen_ok]
  dsimp only
  rw [exec_bind, exec_copyFrom_of_le (Nat.le_refl _) available
    (Nat.le_refl _)]
  rfl

include room

/-- A `G_Y_CIPHERTEXT_2` of the wrong length is refused. -/
theorem exec_msg2Parse_of_not_gYFits
    (misfit : ¬ m.GYFits gYLen ciphertext2Len) :
    (exec (msg2Parse platform msg2 behind gYLen cRLen ciphertext2Len)
      []).1 = .error (.err .bufferToSmall) := by
  obtain ⟨inBounds, _, inside, _⟩ := cborDecodeM2_inBounds decoded
  have lengthShort : m.gYCiphertext2.len < 2 ^ 32 := by
    unfold ByteArrayView.InBounds at inBounds
    unfold msg2DefaultSize at buffer
    omega
  have refused :
      ciphertext2Len < uint32 (m.gYCiphertext2.len - gYLen) := by
    unfold M2.GYFits at misfit
    unfold uint32
    omega
  rw [exec_msg2Parse_gY decoded buffer gYShort]
  dsimp only
  rw [exec_bind, exec_copyFrom, if_pos]
  · rfl
  · exact refused

/-- With a `G_Y_CIPHERTEXT_2` of the right length, all depends on `C_R`. -/
theorem exec_msg2Parse_of_gYFits (fits : m.GYFits gYLen ciphertext2Len) :
    exec (msg2Parse platform msg2 behind gYLen cRLen ciphertext2Len) [] =
      exec
        (do
          let cR ← cxSet cRLen (m.cR.extend behind)
          pure
            ⟨m.gYCiphertext2.content.take gYLen,
              m.gYCiphertext2.content.drop gYLen, cR⟩)
        (gYCopies m gYLen ciphertext2Len) := by
  obtain ⟨inBounds, _, inside, _⟩ := cborDecodeM2_inBounds decoded
  unfold ByteArrayView.InBounds at inBounds
  unfold M2.GYFits at fits
  have copyLen : uint32 (m.gYCiphertext2.len - gYLen) =
      m.gYCiphertext2.len - gYLen := by
    unfold msg2DefaultSize at buffer
    rw [uint32_of_nonneg (by omega) (by omega)]
    omega
  have gY : (extendView behind m.gYCiphertext2).ptr.take gYLen =
      m.gYCiphertext2.content.take gYLen := by
    unfold extendView ByteArrayView.content
    rw [List.take_append_of_le_length (by omega), List.take_take,
      Nat.min_eq_left fits.1]
  have ciphertext2 :
      ((extendView behind m.gYCiphertext2).ptr.drop gYLen).take
          (m.gYCiphertext2.len - gYLen) =
        m.gYCiphertext2.content.drop gYLen := by
    unfold extendView ByteArrayView.content
    rw [List.drop_append_of_le_length (by omega),
      List.take_append_of_le_length (by rw [List.length_drop]; omega),
      List.drop_take]
  rw [exec_msg2Parse_gY decoded buffer gYShort]
  dsimp only
  rw [exec_bind, exec_copyFrom_of_le]
  · dsimp only
    rw [List.drop_zero, gY, show (extendView behind m.gYCiphertext2).len =
      m.gYCiphertext2.len from rfl, copyLen, ciphertext2]
    rfl
  · simp only [extendView, copyLen]
    omega
  · simp only [extendView, copyLen, List.length_append]
    omega
  · simp only [extendView, copyLen]
    omega

end Decoded

end Parser

/-! ## The bounds of all copies -/

section Bounds

variable {platform : EdhocPlatform} {msg2 behind : Bytes}
  {gYLen cRLen ciphertext2Len : Nat} {m : M2}

theorem cxSet_int (value : Int32) (copies : List Copy) :
    exec (cxSet cRLen (.int value)) copies = (.ok (.int value), copies) := rfl

/-- The length of a byte string is compared with itself, not with that of the
buffer. -/
theorem cxSet_bstr {view : ByteArrayView} (inBounds : view.InBounds)
    (copies : List Copy) :
    exec (cxSet cRLen (.bstr (extendView behind view))) copies =
      (if cRLen < view.len then
          undefinedBehaviour
        else
          .ok (.bstr view.content),
        copies ++ [⟨view.len, 0, view.len, cRLen⟩]) := by
  unfold ByteArrayView.InBounds at inBounds
  have content : ((view.ptr ++ behind).drop 0).take view.len =
      view.content := by
    rw [List.drop_zero, List.take_append_of_le_length inBounds]
    rfl
  unfold cxSet
  rw [exec_bind, exec_copyFrom]
  simp only [extendView, Nat.lt_irrefl, if_false, Nat.zero_add,
    List.length_append, content]
  by_cases overflow : cRLen < view.len
  · rw [if_pos (Or.inr overflow), if_pos overflow]
    rfl
  · rw [if_neg (by omega), if_neg overflow]
    rfl

/-- A `C_R` that fits is copied inside its buffer. -/
theorem cxSet_copiesInBounds {copies : List Copy} {gY ciphertext2 : Bytes}
    (fits : m.CRFits cRLen) (inside : ∀ view, m.cR = .bstr view → view.InBounds)
    (before : ∀ copy ∈ copies, copy.InBounds) :
    CopiesInBounds
      (exec
        (do
          let cR ← cxSet cRLen (m.cR.extend behind)
          pure (⟨gY, ciphertext2, cR⟩ : ParsedMsg2))
        copies) := by
  apply Or.inr
  cases isCR : m.cR with
  | int value =>
      rw [exec_bind, CxItem.extend, cxSet_int]
      exact ⟨⟨_, rfl⟩, before⟩
  | bstr view =>
      have short := fits view isCR
      rw [exec_bind, CxItem.extend, cxSet_bstr (inside view isCR),
        if_neg (Nat.not_lt_of_le short)]
      refine ⟨⟨_, rfl⟩, ?_⟩
      intro copy isCopy
      simp only [exec_pure, List.mem_append, List.mem_singleton] at isCopy
      rcases isCopy with earlier | rfl
      · exact before copy earlier
      · exact ⟨Nat.le_of_eq (Nat.zero_add _), short⟩

/-- A longer `C_R` is written beyond the end of its buffer. -/
theorem cxSet_of_not_cRFits {copies : List Copy} {gY ciphertext2 : Bytes}
    (misfit : ¬ m.CRFits cRLen)
    (inside : ∀ view, m.cR = .bstr view → view.InBounds) :
    (exec
      (do
        let cR ← cxSet cRLen (m.cR.extend behind)
        pure (⟨gY, ciphertext2, cR⟩ : ParsedMsg2))
      copies).1 = undefinedBehaviour := by
  unfold M2.CRFits at misfit
  push Not at misfit
  obtain ⟨view, isCR, overflow⟩ := misfit
  replace overflow : cRLen < view.len := Nat.lt_of_not_le (by simpa using overflow)
  rw [exec_bind, isCR, CxItem.extend, cxSet_bstr (inside view isCR),
    if_pos overflow]
  rfl

theorem getEcdhPkLen_le (alg : EcdhAlg) :
    getEcdhPkLen alg ≤ gYDefaultSize := by
  cases alg <;> decide

theorem not_copiesInBounds_of_undefined
    {run : Outcome ParsedMsg2 × List Copy}
    (undefined : run.1 = undefinedBehaviour) : ¬ CopiesInBounds run := by
  rintro (⟨code, failed⟩ | ⟨⟨parsed, done⟩, _⟩)
  · rw [undefined] at failed
    cases failed
  · rw [undefined] at done
    cases done

/-- `msg2_parse` stays in bounds and refuses what does not fit exactly when a
`C_R` that comes with a fitting `G_Y_CIPHERTEXT_2` is an integer or not longer
than the buffer given to `c_x_init`. -/
theorem msg2Parse_parsesSafely_iff
    (platform : EdhocPlatform) (suite : Suite) (msg2 behind : Bytes)
    (cRLen ciphertext2Len : Nat)
    (buffer : msg2.length + behind.length = msg2DefaultSize)
    (room : getEcdhPkLen suite.edhocEcdh + ciphertext2Len < 2 ^ 32) :
    ParsesSafely platform msg2 behind (getEcdhPkLen suite.edhocEcdh) cRLen
        ciphertext2Len ↔
      ∀ m, cborDecodeM2 platform msg2 = .ok m →
        m.GYFits (getEcdhPkLen suite.edhocEcdh) ciphertext2Len →
          m.CRFits cRLen := by
  have gYShort := getEcdhPkLen_le suite.edhocEcdh
  generalize getEcdhPkLen suite.edhocEcdh = gYLen at room gYShort ⊢
  unfold ParsesSafely
  cases decoded : cborDecodeM2 platform msg2 with
  | error fault =>
      have isErr := tryExpect_eq_error decoded
      rw [exec_msg2Parse_of_error decoded, isErr]
      constructor
      · intro _ m isDecoded
        cases isDecoded
      · intro _
        exact ⟨Or.inl ⟨_, rfl⟩, fun m isDecoded => nomatch isDecoded⟩
  | ok m =>
      obtain ⟨_, _, _, inside⟩ := cborDecodeM2_inBounds decoded
      by_cases fits : m.GYFits gYLen ciphertext2Len
      · have run := @exec_msg2Parse_of_gYFits _ _ _ _ cRLen _ _ decoded buffer
          gYShort room fits
        constructor
        · rintro ⟨inBounds, _⟩ m' isDecoded _
          cases isDecoded
          by_contra misfit
          apply not_copiesInBounds_of_undefined _ inBounds
          rw [run]
          exact cxSet_of_not_cRFits misfit inside
        · intro cRFits
          have short := cRFits m rfl fits
          constructor
          · rw [run]
            exact cxSet_copiesInBounds short inside (gYCopies_inBounds fits)
          · rintro m' isDecoded misfit
            cases isDecoded
            exact absurd ⟨fits, short⟩ misfit
      · have refused := @exec_msg2Parse_of_not_gYFits _ _ _ _ cRLen _ _ decoded
          buffer gYShort room fits
        constructor
        · rintro _ m' isDecoded fits'
          cases isDecoded
          exact absurd fits' fits
        · intro _
          exact ⟨Or.inl ⟨_, refused⟩, fun _ _ _ => ⟨_, refused⟩⟩

end Bounds

/-! ## The vector -/

/-- In the exchange of the vector `C_R` is an empty byte string. -/
theorem msg2Parse_parsesSafely_v1 :
    ParsesSafely v1Platform v1Message2 (behindMsg2 v1Message2) 32 cRDefaultSize
      ciphertext2DefaultSize := by
  have isEmpty : (cborDecodeM2 v1Platform v1Message2).map M2.cR =
      .ok (.bstr ⟨0, []⟩) := by
    decide +kernel
  apply
    (msg2Parse_parsesSafely_iff v1Platform v1Opened2.suite v1Message2
      (behindMsg2 v1Message2) cRDefaultSize ciphertext2DefaultSize
      (by decide +kernel) (by decide)).mpr
  intro m decoded _ view isBstr
  rw [decoded] at isEmpty
  simp only [Except.map, Except.ok.injEq] at isEmpty
  rw [isEmpty] at isBstr
  cases isBstr
  exact Nat.zero_le _

/-- The message of the vector with a `C_R` of two bytes. -/
def v1LongCRMessage2 : Bytes :=
  v1Message2.dropLast ++ [0x42, 1, 2]

/-- The initiator of the vector writes this `C_R` beyond the one byte that
`msg3_gen` has for it. -/
theorem longCR_overflows :
    ¬ ∀ (platform : EdhocPlatform) (suite : Suite) (msg2 : Bytes),
        msg2.length ≤ msg2DefaultSize →
          ParsesSafely platform msg2 (behindMsg2 msg2)
            (getEcdhPkLen suite.edhocEcdh) cRDefaultSize
            ciphertext2DefaultSize := by
  intro safe
  have undefined :
      (exec
        (msg2Parse v1Platform v1LongCRMessage2 (behindMsg2 v1LongCRMessage2)
          (getEcdhPkLen v1Opened2.suite.edhocEcdh) cRDefaultSize
          ciphertext2DefaultSize) []).1 = undefinedBehaviour := by
    decide +kernel
  exact not_copiesInBounds_of_undefined undefined
    (safe v1Platform v1Opened2.suite v1LongCRMessage2 (by decide)).1

end UoscoreUedhoc.Edhoc
